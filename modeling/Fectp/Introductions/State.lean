import Fectp.Endpoint.Poll
import Fectp.Rendezvous.Control

namespace Fectp

/-!
# An endpoint that is a client of a rendezvous

The client registers with a rendezvous, asks it for other keys, and acts on
what it is told: a punch and a handshake to the address an introduction names,
then hellos to the port a relay's offer names and a handshake through it.  All
of it is a layer over the endpoint, whose `poll` is one pass of the client's:
the client does what its introductions need, lets the endpoint poll, and takes
the events that are its own.

Random bytes and the order in which tables are walked are inputs of a step, as
the clock is, and so are the sessions that had something sent again.
-/

def maxIntroductions : Nat := 16

def introductionDeadline : Nat := 90000

/-- How often a relay's port is bound before it is given up on. -/
def maxBinds : Nat := 5

def bindInterval : Nat := 500

def relayRefresh : Nat := 20000

def refreshFloor : Nat := 1000

def minGroupSecret : Nat := 16

def punchByte : UInt8 := 0x50

/-- Where an introduction has got to. -/
inductive Stage where
  | asked
  /-- Told where the other is; the starting side has a handshake under way. -/
  | introduced (outbound : Option PeerId) (relayAsked : Bool)
  /-- Offered a relay's port, and proving an address to it. -/
  | relaying (port : SocketAddr) (token : Bytes) (checked legacy : Bool)
      (binds nextBind : Nat) (outbound : Option PeerId)
  deriving Repr, DecidableEq

/-- The handle of a handshake started for an introduction. -/
def Stage.outbound? : Stage → Option PeerId
  | .asked => none
  | .introduced outbound _ => outbound
  | .relaying _ _ _ _ _ _ outbound => outbound

/-- An introduction asked for. -/
structure Ask where
  since : Nat
  stage : Stage
  deriving Repr, DecidableEq

/-- A relayed session's port. -/
structure Link where
  port : SocketAddr
  token : Bytes
  legacy : Bool
  nextRefresh : Nat
  /-- When a hello may next be sent for a resend's sake. -/
  soonest : Nat
  deriving Repr, DecidableEq

/-- A group the client is in. -/
structure Group where
  /-- What members' certificates are keyed with. -/
  key : Bytes
  /-- The client's own certificate. -/
  mac : Bytes
  members : List Key
  deriving Repr, DecidableEq

/-- A client's side of the rendezvous. -/
structure ClientState where
  rendezvous : Option PeerId
  registered : Bool
  observed : Option SocketAddr
  asks : Table Key Ask
  relayed : Table PeerId Link
  groups : Table GroupTag Group

/-- What a client is called for, is told, or does. -/
inductive Act where
  /-- A call of `introduce` is taken up. -/
  | called
  /-- An introduction that is acted on names an address. -/
  | told (addr : SocketAddr)
  /-- An offer that is acted on names a port. -/
  | offered (port : SocketAddr)
  /-- A datagram that is no frame is handed to the socket. -/
  | sends (bytes : Bytes) (addr : SocketAddr)
  /-- A handshake is begun to an address. -/
  | begins (addr : SocketAddr)
  deriving Repr, DecidableEq

/-- What something is done for. -/
inductive Cause where
  | caller
  /-- A key that is asked for. -/
  | ask (key : Key)
  /-- A relayed session. -/
  | link (peer : PeerId)
  deriving Repr, DecidableEq

/-- What a client runs on. -/
structure ClientEnv (ω : Type*) extends Env ω where
  /-- The public half of an identity. -/
  publicOf : Bytes → Key
  hash : List Bytes → Bytes

/-- An endpoint, its side of a rendezvous, and its caller. -/
structure ClientEndpoint (ω : Type*) extends ClientState where
  driver : Endpoint.Driver ω
  /-- Whether the caller is in `poll`, and until when. -/
  polling : Option (Option Nat)
  /-- What was done, and for what, for the record. -/
  record : List (Cause × Act)

namespace ClientEndpoint

inductive Action where
  /-- A call of the endpoint's own. -/
  | call (action : Endpoint.Action)
  | connectRendezvous (addr : SocketAddr) (rendezvousPublic : Key)
  | introduce (key : Key)
  | joinGroup (secret : Bytes)
  | leaveGroup (tag : GroupTag)
  | poll (timeout : Option Nat)
  /-- The top of the loop: introductions, then the endpoint's poll. -/
  | turn
  /-- A step of the endpoint's poll. -/
  | pass (action : Endpoint.Action)

/-- An action and all that comes from outside. -/
structure Moment where
  nowMs : Nat
  walk : Walk
  keys : Sequence Key
  tags : Sequence GroupTag
  /-- The identifier and the random bytes of a handshake begun here. -/
  sessionId : BitVec 32
  random : Bytes
  /-- The bytes a hello to a port is filled up with. -/
  pad : SocketAddr → Bytes
  /-- Sessions that had something sent again. -/
  resent : List PeerId
  action : Action

inductive Reply where
  | endpoint (reply : Endpoint.Reply)
  | introducing (result : Except Error Unit)
  | joining (result : Except Error GroupTag)
  | left (was : Bool)
  deriving DecidableEq

variable {ω : Type*} (env : ClientEnv ω)

def new (endpoint : Endpoint ω) : ClientEndpoint ω where
  rendezvous := none
  registered := false
  observed := none
  asks := ∅
  relayed := ∅
  groups := ∅
  driver := .new endpoint
  polling := none
  record := []

/-- The endpoint changes, and nothing else does. -/
def withEndpoint (client : ClientEndpoint ω) (endpoint : Endpoint ω) :
    ClientEndpoint ω :=
  { client with driver := { client.driver with endpoint := endpoint } }

def note (client : ClientEndpoint ω) (cause : Cause) (act : Act) :
    ClientEndpoint ω :=
  { client with record := client.record ++ [(cause, act)] }

def setStage (client : ClientEndpoint ω) (key : Key) (stage : Stage) :
    ClientEndpoint ω :=
  { client with
    asks := client.asks.update key fun ask => { ask with stage := stage } }

/--
A datagram that is no frame; whether it went does not matter.  All that a
client sends past its endpoint goes through here, and on the record.
-/
def sendRaw
    (client : ClientEndpoint ω)
    (cause : Cause)
    (bytes : Bytes)
    (addr : SocketAddr)
    (nowMs : Nat) :
    ClientEndpoint ω :=
  let endpoint := client.driver.endpoint
  let (_, socket) :=
    env.sendTo endpoint.socket ⟨bytes, addr, endpoint.nextId, none, nowMs⟩
  (client.note cause (.sends bytes addr)).withEndpoint
    { endpoint with socket := socket }

def wakeAt (client : ClientEndpoint ω) (due : Nat) : ClientEndpoint ω :=
  client.withEndpoint (client.driver.endpoint.wakeAt due)

def raise (client : ClientEndpoint ω) (event : Event) : ClientEndpoint ω :=
  let endpoint := client.driver.endpoint
  client.withEndpoint { endpoint with events := endpoint.events ++ [event] }

/-- The client's own static key. -/
def ownKey (client : ClientEndpoint ω) : Option Key :=
  match client.driver.endpoint.mode with
  | .publicKey identity => some (env.publicOf identity)
  | .psk _ => none

/-- Whether the holder of one key starts the handshake with another's. -/
def starts (ours theirs : Key) : Bool :=
  ours < theirs

/-- Whether a session with a key is open or being opened. -/
def hasSessionWith (client : ClientEndpoint ω) (key : Key) : Bool :=
  let endpoint := client.driver.endpoint
  endpoint.peers.values.any (·.peer.session.remoteStatic == key) ||
    endpoint.outbound.values.any (·.peerKey == some key)

/-- Sends the rendezvous a message, dropping it if it cannot go. -/
def tellRendezvous
    (client : ClientEndpoint ω)
    (control : Control)
    (nowMs : Nat) :
    ClientEndpoint ω :=
  match client.rendezvous with
  | none =>
      client
  | some peer =>
      let (_, endpoint) :=
        Endpoint.sendReliable env.toEnv client.driver.endpoint peer
          control.encode .opaqueBytes nowMs
      client.withEndpoint endpoint

/-- Begins a handshake with the holder of a key. -/
def connect
    (client : ClientEndpoint ω)
    (cause : Cause)
    (addr : SocketAddr)
    (key : Key)
    (moment : Moment) :
    Except Error PeerId × ClientEndpoint ω :=
  let (result, endpoint) :=
    Endpoint.connectAndSend env.toEnv client.driver.endpoint addr (some key)
      [] moment.sessionId moment.random moment.nowMs
  (result, (client.note cause (.begins addr)).withEndpoint endpoint)

/-- Ends an introduction as failed. -/
def failIntroduction
    (client : ClientEndpoint ω)
    (key : Key)
    (reason : Unavailable) :
    ClientEndpoint ω :=
  match client.asks.lookup key with
  | none =>
      client
  | some _ =>
      raise { client with asks := client.asks.erase key }
        (.introductionFailed key reason)

/-- Ends introductions that cannot come about any more. -/
def failAll (client : ClientEndpoint ω) (keys : List Key) :
    ClientEndpoint ω :=
  keys.foldl
    (fun client key => client.failIntroduction key .unreachable)
    client

/-- The rendezvous is gone: everything asked of it fails. -/
def loseRendezvous (client : ClientEndpoint ω) (moment : Moment) :
    ClientEndpoint ω :=
  failAll
    { client with
      rendezvous := none
      registered := false
      observed := none
      groups :=
        client.groups.keys.foldl
          (fun groups tag =>
            groups.update tag fun group => { group with members := [] })
          client.groups }
    (moment.keys.order client.asks.keys)

/-! ### Calls -/

def connectRendezvous
    (client : ClientEndpoint ω)
    (addr : SocketAddr)
    (rendezvousPublic : Key)
    (moment : Moment) :
    Except Error PeerId × ClientEndpoint ω :=
  match client.driver.endpoint.mode with
  | .psk _ =>
      (.error .missingPeerKey, client)
  | .publicKey _ =>
      match connect env client .caller addr rendezvousPublic moment with
      | (.error error, client) =>
          (.error error, client)
      | (.ok peer, client) =>
          (.ok peer,
            { client with
              rendezvous := some peer
              registered := false
              observed := none })

def introduce (client : ClientEndpoint ω) (key : Key) (nowMs : Nat) :
    Except Error Unit × ClientEndpoint ω :=
  if client.rendezvous.isNone then
    (.error .noRendezvous, client)
  else if client.hasSessionWith key then
    (.ok (), client)
  else if (client.asks.lookup key).isNone &&
      client.asks.keys.length ≥ maxIntroductions then
    (.error (.protocol .windowFull), client)
  else
    let client :=
      note
        { client with asks := client.asks.insert key ⟨nowMs, .asked⟩ }
        (.ask key) .called
    let client :=
      if client.registered then
        tellRendezvous env client (.introduce key) nowMs
      else
        client
    (.ok (), client.wakeAt nowMs)

/-- `fectp group tag`, in bytes. -/
def groupTagLabel : Bytes :=
  [102, 101, 99, 116, 112, 32, 103, 114, 111, 117, 112, 32, 116, 97, 103]

/-- `fectp group key`, in bytes. -/
def groupKeyLabel : Bytes :=
  [102, 101, 99, 116, 112, 32, 103, 114, 111, 117, 112, 32, 107, 101, 121]

/-- `fectp group member`, in bytes. -/
def groupMemberLabel : Bytes :=
  [102, 101, 99, 116, 112, 32, 103, 114, 111, 117, 112, 32, 109, 101, 109, 98,
    101, 114]

def groupTag (secret : Bytes) : GroupTag :=
  (env.hash [groupTagLabel, secret]).take groupTagLen

def groupKey (secret : Bytes) : Bytes :=
  env.hash [groupKeyLabel, secret]

/-- The certificate a member files with its key. -/
def memberMac (groupKey : Bytes) (member : Key) : Bytes :=
  (env.hash [groupMemberLabel, groupKey, member]).take macLen

def joinGroup (client : ClientEndpoint ω) (secret : Bytes) (nowMs : Nat) :
    Except Error GroupTag × ClientEndpoint ω :=
  if secret.length < minGroupSecret then
    (.error .groupSecretTooShort, client)
  else if client.rendezvous.isNone then
    (.error .noRendezvous, client)
  else
    match ownKey env client with
    | none =>
        (.error .missingPeerKey, client)
    | some own =>
        let tag := groupTag env secret
        if (client.groups.lookup tag).isNone &&
            client.groups.keys.length ≥ maxGroups then
          (.error (.protocol .windowFull), client)
        else
          let key := groupKey env secret
          let mac := memberMac env key own
          let client :=
            { client with groups := client.groups.insert tag ⟨key, mac, []⟩ }
          (.ok tag,
            if client.registered then
              tellRendezvous env client (.join tag mac) nowMs
            else
              client)

def leaveGroup (client : ClientEndpoint ω) (tag : GroupTag) (nowMs : Nat) :
    Bool × ClientEndpoint ω :=
  match client.groups.lookup tag with
  | none =>
      (false, client)
  | some _ =>
      (true,
        tellRendezvous env { client with groups := client.groups.erase tag }
          (.leave tag) nowMs)

/-! ### What the rendezvous says -/

/-- The rendezvous has answered the registration. -/
def onObserved
    (client : ClientEndpoint ω)
    (addr : SocketAddr)
    (moment : Moment) :
    ClientEndpoint ω :=
  let client := { client with observed := some addr }
  if client.registered then
    client
  else
    let client := { client with registered := true }
    let waiting :=
      (moment.keys.order client.asks.keys).filter fun key =>
        (client.asks.lookup key).any (·.stage == .asked)
    let introduces := waiting.map Control.introduce
    let joins :=
      (moment.tags.order client.groups.keys).filterMap fun tag =>
        (client.groups.lookup tag).map fun group => Control.join tag group.mac
    (introduces ++ joins).foldl
      (fun client control => tellRendezvous env client control moment.nowMs)
      client

/-- The rendezvous tells where the holder of a key is. -/
def onIntroduction
    (client : ClientEndpoint ω)
    (key : Key)
    (addr : SocketAddr)
    (moment : Moment) :
    ClientEndpoint ω :=
  -- Only what was asked for, and not twice.
  let asked := (client.asks.lookup key).any (·.stage == .asked)
  if !asked || client.hasSessionWith key then
    client
  else
    let client :=
      sendRaw env (client.note (.ask key) (.told addr)) (.ask key)
        [notAFrame, punchByte] addr moment.nowMs
    if (ownKey env client).any (starts · key) then
      match connect env client (.ask key) addr key moment with
      | (.error _, client) =>
          client.failIntroduction key .unreachable
      | (.ok peer, client) =>
          client.setStage key (.introduced (some peer) false)
    else
      client.setStage key (.introduced none false)

/-- The rendezvous offers a relay to the holder of a key. -/
def onRelayOffer
    (client : ClientEndpoint ω)
    (key : Key)
    (port : SocketAddr)
    (token : Bytes)
    (nowMs : Nat) :
    ClientEndpoint ω :=
  match client.asks.lookup key with
  | some ⟨_, .introduced _ _⟩ =>
      wakeAt
        (setStage (client.note (.ask key) (.offered port)) key
          (.relaying port token false false 0 nowMs none))
        nowMs
  | _ =>
      client

/-- The rendezvous lists a group. -/
def onMembers
    (client : ClientEndpoint ω)
    (tag : GroupTag)
    (list : List (Key × Bytes)) :
    ClientEndpoint ω :=
  match client.groups.lookup tag with
  | none =>
      client
  | some group =>
      let own := ownKey env client
      let checked :=
        ((list.filter fun (key, mac) =>
          own != some key &&
            Relay.same mac (memberMac env group.key key)).map Prod.fst).dedup
      let found :=
        (checked.filter (!group.members.contains ·)).mergeSort (· ≤ ·)
      found.foldl
        (fun client key => client.raise (.peerDiscovered key tag))
        { client with
          groups := client.groups.insert tag { group with members := checked } }

/-- Acts on one message from the rendezvous. -/
def onControl
    (client : ClientEndpoint ω)
    (control : Control)
    (moment : Moment) :
    ClientEndpoint ω :=
  match control with
  | .observed addr =>
      onObserved env client addr moment
  | .unavailable key reason =>
      client.failIntroduction key (Unavailable.fromByte reason)
  | .introduction key addr =>
      onIntroduction env client key addr moment
  | .relayOffer key port token =>
      client.onRelayOffer key port token moment.nowMs
  | .members tag list =>
      onMembers env client tag list
  | .register | .introduce _ | .relay _ | .join _ _ | .leave _ =>
      client

/-! ### Events -/

/-- A session with a key answers the request for it. -/
def onConnected (client : ClientEndpoint ω) (peer : PeerId) (nowMs : Nat) :
    ClientEndpoint ω :=
  match client.driver.endpoint.peers.lookup peer with
  | none =>
      client
  | some entry =>
      let key := entry.peer.session.remoteStatic
      match client.asks.lookup key with
      | none =>
          client
      | some ask =>
          let client := { client with asks := client.asks.erase key }
          match ask.stage with
          | .relaying port token _ legacy _ _ _ =>
              if entry.addr = port then
                wakeAt
                  { client with
                    relayed :=
                      client.relayed.insert peer
                        { port := port
                          token := token
                          legacy := legacy
                          nextRefresh := nowMs + relayRefresh
                          soonest := nowMs } }
                  (nowMs + relayRefresh)
              else
                client
          | _ =>
              client

/-- The introduction a handshake was started for. -/
def owner (client : ClientEndpoint ω) (peer : PeerId) (moment : Moment) :
    Option Key :=
  (moment.keys.order client.asks.keys).find? fun key =>
    (client.asks.lookup key).any (·.stage.outbound? == some peer)

/-- A handshake of an introduction's has failed. -/
def onOwnFailure (client : ClientEndpoint ω) (key : Key) (nowMs : Nat) :
    ClientEndpoint ω :=
  match client.asks.lookup key with
  | some ⟨_, .introduced outbound false⟩ =>
      tellRendezvous env
        (client.setStage key (.introduced outbound true)) (.relay key) nowMs
  | _ =>
      client.failIntroduction key .unreachable

/-- Takes the events that are the rendezvous's, and passes on the rest. -/
def intercept (client : ClientEndpoint ω) (event : Event) (moment : Moment) :
    Option Event × ClientEndpoint ω :=
  match event with
  | .connected peer _ _ _ =>
      if client.rendezvous = some peer then
        (some event, tellRendezvous env client .register moment.nowMs)
      else
        (some event, client.onConnected peer moment.nowMs)
  | .message peer data =>
      if client.rendezvous = some peer then
        match Control.decode data with
        | none =>
            (none, client)
        | some control =>
            (none, onControl env client control moment)
      else
        (some event, client)
  | .connectFailed peer =>
      if client.rendezvous = some peer then
        (some event, client.loseRendezvous moment)
      else
        match client.owner peer moment with
        | none =>
            (some event, client)
        | some key =>
            (none, onOwnFailure env client key moment.nowMs)
  | .peerLost peer =>
      let client := { client with relayed := client.relayed.erase peer }
      if client.rendezvous = some peer then
        (some event, client.loseRendezvous moment)
      else
        (some event, client)
  | _ =>
      (some event, client)

/-! ### Time-driven work -/

/-- A hello, as long as the check it draws. -/
def hello (pad : Bytes) : Bytes :=
  [notAFrame, Relay.helloByte] ++ pad

/-- The bind of an older port, with the token in the clear. -/
def legacyBind (token : Bytes) : Bytes :=
  [notAFrame, Relay.bindByte] ++ token

/-- The answer to a check. -/
def answer (token nonce : Bytes) (legacy : Bool) : Bytes :=
  if legacy then
    [notAFrame, Relay.proofByte] ++ nonce
  else
    [notAFrame, Relay.answerByte] ++ nonce ++
      Relay.relayAnswer ⟨env.hash, putAddr⟩ token nonce

/--
What an introduction needs now: its stage after, what to send and where, and
whether it is given up on.
-/
def driveStage (stage : Stage) (nowMs : Nat) (pad : SocketAddr → Bytes) :
    Stage × Option (Bytes × SocketAddr) × Bool :=
  match stage with
  | .relaying port token checked legacy binds nextBind outbound =>
      if nowMs < nextBind || binds > maxBinds then
        (stage, none, false)
      else if binds = maxBinds then
        if !checked && !legacy then
          -- No hello was answered, so the port may be of an older kind.
          (.relaying port token checked true 0 nowMs outbound, none, false)
        else
          (.relaying port token checked legacy (binds + 1) nextBind outbound,
            none, !checked)
      else
        (.relaying port token checked legacy (binds + 1)
            (nowMs + bindInterval) outbound,
          some (if legacy then legacyBind token else hello (pad port), port),
          false)
  | _ =>
      (stage, none, false)

/-- Drives one introduction, up to what it has to send. -/
def driveAsk (client : ClientEndpoint ω) (key : Key) (moment : Moment) :
    Option (Bytes × SocketAddr) × Bool × ClientEndpoint ω :=
  match client.asks.lookup key with
  | none =>
      (none, false, client)
  | some ask =>
      let (stage, bind, abandoned) :=
        driveStage ask.stage moment.nowMs moment.pad
      (bind, abandoned, client.setStage key stage)

/-- Drives one introduction, sends what it has to send, or gives it up. -/
def driveKey (client : ClientEndpoint ω) (key : Key) (moment : Moment) :
    ClientEndpoint ω :=
  match client.driveAsk key moment with
  | (some (bytes, port), _, client) =>
      sendRaw env client (.ask key) bytes port moment.nowMs
  | (none, true, client) =>
      client.failIntroduction key .unreachable
  | (none, false, client) =>
      client

/-- Proves a relayed session's address again, if it is time to. -/
def refreshLink (client : ClientEndpoint ω) (peer : PeerId) (moment : Moment) :
    ClientEndpoint ω :=
  match client.relayed.lookup peer with
  | none =>
      client
  | some link =>
      if !link.legacy && link.nextRefresh ≤ moment.nowMs then
        sendRaw env
          { client with
            relayed :=
              client.relayed.insert peer
                { link with
                  nextRefresh := moment.nowMs + relayRefresh
                  soonest := moment.nowMs + refreshFloor } }
          (.link peer) (hello (moment.pad link.port)) link.port moment.nowMs
      else
        client

/-- Sends what the introductions need sent, and gives up on old ones. -/
def driveIntroductions (client : ClientEndpoint ω) (moment : Moment) :
    ClientEndpoint ω :=
  let expired :=
    (moment.keys.order client.asks.keys).filter fun key =>
      (client.asks.lookup key).any fun ask =>
        moment.nowMs - ask.since > introductionDeadline
  let client := client.failAll expired
  let client :=
    (moment.keys.order client.asks.keys).foldl
      (fun client key => driveKey env client key moment)
      client
  (moment.walk.order client.relayed.keys).foldl
    (fun client peer => refreshLink env client peer moment)
    client

/-- When an introduction next needs attention. -/
def nextIntroductionDeadline (client : ClientEndpoint ω) : Option Nat :=
  let asks :=
    client.asks.values.map fun ask =>
      match ask.stage with
      | .relaying _ _ _ _ binds nextBind _ =>
          if binds ≤ maxBinds then nextBind
          else ask.since + introductionDeadline
      | _ =>
          ask.since + introductionDeadline
  let links := (client.relayed.values.filter (!·.legacy)).map Link.nextRefresh
  (asks ++ links).min?

/-- A resend through a relay may mean that the port has lost this side. -/
def hastenRefresh (client : ClientEndpoint ω) (peer : PeerId) :
    ClientEndpoint ω :=
  match client.relayed.lookup peer with
  | none =>
      client
  | some link =>
      if !link.legacy && link.nextRefresh > link.soonest then
        wakeAt
          { client with
            relayed :=
              client.relayed.insert peer
                { link with nextRefresh := link.soonest } }
          link.soonest
      else
        client

/-! ### Datagrams that are no frames -/

/-- A check's nonce, of a datagram that is one. -/
def checkNonce (bytes : Bytes) : Option Bytes :=
  match bytes with
  | first :: second :: nonce =>
      if first = notAFrame ∧ second = Relay.checkByte ∧
          nonce.length = Relay.secretLen then
        some nonce
      else
        none
  | _ =>
      none

/-- The introduction whose port a check comes from, and the answer to it. -/
def checkedAsk
    (client : ClientEndpoint ω)
    (nonce : Bytes)
    (addr : SocketAddr)
    (moment : Moment) :
    Option (Key × Bytes × Bool) :=
  (moment.keys.order client.asks.keys).findSome? fun key =>
    match client.asks.lookup key with
    | some ⟨_, .relaying port token checked legacy _ _ _⟩ =>
        if port = addr then
          some (key, answer env token nonce legacy, !checked)
        else
          none
    | _ =>
        none

/-- Notes that a port has checked this side's address. -/
def noteChecked
    (client : ClientEndpoint ω)
    (key : Key)
    (outbound : Option PeerId) :
    ClientEndpoint ω :=
  match client.asks.lookup key with
  | some ⟨_, .relaying port token _ legacy binds nextBind held⟩ =>
      client.setStage key
        (.relaying port token true legacy binds nextBind (outbound <|> held))
  | _ =>
      client

/-- The relayed session whose port has an address. -/
def linkAt (client : ClientEndpoint ω) (addr : SocketAddr) (moment : Moment) :
    Option (PeerId × Link) :=
  (moment.walk.order client.relayed.keys).findSome? fun peer =>
    ((client.relayed.lookup peer).filter (·.port == addr)).map (peer, ·)

/-- A datagram that is no frame: only checks of a relay's port are answered. -/
def takeNotAFrame
    (client : ClientEndpoint ω)
    (bytes : Bytes)
    (addr : SocketAddr)
    (moment : Moment) :
    ClientEndpoint ω :=
  match checkNonce bytes with
  | none =>
      client
  | some nonce =>
      match client.linkAt addr moment with
      | some (peer, link) =>
          sendRaw env client (.link peer) (answer env link.token nonce link.legacy)
            addr moment.nowMs
      | none =>
          match checkedAsk env client nonce addr moment with
          | none =>
              client
          | some (key, reply, first) =>
              let client :=
                sendRaw env client (.ask key) reply addr moment.nowMs
              -- The starting side connects through the port once.
              if first && (ownKey env client).any (starts · key) then
                match connect env client (.ask key) addr key moment with
                | (.error _, client) =>
                    client.failIntroduction key .unreachable
                | (.ok peer, client) =>
                    client.noteChecked key (some peer)
              else
                client.noteChecked key none

/-! ### The caller -/

/-- Whether there is anything for the rendezvous machinery to do. -/
def isBusy (client : ClientEndpoint ω) : Bool :=
  !client.asks.keys.isEmpty || !client.relayed.keys.isEmpty

/-- The endpoint steps, and its reply is passed on. -/
def drive (client : ClientEndpoint ω) (moment : Endpoint.Moment) :
    Option Endpoint.Reply × ClientEndpoint ω :=
  let (reply, driver) := client.driver.step env.toEnv moment
  (reply, { client with driver := driver })

/-- A session that is disconnected is relayed no more. -/
def release (client : ClientEndpoint ω) (action : Endpoint.Action) :
    ClientEndpoint ω :=
  match action with
  | .disconnect peer =>
      if (client.driver.endpoint.outbound.lookup peer).isSome then
        client
      else
        { client with relayed := client.relayed.erase peer }
  | _ =>
      client

/-- Whether an action is a call made between polls. -/
def isCall : Endpoint.Action → Bool
  | .poll _ | .timers _ _ | .queues | .receive _ => false
  | _ => true

/-- A call of the endpoint's own. -/
def call
    (client : ClientEndpoint ω)
    (action : Endpoint.Action)
    (moment : Moment) :
    Option Reply × ClientEndpoint ω :=
  if isCall action then
    let (reply, client) :=
      drive env (client.release action) ⟨moment.nowMs, moment.walk, action⟩
    (reply.map .endpoint, client)
  else
    (none, client)

/-- `poll` comes back. -/
def comeBack (client : ClientEndpoint ω) (result : Except Error Event) :
    Option Reply × ClientEndpoint ω :=
  (some (.endpoint (.polled result)), { client with polling := none })

/-- Round the loop, unless the caller's time is up. -/
def goRound (client : ClientEndpoint ω) (deadline : Option Nat) (nowMs : Nat) :
    Option Reply × ClientEndpoint ω :=
  if deadline.any (nowMs ≥ ·) then client.comeBack (.ok .idle)
  else (none, client)

/-- What the introductions need before the endpoint polls. -/
def attend (client : ClientEndpoint ω) (moment : Moment) :
    ClientEndpoint ω :=
  if client.isBusy then driveIntroductions env client moment else client

/-- How long the endpoint may poll for. -/
def wait (client : ClientEndpoint ω) (deadline : Option Nat) (nowMs : Nat) :
    Option Nat :=
  ([deadline, client.nextIntroductionDeadline].filterMap id).min?.map
    (· - nowMs)

/-- The top of the loop. -/
def turn (client : ClientEndpoint ω) (deadline : Option Nat) (moment : Moment) :
    Option Reply × ClientEndpoint ω :=
  let client := attend env client moment
  match drive env client
      ⟨moment.nowMs, moment.walk,
        .poll (client.wait deadline moment.nowMs)⟩ with
  | (some (.polled (.ok event)), client) =>
      -- One that was waiting; there is no look at the clock.
      match intercept env client event moment with
      | (some event, client) =>
          client.comeBack (.ok event)
      | (none, client) =>
          (none, client)
  | (_, client) =>
      (none, client)

/-- What is done before the endpoint takes a step of its poll. -/
def prepare
    (client : ClientEndpoint ω)
    (action : Endpoint.Action)
    (moment : Moment) :
    ClientEndpoint ω :=
  match client.driver.call, action with
  | .reading _ _, .receive (.datagram bytes addr _) =>
      if bytes.head? = some notAFrame && client.isBusy then
        takeNotAFrame env client bytes addr moment
      else
        client
  | .polling _, .timers _ _ =>
      if client.driver.endpoint.nextWake.any (moment.nowMs ≥ ·) then
        moment.resent.foldl hastenRefresh client
      else
        client
  | _, _ =>
      client

/-- A step of the endpoint's poll. -/
def pass
    (client : ClientEndpoint ω)
    (deadline : Option Nat)
    (action : Endpoint.Action)
    (moment : Moment) :
    Option Reply × ClientEndpoint ω :=
  match drive env (prepare env client action moment)
      ⟨moment.nowMs, moment.walk, action⟩ with
  | (some (.polled (.error error)), client) =>
      client.comeBack (.error error)
  | (some (.polled (.ok .idle)), client) =>
      client.goRound deadline moment.nowMs
  | (some (.polled (.ok event)), client) =>
      match intercept env client event moment with
      | (some event, client) =>
          client.comeBack (.ok event)
      | (none, client) =>
          client.goRound deadline moment.nowMs
  | (_, client) =>
      (none, client)

/-- One step; an action that does not fit the call in progress is ignored. -/
def step (client : ClientEndpoint ω) (moment : Moment) :
    Option Reply × ClientEndpoint ω :=
  match client.polling, moment.action with
  | none, .call action =>
      call env client action moment
  | none, .connectRendezvous addr rendezvousPublic =>
      let (result, client) :=
        connectRendezvous env client addr rendezvousPublic moment
      (some (.endpoint (.connecting result)), client)
  | none, .introduce key =>
      let (result, client) := introduce env client key moment.nowMs
      (some (.introducing result), client)
  | none, .joinGroup secret =>
      let (result, client) := joinGroup env client secret moment.nowMs
      (some (.joining result), client)
  | none, .leaveGroup tag =>
      let (was, client) := leaveGroup env client tag moment.nowMs
      (some (.left was), client)
  | none, .poll timeout =>
      (none, { client with polling := some (timeout.map (moment.nowMs + ·)) })
  | some deadline, .turn =>
      match client.driver.call with
      | .idle =>
          turn env client deadline moment
      | _ =>
          (none, client)
  | some deadline, .pass action =>
      match client.driver.call with
      | .idle =>
          (none, client)
      | _ =>
          pass env client deadline action moment
  | _, _ =>
      (none, client)

/-- The state a step leaves. -/
def next (client : ClientEndpoint ω) (moment : Moment) : ClientEndpoint ω :=
  (step env client moment).2

end ClientEndpoint

end Fectp
