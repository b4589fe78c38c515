import Fectp.Endpoint.Poll
import Fectp.Rendezvous.Control

namespace Fectp

/-!
# A rendezvous

An endpoint underneath, and the bookkeeping for who is registered, who has
asked for whom, which pairs were introduced, what is relayed and who is in
which group.  It is driven as an endpoint is, pass by pass; when the endpoint
comes back with a message, the message is handled at once.

The ports a relay opens, their tokens, the address bound to and the order in
which tables are walked are inputs of a step, as the clock is.  So is what a
relay's threads forward.
-/

/-- A registered client. -/
structure Client where
  key : Key
  addr : SocketAddr
  deriving Repr, DecidableEq

/-- What one IP address may still ask for. -/
structure Budget where
  /-- A single float. -/
  left : Int
  refilled : Nat
  deriving Repr, DecidableEq

/-- A pair of keys in a fixed order. -/
abbrev Pair := Key × Key

def pair (first second : Key) : Pair :=
  if first < second then (first, second) else (second, first)

/-- Two ports opened for a pair: where each is advertised, and its token. -/
structure Allocation where
  first : SocketAddr × Bytes
  second : SocketAddr × Bytes
  /-- The client addresses it was made for. -/
  ips : List Nat
  lastForward : Nat
  deriving Repr, DecidableEq

def Allocation.idle (allocation : Allocation) (nowMs : Nat) : Bool :=
  nowMs - allocation.lastForward > relayIdle

/-- What a rendezvous keeps beside its endpoint. -/
structure Books where
  clients : Table PeerId Client
  byKey : Table Key PeerId
  budgets : Table Nat Budget
  /-- Who asked for whom, and when. -/
  asked : Table (Key × Key) Nat
  /-- Pairs introduced, and when. -/
  introduced : Table Pair Nat
  relays : Table Pair Allocation
  policy : Key → Key → Bool
  window : Nat
  /-- Where relay ports are advertised, if not where they are bound. -/
  relayIp : Option Nat
  /-- Members of each group, with the certificates they filed. -/
  groups : Table GroupTag (List (PeerId × Key × Bytes))

/-- The third party two peers both reach. -/
structure Rendezvous (ω : Type*) extends Books where
  /-- The endpoint, and where its caller is. -/
  driver : Endpoint.Driver ω
  /-- What this step has given its sessions to send, for the record. -/
  record : List (PeerId × Control)

namespace Endpoint

variable {ω : Type*}

def peerPublicKey (endpoint : Endpoint ω) (peerId : PeerId) : Option Key :=
  (endpoint.peers.lookup peerId).map (·.peer.session.remoteStatic)

def peerAddr (endpoint : Endpoint ω) (peerId : PeerId) : Option SocketAddr :=
  (endpoint.peers.lookup peerId).map (·.addr)

end Endpoint

namespace Rendezvous

/-- The longest a poll waits. -/
def maxPollWait : Nat := 1000

inductive Action where
  | setPolicy (allow : Key → Key → Bool)
  | setIntroductionWindow (window : Nat)
  | setRelayAddress (ip : Nat)
  | poll (timeout : Option Nat)
  /-- A step of the endpoint's poll. -/
  | pass (action : Endpoint.Action)
  /-- A relay forwards something. -/
  | forwarded (between : Pair)

/-- An action and all that comes from outside. -/
structure Moment where
  nowMs : Nat
  walk : Walk
  requests : Sequence (Key × Key)
  tags : Sequence GroupTag
  /-- The address bound to, if it can be told. -/
  localIp : Option Nat
  /-- The port numbers and tokens of a relay, if its ports can be opened. -/
  opened : Option ((Nat × Bytes) × (Nat × Bytes))
  action : Action

variable {ω : Type*} (env : Env ω)

def bind (key : Key) (socket : ω) : Rendezvous ω where
  clients := ∅
  byKey := ∅
  budgets := ∅
  asked := ∅
  introduced := ∅
  relays := ∅
  policy _ _ := true
  window := introductionWindow
  relayIp := none
  groups := ∅
  driver :=
    let endpoint := Endpoint.new env (.publicKey key) socket
    .new ((endpoint.setKeepalive (some 15000) 0).setPeerTimeout (some 60000) 0)
  record := []

/-- Sends a client a message, dropping it if it cannot go. -/
def send
    (rendezvous : Rendezvous ω)
    (peer : PeerId)
    (control : Control)
    (nowMs : Nat) :
    Rendezvous ω :=
  let (_, endpoint) :=
    Endpoint.sendReliable env rendezvous.driver.endpoint peer control.encode
      .opaqueBytes nowMs
  { rendezvous with
    driver := { rendezvous.driver with endpoint := endpoint }
    record := rendezvous.record ++ [(peer, control)] }

/-- Sends to the holder of a key, if it is registered. -/
def sendTo
    (rendezvous : Rendezvous ω)
    (key : Key)
    (control : Control)
    (nowMs : Nat) :
    Rendezvous ω :=
  match rendezvous.byKey.lookup key with
  | none =>
      rendezvous
  | some peer =>
      send env rendezvous peer control nowMs

/-! ### Groups -/

/-- Sends every member of a group the whole of it. -/
def tellGroup (rendezvous : Rendezvous ω) (tag : GroupTag) (nowMs : Nat) :
    Rendezvous ω :=
  match rendezvous.groups.lookup tag with
  | none =>
      rendezvous
  | some members =>
      let list := members.map fun (_, key, mac) => (key, mac)
      members.foldl
        (fun rendezvous (peer, _, _) =>
          send env rendezvous peer (.members tag list) nowMs)
        rendezvous

/-- Files a client in a group, or refiles it, and tells the group. -/
def join
    (rendezvous : Rendezvous ω)
    (peer : PeerId)
    (key : Key)
    (tag : GroupTag)
    (mac : Bytes)
    (nowMs : Nat) :
    Rendezvous ω :=
  let groups := rendezvous.groups
  let groupsOfPeer :=
    groups.entries.countP fun ⟨other, members⟩ =>
      other != tag && members.any (·.1 == peer)
  let members :=
    ((groups.lookup tag).getD []).filter fun (held, filed, _) =>
      held != peer && filed != key
  if members.length ≥ maxGroupMembers || groupsOfPeer ≥ maxGroups then
    { rendezvous with
      groups :=
        if members.isEmpty then groups.erase tag
        else groups.insert tag members }
  else
    tellGroup env
      { rendezvous with
        groups := groups.insert tag (members ++ [(peer, key, mac)]) }
      tag nowMs

def leave
    (rendezvous : Rendezvous ω)
    (peer : PeerId)
    (tag : GroupTag)
    (nowMs : Nat) :
    Rendezvous ω :=
  match rendezvous.groups.lookup tag with
  | none =>
      rendezvous
  | some members =>
      let kept := members.filter (·.1 != peer)
      if kept.length = members.length then
        rendezvous
      else if kept.isEmpty then
        { rendezvous with groups := rendezvous.groups.erase tag }
      else
        tellGroup env
          { rendezvous with groups := rendezvous.groups.insert tag kept }
          tag nowMs

/-! ### Registration -/

def forget (rendezvous : Rendezvous ω) (peer : PeerId) (moment : Moment) :
    Rendezvous ω :=
  let rendezvous :=
    match rendezvous.clients.lookup peer with
    | none =>
        rendezvous
    | some client =>
        { rendezvous with
          clients := rendezvous.clients.erase peer
          byKey :=
            if rendezvous.byKey.lookup client.key = some peer then
              rendezvous.byKey.erase client.key
            else
              rendezvous.byKey }
  -- A client that has gone leaves its groups.
  let left :=
    (moment.tags.order rendezvous.groups.keys).filter fun tag =>
      (rendezvous.groups.lookup tag).any (·.any (·.1 == peer))
  left.foldl
    (fun rendezvous tag => leave env rendezvous peer tag moment.nowMs)
    rendezvous

def register (rendezvous : Rendezvous ω) (peer : PeerId) (nowMs : Nat) :
    Rendezvous ω :=
  let endpoint := rendezvous.driver.endpoint
  match endpoint.peerPublicKey peer, endpoint.peerAddr peer with
  | some key, some addr =>
      let clients := rendezvous.clients
      if (clients.lookup peer).isNone &&
          clients.values.countP (·.addr.ip == addr.ip) ≥ maxClientsPerIp then
        rendezvous
      else
        -- A key reconnecting replaces its old registration.
        let clients :=
          match rendezvous.byKey.lookup key with
          | some old => if old = peer then clients else clients.erase old
          | none => clients
        send env
          { rendezvous with
            clients := clients.insert peer ⟨key, addr⟩
            byKey := rendezvous.byKey.insert key peer }
          peer (.observed addr) nowMs
  | _, _ =>
      rendezvous

/-! ### Introductions -/

/-- Takes one request's worth from an address's budget, if it has one. -/
def spend (rendezvous : Rendezvous ω) (ip : Nat) (nowMs : Nat) :
    Bool × Rendezvous ω :=
  let most := FloatFormat.single.ofNat (2 * introductionsPerSecond)
  let budget := (rendezvous.budgets.lookup ip).getD ⟨most, nowMs⟩
  let spent :=
    TokenBucket.spend .single budget.left ((nowMs - budget.refilled) * 1000000)
      (FloatFormat.single.ofNat introductionsPerSecond) most
      FloatFormat.single.one
  (spent.1,
    { rendezvous with
      budgets := rendezvous.budgets.insert ip ⟨spent.2, nowMs⟩ })

def introduce
    (rendezvous : Rendezvous ω)
    (peer : PeerId)
    (asker target : Key)
    (nowMs : Nat) :
    Rendezvous ω :=
  if target = asker then
    rendezvous
  else if rendezvous.policy asker target = false then
    send env rendezvous peer
      (.unavailable target Unavailable.refused.toByte) nowMs
  else
    -- Held even if the target has not registered yet.
    let rendezvous :=
      { rendezvous with
        asked := rendezvous.asked.insert (asker, target) nowMs }
    let mutual' :=
      (rendezvous.asked.lookup (target, asker)).any fun since =>
        nowMs - since ≤ rendezvous.window
    match rendezvous.byKey.lookup target with
    | none =>
        rendezvous
    | some other =>
        if mutual' = false then
          rendezvous
        else
          let endpoint := rendezvous.driver.endpoint
          match endpoint.peerAddr peer, endpoint.peerAddr other with
          | some here, some there =>
              let rendezvous :=
                { rendezvous with
                  asked :=
                    (rendezvous.asked.erase (asker, target)).erase
                      (target, asker)
                  introduced :=
                    rendezvous.introduced.insert (pair asker target) nowMs }
              send env
                (send env rendezvous peer (.introduction target there) nowMs)
                other (.introduction asker here) nowMs
          | _, _ =>
              rendezvous

/-! ### Relays -/

/-- Refuses a relay to both sides of the pair. -/
def refuseRelay
    (rendezvous : Rendezvous ω)
    (asker target : Key)
    (reason : Unavailable)
    (nowMs : Nat) :
    Rendezvous ω :=
  sendTo env
    (sendTo env rendezvous asker (.unavailable target reason.toByte) nowMs)
    target (.unavailable asker reason.toByte) nowMs

/-- The IP addresses of the clients a relay is for. -/
def relayIps (rendezvous : Rendezvous ω) (peer other : PeerId) : List Nat :=
  ([rendezvous.clients.lookup peer, rendezvous.clients.lookup other].filterMap
    fun client => client.map (·.addr.ip)).dedup

/-- Opens a relay for a pair, unless there is no room for it. -/
def allocate
    (rendezvous : Rendezvous ω)
    (peer other : PeerId)
    (moment : Moment) :
    Option Allocation := do
  let ips := rendezvous.relayIps peer other
  let relays := rendezvous.relays.values
  let crowded :=
    ips.any fun ip =>
      relays.countP (·.ips.contains ip) ≥ maxRelaysPerIp
  let bound ← moment.localIp
  -- A wildcard is not an address clients can send to.
  let advertised := rendezvous.relayIp.getD bound
  guard (!(relays.length ≥ maxRelays || crowded || isUnspecified advertised))
  let (first, second) ← moment.opened
  return {
    first := (⟨advertised, first.1⟩, first.2)
    second := (⟨advertised, second.1⟩, second.2)
    ips := ips
    lastForward := moment.nowMs }

/-- Tells both sides of a pair of their ports. -/
def offer
    (rendezvous : Rendezvous ω)
    (between : Pair)
    (allocation : Allocation)
    (nowMs : Nat) :
    Rendezvous ω :=
  -- The first port for the smaller key, whoever asked.
  sendTo env
    (sendTo env rendezvous between.1
      (.relayOffer between.2 allocation.first.1 allocation.first.2) nowMs)
    between.2
    (.relayOffer between.1 allocation.second.1 allocation.second.2) nowMs

def relay
    (rendezvous : Rendezvous ω)
    (peer : PeerId)
    (asker target : Key)
    (moment : Moment) :
    Rendezvous ω :=
  let nowMs := moment.nowMs
  let between := pair asker target
  let recent :=
    (rendezvous.introduced.lookup between).any fun since =>
      nowMs - since ≤ relayWindow
  match rendezvous.byKey.lookup target with
  | none =>
      send env rendezvous peer
        (.unavailable target Unavailable.notRegistered.toByte) nowMs
  | some other =>
      -- Of a pair not introduced recently only the asker hears.
      if recent = false then
        send env rendezvous peer
          (.unavailable target Unavailable.noRelay.toByte) nowMs
      else if rendezvous.policy asker target = false then
        refuseRelay env rendezvous asker target .noRelay nowMs
      else
        match rendezvous.relays.lookup between with
        | some allocation =>
            offer env rendezvous between allocation nowMs
        | none =>
            match rendezvous.allocate peer other moment with
            | none =>
                refuseRelay env rendezvous asker target .noRelay nowMs
            | some allocation =>
                offer env
                  { rendezvous with
                    relays := rendezvous.relays.insert between allocation }
                  between allocation nowMs

/-! ### Polling -/

def handle
    (rendezvous : Rendezvous ω)
    (peer : PeerId)
    (control : Control)
    (moment : Moment) :
    Rendezvous ω :=
  let nowMs := moment.nowMs
  if control = .register then
    register env rendezvous peer nowMs
  else
    match rendezvous.clients.lookup peer with
    | none =>
        rendezvous
    | some client =>
        match control with
        | .join tag mac =>
            let (allowed, rendezvous) := rendezvous.spend client.addr.ip nowMs
            if allowed then
              join env rendezvous peer client.key tag mac nowMs
            else
              rendezvous
        | .leave tag =>
            leave env rendezvous peer tag nowMs
        | .introduce target =>
            let (allowed, rendezvous) := rendezvous.spend client.addr.ip nowMs
            if allowed then
              introduce env rendezvous peer client.key target nowMs
            else
              send env rendezvous peer
                (.unavailable target Unavailable.refused.toByte) nowMs
        | .relay target =>
            let (allowed, rendezvous) := rendezvous.spend client.addr.ip nowMs
            if allowed then
              relay env rendezvous peer client.key target moment
            else
              send env rendezvous peer
                (.unavailable target Unavailable.refused.toByte) nowMs
        | _ =>
            rendezvous

/-- Tells the asker of a request that has run out. -/
def expireRequest
    (rendezvous : Rendezvous ω)
    (request : Key × Key)
    (nowMs : Nat) :
    Rendezvous ω :=
  let reason :=
    if (rendezvous.byKey.lookup request.2).isSome then Unavailable.notAsked
    else Unavailable.notRegistered
  sendTo env rendezvous request.1 (.unavailable request.2 reason.toByte) nowMs

/-- Releases what has run out. -/
def expire (rendezvous : Rendezvous ω) (moment : Moment) : Rendezvous ω :=
  let nowMs := moment.nowMs
  let live (_ : Key × Key) (since : Nat) : Bool :=
    nowMs - since ≤ rendezvous.window
  let expired :=
    (moment.requests.order rendezvous.asked.keys).filter fun request =>
      (rendezvous.asked.lookup request).any fun since => !live request since
  let rendezvous :=
    expired.foldl
      (fun rendezvous request =>
        expireRequest env rendezvous request nowMs)
      { rendezvous with asked := rendezvous.asked.retain live }
  { rendezvous with
    introduced :=
      rendezvous.introduced.retain fun _ since => nowMs - since ≤ relayWindow
    relays := rendezvous.relays.retain fun _ held => !held.idle nowMs
    budgets :=
      rendezvous.budgets.retain fun _ budget =>
        nowMs - budget.refilled < 60000 }

/-- A step of the endpoint, and what its poll comes back with, if it does. -/
def drive (rendezvous : Rendezvous ω) (moment : Endpoint.Moment) :
    Option (Except Error Event) × Rendezvous ω :=
  let (reply, driver) := rendezvous.driver.step env moment
  let rendezvous := { rendezvous with driver := driver }
  match reply with
  | some (.polled result) =>
      (some result, rendezvous)
  | _ =>
      (none, rendezvous)

/-- A step of a poll, up to what the endpoint comes back with. -/
def polled (rendezvous : Rendezvous ω) (moment : Moment) :
    Option (Except Error Event) × Rendezvous ω :=
  match rendezvous.driver.call, moment.action with
  | .idle, .poll timeout =>
      let wait := (timeout.getD maxPollWait).min maxPollWait
      drive env (rendezvous.expire env moment)
        ⟨moment.nowMs, moment.walk, .poll (some wait)⟩
  | .idle, _ =>
      (none, rendezvous)
  | _, .pass action =>
      drive env rendezvous ⟨moment.nowMs, moment.walk, action⟩
  | _, _ =>
      (none, rendezvous)

/-- Acts on what the endpoint came back with. -/
def settle (rendezvous : Rendezvous ω) (event : Event) (moment : Moment) :
    Rendezvous ω :=
  match event with
  | .message peer data =>
      match Control.decode data with
      | some control =>
          rendezvous.handle env peer control moment
      | none =>
          rendezvous
  | .peerLost peer =>
      rendezvous.forget env peer moment
  | _ =>
      rendezvous

/-- What the endpoint comes back with in a step, if anything. -/
def event? (rendezvous : Rendezvous ω) (moment : Moment) : Option Event :=
  (polled env { rendezvous with record := [] } moment).1.bind (·.toOption)

/-- One step; an action that does not fit the call in progress is ignored. -/
def next (rendezvous : Rendezvous ω) (moment : Moment) : Rendezvous ω :=
  let rendezvous := { rendezvous with record := [] }
  match rendezvous.driver.call, moment.action with
  | .idle, .setPolicy allow =>
      { rendezvous with policy := allow }
  | .idle, .setIntroductionWindow window =>
      { rendezvous with window := window }
  | .idle, .setRelayAddress ip =>
      { rendezvous with relayIp := some ip }
  | _, .forwarded between =>
      { rendezvous with
        relays :=
          rendezvous.relays.update between fun allocation =>
            { allocation with lastForward := moment.nowMs } }
  | _, _ =>
      match polled env rendezvous moment with
      | (some (.ok event), rendezvous) =>
          rendezvous.settle env event moment
      | (_, rendezvous) =>
          rendezvous

end Rendezvous

end Fectp
