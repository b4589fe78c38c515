import Fectp.Endpoint.State

namespace Fectp

/-!
# Handshakes of an endpoint

Those it starts, with what they teach about the path, and those it answers,
within a budget and never twice for the same opening frame.
-/

namespace Endpoint

variable {ω : Type*} (env : Env ω)

/-- How long to wait before resending an opening frame. -/
def handshakeDelay
    (endpoint : Endpoint ω)
    (addr : SocketAddr)
    (attempts : Nat) :
    Nat :=
  let path := endpoint.paths.lookup addr
  let ordinary :=
    (path.bind Path.rto).elim (handshakeRetryMs * attempts)
      (·.withBackoff (attempts - 1))
  if attempts ≤ 1 then
    (path.bind Path.floor).elim ordinary (max ordinary)
  else
    ordinary

/-- The time the cold schedule would have spent on this many attempts. -/
def handshakeTime (attempts : Nat) : Nat :=
  handshakeRetryMs * attempts * (attempts + 1) / 2

/-- Changes an address's entry in the path table, created if it has none. -/
def pathMut (endpoint : Endpoint ω) (addr : SocketAddr) (change : Path → Path) :
    Endpoint ω :=
  let paths :=
    if endpoint.paths.any (·.1 == addr) then
      endpoint.paths
    else if endpoint.paths.length ≥ maxMeasuredPaths then
      endpoint.paths.drop 1 ++ [(addr, ⟨none, none⟩)]
    else
      endpoint.paths ++ [(addr, ⟨none, none⟩)]
  { endpoint with
    paths :=
      paths.map fun (known, path) =>
        (known, if known == addr then change path else path) }

/-- Folds a completed handshake's round trip into its address's estimate. -/
def measurePath (endpoint : Endpoint ω) (addr : SocketAddr) (rtt : Nat) :
    Endpoint ω :=
  endpoint.pathMut addr fun path =>
    ⟨some ((path.rto.getD .new).sample (min rtt (maxValue 32))), none⟩

/-- Learns what it can from a handshake that completed after a resend. -/
def learnFromResent
    (endpoint : Endpoint ω)
    (addr : SocketAddr)
    (sinceFirst sinceLast : Nat) :
    Endpoint ω :=
  endpoint.pathMut addr fun path =>
    if path.rto.any (sinceLast ≤ ·.current) then
      { path with floor := none }
    else
      { path with floor := some (min (sinceFirst * 2) maxRtoMs) }

/-- Starts a connection, with data in its opening frame. -/
def connectAndSend
    (endpoint : Endpoint ω)
    (addr : SocketAddr)
    (peerPublic : Option Bytes)
    (zeroRtt : Bytes)
    (sessionId : BitVec 32)
    (random : Bytes)
    (nowMs : Nat) :
    Except Error PeerId × Endpoint ω :=
  let overhead :=
    match endpoint.mode with
    | .publicKey _ =>
        initiatorOverhead
    | .psk _ =>
        resumeInitiatorOverhead
  let limit := min env.maxDatagram baseDatagram - overhead
  let missingKey : Bool :=
    match endpoint.mode with
    | .publicKey _ =>
        peerPublic.isNone
    | .psk _ =>
        false
  if zeroRtt.length > limit then
    (.error (.payloadTooLarge zeroRtt.length limit), endpoint)
  else if missingKey then
    (.error .missingPeerKey, endpoint)
  else
    match env.noise.writeInit endpoint.mode peerPublic sessionId random
        zeroRtt with
    | .error error =>
        (.error error, endpoint)
    | .ok (handshake, frame) =>
        match sendDatagram env endpoint.socket
            ⟨frame, addr, endpoint.nextId, none, nowMs⟩ with
        | (.error error, socket) =>
            (.error error, { endpoint with socket := socket })
        | (.ok (), socket) =>
            let nextAttempt := nowMs + endpoint.handshakeDelay addr 1
            let peerId := endpoint.nextId
            let endpoint :=
              { endpoint with
                socket := socket
                nextId := endpoint.nextId + 1
                outbound :=
                  endpoint.outbound.insert peerId
                    { handshake := handshake
                      peerKey := peerPublic
                      addr := addr
                      sessionId := sessionId
                      frame := frame
                      nextAttempt := nextAttempt
                      attempts := 1
                      firstSent := nowMs
                      lastSent := nowMs } }
            (.ok peerId, endpoint.wakeAt nextAttempt)

/-- Forgets a peer. -/
def disconnect (endpoint : Endpoint ω) (peerId : PeerId) :
    Bool × Endpoint ω :=
  if (endpoint.outbound.lookup peerId).isSome then
    (true, { endpoint with outbound := endpoint.outbound.erase peerId })
  else
    match endpoint.peers.lookup peerId with
    | none =>
        (false, endpoint)
    | some entry =>
        (true, endpoint.removePeer peerId entry)

/-- Files a freshly established session and issues its next ticket. -/
def registerAs
    (endpoint : Endpoint ω)
    (peerId : PeerId)
    (link : Session)
    (addr : SocketAddr)
    (zeroRtt : Bytes)
    (resumed initiated : Bool)
    (nowMs : Nat) :
    Event × Endpoint ω :=
  let endpoint :=
    { endpoint with
      tickets :=
        endpoint.tickets.insert (env.noise.resumptionTicket link)
          link.remoteStatic nowMs fun _ => nowMs }
  (.connected peerId zeroRtt resumed initiated,
    file env endpoint peerId link addr nowMs)

/-- The same, under a handle of its own. -/
def register
    (endpoint : Endpoint ω)
    (link : Session)
    (addr : SocketAddr)
    (zeroRtt : Bytes)
    (resumed : Bool)
    (nowMs : Nat) :
    PeerId × Event × Endpoint ω :=
  (endpoint.nextId,
    registerAs env { endpoint with nextId := endpoint.nextId + 1 }
      endpoint.nextId link addr zeroRtt resumed false nowMs)

/-- Matches a handshake reply to the connection this endpoint started. -/
def completeOutbound
    (endpoint : Endpoint ω)
    (addr : SocketAddr)
    (sessionId : BitVec 32)
    (nowMs : Nat) :
    Option Event × Endpoint ω :=
  let started :=
    (env.walk.order endpoint.outbound.keys).filterMap fun id =>
      (endpoint.outbound.lookup id).map (id, ·)
  match started.find? fun (_, outbound) =>
      outbound.addr == addr && outbound.sessionId == sessionId with
  | none =>
      (none, endpoint)
  | some (peerId, outbound) =>
      let endpoint :=
        { endpoint with outbound := endpoint.outbound.erase peerId }
      let endpoint :=
        if outbound.attempts = 1 then
          endpoint.measurePath outbound.addr (nowMs - outbound.firstSent)
        else
          endpoint.learnFromResent outbound.addr
            (nowMs - outbound.firstSent) (nowMs - outbound.lastSent)
      let resumed : Bool :=
        match outbound.handshake with
        | .full _ =>
            false
        | .psk _ =>
            true
      match env.noise.readResponse outbound.handshake endpoint.rx with
      | .error _ =>
          (some (.connectFailed peerId), endpoint)
      | .ok (link, reply) =>
          let (event, endpoint) :=
            registerAs env endpoint peerId link outbound.addr reply resumed
              true nowMs
          (some event, endpoint)

/-- Sends a handshake's response, files the session and keeps the response. -/
def answer
    (endpoint : Endpoint ω)
    (addr : SocketAddr)
    (resumed : Bool)
    (responded : Except Error (Session × Bytes × Bytes))
    (nowMs : Nat) :
    Except Error Event × Endpoint ω :=
  match responded with
  | .error error =>
      (.error error, endpoint)
  | .ok (link, zeroRtt, reply) =>
      match sendDatagram env endpoint.socket
          ⟨reply, addr, endpoint.nextId, none, nowMs⟩ with
      | (.error error, socket) =>
          (.error error, { endpoint with socket := socket })
      | (.ok (), socket) =>
          let (peerId, event, endpoint) :=
            register env { endpoint with socket := socket } link addr zeroRtt
              resumed nowMs
          (.ok event,
            { endpoint with
              peers :=
                endpoint.peers.update peerId fun entry =>
                  { entry with
                    handshakeReply := some (reply, handshakeReplies) } })

def acceptFull
    (endpoint : Endpoint ω)
    (addr : SocketAddr)
    (random : Bytes)
    (nowMs : Nat) :
    Except Error Event × Endpoint ω :=
  match endpoint.mode with
  | .psk _ =>
      (.error .handshake, endpoint)
  | .publicKey key =>
      answer env endpoint addr false
        (env.noise.respond key endpoint.rx endpoint.handshakeReply random)
        nowMs

/-- The length of a ticket's identifier. -/
def ticketIdLen : Nat := 8

/-- The ticket identifier a resumption request names. -/
def ticketId (frame : Bytes) : Except CoreError Bytes :=
  match Header.decode frame with
  | .error error =>
      .error error
  | .ok header =>
      if header.frameType ≠ .resumeInit then
        .error .badHeader
      else if frame.length < headerLen + ticketIdLen then
        .error .messageTooShort
      else
        .ok ((frame.drop headerLen).take ticketIdLen)

def acceptResumed
    (endpoint : Endpoint ω)
    (addr : SocketAddr)
    (random : Bytes)
    (nowMs : Nat) :
    Except Error Event × Endpoint ω :=
  match ticketId endpoint.rx with
  | .error error =>
      (.error (.protocol error), endpoint)
  | .ok id =>
      let configured :=
        match endpoint.mode with
        | .psk psk =>
            if psk.id = id then some (psk, anonymous) else none
        | .publicKey _ =>
            none
      -- A configured key is reusable; an earned ticket is spent here.
      let (found, tickets) :=
        match configured with
        | some pair =>
            (some pair, endpoint.tickets)
        | none =>
            endpoint.tickets.take id nowMs
      let endpoint := { endpoint with tickets := tickets }
      match found with
      | none =>
          (.error .unknownTicket, endpoint)
      | some (ticket, remoteStatic) =>
          answer env endpoint addr true
            (env.noise.respondResumed ticket remoteStatic endpoint.rx
              endpoint.handshakeReply random)
            nowMs

/-- Answers a repeated opening frame without another handshake. -/
def repeatHandshake
    (endpoint : Endpoint ω)
    (addr : SocketAddr)
    (sessionId : BitVec 32)
    (nowMs : Nat) :
    Except Error Bool × Endpoint ω :=
  match (endpoint.routes.lookup (addr, sessionId)).bind fun peerId =>
      (endpoint.peers.lookup peerId).map (peerId, ·) with
  | none =>
      (.ok false, endpoint)
  | some (peerId, entry) =>
      match entry.handshakeReply with
      | none =>
          (.ok true, endpoint)
      | some (reply, left) =>
          match sendDatagram env endpoint.socket
              ⟨reply, addr, peerId, some entry.addr, nowMs⟩ with
          | (.error error, socket) =>
              (.error error, { endpoint with socket := socket })
          | (.ok (), socket) =>
              (.ok true,
                { endpoint with
                  socket := socket
                  peers :=
                    endpoint.peers.update peerId fun entry =>
                      { entry with
                        handshakeReply :=
                          if left = 0 then none else some (reply, left - 1) } })

/-- Refills a second's worth of attempts, and takes one out if it can. -/
def spend (budget : Int) (refilled rate nowMs : Nat) : Bool × Int :=
  let most := FloatFormat.single.ofNat rate
  TokenBucket.spend .single budget ((nowMs - refilled) * 1000000) most most
    FloatFormat.single.one

/-- Whether there is budget to answer one more new handshake. -/
def mayAnswerHandshake (endpoint : Endpoint ω) (nowMs : Nat) :
    Bool × Endpoint ω :=
  let spent :=
    spend endpoint.handshakeBudget endpoint.handshakeRefilled
      endpoint.handshakeRate nowMs
  (spent.1,
    { endpoint with handshakeBudget := spent.2, handshakeRefilled := nowMs })

/-- Whether a session may be tried against a frame from elsewhere. -/
def mayTryUnknownAddress
    (endpoint : Endpoint ω)
    (peerId : PeerId)
    (nowMs : Nat) :
    Bool × Endpoint ω :=
  match endpoint.peers.lookup peerId with
  | none =>
      (false, endpoint)
  | some entry =>
      let spent :=
        spend entry.migrationBudget entry.migrationRefilled
          endpoint.migrationRate nowMs
      (spent.1,
        endpoint.putEntry peerId
          { entry with
            migrationBudget := spent.2
            migrationRefilled := nowMs })

end Endpoint

end Fectp
