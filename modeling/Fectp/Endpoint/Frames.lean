import Fectp.Endpoint.Handshakes

namespace Fectp

/-!
# Frames that arrive

A datagram is a handshake's, or belongs to a session found by its address and
identifier, or by the identifier alone if the peer has moved.
-/

namespace Endpoint

variable {ω : Type*} (env : Env ω)

/-- Asks an address to prove it can receive, if it is worth asking again. -/
def startProbe
    (endpoint : Endpoint ω)
    (peerId : PeerId)
    (addr : SocketAddr)
    (random : Bytes)
    (nowMs : Nat) :
    Except Error Unit × Endpoint ω :=
  match endpoint.peers.lookup peerId with
  | none =>
      (.ok (), endpoint)
  | some entry =>
      -- The probe to go on with, or none to leave it be.
      let probe : Option AddressProbe :=
        match entry.probe.filter (·.addr == addr) with
        | none =>
            some ⟨addr, random, 0, nowMs, nowMs⟩
        | some probe =>
            if nowMs - probe.started > probeTimeout then
              some ⟨addr, random, 0, nowMs, nowMs⟩
            else if probe.sent ≥ pathProbes ∨
                nowMs - probe.last < probeInterval then
              none
            else
              some probe
      match probe with
      | none =>
          (.ok (), endpoint)
      | some probe =>
          let (result, session) :=
            entry.peer.session.sealPathChallenge env.suite.aead probe.token
              endpoint.size
          let entry :=
            { entry with peer := { entry.peer with session := session } }
          match result with
          | .error error =>
              (.error (.protocol error),
                endpoint.putEntry peerId { entry with probe := some probe })
          | .ok frame =>
              let probe := { probe with sent := probe.sent + 1, last := nowMs }
              sendToPeer env
                (endpoint.putEntry peerId { entry with probe := some probe })
                peerId frame addr nowMs

/-- A session's entry once it has moved: what it knew of the path is gone. -/
def moved (entry : PeerEntry) (addr : SocketAddr) (nowMs : Nat) : PeerEntry :=
  let pmtu := entry.pmtu.map (·.reset nowMs)
  { entry with
    addr := addr
    probe := none
    peer := { entry.peer with retransmit := entry.peer.retransmit.forgetPath }
    pmtu := pmtu
    datagramLimit := pmtu.elim entry.datagramLimit Pmtu.current }

/-- Releases the session a route was taken from, if it is still there. -/
def giveWay (endpoint : Endpoint ω) (displaced : Option PeerId) :
    Endpoint ω :=
  match displaced.bind fun displaced =>
      (endpoint.peers.lookup displaced).map (displaced, ·) with
  | none =>
      endpoint
  | some (displaced, entry) =>
      let endpoint : Endpoint ω :=
        unfileSession
          { endpoint with peers := endpoint.peers.erase displaced }
          entry.sessionId displaced
      { endpoint with events := endpoint.events ++ [.peerLost displaced] }

/-- Moves a session to an address that has answered its challenge. -/
def settleProbe
    (endpoint : Endpoint ω)
    (peerId : PeerId)
    (addr : SocketAddr)
    (token : Bytes)
    (nowMs : Nat) :
    Option Event × Endpoint ω :=
  match endpoint.peers.lookup peerId with
  | none =>
      (none, endpoint)
  | some entry =>
      if entry.probe.any fun probe =>
          probe.addr == addr && probe.token == token then
        let endpoint :=
          { endpoint.putEntry peerId (moved entry addr nowMs) with
            routes := endpoint.routes.erase (entry.addr, entry.sessionId) }
        let (displaced, endpoint) :=
          endpoint.displace addr entry.sessionId peerId
        (some (.peerMoved peerId entry.addr addr),
          (endpoint.giveWay displaced).wakeAt nowMs)
      else
        (none, endpoint)

/-- The event an authenticated frame amounts to, if any. -/
def handed (endpoint : Endpoint ω) (peerId : PeerId) (ingested : Ingested) :
    Option Event :=
  match ingested with
  | .rejected | .nothing | .pathValidated _ =>
      none
  | .data len compressed =>
      let body := (endpoint.rx.drop headerLen).take len
      (Peer.deliver env.suite.codec body compressed).toOption.map
        (.message peerId)
  | .message data =>
      some (.message peerId data)

/-- What a session is left with by a frame it was tried against. -/
def ingested
    (endpoint : Endpoint ω)
    (peerId : PeerId)
    (entry : PeerEntry)
    (peer : Peer)
    (buffer : Bytes) :
    Endpoint ω :=
  { endpoint.putEntry peerId { entry with peer := peer } with rx := buffer }

/-- The frame authenticated: the peer has been heard from. -/
def heard
    (endpoint : Endpoint ω)
    (peerId : PeerId)
    (entry : PeerEntry)
    (peer : Peer)
    (buffer : Bytes)
    (nowMs : Nat) :
    Endpoint ω :=
  let firstWord : Bool := !entry.spoke
  let entry :=
    { entry with
      peer := peer
      spoke := true
      lastHeard := nowMs
      handshakeReply := none }
  let endpoint := { endpoint.putEntry peerId entry with rx := buffer }
  if firstWord && entry.pmtu.isSome then endpoint.wakeAt nowMs else endpoint

/-- An answer from the address on file may be to a probe of the path. -/
def answered
    (endpoint : Endpoint ω)
    (peerId : PeerId)
    (token : Bytes)
    (nowMs : Nat) :
    Endpoint ω :=
  { endpoint with
    peers :=
      endpoint.peers.update peerId fun entry =>
        match entry.pmtu with
        | none =>
            entry
        | some pmtu =>
            let pmtu := (pmtu.answered token nowMs).2
            { entry with
              pmtu := some pmtu
              datagramLimit := pmtu.current } }

/-- A frame from the address on file: what it asks for is sent back. -/
def settleEstablished
    (endpoint : Endpoint ω)
    (peerId : PeerId)
    (addr : SocketAddr)
    (ingested : Ingested)
    (reply : Bytes)
    (nowMs : Nat) :
    Except Error (Option Event) × Endpoint ω :=
  let (sent, endpoint) : Except Error Unit × Endpoint ω :=
    if reply.isEmpty then (.ok (), endpoint)
    else sendToPeer env endpoint peerId reply addr nowMs
  match sent with
  | .error error =>
      (.error error, endpoint)
  | .ok () =>
      let endpoint :=
        match ingested with
        | .pathValidated token =>
            endpoint.answered peerId token nowMs
        | _ =>
            endpoint
      (.ok (handed env endpoint peerId ingested), endpoint)

/-- A frame from elsewhere: the address is asked to prove itself. -/
def settleUnproved
    (endpoint : Endpoint ω)
    (peerId : PeerId)
    (addr : SocketAddr)
    (ingested : Ingested)
    (random : Bytes)
    (nowMs : Nat) :
    Except Error (Option Event) × Endpoint ω :=
  match ingested with
  | .pathValidated token =>
      let (event, endpoint) := endpoint.settleProbe peerId addr token nowMs
      (.ok event, endpoint)
  | _ =>
      match startProbe env endpoint peerId addr random nowMs with
      | (.error error, endpoint) =>
          (.error error, endpoint)
      | (.ok (), endpoint) =>
          (.ok (handed env endpoint peerId ingested), endpoint)

/-- Feeds one frame to one session. -/
def deliver
    (endpoint : Endpoint ω)
    (peerId : PeerId)
    (addr : SocketAddr)
    (established : Bool)
    (random : Bytes)
    (nowMs : Nat) :
    Except Error (Option Event) × Endpoint ω :=
  match endpoint.peers.lookup peerId with
  | none =>
      (.ok none, endpoint)
  | some entry =>
      match entry.peer.ingest env.suite endpoint.rx nowMs endpoint.size with
      | (.error error, _, buffer, peer) =>
          (.error error, endpoint.ingested peerId entry peer buffer)
      | (.ok .rejected, _, buffer, peer) =>
          (.ok none, endpoint.ingested peerId entry peer buffer)
      | (.ok ingested, reply, buffer, peer) =>
          let endpoint := endpoint.heard peerId entry peer buffer nowMs
          if established then
            settleEstablished env endpoint peerId addr ingested reply nowMs
          else
            settleUnproved env endpoint peerId addr ingested random nowMs

/-- A session a frame comes to, whether it may be tried, and the endpoint then. -/
structure Visit (ω : Type*) where
  peerId : PeerId
  allowed : Bool
  asked : Endpoint ω

/--
Tries the sessions wearing an identifier, from one position on: those the frame
comes to, and what becomes of it.
-/
def candidates
    (addr : SocketAddr)
    (sessionId : BitVec 32)
    (random : Bytes)
    (nowMs : Nat) :
    Nat → Nat → Endpoint ω →
      List (Visit ω) × Except Error (Option Event) × Endpoint ω
  | 0, _, endpoint =>
      ([], .ok none, endpoint)
  | left + 1, position, endpoint =>
      match (endpoint.bySession.lookup sessionId).bind (·[position]?) with
      | none =>
          ([], .ok none, endpoint)
      | some peerId =>
          match endpoint.mayTryUnknownAddress peerId nowMs with
          | (false, asked) =>
              (candidates addr sessionId random nowMs left (position + 1)
                asked).map (⟨peerId, false, asked⟩ :: ·) id
          | (true, asked) =>
              match deliver env asked peerId addr false random nowMs with
              | (.ok none, endpoint) =>
                  if (endpoint.peers.lookup peerId).any (·.claimed addr) then
                    ([⟨peerId, true, asked⟩], .ok none, endpoint)
                  else
                    (candidates addr sessionId random nowMs left
                      (position + 1) endpoint).map
                        (⟨peerId, true, asked⟩ :: ·) id
              | outcome =>
                  ([⟨peerId, true, asked⟩], outcome)

/-- The first sessions wearing an identifier are tried on a frame. -/
def tryCandidates
    (addr : SocketAddr)
    (sessionId : BitVec 32)
    (random : Bytes)
    (nowMs left position : Nat)
    (endpoint : Endpoint ω) :
    Except Error (Option Event) × Endpoint ω :=
  (candidates env addr sessionId random nowMs left position endpoint).2

/-- The sessions a frame is tried on. -/
def offers
    (addr : SocketAddr)
    (sessionId : BitVec 32)
    (random : Bytes)
    (nowMs : Nat)
    (endpoint : Endpoint ω) :
    List (Visit ω) :=
  (candidates env addr sessionId random nowMs maxCandidates 0
    endpoint).1.filter (·.allowed)

/-- How the sessions are tried: each declines, settles the frame or passes it on. -/
inductive Tries
    (addr : SocketAddr)
    (sessionId : BitVec 32)
    (random : Bytes)
    (nowMs : Nat) :
    Nat → Endpoint ω → List (Visit ω) →
      Except Error (Option Event) × Endpoint ω → Prop
  | ended (position : Nat) (endpoint : Endpoint ω) :
      Tries addr sessionId random nowMs position endpoint [] (.ok none, endpoint)
  | declines
      {position : Nat}
      {endpoint asked : Endpoint ω}
      {peerId : PeerId}
      {visits : List (Visit ω)}
      {outcome : Except Error (Option Event) × Endpoint ω}
      (listed :
        (endpoint.bySession.lookup sessionId).bind (·[position]?) = some peerId)
      (asks : endpoint.mayTryUnknownAddress peerId nowMs = (false, asked))
      (onward :
        Tries addr sessionId random nowMs (position + 1) asked visits outcome) :
      Tries addr sessionId random nowMs position endpoint
        (⟨peerId, false, asked⟩ :: visits) outcome
  | settles
      {position : Nat}
      {endpoint asked : Endpoint ω}
      {peerId : PeerId}
      (listed :
        (endpoint.bySession.lookup sessionId).bind (·[position]?) = some peerId)
      (asks : endpoint.mayTryUnknownAddress peerId nowMs = (true, asked)) :
      Tries addr sessionId random nowMs position endpoint
        [⟨peerId, true, asked⟩]
        (deliver env asked peerId addr false random nowMs)
  | passes
      {position : Nat}
      {endpoint asked after : Endpoint ω}
      {peerId : PeerId}
      {visits : List (Visit ω)}
      {outcome : Except Error (Option Event) × Endpoint ω}
      (listed :
        (endpoint.bySession.lookup sessionId).bind (·[position]?) = some peerId)
      (asks : endpoint.mayTryUnknownAddress peerId nowMs = (true, asked))
      (delivers :
        deliver env asked peerId addr false random nowMs = (.ok none, after))
      (onward :
        Tries addr sessionId random nowMs (position + 1) after visits outcome) :
      Tries addr sessionId random nowMs position endpoint
        (⟨peerId, true, asked⟩ :: visits) outcome

theorem candidates_tries (addr : SocketAddr) (sessionId : BitVec 32) (random : Bytes)
    (nowMs left position : Nat) (endpoint : Endpoint ω) :
    Tries env addr sessionId random nowMs position endpoint
      (candidates env addr sessionId random nowMs left position endpoint).1
      (tryCandidates env addr sessionId random nowMs left position endpoint) := by
  unfold tryCandidates
  induction left generalizing position endpoint with
  | zero => exact .ended position endpoint
  | succ left inductionHypothesis =>
    unfold candidates
    split
    · exact .ended position endpoint
    next listed =>
    split
    · next asks => exact .declines listed asks (inductionHypothesis (position + 1) _)
    next asks =>
    split
    · next delivers =>
        split
        · rw [← delivers]
          exact .settles listed asks
        · exact .passes listed asks delivers (inductionHypothesis (position + 1) _)
    · exact .settles listed asks

/-- Delivers a frame to its session. -/
def route
    (endpoint : Endpoint ω)
    (addr : SocketAddr)
    (sessionId : BitVec 32)
    (random : Bytes)
    (nowMs : Nat) :
    Except Error (Option Event) × Endpoint ω :=
  match endpoint.routes.lookup (addr, sessionId) with
  | some peerId =>
      deliver env endpoint peerId addr true random nowMs
  | none =>
      tryCandidates env addr sessionId random nowMs maxCandidates 0 endpoint

/-- An opening frame's outcome: one not accepted is ignored. -/
def accepted (outcome : Except Error Event × Endpoint ω) :
    Except Error (Option Event) × Endpoint ω :=
  (.ok outcome.1.toOption, outcome.2)

/-- Answers an opening frame that is not a repeat, if it may. -/
def acceptHandshake
    (endpoint : Endpoint ω)
    (header : Header)
    (addr : SocketAddr)
    (random : Bytes)
    (nowMs : Nat) :
    Except Error (Option Event) × Endpoint ω :=
  match repeatHandshake env endpoint addr header.sessionId nowMs with
  | (.error error, endpoint) =>
      (.error error, endpoint)
  | (.ok true, endpoint) =>
      (.ok none, endpoint)
  | (.ok false, endpoint) =>
      match endpoint.mayAnswerHandshake nowMs with
      | (false, endpoint) =>
          (.ok none, endpoint)
      | (true, endpoint) =>
          match header.frameType, endpoint.mode with
          | .handshakeInit, .publicKey _ =>
              accepted (acceptFull env endpoint addr random nowMs)
          | .resumeInit, _ =>
              accepted (acceptResumed env endpoint addr random nowMs)
          | _, _ =>
              (.ok none, endpoint)

/-- Routes one received datagram. -/
def dispatch
    (endpoint : Endpoint ω)
    (datagram : Bytes)
    (addr : SocketAddr)
    (random : Bytes)
    (nowMs : Nat) :
    Except Error (Option Event) × Endpoint ω :=
  let endpoint := { endpoint with rx := datagram }
  if datagram.head? = some notAFrame then
    (.ok none, endpoint)
  else
    match Header.decode datagram with
    | .error _ =>
        (.ok none, endpoint)
    | .ok header =>
        match header.frameType with
        | .handshakeInit | .resumeInit =>
            acceptHandshake env endpoint header addr random nowMs
        | .handshakeResponse | .resumeResponse =>
            let (event, endpoint) :=
              completeOutbound env endpoint addr header.sessionId nowMs
            (.ok event, endpoint)
        | _ =>
            route env endpoint addr header.sessionId random nowMs

end Endpoint

end Fectp
