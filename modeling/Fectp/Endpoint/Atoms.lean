import Mathlib.Logic.Relation
import Fectp.Endpoint.Calls
import Fectp.Endpoint.Frames
import Fectp.SessionFrames

namespace Fectp

/-!
# The steps of an endpoint, taken apart

A datagram is worked through by a few functions, each called at most once or
twice and each with something known about the state it is called in.  The same
goes for the time-driven work.  What each of them preserves, the whole pass
preserves, so later arguments look at them one at a time.
-/

/-- Taking a frame in leaves its first byte alone. -/
theorem Peer.ingest_front (suite : Suite) (peer : Peer) (frame : Bytes) (nowMs ackLen : Nat) :
    (peer.ingest suite frame nowMs ackLen).2.2.1.getD 0 0 = frame.getD 0 0 := by
  have front := peer.session.openFrame_front suite.aead frame
  unfold ingest
  split
  · next opens =>
      rw [opens] at front
      exact front
  next opens =>
  rw [opens] at front
  exact front

namespace Endpoint

variable {ω : Type*}

open Relation (ReflTransGen)

/-- The two agree on all but bookkeeping. -/
structure SameTables (before after : Endpoint ω) : Prop where
  socket : after.socket = before.socket
  peers : after.peers = before.peers
  routes : after.routes = before.routes
  bySession : after.bySession = before.bySession
  outbound : after.outbound = before.outbound
  events : after.events = before.events
  nextWake : after.nextWake = before.nextWake
  keepalive : after.keepalive = before.keepalive
  peerTimeout : after.peerTimeout = before.peerTimeout
  maxPeers : after.maxPeers = before.maxPeers
  nextId : after.nextId = before.nextId
  size : after.size = before.size
  mode : after.mode = before.mode

/-- A datagram that decodes, and its circumstances. -/
structure Incoming where
  bytes : Bytes
  header : Header
  addr : SocketAddr
  random : Bytes
  nowMs : Nat
  decoded : Header.decode bytes = .ok header

namespace Incoming

/-- The datagram asks for a handshake. -/
def Opens (datagram : Incoming) : Prop :=
  datagram.header.frameType = .handshakeInit ∨
    datagram.header.frameType = .resumeInit

/-- The datagram answers a handshake. -/
def Closes (datagram : Incoming) : Prop :=
  datagram.header.frameType = .handshakeResponse ∨
    datagram.header.frameType = .resumeResponse

/-- The address and identifier name a session outright. -/
def Routed (datagram : Incoming) (endpoint : Endpoint ω) (peerId : PeerId) :
    Prop :=
  endpoint.routes.lookup (datagram.addr, datagram.header.sessionId) =
    some peerId

/-- The identifier alone gives a session. -/
def Shortlisted
    (datagram : Incoming)
    (endpoint : Endpoint ω)
    (peerId : PeerId) :
    Prop :=
  endpoint.routes.lookup (datagram.addr, datagram.header.sessionId) = none ∧
    ∃ sharing,
      endpoint.bySession.lookup datagram.header.sessionId = some sharing ∧
        peerId ∈ sharing

end Incoming

/-- The two agree on where frames are looked for, and on the frame's type. -/
structure SameIndices (before after : Endpoint ω) : Prop where
  routes : after.routes = before.routes
  bySession : after.bySession = before.bySession
  front : after.rx.getD 0 0 = before.rx.getD 0 0

theorem SameIndices.trans {first second third : Endpoint ω} (earlier : first.SameIndices second)
    (later : second.SameIndices third) :
    first.SameIndices third where
  routes := later.routes.trans earlier.routes
  bySession := later.bySession.trans earlier.bySession
  front := later.front.trans earlier.front

/-- A session has just been heard from, and this is what it heard. -/
def HeardFrom
    (env : Env ω)
    (datagram : Incoming)
    (endpoint : Endpoint ω)
    (peerId : PeerId)
    (ingested : Ingested) :
    Prop :=
  ∃ (earlier : Endpoint ω) (entry : PeerEntry) (reply buffer : Bytes)
      (peer : Peer),
    earlier.peers.lookup peerId = some entry ∧
      entry.peer.ingest env.suite earlier.rx datagram.nowMs earlier.size =
        (.ok ingested, reply, buffer, peer) ∧
      ingested ≠ .rejected ∧
      endpoint = earlier.heard peerId entry peer buffer datagram.nowMs

/-- What answering an opening frame is made of. -/
inductive OpeningAtom (env : Env ω) (datagram : Incoming) :
    Endpoint ω → Endpoint ω → Prop where
  | note {before after : Endpoint ω} :
      before.SameTables after →
      OpeningAtom env datagram before after
  | repeated {endpoint : Endpoint ω} :
      OpeningAtom env datagram endpoint
        (repeatHandshake env endpoint datagram.addr
          datagram.header.sessionId datagram.nowMs).2
  /-- A handshake nothing is on file for is answered. -/
  | filed {endpoint : Endpoint ω} {resumed : Bool}
      {responded : Except Error (Session × Bytes × Bytes)} :
      (∀ peerId,
        datagram.Routed endpoint peerId →
        endpoint.peers.lookup peerId = none) →
      (∀ {link zeroRtt reply},
        responded = .ok (link, zeroRtt, reply) →
        link.sessionId = datagram.header.sessionId) →
      OpeningAtom env datagram endpoint
        (answer env endpoint datagram.addr resumed responded datagram.nowMs).2

/-- What feeding a frame to sessions is made of. -/
inductive SessionAtom (env : Env ω) (datagram : Incoming) :
    Endpoint ω → Endpoint ω → Prop where
  | budget {endpoint : Endpoint ω} {peerId : PeerId} :
      SessionAtom env datagram endpoint
        (endpoint.mayTryUnknownAddress peerId datagram.nowMs).2
  /-- A session was tried, and the frame did not open or was not answered. -/
  | tried {endpoint : Endpoint ω} {peerId : PeerId} {entry : PeerEntry}
      {result : Except Error Ingested} {reply buffer : Bytes} {peer : Peer} :
      endpoint.peers.lookup peerId = some entry →
      endpoint.rx.getD 0 0 = datagram.bytes.getD 0 0 →
      entry.peer.ingest env.suite endpoint.rx datagram.nowMs endpoint.size =
        (result, reply, buffer, peer) →
      SessionAtom env datagram endpoint
        (endpoint.ingested peerId entry peer buffer)
  | heard {endpoint : Endpoint ω} {peerId : PeerId} {entry : PeerEntry}
      {ingested : Ingested} {reply buffer : Bytes} {peer : Peer} :
      endpoint.peers.lookup peerId = some entry →
      endpoint.rx.getD 0 0 = datagram.bytes.getD 0 0 →
      entry.peer.ingest env.suite endpoint.rx datagram.nowMs endpoint.size =
        (.ok ingested, reply, buffer, peer) →
      ingested ≠ .rejected →
      SessionAtom env datagram endpoint
        (endpoint.heard peerId entry peer buffer datagram.nowMs)
  /-- What was heard asks for an answer, which goes to where it came from. -/
  | replied {endpoint : Endpoint ω} {peerId : PeerId} {ingested : Ingested}
      {reply : Bytes} :
      datagram.Routed endpoint peerId →
      HeardFrom env datagram endpoint peerId ingested →
      SessionAtom env datagram endpoint
        (sendToPeer env endpoint peerId reply datagram.addr datagram.nowMs).2
  | answered {endpoint : Endpoint ω} {peerId : PeerId} {token : Bytes} :
      SessionAtom env datagram endpoint
        (endpoint.answered peerId token datagram.nowMs)
  /-- The address is asked to prove itself. -/
  | challenged {endpoint : Endpoint ω} {peerId : PeerId}
      {ingested : Ingested} :
      datagram.Shortlisted endpoint peerId →
      HeardFrom env datagram endpoint peerId ingested →
      SessionAtom env datagram endpoint
        (startProbe env endpoint peerId datagram.addr datagram.random
          datagram.nowMs).2
  /-- The address may have proved itself. -/
  | moved {endpoint : Endpoint ω} {peerId : PeerId} {token : Bytes} :
      datagram.Shortlisted endpoint peerId →
      HeardFrom env datagram endpoint peerId (.pathValidated token) →
      SessionAtom env datagram endpoint
        (endpoint.settleProbe peerId datagram.addr token datagram.nowMs).2

/-- What working through one datagram is made of. -/
inductive FrameAtom (env : Env ω) (datagram : Incoming) :
    Endpoint ω → Endpoint ω → Prop where
  | opening {before after : Endpoint ω} :
      datagram.Opens →
      OpeningAtom env datagram before after →
      FrameAtom env datagram before after
  | session {before after : Endpoint ω} :
      SessionAtom env datagram before after →
      FrameAtom env datagram before after
  | completed {endpoint : Endpoint ω} :
      endpoint.rx = datagram.bytes →
      FrameAtom env datagram endpoint
        (completeOutbound env endpoint datagram.addr
          datagram.header.sessionId datagram.nowMs).2

variable {env : Env ω} {datagram : Incoming}

/-! ### Handshakes -/

variable {endpoint after : Endpoint ω} {addr : SocketAddr} {nowMs : Nat}
  {peerId : PeerId} {ingested : Ingested} {random : Bytes}

/-- A frame that repeats nothing leaves the endpoint alone. -/
theorem repeatHandshake_false {sessionId : BitVec 32}
    (repeats : repeatHandshake env endpoint addr sessionId nowMs = (.ok false, after)) :
    after = endpoint ∧ ∀ peerId, endpoint.routes.lookup (addr, sessionId) = some peerId →
        endpoint.peers.lookup peerId = none := by
  unfold repeatHandshake at repeats
  split at repeats
  · next unknown =>
      cases repeats
      refine ⟨rfl, fun peerId routed => ?_⟩
      rw [routed, Option.bind_some, Option.map_eq_none_iff] at unknown
      exact unknown
  · split at repeats
    · cases repeats
    · split at repeats
      · cases repeats
      · cases repeats

/-- An endpoint whose next handle goes to a session, with its ticket issued. -/
def issued
    (env : Env ω)
    (endpoint : Endpoint ω)
    (link : Session)
    (socket : ω)
    (nowMs : Nat) :
    Endpoint ω :=
  { endpoint with
    socket := socket
    nextId := endpoint.nextId + 1
    tickets :=
      endpoint.tickets.insert (env.noise.resumptionTicket link)
        link.remoteStatic nowMs fun _ => nowMs }

/-- Keeps a handshake's response with the session it established. -/
def remembered (endpoint : Endpoint ω) (peerId : PeerId) (reply : Bytes) :
    Endpoint ω :=
  { endpoint with
    peers :=
      endpoint.peers.update peerId fun entry =>
        { entry with handshakeReply := some (reply, handshakeReplies) } }

/-- All that answering a handshake does. -/
theorem answer_cases (env : Env ω) (endpoint : Endpoint ω) (addr : SocketAddr) (resumed : Bool)
    (responded : Except Error (Session × Bytes × Bytes)) (nowMs : Nat) :
    ((answer env endpoint addr resumed responded nowMs).2 = endpoint ∧
        ∃ error, responded = .error error) ∨
      ∃ link zeroRtt reply socket, responded = .ok (link, zeroRtt, reply) ∧
          ((∃ error, sendDatagram env endpoint.socket ⟨reply, addr, endpoint.nextId, none, nowMs⟩ =
                (.error error, socket) ∧
              (answer env endpoint addr resumed responded nowMs).2 =
                { endpoint with socket := socket }) ∨
            sendDatagram env endpoint.socket ⟨reply, addr, endpoint.nextId, none, nowMs⟩ =
              (.ok (), socket) ∧
            (answer env endpoint addr resumed responded nowMs).2 =
              (file env (issued env endpoint link socket nowMs)
                endpoint.nextId link addr nowMs).remembered
                endpoint.nextId reply) := by
  unfold answer
  split
  · next error => exact Or.inl ⟨rfl, error, rfl⟩
  next link zeroRtt reply =>
  refine Or.inr ?_
  split
  · next error socket fails =>
      exact ⟨link, zeroRtt, reply, socket, rfl, Or.inl ⟨error, fails, rfl⟩⟩
  · next socket sends => exact ⟨link, zeroRtt, reply, socket, rfl, Or.inr ⟨sends, rfl⟩⟩

/-- An endpoint one of whose own handshakes is over. -/
def closed
    (endpoint : Endpoint ω)
    (peerId : PeerId)
    (paths : List (SocketAddr × Path)) :
    Endpoint ω :=
  { endpoint with
    outbound := endpoint.outbound.erase peerId
    paths := paths }

/-- An endpoint that has issued a session's next ticket. -/
def ticketed
    (env : Env ω)
    (endpoint : Endpoint ω)
    (link : Session)
    (nowMs : Nat) :
    Endpoint ω :=
  { endpoint with
    tickets :=
      endpoint.tickets.insert (env.noise.resumptionTicket link)
        link.remoteStatic nowMs fun _ => nowMs }

/-- All that a handshake's response does. -/
theorem completeOutbound_cases (env : Env ω) (endpoint : Endpoint ω) (addr : SocketAddr)
    (sessionId : BitVec 32) (nowMs : Nat) :
    (completeOutbound env endpoint addr sessionId nowMs).2 = endpoint ∨ ∃ peerId outbound paths,
        endpoint.outbound.lookup peerId = some outbound ∧ outbound.addr = addr ∧
          outbound.sessionId = sessionId ∧
          ((completeOutbound env endpoint addr sessionId nowMs).2 = endpoint.closed peerId paths ∨
            ∃ link reply, env.noise.readResponse outbound.handshake endpoint.rx =
                  .ok (link, reply) ∧
                (completeOutbound env endpoint addr sessionId nowMs).2 = file env
                    (ticketed env (endpoint.closed peerId paths) link nowMs)
                    peerId link outbound.addr nowMs) := by
  unfold completeOutbound
  dsimp only
  split
  · exact Or.inl rfl
  next peerId outbound matched =>
  have isMatch := List.find?_some matched
  obtain ⟨id, _, isStarted⟩ := List.mem_filterMap.mp (List.mem_of_find?_eq_some matched)
  obtain ⟨held, found, isPair⟩ := Option.map_eq_some_iff.mp isStarted
  cases isPair
  simp only [Bool.and_eq_true, beq_iff_eq] at isMatch
  refine Or.inr ?_
  -- What is learned about the path shows in `paths` alone.
  have learns : ∃ paths, (if outbound.attempts = 1 then
          ({ endpoint with
              outbound := endpoint.outbound.erase peerId } :
            Endpoint ω).measurePath outbound.addr
            (nowMs - outbound.firstSent)
        else
          ({ endpoint with
              outbound := endpoint.outbound.erase peerId } :
            Endpoint ω).learnFromResent outbound.addr
            (nowMs - outbound.firstSent)
            (nowMs - outbound.lastSent)) =
          endpoint.closed peerId paths := by
    split
    · exact ⟨_, rfl⟩
    · exact ⟨_, rfl⟩
  obtain ⟨paths, isClosed⟩ := learns
  rw [isClosed]
  refine ⟨peerId, outbound, paths, found, isMatch.1, isMatch.2, ?_⟩
  split
  · exact Or.inl rfl
  · next link reply reads => exact Or.inr ⟨link, reply, reads, rfl⟩

/-- An endpoint with a handshake of its own under way. -/
def started
    (endpoint : Endpoint ω)
    (addr : SocketAddr)
    (peerPublic : Option Bytes)
    (sessionId : BitVec 32)
    (handshake : Handshake)
    (frame : Bytes)
    (socket : ω)
    (nowMs : Nat) :
    Endpoint ω :=
  let nextAttempt := nowMs + endpoint.handshakeDelay addr 1
  { endpoint with
    socket := socket
    nextId := endpoint.nextId + 1
    outbound :=
      endpoint.outbound.insert endpoint.nextId
        ⟨handshake, peerPublic, addr, sessionId, frame, nextAttempt, 1,
          nowMs, nowMs⟩
    nextWake := some (endpoint.nextWake.elim nextAttempt (min nextAttempt)) }

/-- All that starting a connection does. -/
theorem connectAndSend_cases (env : Env ω) (endpoint : Endpoint ω) (addr : SocketAddr)
    (peerPublic : Option Bytes) (zeroRtt : Bytes) (sessionId : BitVec 32)
    (random : Bytes) (nowMs : Nat) :
    (connectAndSend env endpoint addr peerPublic zeroRtt sessionId random nowMs).2 = endpoint ∨
      ∃ handshake frame socket, (∃ error,
            sendDatagram env endpoint.socket ⟨frame, addr, endpoint.nextId, none, nowMs⟩ =
              (.error error, socket) ∧
            (connectAndSend env endpoint addr peerPublic zeroRtt sessionId random nowMs).2 =
              { endpoint with socket := socket }) ∨
          sendDatagram env endpoint.socket ⟨frame, addr, endpoint.nextId, none, nowMs⟩ =
            (.ok (), socket) ∧
          (connectAndSend env endpoint addr peerPublic zeroRtt sessionId random nowMs).2 =
            endpoint.started addr peerPublic sessionId handshake frame socket
              nowMs := by
  unfold connectAndSend
  extract_lets overhead limit missingKey
  split
  · exact Or.inl rfl
  split
  · exact Or.inl rfl
  · split
    · exact Or.inl rfl
    next handshake frame _ =>
    refine Or.inr ⟨handshake, frame, ?_⟩
    split
    · next error socket fails => exact ⟨socket, Or.inl ⟨error, fails, rfl⟩⟩
    · next socket sends => exact ⟨socket, Or.inr ⟨sends, rfl⟩⟩

section

variable (unknown : ∀ peerId, datagram.Routed endpoint peerId →
    endpoint.peers.lookup peerId = none) (isRx : endpoint.rx = datagram.bytes)

include unknown isRx

theorem acceptResumed_atoms :
    ReflTransGen (OpeningAtom env datagram) endpoint
      (acceptResumed env endpoint datagram.addr datagram.random datagram.nowMs).2 := by
  unfold acceptResumed
  split
  · exact .refl
  dsimp only
  split
  · exact .single (.note ⟨rfl, rfl, rfl, rfl, rfl, rfl, rfl, rfl, rfl, rfl, rfl, rfl, rfl⟩)
  refine .tail (.single (.note ?_)) (.filed unknown ?_)
  · exact ⟨rfl, rfl, rfl, rfl, rfl, rfl, rfl, rfl, rfl, rfl, rfl, rfl, rfl⟩
  · intro link zeroRtt reply responds
    exact env.noise.respondResumed_sessionId responds (isRx ▸ datagram.decoded)

theorem acceptFull_atoms :
    ReflTransGen (OpeningAtom env datagram) endpoint
      (acceptFull env endpoint datagram.addr datagram.random datagram.nowMs).2 := by
  unfold acceptFull
  split
  · exact .refl
  · refine .single (.filed unknown ?_)
    intro link zeroRtt reply responds
    exact env.noise.respond_sessionId responds (isRx ▸ datagram.decoded)

end

theorem acceptHandshake_atoms (isRx : endpoint.rx = datagram.bytes) :
    ReflTransGen (OpeningAtom env datagram) endpoint
      (acceptHandshake env endpoint datagram.header datagram.addr
        datagram.random datagram.nowMs).2 := by
  have repeats : OpeningAtom env datagram endpoint
        (repeatHandshake env endpoint datagram.addr datagram.header.sessionId datagram.nowMs).2 :=
    .repeated
  unfold acceptHandshake
  split
  · next isRepeat =>
      rw [isRepeat] at repeats
      exact .single repeats
  · next isRepeat =>
      rw [isRepeat] at repeats
      exact .single repeats
  next isRepeat =>
  obtain ⟨rfl, unknown⟩ := repeatHandshake_false isRepeat
  rename_i endpoint
  have counted : OpeningAtom env datagram endpoint
        (endpoint.mayAnswerHandshake datagram.nowMs).2 :=
    .note ⟨rfl, rfl, rfl, rfl, rfl, rfl, rfl, rfl, rfl, rfl, rfl, rfl, rfl⟩
  split
  · next mayNot =>
      rw [mayNot] at counted
      exact .single counted
  next after may =>
  have isAfter : (endpoint.mayAnswerHandshake datagram.nowMs).2 = after :=
    congrArg Prod.snd may
  subst isAfter
  split
  · exact ReflTransGen.trans (.single counted) (acceptFull_atoms unknown isRx)
  · exact ReflTransGen.trans (.single counted) (acceptResumed_atoms unknown isRx)
  · exact .single counted

/-! ### Frames of sessions -/

/-- Hearing from a session leaves the indices alone. -/
theorem heard_tables (endpoint : Endpoint ω) (peerId : PeerId) (entry : PeerEntry) (peer : Peer)
    (buffer : Bytes) (nowMs : Nat) :
    (endpoint.heard peerId entry peer buffer nowMs).routes = endpoint.routes ∧
      (endpoint.heard peerId entry peer buffer nowMs).bySession =
        endpoint.bySession := by
  unfold heard
  dsimp only
  split
  · exact ⟨rfl, rfl⟩
  · exact ⟨rfl, rfl⟩

theorem heard_rx (endpoint : Endpoint ω) (peerId : PeerId) (entry : PeerEntry) (peer : Peer)
    (buffer : Bytes) (nowMs : Nat) :
    (endpoint.heard peerId entry peer buffer nowMs).rx = buffer := by
  unfold heard
  dsimp only
  split
  · rfl
  · rfl

theorem settleEstablished_atoms {reply : Bytes} (routed : datagram.Routed endpoint peerId)
    (heard : HeardFrom env datagram endpoint peerId ingested) :
    ReflTransGen (SessionAtom env datagram) endpoint
      (settleEstablished env endpoint peerId datagram.addr ingested reply datagram.nowMs).2 := by
  have replies : ReflTransGen (SessionAtom env datagram) endpoint
        (if reply.isEmpty then ((.ok (), endpoint) : Except Error Unit × _) else
            sendToPeer env endpoint peerId reply datagram.addr datagram.nowMs).2 := by
    split
    · exact .refl
    · exact .single (.replied routed heard)
  unfold settleEstablished
  dsimp only
  split
  · exact replies
  · split
    · exact .tail replies .answered
    · exact replies

theorem settleUnproved_atoms (shortlisted : datagram.Shortlisted endpoint peerId)
    (heard : HeardFrom env datagram endpoint peerId ingested) :
    ReflTransGen (SessionAtom env datagram) endpoint
      (settleUnproved env endpoint peerId datagram.addr ingested
        datagram.random datagram.nowMs).2 := by
  unfold settleUnproved
  split
  · exact .single (.moved shortlisted heard)
  have challenges : SessionAtom env datagram endpoint
        (startProbe env endpoint peerId datagram.addr datagram.random datagram.nowMs).2 :=
    .challenged shortlisted heard
  split
  · next starts =>
      rw [starts] at challenges
      exact .single challenges
  next starts =>
  rw [starts] at challenges
  exact .single challenges

/-- The session a frame is fed to is the one on file, or on the shortlist. -/
theorem deliver_atoms
    {established : Bool} (isFront : endpoint.rx.getD 0 0 = datagram.bytes.getD 0 0)
    (chosen : if established then datagram.Routed endpoint peerId
      else datagram.Shortlisted endpoint peerId) :
    ReflTransGen (SessionAtom env datagram) endpoint
      (deliver env endpoint peerId datagram.addr established datagram.random datagram.nowMs).2 := by
  unfold deliver
  split
  · exact .refl
  next entry found =>
  split
  · next ingests => exact .single (.tried found isFront ingests)
  · next ingests => exact .single (.tried found isFront ingests)
  next ingested reply buffer peer accepted ingests =>
  have hears : SessionAtom env datagram endpoint
        (endpoint.heard peerId entry peer buffer datagram.nowMs) :=
    .heard found isFront ingests accepted
  have heard : HeardFrom env datagram
        (endpoint.heard peerId entry peer buffer datagram.nowMs)
        peerId ingested :=
    ⟨endpoint, entry, reply, buffer, peer, found, ingests, accepted, rfl⟩
  obtain ⟨sameRoutes, sameSessions⟩ :=
    endpoint.heard_tables peerId entry peer buffer datagram.nowMs
  cases established with
  | true =>
    refine .head hears (settleEstablished_atoms ?_ heard)
    rw [Incoming.Routed, sameRoutes]
    exact chosen
  | false =>
    refine .head hears (settleUnproved_atoms ?_ heard)
    rw [Incoming.Shortlisted, sameRoutes, sameSessions]
    exact chosen

theorem mayTryUnknownAddress_indices (endpoint : Endpoint ω) (peerId : PeerId) (nowMs : Nat) :
    endpoint.SameIndices (endpoint.mayTryUnknownAddress peerId nowMs).2 := by
  unfold mayTryUnknownAddress
  split
  · exact ⟨rfl, rfl, rfl⟩
  · exact ⟨rfl, rfl, rfl⟩

theorem sendToPeer_indices (env : Env ω) (endpoint : Endpoint ω) (peerId : PeerId) (frame : Bytes)
    (addr : SocketAddr) (nowMs : Nat) :
    endpoint.SameIndices (sendToPeer env endpoint peerId frame addr nowMs).2 := by
  unfold sendToPeer
  dsimp only
  split
  · exact ⟨rfl, rfl, rfl⟩
  · exact ⟨rfl, rfl, rfl⟩

theorem startProbe_indices
    (env : Env ω) (endpoint : Endpoint ω) (peerId : PeerId) (addr : SocketAddr)
    (random : Bytes) (nowMs : Nat) :
    endpoint.SameIndices (startProbe env endpoint peerId addr random nowMs).2 := by
  unfold startProbe
  split
  · exact ⟨rfl, rfl, rfl⟩
  dsimp only
  split
  · exact ⟨rfl, rfl, rfl⟩
  split
  · exact ⟨rfl, rfl, rfl⟩
  · refine SameIndices.trans ?_
      (sendToPeer_indices env _ peerId _ addr nowMs)
    exact ⟨rfl, rfl, rfl⟩

theorem settleProbe_none
    {token : Bytes} (stays : (endpoint.settleProbe peerId addr token nowMs).1 = none) :
    (endpoint.settleProbe peerId addr token nowMs).2 = endpoint := by
  unfold settleProbe at stays ⊢
  split
  · rfl
  next found =>
  rw [found] at stays
  dsimp only at stays ⊢
  split
  · next proved =>
      rw [if_pos proved] at stays
      cases stays
  · rfl

/-- A frame from elsewhere that reports nothing moves no session. -/
theorem settleUnproved_none
    (reports : (settleUnproved env endpoint peerId addr ingested random nowMs).1 = .ok none) :
    endpoint.SameIndices (settleUnproved env endpoint peerId addr ingested random nowMs).2 := by
  unfold settleUnproved at reports ⊢
  split
  · next token =>
      have stays : (endpoint.settleProbe peerId addr token nowMs).1 = none := Except.ok.inj reports
      rw [settleProbe_none stays]
      exact ⟨rfl, rfl, rfl⟩
  · have challenges :=
      startProbe_indices env endpoint peerId addr random nowMs
    split
    · next starts =>
        rw [starts] at challenges
        exact challenges
    next starts =>
    rw [starts] at challenges
    exact challenges

/-- Trying one session after another. -/
theorem deliver_none
    (delivers : deliver env endpoint peerId addr false random nowMs = (.ok none, after)) :
    endpoint.SameIndices after := by
  unfold deliver at delivers
  split at delivers
  · cases delivers
    exact ⟨rfl, rfl, rfl⟩
  next entry found =>
  have front := entry.peer.ingest_front env.suite endpoint.rx nowMs endpoint.size
  split at delivers
  · cases delivers
  · next ingests =>
      cases delivers
      rw [ingests] at front
      exact ⟨rfl, rfl, front⟩
  next ingested reply buffer peer accepted ingests =>
  have settles := congrArg Prod.snd delivers
  subst settles
  rw [ingests] at front
  obtain ⟨sameRoutes, sameSessions⟩ := endpoint.heard_tables peerId entry peer buffer nowMs
  refine SameIndices.trans ?_ (settleUnproved_none (congrArg Prod.fst delivers))
  refine ⟨sameRoutes, sameSessions, ?_⟩
  rw [heard_rx]
  exact front

/-- A frame has come from an address no session is filed under. -/
structure Incoming.Stray (datagram : Incoming) (endpoint : Endpoint ω) : Prop where
  front : endpoint.rx.getD 0 0 = datagram.bytes.getD 0 0
  unrouted : endpoint.routes.lookup (datagram.addr, datagram.header.sessionId) = none

namespace Incoming.Stray

theorem same (stray : datagram.Stray endpoint) (same : endpoint.SameIndices after) :
    datagram.Stray after := by
  refine ⟨same.front.trans stray.front, ?_⟩
  rw [same.routes]
  exact stray.unrouted

/-- It is still astray once a session has been asked, and may be that session's. -/
theorem asked {allowed : Bool} {asked : Endpoint ω} {position : Nat}
    (stray : datagram.Stray endpoint)
    (listed : (endpoint.bySession.lookup datagram.header.sessionId).bind (·[position]?) =
      some peerId)
    (asks : endpoint.mayTryUnknownAddress peerId nowMs = (allowed, asked)) :
    datagram.Stray asked ∧ datagram.Shortlisted asked peerId := by
  have same := endpoint.mayTryUnknownAddress_indices peerId nowMs
  rw [asks] at same
  obtain ⟨sharing, isSharing, atPosition⟩ := Option.bind_eq_some_iff.mp listed
  refine ⟨stray.same same, (stray.same same).unrouted, sharing, ?_, ?_⟩
  · rw [same.bySession]
    exact isSharing
  · exact List.mem_of_getElem? atPosition

end Incoming.Stray

theorem Tries.atoms {position : Nat} {visits : List (Visit ω)}
    {outcome : Except Error (Option Event) × Endpoint ω}
    (tries : Tries env datagram.addr datagram.header.sessionId datagram.random datagram.nowMs
      position endpoint visits outcome)
    (stray : datagram.Stray endpoint) :
    ReflTransGen (SessionAtom env datagram) endpoint outcome.2 := by
  have budget : ∀ {endpoint asked : Endpoint ω} {peerId allowed},
        endpoint.mayTryUnknownAddress peerId datagram.nowMs = (allowed, asked) →
        SessionAtom env datagram endpoint asked := by
    intro endpoint asked peerId allowed asks
    rw [show asked = _ from (congrArg Prod.snd asks).symm]
    exact .budget
  induction tries with
  | ended => exact .refl
  | declines listed asks _ inductionHypothesis =>
    exact .head (budget asks) (inductionHypothesis (stray.asked listed asks).1)
  | settles listed asks =>
    obtain ⟨stray, shortlisted⟩ := stray.asked listed asks
    exact .head (budget asks) (deliver_atoms stray.front shortlisted)
  | passes listed asks delivers _ inductionHypothesis =>
    obtain ⟨stray, shortlisted⟩ := stray.asked listed asks
    have atoms := @deliver_atoms _ env datagram _ _ false stray.front shortlisted
    rw [delivers] at atoms
    exact .head (budget asks)
      (atoms.trans (inductionHypothesis (stray.same (deliver_none delivers))))

theorem route_atoms (isFront : endpoint.rx.getD 0 0 = datagram.bytes.getD 0 0) :
    ReflTransGen (SessionAtom env datagram) endpoint
      (route env endpoint datagram.addr datagram.header.sessionId
        datagram.random datagram.nowMs).2 := by
  unfold route
  split
  · next routed => exact deliver_atoms isFront routed
  · next unrouted => exact (candidates_tries env _ _ _ _ _ _ _).atoms ⟨isFront, unrouted⟩

theorem FrameAtom.sessions
    {before : Endpoint ω} (atoms : ReflTransGen (SessionAtom env datagram) before after) :
    ReflTransGen (FrameAtom env datagram) before after :=
  atoms.lift id fun _ _ atom => .session atom

/-- What a datagram is taken for. -/
theorem dispatch_cases (env : Env ω) (endpoint : Endpoint ω) (datagram : Incoming) :
    let read := { endpoint with rx := datagram.bytes }
    let dispatched :=
      dispatch env endpoint datagram.bytes datagram.addr datagram.random datagram.nowMs
    dispatched = (.ok none, read) ∨ (datagram.Opens ∧ dispatched =
            acceptHandshake env read datagram.header datagram.addr datagram.random datagram.nowMs) ∨
        (datagram.Closes ∧ dispatched.2 = (completeOutbound env read datagram.addr
                datagram.header.sessionId datagram.nowMs).2) ∨
          Session.carriesTransport datagram.header.frameType = true ∧ dispatched =
              route env read datagram.addr datagram.header.sessionId
                datagram.random datagram.nowMs := by
  intro read dispatched
  unfold dispatched dispatch
  split
  · exact Or.inl rfl
  rw [datagram.decoded]
  dsimp only
  split
  · next isType => exact Or.inr (Or.inl ⟨Or.inl isType, rfl⟩)
  · next isType => exact Or.inr (Or.inl ⟨Or.inr isType, rfl⟩)
  · next isType => exact Or.inr (Or.inr (Or.inl ⟨Or.inl isType, rfl⟩))
  · next isType => exact Or.inr (Or.inr (Or.inl ⟨Or.inr isType, rfl⟩))
  · refine Or.inr (Or.inr (Or.inr ⟨?_, rfl⟩))
    cases isType : datagram.header.frameType <;> first | rfl | contradiction

/-- A datagram that decodes is worked through atom by atom. -/
theorem dispatch_atoms {env : Env ω} (endpoint : Endpoint ω) (datagram : Incoming) :
    ReflTransGen (FrameAtom env datagram) { endpoint with rx := datagram.bytes }
      (dispatch env endpoint datagram.bytes datagram.addr datagram.random datagram.nowMs).2 := by
  rcases dispatch_cases env endpoint datagram with
    same | ⟨opens, same⟩ | ⟨_, same⟩ | ⟨_, same⟩
  · rw [same]
  · rw [same]
    refine (acceptHandshake_atoms rfl).lift id fun _ _ atom => ?_
    exact .opening opens atom
  · rw [same]
    exact .single (.completed rfl)
  · rw [same]
    exact FrameAtom.sessions (route_atoms rfl)

/-- One that does not changes nothing that lasts. -/
theorem dispatch_undecoded {env : Env ω} {bytes : Bytes} {error : CoreError}
    (undecoded : Header.decode bytes = .error error) :
    dispatch env endpoint bytes addr random nowMs = (.ok none, { endpoint with rx := bytes }) := by
  unfold dispatch
  rw [undecoded]
  split
  · rfl
  · rfl

end Endpoint

end Fectp
