import Fectp.Endpoint.Index
import Fectp.SplitDelivery

namespace Fectp

/-!
# Frames no session opens

A frame is tried in place against the session on file for its address, or
against one after another of those that share its identifier.  If none of them
opens it, nothing has changed but what the tries cost.
-/

/-- A frame that does not open leaves the peer as it was. -/
theorem Peer.ingest_unopened {suite : Suite} {peer : Peer} {frame : Bytes} {nowMs ackLen : Nat}
    (fails : (peer.session.openFrame suite.aead frame).1.isOk = false) :
    peer.ingest suite frame nowMs ackLen =
      (.ok .rejected, [], (peer.session.openFrame suite.aead frame).2.1, peer) := by
  have same := @Session.openFrame_error suite.aead peer.session frame
  unfold ingest
  generalize peer.session.openFrame suite.aead frame = opened at fails same
  obtain ⟨error | opened, buffer, session⟩ := opened
  · dsimp only at same ⊢
    rw [same rfl]
  · cases fails

namespace Endpoint

variable {ω : Type*} (env : Env ω)

/-- The sessions `route` tries, each with the buffer it finds. -/
def attempts
    (endpoint : Endpoint ω)
    (addr : SocketAddr)
    (sessionId : BitVec 32)
    (random : Bytes)
    (nowMs : Nat) :
    List (Session × Bytes) :=
  match endpoint.routes.lookup (addr, sessionId) with
  | some peerId =>
      ((endpoint.peers.lookup peerId).map fun entry =>
        (entry.peer.session, endpoint.rx)).toList
  | none =>
      (offers env addr sessionId random nowMs endpoint).filterMap fun offer =>
        (offer.asked.peers.lookup offer.peerId).map fun entry =>
          (entry.peer.session, offer.asked.rx)

/-- None of the attempts opens its buffer. -/
def Unopened (attempts : List (Session × Bytes)) : Prop :=
  ∀ attempt ∈ attempts,
    (attempt.1.openFrame env.suite.aead attempt.2).1.isOk = false

instance (attempts : List (Session × Bytes)) :
    Decidable (Unopened env attempts) :=
  inferInstanceAs (Decidable (∀ attempt ∈ attempts, _))

/-- The sessions asked whether they have budget for a frame. -/
def tried
    (endpoint : Endpoint ω)
    (addr : SocketAddr)
    (sessionId : BitVec 32)
    (random : Bytes)
    (nowMs : Nat) :
    List PeerId :=
  match endpoint.routes.lookup (addr, sessionId) with
  | some _ =>
      []
  | none =>
      (candidates env addr sessionId random nowMs maxCandidates 0
        endpoint).1.map (·.peerId)

/--
Nothing but the receive buffer has changed, and what some sessions have left to
spend on frames from elsewhere.
-/
structure Untouched
    (spent : List PeerId)
    (before after : Endpoint ω) :
    Prop where
  rest : after = { before with peers := after.peers, rx := after.rx }
  peers : ∀ id,
      after.peers.lookup id = before.peers.lookup id ∨
        id ∈ spent ∧
          ∃ entry budget refilled,
            before.peers.lookup id = some entry ∧
              after.peers.lookup id =
                some
                  { entry with
                    migrationBudget := budget
                    migrationRefilled := refilled }

namespace Untouched

variable {spent : List PeerId} {first second third : Endpoint ω}

theorem refl (endpoint : Endpoint ω) : endpoint.Untouched spent endpoint where
  rest := rfl
  peers := fun _ => Or.inl rfl

theorem trans (earlier : first.Untouched spent second) (later : second.Untouched spent third) :
    first.Untouched spent third where
  rest := by
    rw [later.rest, earlier.rest]
  peers := by
    intro id
    rcases later.peers id with
      same | ⟨member, entry, budget, refilled, found, after⟩
    · rw [same]
      exact earlier.peers id
    refine Or.inr ⟨member, ?_⟩
    rcases earlier.peers id with
      same | ⟨_, before, _, _, foundBefore, between⟩
    · exact ⟨entry, budget, refilled, same ▸ found, after⟩
    · rw [found] at between
      cases between
      exact ⟨before, budget, refilled, foundBefore, after⟩

end Untouched

variable {env}

variable {endpoint : Endpoint ω} {peerId : PeerId} {nowMs : Nat}

/-- Asking for budget may cost the session asked for. -/
theorem mayTryUnknownAddress_untouched {spent : List PeerId} (member : peerId ∈ spent) :
    endpoint.Untouched spent (endpoint.mayTryUnknownAddress peerId nowMs).2 := by
  unfold mayTryUnknownAddress
  split
  · exact .refl endpoint
  next entry found =>
  refine ⟨rfl, fun id => ?_⟩
  by_cases isPeer : id = peerId
  · subst isPeer
    exact Or.inr ⟨member, entry, _, nowMs, found, AList.lookup_insert endpoint.peers⟩
  · exact Or.inl (AList.lookup_insert_ne isPeer)

/-- A session that does not open a frame is put back as it was. -/
theorem ingested_untouched {entry : PeerEntry} {spent : List PeerId}
    (found : endpoint.peers.lookup peerId = some entry) (buffer : Bytes) :
    endpoint.Untouched spent (endpoint.ingested peerId entry entry.peer buffer) where
  rest := rfl
  peers := by
    intro id
    left
    by_cases isPeer : id = peerId
    · subst isPeer
      exact (AList.lookup_insert endpoint.peers).trans found.symm
    · exact AList.lookup_insert_ne isPeer

theorem deliver_unopened {entry : PeerEntry} (found : endpoint.peers.lookup peerId = some entry)
    (fails : (entry.peer.session.openFrame env.suite.aead endpoint.rx).1.isOk = false)
    (addr : SocketAddr) (established : Bool) (random : Bytes) (nowMs : Nat) :
    deliver env endpoint peerId addr established random nowMs = (.ok none,
        endpoint.ingested peerId entry entry.peer
          (entry.peer.session.openFrame env.suite.aead endpoint.rx).2.1) := by
  unfold deliver
  rw [found]
  dsimp only
  rw [Peer.ingest_unopened fails]

theorem deliver_untouched {spent : List PeerId}
    (fails : ∀ entry, endpoint.peers.lookup peerId = some entry →
      (entry.peer.session.openFrame env.suite.aead endpoint.rx).1.isOk = false)
    (addr : SocketAddr) (established : Bool) (random : Bytes) (nowMs : Nat) :
    (deliver env endpoint peerId addr established random nowMs).1 = .ok none ∧
      endpoint.Untouched spent
        (deliver env endpoint peerId addr established random nowMs).2 := by
  cases found : endpoint.peers.lookup peerId with
  | none =>
    rw [deliver, found]
    exact ⟨rfl, .refl endpoint⟩
  | some entry =>
    rw [deliver_unopened found (fails entry found)]
    exact ⟨rfl, ingested_untouched found _⟩

theorem Tries.unopened {addr : SocketAddr} {sessionId : BitVec 32} {random : Bytes}
    {position : Nat} {visits : List (Visit ω)} {spent : List PeerId}
    {outcome : Except Error (Option Event) × Endpoint ω}
    (tries : Tries env addr sessionId random nowMs position endpoint visits outcome)
    (asked : ∀ visit ∈ visits, visit.peerId ∈ spent)
    (fails : ∀ visit ∈ visits, visit.allowed = true →
      ∀ entry, visit.asked.peers.lookup visit.peerId = some entry →
        (entry.peer.session.openFrame env.suite.aead visit.asked.rx).1.isOk = false) :
    outcome.1 = .ok none ∧ endpoint.Untouched spent outcome.2 := by
  have costs : ∀ {endpoint asked : Endpoint ω} {peerId allowed},
        endpoint.mayTryUnknownAddress peerId nowMs = (allowed, asked) →
        peerId ∈ spent → endpoint.Untouched spent asked := by
    intro endpoint asked peerId allowed asks member
    rw [show asked = _ from (congrArg Prod.snd asks).symm]
    exact mayTryUnknownAddress_untouched member
  induction tries with
  | ended _ endpoint => exact ⟨rfl, .refl endpoint⟩
  | declines _ asks _ inductionHypothesis =>
    rw [List.forall_mem_cons] at asked fails
    obtain ⟨reports, leaves⟩ := inductionHypothesis asked.2 fails.2
    exact ⟨reports, (costs asks asked.1).trans leaves⟩
  | settles _ asks =>
    rw [List.forall_mem_singleton] at asked fails
    obtain ⟨reports, leaves⟩ := deliver_untouched (fails rfl) addr false random nowMs
    exact ⟨reports, (costs asks asked).trans leaves⟩
  | passes _ asks delivers _ inductionHypothesis =>
    rw [List.forall_mem_cons] at asked fails
    obtain ⟨_, tries⟩ := deliver_untouched (fails.1 rfl) addr false random nowMs
    rw [delivers] at tries
    obtain ⟨reports, leaves⟩ := inductionHypothesis asked.2 fails.2
    exact ⟨reports, ((costs asks asked.1).trans tries).trans leaves⟩

theorem route_unopened {addr : SocketAddr} {sessionId : BitVec 32} {random : Bytes}
    (unopened : Unopened env (attempts env endpoint addr sessionId random nowMs)) :
    (route env endpoint addr sessionId random nowMs).1 = .ok none ∧
      endpoint.Untouched (tried env endpoint addr sessionId random nowMs)
        (route env endpoint addr sessionId random nowMs).2 := by
  unfold route tried
  unfold attempts at unopened
  cases routed : endpoint.routes.lookup (addr, sessionId) with
  | some peerId =>
    rw [routed] at unopened
    dsimp only at unopened
    refine deliver_untouched (fun entry found => ?_) addr true random nowMs
    refine unopened (entry.peer.session, endpoint.rx) ?_
    rw [found]
    exact List.mem_singleton_self _
  | none =>
    rw [routed] at unopened
    refine (candidates_tries env _ _ _ _ _ _ _).unopened
      (fun visit member => List.mem_map_of_mem member) ?_
    intro visit member isAllowed entry found
    refine unopened (entry.peer.session, visit.asked.rx)
      (List.mem_filterMap.mpr ⟨visit, ?_, ?_⟩)
    · exact List.mem_filter.mpr ⟨member, isAllowed⟩
    · rw [found]
      rfl

/--
A datagram of a session's that no session it is tried against opens reports
nothing, sends nothing and changes nothing that lasts but what the tries cost.
-/
theorem unopened_changes_nothing
    (env : Env ω)
    (endpoint : Endpoint ω)
    (bytes : Bytes)
    (addr : SocketAddr)
    (random : Bytes)
    (nowMs : Nat)
    (header : Header)
    (decoded : Header.decode bytes = .ok header)
    (transport : Session.carriesTransport header.frameType = true)
    (unopened :
      Unopened env
        (attempts env { endpoint with rx := bytes } addr header.sessionId
          random nowMs)) :
    (dispatch env endpoint bytes addr random nowMs).1 = .ok none ∧
      endpoint.Untouched
        (tried env { endpoint with rx := bytes } addr header.sessionId random
          nowMs)
        (dispatch env endpoint bytes addr random nowMs).2 := by
  obtain ⟨reports, leaves⟩ := route_unopened unopened
  generalize tried env { endpoint with rx := bytes } addr header.sessionId
    random nowMs = spent at leaves ⊢
  have reads : endpoint.Untouched spent { endpoint with rx := bytes } :=
    ⟨rfl, fun _ => Or.inl rfl⟩
  unfold dispatch
  split
  · exact ⟨rfl, reads⟩
  rw [decoded]
  dsimp only
  split
  · next isType =>
      rw [isType] at transport
      cases transport
  · next isType =>
      rw [isType] at transport
      cases transport
  · next isType =>
      rw [isType] at transport
      cases transport
  · next isType =>
      rw [isType] at transport
      cases transport
  · exact ⟨reports, reads.trans leaves⟩

/-! ### Small endpoints to run -/

/-- The two ends of a session, with keys from a secret both have. -/
def smallLink (sessionId : BitVec 32) (secret : Bytes) :
    SessionChannel.System :=
  .initial
    { SessionChannel.System.smallHandshake with
      aliceKey := 1 :: secret
      bobKey := 2 :: secret
      sessionId := sessionId
      aliceCaps := ⟨capReliable, 1200, 0⟩
      bobCaps := ⟨capReliable, 1200, 0⟩
      resumptionKey := secret }

/-- A handshake's frame, whose secret is in the clear. -/
def smallOpening
    (frameType : FrameType)
    (sessionId : BitVec 32)
    (secret : Bytes) :
    Bytes :=
  Header.bytes ⟨frameType, 0, sessionId, 0⟩ ++ secret

/-- The session a small handshake's frame is for; its secret is the key. -/
def smallRead
    (side : SessionChannel.System → Session)
    (from' : Nat)
    (frame : Bytes) :
    Except Error Session :=
  match Header.decode frame with
  | .error error =>
      .error (.protocol error)
  | .ok header =>
      .ok
        { side (smallLink header.sessionId (frame.drop from')) with
          sessionId := header.sessionId
          remoteStatic := frame.drop from' }

theorem smallRead_sessionId {side : SessionChannel.System → Session} {from' : Nat} {frame : Bytes}
    {link : Session} {header : Header} (reads : smallRead side from' frame = .ok link)
    (decoded : Header.decode frame = .ok header) :
    link.sessionId = header.sessionId := by
  rw [smallRead, decoded] at reads
  cases reads
  rfl

/-- A handshake in the clear; a resumption names its ticket and its key. -/
def smallNoise : Noise where
  writeInit _ _ sessionId random _ :=
    .ok (.full random, smallOpening .handshakeInit sessionId random)
  readResponse _ frame :=
    match smallRead SessionChannel.System.alice headerLen frame with
    | .error error =>
        .error error
    | .ok link =>
        .ok (link, [])
  respond _ frame _ _ :=
    match smallRead SessionChannel.System.bob headerLen frame with
    | .error error =>
        .error error
    | .ok link =>
        .ok (link, [],
          smallOpening .handshakeResponse link.sessionId link.resumptionKey)
  respondResumed ticket _ frame _ _ :=
    match smallRead SessionChannel.System.bob (headerLen + 8) frame with
    | .error error =>
        .error error
    | .ok link =>
        if link.resumptionKey = ticket.key then
          .ok (link, [], smallOpening .resumeResponse link.sessionId [])
        else
          .error .handshake
  resumptionTicket session :=
    ⟨session.resumptionKey.take 8, session.resumptionKey.drop 8⟩
  readResponse_sessionId := by
    intro handshake frame link reply header responds decoded
    split at responds
    · cases responds
    next reads =>
    cases responds
    exact smallRead_sessionId reads decoded
  respond_sessionId := by
    intro key frame reply random link zeroRtt response header responds decoded
    split at responds
    · cases responds
    next reads =>
    cases responds
    exact smallRead_sessionId reads decoded
  respondResumed_sessionId := by
    intro ticket remoteStatic frame reply random link zeroRtt response
      header responds decoded
    split at responds
    · cases responds
    next reads =>
    split at responds
    · cases responds
      exact smallRead_sessionId reads decoded
    · cases responds

/-- A socket that sends all it is given. -/
def smallEnv : Env Unit where
  suite := SplitMessages.System.smallSuite
  noise := smallNoise
  sendTo socket _ := (.ok (), socket)
  maxDatagram := 1200
  discovery := false
  walk := ⟨id, .refl⟩

/-- An endpoint serving by public key. -/
def smallServer : Endpoint Unit :=
  Endpoint.new smallEnv (.publicKey []) ()

/-- Another host. -/
def host (number : Nat) : SocketAddr :=
  ⟨number, 4433⟩

/-- An action at a time, with tables walked in the order they are kept. -/
def smallMoment (nowMs : Nat) (action : Action) : Moment :=
  ⟨nowMs, ⟨id, .refl⟩, action⟩

/-- A pass of `poll` that reads one datagram. -/
def smallPass
    (nowMs : Nat)
    (bytes : Bytes)
    (addr : SocketAddr)
    (random : Bytes) :
    List Moment :=
  [smallMoment nowMs (.poll none),
    smallMoment nowMs (.timers (fun _ => []) fun _ => []),
    smallMoment nowMs .queues,
    smallMoment nowMs (.receive (.datagram bytes addr random))]

/-- A data frame the other end of a small session seals first. -/
def smallWord (sessionId : BitVec 32) (secret : Bytes) : Bytes :=
  ((smallLink sessionId secret).alice.sealData smallEnv.suite.aead [1] 0
    100).1.toOption.getD []

/-- A session, and a data frame for it that nobody sealed. -/
def smallForgery : Bytes :=
  Header.bytes ⟨.data, 0, 5, 3⟩ ++ List.replicate 20 9

theorem unopened_changes_nothing_of_forgery :
    let endpoint :=
      file smallEnv smallServer 0 (smallLink 5 [7]).bob (host 1) 0
    let read := { endpoint with rx := smallForgery }
    (attempts smallEnv read (host 2) 5 [] 10).length = 1 ∧
      tried smallEnv read (host 1) 5 [] 10 = [] ∧
      tried smallEnv read (host 2) 5 [] 10 = [0] ∧
      (dispatch smallEnv endpoint smallForgery (host 2) [] 10).1 = .ok none ∧
      endpoint.Untouched (tried smallEnv read (host 2) 5 [] 10)
        (dispatch smallEnv endpoint smallForgery (host 2) [] 10).2 :=
  ⟨by decide +kernel, by decide +kernel, by decide +kernel,
    unopened_changes_nothing smallEnv
      (file smallEnv smallServer 0 (smallLink 5 [7]).bob (host 1) 0)
      smallForgery (host 2) [] 10 ⟨.data, 0, 5, 3⟩ (by decide +kernel) rfl
      (by decide +kernel)⟩

end Endpoint

end Fectp
