import Fectp.Endpoint.Visits

namespace Fectp

/-!
# Handshakes started here

Handshakes an endpoint has under way only become fewer, unless a call begins
one.  A failure is reported as the handshake is dropped, and not through the
queue of events.
-/

open Relation (ReflTransGen)

namespace Endpoint

variable {ω : Type*}

/-- No handshake is begun, and no failure of one is queued. -/
structure Dwindles (before after : Endpoint ω) : Prop where
  outbound : ∀ {id later},
      after.outbound.lookup id = some later →
      ∃ earlier,
        before.outbound.lookup id = some earlier ∧
          later.peerKey = earlier.peerKey
  nextId : before.nextId ≤ after.nextId
  events : Event.Plainly before.events after.events
  mode : after.mode = before.mode

namespace Dwindles

theorem trans {first second third : Endpoint ω} (earlier : Dwindles first second)
    (later : Dwindles second third) :
    Dwindles first third where
  outbound found := by
    obtain ⟨between, isBetween, sameKey⟩ := later.outbound found
    obtain ⟨start, isStart, sameStart⟩ := earlier.outbound isBetween
    exact ⟨start, isStart, sameKey.trans sameStart⟩
  nextId := earlier.nextId.trans later.nextId
  events := later.events.trans earlier.events
  mode := later.mode.trans earlier.mode

/-- What leaves the handshakes alone, and queues nothing. -/
theorem of_same {before after : Endpoint ω} (outbound : after.outbound = before.outbound)
    (nextId : after.nextId = before.nextId) (events : after.events = before.events)
    (mode : after.mode = before.mode) :
    Dwindles before after where
  outbound found := ⟨_, outbound ▸ found, rfl⟩
  nextId := nextId.ge
  events := events ▸ .refl _
  mode := mode

theorem refl (endpoint : Endpoint ω) : Dwindles endpoint endpoint :=
  of_same rfl rfl rfl rfl

/-- What leaves the handshakes alone, and queues something else. -/
theorem of_queued
    {before after : Endpoint ω} {queued : List Event} (outbound : after.outbound = before.outbound)
    (nextId : after.nextId = before.nextId) (events : after.events = before.events ++ queued)
    (mode : after.mode = before.mode) (others : ∀ event ∈ queued, event.isPlain = true) :
    Dwindles before after where
  outbound found := ⟨_, outbound ▸ found, rfl⟩
  nextId := nextId.ge
  events := events ▸ Event.plainly_append _ others
  mode := mode

end Dwindles

theorem Touched.dwindles
    {Effect : PeerEntry × ω → PeerEntry × ω → Prop} {peerId : PeerId} {before after : Endpoint ω}
    (touched : Touched Effect peerId before after) :
    Dwindles before after where
  outbound found := ⟨_, touched.outbound ▸ found, rfl⟩
  nextId := touched.nextId.ge
  events := touched.events
  mode := congrArg (·.2.2.2.2.2.2) touched.outside

section

variable (env : Env ω) (endpoint : Endpoint ω) (peerId : PeerId)

variable (addr : SocketAddr) (nowMs : Nat)

theorem lose_dwindles : Dwindles endpoint (endpoint.lose peerId) := by
  unfold lose
  split
  · exact .refl endpoint
  unfold removePeer unfileSession
  dsimp only
  split <;>
    exact .of_queued rfl rfl rfl rfl fun event member => by
      rw [List.mem_singleton.mp member]
      rfl

theorem removePeer_dwindles (entry : PeerEntry) :
    Dwindles endpoint (endpoint.removePeer peerId entry) := by
  unfold removePeer unfileSession
  dsimp only
  split <;> exact .of_same rfl rfl rfl rfl

theorem erase_dwindles :
    Dwindles endpoint { endpoint with outbound := endpoint.outbound.erase peerId } where
  outbound found := ⟨_, (Table.found_of_erase found).2, rfl⟩
  nextId := Nat.le_refl _
  events := .refl _
  mode := rfl

theorem disconnect_dwindles :
    Dwindles endpoint (endpoint.disconnect peerId).2 := by
  unfold disconnect
  split
  · exact erase_dwindles endpoint peerId
  split
  · exact .refl endpoint
  · exact removePeer_dwindles endpoint peerId _

theorem apply_dwindles (setting : Setting) (nowMs : Nat) :
    Dwindles endpoint (Endpoint.apply env endpoint setting nowMs).2 := by
  unfold Endpoint.apply
  split
  all_goals try exact .of_same rfl rfl rfl rfl
  unfold setHandshakeReply
  dsimp only
  split <;> exact .of_same rfl rfl rfl rfl

theorem resendOpening_dwindles :
    Dwindles endpoint (resendOpening env nowMs peerId endpoint).2 := by
  unfold resendOpening
  split
  · exact .refl endpoint
  next started found =>
  split
  · exact erase_dwindles endpoint peerId
  have again : ∀ (later : Outbound) (socket : ω), later.peerKey = started.peerKey →
        Dwindles endpoint
          { endpoint with
            outbound := endpoint.outbound.insert peerId later
            socket := socket } := by
    intro later socket sameKey
    refine ⟨?_, Nat.le_refl _, .refl _, rfl⟩
    intro id held isHeld
    rcases Table.found_of_insert isHeld with ⟨rfl, rfl⟩ | ⟨_, isHeld⟩
    · exact ⟨started, found, sameKey⟩
    · exact ⟨held, isHeld, rfl⟩
  dsimp only
  split
  · exact again _ _ rfl
  · exact again _ _ rfl

theorem file_dwindles (link : Session) (addr : SocketAddr) (nowMs : Nat) :
    Dwindles endpoint (file env endpoint peerId link addr nowMs) := by
  have makes : Dwindles endpoint (makeRoom env endpoint) := by
    unfold makeRoom
    split
    · exact .refl endpoint
    split
    · exact .refl endpoint
    · exact removePeer_dwindles endpoint _ _
  refine makes.trans ?_
  unfold file displace
  dsimp only
  split
  · exact .of_same rfl rfl rfl rfl
  · unfold unfileSession
    split <;> exact .of_same rfl rfl rfl rfl

theorem settleProbe_dwindles (token : Bytes) (nowMs : Nat) :
    Dwindles endpoint (endpoint.settleProbe peerId addr token nowMs).2 := by
  have gives : ∀ {later : Endpoint ω} displaced,
        Dwindles endpoint later → Dwindles endpoint (later.giveWay displaced) := by
    intro later displaced reaches
    refine reaches.trans ?_
    unfold giveWay
    split
    · exact .refl later
    unfold unfileSession
    split <;>
      exact .of_queued rfl rfl rfl rfl fun event member => by
        rw [List.mem_singleton.mp member]
        rfl
  unfold settleProbe displace
  split
  · exact .refl endpoint
  split
  · refine (gives _ ?_).trans (.of_same rfl rfl rfl rfl)
    exact .of_same rfl rfl rfl rfl
  · exact .refl endpoint

theorem repeatHandshake_dwindles (sessionId : BitVec 32) (nowMs : Nat) :
    Dwindles endpoint (repeatHandshake env endpoint addr sessionId nowMs).2 := by
  cases routed : endpoint.routes.lookup (addr, sessionId) with
  | none =>
    rw [repeatHandshake_unrouted env routed]
    exact .refl endpoint
  | some repeatedId => exact (repeatHandshake_visited env routed nowMs).dwindles

theorem answer_dwindles
    (resumed : Bool) (responded : Except Error (Session × Bytes × Bytes)) (nowMs : Nat) :
    Dwindles endpoint (answer env endpoint addr resumed responded nowMs).2 := by
  rcases answer_cases env endpoint addr resumed responded nowMs with
    ⟨same, _⟩ | ⟨link, _, _, socket, _, ⟨_, _, same⟩ | ⟨_, same⟩⟩
  · rw [same]
    exact .refl endpoint
  · rw [same]
    exact .of_same rfl rfl rfl rfl
  rw [same]
  have issues : Dwindles endpoint (issued env endpoint link socket nowMs) :=
    ⟨fun found => ⟨_, found, rfl⟩, Nat.le_succ _, .refl _, rfl⟩
  refine (issues.trans (file_dwindles env
    (issued env endpoint link socket nowMs) endpoint.nextId link addr nowMs)).trans ?_
  exact .of_same rfl rfl rfl rfl

theorem completeOutbound_dwindles (sessionId : BitVec 32) (nowMs : Nat) :
    Dwindles endpoint (completeOutbound env endpoint addr sessionId nowMs).2 := by
  have closes : ∀ id paths, Dwindles endpoint (endpoint.closed id paths) := by
    intro id paths
    refine (erase_dwindles endpoint id).trans ?_
    exact .of_same rfl rfl rfl rfl
  rcases completeOutbound_cases env endpoint addr sessionId nowMs with
    same | ⟨id, outbound, paths, _, _, _, same | ⟨link, _, _, same⟩⟩
  · rw [same]
    exact .refl endpoint
  · rw [same]
    exact closes id paths
  rw [same]
  refine ((closes id paths).trans ?_).trans
    (file_dwindles env (ticketed env (endpoint.closed id paths) link nowMs)
      id link outbound.addr nowMs)
  exact .of_same rfl rfl rfl rfl

end

section

variable {env : Env ω} {before after : Endpoint ω}

variable {datagram : Incoming} {moment : Moment}

theorem OpeningAtom.dwindles (atom : OpeningAtom env datagram before after) :
    Dwindles before after := by
  cases atom with
  | note same => exact .of_same same.outbound same.nextId same.events same.mode
  | repeated => exact repeatHandshake_dwindles env before _ _ _
  | filed _ _ => exact answer_dwindles env before _ _ _ _

theorem SessionAtom.dwindles (atom : SessionAtom env datagram before after) :
    Dwindles before after := by
  cases atom with
  | budget => exact (mayTryUnknownAddress_served env before).dwindles
  | tried _ _ _ => exact .of_same rfl rfl rfl rfl
  | heard found _ _ _ => exact (heard_visited found _ _ _).dwindles
  | replied _ heard =>
    obtain ⟨entry, found⟩ := heard.found
    exact (sendToPeer_visited env found _ _ _).dwindles
  | answered => exact .of_same rfl rfl rfl rfl
  | challenged _ _ => exact (startProbe_visited env before _ _ _ _).dwindles
  | moved _ _ => exact settleProbe_dwindles before _ _ _ _

theorem FrameAtom.dwindles (atom : FrameAtom env datagram before after) :
    Dwindles before after := by
  cases atom with
  | opening _ atom => exact atom.dwindles
  | session atom => exact atom.dwindles
  | completed _ => exact completeOutbound_dwindles env before _ _ _

section

variable (unconnected : ∀ addr peerPublic zeroRtt sessionId random,
    moment.action ≠ .connect addr peerPublic zeroRtt sessionId random)

include unconnected

/-- Everything but a call to connect. -/
theorem Atom.dwindles (atom : Atom env moment before after) :
    Dwindles before after := by
  cases atom with
  | note same => exact .of_same same.outbound same.nextId same.events same.mode
  | popped queue =>
    refine ⟨fun found => ⟨_, found, rfl⟩, Nat.le_refl _, ?_, rfl⟩
    rw [queue]
    exact (List.sublist_cons_self _ _).filter _
  | rescanned => exact .of_same rfl rfl rfl rfl
  | frame _ _ atom => exact atom.dwindles
  | connected isAction => exact (unconnected _ _ _ _ _ isAction).elim
  | disconnected _ => exact disconnect_dwindles before _
  | set _ => exact apply_dwindles env before _ _
  | sent _ => exact (send_served _ _ before).dwindles
  | sentOne _ found => exact (sendOneReliable_served found _ _).dwindles
  | queued _ _ => exact .of_same rfl rfl rfl rfl
  | fed => exact (driveQueueOf_served before).dwindles
  | resent => exact (driveRetransmitsOf_served before).dwindles
  | reopened => exact resendOpening_dwindles env before _ _
  | lost _ => exact lose_dwindles before _
  | keptAlive _ _ _ => exact (keepAliveOf_served _ before).dwindles
  | probed _ => exact (drivePmtuOf_served _ before).dwindles

theorem dwindles_of_atoms (atoms : ReflTransGen (Atom env moment) before after) :
    Dwindles before after := by
  induction atoms with
  | refl => exact .refl before
  | tail _ atom inductionHypothesis => exact inductionHypothesis.trans (atom.dwindles unconnected)

end

theorem sendReliable_dwindles (env : Env ω) (endpoint : Endpoint ω) (peerId : PeerId) (data : Bytes)
    (payloadType : PayloadType) (nowMs : Nat) :
    Dwindles endpoint (Endpoint.sendReliable env endpoint peerId data payloadType nowMs).2 := by
  have atoms : ReflTransGen (Atom env ⟨nowMs, env.walk, .sendReliable peerId data payloadType⟩)
        endpoint
        (Endpoint.sendReliable env endpoint peerId data payloadType nowMs).2 :=
    sendReliable_atoms rfl
  exact dwindles_of_atoms (by simp) atoms

theorem driveRetransmits_dwindles (env : Env ω) (endpoint : Endpoint ω) (nowMs : Nat) :
    Dwindles endpoint (driveRetransmits env endpoint nowMs).2 := by
  have atoms : ReflTransGen (Atom env ⟨nowMs, env.walk, .queues⟩) endpoint
        (driveRetransmits env endpoint nowMs).2 :=
    endpoint.driveRetransmits_atoms
  exact dwindles_of_atoms (by simp) atoms

theorem feedQueues_dwindles (env : Env ω) (endpoint : Endpoint ω) (nowMs : Nat) :
    Dwindles endpoint (feedQueues env endpoint nowMs).2 := by
  have atoms : ReflTransGen (Atom env ⟨nowMs, env.walk, .queues⟩) endpoint
        (feedQueues env endpoint nowMs).2 :=
    endpoint.feedQueues_atoms
  exact dwindles_of_atoms (by simp) atoms

theorem Driver.next_dwindles (env : Env ω) (driver : Driver ω)
    (unconnected : ∀ addr peerPublic zeroRtt sessionId random,
        moment.action ≠ .connect addr peerPublic zeroRtt sessionId random) :
    Dwindles driver.endpoint (driver.next env moment).endpoint :=
  dwindles_of_atoms unconnected (driver.next_atoms env moment)

end

/-! ### Calls to connect -/

/-- One handshake is begun, with the holder of a key. -/
structure Begins
    (before after : Endpoint ω)
    (peerPublic : Option Bytes) :
    Prop where
  outbound : ∃ begun : Outbound,
      begun.peerKey = peerPublic ∧
        after.outbound = before.outbound.insert before.nextId begun
  nextId : after.nextId = before.nextId + 1
  events : after.events = before.events
  mode : after.mode = before.mode

theorem connectAndSend_begins {env : Env ω} {endpoint after : Endpoint ω} {addr : SocketAddr}
    {peerPublic : Option Bytes} {zeroRtt : Bytes} {sessionId : BitVec 32}
    {random : Bytes} {nowMs : Nat} {result : Except Error PeerId}
    (connects : connectAndSend env endpoint addr peerPublic zeroRtt sessionId random
        nowMs = (result, after)) :
    (∃ error, result = .error error ∧ Dwindles endpoint after) ∨
      result = .ok endpoint.nextId ∧ Begins endpoint after peerPublic := by
  unfold connectAndSend at connects
  extract_lets overhead limit missingKey at connects
  split at connects
  · cases connects
    exact Or.inl ⟨_, rfl, .refl endpoint⟩
  split at connects
  · cases connects
    exact Or.inl ⟨_, rfl, .refl endpoint⟩
  split at connects
  · cases connects
    exact Or.inl ⟨_, rfl, .refl endpoint⟩
  split at connects
  · cases connects
    exact Or.inl ⟨_, rfl, .of_same rfl rfl rfl rfl⟩
  · cases connects
    exact Or.inr ⟨rfl, ⟨_, rfl, rfl⟩, rfl, rfl, rfl⟩

/-- A call begins one handshake and hands back its handle, or begins none. -/
theorem Driver.step_begins (env : Env ω) (driver : Driver ω) (moment : Moment) :
    let outcome := driver.step env moment
    Dwindles driver.endpoint outcome.2.endpoint ∨ driver.call = .idle ∧
        outcome.1 = some (.connecting (.ok driver.endpoint.nextId)) ∧
        ∃ peerPublic, Begins driver.endpoint outcome.2.endpoint peerPublic := by
  intro outcome
  by_cases connects :
      ∃ addr peerPublic zeroRtt sessionId random,
        moment.action = .connect addr peerPublic zeroRtt sessionId random
  · obtain ⟨addr, peerPublic, zeroRtt, sessionId, random, isAction⟩ :=
      connects
    unfold outcome Driver.step
    rw [isAction]
    cases isCall : driver.call with
    | idle =>
      dsimp only
      rcases isConnected :
          connectAndSend { env with walk := moment.walk } driver.endpoint
            addr peerPublic zeroRtt sessionId random moment.nowMs with
        ⟨result, after⟩
      rcases connectAndSend_begins isConnected with
        ⟨_, _, dwindles⟩ | ⟨rfl, begins⟩
      · exact Or.inl dwindles
      · exact Or.inr ⟨rfl, rfl, peerPublic, begins⟩
    | polling deadline => exact Or.inl (.refl _)
    | feeding deadline => exact Or.inl (.refl _)
    | reading deadline wait => exact Or.inl (.refl _)
  · left
    refine driver.next_dwindles env ?_
    intro addr peerPublic zeroRtt sessionId random isAction
    exact connects ⟨addr, peerPublic, zeroRtt, sessionId, random, isAction⟩

/-! ### Failures -/

/-- What is said to have failed was under way, and is not any more. -/
def Ends (before after : Endpoint ω) (event : Option Event) : Prop :=
  ∀ id,
    event = some (.connectFailed id) →
      (∃ outbound, before.outbound.lookup id = some outbound) ∧
        after.outbound.lookup id = none

theorem Ends.of_ne {before : Endpoint ω} {outcome : Except Error (Option Event) × Endpoint ω}
    {event : Option Event} (unfailed : ∀ id, outcome.1 ≠ .ok (some (.connectFailed id)))
    (comes : outcome.1 = .ok event) :
    Ends before outcome.2 event := by
  intro id isFailure
  rw [isFailure] at comes
  exact (unfailed id comes).elim

section

variable (env : Env ω) (endpoint : Endpoint ω) (peerId : PeerId)

theorem handed_ne_connectFailed (ingested : Ingested) (id : PeerId) :
    handed env endpoint peerId ingested ≠ some (.connectFailed id) := by
  unfold handed
  split <;> simp

variable (addr : SocketAddr) (sessionId : BitVec 32) (nowMs : Nat)
  {event : Event}

theorem settleProbe_ne_connectFailed (token : Bytes) (nowMs : Nat) (id : PeerId) :
    (endpoint.settleProbe peerId addr token nowMs).1 ≠ some (.connectFailed id) := by
  unfold settleProbe
  split
  · simp
  · split <;> simp

theorem deliver_ne_connectFailed (established : Bool) (random : Bytes) (nowMs : Nat) (id : PeerId) :
    (deliver env endpoint peerId addr established random nowMs).1 ≠
      .ok (some (.connectFailed id)) := by
  unfold deliver
  split
  · simp
  split
  · simp
  · simp
  dsimp only
  split
  · unfold settleEstablished
    dsimp only
    split
    · simp
    · simp [handed_ne_connectFailed]
  · unfold settleUnproved
    split
    · simp [settleProbe_ne_connectFailed]
    · split
      · simp
      · simp [handed_ne_connectFailed]

theorem Tries.ne_connectFailed {position : Nat} {visits : List (Visit ω)} {random : Bytes}
    {nowMs : Nat} {outcome : Except Error (Option Event) × Endpoint ω}
    (tries : Tries env addr sessionId random nowMs position endpoint visits outcome)
    (id : PeerId) :
    outcome.1 ≠ .ok (some (.connectFailed id)) := by
  induction tries with
  | ended => simp
  | settles => exact deliver_ne_connectFailed env _ _ addr false random nowMs id
  | declines _ _ _ inductionHypothesis | passes _ _ _ _ inductionHypothesis =>
    exact inductionHypothesis

theorem route_ne_connectFailed (random : Bytes) (nowMs : Nat) (id : PeerId) :
    (route env endpoint addr sessionId random nowMs).1 ≠ .ok (some (.connectFailed id)) := by
  unfold route
  split
  · exact deliver_ne_connectFailed env endpoint _ addr true random nowMs id
  · exact (candidates_tries env _ _ _ _ _ _ endpoint).ne_connectFailed env endpoint addr sessionId id

theorem answer_ne_connectFailed
    (resumed : Bool) (responded : Except Error (Session × Bytes × Bytes))
    (nowMs : Nat) (id : PeerId) :
    (answer env endpoint addr resumed responded nowMs).1 ≠ .ok (.connectFailed id) := by
  unfold answer
  split
  · simp
  · split
    · simp
    · simp [register, registerAs]

theorem acceptHandshake_ne_connectFailed
    (header : Header) (addr : SocketAddr) (random : Bytes) (nowMs : Nat) (id : PeerId) :
    (acceptHandshake env endpoint header addr random nowMs).1 ≠ .ok (some (.connectFailed id)) := by
  have accepts : ∀ outcome : Except Error Event × Endpoint ω, outcome.1 ≠ .ok (.connectFailed id) →
          (accepted outcome).1 ≠ .ok (some (.connectFailed id)) := by
    rintro ⟨error | event, _⟩ differs same
    · simp [accepted, Except.toOption] at same
    · simp only [accepted, Except.toOption, Except.ok.injEq,
        Option.some.injEq] at same
      exact differs (congrArg _ same)
  unfold acceptHandshake
  split
  · simp
  · simp
  split
  · simp
  · split
    · refine accepts _ ?_
      unfold acceptFull
      split
      · simp
      · exact answer_ne_connectFailed env _ addr _ _ nowMs id
    · refine accepts _ ?_
      unfold acceptResumed
      split
      · simp
      dsimp only
      split
      · simp
      · exact answer_ne_connectFailed env _ addr _ _ nowMs id
    · simp

theorem completeOutbound_ends :
    Ends endpoint (completeOutbound env endpoint addr sessionId nowMs).2
      (completeOutbound env endpoint addr sessionId nowMs).1 := by
  intro id
  unfold completeOutbound
  dsimp only
  split
  · simp
  next peerId outbound matched =>
  obtain ⟨held, _, isStarted⟩ := List.mem_filterMap.mp (List.mem_of_find?_eq_some matched)
  obtain ⟨outbound, found, isPair⟩ := Option.map_eq_some_iff.mp isStarted
  cases isPair
  split
  · intro fails
    cases fails
    refine ⟨⟨outbound, found⟩, ?_⟩
    split <;> exact AList.lookup_erase _ _
  · simp [registerAs]

theorem resendOpening_ends :
    ∀ event, (resendOpening env nowMs peerId endpoint).1 = .ok event →
      Ends endpoint (resendOpening env nowMs peerId endpoint).2 event := by
  intro event comes id isFailure
  subst isFailure
  revert comes
  unfold resendOpening
  split
  · simp
  next outbound found =>
  split
  · intro comes
    cases comes
    exact ⟨⟨outbound, found⟩, AList.lookup_erase _ _⟩
  · dsimp only
    split <;> simp

theorem resendOpenings_ends (ids : List PeerId) {event : Option Event}
    (comes : (resendOpenings env nowMs ids endpoint).1 = .ok event) :
    Ends endpoint (resendOpenings env nowMs ids endpoint).2 event := by
  induction ids generalizing endpoint with
  | nil =>
    cases comes
    rintro id ⟨⟩
  | cons peerId rest inductionHypothesis =>
    have dwindles := resendOpening_dwindles env endpoint peerId nowMs
    have ends := resendOpening_ends env endpoint peerId nowMs
    unfold resendOpenings at comes ⊢
    split at comes
    · next between resent =>
        rw [resent] at dwindles
        intro id isFailure
        obtain ⟨⟨later, found⟩, gone⟩ := inductionHypothesis between comes id isFailure
        obtain ⟨earlier, isEarlier, _⟩ := dwindles.outbound found
        exact ⟨⟨earlier, isEarlier⟩, gone⟩
    · exact ends event comes

theorem driveTimers_ends
    (keepaliveTokens : PeerId → Bytes) (probeTokens : PeerId → List Bytes) {later : Endpoint ω}
    (drives : driveTimers env endpoint nowMs keepaliveTokens probeTokens =
        (.ok (some event), later)) :
    Ends endpoint later (some event) := by
  have dwindles := driveRetransmits_dwindles env endpoint nowMs
  unfold driveTimers at drives
  split at drives
  · cases drives
  next between resent =>
  rw [resent] at dwindles
  have ends : Ends between later (some event) := by
    split at drives
    · dsimp only at drives
      split at drives <;> cases drives
    unfold driveHandshakes at drives
    have comes := resendOpenings_ends env between nowMs _ (congrArg Prod.fst drives)
    rw [drives] at comes
    exact comes
  intro id isFailure
  obtain ⟨⟨outbound, found⟩, gone⟩ := ends id isFailure
  obtain ⟨earlier, isEarlier, _⟩ := dwindles.outbound found
  exact ⟨⟨earlier, isEarlier⟩, gone⟩

theorem dispatch_ends (datagram : Bytes) (addr : SocketAddr) (random : Bytes) (nowMs : Nat) :
    ∀ event, (dispatch env endpoint datagram addr random nowMs).1 = .ok event →
      Ends endpoint (dispatch env endpoint datagram addr random nowMs).2
        event := by
  intro event
  unfold dispatch
  split
  · exact Ends.of_ne fun id => by simp
  split
  · exact Ends.of_ne fun id => by simp
  next header _ =>
  split
  · exact Ends.of_ne (acceptHandshake_ne_connectFailed env _ header addr random nowMs)
  · exact Ends.of_ne (acceptHandshake_ne_connectFailed env _ header addr random nowMs)
  · intro comes
    cases comes
    exact completeOutbound_ends env _ addr header.sessionId nowMs
  · intro comes
    cases comes
    exact completeOutbound_ends env _ addr header.sessionId nowMs
  · exact Ends.of_ne (route_ne_connectFailed env _ addr header.sessionId random nowMs)

theorem take_ends (receipt : Receipt) (nowMs : Nat) {later : Endpoint ω}
    (takes : take env endpoint receipt nowMs = (.ok (some event), later)) :
    Ends endpoint later (some event) := by
  cases receipt with
  | timedOut => cases takes
  | staleUnreachable => cases takes
  | failed => cases takes
  | datagram bytes addr random =>
    have dispatched : dispatch env endpoint bytes addr random nowMs = (.ok (some event), later) :=
      takes
    have ends := dispatch_ends env endpoint bytes addr random nowMs
    rw [dispatched] at ends
    exact ends _ rfl

/-- A failure `poll` comes back with ends a handshake that was under way. -/
theorem Driver.step_ends {driver later : Driver ω} {moment : Moment}
    (quiet : ∀ id, .connectFailed id ∉ driver.endpoint.events)
    (steps : driver.step env moment = (some (.polled (.ok event)), later)) :
    Ends driver.endpoint later.endpoint (some event) := by
  have unqueued : ∀ {events : List Event},
        Event.Plainly driver.endpoint.events events → event ∈ events →
        Ends driver.endpoint later.endpoint (some event) := by
    rintro events plainly queued id ⟨⟩
    exact (quiet id (plainly.mem queued rfl)).elim
  unfold Driver.step at steps
  dsimp only at steps
  split at steps
  case h_6 =>
    split at steps
    · next queue =>
        cases steps
        exact unqueued (.refl _) (queue ▸ List.mem_cons_self)
    · cases steps
  case h_7 =>
    split at steps
    · split at steps
      · cases steps
      · next drives =>
          cases steps
          exact driveTimers_ends _ _ _ _ _ drives
      · cases steps
    · cases steps
  case h_8 =>
    have dwindles := feedQueues_dwindles { env with walk := moment.walk }
      driver.endpoint moment.nowMs
    split at steps
    · cases steps
    next fed feeds =>
    rw [feeds] at dwindles
    split at steps
    · next queue =>
        cases steps
        exact unqueued dwindles.events (queue ▸ List.mem_cons_self)
    · cases steps
  case h_9 =>
    split at steps
    · cases steps
    · next takes =>
        cases steps
        exact take_ends _ _ _ _ takes
    split at steps
    · cases steps
      rintro id ⟨⟩
    · cases steps
  all_goals cases steps

end

end Endpoint

end Fectp
