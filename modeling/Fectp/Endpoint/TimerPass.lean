import Fectp.Endpoint.Index
import Fectp.Endpoint.Summary

namespace Fectp

/-!
# A pass over the timers

What the time-driven work leaves of each session, when it runs to its end: what
was due is done, and nothing else has changed.  The one thing left due is a
keep-alive that nobody sends, since the wake is computed for every session and
keep-alives go only to those that have spoken.
-/

namespace Outbox

variable {ω : Type*}

/-- Whether working through a batch of due items sends anything. -/
def anyResent : List Due → List Pending → Bool
  | [], _ =>
      false
  | .gaveUp id :: rest, pending =>
      anyResent rest (pending.filter (·.id != id))
  | .retransmit id :: rest, pending =>
      (pending.find? (·.id == id)).isSome || anyResent rest pending

/-- Whether a message is due that has retries and its payload left. -/
def resends (outbox : Outbox) (nowMs : Nat) : Bool :=
  anyResent (outbox.retransmit.poll nowMs maxInFlight).1 outbox.pending

/-- A stamp that every sending sets is set if anything is sent. -/
theorem resend_stamps {emit : ω → Outgoing → Except Error Unit × ω} (stamp : ω → Nat) {nowMs : Nat}
    (stamps : ∀ {world outgoing after},
        emit world outgoing = (.ok (), after) →
        stamp after = nowMs)
    {due : List Due} {outbox afterOutbox : Outbox} {world after : ω}
    (works : resend emit due outbox world = (.ok (), afterOutbox, after)) :
    stamp after = if anyResent due outbox.pending then nowMs else stamp world := by
  induction due generalizing outbox world with
  | nil =>
    cases works
    rfl
  | cons item rest inductionHypothesis =>
    cases item with
    | gaveUp id => exact inductionHypothesis works
    | retransmit id =>
      unfold resend at works
      unfold anyResent
      split at works
      · next missing =>
          rw [missing]
          exact inductionHypothesis works
      next pending found =>
      rw [found]
      split at works
      · cases works
      next sent emits =>
      rw [inductionHypothesis works, stamps emits]
      simp

end Outbox

namespace Summary

/-- What of it is no session. -/
def rest (summary : Summary) :
    (PeerId → Option Nat) × Option Nat × Option Nat :=
  (summary.outbound, summary.keepalive, summary.peerTimeout)

/-- One session, if there is one, has been dealt with, and no other. -/
structure Adjusts
    (Effect : Option Standing → Option Standing → Prop)
    (id : PeerId)
    (before after : Summary) :
    Prop where
  effect : Effect (before.peers id) (after.peers id)
  others : ∀ other, other ≠ id → after.peers other = before.peers other
  rest : after.rest = before.rest

/-- Sessions have been dealt with one by one; nothing else changed. -/
structure Swept
    (Effect : Option Standing → Option Standing → Prop)
    (ids : List PeerId)
    (before after : Summary) :
    Prop where
  visited : ∀ id ∈ ids, Effect (before.peers id) (after.peers id)
  others : ∀ id, id ∉ ids → after.peers id = before.peers id
  rest : after.rest = before.rest

/-- The sessions and the settings are as they were. -/
def SameSessions (before after : Summary) : Prop :=
  after.peers = before.peers ∧ after.rest.2 = before.rest.2

/-- A sweep is one session dealt with and then the rest. -/
theorem Swept.cons {Effect : Option Standing → Option Standing → Prop} {id : PeerId}
    {rest : List PeerId} {before between after : Summary} (absent : id ∉ rest)
    (adjusts : Adjusts Effect id before between) (swept : Swept Effect rest between after) :
    Swept Effect (id :: rest) before after where
  visited := by
    intro other member
    by_cases isHead : other = id
    · subst isHead
      rw [swept.others other absent]
      exact adjusts.effect
    · rw [← adjusts.others other isHead]
      exact swept.visited other ((List.mem_cons.mp member).resolve_left isHead)
  others := by
    intro other isOther
    rw [List.mem_cons, not_or] at isOther
    rw [swept.others other isOther.2, adjusts.others other isOther.1]
  rest := swept.rest.trans adjusts.rest

end Summary

namespace Endpoint

variable {ω : Type*} {env : Env ω} {nowMs : Nat}

open Summary (Adjusts Swept)

variable {Effect : Standing → Standing → Prop} {before : Endpoint ω}
  {id : PeerId}

/-- A loop whose visits deal with one session each sweeps them. -/
theorem swept_of_forEach {Effect : Option Standing → Option Standing → Prop}
    {visit : PeerId → Endpoint ω → Except Error Unit × Endpoint ω}
    (visits : ∀ {id before after},
        visit id before = (.ok (), after) →
        Adjusts Effect id before.summary after.summary)
    {ids : List PeerId} (distinct : ids.Nodup) {after : Endpoint ω}
    (walked : forEach visit ids before = (.ok (), after)) :
    Swept Effect ids before.summary after.summary := by
  induction ids generalizing before with
  | nil =>
    cases walked
    exact ⟨fun _ member => (nomatch member), fun _ _ => rfl, rfl⟩
  | cons id rest inductionHypothesis =>
    obtain ⟨absent, distinct⟩ := List.nodup_cons.mp distinct
    unfold forEach at walked
    split at walked
    · cases walked
    · next between visited =>
        exact (inductionHypothesis distinct walked).cons absent (visits visited)

theorem summary_absent {endpoint : Endpoint ω} (unknown : endpoint.peers.lookup id = none) :
    endpoint.summary.peers id = none := by
  simp [summary, unknown]

theorem adjusts_absent {endpoint : Endpoint ω} (unknown : endpoint.peers.lookup id = none) :
    Adjusts (Option.Rel Effect) id endpoint.summary endpoint.summary where
  effect := by
    rw [summary_absent unknown]
    exact .none
  others := fun _ _ => rfl
  rest := rfl

/-- A new entry in a session's place. -/
theorem adjusts_put
    {after : Endpoint ω} {entry now : PeerEntry} (found : before.peers.lookup id = some entry)
    (isPeers : after.peers = before.peers.insert id now)
    (takes : Effect entry.standing now.standing) (rest : after.summary.rest = before.summary.rest) :
    Adjusts (Option.Rel Effect) id before.summary after.summary where
  effect := by
    have foundNow : after.peers.lookup id = some now := by
      rw [isPeers, AList.lookup_insert]
    rw [summary_peers found, summary_peers foundNow]
    exact .some takes
  others := by
    intro other isOther
    unfold summary
    rw [isPeers]
    dsimp only
    rw [AList.lookup_insert_ne isOther]
  rest := rest

theorem walk_nodup (walk : Walk) {ν : Type*} (table : Table PeerId ν) :
    (walk.order table.keys).Nodup :=
  (walk.perm _).nodup_iff.mpr table.keys_nodup

/-- The walk over a table reaches the keys that are in it. -/
theorem mem_walk {walk : Walk} {ν : Type*} {table : Table PeerId ν} :
    id ∈ walk.order table.keys ↔ (table.lookup id).isSome := by
  rw [(walk.perm _).mem_iff, AList.lookup_isSome, AList.mem_keys]

/-- A sweep over the whole table. -/
theorem swept_everywhere {walk : Walk} {after : Summary}
    (swept : Swept (Option.Rel Effect) (walk.order before.peers.keys) before.summary after)
    (id : PeerId) :
    Option.Rel Effect (before.summary.peers id) (after.peers id) := by
  by_cases member : id ∈ walk.order before.peers.keys
  · exact swept.visited id member
  rw [swept.others id member]
  rw [mem_walk, Option.not_isSome_iff_eq_none] at member
  rw [summary_absent member]
  exact .none

end Endpoint

/-! ### Retransmissions -/

/-- What the pass over the retransmissions leaves of a session. -/
structure Standing.Resent (nowMs : Nat) (before after : Standing) : Prop where
  retransmit : after.outbox.retransmit =
      (before.outbox.retransmit.poll nowMs maxInFlight).2
  lastHeard : after.lastHeard = before.lastHeard
  spoke : after.spoke = before.spoke
  lastSent : after.lastSent =
      if before.outbox.resends nowMs then nowMs else before.lastSent
  pmtu : after.pmtu = before.pmtu ∨
      after.pmtu = before.pmtu.map (·.suspect nowMs)

namespace Endpoint

variable {ω : Type*} {env : Env ω} {nowMs : Nat}

open Summary (Adjusts Swept)

variable {peerId : PeerId} {before after : Endpoint ω}

/-- A frame that is sealed and sent stamps the time. -/
theorem emit_sendWatched_stamps
    {addr : SocketAddr} {size : Nat} {world after : Sealing × (ω × Nat) × Bool}
    {outgoing : Outgoing}
    (emits : Sealing.emit env.suite size (sendWatched env before peerId addr nowMs) world
        outgoing = (.ok (), after)) :
    after.2.1.2 = nowMs := by
  unfold Sealing.emit at emits
  split at emits
  · cases emits
  next frame sealing _ =>
  unfold sendWatched sendStamped at emits
  dsimp only at emits
  split at emits
  · cases emits
    rfl
  · cases emits

theorem driveRetransmitsOf_adjusts
    (visits : driveRetransmitsOf env nowMs peerId before = (.ok (), after)) :
    Adjusts (Option.Rel (Standing.Resent nowMs)) peerId before.summary
      after.summary := by
  unfold driveRetransmitsOf at visits
  split at visits
  · next unknown =>
      cases visits
      exact adjusts_absent unknown
  next entry found =>
  unfold Peer.driveRetransmits at visits
  have polls :=
    Outbox.driveRetransmits_polls
      (Sealing.emit env.suite before.size (sendWatched env before peerId entry.addr nowMs))
      entry.peer.toOutbox nowMs
      (entry.peer.toSealing, (before.socket, entry.lastSent), false)
  rcases drives :
      entry.peer.toOutbox.driveRetransmits
        (Sealing.emit env.suite before.size (sendWatched env before peerId entry.addr nowMs)) nowMs
        (entry.peer.toSealing, (before.socket, entry.lastSent), false)
    with ⟨error | _, outbox, sealing, ⟨socket, stamp⟩, large⟩
  · rw [drives] at visits
    cases visits
  rw [drives] at visits polls
  cases visits
  have stamps :=
    Outbox.resend_stamps (fun world : Sealing × (ω × Nat) × Bool => world.2.1.2)
      emit_sendWatched_stamps drives
  refine adjusts_put found rfl ?_ rfl
  refine ⟨polls.1, rfl, rfl, stamps, ?_⟩
  split
  · exact Or.inr rfl
  · exact Or.inl rfl

/-! ### Opening frames -/

theorem handshakeDelay_pos
    (endpoint : Endpoint ω) (addr : SocketAddr) {attempts : Nat} (tried : 0 < attempts) :
    0 < endpoint.handshakeDelay addr attempts := by
  have ordinary : 0 < ((endpoint.paths.lookup addr).bind Path.rto).elim
        (handshakeRetryMs * attempts) (·.withBackoff (attempts - 1)) := by
    cases (endpoint.paths.lookup addr).bind Path.rto with
    | none => exact Nat.mul_pos (by decide) tried
    | some rto => exact rto.withBackoff_pos _
  unfold handshakeDelay
  dsimp only
  split
  · cases (endpoint.paths.lookup addr).bind Path.floor with
    | none => exact ordinary
    | some floor => exact Nat.lt_of_lt_of_le ordinary (Nat.le_max_left ..)
  · exact ordinary

/-- An opening frame that is resent waits for its next turn. -/
theorem resendOpening_waits (visits : resendOpening env nowMs peerId before = (.ok none, after)) :
    before.summary.SameSessions after.summary ∧ ∀ id moment,
        after.summary.outbound id = some moment →
        nowMs < moment ∨ id ≠ peerId ∧ before.summary.outbound id = some moment := by
  unfold resendOpening at visits
  split at visits
  · next unknown =>
      cases visits
      refine ⟨⟨rfl, rfl⟩, fun id moment waits => Or.inr ⟨?_, waits⟩⟩
      rintro rfl
      simp [summary, unknown] at waits
  next outbound found =>
  split at visits
  · cases visits
  dsimp only at visits
  split at visits
  · cases visits
  cases visits
  have tried : 0 < saturatingAdd 8 outbound.attempts 1 := by
    unfold saturatingAdd maxValue
    omega
  refine ⟨⟨rfl, rfl⟩, fun id moment waits => ?_⟩
  obtain ⟨opening, isOpening, rfl⟩ := Option.map_eq_some_iff.mp waits
  by_cases isPeer : id = peerId
  · subst isPeer
    rw [AList.lookup_insert, Option.some.injEq] at isOpening
    subst isOpening
    exact Or.inl (Nat.lt_add_of_pos_right (before.handshakeDelay_pos outbound.addr tried))
  · rw [AList.lookup_insert_ne isPeer] at isOpening
    refine Or.inr ⟨isPeer, ?_⟩
    simp [summary, isOpening]

/-- Opening frames worked through wait, and the sessions are as they were. -/
theorem resendOpenings_waits
    {ids : List PeerId} (walked : resendOpenings env nowMs ids before = (.ok none, after)) :
    before.summary.SameSessions after.summary ∧ ∀ id moment,
        after.summary.outbound id = some moment →
        nowMs < moment ∨ id ∉ ids ∧ before.summary.outbound id = some moment := by
  induction ids generalizing before with
  | nil =>
    cases walked
    exact ⟨⟨rfl, rfl⟩, fun id moment waits =>
      Or.inr ⟨List.not_mem_nil, waits⟩⟩
  | cons peerId rest inductionHypothesis =>
    unfold resendOpenings at walked
    split at walked
    · next between visits =>
        obtain ⟨same, waits⟩ := resendOpening_waits visits
        obtain ⟨sameThen, waitsThen⟩ := inductionHypothesis walked
        refine ⟨⟨sameThen.1.trans same.1, sameThen.2.trans same.2⟩, fun id moment isMoment => ?_⟩
        rcases waitsThen id moment isMoment with
          isLater | ⟨notRest, waited⟩
        · exact Or.inl isLater
        · refine (waits id moment waited).imp_right ?_
          rintro ⟨isOther, waited⟩
          exact ⟨by simp [isOther, notRest], waited⟩
    · next failed => exact absurd walked (failed after)

/-- After the opening frames due are resent, none is due. -/
theorem driveHandshakes_waits (drives : driveHandshakes env before nowMs = (.ok none, after)) :
    before.summary.SameSessions after.summary ∧
      ∀ id moment, after.summary.outbound id = some moment → nowMs < moment := by
  obtain ⟨same, waits⟩ := resendOpenings_waits drives
  refine ⟨same, fun id moment isMoment => ?_⟩
  rcases waits id moment isMoment with isLater | ⟨notDue, waited⟩
  · exact isLater
  obtain ⟨opening, found, rfl⟩ := Option.map_eq_some_iff.mp waited
  have member : id ∈ env.walk.order before.outbound.keys := by
    rw [mem_walk, found]
    rfl
  refine Nat.lt_of_not_le fun due => notDue ?_
  refine List.mem_filter.mpr ⟨member, ?_⟩
  rw [found, Option.any_some]
  exact decide_eq_true due

/-! ### Silence -/

/-- Whether nothing has been heard for as long as the timeout allows. -/
def silent (peerTimeout : Option Nat) (nowMs lastHeard : Nat) : Bool :=
  peerTimeout.any (nowMs - lastHeard ≥ ·)

theorem lose_adjusts (endpoint : Endpoint ω) (peerId : PeerId) :
    Adjusts (fun _ now => now = none) peerId endpoint.summary (endpoint.lose peerId).summary := by
  unfold lose
  split
  · next unknown => exact ⟨summary_absent unknown, fun _ _ => rfl, rfl⟩
  next entry found =>
  obtain ⟨bySession, removes⟩ := endpoint.removePeer_eq peerId entry
  rw [removes]
  refine ⟨summary_absent (AList.lookup_erase ..), fun id isOther => ?_, rfl⟩
  unfold summary
  dsimp only
  rw [AList.lookup_erase_ne isOther]

/-- The silent are gone, and everyone else is as they were. -/
theorem driveLiveness_released (env : Env ω) (nowMs : Nat) (before : Endpoint ω) :
    ∃ ids, Swept (fun _ now => now = none) ids before.summary
          (driveLiveness env before nowMs).summary ∧
        ∀ id standing, before.summary.peers id = some standing →
          (id ∈ ids ↔ silent before.peerTimeout nowMs standing.lastHeard = true) := by
  unfold driveLiveness
  split
  · next isNone =>
      refine ⟨[], ⟨fun _ member => (nomatch member), fun _ _ => rfl, rfl⟩, fun id standing _ => ?_⟩
      simp [silent, isNone]
  next limit isLimit =>
  refine ⟨_, swept_of_forEach (fun {id before after} visits => ?_)
    ((walk_nodup env.walk before.peers).filter _)
    (forEach_pure lose _ before), fun id standing isHeld => ?_⟩
  · cases visits
    exact before.lose_adjusts id
  obtain ⟨entry, found, rfl⟩ := Option.map_eq_some_iff.mp isHeld
  rw [List.mem_filter, mem_walk, isLimit, found]
  simp [silent, PeerEntry.standing]

/-! ### Keep-alives -/

theorem keepAliveOf_adjusts {tokens : PeerId → Bytes}
    (visits : keepAliveOf env nowMs tokens peerId before = (.ok (), after)) :
    Adjusts (Option.Rel fun standing now =>
        now = { standing with lastSent := nowMs })
      peerId before.summary after.summary := by
  unfold keepAliveOf at visits
  split at visits
  · next unknown =>
      cases visits
      exact adjusts_absent unknown
  next entry found =>
  dsimp only at visits
  split at visits
  · cases visits
  unfold sendToPeer at visits
  dsimp only at visits
  split at visits
  · cases visits
  · cases visits
    exact adjusts_put found (Table.update_insert ..) rfl rfl

/-- The spoken that were due are stamped, and nobody else. -/
theorem driveKeepalives_summary
    {tokens : PeerId → Bytes} (drives : driveKeepalives env before nowMs tokens = (.ok (), after)) :
    after.summary.rest = before.summary.rest ∧ ∀ id, Option.Rel (fun standing now =>
            now = standing ∧ (standing.spoke = true →
                  ∀ every ∈ before.keepalive, nowMs - standing.lastSent < every) ∨
              standing.spoke = true ∧ now = { standing with lastSent := nowMs })
          (before.summary.peers id) (after.summary.peers id) := by
  unfold driveKeepalives at drives
  split at drives
  · next isNone =>
      cases drives
      refine ⟨rfl, fun id => ?_⟩
      cases before.summary.peers id with
      | none => exact .none
      | some standing =>
        refine .some (Or.inl ⟨rfl, fun _ every isEvery => ?_⟩)
        rw [isNone] at isEvery
        cases isEvery
  next every isEvery =>
  have swept :=
    swept_of_forEach keepAliveOf_adjusts ((walk_nodup env.walk before.peers).filter _) drives
  refine ⟨swept.rest, fun id => ?_⟩
  cases found : before.peers.lookup id with
  | none =>
    rw [swept.others id (by simp [found]), summary_absent found]
    exact .none
  | some entry =>
    by_cases isDue :
        (entry.spoke && nowMs - entry.lastSent ≥ every) = true
    · have member := swept.visited id
        (List.mem_filter.mpr ⟨mem_walk.mpr (by rw [found]; rfl), by
          rw [found]; exact isDue⟩)
      rw [summary_peers found] at member ⊢
      generalize after.summary.peers id = now at member ⊢
      cases member with
      | some stamped => exact .some (Or.inr ⟨(Bool.and_eq_true_iff.mp isDue).1, stamped⟩)
    · have notVisited : id ∉ (env.walk.order before.peers.keys).filter fun id =>
            (before.peers.lookup id).any fun entry =>
              entry.spoke && nowMs - entry.lastSent ≥ every := by
        rw [List.mem_filter, found]
        exact fun visited => isDue visited.2
      rw [swept.others id notVisited, summary_peers found]
      refine .some (Or.inl ⟨rfl, fun spoke other isOther => ?_⟩)
      rw [isEvery] at isOther
      cases isOther
      have isSpoke : entry.spoke = true := spoke
      rw [isSpoke, Bool.true_and, decide_eq_true_eq] at isDue
      exact Nat.lt_of_not_le isDue

/-! ### Probes of the path -/

/-- What probing the path leaves of a session. -/
structure Probed (nowMs : Nat) (before after : Standing) : Prop where
  outbox : after.outbox = before.outbox
  lastHeard : after.lastHeard = before.lastHeard
  spoke : after.spoke = before.spoke
  unspoken : before.spoke = false → after = before
  lastSent : after.lastSent = before.lastSent ∨ after.lastSent = nowMs
  pmtu : before.spoke = true →
      ∀ pmtu ∈ before.pmtu,
        ∃ tokens,
          after.pmtu =
            some (pmtu.due nowMs before.outbox.retransmit.rtoMs tokens).2
  unsearched : before.pmtu = none → after.pmtu = none

/-- Whether it goes or not, a probe changes the stamp at most. -/
theorem Probed.sendProbe {peerId : PeerId} {size : Nat} {standing : Standing}
    (spoke : standing.spoke = true) {state : PeerEntry × ω}
    (probed : Probed nowMs standing state.1.standing) (probe : ProbeSend) :
    Probed nowMs standing (sendProbe env peerId nowMs size state probe).1.standing := by
  obtain ⟨entry, socket⟩ := state
  have unspoken (later : Standing) (silent : standing.spoke = false) : later = standing := by
    rw [spoke] at silent
    cases silent
  unfold Endpoint.sendProbe
  dsimp only
  split
  · exact { probed with unspoken := unspoken _ }
  · split
    · exact { probed with unspoken := unspoken _, lastSent := Or.inr rfl }
    · exact { probed with unspoken := unspoken _ }

theorem drivePmtuOf_adjusts (tokens : PeerId → List Bytes) (peerId : PeerId) (before : Endpoint ω) :
    Adjusts (Option.Rel (Probed nowMs)) peerId before.summary
      (drivePmtuOf env nowMs tokens before peerId).summary := by
  have untouched : ∀ {entry : PeerEntry},
        before.peers.lookup peerId = some entry →
        (entry.spoke = true → entry.pmtu = none) →
        Adjusts (Option.Rel (Probed nowMs)) peerId before.summary
          before.summary := by
    intro entry found idle
    refine ⟨?_, fun _ _ => rfl, rfl⟩
    rw [summary_peers found]
    refine .some ⟨rfl, rfl, rfl, fun _ => rfl, Or.inl rfl, ?_, id⟩
    intro spoke pmtu isPmtu
    have isNone : entry.standing.pmtu = none := idle spoke
    rw [isNone] at isPmtu
    cases isPmtu
  unfold drivePmtuOf
  split
  · next unknown => exact adjusts_absent unknown
  next entry found =>
  split
  · next isNone => exact untouched found fun _ => isNone
  next pmtu isPmtu =>
  split
  · next isSpoke =>
      refine adjusts_put found rfl ?_ rfl
      have isStanding : entry.standing.pmtu = some pmtu := isPmtu
      refine List.foldlRecOn (motive := fun state : PeerEntry × ω =>
          Probed nowMs entry.standing state.1.standing) _ _ ?_
        fun state probed probe _ => probed.sendProbe isSpoke probe
      refine ⟨rfl, rfl, rfl, fun silent => ?_, Or.inl rfl, ?_, ?_⟩
      · exact absurd (isSpoke.symm.trans silent) nofun
      · rw [isStanding]
        rintro _ _ ⟨⟩
        exact ⟨tokens peerId, rfl⟩
      · rw [isStanding]
        exact nofun
  · next notSpoke => exact untouched found fun isSpoke => absurd isSpoke notSpoke

/-- The paths of the spoken are searched, and nobody else is touched. -/
theorem drivePmtu_swept
    (env : Env ω) (nowMs : Nat) (tokens : PeerId → List Bytes) (before : Endpoint ω) :
    Swept (Option.Rel (Probed nowMs)) (env.walk.order before.peers.keys)
      before.summary (drivePmtu env before nowMs tokens).summary := by
  refine swept_of_forEach (fun {id before after} visits => ?_) (walk_nodup env.walk before.peers)
    (forEach_pure (drivePmtuOf env nowMs tokens) _ before)
  cases visits
  exact drivePmtuOf_adjusts tokens id before

/-! ### The whole pass -/

/-- What a whole pass leaves of a session it does not release. -/
structure Serviced
    (keepalive : Option Nat)
    (nowMs : Nat)
    (before after : Standing) :
    Prop where
  retransmit : after.outbox.retransmit =
      (before.outbox.retransmit.poll nowMs maxInFlight).2
  lastHeard : after.lastHeard = before.lastHeard
  unspoken : before.spoke = false →
      after.lastSent =
        if before.outbox.resends nowMs then nowMs else before.lastSent
  spoken : before.spoke = true →
      ∀ every ∈ keepalive, 0 < every → nowMs < after.lastSent + every
  pmtu : (∀ pmtu ∈ before.pmtu, pmtu.Single) →
      ∀ next ∈ after.pmtuDeadline, nowMs < next

theorem serviced {keepalive : Option Nat} {before resent keptAlive after : Standing}
    (resends : before.Resent nowMs resent)
    (keepsAlive : keptAlive = resent ∧
          (resent.spoke = true → ∀ every ∈ keepalive, nowMs - resent.lastSent < every) ∨
        resent.spoke = true ∧ keptAlive = { resent with lastSent := nowMs })
    (probes : Probed nowMs keptAlive after) :
    Serviced keepalive nowMs before after := by
  have same : keptAlive.outbox = resent.outbox ∧ keptAlive.lastHeard = resent.lastHeard ∧
        keptAlive.spoke = resent.spoke ∧
        keptAlive.pmtu = resent.pmtu := by
    rcases keepsAlive with ⟨rfl, _⟩ | ⟨_, rfl⟩
    · exact ⟨rfl, rfl, rfl, rfl⟩
    · exact ⟨rfl, rfl, rfl, rfl⟩
  obtain ⟨sameOutbox, sameHeard, sameSpoke, samePmtu⟩ := same
  refine ⟨?_, ?_, ?_, ?_, ?_⟩
  · rw [probes.outbox, sameOutbox, resends.retransmit]
  · rw [probes.lastHeard, sameHeard, resends.lastHeard]
  · intro unspoken
    rw [← resends.spoke] at unspoken
    rw [probes.unspoken (sameSpoke.trans unspoken), ← resends.lastSent]
    rcases keepsAlive with ⟨rfl, _⟩ | ⟨spoken, _⟩
    · rfl
    · rw [unspoken] at spoken
      cases spoken
  · intro spoken every isEvery positive
    rw [← resends.spoke] at spoken
    rcases probes.lastSent with isKept | isNow
    · rw [isKept]
      rcases keepsAlive with ⟨rfl, recent⟩ | ⟨_, rfl⟩
      · have := recent spoken every isEvery
        omega
      · exact Nat.lt_add_of_pos_right positive
    · rw [isNow]
      exact Nat.lt_add_of_pos_right positive
  · intro single next isNext
    have spoken : keptAlive.spoke = true := by
      rw [← probes.spoke]
      by_contra unspoken
      rw [Standing.pmtuDeadline, if_neg unspoken] at isNext
      cases isNext
    have singleThen : ∀ pmtu ∈ keptAlive.pmtu, pmtu.Single := by
      rw [samePmtu]
      rcases resends.pmtu with isSame | isSuspect
      · rw [isSame]
        exact single
      rw [isSuspect]
      intro pmtu isPmtu
      obtain ⟨held, isHeld, rfl⟩ := Option.map_eq_some_iff.mp isPmtu
      exact Pmtu.suspect_single (single held isHeld) nowMs
    rw [Standing.pmtuDeadline, if_pos (probes.spoke.trans spoken)] at isNext
    cases isPmtu : keptAlive.pmtu with
    | none =>
      rw [probes.unsearched isPmtu] at isNext
      cases isNext
    | some pmtu =>
      obtain ⟨tokens, isAfter⟩ := probes.pmtu spoken pmtu isPmtu
      rw [isAfter, Option.bind_some, probes.outbox] at isNext
      exact (Pmtu.due_clears (singleThen pmtu isPmtu) nowMs _ tokens).2 next isNext

theorem rel_eq_none {α β : Type*} {Related : α → β → Prop} {second : Option β}
    (related : Option.Rel Related none second) :
    second = none := by
  cases related
  rfl

theorem rel_eq_some {α β : Type*} {Related : α → β → Prop} {first : α} {second : Option β}
    (related : Option.Rel Related (some first) second) :
    ∃ value, second = some value ∧ Related first value := by
  cases related with
  | some holds => exact ⟨_, rfl, holds⟩

/-- One session's way through the pass, drive by drive. -/
theorem rel_serviced {before resent opened living kept after : Option Standing} {Lost : Prop}
    {peerTimeout timeout keepalive : Option Nat} (sameTimeout : timeout = peerTimeout)
    (resends : Option.Rel (Standing.Resent nowMs) before resent)
    (same : opened = resent) (released : Lost → living = none)
    (unreleased : ¬ Lost → living = opened)
    (isLost : ∀ standing, opened = some standing →
        (Lost ↔ silent timeout nowMs standing.lastHeard = true))
    (keepsAlive : Option.Rel (fun standing now =>
          now = standing ∧
              (standing.spoke = true → ∀ every ∈ keepalive, nowMs - standing.lastSent < every) ∨
            standing.spoke = true ∧ now = { standing with lastSent := nowMs })
        living kept)
    (probes : Option.Rel (Probed nowMs) kept after) :
    Option.Rel (Serviced keepalive nowMs) (before.filter fun standing =>
        !silent peerTimeout nowMs standing.lastHeard)
      after := by
  subst same sameTimeout
  have gone (isNone : living = none) : after = none := by
    rw [isNone] at keepsAlive
    rw [rel_eq_none keepsAlive] at probes
    exact rel_eq_none probes
  by_cases lost : Lost
  · rw [gone (released lost)]
    cases resends with
    | none => exact .none
    | @some standing now holds =>
      have isSilent := (isLost now rfl).mp lost
      rw [holds.lastHeard] at isSilent
      rw [Option.filter_some, isSilent]
      exact .none
  · rw [unreleased lost] at keepsAlive gone
    cases resends with
    | none =>
      rw [gone rfl]
      exact .none
    | @some standing now holds =>
      have notSilent := mt (isLost now rfl).mpr lost
      rw [holds.lastHeard, Bool.not_eq_true] at notSilent
      obtain ⟨alive, rfl, keeps⟩ := rel_eq_some keepsAlive
      obtain ⟨last, rfl, probed⟩ := rel_eq_some probes
      rw [Option.filter_some, notSilent]
      exact .some (serviced holds keeps probed)

/-- What a pass that runs to its end leaves. -/
structure PassedTimers (nowMs : Nat) (before after : Summary) : Prop where
  keepalive : after.keepalive = before.keepalive
  peerTimeout : after.peerTimeout = before.peerTimeout
  outbound : ∀ id moment, after.outbound id = some moment → nowMs < moment
  peers : ∀ id,
      Option.Rel (Serviced before.keepalive nowMs)
        ((before.peers id).filter fun standing =>
          !silent before.peerTimeout nowMs standing.lastHeard)
        (after.peers id)

theorem driveTimers_passed {keepaliveTokens : PeerId → Bytes} {probeTokens : PeerId → List Bytes}
    (passes : driveTimers env before nowMs keepaliveTokens probeTokens = (.ok none, after)) :
    PassedTimers nowMs before.summary after.summary := by
  unfold driveTimers at passes
  split at passes
  · cases passes
  next resent drives =>
  have resends :=
    swept_of_forEach driveRetransmitsOf_adjusts (walk_nodup env.walk before.peers) drives
  split at passes
  · next opened opens =>
      obtain ⟨same, waits⟩ := driveHandshakes_waits opens
      obtain ⟨lost, released, isLost⟩ := driveLiveness_released env nowMs opened
      dsimp only at passes
      split at passes
      · cases passes
      next kept keeps =>
      cases passes
      obtain ⟨keptRest, keepsAlive⟩ := driveKeepalives_summary keeps
      have probes := drivePmtu_swept env nowMs probeTokens kept
      have rest := probes.rest.trans (keptRest.trans released.rest)
      have settings : opened.summary.rest.2 = before.summary.rest.2 :=
        same.2.trans (congrArg (·.2) resends.rest)
      have interval : (driveLiveness env opened nowMs).keepalive = before.keepalive :=
        (congrArg (·.2.1) released.rest).trans (congrArg (·.1) settings)
      refine ⟨?_, ?_, ?_, fun id => ?_⟩
      · exact (congrArg (·.2.1) rest).trans (congrArg (·.1) settings)
      · exact (congrArg (·.2.2) rest).trans (congrArg (·.2) settings)
      · intro id moment isMoment
        refine waits id moment ?_
        rw [← isMoment]
        exact congrFun (congrArg (·.1) rest).symm id
      · rw [interval] at keepsAlive
        exact rel_serviced (congrArg (·.2) settings)
          (swept_everywhere resends id) (congrFun same.1 id)
          (released.visited id) (released.others id) (isLost id)
          (keepsAlive id) (swept_everywhere probes id)
  · next failed => exact absurd passes (failed after)

end Endpoint

end Fectp
