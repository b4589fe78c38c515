import Fectp.PayloadRoom
import Fectp.Endpoint.Probing
import Fectp.Endpoint.Reflection

namespace Fectp

/-!
# How often an address is challenged

A session that is heard from elsewhere asks that address to prove itself, a few
times in all and no more until the attempt is over.  The count is kept in the
one attempt a session holds, which an attempt at another address replaces.
-/

namespace Session

variable {aead : Aead} {session after : Session} {token : Bytes}
  {outLen : Nat}

/-- No challenge with this token can be sealed on the session any more. -/
def Unsealable (session : Session) (token : Bytes) (outLen : Nat) : Prop :=
  session.sendSeq = maxValue 64 ∨
    session.send.key = none ∨
    outLen < token.length + dataOverhead

theorem Unsealable.advance
    (unsealable : session.Unsealable token outLen) (advance : Advance aead session after) :
    after.Unsealable token outLen := by
  cases advance with
  | seals parts padding =>
    rcases unsealable with exhausted | unkeyed | noRoom
    · rw [sealFramePadded_exhausted exhausted]
      exact Or.inl exhausted
    · obtain ⟨error, seals⟩ :=
        sealFramePadded_unkeyed unkeyed aead parts padding _
      rw [seals]
      exact Or.inr (Or.inl unkeyed)
    · exact Or.inr (Or.inr noRoom)
  | tries frame =>
    obtain ⟨isSend, isSeq, _⟩ := session.openFrame_sending aead frame
    unfold Unsealable
    rw [isSend, isSeq]
    exact unsealable

theorem Unsealable.later
    (unsealable : session.Unsealable token outLen) (isLater : Later aead session after) :
    after.Unsealable token outLen := by
  induction isLater with
  | refl => exact unsealable
  | tail _ advance inductionHypothesis => exact inductionHypothesis.advance advance

theorem sealPathChallenge_fails_iff
    (aead : Aead) (session : Session) (token : Bytes) (outLen : Nat) :
    (session.sealPathChallenge aead token outLen).1.isOk = false ↔
      session.Unsealable token outLen := by
  unfold sealPathChallenge
  by_cases exhausted : session.sendSeq = maxValue 64
  · rw [sealFramePadded_exhausted exhausted]
    exact iff_of_true rfl (Or.inl exhausted)
  cases isKey : session.send.key with
  | none =>
    obtain ⟨error, seals⟩ :=
      sealFramePadded_unkeyed isKey aead ⟨.pathChallenge, token, none, none, 0⟩ .none outLen
    rw [seals]
    exact iff_of_true rfl (Or.inr (Or.inl isKey))
  | some key =>
    obtain ⟨_, _, frame, _, isLength, seals⟩ :=
      @sealFramePadded_keyed aead session ⟨.pathChallenge, token, none, none, 0⟩
        (Option.isSome_of_eq_some isKey) exhausted .none token.length
        (fun padded => Bool.noConfusion padded.1)
        (by simp [Padding.plaintextLen, FrameParts.innerLen]) outLen
    unfold Unsealable
    rw [seals, isLength, isKey]
    split
    · next noRoom => exact iff_of_true rfl (Or.inr (Or.inr noRoom))
    next room =>
    refine iff_of_false Bool.noConfusion ?_
    rintro (isLast | impossible | noRoom)
    · exact exhausted isLast
    · cases impossible
    · exact room noRoom

end Session

namespace Endpoint

variable {ω : Type*}

/-- How often an address was challenged in the time an attempt is given. -/
def View.challengesWithin (view : View) (addr : SocketAddr) (since : Nat) :
    Nat :=
  view.challenges.countP fun item =>
    item.1.addr == addr &&
      decide (since ≤ item.1.sentMs) &&
      decide (item.1.sentMs ≤ since + probeTimeout)

/-- The frame opened, and is not an answer to a challenge. -/
def provokes : Except Error Ingested → Bool
  | .error _ | .ok .rejected | .ok (.pathValidated _) =>
      false
  | .ok _ =>
      true

/--
A frame that opens comes from an address which was challenged lately, on a
session that holds no attempt at that address any more.
-/
def Driver.restarts
    (env : Env ω)
    (driver : Driver (ω × Journal))
    (moment : Moment)
    (peerId : PeerId) :
    Bool :=
  match moment.action with
  | .receive (.datagram _ addr _) =>
      (driver.offers env.recorded moment).any fun offer =>
        offer.peerId == peerId &&
          (offer.asked.peers.lookup peerId).any fun entry =>
            provokes
                (entry.peer.ingest env.suite offer.asked.rx moment.nowMs
                  offer.asked.size).1 &&
              entry.probe.all (·.addr != addr) &&
              (offer.asked.view peerId).challenges.any fun item =>
                item.1.addr == addr &&
                  decide (moment.nowMs ≤ item.1.sentMs + probeTimeout)
  | _ =>
      false

namespace View

/-- What an attempt on file has cost so far. -/
structure Counts
    (view : View)
    (clock : Nat)
    (session : Session)
    (probe : AddressProbe) :
    Prop where
  started : probe.started ≤ clock
  ends : ∀ item ∈ view.challenges,
      item.1.addr = probe.addr →
      item.1.sentMs ≤ probe.started + probeTimeout
  count : view.challengesWithin probe.addr probe.started = probe.sent
  bounded : probe.sent ≤ pathProbes
  unsent : probe.sent = 0 → session.Unsealable probe.token view.size
  first : probe.sent = 1 → probe.last = probe.started

/-- The attempt a session holds accounts for the challenges sent in its time. -/
structure Attempts (clock : Nat) (view : View) : Prop where
  past : ∀ item ∈ view.challenges, item.1.sentMs ≤ clock
  held : ∀ {entry probe},
      view.entry = some entry →
      entry.probe = some probe →
      view.Counts clock entry.peer.session probe

theorem Attempts.wait
    {view : View} {clock later : Nat} (attempts : view.Attempts clock) (isLater : clock ≤ later) :
    view.Attempts later where
  past item member := (attempts.past item member).trans isLater
  held isEntry isProbe :=
    let counts := attempts.held isEntry isProbe
    { counts with started := counts.started.trans isLater }

/-- An attempt begins afresh only where none was made lately. -/
def Spaced (moment : Moment) (Offered : View → Ingested → Prop) :
    Prop :=
  ∀ {view : View} {ingested : Ingested} {held : PeerEntry}
      {bytes random : Bytes} {addr : SocketAddr},
    moment.action = .receive (.datagram bytes addr random) →
    Offered view ingested →
    (∀ token, ingested ≠ .pathValidated token) →
    view.entry = some held →
    (∃ probe, held.probe = some probe ∧ probe.addr = addr) ∨
      ∀ item ∈ view.challenges,
        item.1.addr = addr →
        item.1.sentMs + probeTimeout < moment.nowMs

section Steps

variable {aead : Aead} {moment : Moment} {start before after : View}
  {Offered : View → Ingested → Prop} {peerId : PeerId}

variable {held : PeerEntry} {addr : SocketAddr} {probe : AddressProbe}
  {since : Nat}

/-- An attempt begun afresh has nothing to answer for. -/
theorem Attempts.fresh (attempts : before.Attempts moment.nowMs) (isHeld : before.entry = some held)
    (expired : ∀ old, held.probe = some old → old.addr = addr →
        probeTimeout < moment.nowMs - old.started)
    (spaced : (∃ probe, held.probe = some probe ∧ probe.addr = addr) ∨ ∀ item ∈ before.challenges,
          item.1.addr = addr →
          item.1.sentMs + probeTimeout < moment.nowMs) :
    ∀ item ∈ before.challenges, item.1.addr = addr → item.1.sentMs < moment.nowMs := by
  intro item member isAddr
  rcases spaced with ⟨probe, isProbe, sameAddr⟩ | rested
  · have ended :=
      (attempts.held isHeld isProbe).ends item member (isAddr.trans sameAddr.symm)
    have isOver := expired probe isProbe sameAddr
    omega
  · exact Nat.lt_of_le_of_lt (Nat.le_add_right _ _) (rested item member isAddr)

/-- An attempt that is about to send its next challenge. -/
structure Poised
    (view : View)
    (nowMs : Nat)
    (session : Session)
    (probe : AddressProbe) :
    Prop where
  started : probe.started ≤ nowMs
  inTime : nowMs ≤ probe.started + probeTimeout
  ends : ∀ item ∈ view.challenges,
      item.1.addr = probe.addr →
      item.1.sentMs ≤ probe.started + probeTimeout
  count : view.challengesWithin probe.addr probe.started = probe.sent
  bounded : probe.sent < pathProbes
  unsent : probe.sent = 0 →
    probe.started = nowMs ∨ session.Unsealable probe.token view.size
  first : probe.sent = 1 → probe.last = probe.started

theorem Attempts.poised
    (attempts : before.Attempts moment.nowMs) {random : Bytes} (isHeld : before.entry = some held)
    (isNext : NextProbe held.probe addr random moment.nowMs probe)
    (spaced : (∃ probe, held.probe = some probe ∧ probe.addr = addr) ∨ ∀ item ∈ before.challenges,
          item.1.addr = addr →
          item.1.sentMs + probeTimeout < moment.nowMs) :
    before.Poised moment.nowMs held.peer.session probe := by
  rcases isNext with ⟨rfl, expired⟩ | ⟨isProbe, _, inTime, left⟩
  · have isFresh := attempts.fresh isHeld expired spaced
    refine ⟨Nat.le_refl _, Nat.le_add_right _ _, ?_, ?_, Nat.succ_pos _,
      fun _ => Or.inl rfl, fun _ => rfl⟩
    · intro item member _
      exact (attempts.past item member).trans (Nat.le_add_right _ _)
    · refine List.countP_eq_zero.mpr fun item member => ?_
      have earlier := isFresh item member
      simp only [Bool.and_eq_true, beq_iff_eq, decide_eq_true_eq]
      rintro ⟨⟨isAddr, notEarlier⟩, _⟩
      exact Nat.not_lt.mpr notEarlier (earlier isAddr)
  · have counts := attempts.held isHeld isProbe
    refine ⟨counts.started, Nat.sub_le_iff_le_add'.mp inTime, counts.ends,
      counts.count, left, fun unsent => Or.inr (counts.unsent unsent),
      counts.first⟩

/-- A challenge counts for the address it goes to, in its time. -/
theorem challengesWithin_concat
    {frame : Bytes} {filed : Option SocketAddr} {nowMs : Nat} {taken : Bool}
    (gains : after.challenges = before.challenges ++ [(⟨frame, addr, peerId, filed, nowMs⟩, taken)])
    (asked : SocketAddr) (since : Nat) :
    after.challengesWithin asked since = before.challengesWithin asked since +
        if addr = asked ∧ since ≤ nowMs ∧ nowMs ≤ since + probeTimeout then
          1
        else
          0 := by
  unfold challengesWithin
  rw [gains, List.countP_append, List.countP_singleton]
  simp only [Bool.and_eq_true, beq_iff_eq, decide_eq_true_eq, and_assoc]

theorem challengesWithin_congr
    (same : after.challenges = before.challenges) (asked : SocketAddr) (since : Nat) :
    after.challengesWithin asked since = before.challengesWithin asked since := by
  unfold challengesWithin
  rw [same]

theorem Counts.continues
    {now : PeerEntry} {clock : Nat} (counts : before.Counts clock held.peer.session probe)
    (continues : held.Continues aead now) (same : after.challenges = before.challenges)
    (size : after.size = before.size) :
    after.Counts clock now.peer.session probe where
  started := counts.started
  ends := by
    rw [same]
    exact counts.ends
  count := (challengesWithin_congr same _ _).trans counts.count
  bounded := counts.bounded
  unsent unsent := by
    rw [size]
    exact (counts.unsent unsent).later continues.later
  first := counts.first

/-- A challenge that cannot be sealed is not sent, now or later. -/
theorem Poised.unsealed {session : Session} (poised : before.Poised moment.nowMs session probe)
    {later : Session} (unsealable : later.Unsealable probe.token before.size)
    (same : after.challenges = before.challenges) (size : after.size = before.size) :
    after.Counts moment.nowMs later probe where
  started := poised.started
  ends := by
    rw [same]
    exact poised.ends
  count := (challengesWithin_congr same _ _).trans poised.count
  bounded := Nat.le_of_lt poised.bounded
  unsent _ := by
    rw [size]
    exact unsealable
  first := poised.first

/-- A challenge that is sealed is one more. -/
theorem Poised.sealed {session later : Session} (poised : before.Poised moment.nowMs session probe)
    (sealable : ¬ session.Unsealable probe.token before.size) {frame : Bytes}
    {filed : Option SocketAddr} {taken : Bool}
    (gains : after.challenges =
        before.challenges ++ [(⟨frame, probe.addr, peerId, filed, moment.nowMs⟩, taken)]) :
    after.Counts moment.nowMs later
      { probe with sent := probe.sent + 1, last := moment.nowMs } where
  started := poised.started
  ends item member isAddr := by
    rw [gains] at member
    rcases List.mem_append.mp member with old | isNew
    · exact poised.ends item old isAddr
    · rw [List.mem_singleton.mp isNew]
      exact poised.inTime
  count := by
    rw [challengesWithin_concat gains, if_pos ⟨rfl, poised.started, poised.inTime⟩]
    exact congrArg (· + 1) poised.count
  bounded := poised.bounded
  unsent impossible := absurd impossible (Nat.succ_ne_zero _)
  first isFirst := by
    rcases poised.unsent (Nat.succ.inj isFirst) with isNow | unsealable
    · exact isNow.symm
    · exact absurd unsealable sealable

theorem Attempts.probing
    (spaced : Spaced moment Offered) (probing : Probing aead moment Offered peerId before after)
    (attempts : before.Attempts moment.nowMs) :
    after.Attempts moment.nowMs := by
  cases probing with
  | stays same size entries =>
    refine ⟨by rw [same]; exact attempts.past, ?_⟩
    intro entry probe isEntry isProbe
    rcases entries isEntry with ⟨held, isHeld, continues⟩ | ⟨_, untested⟩
    · rw [continues.probe] at isProbe
      exact (attempts.held isHeld isProbe).continues continues same size
    · rw [untested] at isProbe
      cases isProbe
  | @tests held now _ _ _ addr next session outcome taken isAction isHeld _
      offered asked isNext later seals size isNow _ probeNow gains =>
      have poised := attempts.poised isHeld isNext (spaced isAction offered asked isHeld)
      have sealable := Session.sealPathChallenge_fails_iff aead session next.token before.size
      rw [seals] at sealable
      refine ⟨?_, ?_⟩
      · intro item member
        rw [gains] at member
        rcases List.mem_append.mp member with old | isNew
        · exact attempts.past item old
        · obtain ⟨frame, _, rfl⟩ := List.mem_map.mp isNew
          exact Nat.le_refl _
      · intro entry probe isEntry isProbe
        rw [isNow] at isEntry
        cases isEntry
        rw [probeNow] at isProbe
        cases isProbe
        cases outcome with
        | error error =>
          have advance := Session.sealPathChallenge_advance seals
          exact poised.unsealed ((sealable.mp rfl).advance advance)
            (gains.trans (List.append_nil _)) size
        | ok frame =>
          rw [← isNext.addr] at gains
          refine poised.sealed (fun unsealable => ?_) gains
          cases sealable.mpr (unsealable.later later)
  | moves _ _ _ _ _ _ _ _ isNow _ untested same =>
    refine ⟨by rw [same]; exact attempts.past, ?_⟩
    intro entry probe isEntry isProbe
    rw [isNow] at isEntry
    cases isEntry
    rw [untested] at isProbe
    cases isProbe

/-- The time that began with an attempt at an address. -/
structure Window
    (addr : SocketAddr)
    (since clock : Nat)
    (view : View) :
    Prop extends Attempts clock view where
  bounded : view.challengesWithin addr since ≤ pathProbes
  begun : ∃ item ∈ view.challenges, item.1.addr = addr ∧ since ≤ item.1.sentMs
  attempt : ∀ {entry probe},
      view.entry = some entry →
      entry.probe = some probe →
      probe.addr = addr →
      probe.started = since ∨ since + probeTimeout < probe.started

theorem Window.wait
    {clock later : Nat} (window : before.Window addr since clock) (isLater : clock ≤ later) :
    before.Window addr since later :=
  { window with toAttempts := window.toAttempts.wait isLater }

/-- A challenge within the time belongs to the attempt that began it. -/
theorem Window.next (window : before.Window addr since moment.nowMs) {random : Bytes}
    {next : AddressProbe} (isHeld : before.entry = some held)
    (isNext : NextProbe held.probe addr random moment.nowMs next)
    (spaced : (∃ probe, held.probe = some probe ∧ probe.addr = addr) ∨ ∀ item ∈ before.challenges,
          item.1.addr = addr →
          item.1.sentMs + probeTimeout < moment.nowMs) :
    next.started = since ∨ since + probeTimeout < next.started := by
  rcases isNext with ⟨rfl, expired⟩ | ⟨isProbe, isAddr, _⟩
  · right
    show since + probeTimeout < moment.nowMs
    rcases spaced with ⟨probe, isProbe, isAddr⟩ | rested
    · have isOver := expired probe isProbe isAddr
      rcases window.attempt isHeld isProbe isAddr with isSince | isLater
      · omega
      · omega
    · obtain ⟨item, member, isAddr, notEarlier⟩ := window.begun
      have isOver := rested item member isAddr
      omega
  · exact window.attempt isHeld isProbe isAddr

theorem Window.probing
    (spaced : Spaced moment Offered) (probing : Probing aead moment Offered peerId before after)
    (window : before.Window addr since moment.nowMs) :
    after.Window addr since moment.nowMs := by
  have attempts := window.toAttempts.probing spaced probing
  cases probing with
  | stays same size entries =>
    refine ⟨attempts, ?_, ?_, ?_⟩
    · rw [challengesWithin_congr same]
      exact window.bounded
    · rw [same]
      exact window.begun
    · intro entry probe isEntry isProbe isAddr
      rcases entries isEntry with ⟨held, isHeld, continues⟩ | ⟨_, untested⟩
      · rw [continues.probe] at isProbe
        exact window.attempt isHeld isProbe isAddr
      · rw [untested] at isProbe
        cases isProbe
  | @tests held now _ _ _ asked next session outcome taken isAction isHeld _
      offered provokes isNext later seals size isNow _ probeNow gains =>
      have starts : asked = addr → next.started = since ∨ since + probeTimeout < next.started := by
        rintro rfl
        exact window.next isHeld isNext (spaced isAction offered provokes isHeld)
      have counts := attempts.held isNow probeNow
      refine ⟨attempts, ?_, ?_, ?_⟩
      · cases outcome with
        | error error =>
          rw [challengesWithin_congr (gains.trans (List.append_nil _))]
          exact window.bounded
        | ok frame =>
          by_cases counted :
              asked = addr ∧ since ≤ moment.nowMs ∧ moment.nowMs ≤ since + probeTimeout
          · obtain ⟨rfl, _, inTime⟩ := counted
            rcases starts rfl with isSince | isLater
            · have bounded := counts.count.trans_le counts.bounded
              rw [← isSince, ← isNext.addr]
              exact bounded
            · have started : next.started ≤ moment.nowMs := counts.started
              omega
          · rw [challengesWithin_concat gains, if_neg counted]
            exact window.bounded
      · obtain ⟨item, member, begins⟩ := window.begun
        rw [gains]
        exact ⟨item, List.mem_append_left _ member, begins⟩
      · intro entry probe isEntry isProbe isAddr
        rw [isNow] at isEntry
        cases isEntry
        rw [probeNow] at isProbe
        cases isProbe
        cases outcome with
        | error error => exact starts (isNext.addr.symm.trans isAddr)
        | ok frame => exact starts (isNext.addr.symm.trans isAddr)
  | moves _ _ _ _ _ _ _ _ isNow _ untested same =>
    refine ⟨attempts, ?_, ?_, ?_⟩
    · rw [challengesWithin_congr same]
      exact window.bounded
    · rw [same]
      exact window.begun
    · intro entry probe isEntry isProbe _
      rw [isNow] at isEntry
      cases isEntry
      rw [untested] at isProbe
      cases isProbe

end Steps

end View

/-! ### Whole runs -/

theorem Driver.spaced_of_not_restarts
    {env : Env ω} {driver : Driver (ω × Journal)} {moment : Moment}
    {peerId : PeerId} (remembers : driver.restarts env moment peerId = false) :
    View.Spaced moment (driver.Opens env moment peerId) := by
  intro view ingested held bytes random addr isAction opens asked isHeld
  obtain ⟨offer, member, rfl, rfl, entry, found, ingests, accepted⟩ := opens
  have isEntry : entry = held := Option.some.inj (found.symm.trans isHeld)
  subst isEntry
  have provoking : provokes (.ok ingested) = true := by
    cases ingested with
    | rejected => exact absurd rfl accepted
    | pathValidated token => exact absurd rfl (asked token)
    | _ => rfl
  unfold restarts at remembers
  rw [isAction] at remembers
  have spares := List.any_eq_false.mp remembers offer member
  rw [found, Option.any_some, ingests, provoking, beq_self_eq_true] at spares
  cases forgotten : entry.probe.all (·.addr != addr) with
  | true =>
    right
    intro item isItem isAddr
    simp only [forgotten, Bool.true_and, Bool.not_eq_true, List.any_eq_false] at spares
    have rested := spares item isItem
    rw [isAddr, beq_self_eq_true, Bool.true_and] at rested
    exact Nat.not_le.mp (of_decide_eq_false rested)
  | false =>
    left
    cases isProbe : entry.probe with
    | none =>
      rw [isProbe] at forgotten
      cases forgotten
    | some probe =>
      rw [isProbe, Option.all_some] at forgotten
      exact ⟨probe, rfl, bne_eq_false_iff_eq.mp forgotten⟩

/--
No address is challenged more often than an attempt allows in the time that
begins with the first challenge of an attempt, in every run in which no frame
that opens comes from an address that was challenged lately, on a session that
holds no attempt at it any more.
-/
theorem challenges_bounded
    {env : Env ω}
    {mode : Mode}
    {socket : ω}
    {first middle final : Driver (ω × Journal)}
    {earlier later : List Moment}
    {peerId : PeerId}
    {entry : PeerEntry}
    {probe : AddressProbe}
    (isFirst :
      first = Driver.new (Endpoint.new env.recorded mode (socket, [])))
    (inOrder : Execution.Ordered Moment.nowMs 0 (earlier ++ later))
    (admitted :
      Execution.Admits (Driver.next env.recorded)
        (fun driver moment => driver.restarts env moment peerId = false)
        first (earlier ++ later))
    (isMiddle :
      middle = Execution.run (Driver.next env.recorded) first earlier)
    (isFinal :
      final = Execution.run (Driver.next env.recorded) middle later)
    (found : middle.endpoint.peers.lookup peerId = some entry)
    (isProbe : entry.probe = some probe)
    (begins : probe.sent = 1) :
    (final.endpoint.view peerId).challengesWithin probe.addr probe.last ≤
      pathProbes := by
  have keeps :
      ∀ {clock : Nat} {driver : Driver (ω × Journal)} {moment : Moment},
        clock ≤ moment.nowMs →
        driver.restarts env moment peerId = false →
        (driver.endpoint.registry.Consistent ∧
          (driver.endpoint.view peerId).Attempts clock) →
        (driver.next env.recorded moment).endpoint.registry.Consistent ∧
          ((driver.next env.recorded moment).endpoint.view
            peerId).Attempts moment.nowMs := by
    rintro clock driver moment isLater remembers ⟨consistent, attempts⟩
    exact ⟨Driver.next_consistent env.recorded consistent moment,
      Driver.next_view consistent (View.Attempts moment.nowMs)
        (fun turn =>
          View.Attempts.probing (driver.spaced_of_not_restarts remembers)
            turn.probing)
        (attempts.wait isLater)⟩
  have bounds :
      ∀ {clock : Nat} {driver : Driver (ω × Journal)} {moment : Moment},
        clock ≤ moment.nowMs →
        driver.restarts env moment peerId = false →
        (driver.endpoint.registry.Consistent ∧
          (driver.endpoint.view peerId).Window probe.addr probe.last clock) →
        (driver.next env.recorded moment).endpoint.registry.Consistent ∧
          ((driver.next env.recorded moment).endpoint.view
            peerId).Window probe.addr probe.last moment.nowMs := by
    rintro clock driver moment isLater remembers ⟨consistent, window⟩
    exact ⟨Driver.next_consistent env.recorded consistent moment,
      Driver.next_view consistent
        (View.Window probe.addr probe.last moment.nowMs)
        (fun turn =>
          View.Window.probing (driver.spaced_of_not_restarts remembers)
            turn.probing)
        (window.wait isLater)⟩
  obtain ⟨orderBefore, orderAfter⟩ := Execution.ordered_append.mp inOrder
  obtain ⟨admitsBefore, admitsAfter⟩ := Execution.admits_append.mp admitted
  have starts : first.endpoint.registry.Consistent ∧
        (first.endpoint.view peerId).Attempts 0 := by
    subst isFirst
    exact ⟨new_consistent env.recorded mode (socket, []), nofun, nofun⟩
  have midway :=
    Execution.invariant_of_ordered keeps orderBefore admitsBefore starts
  rw [← isMiddle] at midway admitsAfter
  have counts := midway.2.held found isProbe
  have isLast := counts.first begins
  have opened : (middle.endpoint.view peerId).Window probe.addr probe.last
        (Execution.reached Moment.nowMs 0 earlier) := by
    refine { midway.2 with bounded := ?_, begun := ?_, attempt := ?_ }
    · rw [isLast]
      exact counts.count.trans_le counts.bounded
    · have some : 0 < (middle.endpoint.view peerId).challengesWithin
          probe.addr probe.started := by
        rw [counts.count, begins]
        exact Nat.one_pos
      obtain ⟨item, member, counted⟩ := List.countP_pos_iff.mp some
      simp only [Bool.and_eq_true, beq_iff_eq, decide_eq_true_eq] at counted
      exact ⟨item, member, counted.1.1, isLast ▸ counted.1.2⟩
    · intro held attempt isHeld isAttempt _
      have isEntry : entry = held := Option.some.inj (found.symm.trans isHeld)
      subst isEntry
      rw [isProbe] at isAttempt
      cases isAttempt
      exact Or.inl isLast.symm
  have ends :=
    Execution.invariant_of_ordered bounds orderAfter admitsAfter
      ⟨midway.1, opened⟩
  rw [← isFinal] at ends
  exact ends.2.bounded

/-- A data frame the other end of a small session seals after some others. -/
def smallFrame (number : Nat) : Bytes :=
  let speaks (session : Session) :=
    session.sealData smallEnv.suite.aead [1] 0 100
  (speaks
    ((fun session => (speaks session).2)^[number]
      (smallLink 5 [7]).alice)).1.toOption.getD []

/-- Frame after frame is heard, each from the next address. -/
def smallTrip (number : Nat) : List SocketAddr → List Moment
  | [] =>
      []
  | addr :: rest =>
      smallPass (400 * number) (smallFrame number) addr
          (LittleEndian.encode 8 number) ++
        smallTrip (number + 1) rest

/-- A session is accepted, and its first frame comes from elsewhere. -/
def smallDeparture : List Moment :=
  smallPass 0 (smallOpening .handshakeInit 5 [7]) (host 1) [] ++
    smallTrip 0 [host 2]

def smallDeparted : Driver (Unit × Journal) :=
  Execution.run (Driver.next smallEnv.recorded)
    (Driver.new (Endpoint.new smallEnv.recorded (.publicKey []) ((), [])))
    smallDeparture

/-- The attempt that frame begins. -/
def smallAttempt : AddressProbe :=
  ⟨host 2, LittleEndian.encode 8 0, 1, 0, 0⟩

def smallTravelled (addrs : List SocketAddr) : Driver (Unit × Journal) :=
  Execution.run (Driver.next smallEnv.recorded) smallDeparted
    (smallTrip 1 addrs)

theorem challenges_bounded_of_small_stay :
    ((smallTravelled (List.replicate 4 (host 2))).endpoint.view
        0).challengesWithin (host 2) 0 = 3 ∧
      ((smallTravelled (List.replicate 4 (host 2))).endpoint.view
        0).challengesWithin smallAttempt.addr smallAttempt.last ≤
        pathProbes := by
  have begins : (smallDeparted.endpoint.peers.lookup 0).bind (·.probe) =
        some smallAttempt := by
    decide +kernel
  have inOrder : Execution.Ordered Moment.nowMs 0
        (smallDeparture ++ smallTrip 1 (List.replicate 4 (host 2))) := by
    decide +kernel
  obtain ⟨entry, found, isProbe⟩ := Option.bind_eq_some_iff.mp begins
  exact ⟨by decide +kernel,
    challenges_bounded rfl inOrder (by decide +kernel) rfl rfl found
      isProbe rfl⟩

theorem replaced_attempt_is_forgotten :
    Execution.Ordered Moment.nowMs 0
        (smallDeparture ++
          smallTrip 1
            [host 3, host 2, host 3, host 2, host 3, host 2]) ∧
      (smallDeparted.endpoint.peers.lookup 0).bind (·.probe) =
        some smallAttempt ∧
      pathProbes <
        ((smallTravelled
          [host 3, host 2, host 3, host 2, host 3, host 2]).endpoint.view
          0).challengesWithin smallAttempt.addr smallAttempt.last := by
  decide +kernel

end Endpoint

end Fectp
