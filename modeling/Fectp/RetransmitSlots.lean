import Mathlib.Data.List.Forall2
import Fectp.Reliability

namespace Fectp

/-!
# What each queue operation does to the slots

`on_ack` clears exactly the slots its acknowledgement covers, `poll` keeps a
slot's identifier or clears it, and `register` fills the first free slot with
the next identifier.  Every later argument about the sender goes through these
descriptions rather than through the passes themselves.
-/

/-- The identifier a report gives up on. -/
def Due.givenUp : Due → Option MessageId
  | .retransmit _ =>
      none
  | .gaveUp id =>
      some id

namespace RetransmitQueue

/-- A slot once an acknowledgement has been applied to it. -/
def clearCovered (ack : Ack) (slot : Option InFlight) :
    Option InFlight :=
  slot.filter fun entry => !ack.covers entry.id

variable (queue : RetransmitQueue) (ack : Ack) (nowMs : Nat) (rto : Rto)
  (slots : List (Option InFlight)) (capacity : Nat)
  {registered : RetransmitQueue}

/-- `on_ack` applies its acknowledgement to every slot alike. -/
theorem ackSlots_slots :
    (ackSlots ack nowMs rto slots).1 = slots.map (clearCovered ack) := by
  induction slots generalizing rto with
  | nil => rfl
  | cons slot rest inductionHypothesis =>
    cases slot with
    | none => simp [ackSlots, clearCovered, inductionHypothesis]
    | some entry =>
      cases covered : ack.covers entry.id with
      | false => simp [ackSlots, clearCovered, covered, inductionHypothesis, Option.filter]
      | true => simp [ackSlots, clearCovered, covered, inductionHypothesis, Option.filter]

/-- The identifiers freed are the covered ones, in slot order. -/
theorem ackSlots_freed :
    (ackSlots ack nowMs rto slots).2.2 =
      ((slots.filterMap id).map InFlight.id).filter ack.covers := by
  induction slots generalizing rto with
  | nil => rfl
  | cons slot rest inductionHypothesis =>
    cases slot with
    | none => simp [ackSlots, inductionHypothesis]
    | some entry =>
      cases covered : ack.covers entry.id with
      | false => simp [ackSlots, covered, inductionHypothesis]
      | true => simp [ackSlots, covered, inductionHypothesis]

/-- Widening the window leaves the slots and the identifiers alone. -/
@[simp] theorem onDeliveries_slots (count : Nat) :
    (queue.onDeliveries count).slots = queue.slots := by
  induction count generalizing queue with
  | zero => rfl
  | succ count inductionHypothesis => simp [onDeliveries, inductionHypothesis, onDelivery]

@[simp] theorem onDeliveries_nextId (count : Nat) :
    (queue.onDeliveries count).nextId = queue.nextId := by
  induction count generalizing queue with
  | zero => rfl
  | succ count inductionHypothesis => simp [onDeliveries, inductionHypothesis, onDelivery]

@[simp] theorem onAck_slots :
    (queue.onAck ack nowMs capacity).2.slots = queue.slots.map (clearCovered ack) := by
  simp [onAck, ackSlots_slots]

@[simp] theorem onAck_nextId :
    (queue.onAck ack nowMs capacity).2.nextId = queue.nextId := by
  simp [onAck]

/-- The identifiers `on_ack` reports, when its buffer holds them all. -/
theorem onAck_freed :
    (queue.onAck ack nowMs capacity).1 =
      ((queue.entries.map InFlight.id).filter ack.covers).take capacity := by
  simp [onAck, ackSlots_freed, entries]

/-- A slot after a poll holds the message it held before, or nothing. -/
def Keeps (before after : Option InFlight) : Prop :=
  after = none ∨
    ∃ entry kept,
      before = some entry ∧
        after = some kept ∧
        kept.id = entry.id

theorem Keeps.refl (slot : Option InFlight) : Keeps slot slot := by
  cases slot with
  | none => exact Or.inl rfl
  | some entry => exact Or.inr ⟨entry, entry, rfl, rfl, rfl⟩

/-- `poll` retimes or clears slots and never changes whose they are. -/
theorem pollSlots_keeps
    (budget nowMs : Nat) (rto : Rto) (room : Nat) (slots : List (Option InFlight)) :
    List.Forall₂ Keeps slots (pollSlots budget nowMs rto room slots).1 := by
  induction slots generalizing room with
  | nil => exact .nil
  | cons slot rest inductionHypothesis =>
    cases slot with
    | none => exact .cons (.refl none) (inductionHypothesis room)
    | some entry =>
      simp only [pollSlots]
      split
      · exact .cons (.refl _) (inductionHypothesis room)
      cases room with
      | zero => exact .cons (.refl _) (List.forall₂_same.mpr fun other _ => .refl other)
      | succ room =>
        simp only
        split
        · exact .cons (Or.inl rfl) (inductionHypothesis room)
        · exact .cons (Or.inr ⟨entry, _, rfl, rfl, rfl⟩) (inductionHypothesis room)

theorem poll_slots :
    (queue.poll nowMs capacity).2.slots =
      (pollSlots queue.maxRetries nowMs queue.rto capacity queue.slots).1 := by
  simp only [poll]
  split <;> rfl

theorem poll_due :
    (queue.poll nowMs capacity).1 =
      (pollSlots queue.maxRetries nowMs queue.rto capacity queue.slots).2 := by
  simp only [poll]
  split <;> rfl

@[simp] theorem poll_nextId :
    (queue.poll nowMs capacity).2.nextId = queue.nextId := by
  simp only [poll]
  split <;> rfl

/-- A slot occupied after a poll held the same message before it. -/
theorem poll_slot {index : Nat} {kept : InFlight}
    (occupied : (queue.poll nowMs capacity).2.slots[index]? = some (some kept)) :
    ∃ entry, queue.slots[index]? = some (some entry) ∧ kept.id = entry.id := by
  rw [poll_slots] at occupied
  have keeps := pollSlots_keeps queue.maxRetries nowMs queue.rto capacity queue.slots
  generalize
    (pollSlots queue.maxRetries nowMs queue.rto capacity queue.slots).1 = after at occupied keeps
  generalize queue.slots = before at keeps
  induction keeps generalizing index with
  | nil => simp at occupied
  | cons head _ inductionHypothesis =>
    cases index with
    | zero =>
      simp only [List.getElem?_cons_zero, Option.some.injEq] at occupied ⊢
      subst occupied
      rcases head with cleared | ⟨entry, same, held, kept, sameId⟩
      · cases cleared
      · cases kept
        exact ⟨entry, held, sameId⟩
    | succ index =>
      exact inductionHypothesis occupied

/-- A slot occupied after an acknowledgement held the same entry before it,
and the acknowledgement does not cover it. -/
theorem onAck_slot {index : Nat} {entry : InFlight} :
    (queue.onAck ack nowMs capacity).2.slots[index]? = some (some entry) ↔
      queue.slots[index]? = some (some entry) ∧ ack.covers entry.id = false := by
  rw [onAck_slots, List.getElem?_map]
  constructor
  · intro occupied
    obtain ⟨slot, before, cleared⟩ := Option.map_eq_some_iff.mp occupied
    cases slot with
    | none => cases cleared
    | some other =>
      simp only [clearCovered, Option.filter_eq_some_iff,
        Option.some.injEq, Bool.not_eq_true'] at cleared
      obtain ⟨rfl, uncovered⟩ := cleared
      exact ⟨before, uncovered⟩
  · rintro ⟨before, uncovered⟩
    simp [before, clearCovered, Option.filter, uncovered]

/-- The fold behind `oldest_unacked` keeps an identifier at least as far back
as every one it has passed. -/
theorem furtherBehind_foldl (nextId : MessageId) (ids : List MessageId) (best : Option MessageId)
    {id : MessageId} (member : id ∈ ids ∨ best = some id) :
    ∃ oldest, ids.foldl (furtherBehind nextId) best = some oldest ∧
        (nextId - id).toNat ≤ (nextId - oldest).toNat := by
  induction ids generalizing best id with
  | nil =>
    rcases member with absurd | isBest
    · simp at absurd
    · exact ⟨id, isBest, le_rfl⟩
  | cons head rest inductionHypothesis =>
    rcases member with inIds | isBest
    · rcases List.mem_cons.mp inIds with rfl | inRest
      · -- The head is either the new best or beaten by the old one.
        cases best with
        | none => exact inductionHypothesis (some id) (Or.inr rfl)
        | some other =>
          simp only [List.foldl_cons, furtherBehind]
          split
          · exact inductionHypothesis (some id) (Or.inr rfl)
          next beaten =>
          obtain ⟨oldest, found, further⟩ :=
            @inductionHypothesis (some other) other (Or.inr rfl)
          exact ⟨oldest, found, by omega⟩
      · exact inductionHypothesis _ (Or.inl inRest)
    · subst isBest
      simp only [List.foldl_cons, furtherBehind]
      split
      · next reached =>
          obtain ⟨oldest, found, further⟩ := @inductionHypothesis (some head) head (Or.inr rfl)
          exact ⟨oldest, found, by omega⟩
      · exact inductionHypothesis (some id) (Or.inr rfl)

/-- Within reach, every outstanding identifier is in the last sixty-four. -/
theorem distance_lt_of_inReach {queue : RetransmitQueue} (inReach : queue.outOfReach = false)
    {entry : InFlight} (member : entry ∈ queue.entries) :
    (queue.nextId - entry.id).toNat < ackWindow := by
  obtain ⟨oldest, found, further⟩ :=
    furtherBehind_foldl queue.nextId (queue.entries.map InFlight.id) none
      (Or.inl (List.mem_map_of_mem (f := InFlight.id) member))
  simp only [outOfReach, oldestUnacked, found,
    decide_eq_false_iff_not, ge_iff_le, not_le] at inReach
  omega

/--
Everything a registration does: the identifiers were in reach, and the first
free slot now holds the next one.
-/
theorem register_ok {queue : RetransmitQueue} {nowMs : Nat} {id : MessageId}
    (accepted : queue.register nowMs = .ok (id, registered)) :
    id = queue.nextId ∧ queue.outOfReach = false ∧ queue.inFlight < queue.window ∧
      queue.freeSlot < queue.slots.length ∧
      registered.nextId = queue.nextId + 1 ∧
      registered.slots = queue.slots.set queue.freeSlot (some (queue.firstTransmission nowMs)) ∧
      registered.rto = queue.rto ∧
      registered.maxRetries = queue.maxRetries := by
  unfold register at accepted
  split at accepted
  · cases accepted
  next inReach =>
  split at accepted
  · cases accepted
  next room =>
  split at accepted
  · next free =>
      obtain ⟨rfl, rfl⟩ := accepted
      exact ⟨rfl, by simpa using inReach, by omega, free, rfl, rfl, rfl, rfl⟩
  · cases accepted

/-- A slot was free and is not any more. -/
theorem register_slots_ne {queue : RetransmitQueue} {nowMs : Nat} {id : MessageId}
    (accepted : queue.register nowMs = .ok (id, registered)) :
    registered.slots ≠ queue.slots := by
  obtain ⟨_, _, _, free, _, slots, _, _⟩ := register_ok accepted
  have wasFree : queue.slots[queue.freeSlot]? = some none := by
    rw [List.getElem?_eq_getElem free]
    have isNone := @List.findIdx_getElem _ Option.isNone queue.slots free
    exact congrArg some (Option.isNone_iff_eq_none.mp isNone)
  intro same
  rw [← same, slots, List.getElem?_set_self free] at wasFree
  cases wasFree

/-- A refused registration is always refused for want of window. -/
theorem register_error {queue : RetransmitQueue} {nowMs : Nat} {error : CoreError}
    (refused : queue.register nowMs = .error error) :
    error = .windowFull := by
  unfold register at refused
  repeat' split at refused
  all_goals
    simp only [Except.error.injEq, reduceCtorEq] at refused
  all_goals exact refused.symm

/-- The identifiers whose slots were occupied and no longer are. -/
def cleared : List (Option InFlight) → List (Option InFlight) → List MessageId
  | some entry :: before, none :: after =>
      entry.id :: cleared before after
  | _ :: before, _ :: after =>
      cleared before after
  | _, _ =>
      []

/-- The identifiers `poll` removes from the slots. -/
def removedByPoll (queue : RetransmitQueue) (nowMs : Nat) :
    List MessageId :=
  cleared queue.slots (queue.poll nowMs maxInFlight).2.slots

@[simp] theorem cleared_self :
    cleared slots slots = [] := by
  induction slots with
  | nil => rfl
  | cons slot rest inductionHypothesis => cases slot <;> exact inductionHypothesis

/-- The slots a poll clears are those it reports given up on, in order. -/
theorem cleared_pollSlots
    (budget nowMs : Nat) (rto : Rto) (room : Nat) (slots : List (Option InFlight)) :
    cleared slots (pollSlots budget nowMs rto room slots).1 =
      (pollSlots budget nowMs rto room slots).2.filterMap Due.givenUp := by
  induction slots generalizing room with
  | nil => rfl
  | cons slot rest inductionHypothesis =>
    cases slot with
    | none => exact inductionHypothesis room
    | some entry =>
      simp only [pollSlots]
      split
      · exact inductionHypothesis room
      cases room with
      | zero => exact cleared_self rest
      | succ room =>
        simp only
        split
        · exact congrArg (entry.id :: ·) (inductionHypothesis room)
        · exact inductionHypothesis room

theorem removedByPoll_eq :
    queue.removedByPoll nowMs = (queue.poll nowMs maxInFlight).1.filterMap Due.givenUp := by
  rw [removedByPoll, poll_slots, poll_due]
  exact cleared_pollSlots _ _ _ _ _

/-- Whether a poll at this time gives up on a message. -/
def spent (queue : RetransmitQueue) (nowMs : Nat) (entry : InFlight) : Bool :=
  entry.deadlineMs ≤ nowMs && entry.retries ≥ queue.maxRetries

/-- A poll at this time gives up on nothing. -/
def patient (queue : RetransmitQueue) (nowMs : Nat) : Bool :=
  queue.slots.all (·.all (!queue.spent nowMs ·))

/-- A message just registered has all its retries. -/
theorem patient_register {queue : RetransmitQueue} {registerMs pollMs : Nat} {id : MessageId}
    (accepted : queue.register registerMs = .ok (id, registered))
    (patient : queue.patient pollMs = true) :
    registered.patient pollMs = true := by
  obtain ⟨_, _, _, _, _, slots, _, sameBudget⟩ := register_ok accepted
  have positive := queue.maxRetries_pos
  have sameSpent : registered.spent = queue.spent := by
    funext nowMs entry
    rw [spent, spent, sameBudget]
  unfold RetransmitQueue.patient at patient ⊢
  rw [List.all_eq_true] at patient ⊢
  rw [slots, sameSpent]
  intro slot member
  rcases List.mem_or_eq_of_mem_set member with older | rfl
  · exact patient slot older
  · simp [spent, firstTransmission, Nat.ne_of_gt positive]

theorem cleared_of_patient {nowMs : Nat} (room : Nat) {slots : List (Option InFlight)}
    (patient : slots.all (·.all (!queue.spent nowMs ·)) = true) :
    cleared slots (pollSlots queue.maxRetries nowMs rto room slots).1 = [] := by
  induction slots generalizing room with
  | nil => rfl
  | cons slot rest inductionHypothesis =>
    rw [List.all_cons, Bool.and_eq_true] at patient
    have later := fun room => inductionHypothesis room patient.2
    cases slot with
    | none => exact later room
    | some entry =>
      simp only [pollSlots]
      split
      · exact later room
      next isDue =>
      cases room with
      | zero => exact cleared_self rest
      | succ room =>
        have remaining : ¬entry.retries ≥ queue.maxRetries := by
          have unspent := patient.1
          simp only [Option.all_some, spent, Bool.not_eq_true',
            Bool.and_eq_false_imp, decide_eq_true_eq,
            decide_eq_false_iff_not] at unspent
          exact unspent (Nat.le_of_not_lt isDue)
        simp only [if_neg remaining]
        exact later room

theorem removedByPoll_of_patient
    {queue : RetransmitQueue} {nowMs : Nat} (patient : queue.patient nowMs = true) :
    queue.removedByPoll nowMs = [] := by
  rw [removedByPoll, poll_slots]
  exact queue.cleared_of_patient queue.rto maxInFlight patient

/-- The slots cleared account for the difference, whatever is counted. -/
theorem countP_cleared (counts : MessageId → Bool) {before after : List (Option InFlight)}
    (keeps : List.Forall₂ Keeps before after) :
    before.countP (·.any (counts ·.id)) =
      after.countP (·.any (counts ·.id)) + (cleared before after).countP counts := by
  induction keeps with
  | nil => rfl
  | cons kept _ inductionHypothesis =>
    rcases kept with rfl | ⟨entry, same, rfl, rfl, sameId⟩
    · next slot rest rest' _ =>
        cases slot with
        | none => simpa [cleared] using inductionHypothesis
        | some entry =>
          simp only [cleared, List.countP_cons, Option.any_some,
            Option.any_none, Bool.false_eq_true, if_false]
          omega
    · simp only [cleared, List.countP_cons, Option.any_some, sameId]
      omega

theorem onAck_keeps :
    List.Forall₂ Keeps queue.slots (queue.onAck ack nowMs capacity).2.slots := by
  rw [onAck_slots, List.forall₂_map_right_iff]
  refine List.forall₂_same.mpr fun slot _ => ?_
  cases slot with
  | none => exact Or.inl rfl
  | some entry =>
    cases covered : ack.covers entry.id with
    | true => exact Or.inl (by simp [clearCovered, Option.filter, covered])
    | false => exact Or.inr ⟨entry, entry, rfl, by simp [clearCovered, Option.filter, covered], rfl⟩

theorem poll_keeps :
    List.Forall₂ Keeps queue.slots (queue.poll nowMs capacity).2.slots := by
  rw [poll_slots]
  exact pollSlots_keeps _ _ _ _ _

/-- Every identifier in flight is one of the last sixty-four given out. -/
def Reach (queue : RetransmitQueue) : Prop :=
  ∀ entry,
    some entry ∈ queue.slots →
    0 < (queue.nextId - entry.id).toNat ∧
      (queue.nextId - entry.id).toNat ≤ ackWindow

namespace Reach

variable {queue after : RetransmitQueue}

/-- The identifier given out next is not in flight. -/
theorem fresh (reach : queue.Reach) {entry : InFlight} (member : some entry ∈ queue.slots) :
    entry.id ≠ queue.nextId := by
  intro same
  have positive := (reach entry member).1
  rw [same, BitVec.sub_self] at positive
  exact Nat.lt_irrefl _ positive

/-- Slots may be cleared or retimed. -/
theorem keeps (reach : queue.Reach) (kept : List.Forall₂ Keeps queue.slots after.slots)
    (sameNext : after.nextId = queue.nextId) :
    after.Reach := by
  intro entry member
  obtain ⟨index, inRange, isEntry⟩ := List.mem_iff_getElem.mp member
  obtain ⟨sameLength, pairwise⟩ := List.forall₂_iff_get.mp kept
  rcases pairwise index (by omega) inRange with
    isNone | ⟨earlier, same, wasEarlier, isSame, sameId⟩
  · simp only [List.get_eq_getElem, isEntry] at isNone
    cases isNone
  simp only [List.get_eq_getElem, isEntry, Option.some.injEq] at isSame
  subst isSame
  rw [sameNext, sameId]
  apply reach
  rw [← wasEarlier]
  exact List.getElem_mem _

/-- Registering keeps the others in reach. -/
theorem register (reach : queue.Reach) {nowMs : Nat} {id : MessageId}
    (accepted : queue.register nowMs = .ok (id, after)) :
    after.Reach := by
  obtain ⟨_, inReach, _, _, nextId, slots, _, _⟩ := register_ok accepted
  intro entry member
  rw [slots] at member
  rw [nextId]
  rcases List.mem_or_eq_of_mem_set member with older | isNew
  · have bound := reach entry older
    have near := distance_lt_of_inReach inReach
      (by simpa [entries] using older : entry ∈ queue.entries)
    have window : ackWindow = 64 := rfl
    constructor <;> bv_omega
  · cases isNew
    have window : ackWindow = 64 := rfl
    simp only [firstTransmission]
    constructor <;> bv_omega

end Reach

end RetransmitQueue

/-! ### What a poll leaves -/

namespace Rto

theorem current_pos (rto : Rto) : 0 < rto.current := by
  unfold current
  split
  · decide
  · unfold clamp minRtoMs maxRtoMs
    omega

theorem withBackoff_pos (rto : Rto) (retries : Nat) :
    0 < rto.withBackoff retries := by
  have positive := Nat.mul_pos rto.current_pos (Nat.two_pow_pos (min retries 5))
  unfold withBackoff saturatingMul maxValue maxRtoMs
  dsimp only
  omega

end Rto

namespace RetransmitQueue

variable {nowMs : Nat}

theorem saturatingAdd_gt {delay : Nat} (inTime : nowMs < maxValue 64) (delays : 0 < delay) :
    nowMs < saturatingAdd 64 nowMs delay := by
  unfold saturatingAdd
  omega

/-- A pass with room for every slot leaves none that is due. -/
theorem pollSlots_clears {budget : Nat} {rto : Rto} (inTime : nowMs < maxValue 64) {room : Nat}
    {slots : List (Option InFlight)} (roomy : slots.length ≤ room) {entry : InFlight}
    (member : some entry ∈ (pollSlots budget nowMs rto room slots).1) :
    nowMs < entry.deadlineMs := by
  induction slots generalizing room with
  | nil => cases member
  | cons slot rest inductionHypothesis =>
    cases slot with
    | none =>
      simp only [pollSlots, List.mem_cons, reduceCtorEq, false_or] at member
      exact inductionHypothesis (Nat.le_of_succ_le roomy) member
    | some held =>
      simp only [pollSlots] at member
      split at member
      · next waits =>
          rcases List.mem_cons.mp member with isHeld | member
          · cases isHeld
            exact waits
          · exact inductionHypothesis (Nat.le_of_succ_le roomy) member
      · cases room with
        | zero => cases roomy
        | succ room =>
          have roomy := Nat.le_of_succ_le_succ roomy
          dsimp only at member
          split at member
          · rcases List.mem_cons.mp member with isNone | member
            · cases isNone
            · exact inductionHypothesis roomy member
          rcases List.mem_cons.mp member with isHeld | member
          · cases isHeld
            exact saturatingAdd_gt inTime (rto.withBackoff_pos _)
          · exact inductionHypothesis roomy member

/-- What a poll leaves in flight is not due yet. -/
theorem poll_clears {queue : RetransmitQueue} {deadline : Nat} (inTime : nowMs < maxValue 64)
    (isNext : (queue.poll nowMs maxInFlight).2.nextDeadlineMs = some deadline) :
    nowMs < deadline := by
  obtain ⟨entry, isEntry, rfl⟩ := List.mem_map.mp (List.min?_eq_some_iff.mp isNext).1
  unfold entries at isEntry
  rw [poll_slots] at isEntry
  obtain ⟨slot, member, isSome⟩ := List.mem_filterMap.mp isEntry
  cases isSome
  exact pollSlots_clears inTime (Nat.le_of_eq queue.slots_length) member

end RetransmitQueue

end Fectp
