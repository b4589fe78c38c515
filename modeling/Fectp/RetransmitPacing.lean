import Fectp.RoundTrip

namespace Fectp

/-!
# How fast a message is resent

Whatever the estimator has been told, transmissions of one message are spaced
by the floor of the timeout at least.
-/

/-- The clock readings of a call are from `start` on, and well before its end. -/
def QueueCall.After (start : Nat) : QueueCall → Prop
  | .register nowMs | .poll nowMs _ =>
      start ≤ nowMs ∧ nowMs + maxRtoMs ≤ maxValue 64
  | .onAck .. | .forgetPath =>
      True

namespace RetransmitQueue

/-- A message was resent no faster than the floor, and is not due within it. -/
structure Spaced (start : Nat) (entry : InFlight) : Prop where
  resent : start + entry.retries * minRtoMs ≤ entry.sentAtMs
  due : entry.sentAtMs + minRtoMs ≤ entry.deadlineMs

theorem minRtoMs_le_withBackoff (rto : Rto) (retries : Nat) :
    minRtoMs ≤ rto.withBackoff retries := by
  have range := rto.current_range
  have ordered := rto.withBackoff_mono (Nat.zero_le retries)
  refine Nat.le_trans ?_ ordered
  unfold Rto.withBackoff saturatingMul maxValue
  unfold maxRtoMs minRtoMs at *
  simp
  omega

/-- A poll leaves a message as it was, or resends it now that it is due. -/
theorem pollSlots_entry
    {budget nowMs room : Nat} {rto : Rto} {slots : List (Option InFlight)} {entry : InFlight}
    (member : some entry ∈ (pollSlots budget nowMs rto room slots).1) :
    some entry ∈ slots ∨ ∃ earlier, some earlier ∈ slots ∧ earlier.deadlineMs ≤ nowMs ∧
        entry = ⟨earlier.id, saturatingAdd 64 nowMs (rto.withBackoff (earlier.retries + 1)), nowMs,
          earlier.retries + 1⟩ := by
  induction slots generalizing room with
  | nil => cases member
  | cons slot rest inductionHypothesis =>
    have later : ∀ {room}, some entry ∈ (pollSlots budget nowMs rto room rest).1 → _ :=
      fun member => (inductionHypothesis member).imp (List.mem_cons_of_mem slot)
        (Exists.imp fun _ => And.imp_left (List.mem_cons_of_mem slot))
    cases slot with
    | none => exact later ((List.mem_cons.mp member).resolve_left (by simp))
    | some held =>
      simp only [pollSlots] at member
      split at member
      · rcases List.mem_cons.mp member with isHeld | inRest
        · exact .inl (List.mem_cons.mpr (.inl isHeld))
        · exact later inRest
      · next due =>
        cases room with
        | zero => exact .inl member
        | succ room =>
          dsimp only at member
          split at member
          · exact later ((List.mem_cons.mp member).resolve_left (by simp))
          · rcases List.mem_cons.mp member with isResent | inRest
            · exact .inr ⟨held, List.mem_cons_self, Nat.le_of_not_lt due, Option.some.inj isResent⟩
            · exact later inRest

theorem mem_entries {queue : RetransmitQueue} {entry : InFlight} :
    entry ∈ queue.entries ↔ some entry ∈ queue.slots := by
  simp [entries]

/-- A transmission now is due again after the floor at least. -/
theorem spaced_now {start nowMs delay retries : Nat} {id : MessageId} (floor : minRtoMs ≤ delay)
    (ceiling : delay ≤ maxRtoMs) (inTime : nowMs + maxRtoMs ≤ maxValue 64)
    (resent : start + retries * minRtoMs ≤ nowMs) :
    Spaced start ⟨id, saturatingAdd 64 nowMs delay, nowMs, retries⟩ := by
  refine ⟨resent, ?_⟩
  unfold saturatingAdd
  dsimp only
  omega

theorem spaced_call
    {queue : RetransmitQueue} {start : Nat} {call : QueueCall} (after : call.After start)
    (spaced : ∀ entry ∈ queue.entries, Spaced start entry) :
    ∀ entry ∈ (queue.call call).entries, Spaced start entry := by
  intro entry member
  cases call with
  | register nowMs =>
    unfold RetransmitQueue.call at member
    dsimp only at member
    split at member
    · exact spaced entry member
    next accepted =>
    obtain ⟨front, back, isBefore, isAfter⟩ := register_entries accepted
    rw [isAfter, List.mem_append, List.mem_cons] at member
    rw [isBefore] at spaced
    rcases member with inFront | rfl | inBack
    · exact spaced entry (List.mem_append_left _ inFront)
    · have range := queue.rto.current_range
      exact spaced_now range.1 range.2 after.2 (by simpa using after.1)
    · exact spaced entry (List.mem_append_right _ inBack)
  | onAck ack nowMs room =>
    unfold RetransmitQueue.call at member
    rw [onAck_entries] at member
    exact spaced entry (List.mem_of_mem_filter member)
  | poll nowMs room =>
    unfold RetransmitQueue.call at member
    rw [mem_entries, poll_slots] at member
    rcases pollSlots_entry member with isHeld | ⟨earlier, isHeld, due, rfl⟩
    · exact spaced entry (mem_entries.mpr isHeld)
    have before := spaced earlier (mem_entries.mpr isHeld)
    refine spaced_now (minRtoMs_le_withBackoff ..) (Rto.withBackoff_le ..) after.2 ?_
    have resent := before.resent
    have wasDue := before.due
    rw [Nat.succ_mul]
    omega
  | forgetPath => exact spaced entry member

/--
In every run whose clock is read from `start` on, a message resent so many
times was last sent as many floors later, and is not due within another.
-/
theorem resends_are_spaced
    {start : Nat}
    {calls : List QueueCall}
    (after : Execution.Admits call (fun _ call => call.After start) new calls) :
    ∀ entry ∈ (Execution.run call new calls).entries, Spaced start entry := by
  refine
    @Execution.invariant_of_admits _ _ _ _
      (fun queue => ∀ entry ∈ queue.entries, Spaced start entry) spaced_call _ _ after ?_
  intro entry member
  rw [mem_entries] at member
  cases List.eq_of_mem_replicate member

theorem resends_are_spaced_of_one_resent :
    (Execution.run call new [.register 0, .poll 300 32]).entries.map InFlight.retries = [1] ∧
      ∀ entry ∈ (Execution.run call new [.register 0, .poll 300 32]).entries, Spaced 0 entry :=
  ⟨by decide +kernel,
    resends_are_spaced ⟨⟨by decide, by decide⟩, ⟨by decide, by decide⟩, trivial⟩⟩

end RetransmitQueue

end Fectp
