import Fectp.RetransmitAccount

namespace Fectp

/-!
# Round-trip estimation

The estimator keeps a truncating weighted average, which never leaves the range
of its samples, so that the 64-bit intermediates never overflow and narrowing
them back loses nothing.  In a queue, only messages that were never sent again
are measured.
-/

namespace Rto

/-- An estimator after so many samples. -/
def measured (samples : List (BitVec 32)) : Rto :=
  samples.foldl (fun rto sample => rto.sample sample.toNat) .new

/-- The estimate is within the samples, and both halves fit their types. -/
structure Within (samples : List (BitVec 32)) (rto : Rto) : Prop where
  smoothed : rto.smoothedMs = none ↔ samples = []
  least : ∀ srtt,
      rto.smoothedMs = some srtt → ∃ least ∈ samples, least.toNat ≤ srtt
  greatest : ∀ srtt,
      rto.smoothedMs = some srtt → ∃ greatest ∈ samples, srtt ≤ greatest.toNat
  variation : rto.variationMs < 2 ^ 32

/-- The difference of two values, the larger less the smaller. -/
theorem delta_lt
    {first second bound : Nat} (firstFits : first < bound) (secondFits : second < bound) :
    (first - second) + (second - first) < bound := by
  omega

namespace Within

variable {samples : List (BitVec 32)} {rto : Rto}

theorem smoothed_lt
    (within : rto.Within samples) {srtt : Nat} (isSmoothed : rto.smoothedMs = some srtt) :
    srtt < 2 ^ 32 := by
  obtain ⟨greatest, _, above⟩ := within.greatest srtt isSmoothed
  exact above.trans_lt greatest.isLt

/-- What a sample computes on the way fits 64 bits, and what it keeps 32. -/
theorem fits (within : rto.Within samples) {srtt : Nat}
    (isSmoothed : rto.smoothedMs = some srtt) (rtt : BitVec 32) :
    rto.variationMs * 3 + ((srtt - rtt.toNat) + (rtt.toNat - srtt)) < 2 ^ 64 ∧
      srtt * 7 + rtt.toNat < 2 ^ 64 ∧
      (rto.variationMs * 3 + ((srtt - rtt.toNat) + (rtt.toNat - srtt))) / 4 < 2 ^ 32 ∧
      (srtt * 7 + rtt.toNat) / 8 < 2 ^ 32 := by
  have smoothed := within.smoothed_lt isSmoothed
  have variation := within.variation
  have sample := rtt.isLt
  have delta := delta_lt smoothed sample
  omega

theorem sample (within : rto.Within samples) (rtt : BitVec 32) :
    (rto.sample rtt.toNat).Within (samples ++ [rtt]) := by
  have isLast : rtt ∈ samples ++ [rtt] := List.mem_concat_self
  have isSome : samples ++ [rtt] ≠ [] := List.concat_ne_nil _ _
  unfold Rto.sample
  split
  · refine ⟨iff_of_false nofun isSome, ?_, ?_, ?_⟩
    · rintro _ ⟨⟩
      exact ⟨rtt, isLast, le_rfl⟩
    · rintro _ ⟨⟩
      exact ⟨rtt, isLast, le_rfl⟩
    · exact (Nat.div_le_self _ _).trans_lt rtt.isLt
  next srtt isSmoothed =>
  obtain ⟨_, _, variationFits, smoothedFits⟩ := within.fits isSmoothed rtt
  obtain ⟨least, isLeast, below⟩ := within.least srtt isSmoothed
  obtain ⟨greatest, isGreatest, above⟩ := within.greatest srtt isSmoothed
  dsimp only
  rw [Nat.mod_eq_of_lt variationFits, Nat.mod_eq_of_lt smoothedFits]
  -- The average lies between the old estimate and the new sample.
  refine ⟨iff_of_false nofun isSome, ?_, ?_, variationFits⟩
  · rintro _ ⟨⟩
    rcases Nat.le_total srtt rtt.toNat with up | down
    · exact ⟨least, List.mem_append_left _ isLeast, by omega⟩
    · exact ⟨rtt, isLast, by omega⟩
  · rintro _ ⟨⟩
    rcases Nat.le_total srtt rtt.toNat with up | down
    · exact ⟨rtt, isLast, by omega⟩
    · exact ⟨greatest, List.mem_append_left _ isGreatest, by omega⟩

end Within

theorem within_measured (samples : List (BitVec 32)) :
    (measured samples).Within samples := by
  induction samples using List.reverseRecOn with
  | nil => exact ⟨iff_of_true rfl rfl, nofun, nofun, by decide⟩
  | append_singleton earlier last inductionHypothesis =>
    unfold measured
    rw [List.foldl_append]
    exact inductionHypothesis.sample last

variable (rto : Rto)

theorem current_range :
    minRtoMs ≤ rto.current ∧ rto.current ≤ maxRtoMs := by
  unfold current
  split
  · decide
  · unfold clamp minRtoMs maxRtoMs
    omega

theorem withBackoff_le (retries : Nat) :
    rto.withBackoff retries ≤ maxRtoMs :=
  Nat.min_le_right _ _

theorem withBackoff_mono {fewer more : Nat} (ordered : fewer ≤ more) :
    rto.withBackoff fewer ≤ rto.withBackoff more := by
  have shifts : 2 ^ min fewer 5 ≤ 2 ^ min more 5 := Nat.pow_le_pow_right (by decide) (by omega)
  have scales := Nat.mul_le_mul_left rto.current shifts
  unfold withBackoff saturatingMul
  dsimp only
  omega

end Rto

namespace RetransmitQueue

/-- The messages an acknowledgement takes a measurement from. -/
def sampled (queue : RetransmitQueue) (ack : Ack) : List InFlight :=
  queue.entries.filter fun entry =>
    ack.covers entry.id && entry.retries == 0

/-- A measurement of one message. -/
def measure (nowMs : Nat) (rto : Rto) (entry : InFlight) : Rto :=
  rto.sample (min (nowMs - entry.sentAtMs) (maxValue 32))

/-- An acknowledgement's samples are those of the messages named. -/
theorem ackSlots_rto (ack : Ack) (nowMs : Nat) (rto : Rto) (slots : List (Option InFlight)) :
    (ackSlots ack nowMs rto slots).2.1 = ((slots.filterMap id).filter fun entry =>
        ack.covers entry.id && entry.retries == 0).foldl
        (measure nowMs) rto := by
  induction slots generalizing rto with
  | nil => rfl
  | cons slot rest inductionHypothesis =>
    cases slot with
    | none => exact inductionHypothesis rto
    | some entry =>
      cases covered : ack.covers entry.id with
      | false => simp [ackSlots, covered, inductionHypothesis]
      | true =>
        by_cases first : entry.retries = 0
        · simp [ackSlots, covered, first, inductionHypothesis, measure]
        · simp [ackSlots, covered, first, inductionHypothesis]

variable (queue : RetransmitQueue)

theorem onDeliveries_rto (count : Nat) :
    (queue.onDeliveries count).rto = queue.rto := by
  induction count generalizing queue with
  | zero => rfl
  | succ count inductionHypothesis => exact inductionHypothesis queue.onDelivery

theorem onAck_rto (ack : Ack) (nowMs room : Nat) :
    (queue.onAck ack nowMs room).2.rto = (queue.sampled ack).foldl (measure nowMs) queue.rto := by
  unfold onAck
  rw [onDeliveries_rto]
  exact ackSlots_rto ack nowMs queue.rto queue.slots

theorem poll_rto (nowMs room : Nat) :
    (queue.poll nowMs room).2.rto = queue.rto := by
  unfold poll
  dsimp only
  split <;> rfl

theorem register_rto (nowMs : Nat) :
    (queue.call (.register nowMs)).rto = queue.rto := by
  unfold call
  dsimp only
  split
  · rfl
  next accepted =>
  obtain ⟨_, _, _, _, _, _, same, _⟩ := register_ok accepted
  exact same

end RetransmitQueue

/-- A message that waits and was never sent again has no history. -/
theorem Account.Kept.unsent_history {budget : Nat} {account : Account} (kept : account.Kept budget)
    {entry : InFlight} (member : entry ∈ account.queue.entries) (first : entry.retries = 0) :
    account.history (named account.issued entry.id) = [] := by
  have told := kept.told _ (kept.named_lt member)
  have held : entry ∈ account.holding (named account.issued entry.id) :=
    List.mem_filter.mpr ⟨member, beq_self_eq_true _⟩
  generalize account.holding (named account.issued entry.id) = holding at told held
  generalize account.history (named account.issued entry.id) = history at told
  cases told with
  | waiting =>
    rw [← List.mem_singleton.mp held, first]
    rfl
  | acknowledged | gaveUp => cases held

/--
The estimate stays between the least and the greatest sample, computed without
overflow and kept without loss; the timeout stays in its range, with backoff
never shorter for more retries.  In a queue, whatever is called and when, what
is measured are messages that were never reported for retransmission.
-/
theorem estimates_faithfully
    (samples : List (BitVec 32))
    (attempts : Nat)
    (calls : List QueueCall) :
    let rto := Rto.measured samples
    let account := Execution.run Account.step (.fresh attempts) calls
    (rto.smoothedMs = none ↔ samples = []) ∧
      (∀ srtt,
        rto.smoothedMs = some srtt →
          (∃ least ∈ samples, least.toNat ≤ srtt) ∧
            (∃ greatest ∈ samples, srtt ≤ greatest.toNat) ∧
            ∀ rtt : BitVec 32,
              let delta := (srtt - rtt.toNat) + (rtt.toNat - srtt)
              rto.variationMs * 3 + delta < 2 ^ 64 ∧
                srtt * 7 + rtt.toNat < 2 ^ 64 ∧
                (rto.variationMs * 3 + delta) / 4 < 2 ^ 32 ∧
                (srtt * 7 + rtt.toNat) / 8 < 2 ^ 32) ∧
      minRtoMs ≤ rto.current ∧
      rto.current ≤ maxRtoMs ∧
      (∀ retries, rto.withBackoff retries ≤ maxRtoMs) ∧
      (∀ fewer more,
        fewer ≤ more → rto.withBackoff fewer ≤ rto.withBackoff more) ∧
      (∀ ack nowMs room,
        (account.queue.onAck ack nowMs room).2.rto =
            (account.queue.sampled ack).foldl
              (RetransmitQueue.measure nowMs) account.queue.rto ∧
          ∀ entry ∈ account.queue.sampled ack,
            .resent ∉ account.history (named account.issued entry.id)) ∧
      (∀ nowMs room,
        (account.queue.poll nowMs room).2.rto = account.queue.rto) ∧
      ∀ nowMs,
        (account.queue.call (.register nowMs)).rto = account.queue.rto := by
  intro rto account
  have within := Rto.within_measured samples
  have kept := Account.run_kept attempts calls
  obtain ⟨low, high⟩ := rto.current_range
  refine ⟨within.smoothed, ?_, low, high, rto.withBackoff_le, ?_, ?_, ?_, ?_⟩
  · intro srtt isSmoothed
    exact ⟨within.least srtt isSmoothed, within.greatest srtt isSmoothed,
      within.fits isSmoothed⟩
  · intro fewer more ordered
    exact rto.withBackoff_mono ordered
  · intro ack nowMs room
    refine ⟨account.queue.onAck_rto ack nowMs room, ?_⟩
    intro entry isSampled
    obtain ⟨member, isFirst⟩ := List.mem_filter.mp isSampled
    rw [Bool.and_eq_true, beq_iff_eq] at isFirst
    rw [kept.unsent_history member isFirst.2]
    exact List.not_mem_nil
  · exact account.queue.poll_rto
  · exact account.queue.register_rto

end Fectp
