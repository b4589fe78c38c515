import Fectp.PayloadRoom
import Fectp.TokenBucket

namespace Fectp

/-!
# How often coding is tried

A stream that does not shrink is not coded over and over, and is not given up
on either.
-/

/-- The misses counted are too few to skip, and skipping starts at none. -/
structure CodingDecision.Sound (coding : CodingDecision) : Prop where
  misses : coding.misses < codingMissLimit
  skips : coding.skips ≤ codingProbeInterval
  apart : 0 < coding.skips → coding.misses = 0

namespace Sealing

open Execution (Admits total)

variable (codec : Codec)

/-- What is remembered after a payload that is coded only if worthwhile. -/
def tried (sealing : Sealing) (outgoing : Outgoing) : Sealing :=
  { sealing with coding := (sealing.attemptCoding codec outgoing false).2 }

/-- How often the codec is run on a payload. -/
def attempts (sealing : Sealing) (outgoing : Outgoing) : Nat :=
  if (sealing.coding.shouldCode outgoing.payloadType).1 then 1 else 0

/-- A payload of the stream's shape that coding does not shrink. -/
def Incompressible (sealing : Sealing) (outgoing : Outgoing) : Prop :=
  outgoing.payloadType = sealing.coding.shape ∧
    codec.encodePayload outgoing.data outgoing.payloadType sealing.session.peerCaps = none

variable {codec} {sealing : Sealing} {outgoing : Outgoing}

/-- A payload is let past, or tried and what came of it recorded. -/
theorem tried_cases (sealing : Sealing) (outgoing : Outgoing) :
    sealing.attempts outgoing = 0 ∧ 0 < sealing.coding.skips ∧
        (sealing.tried codec outgoing).coding =
          { sealing.coding with skips := sealing.coding.skips - 1 } ∨
      sealing.attempts outgoing = 1 ∧ ∃ start : CodingDecision,
          start.skips = 0 ∧ (start.misses = 0 ∨ start = sealing.coding) ∧
            (outgoing.payloadType = sealing.coding.shape → start = sealing.coding) ∧
            (sealing.tried codec outgoing).coding =
              start.record (codec.encodePayload outgoing.data outgoing.payloadType
                sealing.session.peerCaps).isSome := by
  unfold tried attemptCoding attempts CodingDecision.shouldCode
  by_cases sameShape : outgoing.payloadType = sealing.coding.shape
  · rw [if_neg (not_not.mpr sameShape)]
    by_cases skipping : sealing.coding.skips > 0
    · rw [if_pos skipping]
      exact .inl ⟨rfl, skipping, rfl⟩
    · rw [if_neg skipping]
      exact .inr ⟨rfl, _, Nat.eq_zero_of_not_pos skipping, .inr rfl, fun _ => rfl, rfl⟩
  · rw [if_pos sameShape]
    exact .inr ⟨rfl, ⟨0, 0, outgoing.payloadType⟩, rfl, .inl rfl,
      fun same => absurd same sameShape, rfl⟩

theorem skips_tried (sealing : Sealing) (outgoing : Outgoing) :
    (sealing.tried codec outgoing).coding.skips + 1 ≤
      (codingProbeInterval + 1) * sealing.attempts outgoing + sealing.coding.skips := by
  rcases sealing.tried_cases outgoing with
    ⟨isSkipped, skips, isAfter⟩ | ⟨isTried, start, unskipped, _, _, isAfter⟩
  · rw [isSkipped, isAfter]
    dsimp only
    omega
  rw [isTried, isAfter, CodingDecision.record]
  split
  · dsimp only
    omega
  split <;> dsimp only <;> omega

theorem sound_tried (sound : sealing.coding.Sound) (outgoing : Outgoing) :
    (sealing.tried codec outgoing).coding.Sound := by
  obtain ⟨misses, skips, apart⟩ := sound
  rcases sealing.tried_cases outgoing with
    ⟨_, skipping, isAfter⟩ | ⟨_, start, unskipped, origin, _, isAfter⟩
  · rw [isAfter]
    exact ⟨misses, (Nat.sub_le _ 1).trans skips, fun _ => apart skipping⟩
  have few : start.misses < codingMissLimit := by
    rcases origin with none | rfl
    · rw [none]
      decide
    · exact misses
  rw [isAfter, CodingDecision.record]
  split
  · exact ⟨Nat.zero_lt_succ _, Nat.zero_le _, fun _ => rfl⟩
  split
  · exact ⟨Nat.zero_lt_succ _, le_refl _, fun _ => rfl⟩
  next spared =>
  refine ⟨Nat.lt_of_not_le spared, unskipped ▸ Nat.zero_le _, fun skips => ?_⟩
  exact absurd unskipped skips.ne'

/-- Four misses are paid for with thirty-two skips. -/
theorem misses_tried
    (sound : sealing.coding.Sound) (fails : Incompressible codec sealing outgoing) :
    9 * sealing.attempts outgoing + (8 * sealing.coding.misses + sealing.coding.skips) =
      8 * (sealing.tried codec outgoing).coding.misses +
        (sealing.tried codec outgoing).coding.skips + 1 := by
  have few := sound.misses
  unfold codingMissLimit at few
  rcases sealing.tried_cases outgoing with
    ⟨isSkipped, skips, isAfter⟩ | ⟨isTried, start, unskipped, _, same, isAfter⟩
  · rw [isSkipped, isAfter]
    dsimp only
    omega
  obtain rfl := same fails.1
  rw [isTried, isAfter, fails.2, CodingDecision.record, if_neg (by decide)]
  unfold codingMissLimit codingProbeInterval
  split <;> dsimp only <;> omega

theorem length_le_attempts (sealing : Sealing) (sent : List Outgoing) :
    sent.length ≤ (codingProbeInterval + 1) * total (tried codec) attempts sealing sent +
      sealing.coding.skips := by
  induction sent generalizing sealing with
  | nil => exact Nat.zero_le _
  | cons outgoing rest inductionHypothesis =>
    have skips := @skips_tried codec sealing outgoing
    have others := inductionHypothesis (sealing.tried codec outgoing)
    rw [List.length_cons, total, Nat.mul_add]
    omega

theorem attempts_le_length {sent : List Outgoing} (sound : sealing.coding.Sound)
    (fails : Admits (tried codec) (Incompressible codec) sealing sent) :
    9 * total (tried codec) attempts sealing sent +
        (8 * sealing.coding.misses + sealing.coding.skips) ≤
      sent.length + 32 := by
  induction sent generalizing sealing with
  | nil =>
    obtain ⟨misses, skips, apart⟩ := sound
    unfold codingMissLimit at misses
    unfold codingProbeInterval at skips
    rw [total, List.length_nil]
    omega
  | cons outgoing rest inductionHypothesis =>
    have pays := misses_tried sound fails.1
    have others := inductionHypothesis (sound_tried sound outgoing) fails.2
    rw [List.length_cons, total, Nat.mul_add]
    omega

/--
Whatever was sent before, one payload in thirty-three at least is coded, and
of a stream that does not shrink no more than one in nine beyond the first few.
-/
theorem coding_attempts_bounded
    (codec : Codec)
    (session : Session)
    (past sent : List Outgoing) :
    let sealing := Execution.run (tried codec) ⟨session, .new⟩ past
    let attempted := total (tried codec) attempts sealing sent
    sent.length ≤ 33 * attempted + 32 ∧
      (Admits (tried codec) (Incompressible codec) sealing sent →
        9 * attempted ≤ sent.length + 32) := by
  intro sealing attempted
  have sound : sealing.coding.Sound :=
    @Execution.invariant_of_step _ _ _ (fun sealing : Sealing => sealing.coding.Sound)
      sound_tried _ past ⟨Nat.zero_lt_succ _, Nat.zero_le _, fun _ => rfl⟩
  refine ⟨(@length_le_attempts codec sealing sent).trans ?_, fun fails => ?_⟩
  · exact Nat.add_le_add_left sound.skips _
  · exact (Nat.le_add_right _ _).trans (attempts_le_length sound fails)

instance (codec : Codec) (sealing : Sealing) (outgoing : Outgoing) :
    Decidable (Incompressible codec sealing outgoing) :=
  inferInstanceAs (Decidable (_ ∧ _))

/-- Forty payloads in a row that do not shrink. -/
theorem coding_attempts_bounded_of_vain_stream :
    let sealing := (smallPadded false).toSealing
    let sent := List.replicate 40 (smallPayload 1)
    total (tried plainSuite.codec) attempts sealing sent = 8 ∧
      9 * total (tried plainSuite.codec) attempts sealing sent ≤ sent.length + 32 :=
  ⟨by decide +kernel,
    (coding_attempts_bounded plainSuite.codec (smallPadded false).session []
      (List.replicate 40 (smallPayload 1))).2 (by decide +kernel)⟩

end Sealing

end Fectp
