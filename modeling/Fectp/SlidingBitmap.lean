import Mathlib.Data.Nat.Basic

namespace Fectp

/-!
# Sliding bitmaps

A receiver remembers which of the most recent positions it has seen as a
fixed-width bitmap hung below a moving top.  Bit `i` stands for the position
`i + offset` below the top: offset zero when the top itself has a bit, offset
one when the top is implicit.

`Records` says that a bitmap is exactly the restriction of a set of seen
positions to the window.  Sliding the top and marking one position preserve
it, and a bit test decides membership.
-/

namespace SlidingBitmap

variable {w : Nat}

/-- The bitmap below `top` is the window's view of the set `seen`. -/
def Records
    (offset : Nat)
    (bitmap : BitVec w)
    (top : Nat)
    (seen : Nat → Prop) : Prop :=
  ∀ i, i < w →
    (bitmap.getLsbD i = true ↔ i + offset ≤ top ∧ seen (top - (i + offset)))

/-- Masking with one bit is nonzero exactly when that bit is set. -/
theorem and_bit_ne_zero_iff (bitmap : BitVec w) {i : Nat} (inRange : i < w) :
    bitmap &&& (1#w <<< i) ≠ 0#w ↔ bitmap.getLsbD i = true := by
  rw [← BitVec.twoPow_eq, BitVec.and_twoPow]
  split
  · next isSet =>
      refine iff_of_true ?_ isSet
      intro cleared
      simpa [inRange] using congrArg (BitVec.getLsbD · i) cleared
  · next isClear => exact iff_of_false (fun nonzero => nonzero rfl) isClear

namespace Records

variable {offset top : Nat} {seen : Nat → Prop}

/-- An empty bitmap records a set with nothing below the top. -/
theorem empty (unseen : ∀ position, position + offset ≤ top → ¬ seen position) :
    Records offset (0#w) top seen := by
  intro i _
  constructor
  · intro bit
    simp at bit
  · rintro ⟨below, member⟩
    exact (unseen _ (by omega) member).elim

/-- Only membership of positions inside the window matters. -/
theorem congr {bitmap : BitVec w} {seen' : Nat → Prop} (records : Records offset bitmap top seen)
    (same : ∀ position, position + offset ≤ top → (seen position ↔ seen' position)) :
    Records offset bitmap top seen' := by
  intro i inRange
  rw [records i inRange]
  constructor
  · rintro ⟨below, member⟩
    exact ⟨below, (same _ (by omega)).mp member⟩
  · rintro ⟨below, member⟩
    exact ⟨below, (same _ (by omega)).mpr member⟩

/-- A bit inside the window decides whether its position was seen. -/
theorem test_iff {position : Nat} {bitmap : BitVec w} (records : Records offset bitmap top seen)
    (below : position + offset ≤ top) (inWindow : top - position - offset < w) :
    bitmap &&& (1#w <<< (top - position - offset)) ≠ 0#w ↔ seen position := by
  rw [and_bit_ne_zero_iff bitmap inWindow, records _ inWindow]
  have back : top - (top - position - offset + offset) = position := by
    omega
  rw [back]
  constructor
  · exact And.right
  · intro member
    exact ⟨by omega, member⟩

/-- Moving the top up shifts the bitmap, dropping what leaves the window. -/
theorem slide {bitmap : BitVec w} (records : Records offset bitmap top seen) (shift : Nat) :
    Records offset (bitmap <<< shift) (top + shift)
      (fun position => position + offset ≤ top ∧ seen position) := by
  intro i inRange
  rw [BitVec.getLsbD_shiftLeft]
  by_cases reached : i < shift
  · simp only [inRange, reached, decide_true, Bool.not_true,
      Bool.and_false, Bool.false_and, Bool.false_eq_true, false_iff]
    rintro ⟨below, above, _⟩
    omega
  · have shifted := records (i - shift) (by omega)
    have back : top + shift - (i + offset) = top - (i - shift + offset) := by
      omega
    simp only [inRange, reached, decide_true, decide_false,
      Bool.not_false, Bool.true_and, shifted, back]
    constructor
    · rintro ⟨below, member⟩
      exact ⟨by omega, by omega, member⟩
    · rintro ⟨below, above, member⟩
      exact ⟨by omega, member⟩

/-- Setting one bit adds exactly its position. -/
theorem mark {bitmap : BitVec w} (records : Records offset bitmap top seen)
    (distance : Nat) (below : distance + offset ≤ top) :
    Records offset (bitmap ||| (1#w <<< distance)) top (fun position =>
        seen position ∨ position = top - (distance + offset)) := by
  intro i inRange
  rw [BitVec.getLsbD_or, Bool.or_eq_true, records i inRange,
    ← BitVec.twoPow_eq, BitVec.getLsbD_twoPow]
  simp only [Bool.and_eq_true, decide_eq_true_eq]
  constructor
  · rintro (⟨inside, member⟩ | ⟨_, rfl⟩)
    · exact ⟨inside, Or.inl member⟩
    · exact ⟨below, Or.inr rfl⟩
  · rintro ⟨inside, member | same⟩
    · exact Or.inl ⟨inside, member⟩
    · have atBit : distance = i := by omega
      exact Or.inr ⟨by omega, atBit⟩

end Records

end SlidingBitmap

end Fectp
