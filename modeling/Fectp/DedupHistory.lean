import Fectp.Reliability

namespace Fectp

open SerialNumber SlidingBitmap

/-!
# What a deduplication window has seen

Identifiers wrap, so a window speaks about positions of an unbounded counter
only up to residue.  `Represents` ties a started window to the set of
positions it has accepted: the highest one, and a bitmap of the sixty-four
below it.  As long as the position being accepted or asked about is less than
half the identifier space from the highest, the window's answers are the ones
the set gives.
-/

/-- Positions close enough to be ordered by their wrapping identifiers. -/
def Comparable (first second : Nat) : Prop :=
  first - second < 2 ^ 31 ∧ second - first < 2 ^ 31

namespace Comparable

theorem serial_inj {first second : Nat} (close : Comparable first second) :
    serial 32 first = serial 32 second ↔ first = second :=
  SerialNumber.serial_inj (by have := close.1; omega) (by have := close.2; omega)

/-- Between comparable positions, serial-number order is counter order. -/
theorem isNewer_iff {first second : Nat} (close : Comparable first second) :
    isNewer (serial 32 first) (serial 32 second) = true ↔ second < first := by
  obtain ⟨near, near'⟩ := close
  have sameIff := Comparable.serial_inj ⟨near, near'⟩
  simp only [isNewer, bne, Bool.and_eq_true, Bool.not_eq_true',
    beq_eq_false_iff_ne, ne_eq, sameIff, decide_eq_true_eq]
  rcases Nat.lt_trichotomy first second with before | rfl | after
  · have distance :=
      toNat_serial_sub_of_lt (w := 32) before (by omega)
    omega
  · simp
  · have distance :=
      toNat_serial_sub (w := 32) after.le (by omega)
    omega

end Comparable

namespace DedupWindow

/-- A started window stands for the set of positions it has accepted. -/
structure Represents
    (window : DedupWindow)
    (top : Nat)
    (seen : Nat → Prop) : Prop where
  started : window.started = true
  highest : window.highest = serial 32 top
  topSeen : seen top
  seenLe : ∀ {position}, seen position → position ≤ top
  records : Records 1 window.bitmap top seen

/-- The first identifier a fresh window accepts becomes its highest. -/
theorem accept_new (position : Nat) :
    (new.accept (serial 32 position)).1 = true ∧
      (new.accept (serial 32 position)).2.Represents position (· = position) := by
  refine ⟨rfl, rfl, rfl, rfl, fun same => same.le, ?_⟩
  apply Records.empty
  intro other below same
  omega

/--
The three ways the bitmap slides are one formula: shifting by the whole width
or more leaves nothing, on either side of the disjunction.
-/
theorem slide_bitmap (bitmap : BitVec 64) (shift : Nat) :
    (if shift > ackWindow then
        0#64
      else if shift = ackWindow then
        1#64 <<< (ackWindow - 1)
      else
        (bitmap <<< shift) ||| (1#64 <<< (shift - 1))) =
      (bitmap <<< shift) ||| (1#64 <<< (shift - 1)) := by
  unfold ackWindow
  split
  · next beyond =>
      rw [BitVec.shiftLeft_eq_zero (by omega), BitVec.shiftLeft_eq_zero (by omega)]
      simp
  split
  · next whole =>
      subst whole
      simp
  · rfl

namespace Represents

variable {window : DedupWindow} {top : Nat} {seen : Nat → Prop}

variable {position : Nat}

section

variable (represents : window.Represents top seen)

include represents

/-- A later position is new, and becomes the highest. -/
theorem accept_later (close : Comparable position top) (later : top < position) :
    (window.accept (serial 32 position)).1 = true ∧
      (window.accept (serial 32 position)).2.Represents position
        (fun other => seen other ∨ other = position) := by
  have newer : isNewer (serial 32 position) window.highest = true := by
    rw [represents.highest]
    exact close.isNewer_iff.mpr later
  have shift : (serial 32 position - window.highest).toNat = position - top := by
    rw [represents.highest]
    exact toNat_serial_sub later.le (by have := close.1; omega)
  have accepted : window.accept (serial 32 position) = (true,
          { window with
            bitmap := (window.bitmap <<< (position - top)) ||| (1#64 <<< (position - top - 1))
            highest := serial 32 position }) := by
    simp only [accept, represents.started, Bool.not_true,
      Bool.false_eq_true, ↓reduceIte, newer, shift, slide_bitmap]
  rw [accepted]
  refine ⟨rfl, represents.started, rfl, Or.inr rfl, ?_, ?_⟩
  · rintro other (member | rfl)
    · exact (represents.seenLe member).trans later.le
    · exact le_rfl
  · have slid := represents.records.slide (position - top)
    rw [Nat.add_sub_cancel' later.le] at slid
    -- The old highest is the bit just marked.
    refine (slid.mark (position - top - 1) (by omega)).congr ?_
    intro other below
    have back : position - (position - top - 1 + 1) = top := by
      omega
    rw [back]
    constructor
    · rintro (⟨_, member⟩ | rfl)
      · exact Or.inl member
      · exact Or.inl represents.topSeen
    · rintro (member | rfl)
      · rcases Nat.lt_or_eq_of_le (represents.seenLe member) with
          lower | rfl
        · exact Or.inl ⟨lower, member⟩
        · exact Or.inr rfl
      · omega

/-- The highest position is refused, and nothing changes. -/
theorem accept_top :
    window.accept (serial 32 top) = (false, window) := by
  simp [accept, represents.started, represents.highest, isNewer]

/-- A lower position is measured by its distance below the highest. -/
theorem accept_lower (close : Comparable position top) (lower : position < top) :
    window.accept (serial 32 position) = if top - position > ackWindow then
        (false, window)
      else if window.bitmap &&& (1#64 <<< (top - position - 1)) != 0#64 then
        (false, window)
      else
        (true, { window with
            bitmap :=
              window.bitmap ||| (1#64 <<< (top - position - 1)) }) := by
  have notNewer : isNewer (serial 32 position) window.highest = false := by
    rw [represents.highest, Bool.eq_false_iff]
    intro newer
    exact Nat.lt_asymm lower (close.isNewer_iff.mp newer)
  have different : serial 32 position ≠ window.highest := by
    rw [represents.highest]
    exact fun same => lower.ne (close.serial_inj.mp same)
  have distance : (window.highest - serial 32 position).toNat = top - position := by
    rw [represents.highest]
    exact toNat_serial_sub lower.le (by have := close.2; omega)
  simp only [accept, represents.started, Bool.not_true,
    Bool.false_eq_true, ↓reduceIte, notNewer, different, distance]

/-- A position below the window is refused whether or not it was seen. -/
theorem accept_stale (close : Comparable position top) (stale : ackWindow < top - position) :
    window.accept (serial 32 position) = (false, window) := by
  rw [represents.accept_lower close (by omega)]
  simp [stale]

/-- A position in the window is tested by its bit. -/
theorem bit_iff (lower : position < top) (inWindow : top - position ≤ ackWindow) :
    window.bitmap &&& (1#64 <<< (top - position - 1)) ≠ 0#64 ↔ seen position :=
  represents.records.test_iff (by omega) (by unfold ackWindow at inWindow; omega)

section

variable (close : Comparable position top)

include close

/-- A position in the window that was seen is refused. -/
theorem accept_seen (lower : position < top) (member : seen position) :
    window.accept (serial 32 position) = (false, window) := by
  rw [represents.accept_lower close lower]
  split
  · rfl
  next inWindow =>
  have bit := (represents.bit_iff lower (by omega)).mpr member
  simp [bit]

/-- A position in the window that was not seen is new. -/
theorem accept_unseen
    (lower : position < top) (inWindow : top - position ≤ ackWindow) (unseen : ¬ seen position) :
    (window.accept (serial 32 position)).1 = true ∧
      (window.accept (serial 32 position)).2.Represents top
        (fun other => seen other ∨ other = position) := by
  have clear : window.bitmap &&& (1#64 <<< (top - position - 1)) = 0#64 := by
    by_contra bit
    exact unseen ((represents.bit_iff lower inWindow).mp bit)
  rw [represents.accept_lower close lower, if_neg (by omega), if_neg (by simp [clear])]
  refine ⟨rfl, represents.started, represents.highest, Or.inl represents.topSeen, ?_, ?_⟩
  · rintro other (member | rfl)
    · exact represents.seenLe member
    · exact lower.le
  · refine (represents.records.mark
      (top - position - 1) (by omega)).congr ?_
    intro other _
    have back : top - (top - position - 1 + 1) = position := by
      omega
    rw [back]

/--
Whether a position is new to a started window: it is above the highest, or in
reach below it and not yet seen.
-/
theorem accept_iff :
    (window.accept (serial 32 position)).1 = true ↔
      ¬ seen position ∧ top - position ≤ ackWindow := by
  rcases Nat.lt_trichotomy position top with lower | rfl | later
  · rcases Nat.lt_or_ge ackWindow (top - position) with
      stale | inWindow
    · rw [represents.accept_stale close stale]
      simp [Nat.not_le_of_lt stale]
    · by_cases member : seen position
      · rw [represents.accept_seen close lower member]
        simp [member]
      · simp [(represents.accept_unseen close lower inWindow member).1, member, inWindow]
  · rw [represents.accept_top]
    simp [represents.topSeen]
  · have unseen : ¬ seen position :=
      fun member => (represents.seenLe member).not_gt later
    simp [(represents.accept_later close later).1, unseen, Nat.sub_eq_zero_of_le later.le]

/-- A position is new and now seen, or nothing changes and some was seen. -/
theorem accept_cases :
    ((window.accept (serial 32 position)).1 = true ∧ ¬ seen position ∧
        ∃ top', (window.accept (serial 32 position)).2.Represents top'
            (fun other => seen other ∨ other = position)) ∨
      window.accept (serial 32 position) = (false, window) := by
  -- The window's own cases: above, at, below and in reach, stale.
  rcases Nat.lt_trichotomy position top with lower | rfl | later
  · rcases Nat.lt_or_ge ackWindow (top - position) with stale | inWindow
    · exact Or.inr (represents.accept_stale close stale)
    · by_cases member : seen position
      · exact Or.inr (represents.accept_seen close lower member)
      · obtain ⟨isNew, widened⟩ :=
          represents.accept_unseen close lower inWindow member
        exact Or.inl ⟨isNew, member, top, widened⟩
  · exact Or.inr represents.accept_top
  · obtain ⟨isNew, widened⟩ := represents.accept_later close later
    exact Or.inl ⟨isNew, fun member => (represents.seenLe member).not_gt later, position, widened⟩

/-- An acknowledgement covers exactly the seen positions it can name. -/
theorem covers_iff :
    window.toAck.covers (serial 32 position) = true ↔
      seen position ∧ top - position ≤ ackWindow := by
  rcases Nat.lt_trichotomy position top with lower | rfl | later
  · have different : serial 32 position ≠ window.highest := by
      rw [represents.highest]
      exact fun same => lower.ne (close.serial_inj.mp same)
    have distance : (window.highest - serial 32 position).toNat = top - position := by
      rw [represents.highest]
      exact toNat_serial_sub lower.le (by have := close.2; omega)
    simp only [Ack.covers, toAck, different, ↓reduceIte, distance]
    split
    · next stale => simp [Nat.not_le_of_lt stale]
    next inWindow =>
    have bit := represents.bit_iff lower (by omega)
    simp [bit, Nat.le_of_not_gt inWindow]
  · simp [Ack.covers, toAck, represents.highest, represents.topSeen]
  · have unseen : ¬ seen position :=
      fun member => (represents.seenLe member).not_gt later
    have different : serial 32 position ≠ window.highest := by
      rw [represents.highest]
      exact fun same => later.ne' (close.serial_inj.mp same)
    have distance : (window.highest - serial 32 position).toNat = 2 ^ 32 - (position - top) := by
      rw [represents.highest]
      exact toNat_serial_sub_of_lt later (by have := close.1; omega)
    have far : 2 ^ 32 - (position - top) > ackWindow := by
      have := close.1
      unfold ackWindow
      omega
    rw [Ack.covers, toAck, if_neg different]
    simp only [distance, far, ↓reduceIte, unseen, false_and, Bool.false_eq_true]

end

end

end Represents

/-- The window is fresh, or stands for the positions it has accepted. -/
def Tracks (window : DedupWindow) (seen : Nat → Prop) : Prop :=
  (window = new ∧ ∀ position, ¬ seen position) ∨
    ∃ top, window.Represents top seen

namespace Tracks

variable {window : DedupWindow} {seen : Nat → Prop}

/-- A position is new and now seen, or nothing changes and some was seen. -/
theorem accept (tracks : window.Tracks seen) {position : Nat}
    (close : ∀ {other}, seen other → Comparable position other) :
    ((window.accept (serial 32 position)).1 = true ∧ ¬ seen position ∧
        (window.accept (serial 32 position)).2.Tracks
          (fun other => seen other ∨ other = position)) ∨
      (window.accept (serial 32 position) = (false, window) ∧ ∃ first, seen first) := by
  rcases tracks with ⟨rfl, unseen⟩ | ⟨top, represents⟩
  · obtain ⟨isNew, represents⟩ := accept_new position
    refine Or.inl ⟨isNew, unseen position, Or.inr ⟨position, ?_⟩⟩
    have only : (fun other => seen other ∨ other = position) = (· = position) := by
      funext other
      simp [unseen other]
    rw [only]
    exact represents
  · rcases represents.accept_cases (close represents.topSeen) with
      ⟨isNew, member, top', widened⟩ | refused
    · exact Or.inl ⟨isNew, member, Or.inr ⟨top', widened⟩⟩
    · exact Or.inr ⟨refused, top, represents.topSeen⟩

/-- Once something was seen, an acknowledgement covers only what was. -/
theorem seen_of_covers (tracks : window.Tracks seen) {first position : Nat} (started : seen first)
    (close : ∀ {other}, seen other → Comparable position other)
    (covered : window.toAck.covers (serial 32 position) = true) :
    seen position := by
  rcases tracks with ⟨_, unseen⟩ | ⟨top, represents⟩
  · exact (unseen first started).elim
  · exact ((represents.covers_iff (close represents.topSeen)).mp covered).1

end Tracks

end DedupWindow

end Fectp
