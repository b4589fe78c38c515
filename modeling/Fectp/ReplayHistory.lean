import Fectp.Execution
import Fectp.Session

namespace Fectp

/-!
# What the replay window remembers

The window keeps the highest sequence number committed and one bit for each of
the 64 numbers from it downwards.  `Tracks` says that it is exactly the view
of a set of committed numbers; checking decides that set inside the window,
and committing a number that passes the check adds it.
-/

namespace ReplayWindow

open SlidingBitmap

/-- A window that has committed something is the view of a set with a top. -/
structure Represents
    (window : ReplayWindow)
    (top : Nat)
    (seen : Nat → Prop) : Prop where
  started : window.started = true
  highest : window.highest = top
  topSeen : seen top
  seenLe : ∀ {seq}, seen seq → seq ≤ top
  records : Records 0 window.bitmap top seen

/-- The window is the view of a set of committed sequence numbers. -/
def Tracks (window : ReplayWindow) (seen : Nat → Prop) : Prop :=
  (window.started = false ∧ ∀ seq, ¬ seen seq) ∨
    ∃ top, window.Represents top seen

theorem tracks_new : new.Tracks (fun _ => False) :=
  Or.inl ⟨rfl, fun _ => id⟩

namespace Represents

variable {window : ReplayWindow} {top : Nat} {seen : Nat → Prop}

variable {seq : Nat}

section

variable (represents : window.Represents top seen)

include represents

/-- A number in the window is tested by its bit. -/
theorem bit_iff (notAbove : seq ≤ top) (inWindow : top - seq < replayWindow) :
    window.bitmap &&& (1#64 <<< (top - seq)) ≠ 0#64 ↔ seen seq :=
  represents.records.test_iff notAbove inWindow

theorem check_eq (seq : Nat) :
    window.check seq = .ok () ↔ top < seq ∨ (top - seq < replayWindow ∧ ¬ seen seq) := by
  simp only [check, represents.started, represents.highest,
    Bool.not_true, Bool.false_eq_true, if_false]
  by_cases above : seq > top
  · simp [above]
  by_cases stale : top - seq ≥ replayWindow
  · simp [above, stale, Nat.not_lt_of_le stale]
  · have bit :=
      represents.bit_iff (Nat.le_of_not_lt above) (Nat.lt_of_not_le stale)
    by_cases member : seen seq
    · simp [bit.mpr member, member, above]
    have clear : window.bitmap &&& (1#64 <<< (top - seq)) = 0#64 := by
      by_contra set
      exact member (bit.mp set)
    simp [clear, member, Nat.lt_of_not_le stale]

/-- Committing a number above the top slides the window to it. -/
theorem commit_above (above : top < seq) :
    (window.commit seq).Represents seq (fun other => seen other ∨ other = seq) := by
  have slides : window.commit seq =
        { window with
          bitmap := (window.bitmap <<< (seq - top)) ||| (1#64 <<< 0)
          highest := seq } := by
    simp only [commit, represents.started, represents.highest,
      Bool.not_true, Bool.false_eq_true, if_false, above, if_true]
    by_cases beyond : seq - top ≥ replayWindow
    · have gone : window.bitmap <<< (seq - top) = 0#64 :=
        BitVec.shiftLeft_eq_zero beyond
      rw [if_pos beyond, gone]
      rfl
    · rw [if_neg beyond]
      rfl
  rw [slides]
  refine ⟨represents.started, rfl, Or.inr rfl, ?_, ?_⟩
  · intro other member
    rcases member with member | rfl
    · exact (represents.seenLe member).trans above.le
    · exact le_rfl
  · have slid := represents.records.slide (seq - top)
    rw [Nat.add_sub_cancel' above.le] at slid
    refine (slid.mark 0 (Nat.zero_le _)).congr ?_
    intro other _
    constructor
    · rintro (⟨_, member⟩ | same)
      · exact Or.inl member
      · exact Or.inr same
    · rintro (member | same)
      · exact Or.inl ⟨represents.seenLe member, member⟩
      · exact Or.inr same

/-- Committing a number inside the window marks its bit. -/
theorem commit_within (notAbove : seq ≤ top) (inWindow : top - seq < replayWindow) :
    (window.commit seq).Represents top (fun other => seen other ∨ other = seq) := by
  have marks : window.commit seq =
        { window with
          bitmap := window.bitmap ||| (1#64 <<< (top - seq)) } := by
    simp only [commit, represents.started, represents.highest,
      Bool.not_true, Bool.false_eq_true, if_false, gt_iff_lt,
      Nat.not_lt_of_le notAbove, inWindow, if_true]
  rw [marks]
  refine ⟨represents.started, represents.highest, Or.inl represents.topSeen, ?_, ?_⟩
  · intro other member
    rcases member with member | rfl
    · exact represents.seenLe member
    · exact notAbove
  · have marked :=
      represents.records.mark (top - seq) (Nat.sub_le top seq)
    have back : top - (top - seq + 0) = seq := Nat.sub_sub_self notAbove
    rwa [back] at marked

end

end Represents

namespace Tracks

variable {window : ReplayWindow} {seen : Nat → Prop}

/--
A number passes exactly when it was never committed and no committed number
is a whole window above it.
-/
theorem check_iff (tracks : window.Tracks seen) (seq : Nat) :
    window.check seq = .ok () ↔ ¬ seen seq ∧ ∀ other, seen other → other < seq + replayWindow := by
  rcases tracks with ⟨fresh, unseen⟩ | ⟨top, represents⟩
  · simp [check, fresh, unseen]
  rw [represents.check_eq]
  constructor
  · rintro (above | ⟨inWindow, member⟩)
    · refine ⟨fun member => ?_, fun other member => ?_⟩
      · exact Nat.not_le_of_lt above (represents.seenLe member)
      · have bound := represents.seenLe member
        omega
    · refine ⟨member, fun other otherMember => ?_⟩
      have bound := represents.seenLe otherMember
      omega
  · rintro ⟨member, bounded⟩
    have topBound := bounded top represents.topSeen
    by_cases above : top < seq
    · exact Or.inl above
    · refine Or.inr ⟨?_, member⟩
      omega

/-- Committing a number that passes the check adds exactly that number. -/
theorem commit (tracks : window.Tracks seen) {seq : Nat} (passes : window.check seq = .ok ()) :
    (window.commit seq).Tracks (fun other => seen other ∨ other = seq) := by
  rcases tracks with ⟨fresh, unseen⟩ | ⟨top, represents⟩
  · refine Or.inr ⟨seq, ?_⟩
    have first : window.commit seq = { started := true, highest := seq, bitmap := 1 } := by
      simp [ReplayWindow.commit, fresh]
    rw [first]
    refine ⟨rfl, rfl, Or.inr rfl, ?_, ?_⟩
    · intro other member
      rcases member with member | rfl
      · exact (unseen _ member).elim
      · exact le_rfl
    · have nothing : Records 0 (0#64) seq seen :=
        Records.empty fun other _ member => unseen other member
      exact nothing.mark 0 (Nat.zero_le seq)
  · rcases (represents.check_eq seq).mp passes with
      above | ⟨inWindow, _⟩
    · exact Or.inr ⟨seq, represents.commit_above above⟩
    · by_cases above : top < seq
      · exact Or.inr ⟨seq, represents.commit_above above⟩
      · exact Or.inr ⟨top, represents.commit_within (Nat.le_of_not_lt above) inWindow⟩

end Tracks

/-- A number once recorded is refused, whatever else is in the window. -/
theorem check_commit (window : ReplayWindow) (seq : Nat) :
    (window.commit seq).check seq = .error .replay := by
  have marked : ∀ (bitmap : BitVec 64) {place : Nat},
        place < replayWindow →
        (bitmap ||| (1#64 <<< place)) &&& (1#64 <<< place) ≠ 0#64 := by
    intro bitmap place inWindow
    refine (and_bit_ne_zero_iff (w := 64) _ inWindow).mpr ?_
    have inBits : place < 64 := inWindow
    simp [inBits]
  unfold commit
  split
  · simp [check, replayWindow]
  next started =>
  split
  · dsimp only
    split
    · simp [check, started, replayWindow]
    have top :=
      @marked (window.bitmap <<< (seq - window.highest)) 0 (by decide)
    rw [BitVec.shiftLeft_zero] at top
    simp [check, started, replayWindow, top]
  next notAbove =>
  dsimp only
  split
  · next inWindow => simp [check, started, notAbove, marked _ inWindow]
  · next stale => simp [check, started, notAbove, Nat.le_of_not_lt stale]

/-! ### Whole histories -/

/-- Commits of numbers that pass the check, each in its turn. -/
def Passed (history : List Nat) : Prop :=
  Execution.Admits commit (fun window seq => window.check seq = .ok ()) new
    history

instance (history : List Nat) : Decidable (Passed history) :=
  inferInstanceAs (Decidable (Execution.Admits _ _ _ _))

/-- The window tracks what was committed. -/
theorem Passed.tracks {history : List Nat} (passed : Passed history) :
    (Execution.run commit new history).Tracks (· ∈ history) := by
  have along : ∀ {window : ReplayWindow} {seen : Nat → Prop} {later : List Nat},
        window.Tracks seen →
        Execution.Admits commit (fun window seq => window.check seq = .ok ()) window later →
        (Execution.run commit window later).Tracks (fun seq => seen seq ∨ seq ∈ later) := by
    intro window seen later tracks passes
    induction later generalizing window seen with
    | nil => simpa using tracks
    | cons seq rest inductionHypothesis =>
      have further := inductionHypothesis (tracks.commit passes.1) passes.2
      simp only [or_assoc] at further
      simp only [List.mem_cons]
      exact further
  simpa using along tracks_new passed

/--
A number passes exactly if it was not committed and lies above the highest
committed one or less than the window below it.  That is as wide as the window's
constant says for every number but an uncommitted one exactly that far below.
-/
theorem window_width_iff
    {history : List Nat}
    (passed : Passed history)
    (seq : Nat) :
    let checked := (Execution.run commit new history).check seq
    (checked = .ok () ↔
        seq ∉ history ∧
          ∀ highest ∈ history.max?,
            highest < seq ∨ highest - seq < replayWindow) ∧
      ((checked = .ok () ↔
          seq ∉ history ∧
            ∀ highest ∈ history.max?,
              highest < seq ∨ highest - seq ≤ replayWindow) ↔
        ∀ highest ∈ history.max?,
          highest = seq + replayWindow → seq ∈ history) := by
  intro checked
  have accepted : checked = .ok () ↔ _ := passed.tracks.check_iff seq
  rw [accepted]
  cases isMax : history.max? with
  | none =>
      have isEmpty : history = [] := List.max?_eq_none_iff.mp isMax
      simp [isEmpty]
  | some highest =>
      have top := List.max?_eq_some_iff.mp isMax
      have bounded : (∀ other ∈ history, other < seq + replayWindow) ↔
            highest < seq + replayWindow :=
        ⟨fun below => below highest top.1,
          fun below other member =>
            Nat.lt_of_le_of_lt (top.2 other member) below⟩
      simp only [bounded, Option.mem_some_iff, forall_eq']
      by_cases committed : seq ∈ history
      · simp [committed]
      have wide : 0 < replayWindow := by
        decide
      simp only [committed, not_false_eq_true, true_and, imp_false]
      omega

theorem window_width_iff_of_small_history :
    Passed [0, 64, 3] ∧
      ((Execution.run commit new [0, 64, 3]).check 1 = .ok () ↔
        1 ∉ [0, 64, 3] ∧
          ∀ highest ∈ [0, 64, 3].max?,
            highest < 1 ∨ highest - 1 < replayWindow) :=
  ⟨by decide, (window_width_iff (by decide) 1).1⟩

theorem last_of_window_is_stale :
    Passed [64] ∧
      0 ∉ [64] ∧
      64 - 0 ≤ replayWindow ∧
      (Execution.run commit new [64]).check 0 = .error .replay := by
  decide

end ReplayWindow

end Fectp
