import Mathlib.Data.Nat.Basic

namespace Fectp

/-!
# Waking in time

A sleeper keeps the moment it means to wake at, if any.  It is in time for
another moment if it wakes no later; the earliest of a list of moments is in
time for each of them.
-/

/-- A wake set no later than a moment. -/
def InTime (wake : Option Nat) (moment : Nat) : Prop :=
  ∃ set, wake = some set ∧ set ≤ moment

namespace InTime

variable {wake : Option Nat} {moment later : Nat}

theorem mono (inTime : InTime wake moment) (isLater : moment ≤ later) :
    InTime wake later := by
  obtain ⟨set, isSet, le⟩ := inTime
  exact ⟨set, isSet, Nat.le_trans le isLater⟩

/-- The earliest of several moments is in time for each. -/
theorem min? {moments : List Nat} (member : moment ∈ moments) :
    InTime moments.min? moment := by
  cases isMin : moments.min? with
  | none =>
    rw [List.min?_eq_none_iff.mp isMin] at member
    cases member
  | some least => exact ⟨least, rfl, (List.min?_eq_some_iff.mp isMin).2 _ member⟩

/-- So is the earliest of several wakes for what each is in time for. -/
theorem filterMap
    {wakes : List (Option Nat)} (member : wake ∈ wakes) (inTime : InTime wake moment) :
    InTime (wakes.filterMap id).min? moment := by
  obtain ⟨set, rfl, le⟩ := inTime
  have isSet : set ∈ wakes.filterMap id := List.mem_filterMap.mpr ⟨some set, member, rfl⟩
  exact (InTime.min? isSet).mono le

end InTime

end Fectp
