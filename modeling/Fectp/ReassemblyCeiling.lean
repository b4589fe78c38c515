import Mathlib.Data.List.Perm.Basic
import Fectp.ReassemblyTrace

namespace Fectp

/-!
# The ceiling

What is held of a message is compared with the ceiling after every fragment but
the one that completes it.  So a message above the ceiling is refused when its
last fragment comes early, and returned when it comes last.
-/

namespace Reassembly

/-- What is returned is within the ceiling. -/
def Within (table : Reassembly) (arrival : Arrival) : Prop :=
  ∀ whole,
    (table.accept arrival.fragment arrival.data).1 = .ok (some whole) →
      whole.length ≤ maxMessageLen

/--
A last fragment that is the only one its message lacks does not take the body
that is held over the ceiling.
-/
def Fits (table : Reassembly) (arrival : Arrival) : Prop :=
  ∀ assembling ∈ table.lookup arrival.fragment.message,
    assembling.count = arrival.fragment.count →
      arrival.fragment.isLast = true →
        assembling.arrived[arrival.fragment.index]? = some false →
          assembling.received + 1 = arrival.fragment.count →
            assembling.body.length + arrival.data.length ≤ maxMessageLen

/-- Every slot holds fragments of the length of a datagram. -/
def Small (table : Reassembly) : Prop :=
  ∀ assembling ∈ table.partials,
    assembling.Traced fun _ data => data.length ≤ maxValue 16

end Reassembly

namespace Partial

variable {assembling after : Partial} {fragment : Fragment} {data : Bytes}
  {outcome : Except Error (Option Bytes) × Option Partial}

/-- What is held once a fragment was offered was offered. -/
theorem Offered.traced
    {offered : Nat → Bytes → Prop} (offers : assembling.Offered fragment data outcome)
    (traced : assembling.Traced offered)
    (inside : fragment.index < fragment.count) (isOffered : offered fragment.index data) :
    ∀ after ∈ outcome.2, after.Traced offered := by
  cases offers with
  | again _ _ =>
    rintro _ ⟨⟩
    exact traced
  | recorded sameCount notYet marks _ _ =>
    rintro _ ⟨⟩
    exact traced.marks sameCount inside isOffered notYet marks
  | miscounted _ | odd _ _ _ _ | large _ _ _ _ | overfull _ _ _ _ _
  | completed _ _ _ _ => nofun

end Partial

namespace Reassembly

variable {table : Reassembly}

theorem Small.lookup (small : table.Small) (message : BitVec 32) :
    ∀ assembling ∈ table.lookup message,
      assembling.Traced fun _ data => data.length ≤ maxValue 16 :=
  fun assembling found => small assembling (List.mem_of_find?_eq_some found)

/-- What the caller hears of each fragment. -/
def results (table : Reassembly) :
    List Arrival → List (Except Error (Option Bytes))
  | [] =>
      []
  | arrival :: rest =>
      (table.accept arrival.fragment arrival.data).1 ::
        (table.step arrival).results rest

/-- Some fragment is refused as too large. -/
def Refuses (table : Reassembly) (arrivals : List Arrival) : Prop :=
  .error (.protocol .payloadTooLarge) ∈ table.results arrivals

/-- Every fragment of a message is among these. -/
def Covers (count : Nat) (pieces : List Arrival) : Prop :=
  ∀ index < count, ∃ piece ∈ pieces, piece.fragment.index = index

/-- What is held of a message is what has come of it. -/
structure Gathers
    (stride count : Nat)
    (came : Nat → Prop)
    (assembling : Partial) : Prop extends assembling.Even stride where
  isCount : assembling.count = count
  arrived :
    ∀ index < count, assembling.arrived[index]? = some true ↔ came index

section

variable {message : BitVec 32} {stride count : Nat} {came : Nat → Prop}
  {pieces : List Arrival} {assembling : Partial} {fragment : Fragment} {data : Bytes}
  {outcome : Except Error (Option Bytes) × Option Partial}

/-- A fragment that fits completes the message or is gathered. -/
theorem Gathers.offer
    (gathers : Gathers stride fragment.count came assembling)
    (inside : fragment.index < fragment.count) (suits : Partial.Suits stride fragment data)
    (offers : assembling.Offered fragment data outcome) :
    (∃ whole, outcome = (.ok (some whole), none) ∧ whole.length ≤ maxMessageLen ∧
        ∀ index < fragment.count, came index ∨ index = fragment.index) ∨
      ∃ after, outcome = (.ok none, some after) ∧
        Gathers stride fragment.count
          (fun index => came index ∨ index = fragment.index) after := by
  have isCount := gathers.isCount
  rcases gathers.toEven.offer isCount inside suits offers with
    ⟨already, isTaken⟩ | ⟨after, notYet, marks, takes⟩
  · refine Or.inr ⟨_, isTaken, { gathers with arrived := fun index below => ?_ }⟩
    rw [gathers.arrived index below]
    refine ⟨Or.inl, ?_⟩
    rintro (earlier | rfl)
    · exact earlier
    · exact (gathers.arrived _ below).mp already
  have arrived : ∀ index < fragment.count,
      after.arrived[index]? = some true ↔ came index ∨ index = fragment.index := by
    intro index below
    rw [marks.arrived_iff notYet, gathers.arrived index below]
  have sameCount := marks.frame.2.1.trans isCount
  rcases takes with ⟨full, small, completes⟩ | ⟨even, isTaken⟩
  · have shaped := gathers.toShaped.marks isCount inside notYet marks
    refine Or.inl ⟨_, completes, ?_, fun index below => ?_⟩
    · rw [List.length_append]
      exact small
    · exact (arrived index below).mp (shaped.every full (sameCount ▸ below))
  · exact Or.inr ⟨after, isTaken, { even with isCount := sameCount, arrived := arrived }⟩

end

/-- A fragment of zeros. -/
def blankPiece
    (count index len : Nat)
    (coherent : index < count ∧ count ≤ maxFragments) : Arrival where
  fragment := ⟨1, index, count⟩
  data := List.replicate len 0
  accepted := ⟨_, Fragment.decode_bytes coherent⟩

/-- Seventeen fragments of 65535 bytes, by index. -/
def overfull (index : Fin 17) : Arrival :=
  blankPiece 17 index 65535 ⟨index.isLt, by decide⟩

end Reassembly

end Fectp
