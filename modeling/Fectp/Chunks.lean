import Mathlib.Data.List.Basic

namespace Fectp

/-!
# Lists cut into chunks of one size

A list is cut into consecutive chunks of a fixed size, the last one shorter.
The chunks are written back into a buffer at their own offsets, in any order.
`Agrees` says which chunks of a buffer are already those of the list; writing
a chunk extends it, and a buffer that agrees everywhere is the list's front.
-/

namespace Chunks

variable {α : Type*}

/-- The chunk at one index. -/
def chunk (size : Nat) (items : List α) (index : Nat) : List α :=
  (items.drop (index * size)).take size

/-- The list with one stretch replaced. -/
def overwrite (items : List α) (start : Nat) (piece : List α) : List α :=
  items.take start ++ (piece ++ items.drop (start + piece.length))

variable {size index : Nat} {items piece buffer : List α}
  {marked : Nat → Prop}

theorem chunk_length (whole : (index + 1) * size ≤ items.length) :
    (chunk size items index).length = size := by
  have bound : index * size + size ≤ items.length := by
    rwa [Nat.succ_mul] at whole
  rw [chunk, List.length_take, List.length_drop]
  omega

theorem overwrite_length {start : Nat} (inside : start + piece.length ≤ items.length) :
    (overwrite items start piece).length = items.length := by
  simp only [overwrite, List.length_append, List.length_take, List.length_drop]
  omega

/-- What was written is read back. -/
theorem chunk_overwrite_same
    (whole : (index + 1) * size ≤ items.length) (fits : piece.length = size) :
    chunk size (overwrite items (index * size) piece) index = piece := by
  have front : (items.take (index * size)).length = index * size := by
    rw [List.length_take]
    rw [Nat.succ_mul] at whole
    omega
  rw [chunk, overwrite, List.drop_left' front, ← fits, List.take_left]

/-- Every other chunk is untouched. -/
theorem chunk_overwrite_other {other : Nat} (whole : (index + 1) * size ≤ items.length)
    (fits : piece.length = size) (different : other ≠ index) :
    chunk size (overwrite items (index * size) piece) other = chunk size items other := by
  apply List.ext_getElem?
  intro position
  by_cases inside : position < size
  · have outside : other * size + position < index * size ∨
          index * size + size ≤ other * size + position := by
      rcases Nat.lt_or_gt_of_ne different with below | above
      · have := Nat.mul_le_mul_right size (Nat.succ_le_of_lt below)
        rw [Nat.succ_mul] at this
        omega
      · have := Nat.mul_le_mul_right size (Nat.succ_le_of_lt above)
        rw [Nat.succ_mul] at this
        omega
    have front : (items.take (index * size)).length = index * size := by
      rw [List.length_take]
      rw [Nat.succ_mul] at whole
      omega
    simp only [chunk, List.getElem?_take, inside, if_true, List.getElem?_drop, overwrite]
    rcases outside with below | above
    · rw [List.getElem?_append_left (by omega), List.getElem?_take, if_pos below]
    rw [List.getElem?_append_right (by omega), front,
      List.getElem?_append_right (by omega), List.getElem?_drop]
    congr 1
    omega
  · simp only [chunk, List.getElem?_take, inside, if_false]

/-- The buffer's marked chunks are those of the list. -/
def Agrees
    (size : Nat)
    (items buffer : List α)
    (marked : Nat → Prop) : Prop :=
  ∀ index, marked index → chunk size buffer index = chunk size items index

/-- Writing a chunk of the list marks it. -/
theorem Agrees.overwrite
    (agrees : Agrees size items buffer marked) (whole : (index + 1) * size ≤ buffer.length)
    (fits : (chunk size items index).length = size) :
    Agrees size items (Chunks.overwrite buffer (index * size) (chunk size items index))
      (fun other => marked other ∨ other = index) := by
  intro other member
  by_cases same : other = index
  · rw [same]
    exact chunk_overwrite_same whole fits
  · rw [chunk_overwrite_other whole fits same]
    exact agrees other (member.resolve_right same)

/-- Where a buffer agrees from its start on, it has the list's front. -/
theorem Agrees.take_eq {count : Nat} (agrees : Agrees size items buffer marked)
    (everywhere : ∀ index, index < count → marked index) :
    buffer.take (count * size) = items.take (count * size) := by
  rcases Nat.eq_zero_or_pos size with rfl | positive
  · rfl
  apply List.ext_getElem?
  intro position
  rw [List.getElem?_take, List.getElem?_take]
  by_cases inside : position < count * size
  · have index : position / size < count :=
      Nat.div_lt_of_lt_mul (by rwa [Nat.mul_comm] at inside)
    have same := congrArg (·[position % size]?) (agrees _ (everywhere _ index))
    have offset : position / size * size + position % size = position :=
      Nat.div_add_mod' position size
    simp only [chunk, List.getElem?_take, List.getElem?_drop,
      Nat.mod_lt _ positive, if_true, offset] at same
    rw [if_pos inside, if_pos inside, same]
  · rw [if_neg inside, if_neg inside]

/-- A buffer that agrees everywhere is the front of the list. -/
theorem Agrees.eq_take {count : Nat} (agrees : Agrees size items buffer marked)
    (everywhere : ∀ index, index < count → marked index) (length : buffer.length = count * size) :
    buffer = items.take (count * size) := by
  rw [← agrees.take_eq everywhere, ← length, List.take_length]

end Chunks

end Fectp
