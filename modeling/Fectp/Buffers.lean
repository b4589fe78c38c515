import Mathlib.Logic.Basic
import Fectp.Chunks

namespace Fectp

/-!
# Buffers with checked ranges

Reading and writing outside a buffer ends a computation, apart from the errors
it may end with on its own account.  `Safe` says of a computation that it never
leaves its buffers and that what it returns is as it should be; loops that are
made of safe steps are safe.
-/

/-- Why a computation ended early. -/
inductive Halt (ε : Type*) where
  /-- A buffer was read or written outside its range. -/
  | outOfRange
  | failed (error : ε)
  deriving Repr, DecidableEq

namespace Buffer

universe u

variable {α σ : Type u} {ε : Type*}

/-- What follows a position. -/
def sliceFrom (buffer : List α) (start : Nat) : Except (Halt ε) (List α) :=
  if start ≤ buffer.length then
    .ok (buffer.drop start)
  else
    .error .outOfRange

/-- The first items. -/
def sliceTo (buffer : List α) (len : Nat) : Except (Halt ε) (List α) :=
  if len ≤ buffer.length then
    .ok (buffer.take len)
  else
    .error .outOfRange

/-- What lies between two positions. -/
def slice (buffer : List α) (start stop : Nat) : Except (Halt ε) (List α) :=
  if start ≤ stop ∧ stop ≤ buffer.length then
    .ok ((buffer.drop start).take (stop - start))
  else
    .error .outOfRange

/-- What lies before a position, and what follows it. -/
def splitAt (buffer : List α) (place : Nat) :
    Except (Halt ε) (List α × List α) :=
  if place ≤ buffer.length then
    .ok (buffer.take place, buffer.drop place)
  else
    .error .outOfRange

def read (buffer : List α) (index : Nat) : Except (Halt ε) α :=
  match buffer[index]? with
  | none =>
      .error .outOfRange
  | some item =>
      .ok item

def write (buffer : List α) (start : Nat) (piece : List α) :
    Except (Halt ε) (List α) :=
  if start + piece.length ≤ buffer.length then
    .ok (Chunks.overwrite buffer start piece)
  else
    .error .outOfRange

/-- An outcome that has no buffers to leave. -/
def lift : Except ε α → Except (Halt ε) α
  | .error error =>
      .error (.failed error)
  | .ok value =>
      .ok value

/-- Copies what lies between two positions to a third. -/
def copyWithin (buffer : List α) (start stop place : Nat) :
    Except (Halt ε) (List α) := do
  let piece ← slice buffer start stop
  write buffer place piece

/-- The outcome of a computation that has not left its buffers. -/
def outcome : Except (Halt ε) α → Option (Except ε α)
  | .ok value =>
      some (.ok value)
  | .error (.failed error) =>
      some (.error error)
  | .error .outOfRange =>
      none

/-- The same outcome, with its own errors reported as others. -/
def mapError {δ : Type*} (report : ε → δ) :
    Except (Halt ε) α → Except (Halt δ) α
  | .ok value =>
      .ok value
  | .error (.failed error) =>
      .error (.failed (report error))
  | .error .outOfRange =>
      .error .outOfRange

/-- A computation that returns went through its first part. -/
theorem bind_eq_ok {first : Except (Halt ε) α} {rest : α → Except (Halt ε) σ} {result : σ} :
    (first >>= rest) = .ok result ↔ ∃ value, first = .ok value ∧ rest value = .ok result := by
  cases first with
  | error halt =>
    refine iff_of_false (nomatch ·) ?_
    rintro ⟨_, impossible, _⟩
    cases impossible
  | ok value =>
    refine ⟨fun returns => ⟨value, rfl, returns⟩, ?_⟩
    rintro ⟨_, isValue, returns⟩
    cases isValue
    exact returns

theorem lift_eq_ok {outcome : Except ε α} {value : α} :
    lift outcome = .ok value ↔ outcome = .ok value := by
  cases outcome with
  | error error => exact iff_of_false (nomatch ·) (nomatch ·)
  | ok found => simp [lift]

@[simp] theorem outcome_lift (computed : Except ε α) :
    outcome (lift computed) = some computed := by
  cases computed <;> rfl

@[simp] theorem lift_ok_bind (value : α) (rest : α → Except (Halt ε) σ) :
    (lift (.ok value) >>= rest) = rest value :=
  rfl

variable {buffer : List α} {start len : Nat} {Holds : α → Prop}
  {outcome : Except (Halt ε) α}

theorem read_of_lt {index : Nat} (inRange : index < buffer.length) (default : α) :
    read (ε := ε) buffer index = lift (.ok (buffer.getD index default)) := by
  simp [read, lift, List.getElem?_eq_getElem inRange]

theorem slice_of_le (inRange : start + len ≤ buffer.length) :
    slice (ε := ε) buffer start (start + len) = lift (.ok ((buffer.drop start).take len)) := by
  unfold slice
  rw [if_pos ⟨Nat.le_add_right _ _, inRange⟩, Nat.add_sub_cancel_left]
  rfl

theorem splitAt_of_le {place : Nat} (inRange : place ≤ buffer.length) :
    splitAt (ε := ε) buffer place = lift (.ok (buffer.take place, buffer.drop place)) :=
  if_pos inRange

theorem copyWithin_front (inRange : start + len ≤ buffer.length) :
    copyWithin (ε := ε) buffer start (start + len) 0 =
      lift (.ok ((buffer.drop start).take len ++ buffer.drop len)) := by
  have length : ((buffer.drop start).take len).length = len := by
    rw [List.length_take, List.length_drop]
    omega
  unfold copyWithin write Chunks.overwrite
  rw [slice_of_le inRange, lift_ok_bind, Nat.zero_add, length,
    if_pos (Nat.le_of_add_left_le inRange), List.take_zero, List.nil_append]
  rfl

theorem sliceFrom_eq_ok {slice : List α} :
    sliceFrom (ε := ε) buffer start = .ok slice ↔
      start ≤ buffer.length ∧ slice = buffer.drop start := by
  unfold sliceFrom
  split
  · next inRange => simp [inRange, eq_comm]
  · next outside => exact iff_of_false (nomatch ·) fun inside => outside inside.1

theorem sliceTo_eq_ok {slice : List α} :
    sliceTo (ε := ε) buffer len = .ok slice ↔ len ≤ buffer.length ∧ slice = buffer.take len := by
  unfold sliceTo
  split
  · next inRange => simp [inRange, eq_comm]
  · next outside => exact iff_of_false (nomatch ·) fun inside => outside inside.1

theorem write_eq_ok {piece written : List α} :
    write (ε := ε) buffer start piece = .ok written ↔
      start + piece.length ≤ buffer.length ∧ written = Chunks.overwrite buffer start piece := by
  unfold write
  split
  · next inRange => simp [inRange, eq_comm]
  · next outside => exact iff_of_false (nomatch ·) fun inside => outside inside.1

/-! ### Safety -/

/-- No buffer is left, and what is returned is as it should be. -/
def Safe (Holds : α → Prop) : Except (Halt ε) α → Prop
  | .ok value =>
      Holds value
  | .error (.failed _) =>
      True
  | .error .outOfRange =>
      False

theorem Safe.bind {First : α → Prop} {Holds : σ → Prop} {first : Except (Halt ε) α}
    {rest : α → Except (Halt ε) σ} (safe : Safe First first)
    (continues : ∀ value, First value → Safe Holds (rest value)) :
    Safe Holds (first >>= rest) := by
  match first, safe with
  | .ok value, holds => exact continues value holds
  | .error (.failed _), _ => trivial

theorem Safe.mono
    {First : α → Prop} (safe : Safe First outcome) (implies : ∀ value, First value → Holds value) :
    Safe Holds outcome := by
  match outcome, safe with
  | .ok value, holds => exact implies value holds
  | .error (.failed _), _ => trivial

theorem Safe.cases (safe : Safe Holds outcome) :
    (∃ error, outcome = .error (.failed error)) ∨ ∃ value, outcome = .ok value ∧ Holds value := by
  match outcome, safe with
  | .ok value, holds => exact Or.inr ⟨value, rfl, holds⟩
  | .error (.failed error), _ => exact Or.inl ⟨error, rfl⟩

theorem lift_safe (outcome : Except ε α) :
    Safe (outcome = .ok ·) (lift outcome) := by
  cases outcome with
  | error error => trivial
  | ok value => exact rfl

theorem Safe.mapError {δ : Type*} (safe : Safe Holds outcome) (report : ε → δ) :
    Safe Holds (mapError report outcome) := by
  match outcome, safe with
  | .ok value, holds => exact holds
  | .error (.failed _), _ => trivial

theorem sliceFrom_safe (inRange : start ≤ buffer.length) :
    Safe (ε := ε) (· = buffer.drop start) (sliceFrom buffer start) := by
  rw [sliceFrom_eq_ok.mpr ⟨inRange, rfl⟩]
  exact rfl

theorem write_safe {piece : List α} (inRange : start + piece.length ≤ buffer.length) :
    Safe (ε := ε) (·.length = buffer.length) (write buffer start piece) := by
  rw [write_eq_ok.mpr ⟨inRange, rfl⟩]
  exact Chunks.overwrite_length inRange

/-! ### Chunks put back -/

section Restoring

variable {size capacity : Nat} {items front back : List α}
  {indices others : List Nat}

/--
Wherever a piece stands in what is read, a reader goes past it and puts the
chunks of a list at some indices in their places of a buffer.
-/
def Restores
    (size capacity : Nat)
    (items piece : List α)
    (indices : List Nat)
    (reader : List α → Nat → List α → Except (Halt ε) (Nat × List α)) :
    Prop :=
  ∀ before after out marked,
    out.length = capacity →
    Chunks.Agrees size items out marked →
    ∃ written,
      reader (before ++ (piece ++ after)) before.length out =
          .ok (before.length + piece.length, written) ∧
        written.length = capacity ∧
        Chunks.Agrees size items written fun index =>
          marked index ∨ index ∈ indices

theorem Restores.nil :
    Restores (ε := ε) size capacity items [] [] fun _ read out => .ok (read, out) := by
  intro before after out marked isCapacity agrees
  refine ⟨out, rfl, isCapacity, fun index marks => agrees index ?_⟩
  exact marks.resolve_right List.not_mem_nil

variable {reader rest : List α → Nat → List α →
  Except (Halt ε) (Nat × List α)}

/-- One chunk is put back, and the others are behind it. -/
theorem Restores.cons {index : Nat} (restores : Restores size capacity items back indices rest)
    (whole : (index + 1) * size ≤ capacity) (fits : (Chunks.chunk size items index).length = size)
    (steps : ∀ before after out, out.length = capacity →
        reader (before ++ (front ++ after)) before.length out =
          rest (before ++ front ++ after) (before ++ front).length
            (Chunks.overwrite out (index * size) (Chunks.chunk size items index))) :
    Restores size capacity items (front ++ back) (index :: indices) reader := by
  intro before after out marked isCapacity agrees
  subst isCapacity
  have inside : index * size + (Chunks.chunk size items index).length ≤
        out.length := by
    rw [fits, ← Nat.succ_mul]
    exact whole
  obtain ⟨written, reads, sameLength, isWritten⟩ :=
    restores (before ++ front) after _ _ (Chunks.overwrite_length inside)
      (agrees.overwrite whole fits)
  refine ⟨written, ?_, sameLength, fun other marks => isWritten other ?_⟩
  · rw [List.append_assoc front, steps _ _ _ rfl, reads, List.length_append,
      List.length_append, Nat.add_assoc]
  · simpa only [List.mem_cons, or_assoc] using marks

/-- Some chunks are put back after others. -/
theorem Restores.append (restores : Restores size capacity items front indices reader)
    (restoresRest : Restores size capacity items back others rest) :
    Restores size capacity items (front ++ back) (indices ++ others) fun input read out =>
        reader input read out >>= fun (read, out) => rest input read out := by
  intro before after out marked isCapacity agrees
  obtain ⟨middle, reads, middleLength, isMiddle⟩ :=
    restores before (back ++ after) out marked isCapacity agrees
  obtain ⟨written, readsRest, sameLength, isWritten⟩ :=
    restoresRest (before ++ front) after middle _ middleLength isMiddle
  refine ⟨written, ?_, sameLength, fun other marks => isWritten other ?_⟩
  · dsimp only
    rw [List.append_assoc, List.length_append] at readsRest
    rw [List.append_assoc front, reads, List.length_append, ← Nat.add_assoc]
    exact readsRest
  · simpa only [List.mem_append, or_assoc] using marks

end Restoring

end Buffer

end Fectp
