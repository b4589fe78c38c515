import Fectp.Chunks
import Fectp.Frame
import Mathlib.Order.Basic

namespace Fectp

open Chunks

/-!
# Putting a split message back together

A receiver keeps a few half-assembled messages, each one buffer indexed by
fragment number and a tail of its own length.  `Cutting` is a message and the
way the sender cuts it.
-/

/-- Messages a receiver will reassemble at once. -/
def maxReassemblies : Nat := 4

/-- One message being put back together. -/
structure Partial where
  message : BitVec 32
  count : Nat
  /-- Length of a fragment that is not the last, once one has come. -/
  stride : Option Nat
  body : Bytes
  tail : Bytes
  /-- Which fragments have come; the source's `have`. -/
  arrived : List Bool
  received : Nat
  deriving Repr, DecidableEq

namespace Partial

def new (message : BitVec 32) (count : Nat) : Partial where
  message := message
  count := count
  stride := none
  body := []
  tail := []
  arrived := List.replicate count false
  received := 0

/-- Bytes currently held, for the memory bound. -/
def held (assembling : Partial) : Nat :=
  assembling.body.length + assembling.tail.length

/-- The body grown with zeros to a length. -/
def grown (body : Bytes) (len : Nat) : Bytes :=
  if body.length < len then
    body ++ List.replicate (len - body.length) 0
  else
    body

/-- Puts the bytes of a fragment where they belong. -/
def place (assembling : Partial) (fragment : Fragment) (data : Bytes) :
    Except Error Partial :=
  if fragment.isLast then
    .ok { assembling with tail := data }
  else
    let stride := assembling.stride.getD data.length
    if data.length ≠ stride then
      .error (.protocol .badHeader)
    else
      let len := stride * (assembling.count - 1)
      if len > maxMessageLen then
        .error (.protocol .payloadTooLarge)
      else
        .ok
          { assembling with
            stride := some stride
            body :=
              overwrite (grown assembling.body len)
                (fragment.index * stride) data }

/--
Records one fragment, returning the whole message once it is complete.  The
caller drops the message on an error.
-/
def insert (assembling : Partial) (fragment : Fragment) (data : Bytes) :
    Except Error (Option Bytes × Partial) :=
  if assembling.arrived.getD fragment.index false then
    .ok (none, assembling)
  else
    match assembling.place fragment data with
    | .error error =>
        .error error
    | .ok placed =>
        let counted : Partial :=
          { placed with
            arrived := placed.arrived.set fragment.index true
            received := placed.received + 1 }
        if counted.received ≠ counted.count then
          .ok (none, counted)
        else
          .ok (some (counted.body ++ counted.tail), { counted with body := [] })

end Partial

/-- Partial messages, bounded in both count and bytes. -/
structure Reassembly where
  partials : List Partial
  deriving Repr, DecidableEq

namespace Reassembly

def new : Reassembly where
  partials := []

/-- The slot of the message a fragment belongs to, made if there is none. -/
def slotFor (reassembly : Reassembly) (fragment : Fragment) :
    Except Error Nat × Reassembly :=
  match reassembly.partials.findIdx?
      (fun assembling => assembling.message == fragment.message) with
  | some slot =>
      if (reassembly.partials[slot]?.map Partial.count) ≠
          some fragment.count then
        (.error (.protocol .badHeader), ⟨reassembly.partials.eraseIdx slot⟩)
      else
        (.ok slot, reassembly)
  | none =>
      -- The oldest is dropped rather than the newest refused.
      let kept :=
        if reassembly.partials.length ≥ maxReassemblies then
          reassembly.partials.eraseIdx 0
        else
          reassembly.partials
      (.ok kept.length, ⟨kept ++ [Partial.new fragment.message fragment.count]⟩)

/-- Folds one fragment in, returning the message once it is complete. -/
def accept (reassembly : Reassembly) (fragment : Fragment) (data : Bytes) :
    Except Error (Option Bytes) × Reassembly :=
  if fragment.count > maxFragments then
    (.error (.protocol .badHeader), reassembly)
  else
    match reassembly.slotFor fragment with
    | (.error error, reassembly) =>
        (.error error, reassembly)
    | (.ok slot, reassembly) =>
        match reassembly.partials[slot]? with
        | none =>
            (.ok none, reassembly)
        | some assembling =>
            match assembling.insert fragment data with
            | .error error =>
                (.error error, ⟨reassembly.partials.eraseIdx slot⟩)
            | .ok (some whole, _) =>
                (.ok (some whole), ⟨reassembly.partials.eraseIdx slot⟩)
            | .ok (none, assembling) =>
                if assembling.held > maxMessageLen then
                  (.error (.protocol .payloadTooLarge),
                    ⟨reassembly.partials.eraseIdx slot⟩)
                else
                  (.ok none, ⟨reassembly.partials.set slot assembling⟩)

end Reassembly

/-- A message and the way it is cut. -/
structure Cutting where
  data : Bytes
  size : Nat
  count : Nat
  positive : 0 < count
  few : count ≤ maxFragments
  starts : (count - 1) * size ≤ data.length
  covers : data.length ≤ count * size
  bounded : data.length ≤ maxMessageLen

namespace Cutting

/-- The bytes of one fragment. -/
def piece (cutting : Cutting) (index : Nat) : Bytes :=
  chunk cutting.size cutting.data index

/-- Every fragment before the last is whole. -/
theorem piece_length (cutting : Cutting) {index : Nat} (notLast : index + 1 < cutting.count) :
    (cutting.piece index).length = cutting.size := by
  apply chunk_length
  have steps : index + 1 ≤ cutting.count - 1 := by
    omega
  exact Nat.le_trans (Nat.mul_le_mul_right _ steps) cutting.starts

/-- The body and the last fragment are the message. -/
theorem take_append_last (cutting : Cutting) :
    cutting.data.take ((cutting.count - 1) * cutting.size) ++
        cutting.piece (cutting.count - 1) =
      cutting.data := by
  have rest : (cutting.data.drop ((cutting.count - 1) * cutting.size)).length ≤
        cutting.size := by
    have covers := cutting.covers
    rw [← Nat.sub_one_add_one cutting.positive.ne', Nat.succ_mul] at covers
    rw [List.length_drop]
    omega
  rw [piece, chunk, List.take_of_length_le rest]
  exact List.take_append_drop _ _

end Cutting

/-- The cut of a message the sender's count is right for, if it is. -/
def Cutting.of (data : Bytes) (size count : Nat) : Option Cutting :=
  if positive : 0 < count then
    if few : count ≤ maxFragments then
      if starts : (count - 1) * size ≤ data.length then
        if covers : data.length ≤ count * size then
          if bounded : data.length ≤ maxMessageLen then
            some
              { data := data, size := size, count := count
                positive := positive, few := few, starts := starts
                covers := covers, bounded := bounded }
          else none
        else none
      else none
    else none
  else none

/-- The number of fragments the sender settles on is right. -/
theorem Cutting.of_fragmentsNeeded
    {data : Bytes} {size count : Nat} (needed : fragmentsNeeded data.length size = some count) :
    ∃ cutting, Cutting.of data size count = some cutting ∧ cutting.data = data ∧
        cutting.size = size ∧
        cutting.count = count := by
  unfold fragmentsNeeded at needed
  split at needed
  · cases needed
  next cuttable =>
  rw [not_or] at cuttable
  obtain ⟨nonzero, small⟩ := cuttable
  dsimp only at needed
  split at needed
  · next fits =>
      cases needed
      have positive : 0 < max ((data.length + size - 1) / size) 1 :=
        Nat.lt_of_lt_of_le Nat.one_pos (Nat.le_max_right _ _)
      have sizePositive : 0 < size := Nat.pos_of_ne_zero nonzero
      have rounded := Nat.mul_div_le (data.length + size - 1) size
      have above := Nat.lt_mul_div_succ (data.length + size - 1) sizePositive
      generalize (data.length + size - 1) / size = quotient at *
      rw [Nat.mul_succ] at above
      have starts : (max quotient 1 - 1) * size ≤ data.length := by
        rw [Nat.sub_mul, Nat.mul_comm, Nat.one_mul]
        rcases Nat.le_total quotient 1 with few | several
        · rw [max_eq_right few]
          omega
        · rw [max_eq_left several]
          omega
      have covers : data.length ≤ max quotient 1 * size := by
        have grows := Nat.mul_le_mul_right size (Nat.le_max_left quotient 1)
        rw [Nat.mul_comm quotient] at grows
        omega
      refine ⟨⟨data, size, max quotient 1, positive, fits.2, starts,
        covers, Nat.le_of_not_lt small⟩, ?_, rfl, rfl, rfl⟩
      simp only [Cutting.of, positive, fits.2, starts, covers, Nat.le_of_not_lt small, dif_pos]
  · cases needed

end Fectp
