import Mathlib.Data.Nat.Basic
import Mathlib.Tactic.Ring

namespace Fectp

/-!
# Serial numbers

A counter that never wraps is transmitted modulo `2 ^ w`.  Two counter values
less than half the space apart can still be told apart, ordered, and measured
from their transmitted residues alone.
-/

namespace SerialNumber

variable {w : Nat}

/-- The transmitted residue of an unbounded counter value. -/
def serial (w counter : Nat) : BitVec w :=
  BitVec.ofNat w counter

/-- The residue of the next counter value is the wrapping successor. -/
theorem serial_succ (counter : Nat) :
    serial w (counter + 1) = serial w counter + 1 := by
  apply BitVec.eq_of_toNat_eq
  simp [serial, BitVec.toNat_add]

/-- Wrapping subtraction measures the distance back to an earlier counter. -/
theorem toNat_serial_sub
    {earlier later : Nat} (ordered : earlier ≤ later) (close : later - earlier < 2 ^ w) :
    (serial w later - serial w earlier).toNat = later - earlier := by
  obtain ⟨distance, rfl⟩ := Nat.exists_eq_add_of_le ordered
  have near : distance < 2 ^ w := by omega
  have shifted : serial w (earlier + distance) - serial w earlier = BitVec.ofNat w distance := by
    rw [serial, serial, BitVec.ofNat_add, BitVec.add_comm, BitVec.add_sub_cancel]
  rw [shifted, BitVec.toNat_ofNat, Nat.mod_eq_of_lt near]
  omega

/-- Subtracting a later counter wraps all the way round the space. -/
theorem toNat_serial_sub_of_lt
    {earlier later : Nat} (ordered : earlier < later) (close : later - earlier < 2 ^ w) :
    (serial w earlier - serial w later).toNat = 2 ^ w - (later - earlier) := by
  have forward := toNat_serial_sub (w := w) ordered.le close
  have negated : serial w earlier - serial w later = -(serial w later - serial w earlier) := by
    rw [BitVec.neg_sub, BitVec.sub_eq_add_neg, BitVec.add_comm]
  rw [negated, BitVec.toNat_neg, forward, Nat.mod_eq_of_lt]
  omega

/-- Counters closer than the whole space share a residue only when equal. -/
theorem serial_inj
    {first second : Nat} (close : first - second < 2 ^ w) (close' : second - first < 2 ^ w) :
    serial w first = serial w second ↔ first = second := by
  constructor
  · intro same
    rcases Nat.le_total second first with ordered | ordered
    · have distance := toNat_serial_sub (w := w) ordered close
      rw [same, BitVec.sub_self] at distance
      simp at distance
      omega
    · have distance := toNat_serial_sub (w := w) ordered close'
      rw [same, BitVec.sub_self] at distance
      simp at distance
      omega
  · rintro rfl
    rfl

end SerialNumber

end Fectp
