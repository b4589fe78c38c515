import Mathlib.Algebra.Group.Nat.Defs
import Mathlib.Data.Nat.Basic

namespace Fectp

/-!
# Little-endian byte strings

Fixed-width integers on the wire, least significant byte first.  Values are
natural numbers; the width is the number of bytes written.  Reading inverts
writing on every value that fits.
-/

/-- A string of bytes. -/
abbrev Bytes := List UInt8

namespace LittleEndian

/-- The low `count` bytes of a value, least significant first. -/
def encode : Nat → Nat → Bytes
  | 0, _ =>
      []
  | count + 1, value =>
      UInt8.ofNat (value % 256) :: encode count (value / 256)

/-- The value a byte string denotes. -/
def decode : Bytes → Nat
  | [] =>
      0
  | byte :: rest =>
      byte.toNat + 256 * decode rest

@[simp] theorem encode_length (count value : Nat) :
    (encode count value).length = count := by
  induction count generalizing value with
  | zero => rfl
  | succ count inductionHypothesis => simp [encode, inductionHypothesis]

/-- Reading back a written value loses only what did not fit. -/
theorem decode_encode_mod (count value : Nat) :
    decode (encode count value) = value % 256 ^ count := by
  induction count generalizing value with
  | zero => simp [encode, decode, Nat.mod_one]
  | succ count inductionHypothesis =>
    have lowByte : (UInt8.ofNat (value % 256)).toNat = value % 256 := by
      simp
    calc
      decode (encode (count + 1) value) = value % 256 + 256 * (value / 256 % 256 ^ count) := by
            rw [encode, decode, lowByte, inductionHypothesis]
      _ = value % (256 * 256 ^ count) := Nat.mod_mul.symm
      _ = value % 256 ^ (count + 1) := by
            rw [Nat.pow_succ']

/-- A value that fits survives the round trip. -/
theorem decode_encode {count value : Nat} (fits : value < 256 ^ count) :
    decode (encode count value) = value := by
  rw [decode_encode_mod, Nat.mod_eq_of_lt fits]

/-- A byte string is what its value is written as. -/
theorem encode_decode (bytes : Bytes) :
    encode bytes.length (decode bytes) = bytes := by
  induction bytes with
  | nil => rfl
  | cons byte rest inductionHypothesis =>
    have byteBound : byte.toNat < 256 := byte.toNat_lt
    have low : (byte.toNat + 256 * decode rest) % 256 = byte.toNat := by
      omega
    have high : (byte.toNat + 256 * decode rest) / 256 = decode rest := by
      omega
    rw [decode, List.length_cons, encode, low, high, inductionHypothesis, UInt8.ofNat_toNat]

/-- A byte string denotes a value of its own width. -/
theorem decode_lt (bytes : Bytes) :
    decode bytes < 256 ^ bytes.length := by
  induction bytes with
  | nil => simp [decode]
  | cons byte rest inductionHypothesis =>
    have byteBound : byte.toNat < 256 := byte.toNat_lt
    simp only [decode, List.length_cons, Nat.pow_succ]
    omega

end LittleEndian

end Fectp
