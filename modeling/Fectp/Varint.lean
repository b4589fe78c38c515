import Mathlib.Data.Nat.Basic
import Fectp.Error
import Fectp.LittleEndian

namespace Fectp

/-!
# Varints and the zigzag mapping

A 32-bit value is written seven bits to the byte, lowest first, with the top
bit of a byte saying that another follows.  Signed values are mapped to
unsigned ones that are small when they are near zero.
-/

namespace Varint

/-- Largest number of bytes a value can occupy. -/
def maxLen : Nat := 5

def zigzag (value : BitVec 32) : BitVec 32 :=
  (value <<< 1) ^^^ value.sshiftRight 31

def unzigzag (value : BitVec 32) : BitVec 32 :=
  (value >>> 1) ^^^ -(value &&& 1#32)

/-- The low seven bits of a value, as the byte they are written in. -/
def lowByte (value : BitVec 32) : UInt8 :=
  UInt8.ofBitVec ((value &&& 0x7f#32).setWidth 8)

/-- Writes a value into a buffer with this much room. -/
def encode : Nat → BitVec 32 → Except CoreError Bytes
  | 0, _ =>
      .error .bufferTooSmall
  | room + 1, value =>
      let byte := lowByte value
      let value := value >>> 7
      if value = 0#32 then
        .ok [byte]
      else
        match encode room value with
        | .error error =>
            .error error
        | .ok rest =>
            .ok ((byte ||| 0x80) :: rest)

/-- The loop of `decode`, from the byte at one position on. -/
def decodeFrom : Nat → BitVec 32 → Bytes → Except CoreError (BitVec 32 × Nat)
  | _, _, [] =>
      .error .badHeader
  | position, value, byte :: rest =>
      let shift := 7 * position
      let payload := (byte &&& 0x7f).toBitVec.setWidth 32
      if shift ≥ 32 ∨ (payload <<< shift) >>> shift ≠ payload then
        .error .badHeader
      else
        let value := value ||| payload <<< shift
        if byte &&& 0x80 = 0 then
          if position > 0 ∧ byte = 0 then
            .error .badHeader
          else
            .ok (value, position + 1)
        else
          decodeFrom (position + 1) value rest

/-- Reads a value, and says how many bytes it took. -/
def decode (input : Bytes) : Except CoreError (BitVec 32 × Nat) :=
  decodeFrom 0 0#32 (input.take maxLen)

/-! ### The mapping is reversed -/

variable (value : BitVec 32) {i : Nat} {bytes : Bytes}

/-- Shifting a value down to its sign leaves the sign in every bit. -/
theorem getLsbD_sign (inRange : i < 32) :
    (value.sshiftRight 31).getLsbD i = value.msb := by
  rw [BitVec.getLsbD_sshiftRight]
  by_cases isFirst : i = 0
  · subst isFirst
    simp [BitVec.msb_eq_getLsbD_last]
  · have beyond : ¬ 31 + i < 32 := by
      omega
    simp [beyond, inRange]

theorem getLsbD_zigzag (inRange : i < 32) :
    (zigzag value).getLsbD i = ((decide (0 < i) && value.getLsbD (i - 1)) ^^ value.msb) := by
  rw [zigzag, BitVec.getLsbD_xor, getLsbD_sign value inRange, BitVec.getLsbD_shiftLeft]
  by_cases isFirst : i = 0
  · simp [isFirst]
  · have positive : 0 < i := Nat.pos_of_ne_zero isFirst
    simp [inRange, positive, isFirst]

theorem getLsbD_mask (sign : Bool) (inRange : i < 32) :
    (-(if sign then 1#32 else 0#32)).getLsbD i = sign := by
  cases sign with
  | false => simp
  | true =>
    rw [if_pos rfl, BitVec.neg_one_eq_allOnes, BitVec.getLsbD_allOnes]
    exact decide_eq_true inRange

theorem getLsbD_unzigzag (inRange : i < 32) :
    (unzigzag value).getLsbD i = (value.getLsbD (1 + i) ^^ value.getLsbD 0) := by
  have low : value &&& 1#32 = if value.getLsbD 0 then 1#32 else 0#32 := by
    rw [BitVec.and_one_eq_setWidth_ofBool_getLsbD]
    cases value.getLsbD 0 <;> rfl
  rw [unzigzag, low, BitVec.getLsbD_xor, BitVec.getLsbD_ushiftRight, getLsbD_mask _ inRange]

theorem unzigzag_zigzag :
    unzigzag (zigzag value) = value := by
  apply BitVec.eq_of_getLsbD_eq
  intro i inRange
  have first : (zigzag value).getLsbD 0 = value.msb := by
    rw [getLsbD_zigzag value (by decide)]
    exact Bool.false_xor _
  rw [getLsbD_unzigzag _ inRange, first]
  by_cases isLast : i = 31
  · rw [isLast, BitVec.getLsbD_of_ge _ _ (by decide), Bool.false_xor]
    exact BitVec.msb_eq_getLsbD_last value
  have positive : 0 < 1 + i := by
    omega
  rw [getLsbD_zigzag value (by omega)]
  simp [positive]

/-- What a difference was taken of is got back from its code. -/
theorem add_unzigzag_sub (previous : BitVec 32) :
    previous + unzigzag (zigzag (value - previous)) = value := by
  rw [unzigzag_zigzag, BitVec.add_comm, BitVec.sub_add_cancel]

theorem zigzag_unzigzag :
    zigzag (unzigzag value) = value := by
  have sign : (unzigzag value).msb = value.getLsbD 0 := by
    rw [BitVec.msb_eq_getLsbD_last, getLsbD_unzigzag value (by decide),
      BitVec.getLsbD_of_ge value _ (by decide), Bool.false_xor]
  apply BitVec.eq_of_getLsbD_eq
  intro i inRange
  rw [getLsbD_zigzag _ inRange, sign]
  by_cases isFirst : i = 0
  · simp [isFirst]
  · have positive : 0 < i := Nat.pos_of_ne_zero isFirst
    rw [getLsbD_unzigzag value (by omega), Nat.add_sub_cancel' positive]
    simp [positive]

/-! ### Values are read back -/

theorem toNat_low :
    (value &&& 0x7f#32).toNat = value.toNat % 128 := by
  exact Nat.and_two_pow_sub_one_eq_mod value.toNat 7

theorem setWidth_lowByte :
    (lowByte value).toBitVec.setWidth 32 = value &&& 0x7f#32 := by
  apply BitVec.eq_of_toNat_eq
  have low := toNat_low value
  simp only [lowByte, BitVec.toNat_setWidth]
  omega

/-- The top bit of a written byte tells whether more follow. -/
theorem lowByte_bits :
    (lowByte value &&& 0x7f = lowByte value ∧ lowByte value &&& 0x80 = 0) ∧
      (lowByte value ||| 0x80) &&& 0x7f = lowByte value ∧
      (lowByte value ||| 0x80) &&& 0x80 ≠ 0 := by
  have allBytes : ∀ byte : BitVec 8, byte &&& 0x7f#8 = byte →
        byte &&& 0x80#8 = 0#8 ∧ (byte ||| 0x80#8) &&& 0x7f#8 = byte ∧
          (byte ||| 0x80#8) &&& 0x80#8 ≠ 0#8 := by
    decide
  have isLow : (value &&& 0x7f#32).setWidth 8 &&& 0x7f#8 = (value &&& 0x7f#32).setWidth 8 := by
    apply BitVec.eq_of_toNat_eq
    have low := toNat_low value
    rw [BitVec.toNat_and, BitVec.toNat_setWidth, low]
    have masks := Nat.and_two_pow_sub_one_eq_mod (value.toNat % 128 % 2 ^ 8) 7
    rw [show (0x7f#8).toNat = 2 ^ 7 - 1 from rfl, masks]
    omega
  obtain ⟨isLast, keeps, goesOn⟩ := allBytes _ isLow
  refine ⟨⟨?_, ?_⟩, ?_, ?_⟩
  · exact UInt8.toBitVec_inj.mp isLow
  · exact UInt8.toBitVec_inj.mp isLast
  · exact UInt8.toBitVec_inj.mp keeps
  · intro isZero
    exact goesOn (UInt8.toBitVec_inj.mpr isZero)

theorem getLsbD_low (i : Nat) :
    (value &&& 0x7f#32).getLsbD i = (decide (i < 7) && value.getLsbD i) := by
  rw [← BitVec.testBit_toNat, toNat_low, ← BitVec.testBit_toNat]
  exact Nat.testBit_mod_two_pow value.toNat 7 i

/-- Seven bits written in their place, and the others after them. -/
theorem low_or_rest (position : Nat) :
    (value &&& 0x7f#32) <<< (7 * position) ||| (value >>> 7) <<< (7 * (position + 1)) =
      value <<< (7 * position) := by
  apply BitVec.eq_of_getLsbD_eq
  intro i inRange
  rw [BitVec.getLsbD_or, BitVec.getLsbD_shiftLeft,
    BitVec.getLsbD_shiftLeft, BitVec.getLsbD_shiftLeft, getLsbD_low,
    BitVec.getLsbD_ushiftRight]
  by_cases before : i < 7 * position
  · have alsoBefore : i < 7 * (position + 1) := by
      omega
    simp [before, alsoBefore]
  by_cases inLow : i < 7 * (position + 1)
  · have inSeven : i - 7 * position < 7 := by
      omega
    simp [before, inLow, inSeven]
  · have beyond : ¬ i - 7 * position < 7 := by
      omega
    have sameBit : 7 + (i - 7 * (position + 1)) = i - 7 * position := by
      omega
    simp [before, inLow, beyond, sameBit]

/-- Bits that do not leave the word on the way up come back down. -/
theorem shift_back {value : BitVec 32} {shift : Nat} (fits : value.toNat < 2 ^ (32 - shift))
    (inRange : shift ≤ 32) :
    (value <<< shift) >>> shift = value := by
  apply BitVec.eq_of_toNat_eq
  have whole : value.toNat * 2 ^ shift < 2 ^ 32 := by
    calc
      value.toNat * 2 ^ shift
          < 2 ^ (32 - shift) * 2 ^ shift := Nat.mul_lt_mul_of_pos_right fits (Nat.two_pow_pos shift)
      _ = 2 ^ 32 := by
            rw [← Nat.pow_add, Nat.sub_add_cancel inRange]
  rw [BitVec.toNat_ushiftRight, BitVec.toNat_shiftLeft,
    Nat.shiftLeft_eq, Nat.mod_eq_of_lt whole, Nat.shiftRight_eq_div_pow,
    Nat.mul_div_cancel _ (Nat.two_pow_pos shift)]

theorem toNat_rest :
    (value >>> 7).toNat = value.toNat / 128 := by
  rw [BitVec.toNat_ushiftRight, Nat.shiftRight_eq_div_pow]

theorem rest_eq_zero {value : BitVec 32} (short : value.toNat < 128) :
    value >>> 7 = 0#32 := by
  apply BitVec.eq_of_toNat_eq
  rw [toNat_rest]
  exact Nat.div_eq_of_lt short

/-- Whatever was written at a position is read from there on. -/
theorem decodeFrom_encode {room : Nat} {value : BitVec 32} (encodes : encode room value = .ok bytes)
    {position : Nat} (fits : value.toNat < 2 ^ (32 - 7 * position))
    (inRange : position < maxLen) (isSome : 0 < position → value ≠ 0#32)
    (read : BitVec 32) (rest : Bytes) :
    decodeFrom position read (bytes ++ rest) =
      .ok (read ||| value <<< (7 * position), position + bytes.length) := by
  induction room generalizing value bytes position read with
  | zero => cases encodes
  | succ room inductionHypothesis =>
    have place : 7 * position < 32 := by
      unfold maxLen at inRange
      omega
    obtain ⟨⟨plain, isLast⟩, marked, goesOn⟩ := lowByte_bits value
    have lowFits : (value &&& 0x7f#32).toNat < 2 ^ (32 - 7 * position) := by
      rw [toNat_low]
      exact Nat.lt_of_le_of_lt (Nat.mod_le _ _) fits
    have accepted : ¬ (7 * position ≥ 32 ∨
          ((value &&& 0x7f#32) <<< (7 * position)) >>> (7 * position) ≠ value &&& 0x7f#32) := by
      rw [shift_back lowFits (Nat.le_of_lt place)]
      simp [Nat.not_le.mpr place]
    have splits := low_or_rest value position
    unfold encode at encodes
    dsimp only at encodes
    split at encodes
    · next isShort =>
        cases encodes
        rw [isShort, BitVec.zero_shiftLeft, BitVec.or_zero] at splits
        have notPadding : ¬ (position > 0 ∧ lowByte value = 0) := by
          rintro ⟨later, isZero⟩
          have low := setWidth_lowByte value
          rw [isZero] at low
          have isNothing := low_or_rest value 0
          rw [isShort, ← low] at isNothing
          exact isSome later (by simpa using isNothing.symm)
        rw [List.cons_append, List.nil_append, decodeFrom]
        simp only [plain, setWidth_lowByte, if_neg accepted, isLast, if_neg notPadding, if_true]
        rw [splits]
        rfl
    next isLong =>
    split at encodes
    · cases encodes
    next tail encodesTail =>
    cases encodes
    have notLast : position + 1 < maxLen := by
      by_contra isEnd
      have isFour : position = 4 := by
        unfold maxLen at inRange isEnd
        omega
      subst isFour
      exact isLong (rest_eq_zero (Nat.lt_trans fits (by decide)))
    have restFits : (value >>> 7).toNat < 2 ^ (32 - 7 * (position + 1)) := by
      have room : 32 - 7 * position = 7 + (32 - 7 * (position + 1)) := by
        unfold maxLen at notLast
        omega
      rw [room, Nat.pow_add] at fits
      rw [toNat_rest]
      exact Nat.div_lt_of_lt_mul fits
    rw [List.cons_append, decodeFrom]
    simp only [marked, setWidth_lowByte, if_neg accepted, if_neg goesOn]
    rw [inductionHypothesis encodesTail restFits notLast
      (fun _ => isLong), BitVec.or_assoc, splits,
      List.length_cons]
    congr 2
    omega

theorem encode_length {room : Nat} {value : BitVec 32} {bytes : Bytes}
    (encodes : encode room value = .ok bytes) {more : Nat}
    (fits : value.toNat < 2 ^ (7 * (more + 1))) :
    bytes.length ≤ more + 1 := by
  induction room generalizing value bytes more with
  | zero => cases encodes
  | succ room inductionHypothesis =>
    unfold encode at encodes
    dsimp only at encodes
    split at encodes
    · cases encodes
      exact Nat.succ_le_succ (Nat.zero_le more)
    next isLong =>
    split at encodes
    · cases encodes
    next tail encodesTail =>
    cases encodes
    cases more with
    | zero => exact absurd (rest_eq_zero fits) isLong
    | succ more =>
      refine Nat.succ_le_succ (inductionHypothesis encodesTail ?_)
      rw [toNat_rest]
      apply Nat.div_lt_of_lt_mul
      rwa [Nat.mul_succ, Nat.add_comm, Nat.pow_add] at fits

/-- A value that was written is read back, whatever follows it. -/
theorem decode_encode
    {room : Nat} {value : BitVec 32} (encodes : encode room value = .ok bytes) (rest : Bytes) :
    decode (bytes ++ rest) = .ok (value, bytes.length) := by
  have short : bytes.length ≤ maxLen :=
    @encode_length room value bytes encodes 4 (Nat.lt_trans value.isLt (by decide))
  have front : (bytes ++ rest).take maxLen = bytes ++ rest.take (maxLen - bytes.length) := by
    rw [List.take_append, List.take_of_length_le short]
  rw [decode, front, decodeFrom_encode encodes value.isLt (by decide) (by simp)]
  simp

theorem decodeFrom_used {position used : Nat} {read value : BitVec 32}
    (decodes : decodeFrom position read bytes = .ok (value, used)) :
    used ≤ position + bytes.length := by
  induction bytes generalizing position read with
  | nil => cases decodes
  | cons byte rest inductionHypothesis =>
    unfold decodeFrom at decodes
    dsimp only at decodes
    split at decodes
    · cases decodes
    split at decodes
    · split at decodes
      · cases decodes
      · cases decodes
        exact Nat.add_le_add_left (Nat.succ_le_succ (Nat.zero_le _)) _
    · have used := inductionHypothesis decodes
      rw [List.length_cons]
      omega

section

variable
    {input : Bytes}
    {value : BitVec 32}
    {used : Nat}
    (decodes : decode input = .ok (value, used))

include decodes

theorem decode_front :
    used ≤ min maxLen input.length := by
  have inFront := decodeFrom_used decodes
  rwa [Nat.zero_add, List.length_take] at inFront

theorem decode_short :
    used ≤ maxLen :=
  Nat.le_trans (decode_front decodes) (Nat.min_le_left _ _)

/-- No more is read than there is. -/
theorem decode_used :
    used ≤ input.length :=
  Nat.le_trans (decode_front decodes) (Nat.min_le_right _ _)

end

/-! ### Whatever is read is the writing of a value -/

/-- The payload of a byte, and what is left to make it whole. -/
theorem payload_bits (byte : UInt8) :
    ((byte &&& 0x7f).toBitVec.setWidth 32).toNat < 128 ∧
      (byte &&& 0x80 = 0 → byte &&& 0x7f = byte) ∧
      (byte &&& 0x80 ≠ 0 → (byte &&& 0x7f) ||| 0x80 = byte) := by
  have allBytes : ∀ byte : BitVec 8, (byte &&& 0x7f#8).toNat < 128 ∧
          (byte &&& 0x80#8 = 0#8 → byte &&& 0x7f#8 = byte) ∧
          (byte &&& 0x80#8 ≠ 0#8 → (byte &&& 0x7f#8) ||| 0x80#8 = byte) := by
    decide
  obtain ⟨small, plain, marked⟩ := allBytes byte.toBitVec
  refine ⟨?_, ?_, ?_⟩
  · rw [BitVec.toNat_setWidth]
    exact Nat.lt_of_le_of_lt (Nat.mod_le _ _) small
  · intro isLast
    exact UInt8.toBitVec_inj.mp (plain (congrArg UInt8.toBitVec isLast))
  · intro goesOn
    refine UInt8.toBitVec_inj.mp (marked ?_)
    exact fun isZero => goesOn (UInt8.toBitVec_inj.mp isZero)

/-- Seven bits and those after them are what they are put together from. -/
theorem of_low_and_rest
    {low rest : BitVec 32} (small : low.toNat < 128) (fits : rest.toNat < 2 ^ 25) :
    (low ||| rest <<< 7) &&& 0x7f#32 = low ∧ (low ||| rest <<< 7) >>> 7 = rest ∧
      (low ||| rest <<< 7).toNat = 128 * rest.toNat + low.toNat := by
  have whole : (low ||| rest <<< 7).toNat = 128 * rest.toNat + low.toNat := by
    rw [BitVec.toNat_or, BitVec.toNat_shiftLeft, Nat.shiftLeft_eq,
      Nat.mod_eq_of_lt (by omega), Nat.or_comm, Nat.mul_comm,
      ← Nat.two_pow_add_eq_or_of_lt small]
  refine ⟨?_, ?_, whole⟩
  · apply BitVec.eq_of_toNat_eq
    rw [toNat_low, whole]
    omega
  · apply BitVec.eq_of_toNat_eq
    rw [toNat_rest, whole]
    omega

/-- A byte's payload is written as itself. -/
theorem lowByte_of_low {value : BitVec 32} {byte : UInt8}
    (low : value &&& 0x7f#32 = (byte &&& 0x7f).toBitVec.setWidth 32) :
    lowByte value = byte &&& 0x7f := by
  unfold lowByte
  rw [low, BitVec.setWidth_setWidth_of_le _ (by decide), BitVec.setWidth_eq]

theorem lowByte_payload (byte : UInt8) :
    lowByte ((byte &&& 0x7f).toBitVec.setWidth 32) = byte &&& 0x7f := by
  apply lowByte_of_low
  have whole := (of_low_and_rest (payload_bits byte).1 (show (0#32).toNat < 2 ^ 25 by decide)).1
  rwa [BitVec.zero_shiftLeft, BitVec.or_zero] at whole

/-- What comes back down has not left the word on the way up. -/
theorem fits_of_shift_back {value : BitVec 32} {shift : Nat}
    (comesBack : (value <<< shift) >>> shift = value) (inRange : shift ≤ 32) :
    value.toNat < 2 ^ (32 - shift) := by
  rw [← comesBack, BitVec.toNat_ushiftRight, Nat.shiftRight_eq_div_pow]
  apply Nat.div_lt_of_lt_mul
  rw [← Nat.pow_add, Nat.add_sub_cancel' inRange]
  exact (value <<< shift).isLt

/-- What is read from a position on was written there, and in no other way. -/
theorem encode_decodeFrom {position used : Nat} {read whole : BitVec 32}
    (decodes : decodeFrom position read bytes = .ok (whole, used)) :
    ∃ value : BitVec 32, whole = read ||| value <<< (7 * position) ∧
        value.toNat < 2 ^ (32 - 7 * position) ∧
        (0 < position → value ≠ 0#32) ∧
        position < used ∧
        ∀ room, used ≤ position + room →
          encode room value = .ok (bytes.take (used - position)) := by
  induction bytes generalizing position read with
  | nil => cases decodes
  | cons byte rest inductionHypothesis =>
    obtain ⟨small, plain, marked⟩ := payload_bits byte
    unfold decodeFrom at decodes
    dsimp only at decodes
    split at decodes
    · cases decodes
    next accepted =>
    rw [not_or, not_not, Nat.not_le] at accepted
    have payloadFits := fits_of_shift_back accepted.2 (Nat.le_of_lt accepted.1)
    split at decodes
    · next isLast =>
        split at decodes
        · cases decodes
        next notPadding =>
        cases decodes
        refine ⟨_, rfl, payloadFits, ?_, Nat.lt_succ_self position, ?_⟩
        · intro later isZero
          refine notPadding ⟨later, ?_⟩
          rw [← plain isLast, ← lowByte_payload byte, isZero]
          rfl
        · intro room enough
          obtain ⟨room, rfl⟩ := Nat.exists_eq_add_of_le' (Nat.add_le_add_iff_left.mp enough)
          rw [encode]
          simp only [rest_eq_zero small, if_true, lowByte_payload]
          rw [plain isLast, Nat.add_sub_cancel_left]
          rfl
    next goesOn =>
    obtain ⟨value, isWhole, fits, isSome, later, encodes⟩ := inductionHypothesis decodes
    have isSome := isSome (Nat.succ_pos position)
    have isNext : 7 * (position + 1) < 32 := by
      by_contra beyond
      rw [Nat.sub_eq_zero_of_le (Nat.not_lt.mp beyond)] at fits
      exact isSome (BitVec.eq_of_toNat_eq (Nat.lt_one_iff.mp fits))
    have restFits : value.toNat < 2 ^ 25 :=
      Nat.lt_of_lt_of_le fits (Nat.pow_le_pow_right (by decide) (by omega))
    obtain ⟨isLow, isRest, isNat⟩ := of_low_and_rest small restFits
    have splits := low_or_rest ((byte &&& 0x7f).toBitVec.setWidth 32 ||| value <<< 7) position
    rw [isLow, isRest] at splits
    refine ⟨(byte &&& 0x7f).toBitVec.setWidth 32 ||| value <<< 7, ?_, ?_,
      ?_, Nat.lt_of_succ_lt later, ?_⟩
    · rw [isWhole, BitVec.or_assoc, splits]
    · have room : 32 - 7 * position = 7 + (32 - 7 * (position + 1)) := by
        omega
      rw [isNat, room, Nat.pow_add]
      omega
    · intro _ isZero
      rw [isZero] at isRest
      exact isSome isRest.symm
    · intro room enough
      obtain ⟨room, rfl⟩ : ∃ less, room = less + 1 := Nat.exists_eq_add_of_le' (by omega)
      have tail := encodes room (by omega)
      have count : used - position = (used - (position + 1)) + 1 := by
        omega
      rw [encode]
      simp only [isRest, if_neg isSome, tail]
      rw [lowByte_of_low isLow, marked goesOn, count]
      rfl

theorem encode_decode {input : Bytes} {value : BitVec 32} {used room : Nat}
    (decodes : decode input = .ok (value, used)) (enough : used ≤ room) :
    encode room value = .ok (input.take used) := by
  obtain ⟨read, isValue, _, _, _, encodes⟩ := encode_decodeFrom decodes
  rw [Nat.mul_zero, BitVec.shiftLeft_zero, BitVec.zero_or] at isValue
  rw [isValue, encodes room (by omega), List.take_take, Nat.sub_zero,
    Nat.min_eq_left (decode_short decodes)]

/-- With room for the longest value, any value is written. -/
theorem encode_total {value : BitVec 32} {room more : Nat}
    (fits : value.toNat < 2 ^ (7 * (more + 1))) (enough : more < room) :
    ∃ bytes, encode room value = .ok bytes := by
  induction room generalizing value more with
  | zero => exact absurd enough (Nat.not_lt_zero _)
  | succ room inductionHypothesis =>
    unfold encode
    dsimp only
    split
    · exact ⟨_, rfl⟩
    next isLong =>
    cases more with
    | zero => exact absurd (rest_eq_zero fits) isLong
    | succ more =>
      have restFits : (value >>> 7).toNat < 2 ^ (7 * (more + 1)) := by
        rw [toNat_rest]
        apply Nat.div_lt_of_lt_mul
        rwa [Nat.mul_succ, Nat.add_comm, Nat.pow_add] at fits
      obtain ⟨rest, encodes⟩ := inductionHypothesis restFits (Nat.lt_of_succ_lt_succ enough)
      exact ⟨_, by rw [encodes]⟩

/--
A value has one writing.  With room for it, any value is written, and read
back whatever follows; whatever is read, in no more bytes than the longest
value takes, is the writing of the value it is read as.  The mapping of signed
values is undone either way.
-/
theorem varints_canonical :
    (∀ value room,
        maxLen ≤ room →
        ∃ bytes,
          encode room value = .ok bytes ∧
            ∀ suffix,
              decode (bytes ++ suffix) = .ok (value, bytes.length)) ∧
      (∀ input value used,
        decode input = .ok (value, used) →
        used ≤ maxLen ∧
          used ≤ input.length ∧
          ∀ room,
            used ≤ room → encode room value = .ok (input.take used)) ∧
      (∀ value, unzigzag (zigzag value) = value) ∧
      ∀ value, zigzag (unzigzag value) = value := by
  refine ⟨?_, ?_, unzigzag_zigzag, zigzag_unzigzag⟩
  · intro value room enough
    have fits : value.toNat < 2 ^ (7 * (4 + 1)) :=
      Nat.lt_trans value.isLt (by decide)
    obtain ⟨bytes, encodes⟩ := encode_total fits enough
    exact ⟨bytes, encodes, decode_encode encodes⟩
  · intro input value used decodes
    exact ⟨decode_short decodes, decode_used decodes,
      fun room => encode_decode decodes⟩

/-! ### Small values are short -/

/-- The mapping doubles a value, and counts a negative one down from there. -/
theorem toNat_zigzag :
    ((zigzag value).toNat : Int) =
      if value.toInt < 0 then -2 * value.toInt - 1 else 2 * value.toInt := by
  have sign : value.sshiftRight 31 = if value.msb then BitVec.allOnes 32 else 0#32 := by
    apply BitVec.eq_of_getLsbD_eq
    intro i inRange
    rw [getLsbD_sign value inRange]
    cases value.msb with
    | false => simp
    | true =>
      rw [if_pos rfl, BitVec.getLsbD_allOnes]
      exact (decide_eq_true inRange).symm
  have range := value.isLt
  unfold zigzag
  rw [sign]
  cases isNegative : value.msb with
  | false =>
    have small : value.toNat < 2 ^ 31 := by
      have := BitVec.msb_eq_false_iff_two_mul_lt.mp isNegative
      omega
    have isInt : value.toInt = value.toNat := BitVec.toInt_eq_toNat_of_msb isNegative
    rw [if_neg Bool.false_ne_true, BitVec.xor_zero, isInt, BitVec.toNat_shiftLeft, Nat.shiftLeft_eq]
    omega
  | true =>
    have large : 2 ^ 31 ≤ value.toNat := by
      have := BitVec.msb_eq_true_iff_two_mul_ge.mp isNegative
      omega
    have isInt : value.toInt = value.toNat - 2 ^ 32 := by
      rw [BitVec.toInt_eq_toNat_cond]
      split
      · omega
      · rfl
    rw [if_pos rfl, BitVec.xor_allOnes, isInt, BitVec.toNat_not,
      BitVec.toNat_shiftLeft, Nat.shiftLeft_eq]
    omega

end Varint

end Fectp
