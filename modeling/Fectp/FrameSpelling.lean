import Fectp.Acknowledgements
import Fectp.PayloadCoding

namespace Fectp

/-!
# The blocks of a frame have one spelling

The header, the fragment descriptor, the acknowledgement block and the codec
header are blocks of fixed width at the front of what carries them.  What each
is read as is what its bytes spell, and no other bytes are read as the same.
-/

namespace LittleEndian

/-- A word holds its number, whatever follows it. -/
theorem toNat_word {count width : Nat} (isWidth : 256 ^ count = 2 ^ width) (input : Bytes) :
    (BitVec.ofNat width (decode (input.take count))).toNat = decode (input.take count) := by
  have short : (input.take count).length ≤ count := List.length_take_le ..
  have bound := decode_lt (input.take count)
  rw [BitVec.toNat_ofNat, ← isWidth]
  exact Nat.mod_eq_of_lt (bound.trans_le (Nat.pow_le_pow_right (by decide) short))

/-- A word that is all there is written as it stands. -/
theorem word_append_drop {count : Nat} {input : Bytes} (fits : count ≤ input.length) :
    encode count (decode (input.take count)) ++ input.drop count = input := by
  have written := encode_decode (input.take count)
  rw [List.length_take_of_le fits] at written
  rw [written, List.take_append_drop]

/-- Two words at the front of an input. -/
theorem words_append_drop
    {first second : Nat} {input : Bytes} (fits : first + second ≤ input.length) :
    encode first (decode (input.take first)) ++
        encode second (decode ((input.drop first).take second)) ++ input.drop (first + second) =
      input := by
  have rest : second ≤ (input.drop first).length := by
    rw [List.length_drop]
    omega
  rw [List.append_assoc, ← List.drop_drop, word_append_drop rest, word_append_drop (by omega)]

end LittleEndian

namespace Header

/-- The flags are defined ones, and the sequence number is a `u64`. -/
def Fits (header : Header) : Prop :=
  header.flags &&& ~~~knownFlags = 0 ∧ header.sequence < 2 ^ 64

/-- The first byte of a header is its version and its type. -/
theorem first_of_fromBits {byte : UInt8} {frameType : FrameType} (versioned : byte >>> 4 = version)
    (typed : FrameType.fromBits (byte &&& 0x0f) = .ok frameType) :
    version <<< 4 ||| frameType.toBits = byte := by
  have allBytes : ∀ byte : BitVec 8, UInt8.ofBitVec byte >>> 4 = version →
        ((FrameType.fromBits (UInt8.ofBitVec byte &&& 0x0f)).toOption.all fun frameType =>
          version <<< 4 ||| frameType.toBits == UInt8.ofBitVec byte) = true := by
    decide +kernel
  simpa [typed, Except.toOption] using allBytes byte.toBitVec versioned

theorem decode_iff (input : Bytes) (header : Header) :
    decode input = .ok header ↔ header.Fits ∧ header.bytes <+: input := by
  constructor
  · intro decoded
    have fits := decode_sequence_le decoded
    unfold decode at decoded
    split at decoded
    · cases decoded
    next longEnough =>
    split at decoded
    · cases decoded
    next versioned =>
    split at decoded
    · cases decoded
    next frameType typed =>
    split at decoded
    · cases decoded
    next known =>
    cases decoded
    refine ⟨⟨not_not.mp known, Nat.lt_of_le_pred (by decide) fits⟩, ?_⟩
    rcases input with _ | ⟨first, _ | ⟨second, rest⟩⟩
    · exact absurd (by decide) longEnough
    · simp [headerLen] at longEnough
    have restLength : 4 + 8 ≤ rest.length := by
      simpa [headerLen] using longEnough
    have isFirst := first_of_fromBits (not_not.mp versioned) typed
    have words := LittleEndian.words_append_drop restLength
    rw [← LittleEndian.toNat_word (by decide : 256 ^ 4 = 2 ^ 32)] at words
    exact ⟨rest.drop (4 + 8), congrArg₂ List.cons isFirst (congrArg (second :: ·) words)⟩
  · rintro ⟨fits, rest, rfl⟩
    exact decode_bytes_append header rest fits.1 fits.2

end Header

namespace Fragment

theorem decode_take {input : Bytes} (long : 8 ≤ input.length) :
    decode (input.take 8) = decode input := by
  simp [decode, fragmentLen, List.take_take, List.drop_take, long]

theorem decode_iff (input : Bytes) (fragment : Fragment) :
    decode input = .ok fragment ↔ fragment.Coherent ∧ fragment.bytes <+: input := by
  constructor
  · intro decoded
    unfold decode at decoded
    split at decoded
    · cases decoded
    next longEnough =>
    dsimp only at decoded
    split at decoded
    · cases decoded
    next accepted =>
    cases decoded
    have long : 8 ≤ input.length := by
      simpa [fragmentLen] using longEnough
    have restLength : 2 + 2 ≤ (input.drop 4).length := by
      rw [List.length_drop]
      omega
    have words := LittleEndian.words_append_drop restLength
    refine ⟨?_, input.drop 8, ?_⟩
    · unfold Coherent
      dsimp only
      omega
    rw [bytes, LittleEndian.toNat_word (by decide), List.append_assoc]
    refine Eq.trans (congrArg _ ?_) (LittleEndian.word_append_drop (by omega))
    rw [List.drop_drop, List.drop_drop] at words
    exact words
  · rintro ⟨coherent, rest, rfl⟩
    have isFront : (fragment.bytes ++ rest).take 8 = fragment.bytes :=
      List.take_left' fragment.bytes_length
    exact decode_bytes coherent

end Fragment

namespace Ack

theorem decode_iff (input : Bytes) (ack : Ack) :
    decode input = .ok ack ↔ ack.bytes <+: input := by
  constructor
  · intro decoded
    unfold decode at decoded
    split at decoded
    · cases decoded
    next longEnough =>
    cases decoded
    have long : 4 + 8 ≤ input.length := by
      simpa [ackBlockLen] using longEnough
    have words := LittleEndian.words_append_drop long
    rw [← LittleEndian.toNat_word (by decide : 256 ^ 4 = 2 ^ 32),
      ← LittleEndian.toNat_word (by decide : 256 ^ 8 = 2 ^ 64)] at words
    exact ⟨_, words⟩
  · rintro ⟨rest, rfl⟩
    exact ack.decode_bytes_append rest

end Ack

namespace CodecHeader

/-- The first byte of a codec header is its transform and its entropy coder. -/
theorem first_of_fromBits {byte : UInt8} {transform : Transform} {entropy : Entropy}
    (transformed : Transform.fromBits (byte &&& 0x0f) = .ok transform)
    (coded : Entropy.fromBits (byte >>> 4) = .ok entropy) :
    transform.toBits ||| (entropy.toBits <<< 4) = byte := by
  have allBytes : ∀ byte : BitVec 8,
      ((Transform.fromBits (UInt8.ofBitVec byte &&& 0x0f)).toOption.all fun transform =>
        (Entropy.fromBits (UInt8.ofBitVec byte >>> 4)).toOption.all fun entropy : Entropy =>
          (transform.toBits ||| (entropy.toBits <<< (4 : UInt8))) == UInt8.ofBitVec byte) =
        true := by
    decide +kernel
  simpa [transformed, coded, Except.toOption] using allBytes byte.toBitVec

theorem decode_iff (input : Bytes) (header : CodecHeader) :
    decode input = .ok header ↔ header.originalLen ≤ maxOriginalLen ∧ header.bytes <+: input := by
  constructor
  · intro decoded
    unfold decode at decoded
    split at decoded
    · next first param low high rest =>
        split at decoded
        · cases decoded
        · cases decoded
        next transformed coded =>
        cases decoded
        have isFirst := first_of_fromBits transformed coded
        have written := LittleEndian.encode_decode [low, high]
        have bound := LittleEndian.decode_lt [low, high]
        refine ⟨?_, rest, ?_⟩
        · rw [List.length_cons, List.length_singleton] at bound
          exact Nat.le_pred_of_lt bound
        exact congrArg₂ List.cons isFirst (congrArg (param :: · ++ rest) written)
    · cases decoded
  · rintro ⟨fits, rest, rfl⟩
    exact decode_bytes_append header rest fits

end CodecHeader

/--
A header, a fragment descriptor, an acknowledgement block or a codec header is
read from an input exactly if the input begins with the bytes it is written as.
-/
theorem blocks_have_one_spelling (input : Bytes) :
    (∀ header, Header.decode input = .ok header ↔ header.Fits ∧ header.bytes <+: input) ∧
      (∀ fragment,
        Fragment.decode input = .ok fragment ↔
          fragment.Coherent ∧ fragment.bytes <+: input) ∧
      (∀ ack, Ack.decode input = .ok ack ↔ ack.bytes <+: input) ∧
      (∀ header,
        CodecHeader.decode input = .ok header ↔
          header.originalLen ≤ maxOriginalLen ∧ header.bytes <+: input) :=
  ⟨Header.decode_iff input, Fragment.decode_iff input, Ack.decode_iff input,
    CodecHeader.decode_iff input⟩

end Fectp
