import Fectp.Pipeline
import Fectp.Transforms

namespace Fectp

/-!
# Payload coding

A payload is coded by a transform that suits its declared shape, followed by
general compression where the peer can undo it.  Coding is used only if it
saves bytes, and what is coded is decoded to the same payload.  The compressor
is a parameter with its own laws; a build without one has none.
-/

open Buffer (sliceFrom sliceTo lift Safe)

/-- A structural rearrangement applied before any entropy coding. -/
inductive Transform where
  | none
  | i16Delta
  | i32Delta
  | byteTranspose
  deriving Repr, DecidableEq

/-- The entropy coder applied after the transform. -/
inductive Entropy where
  | none
  | zstd
  deriving Repr, DecidableEq

def codecZstd : UInt16 := 0b0001

def codecI16Delta : UInt16 := 0b0010

def codecI32Delta : UInt16 := 0b0100

def codecTranspose : UInt16 := 0b1000

namespace Transform

def toBits : Transform → UInt8
  | .none =>
      0
  | .i16Delta =>
      1
  | .i32Delta =>
      2
  | .byteTranspose =>
      3

def fromBits (bits : UInt8) : Except CoreError Transform :=
  if bits = 0 then
    .ok .none
  else if bits = 1 then
    .ok .i16Delta
  else if bits = 2 then
    .ok .i32Delta
  else if bits = 3 then
    .ok .byteTranspose
  else
    .error .badHeader

/-- The capability bit a peer must advertise to decode this transform. -/
def capability : Transform → UInt16
  | .none =>
      0
  | .i16Delta =>
      codecI16Delta
  | .i32Delta =>
      codecI32Delta
  | .byteTranspose =>
      codecTranspose

/-- Applies the transform into a buffer with this much room. -/
def apply (transform : Transform) (input : Bytes) (param : UInt8)
    (room : Nat) : Except (Halt CoreError) Bytes :=
  match transform with
  | .none =>
      if room < input.length then
        .error (.failed .bufferTooSmall)
      else
        .ok input
  | .i16Delta =>
      Numeric.encode input param.toNat 2 room
  | .i32Delta =>
      Numeric.encode input param.toNat 4 room
  | .byteTranspose =>
      Transpose.encode input param.toNat room

/-- Reverses the transform: the length, and what the buffer holds then. -/
def reverse (transform : Transform) (input : Bytes) (param : UInt8)
    (originalLen : Nat) (out : Bytes) :
    Except (Halt CoreError) (Nat × Bytes) :=
  match transform with
  | .none =>
      if input.length ≠ originalLen then
        .error (.failed .badHeader)
      else if out.length < input.length then
        .error (.failed .bufferTooSmall)
      else do
        let out ← Buffer.write out 0 input
        return (input.length, out)
  | .i16Delta =>
      Numeric.decode input param.toNat 2 originalLen out
  | .i32Delta =>
      Numeric.decode input param.toNat 4 originalLen out
  | .byteTranspose =>
      if input.length ≠ originalLen then
        .error (.failed .badHeader)
      else
        Transpose.decode input param.toNat out

/-- A payload that was transformed is restored by the reverse. -/
theorem reverse_apply {transform : Transform} {input out bytes : Bytes} {param : UInt8}
    {room : Nat} (applies : transform.apply input param room = .ok bytes)
    (holds : input.length ≤ out.length) :
    ∃ written, transform.reverse bytes param input.length out = .ok (input.length, written) ∧
        written.take input.length = input := by
  cases transform with
  | none =>
    unfold apply at applies
    dsimp only at applies
    split at applies
    · cases applies
    cases applies
    refine ⟨Chunks.overwrite out 0 input, ?_, ?_⟩
    · unfold reverse
      rw [if_neg (not_not.mpr rfl), if_neg (Nat.not_lt.mpr holds),
        Buffer.write_eq_ok.mpr ⟨(Nat.zero_add _).symm ▸ holds, rfl⟩]
      rfl
    · rw [Chunks.overwrite, List.take_zero, List.nil_append, List.take_left]
  | i16Delta =>
    obtain ⟨written, decodes, _, restored⟩ := Numeric.decode_encode (Or.inl rfl) applies holds
    exact ⟨written, decodes, restored⟩
  | i32Delta =>
    obtain ⟨written, decodes, _, restored⟩ := Numeric.decode_encode (Or.inr rfl) applies holds
    exact ⟨written, decodes, restored⟩
  | byteTranspose =>
    obtain ⟨written, decodes, _, restored⟩ := Transpose.decode_encode applies holds
    obtain ⟨_, _, _, _, sameLength⟩ := Transpose.encode_eq_ok applies
    refine ⟨written, ?_, restored⟩
    unfold reverse
    dsimp only
    rw [if_neg (not_not.mpr sameLength)]
    exact decodes

theorem apply_length {transform : Transform} {input bytes : Bytes} {param : UInt8} {room : Nat}
    (applies : transform.apply input param room = .ok bytes) :
    bytes.length ≤ 2 * input.length := by
  cases transform with
  | none =>
    unfold apply at applies
    dsimp only at applies
    split at applies
    · cases applies
    · cases applies
      exact Nat.le_mul_of_pos_left _ (by decide)
  | i16Delta => exact Numeric.encode_length (Or.inl rfl) applies
  | i32Delta => exact Numeric.encode_length (Or.inr rfl) applies
  | byteTranspose =>
    obtain ⟨_, _, _, _, sameLength⟩ := Transpose.encode_eq_ok applies
    rw [sameLength]
    exact Nat.le_mul_of_pos_left _ (by decide)

/-- Whatever the bytes, reversing fails or gives the length asked for. -/
theorem reverse_safe
    (transform : Transform) (input : Bytes) (param : UInt8) (originalLen : Nat) (out : Bytes) :
    Safe (fun result => result.1 = originalLen)
      (transform.reverse input param originalLen out) := by
  cases transform with
  | none =>
    unfold reverse
    dsimp only
    split
    · trivial
    next isLength =>
    split
    · trivial
    next holds =>
    refine (Buffer.write_safe ?_).bind ?_
    · rw [Nat.zero_add]
      exact Nat.le_of_not_lt holds
    · intro written _
      exact not_not.mp isLength
  | i16Delta => exact (Numeric.decode_safe (Or.inl rfl) originalLen out).mono fun _ => And.left
  | i32Delta => exact (Numeric.decode_safe (Or.inr rfl) originalLen out).mono fun _ => And.left
  | byteTranspose =>
    unfold reverse
    dsimp only
    split
    · trivial
    next isLength =>
    exact (Transpose.decode_safe out).mono fun _ decoded =>
      decoded.1.trans (not_not.mp isLength)

end Transform

namespace Entropy

def toBits : Entropy → UInt8
  | .none =>
      0
  | .zstd =>
      1

def fromBits (bits : UInt8) : Except CoreError Entropy :=
  if bits = 0 then
    .ok .none
  else if bits = 1 then
    .ok .zstd
  else
    .error .badHeader

/-- The capability bit a peer must advertise to decode this stage. -/
def capability : Entropy → UInt16
  | .none =>
      0
  | .zstd =>
      codecZstd

end Entropy

/-- Bytes the codec header occupies at the front of a coded plaintext. -/
def codecHeaderLen : Nat := 4

/-- Largest payload a typed send can carry. -/
def maxOriginalLen : Nat := maxValue 16

/-- Describes how a coded payload was produced. -/
structure CodecHeader where
  transform : Transform
  entropy : Entropy
  /-- Channel count, or element size. -/
  param : UInt8
  /-- Length of the payload before any coding, a `u16`. -/
  originalLen : Nat
  deriving Repr, DecidableEq

namespace CodecHeader

def bytes (header : CodecHeader) : Bytes :=
  (header.transform.toBits ||| (header.entropy.toBits <<< 4)) ::
    header.param :: LittleEndian.encode 2 header.originalLen

def decode (input : Bytes) : Except CoreError CodecHeader :=
  match input with
  | first :: param :: low :: high :: _ =>
      match Transform.fromBits (first &&& 0x0f),
          Entropy.fromBits (first >>> 4) with
      | .error error, _ | .ok _, .error error =>
          .error error
      | .ok transform, .ok entropy =>
          .ok ⟨transform, entropy, param, LittleEndian.decode [low, high]⟩
  | _ =>
      .error .messageTooShort

theorem bytes_length (header : CodecHeader) :
    header.bytes.length = codecHeaderLen := by
  simp [bytes, codecHeaderLen]

theorem decode_bytes_append
    (header : CodecHeader) (rest : Bytes) (fits : header.originalLen ≤ maxOriginalLen) :
    decode (header.bytes ++ rest) = .ok header := by
  obtain ⟨transform, entropy, param, originalLen⟩ := header
  have back : LittleEndian.decode (LittleEndian.encode 2 originalLen) = originalLen :=
    LittleEndian.decode_encode (Nat.lt_succ_of_le fits)
  have first : Transform.fromBits ((transform.toBits ||| (entropy.toBits <<< 4)) &&& 0x0f) =
          .ok transform ∧
        Entropy.fromBits ((transform.toBits ||| (entropy.toBits <<< 4)) >>> 4) = .ok entropy := by
    cases transform <;> cases entropy <;> decide
  simp only [LittleEndian.encode] at back
  simp only [bytes, LittleEndian.encode, List.cons_append, decode, first.1, first.2, back]

theorem decode_length {input : Bytes} {header : CodecHeader} (decodes : decode input = .ok header) :
    codecHeaderLen ≤ input.length := by
  unfold decode at decodes
  split at decodes
  · simp [codecHeaderLen]
  · cases decodes

end CodecHeader

def capZstd : UInt8 := 0b00000001

namespace Capabilities

/-- Whether this peer can decompress Zstandard payloads. -/
def acceptsCompression (caps : Capabilities) : Bool :=
  caps.flags &&& capZstd != 0

/-- Whether this peer advertised every bit in `codecs`. -/
def supportsCodecs (caps : Capabilities) (codecs : UInt16) : Bool :=
  caps.codecs &&& codecs == codecs

end Capabilities

/-- The transform and its parameter for a declared shape. -/
def PayloadType.transform : PayloadType → Transform × UInt8
  | .opaqueBytes =>
      (.none, 0)
  | .i16 channels =>
      (.i16Delta, channels)
  | .i32 channels =>
      (.i32Delta, channels)
  | .elements size =>
      (.byteTranspose, size)

/-- A compressor that undoes what it does, into buffers of a given size. -/
structure Zstd where
  compress : Bytes → Nat → Option Bytes
  decompress : Bytes → Nat → Option Bytes
  decompress_fits : ∀ {coded room plain},
      decompress coded room = some plain → plain.length ≤ room
  roundTrips : ∀ {plain room coded capacity},
      compress plain room = some coded →
      plain.length ≤ capacity →
      decompress coded capacity = some plain

/-- Payloads below this size are never compressed. -/
def minCompressSize : Nat := 1024

/-- Payloads below this size are not worth a typed transform either. -/
def minTransformSize : Nat := 32

/-- How containers begin whose contents are compressed already. -/
def magics : List Bytes :=
  [[0xff, 0xd8, 0xff],
    [0x89, 0x50, 0x4e, 0x47],
    [0x47, 0x49, 0x46, 0x38],
    [0x50, 0x4b, 0x03, 0x04],
    [0x1f, 0x8b],
    [0x28, 0xb5, 0x2f, 0xfd],
    [0x04, 0x22, 0x4d, 0x18],
    [0x42, 0x5a, 0x68],
    [0xfd, 0x37, 0x7a, 0x58, 0x5a],
    [0x4f, 0x67, 0x67, 0x53],
    [0x66, 0x4c, 0x61, 0x43],
    [0x49, 0x44, 0x33]]

def looksPrecompressed (payload : Bytes) : Bool :=
  magics.any (·.isPrefixOf payload) ||
    -- ISO base media carries its brand at offset 4.
    (12 ≤ payload.length &&
      (payload.drop 4).take 4 == [0x66, 0x74, 0x79, 0x70]) ||
    -- WebP and other RIFF containers.
    (12 ≤ payload.length &&
      [0x52, 0x49, 0x46, 0x46].isPrefixOf payload &&
      (payload.drop 8).take 4 == [0x57, 0x45, 0x42, 0x50])

/-- Compresses into a buffer, if that saves anything. -/
def Zstd.compressed (zstd : Zstd) (input : Bytes) (outLen : Nat) :
    Option Bytes :=
  (zstd.compress input outLen).filter (·.length < input.length)

/-- The length a buffer has once it has been grown. -/
def ensured (bufferLen len : Nat) : Nat :=
  max bufferLen len

/-- The payload as the transform leaves it, if it is worth coding. -/
def transformed
    (available : Bool)
    (data : Bytes)
    (payloadType : PayloadType)
    (peerCaps : Capabilities)
    (primaryLen : Nat) :
    Option (Transform × UInt8 × Bytes) :=
  let (transform, param) := payloadType.transform
  let usable :=
    transform != .none && minTransformSize ≤ data.length &&
      peerCaps.supportsCodecs transform.capability
  -- Transposing saves nothing on its own.
  let usable := usable && !(transform == .byteTranspose && !available)
  if usable then
    match transform.apply data param
        (ensured primaryLen (data.length * 2 + 16)) with
    | .ok bytes =>
        some (transform, param, bytes)
    | .error _ =>
        none
  else if !available || data.length < minCompressSize ||
      looksPrecompressed data then
    none
  else
    some (.none, 0, data)

/-- The entropy stage, passed over where it saves nothing. -/
def entropyCoded (zstd : Option Zstd) (bytes : Bytes) (secondaryLen : Nat) :
    Entropy × Bytes :=
  match zstd.bind
      (·.compressed bytes (ensured secondaryLen (bytes.length + 64))) with
  | some coded =>
      (.zstd, coded)
  | none =>
      (.none, bytes)

/--
Codes a payload: the header and the coded bytes, or nothing if coding was
skipped or did not pay.  The two lengths are those of the working buffers.
-/
def encodePayload
    (zstd : Option Zstd)
    (data : Bytes)
    (payloadType : PayloadType)
    (peerCaps : Capabilities)
    (primaryLen secondaryLen : Nat) :
    Option (CodecHeader × Bytes) :=
  if data.length > maxOriginalLen then
    none
  else
    let zstd := zstd.filter fun _ => peerCaps.acceptsCompression
    match transformed zstd.isSome data payloadType peerCaps primaryLen with
    | none =>
        none
    | some (transform, param, bytes) =>
        let (entropy, coded) := entropyCoded zstd bytes secondaryLen
        if codecHeaderLen + coded.length ≥ data.length then
          none
        else
          some (⟨transform, entropy, param, data.length⟩, coded)

/-- The transform's output, out of the entropy stage. -/
def expanded
    (zstd : Option Zstd)
    (entropy : Entropy)
    (coded : Bytes)
    (room : Nat) :
    Except (Halt Error) Bytes :=
  match entropy, zstd with
  | .none, _ =>
      .ok coded
  | .zstd, none =>
      .error (.failed .decompress)
  | .zstd, some zstd =>
      match zstd.decompress coded room with
      | none =>
          .error (.failed .decompress)
      | some plain =>
          if plain.length ≤ room then .ok plain else .error .outOfRange

/-- Reverses `encodePayload`: the length, and what the buffer holds then. -/
def decodePayload
    (zstd : Option Zstd)
    (plaintext : Bytes)
    (scratchLen : Nat)
    (out : Bytes) :
    Except (Halt Error) (Nat × Bytes) := do
  let header ←
    Buffer.mapError Error.protocol (lift (CodecHeader.decode plaintext))
  let coded ← sliceFrom plaintext codecHeaderLen
  if out.length < header.originalLen then
    .error (.failed (.payloadTooLarge header.originalLen out.length))
  else
    let bytes ←
      expanded zstd header.entropy coded
        (ensured scratchLen (header.originalLen * 2 + 16))
    Buffer.mapError Error.protocol
      (header.transform.reverse bytes header.param header.originalLen out)

/-! ### What is coded -/

/-- How a payload that is coded came to be so. -/
structure Coded
    (zstd : Option Zstd)
    (data : Bytes)
    (caps : Capabilities)
    (header : CodecHeader)
    (coded : Bytes) : Prop where
  isLength : header.originalLen = data.length
  fits : data.length ≤ maxOriginalLen
  saves : codecHeaderLen + coded.length < data.length
  supported : caps.supportsCodecs header.transform.capability
  staged : ∃ bytes room,
      header.transform.apply data header.param room = .ok bytes ∧
        (header.entropy = .none ∧ coded = bytes ∨
          header.entropy = .zstd ∧ caps.acceptsCompression = true ∧
            ∃ coder ∈ zstd, ∃ room, coder.compress bytes room = some coded)

theorem supportsCodecs_zero (caps : Capabilities) :
    caps.supportsCodecs 0 = true := by
  simp [Capabilities.supportsCodecs]

variable (zstd : Option Zstd) {data coded : Bytes} {caps : Capabilities}
  {header : CodecHeader}

/-- A transform is used only where the peer can reverse it. -/
theorem transformed_eq_some {available : Bool} {bytes : Bytes} {payloadType : PayloadType}
    {primaryLen : Nat} {transform : Transform} {param : UInt8}
    (found : transformed available data payloadType caps primaryLen =
        some (transform, param, bytes)) :
    caps.supportsCodecs transform.capability = true ∧
      ∃ room, transform.apply data param room = .ok bytes := by
  unfold transformed at found
  dsimp only at found
  split at found
  · next usable =>
      split at found
      · next applied =>
          cases found
          simp only [Bool.and_eq_true] at usable
          exact ⟨usable.1.2, _, applied⟩
      · cases found
  · split at found
    · cases found
    · cases found
      refine ⟨supportsCodecs_zero caps, data.length, ?_⟩
      exact if_neg (Nat.lt_irrefl _)

theorem entropyCoded_cases (bytes : Bytes) (secondaryLen : Nat) :
    entropyCoded zstd bytes secondaryLen = (.none, bytes) ∨ ∃ coder ∈ zstd, ∃ room coded,
        coder.compress bytes room = some coded ∧
          entropyCoded zstd bytes secondaryLen = (.zstd, coded) := by
  unfold entropyCoded
  split
  · next coded found =>
      obtain ⟨coder, isCoder, kept⟩ := Option.bind_eq_some_iff.mp found
      have compresses := (Option.filter_eq_some_iff.mp kept).1
      exact Or.inr ⟨coder, isCoder, _, coded, compresses, rfl⟩
  · exact Or.inl rfl

theorem encodePayload_eq_some
    {zstd : Option Zstd} {payloadType : PayloadType} {primaryLen secondaryLen : Nat}
    (encodes : encodePayload zstd data payloadType caps primaryLen secondaryLen =
        some (header, coded)) :
    Coded zstd data caps header coded := by
  unfold encodePayload at encodes
  split at encodes
  · cases encodes
  next fits =>
  dsimp only at encodes
  split at encodes
  · cases encodes
  next found =>
  obtain ⟨supported, room, applies⟩ := transformed_eq_some found
  split at encodes
  · cases encodes
  next pays =>
  cases encodes
  refine ⟨rfl, Nat.le_of_not_lt fits, Nat.lt_of_not_le pays,
    supported, _, room, applies, ?_⟩
  rcases entropyCoded_cases (zstd.filter fun _ => caps.acceptsCompression) _
      secondaryLen with
    isNone | ⟨coder, isCoder, room, coded, compresses, isZstd⟩
  · rw [isNone]
    exact Or.inl ⟨rfl, rfl⟩
  obtain ⟨isCoder, accepts⟩ :=
    Option.filter_eq_some_iff.mp isCoder
  rw [isZstd]
  exact Or.inr ⟨rfl, accepts, coder, isCoder, room, compresses⟩

/-- The entropy stage is undone where there is room for its input. -/
theorem Coded.expanded
    {zstd : Option Zstd} (isCoded : Coded zstd data caps header coded) (scratchLen : Nat) :
    ∃ bytes room, header.transform.apply data header.param room = .ok bytes ∧
        expanded zstd header.entropy coded (ensured scratchLen (header.originalLen * 2 + 16)) =
          .ok bytes := by
  obtain ⟨bytes, room, applies, staged⟩ := isCoded.staged
  refine ⟨bytes, room, applies, ?_⟩
  rcases staged with ⟨isNone, rfl⟩ | ⟨isZstd, _, coder, isCoder, _, compresses⟩
  · rw [isNone]
    rfl
  have short := Transform.apply_length applies
  have roomy : bytes.length ≤ ensured scratchLen (header.originalLen * 2 + 16) := by
    rw [isCoded.isLength, ensured]
    omega
  rw [isZstd, Option.mem_def.mp isCoder]
  unfold Fectp.expanded
  dsimp only
  rw [coder.roundTrips compresses roomy]
  exact if_pos roomy

theorem Coded.decodes {zstd : Option Zstd} (isCoded : Coded zstd data caps header coded)
    (scratchLen : Nat) {out : Bytes} (holds : header.originalLen ≤ out.length) :
    ∃ written, decodePayload zstd (header.bytes ++ coded) scratchLen out =
          .ok (data.length, written) ∧
        written.take data.length = data := by
  obtain ⟨bytes, room, applies, expands⟩ := isCoded.expanded scratchLen
  have holdsData : data.length ≤ out.length := isCoded.isLength ▸ holds
  obtain ⟨written, reverses, restored⟩ := Transform.reverse_apply applies holdsData
  refine ⟨written, ?_, restored⟩
  have isHeader : CodecHeader.decode (header.bytes ++ coded) = .ok header :=
    header.decode_bytes_append coded (isCoded.isLength ▸ isCoded.fits)
  have isBody : (header.bytes ++ coded).drop codecHeaderLen = coded := by
    rw [← header.bytes_length, List.drop_left]
  have slices : sliceFrom (ε := Error) (header.bytes ++ coded) codecHeaderLen = .ok coded := by
    refine Buffer.sliceFrom_eq_ok.mpr ⟨?_, isBody.symm⟩
    rw [List.length_append, header.bytes_length]
    exact Nat.le_add_right _ _
  refine Buffer.bind_eq_ok.mpr ⟨header, by rw [isHeader]; rfl, ?_⟩
  refine Buffer.bind_eq_ok.mpr ⟨coded, slices, ?_⟩
  rw [if_neg (Nat.not_lt.mpr holds)]
  refine Buffer.bind_eq_ok.mpr ⟨bytes, expands, ?_⟩
  rw [isCoded.isLength, reverses]
  rfl

theorem expanded_safe (entropy : Entropy) (coded : Bytes) (room : Nat) :
    Safe (fun _ => True) (expanded zstd entropy coded room) := by
  unfold expanded
  split
  · trivial
  · trivial
  next coder =>
  split
  · trivial
  next decompresses =>
  rw [if_pos (coder.decompress_fits decompresses)]
  trivial

/-- Whatever the bytes, decoding fails or gives the length they state. -/
theorem decodePayload_safe (plaintext : Bytes) (scratchLen : Nat) (out : Bytes) :
    Safe (fun result =>
        ∃ header, CodecHeader.decode plaintext = .ok header ∧ result.1 = header.originalLen)
      (decodePayload zstd plaintext scratchLen out) := by
  refine ((Buffer.lift_safe _).mapError Error.protocol).bind ?_
  intro header isHeader
  have inRange := CodecHeader.decode_length isHeader
  refine (Buffer.sliceFrom_safe inRange).bind ?_
  intro coded _
  split
  · trivial
  refine (expanded_safe zstd header.entropy coded _).bind ?_
  intro bytes _
  refine ((header.transform.reverse_safe bytes header.param
    header.originalLen out).mapError Error.protocol).mono ?_
  intro result isLength
  exact ⟨header, isHeader, isLength⟩

/--
A payload that is coded gets shorter, header and all, and is decoded to itself
in any buffer that is long enough.  Decoding any bytes at all stays in range
and fails or gives the length that the bytes state.
-/
theorem coding_lossless (zstd : Option Zstd) :
    (∀ data payloadType caps primaryLen secondaryLen header coded,
      encodePayload zstd data payloadType caps primaryLen secondaryLen =
          some (header, coded) →
        (header.bytes ++ coded).length < data.length ∧
          ∀ scratchLen out, header.originalLen ≤ out.length →
            ∃ written,
              decodePayload zstd (header.bytes ++ coded) scratchLen out =
                  .ok (data.length, written) ∧
                written.take data.length = data) ∧
      ∀ plaintext scratchLen out,
        (∃ error,
          decodePayload zstd plaintext scratchLen out =
            .error (.failed error)) ∨
          ∃ header written,
            CodecHeader.decode plaintext = .ok header ∧
              decodePayload zstd plaintext scratchLen out =
                .ok (header.originalLen, written) := by
  refine ⟨?_, ?_⟩
  · intro data payloadType caps primaryLen secondaryLen header coded encodes
    have isCoded := encodePayload_eq_some encodes
    refine ⟨?_, fun scratchLen out => isCoded.decodes scratchLen⟩
    rw [List.length_append, header.bytes_length]
    exact isCoded.saves
  · intro plaintext scratchLen out
    rcases (decodePayload_safe zstd plaintext scratchLen out).cases with
      failed | ⟨⟨len, written⟩, decodes, header, isHeader, rfl⟩
    · exact Or.inl failed
    · exact Or.inr ⟨header, written, isHeader, decodes⟩

/-! ### The codec of a peer -/

/-- Payload coding as a peer uses it, with buffers that start out empty. -/
def payloadCodec (zstd : Option Zstd) : Codec where
  encodePayload data payloadType caps :=
    (encodePayload zstd data payloadType caps 0 0).map fun found =>
      found.1.bytes ++ found.2
  originalLen plaintext :=
    match CodecHeader.decode plaintext with
    | .error error =>
        .error (.protocol error)
    | .ok header =>
        .ok header.originalLen
  decodePayload plaintext :=
    match CodecHeader.decode plaintext with
    | .error error =>
        .error (.protocol error)
    | .ok header =>
        match decodePayload zstd plaintext 0
            (List.replicate header.originalLen 0) with
        | .ok (len, written) =>
            .ok (written.take len)
        | .error (.failed error) =>
            .error error
        | .error .outOfRange =>
            .error .decompress

theorem payloadCodec_roundTrips :
    (payloadCodec zstd).RoundTrips := by
  intro data payloadType caps plaintext encodes
  obtain ⟨⟨header, coded⟩, found, isPlaintext⟩ := Option.map_eq_some_iff.mp encodes
  subst isPlaintext
  have isCoded := encodePayload_eq_some found
  have isHeader : CodecHeader.decode (header.bytes ++ coded) = .ok header :=
    header.decode_bytes_append coded (isCoded.isLength ▸ isCoded.fits)
  obtain ⟨written, decodes, restored⟩ :=
    isCoded.decodes 0
      (show header.originalLen ≤ (List.replicate header.originalLen (0 : UInt8)).length by simp)
  unfold payloadCodec
  dsimp only
  rw [isHeader]
  dsimp only
  rw [decodes]
  dsimp only
  rw [restored]

/-! ### What the peer advertised -/

/-- Some payload the compressor is tried on saves more than the header. -/
def Zstd.Shrinks (zstd : Zstd) : Prop :=
  ∃ data coded,
    minCompressSize ≤ data.length ∧
      data.length ≤ maxOriginalLen ∧
      looksPrecompressed data = false ∧
      zstd.compress data (data.length + 64) = some coded ∧
      codecHeaderLen + coded.length < data.length

theorem Zstd.Shrinks.encodes
    {zstd : Zstd} (shrinks : zstd.Shrinks) (accepts : caps.acceptsCompression = true) :
    ∃ data coded, encodePayload (some zstd) data .opaqueBytes caps 0 0 =
        some (⟨.none, .zstd, 0, data.length⟩, coded) := by
  obtain ⟨data, coded, large, fits, fresh, compresses, saves⟩ := shrinks
  refine ⟨data, coded, ?_⟩
  have isKept : zstd.compressed data (ensured 0 (data.length + 64)) = some coded := by
    refine Option.filter_eq_some_iff.mpr ⟨?_, ?_⟩
    · exact compresses
    · exact decide_eq_true (Nat.lt_of_le_of_lt (Nat.le_add_left _ _) saves)
  unfold encodePayload
  rw [if_neg (Nat.not_lt.mpr fits)]
  simp only [Option.filter_some, accepts, if_true, Option.isSome_some,
    transformed, PayloadType.transform, bne_self_eq_false, Bool.false_and,
    Bool.not_true, Bool.false_or, fresh, Bool.or_false, Option.bind_some,
    entropyCoded, Bool.false_eq_true, if_false, decide_eq_true_eq]
  rw [if_neg (Nat.not_lt.mpr large)]
  dsimp only
  rw [isKept]
  exact if_neg (Nat.not_le.mpr saves)

/--
Every codec used is one the peer advertised exactly where a peer that sets the
compression flag also advertises Zstandard among its codecs.
-/
theorem codecs_advertised_iff
    (zstd : Option Zstd)
    (shrinks : ∀ coder ∈ zstd, coder.Shrinks)
    (caps : Capabilities) :
    (∀ data payloadType primaryLen secondaryLen header coded,
      encodePayload zstd data payloadType caps primaryLen secondaryLen =
          some (header, coded) →
        caps.supportsCodecs header.transform.capability = true ∧
          caps.supportsCodecs header.entropy.capability = true) ↔
      (zstd.isSome = true → caps.acceptsCompression = true →
        caps.supportsCodecs codecZstd = true) := by
  refine ⟨?_, ?_⟩
  · intro advertised available accepts
    obtain ⟨coder, rfl⟩ := Option.isSome_iff_exists.mp available
    obtain ⟨data, coded, encodes⟩ := (shrinks coder rfl).encodes accepts
    exact (advertised data .opaqueBytes 0 0 _ coded encodes).2
  · intro advertised data payloadType primaryLen secondaryLen header coded
      encodes
    have isCoded := encodePayload_eq_some encodes
    refine ⟨isCoded.supported, ?_⟩
    obtain ⟨_, _, _, ⟨isNone, _⟩ | ⟨isZstd, accepts, coder, isCoder, _⟩⟩ :=
      isCoded.staged
    · rw [isNone]
      exact supportsCodecs_zero caps
    rw [isZstd]
    refine advertised ?_ accepts
    rw [Option.mem_def.mp isCoder]
    rfl

/-- A kilobyte of zeros. -/
def smallZeros : Bytes :=
  List.replicate 1024 0

/-- A compressor that knows one payload. -/
def smallZstd : Zstd where
  compress plain room :=
    if plain = smallZeros ∧ 1 ≤ room then some [1] else none
  decompress coded room :=
    if coded = [1] ∧ smallZeros.length ≤ room then some smallZeros else none
  decompress_fits := by
    intro coded room plain decompresses
    split at decompresses
    · next known =>
        cases decompresses
        exact known.2
    · cases decompresses
  roundTrips := by
    intro plain room coded capacity compresses fits
    split at compresses
    · next known =>
        cases compresses
        obtain ⟨rfl, _⟩ := known
        exact if_pos ⟨rfl, fits⟩
    · cases compresses

theorem smallZeros_length : smallZeros.length = 1024 :=
  List.length_replicate

theorem smallZstd_shrinks : smallZstd.Shrinks := by
  have compresses : smallZstd.compress smallZeros (smallZeros.length + 64) = some [1] := by
    simp [smallZstd]
  refine ⟨smallZeros, [1], ?_, ?_, by decide +kernel, compresses, ?_⟩
  all_goals
    rw [smallZeros_length]
    decide

theorem codecs_advertised_iff_of_small_zstd :
    (∀ coder ∈ some smallZstd, coder.Shrinks) ∧
      ∀ data payloadType primaryLen secondaryLen header coded,
        encodePayload (some smallZstd) data payloadType
              ⟨capZstd, 1200, codecZstd⟩ primaryLen secondaryLen =
            some (header, coded) →
          Capabilities.supportsCodecs ⟨capZstd, 1200, codecZstd⟩
                header.transform.capability = true ∧
            Capabilities.supportsCodecs ⟨capZstd, 1200, codecZstd⟩
                header.entropy.capability = true := by
  have shrinks : ∀ coder ∈ some smallZstd, coder.Shrinks := by
    intro coder isCoder
    cases isCoder
    exact smallZstd_shrinks
  exact ⟨shrinks,
    (codecs_advertised_iff (some smallZstd) shrinks _).mpr fun _ _ => by
      decide⟩

/-- A peer that sets the flag alone is sent what it did not advertise. -/
theorem flag_alone_draws_zstd :
    encodePayload (some smallZstd) smallZeros .opaqueBytes
          ⟨capZstd, 1200, 0⟩ 0 0 =
        some (⟨.none, .zstd, 0, 1024⟩, [1]) ∧
      Capabilities.supportsCodecs ⟨capZstd, 1200, 0⟩
          Entropy.zstd.capability = false := by
  decide +kernel

end Fectp
