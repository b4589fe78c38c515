import Fectp.Error
import Fectp.LittleEndian

namespace Fectp

/-!
# The wire format

The fixed 14-byte header every frame begins with, and the fragment descriptor
that travels inside the encrypted plaintext of a split message.

A caller's buffer is a byte string; a function that writes into one takes its
length and returns the bytes it writes at the front.
-/

def headerLen : Nat := 14

def version : UInt8 := 1

def flagCompressed : UInt8 := 0b00000001

def flagReliable : UInt8 := 0b00000010

def flagPadded : UInt8 := 0b00000100

def flagFragment : UInt8 := 0b00001000

/-- Flag bits that are defined; any other bit set is a malformed frame. -/
def knownFlags : UInt8 :=
  flagCompressed ||| flagReliable ||| flagPadded ||| flagFragment

/-- What a frame carries. -/
inductive FrameType where
  | handshakeInit
  | handshakeResponse
  | data
  | close
  | ack
  | resumeInit
  | resumeResponse
  | pathChallenge
  | pathResponse
  deriving Repr, DecidableEq

namespace FrameType

def toBits : FrameType → UInt8
  | .handshakeInit => 1
  | .handshakeResponse => 2
  | .data => 3
  | .close => 4
  | .ack => 5
  | .resumeInit => 6
  | .resumeResponse => 7
  | .pathChallenge => 8
  | .pathResponse => 9

def fromBits (bits : UInt8) : Except CoreError FrameType :=
  match bits.toNat with
  | 1 => .ok .handshakeInit
  | 2 => .ok .handshakeResponse
  | 3 => .ok .data
  | 4 => .ok .close
  | 5 => .ok .ack
  | 6 => .ok .resumeInit
  | 7 => .ok .resumeResponse
  | 8 => .ok .pathChallenge
  | 9 => .ok .pathResponse
  | _ => .error .badHeader

end FrameType

/-- A parsed frame header. -/
structure Header where
  frameType : FrameType
  flags : UInt8
  /-- Identifies the session on the receiver. -/
  sessionId : BitVec 32
  /-- AEAD nonce counter for data frames, a `u64`. -/
  sequence : Nat
  deriving Repr, DecidableEq

namespace Header

def new (frameType : FrameType) (sessionId : BitVec 32) : Header where
  frameType := frameType
  flags := 0
  sessionId := sessionId
  sequence := 0

def bytes (header : Header) : Bytes :=
  (version <<< 4 ||| header.frameType.toBits) ::
    header.flags ::
      (LittleEndian.encode 4 header.sessionId.toNat ++
        LittleEndian.encode 8 header.sequence)

/-- Serialises the header into the front of a buffer of `outLen` bytes. -/
def encode (header : Header) (outLen : Nat) : Except CoreError Bytes :=
  if outLen < headerLen then
    .error .bufferTooSmall
  else
    .ok header.bytes

/-- Parses a header from the front of `input`. -/
def decode (input : Bytes) : Except CoreError Header :=
  if input.length < headerLen then
    .error .messageTooShort
  else if input.getD 0 0 >>> 4 ≠ version then
    .error .unsupportedVersion
  else
    match FrameType.fromBits (input.getD 0 0 &&& 0x0f) with
    | .error error =>
        .error error
    | .ok frameType =>
        if input.getD 1 0 &&& ~~~knownFlags ≠ 0 then
          .error .badHeader
        else
          .ok
            { frameType := frameType
              flags := input.getD 1 0
              sessionId :=
                BitVec.ofNat 32 (LittleEndian.decode ((input.drop 2).take 4))
              sequence := LittleEndian.decode ((input.drop 6).take 8) }

@[simp] theorem bytes_length (header : Header) :
    header.bytes.length = headerLen := by
  simp [bytes, headerLen]

/-- A header with defined flags is recovered from the front of its frame. -/
theorem decode_bytes_append
    (header : Header) (rest : Bytes) (known : header.flags &&& ~~~knownFlags = 0)
    (fits : header.sequence < 2 ^ 64) :
    decode (header.bytes ++ rest) = .ok header := by
  have longEnough : ¬ (header.bytes ++ rest).length < headerLen := by
    rw [List.length_append, bytes_length]
    omega
  have sessionField : ((header.bytes ++ rest).drop 2).take 4 =
        LittleEndian.encode 4 header.sessionId.toNat := by
    simp [bytes]
  have sequenceField : ((header.bytes ++ rest).drop 6).take 8 =
        LittleEndian.encode 8 header.sequence := by
    simp [bytes]
  have sessionFits : header.sessionId.toNat < 256 ^ 4 := header.sessionId.isLt
  have sequenceFits : header.sequence < 256 ^ 8 := by
    simpa using fits
  have first : (header.bytes ++ rest).getD 0 0 = (version <<< 4 ||| header.frameType.toBits) := rfl
  have second : (header.bytes ++ rest).getD 1 0 = header.flags := rfl
  have versioned : (version <<< 4 ||| header.frameType.toBits) >>> 4 = version := by
    cases header.frameType <;> decide
  have typed : FrameType.fromBits ((version <<< 4 ||| header.frameType.toBits) &&& 0x0f) =
        .ok header.frameType := by
    cases header.frameType <;> decide
  simp only [decode, longEnough, first, second, versioned, typed, known,
    sessionField, sequenceField, LittleEndian.decode_encode sessionFits,
    LittleEndian.decode_encode sequenceFits, BitVec.ofNat_toNat,
    BitVec.setWidth_eq, if_false, ne_eq, not_true_eq_false]

/-- The sequence number of a parsed header fits its eight bytes. -/
theorem decode_sequence_le {input : Bytes} {header : Header} (decoded : decode input = .ok header) :
    header.sequence ≤ maxValue 64 := by
  unfold decode at decoded
  split at decoded
  · cases decoded
  next longEnough =>
  split at decoded
  · cases decoded
  split at decoded
  · cases decoded
  · split at decoded
    · cases decoded
    · cases decoded
      have bound := LittleEndian.decode_lt ((input.drop 6).take 8)
      have width : ((input.drop 6).take 8).length = 8 := by
        simp only [List.length_take, List.length_drop]
        unfold headerLen at longEnough
        omega
      rw [width] at bound
      exact Nat.le_sub_one_of_lt bound

end Header

def fragmentLen : Nat := 8

/-- Largest message that may be reassembled, in bytes. -/
def maxMessageLen : Nat := 1 <<< 20

/-- Largest number of fragments one message may be cut into. -/
def maxFragments : Nat := 4096

/-- Where one frame sits within a larger message. -/
structure Fragment where
  /-- Identifies the message these fragments make up. -/
  message : BitVec 32
  /-- Position of this fragment, counting from zero. -/
  index : Nat
  /-- How many fragments the message was cut into. -/
  count : Nat
  deriving Repr, DecidableEq

namespace Fragment

/-- A position inside a message of at most the permitted fragments. -/
def Coherent (fragment : Fragment) : Prop :=
  fragment.index < fragment.count ∧ fragment.count ≤ maxFragments

instance (fragment : Fragment) : Decidable fragment.Coherent :=
  inferInstanceAs (Decidable (_ ∧ _))

def bytes (fragment : Fragment) : Bytes :=
  LittleEndian.encode 4 fragment.message.toNat ++
    (LittleEndian.encode 2 fragment.index ++
      LittleEndian.encode 2 fragment.count)

/-- Serialises the descriptor into the front of a buffer. -/
def encode (fragment : Fragment) (outLen : Nat) : Except CoreError Bytes :=
  if outLen < fragmentLen then
    .error .bufferTooSmall
  else
    .ok fragment.bytes

/-- Parses a descriptor, rejecting one that cannot be coherent. -/
def decode (input : Bytes) : Except CoreError Fragment :=
  if input.length < fragmentLen then
    .error .messageTooShort
  else
    let fragment : Fragment :=
      { message := BitVec.ofNat 32 (LittleEndian.decode (input.take 4))
        index := LittleEndian.decode ((input.drop 4).take 2)
        count := LittleEndian.decode ((input.drop 6).take 2) }
    if fragment.count = 0 ∨ fragment.count > maxFragments ∨
        fragment.index ≥ fragment.count then
      .error .badHeader
    else
      .ok fragment

/-- Whether this is the last fragment of its message. -/
def isLast (fragment : Fragment) : Bool :=
  fragment.index + 1 == fragment.count

@[simp] theorem bytes_length (fragment : Fragment) :
    fragment.bytes.length = fragmentLen := by
  simp [bytes, fragmentLen]

/-- A coherent descriptor is recovered from its bytes. -/
theorem decode_bytes {fragment : Fragment} (coherent : fragment.Coherent) :
    decode fragment.bytes = .ok fragment := by
  obtain ⟨indexBound, countBound⟩ := coherent
  have message : fragment.bytes.take 4 = LittleEndian.encode 4 fragment.message.toNat := by
    simp [bytes]
  have index : (fragment.bytes.drop 4).take 2 = LittleEndian.encode 2 fragment.index := by
    simp [bytes]
  have count : (fragment.bytes.drop 6).take 2 = LittleEndian.encode 2 fragment.count := by
    rw [bytes, ← List.append_assoc, List.drop_left' (by simp)]
    exact List.take_of_length_le (by simp)
  have messageFits : fragment.message.toNat < 256 ^ 4 := fragment.message.isLt
  have countFits : fragment.count < 256 ^ 2 := lt_of_le_of_lt countBound (by decide)
  have indexFits : fragment.index < 256 ^ 2 := lt_trans indexBound countFits
  have accepted : ¬ (fragment.count = 0 ∨ fragment.count > maxFragments ∨
        fragment.index ≥ fragment.count) := by
    omega
  simp only [decode, bytes_length, message, index, count, LittleEndian.decode_encode messageFits,
    LittleEndian.decode_encode indexFits,
    LittleEndian.decode_encode countFits, BitVec.ofNat_toNat,
    BitVec.setWidth_eq, accepted, lt_irrefl, if_false]

end Fragment

/-- How many fragments `len` bytes need at `perFragment` bytes each. -/
def fragmentsNeeded (len perFragment : Nat) : Option Nat :=
  if perFragment = 0 ∨ len > maxMessageLen then
    none
  else
    -- An empty message is still one fragment.
    let count := max ((len + perFragment - 1) / perFragment) 1
    if count ≤ maxValue 16 ∧ count ≤ maxFragments then
      some count
    else
      none

theorem fragmentsNeeded_pos
    {len perFragment count : Nat} (needed : fragmentsNeeded len perFragment = some count) :
    0 < count := by
  unfold fragmentsNeeded at needed
  split at needed
  · cases needed
  dsimp only at needed
  split at needed
  · cases needed
    exact Nat.lt_of_lt_of_le Nat.one_pos (Nat.le_max_right _ _)
  · cases needed

end Fectp
