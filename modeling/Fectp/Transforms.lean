import Mathlib.Tactic.Ring
import Fectp.Buffers
import Fectp.Varint

namespace Fectp

/-!
# Structural transforms

A payload of interleaved integer samples is written channel by channel, each
sample as its difference from the one before it; an array of fixed-size
elements is written byte position by byte position.  What a transform writes it
reads back, and reading never leaves its buffers, whatever the bytes are.
-/

open Buffer (sliceFrom sliceTo lift Safe)

variable {index channel room capacity samples read : Nat} {previous : BitVec 32}
    {list elements positions : List Nat} {out : Bytes}

namespace Numeric

/-- Reads one little-endian sample, sign-extended. -/
def readSample (bytes : Bytes) (width : Nat) :
    Except (Halt CoreError) (BitVec 32) :=
  if width = 2 then do
    let field ← sliceTo bytes 2
    return (BitVec.ofNat 16 (LittleEndian.decode field)).signExtend 32
  else do
    let field ← sliceTo bytes 4
    return BitVec.ofNat 32 (LittleEndian.decode field)

/-- One little-endian sample as it is written. -/
def sampleBytes (value : BitVec 32) (width : Nat) : Bytes :=
  if width = 2 then
    LittleEndian.encode 2 (value.setWidth 16).toNat
  else
    LittleEndian.encode 4 value.toNat

/-- Samples in each channel. -/
def frameLayout (len channels width : Nat) : Except CoreError Nat :=
  if channels = 0 then
    .error .badHeader
  else
    let stride := channels * width
    if len % stride ≠ 0 then
      .error .badHeader
    else
      .ok (len / stride)

/-- Where a sample of a channel stands among all samples. -/
def place (channels channel sample : Nat) : Nat :=
  sample * channels + channel

/-- Writes some samples of a channel into the room that is left. -/
def encodeSamples (input : Bytes) (channels width channel : Nat) :
    List Nat → BitVec 32 → Nat → Except (Halt CoreError) Bytes
  | [], _, _ =>
      .ok []
  | sample :: rest, previous, room => do
      let bytes ← sliceFrom input (place channels channel sample * width)
      let value ← readSample bytes width
      let delta := value - previous
      let front ← lift (Varint.encode room (Varint.zigzag delta))
      let back ←
        encodeSamples input channels width channel rest value
          (room - front.length)
      return front ++ back

def encodeChannels (input : Bytes) (channels width samples : Nat) :
    List Nat → Nat → Except (Halt CoreError) Bytes
  | [], _ =>
      .ok []
  | channel :: rest, room => do
      let front ←
        encodeSamples input channels width channel (List.range samples) 0#32
          room
      let back ←
        encodeChannels input channels width samples rest (room - front.length)
      return front ++ back

def encode (input : Bytes) (channels width room : Nat) :
    Except (Halt CoreError) Bytes := do
  let samples ← lift (frameLayout input.length channels width)
  encodeChannels input channels width samples (List.range channels) room

/-- Reads some samples of a channel, from one position of the input on. -/
def decodeSamples (input : Bytes) (channels width channel : Nat) :
    List Nat → BitVec 32 → Nat → Bytes → Except (Halt CoreError) (Nat × Bytes)
  | [], _, read, out =>
      .ok (read, out)
  | sample :: rest, previous, read, out => do
      let remaining ← sliceFrom input read
      let (encoded, used) ← lift (Varint.decode remaining)
      let value := previous + Varint.unzigzag encoded
      let out ←
        Buffer.write out (place channels channel sample * width)
          (sampleBytes value width)
      decodeSamples input channels width channel rest value (read + used) out

def decodeChannels (input : Bytes) (channels width samples : Nat) :
    List Nat → Nat → Bytes → Except (Halt CoreError) (Nat × Bytes)
  | [], read, out =>
      .ok (read, out)
  | channel :: rest, read, out => do
      let (read, out) ←
        decodeSamples input channels width channel (List.range samples) 0#32
          read out
      decodeChannels input channels width samples rest read out

/-- The length decoded, and what the buffer holds then. -/
def decode (input : Bytes) (channels width originalLen : Nat) (out : Bytes) :
    Except (Halt CoreError) (Nat × Bytes) := do
  let samples ← lift (frameLayout originalLen channels width)
  if out.length < originalLen then
    .error (.failed .bufferTooSmall)
  else
    let (read, out) ←
      decodeChannels input channels width samples (List.range channels) 0 out
    if read ≠ input.length then
      .error (.failed .badHeader)
    else
      return (originalLen, out)

/-! ### Samples are read back -/

theorem setWidth_signExtend (value : BitVec 16) :
    (value.signExtend 32).setWidth 16 = value := by
  apply BitVec.eq_of_getLsbD_eq
  intro i inRange
  have inWord : i < 32 := by
    omega
  rw [BitVec.getLsbD_setWidth, BitVec.getLsbD_signExtend]
  simp only [inRange, inWord, decide_true, Bool.true_and, if_true]

variable {bytes : Bytes} {width channels : Nat} {value : BitVec 32}

theorem encode_field {len : Nat} (inRange : len ≤ bytes.length) :
    LittleEndian.encode len (LittleEndian.decode (bytes.take len) % 2 ^ (8 * len)) =
      bytes.take len := by
  have isLength := List.length_take_of_le inRange
  have fits := LittleEndian.decode_lt (bytes.take len)
  have back := LittleEndian.encode_decode (bytes.take len)
  rw [isLength] at fits back
  rw [Nat.pow_mul, Nat.mod_eq_of_lt fits, back]

/-- A sample that was read is written as it was. -/
theorem sampleBytes_readSample {input : Bytes} (isWidth : width = 2 ∨ width = 4)
    (reads : readSample (input.drop (index * width)) width = .ok value) :
    sampleBytes value width = Chunks.chunk width input index ∧
      (Chunks.chunk width input index).length = width := by
  unfold readSample at reads
  unfold sampleBytes Chunks.chunk
  rcases isWidth with rfl | rfl
  · obtain ⟨field, slices, returns⟩ := Buffer.bind_eq_ok.mp reads
    obtain ⟨inRange, rfl⟩ := Buffer.sliceTo_eq_ok.mp slices
    cases returns
    refine ⟨?_, List.length_take_of_le inRange⟩
    rw [setWidth_signExtend, BitVec.toNat_ofNat]
    exact encode_field inRange
  · obtain ⟨field, slices, returns⟩ := Buffer.bind_eq_ok.mp reads
    obtain ⟨inRange, rfl⟩ := Buffer.sliceTo_eq_ok.mp slices
    cases returns
    refine ⟨?_, List.length_take_of_le inRange⟩
    exact encode_field inRange

section RoundTrip

variable {input : Bytes} {channels width : Nat}

/-- The samples of a channel that were written are put back in their places. -/
theorem decodeSamples_encodeSamples (isWidth : width = 2 ∨ width = 4)
    {samples : List Nat} {bytes : Bytes}
    (encodes : encodeSamples input channels width channel samples previous room = .ok bytes)
    (fits : ∀ sample ∈ samples, (place channels channel sample + 1) * width ≤ capacity) :
    Buffer.Restores width capacity input bytes (samples.map (place channels channel)) fun body =>
        decodeSamples body channels width channel samples previous := by
  induction samples generalizing previous room bytes with
  | nil =>
    cases encodes
    exact .nil
  | cons sample rest inductionHypothesis =>
    obtain ⟨field, slices, encodes⟩ := Buffer.bind_eq_ok.mp encodes
    obtain ⟨_, rfl⟩ := Buffer.sliceFrom_eq_ok.mp slices
    obtain ⟨value, reads, encodes⟩ := Buffer.bind_eq_ok.mp encodes
    obtain ⟨front, lifts, encodes⟩ := Buffer.bind_eq_ok.mp encodes
    have varint := Buffer.lift_eq_ok.mp lifts
    obtain ⟨back, encodesRest, returns⟩ := Buffer.bind_eq_ok.mp encodes
    cases returns
    obtain ⟨isChunk, isLength⟩ := sampleBytes_readSample isWidth reads
    obtain ⟨whole, fits⟩ := List.forall_mem_cons.mp fits
    refine .cons (inductionHypothesis encodesRest fits) whole isLength
      fun before after out isCapacity => ?_
    have slicesHere : sliceFrom (ε := CoreError) (before ++ (front ++ after)) before.length =
          .ok (front ++ after) := by
      refine Buffer.sliceFrom_eq_ok.mpr ⟨?_, List.drop_left.symm⟩
      rw [List.length_append]
      exact Nat.le_add_right _ _
    rw [decodeSamples, slicesHere]
    show (lift (Varint.decode (front ++ after)) >>= _) = _
    rw [Varint.decode_encode varint]
    show (Buffer.write out _ (sampleBytes
      (previous + Varint.unzigzag (Varint.zigzag (value - previous)))
      width) >>= _) = _
    rw [Varint.add_unzigzag_sub, isChunk, Buffer.write_eq_ok.mpr ⟨?_, rfl⟩,
      List.append_assoc, List.length_append]
    · rfl
    · rw [isLength, ← Nat.succ_mul, isCapacity]
      exact whole

theorem decodeChannels_encodeChannels
    (isWidth : width = 2 ∨ width = 4) {bytes : Bytes}
    (encodes : encodeChannels input channels width samples list room = .ok bytes)
    (fits : ∀ channel ∈ list,
        ∀ sample < samples, (place channels channel sample + 1) * width ≤ capacity) :
    Buffer.Restores width capacity input bytes (list.flatMap fun channel =>
        (List.range samples).map (place channels channel))
      fun body => decodeChannels body channels width samples list := by
  induction list generalizing room bytes with
  | nil =>
    cases encodes
    exact .nil
  | cons channel rest inductionHypothesis =>
    obtain ⟨front, encodesFirst, encodes⟩ := Buffer.bind_eq_ok.mp encodes
    obtain ⟨back, encodesRest, returns⟩ := Buffer.bind_eq_ok.mp encodes
    cases returns
    obtain ⟨here, fits⟩ := List.forall_mem_cons.mp fits
    have first :=
      decodeSamples_encodeSamples isWidth encodesFirst
        fun sample member => here sample (List.mem_range.mp member)
    exact first.append (inductionHypothesis encodesRest fits)

end RoundTrip

/-- Every place is that of one sample of one channel. -/
theorem mem_places (someChannel : 0 < channels) (inRange : index < samples * channels) :
    index ∈ (List.range channels).flatMap fun channel =>
        (List.range samples).map (place channels channel) := by
  refine List.mem_flatMap.mpr ⟨index % channels, List.mem_range.mpr (Nat.mod_lt index someChannel),
    List.mem_map.mpr ⟨index / channels, ?_, Nat.div_add_mod' index channels⟩⟩
  rw [List.mem_range]
  exact Nat.div_lt_of_lt_mul (Nat.mul_comm samples channels ▸ inRange)

theorem place_lt
    {sample : Nat} (inChannel : channel < channels) (inSamples : sample < samples) :
    place channels channel sample < samples * channels := by
  calc
    sample * channels + channel < sample * channels + channels := Nat.add_lt_add_left inChannel _
    _ = (sample + 1) * channels := (Nat.succ_mul sample channels).symm
    _ ≤ samples * channels := Nat.mul_le_mul_right channels inSamples

theorem frameLayout_eq_ok
    {len : Nat} (lays : frameLayout len channels width = .ok samples) :
    0 < channels ∧ len = samples * channels * width := by
  unfold frameLayout at lays
  split at lays
  · cases lays
  next someChannel =>
  dsimp only at lays
  split at lays
  · cases lays
  next whole =>
  cases lays
  refine ⟨Nat.pos_of_ne_zero someChannel, ?_⟩
  rw [Nat.mul_assoc]
  exact (Nat.div_mul_cancel (Nat.dvd_of_mod_eq_zero (not_not.mp whole))).symm

/-- What was written is read back into any buffer that holds it. -/
theorem decode_encode {input : Bytes} (isWidth : width = 2 ∨ width = 4)
    (encodes : encode input channels width room = .ok bytes) (holds : input.length ≤ out.length) :
    ∃ written, decode bytes channels width input.length out = .ok (input.length, written) ∧
        written.length = out.length ∧
        written.take input.length = input := by
  obtain ⟨samples, lays, encodes⟩ := Buffer.bind_eq_ok.mp encodes
  obtain ⟨someChannel, isLength⟩ := frameLayout_eq_ok (Buffer.lift_eq_ok.mp lays)
  have nothing : Chunks.Agrees width input out fun _ => False := nofun
  obtain ⟨written, decodes, sameLength, agrees⟩ :=
    decodeChannels_encodeChannels isWidth encodes (fun channel member sample inSamples => by
        refine Nat.le_trans ?_ holds
        rw [isLength]
        exact Nat.mul_le_mul_right width (place_lt (List.mem_range.mp member) inSamples))
      [] [] out _ rfl nothing
  dsimp only at decodes
  refine ⟨written, ?_, sameLength, ?_⟩
  · rw [List.nil_append, List.append_nil] at decodes
    rw [decode, lays]
    show (if out.length < input.length then _ else _) = _
    rw [if_neg (Nat.not_lt.mpr holds)]
    rw [show ([] : Bytes).length = 0 from rfl, Nat.zero_add] at decodes
    rw [decodes]
    exact if_neg (not_not.mpr rfl)
  · have front :=
      agrees.take_eq fun index inRange =>
        Or.inr (mem_places someChannel inRange)
    rw [← isLength, List.take_length] at front
    exact front

/-! ### Reading stays in range -/

theorem sampleBytes_length (isWidth : width = 2 ∨ width = 4) (value : BitVec 32) :
    (sampleBytes value width).length = width := by
  unfold sampleBytes
  rcases isWidth with rfl | rfl
  · rw [if_pos rfl, LittleEndian.encode_length]
  · rw [if_neg (by decide), LittleEndian.encode_length]

section Safety

variable {input : Bytes} {channels width capacity : Nat}

theorem decodeSamples_safe
    (isWidth : width = 2 ∨ width = 4) {samples : List Nat} (isCapacity : out.length = capacity) (inInput : read ≤ input.length)
    (fits : ∀ sample ∈ samples, (place channels channel sample + 1) * width ≤ capacity)
    (previous : BitVec 32) :
    Safe (fun result =>
        result.1 ≤ input.length ∧ result.2.length = capacity)
      (decodeSamples input channels width channel samples previous read out) := by
  induction samples generalizing previous read out with
  | nil => exact ⟨inInput, isCapacity⟩
  | cons sample rest inductionHypothesis =>
    refine (Buffer.sliceFrom_safe inInput).bind ?_
    rintro _ rfl
    refine (Buffer.lift_safe _).bind ?_
    rintro ⟨encoded, used⟩ decodes
    have inRest := Varint.decode_used decodes
    rw [List.length_drop] at inRest
    obtain ⟨whole, fits⟩ := List.forall_mem_cons.mp fits
    refine (Buffer.write_safe ?_).bind ?_
    · rw [sampleBytes_length isWidth, ← Nat.succ_mul, isCapacity]
      exact whole
    · intro written sameLength
      exact inductionHypothesis (sameLength.trans isCapacity) (by omega) fits _

theorem decodeChannels_safe (isWidth : width = 2 ∨ width = 4) (isCapacity : out.length = capacity) (inInput : read ≤ input.length)
    (fits : ∀ channel ∈ list,
        ∀ sample < samples, (place channels channel sample + 1) * width ≤ capacity) :
    Safe (fun result =>
        result.1 ≤ input.length ∧ result.2.length = capacity)
      (decodeChannels input channels width samples list read out) := by
  induction list generalizing read out with
  | nil => exact ⟨inInput, isCapacity⟩
  | cons channel rest inductionHypothesis =>
    obtain ⟨here, fits⟩ := List.forall_mem_cons.mp fits
    refine (decodeSamples_safe isWidth isCapacity inInput ?_ _).bind ?_
    · intro sample member
      exact here sample (List.mem_range.mp member)
    · rintro ⟨further, written⟩ ⟨inFurther, sameLength⟩
      exact inductionHypothesis sameLength inFurther fits

/-- Whatever the bytes, reading fails or gives the length asked for. -/
theorem decode_safe (isWidth : width = 2 ∨ width = 4) (originalLen : Nat) (out : Bytes) :
    Safe (fun result =>
        result.1 = originalLen ∧ result.2.length = out.length)
      (decode input channels width originalLen out) := by
  refine (Buffer.lift_safe _).bind ?_
  intro samples lays
  obtain ⟨_, isLength⟩ := frameLayout_eq_ok lays
  split
  · trivial
  next holds =>
  refine (decodeChannels_safe isWidth rfl (Nat.zero_le _) ?_).bind ?_
  · intro channel member sample inSamples
    refine Nat.le_trans ?_ (Nat.le_of_not_lt holds)
    rw [isLength]
    exact Nat.mul_le_mul_right width (place_lt (List.mem_range.mp member) inSamples)
  · rintro ⟨read, written⟩ ⟨_, sameLength⟩
    dsimp only
    split
    · trivial
    · exact ⟨rfl, sameLength⟩

end Safety

/-! ### Writing at most doubles -/

/-- A value read as a sample of this width lies in its range. -/
def Sampled (width : Nat) (value : BitVec 32) : Prop :=
  width = 2 → -32768 ≤ value.toInt ∧ value.toInt < 32768

theorem sampled_of_readSample (reads : readSample bytes width = .ok value) :
    Sampled width value := by
  rintro rfl
  obtain ⟨field, _, returns⟩ := Buffer.bind_eq_ok.mp reads
  cases returns
  rw [BitVec.toInt_signExtend_of_le (by decide)]
  exact ⟨BitVec.le_toInt _, BitVec.toInt_lt⟩

theorem encode_delta_length (isWidth : width = 2 ∨ width = 4)
    (isValue : Sampled width value) (isPrevious : Sampled width previous)
    (encodes : Varint.encode room (Varint.zigzag (value - previous)) = .ok bytes) :
    bytes.length ≤ 2 * width := by
  rcases isWidth with rfl | rfl
  · obtain ⟨valueLow, valueHigh⟩ := isValue rfl
    obtain ⟨previousLow, previousHigh⟩ := isPrevious rfl
    have isDelta : (value - previous).toInt = value.toInt - previous.toInt := by
      rw [BitVec.toInt_sub]
      exact Int.bmod_eq_of_le (by omega) (by omega)
    have isSmall := Varint.toNat_zigzag (value - previous)
    have fits : (Varint.zigzag (value - previous)).toNat < 2 ^ (7 * (3 + 1)) := by
      split at isSmall <;> omega
    exact Varint.encode_length encodes fits
  · have fits : (Varint.zigzag (value - previous)).toNat < 2 ^ (7 * (7 + 1)) :=
      Nat.lt_trans (Varint.zigzag (value - previous)).isLt (by decide)
    exact Varint.encode_length encodes fits

section Length

variable {input : Bytes} {channels width : Nat}

theorem encodeSamples_length
    (isWidth : width = 2 ∨ width = 4) {samples : List Nat} {bytes : Bytes} (isPrevious : Sampled width previous)
    (encodes : encodeSamples input channels width channel samples previous room = .ok bytes) :
    bytes.length ≤ samples.length * (2 * width) := by
  induction samples generalizing previous room bytes with
  | nil =>
    cases encodes
    exact Nat.zero_le _
  | cons sample rest inductionHypothesis =>
    obtain ⟨field, _, encodes⟩ := Buffer.bind_eq_ok.mp encodes
    obtain ⟨value, reads, encodes⟩ := Buffer.bind_eq_ok.mp encodes
    obtain ⟨front, lifts, encodes⟩ := Buffer.bind_eq_ok.mp encodes
    obtain ⟨back, encodesRest, returns⟩ := Buffer.bind_eq_ok.mp encodes
    cases returns
    have isValue := sampled_of_readSample reads
    have frontLength := encode_delta_length isWidth isValue isPrevious (Buffer.lift_eq_ok.mp lifts)
    have backLength := inductionHypothesis isValue encodesRest
    rw [List.length_append, List.length_cons, Nat.succ_mul]
    omega

theorem encodeChannels_length
    (isWidth : width = 2 ∨ width = 4) {bytes : Bytes}
    (encodes : encodeChannels input channels width samples list room = .ok bytes) :
    bytes.length ≤ list.length * (samples * (2 * width)) := by
  induction list generalizing room bytes with
  | nil =>
    cases encodes
    exact Nat.zero_le _
  | cons channel rest inductionHypothesis =>
    obtain ⟨front, encodesFirst, encodes⟩ := Buffer.bind_eq_ok.mp encodes
    obtain ⟨back, encodesRest, returns⟩ := Buffer.bind_eq_ok.mp encodes
    cases returns
    have isZero : Sampled width 0#32 := by
      intro _
      decide
    have frontLength := encodeSamples_length isWidth isZero encodesFirst
    rw [List.length_range] at frontLength
    have backLength := inductionHypothesis encodesRest
    rw [List.length_append, List.length_cons, Nat.succ_mul]
    omega

theorem encode_length {room : Nat} {bytes : Bytes} (isWidth : width = 2 ∨ width = 4)
    (encodes : encode input channels width room = .ok bytes) :
    bytes.length ≤ 2 * input.length := by
  obtain ⟨samples, lays, encodes⟩ := Buffer.bind_eq_ok.mp encodes
  obtain ⟨_, isLength⟩ := frameLayout_eq_ok (Buffer.lift_eq_ok.mp lays)
  have bounded := encodeChannels_length isWidth encodes
  rw [List.length_range] at bounded
  calc
    bytes.length ≤ channels * (samples * (2 * width)) := bounded
    _ = 2 * (samples * channels * width) := by
          ring
    _ = 2 * input.length := by
          rw [isLength]

end Length

end Numeric

namespace Transpose

/-- Reads the bytes at some positions of an array's elements, in that order. -/
def gather (input : Bytes) (elementSize byte : Nat) :
    List Nat → Except (Halt CoreError) Bytes
  | [] =>
      .ok []
  | element :: rest => do
      let front ← Buffer.read input (Numeric.place elementSize byte element)
      let back ← gather input elementSize byte rest
      return front :: back

def gatherAll (input : Bytes) (elementSize elements : Nat) :
    List Nat → Except (Halt CoreError) Bytes
  | [] =>
      .ok []
  | byte :: rest => do
      let front ← gather input elementSize byte (List.range elements)
      let back ← gatherAll input elementSize elements rest
      return front ++ back

def encode (input : Bytes) (elementSize room : Nat) :
    Except (Halt CoreError) Bytes :=
  if elementSize = 0 then
    .error (.failed .badHeader)
  else if room < input.length then
    .error (.failed .bufferTooSmall)
  else do
    let elements := input.length / elementSize
    let body := elements * elementSize
    let front ← gatherAll input elementSize elements (List.range elementSize)
    let back ← sliceFrom input body
    return front ++ back

/-- Writes the bytes of one position into an array's elements. -/
def scatter (input : Bytes) (elementSize byte : Nat) :
    List Nat → Nat → Bytes → Except (Halt CoreError) (Nat × Bytes)
  | [], read, out =>
      .ok (read, out)
  | element :: rest, read, out => do
      let item ← Buffer.read input read
      let out ← Buffer.write out (Numeric.place elementSize byte element) [item]
      scatter input elementSize byte rest (read + 1) out

def scatterAll (input : Bytes) (elementSize elements : Nat) :
    List Nat → Nat → Bytes → Except (Halt CoreError) (Nat × Bytes)
  | [], read, out =>
      .ok (read, out)
  | byte :: rest, read, out => do
      let (read, out) ←
        scatter input elementSize byte (List.range elements) read out
      scatterAll input elementSize elements rest read out

def decode (input : Bytes) (elementSize : Nat) (out : Bytes) :
    Except (Halt CoreError) (Nat × Bytes) :=
  if elementSize = 0 then
    .error (.failed .badHeader)
  else if out.length < input.length then
    .error (.failed .bufferTooSmall)
  else do
    let elements := input.length / elementSize
    let body := elements * elementSize
    let (_, out) ←
      scatterAll input elementSize elements (List.range elementSize) 0 out
    let back ← sliceFrom input body
    let out ← Buffer.write out body back
    return (input.length, out)

variable {input : Bytes}

theorem read_eq_ok {item : UInt8} :
    Buffer.read (ε := CoreError) input index = .ok item ↔ input[index]? = some item := by
  unfold Buffer.read
  cases input[index]? with
  | none => exact iff_of_false (nomatch ·) (nomatch ·)
  | some found => simp

theorem chunk_one {item : UInt8} (isItem : input[index]? = some item) :
    Chunks.chunk 1 input index = [item] := by
  rw [Chunks.chunk, Nat.mul_one]
  obtain ⟨inRange, isHere⟩ := List.getElem?_eq_some_iff.mp isItem
  rw [List.drop_eq_getElem_cons inRange, isHere]
  rfl

variable {bytes : Bytes}

section RoundTrip

variable {input : Bytes} {elementSize : Nat}

theorem scatter_gather {byte : Nat}
    (gathers : gather input elementSize byte elements = .ok bytes)
    (fits : ∀ element ∈ elements, Numeric.place elementSize byte element < capacity) :
    Buffer.Restores 1 capacity input bytes (elements.map (Numeric.place elementSize byte))
      fun body => scatter body elementSize byte elements := by
  induction elements generalizing bytes with
  | nil =>
    cases gathers
    exact .nil
  | cons element rest inductionHypothesis =>
    obtain ⟨item, reads, gathers⟩ := Buffer.bind_eq_ok.mp gathers
    obtain ⟨back, gathersRest, returns⟩ := Buffer.bind_eq_ok.mp gathers
    cases returns
    have isChunk := chunk_one (read_eq_ok.mp reads)
    obtain ⟨inRange, fits⟩ := List.forall_mem_cons.mp fits
    show Buffer.Restores 1 capacity input ([item] ++ back) _ _
    refine .cons (inductionHypothesis gathersRest fits)
      (by rwa [Nat.mul_one]) (by rw [isChunk]; rfl)
      fun before after out isCapacity => ?_
    have readsHere : Buffer.read (ε := CoreError) (before ++ ([item] ++ after)) before.length =
          .ok item := by
      refine read_eq_ok.mpr ?_
      rw [List.getElem?_append_right (Nat.le_refl _), Nat.sub_self]
      rfl
    rw [scatter, readsHere]
    show (Buffer.write out _ [item] >>= _) = _
    rw [Buffer.write_eq_ok.mpr ⟨isCapacity.symm ▸ inRange, rfl⟩, isChunk,
      Nat.mul_one, List.append_assoc, List.length_append]
    rfl

theorem scatterAll_gatherAll {elements : Nat}
    (gathers : gatherAll input elementSize elements positions = .ok bytes)
    (fits : ∀ byte ∈ positions,
        ∀ element < elements, Numeric.place elementSize byte element < capacity) :
    Buffer.Restores 1 capacity input bytes (positions.flatMap fun byte =>
        (List.range elements).map (Numeric.place elementSize byte))
      fun body => scatterAll body elementSize elements positions := by
  induction positions generalizing bytes with
  | nil =>
    cases gathers
    exact .nil
  | cons byte rest inductionHypothesis =>
    obtain ⟨front, gathersFirst, gathers⟩ := Buffer.bind_eq_ok.mp gathers
    obtain ⟨back, gathersRest, returns⟩ := Buffer.bind_eq_ok.mp gathers
    cases returns
    obtain ⟨here, fits⟩ := List.forall_mem_cons.mp fits
    have first :=
      scatter_gather gathersFirst fun element member =>
        here element (List.mem_range.mp member)
    exact first.append (inductionHypothesis gathersRest fits)

end RoundTrip

section Lengths

variable {input : Bytes} {elementSize : Nat}

theorem gather_length {byte : Nat}
    (gathers : gather input elementSize byte elements = .ok bytes) :
    bytes.length = elements.length := by
  induction elements generalizing bytes with
  | nil =>
    cases gathers
    rfl
  | cons element rest inductionHypothesis =>
    obtain ⟨item, _, gathers⟩ := Buffer.bind_eq_ok.mp gathers
    obtain ⟨back, gathersRest, returns⟩ := Buffer.bind_eq_ok.mp gathers
    cases returns
    rw [List.length_cons, List.length_cons, inductionHypothesis gathersRest]

theorem gatherAll_length {elements : Nat}
    (gathers : gatherAll input elementSize elements positions = .ok bytes) :
    bytes.length = elements * positions.length := by
  induction positions generalizing bytes with
  | nil =>
    cases gathers
    rfl
  | cons byte rest inductionHypothesis =>
    obtain ⟨front, gathersFirst, gathers⟩ := Buffer.bind_eq_ok.mp gathers
    obtain ⟨back, gathersRest, returns⟩ := Buffer.bind_eq_ok.mp gathers
    cases returns
    rw [List.length_append, gather_length gathersFirst,
      inductionHypothesis gathersRest, List.length_range,
      List.length_cons, Nat.mul_succ, Nat.add_comm]

end Lengths

/-- What a transposition consists of: the elements, and what is left. -/
theorem encode_eq_ok {elementSize : Nat} (encodes : encode input elementSize room = .ok bytes) :
    0 < elementSize ∧ ∃ front, gatherAll input elementSize (input.length / elementSize)
            (List.range elementSize) = .ok front ∧
          bytes = front ++ input.drop (input.length / elementSize * elementSize) ∧
          bytes.length = input.length := by
  unfold encode at encodes
  split at encodes
  · cases encodes
  next someSize =>
  split at encodes
  · cases encodes
  obtain ⟨front, gathers, encodes⟩ := Buffer.bind_eq_ok.mp encodes
  obtain ⟨back, slices, returns⟩ := Buffer.bind_eq_ok.mp encodes
  cases returns
  obtain ⟨inRange, rfl⟩ := Buffer.sliceFrom_eq_ok.mp slices
  refine ⟨Nat.pos_of_ne_zero someSize, front, gathers, rfl, ?_⟩
  rw [List.length_append, gatherAll_length gathers, List.length_range, List.length_drop]
  omega

/-- What was transposed is put back into any buffer that holds it. -/
theorem decode_encode {elementSize : Nat}
    (encodes : encode input elementSize room = .ok bytes) (holds : input.length ≤ out.length) :
    ∃ written, decode bytes elementSize out = .ok (input.length, written) ∧
        written.length = out.length ∧
        written.take input.length = input := by
  obtain ⟨someSize, front, gathers, isBytes, sameLength⟩ := encode_eq_ok encodes
  generalize isElements : input.length / elementSize = elements at *
  have body : elements * elementSize ≤ input.length := by
    rw [← isElements]
    exact Nat.div_mul_le_self _ _
  have nothing : Chunks.Agrees 1 input out fun _ => False := nofun
  obtain ⟨middle, scatters, middleLength, agrees⟩ :=
    scatterAll_gatherAll gathers (fun byte member element inElements =>
        Nat.lt_of_lt_of_le (Numeric.place_lt (List.mem_range.mp member) inElements)
          (Nat.le_trans body holds))
      [] (input.drop (elements * elementSize)) out _ rfl nothing
  dsimp only at scatters
  have isFront :=
    agrees.take_eq fun index inRange =>
      Or.inr (Numeric.mem_places someSize inRange)
  rw [Nat.mul_one] at isFront
  have frontLength : front.length = elements * elementSize := by
    rw [gatherAll_length gathers, List.length_range]
  have slices : sliceFrom (ε := CoreError) bytes (elements * elementSize) =
        .ok (input.drop (elements * elementSize)) := by
    refine Buffer.sliceFrom_eq_ok.mpr ⟨sameLength ▸ body, ?_⟩
    rw [isBytes, ← frontLength, List.drop_left]
  have inRange : elements * elementSize +
          (input.drop (elements * elementSize)).length ≤
        middle.length := by
    rw [List.length_drop, Nat.add_sub_cancel' body, middleLength]
    exact holds
  refine ⟨Chunks.overwrite middle (elements * elementSize)
    (input.drop (elements * elementSize)), ?_, ?_, ?_⟩
  · rw [List.nil_append, ← isBytes, List.length_nil] at scatters
    unfold decode
    rw [if_neg (Nat.pos_iff_ne_zero.mp someSize), sameLength, isElements,
      if_neg (Nat.not_lt.mpr holds)]
    dsimp only
    rw [scatters]
    show (sliceFrom bytes (elements * elementSize) >>= _) = _
    rw [slices]
    show (Buffer.write middle _ _ >>= _) = _
    rw [Buffer.write_eq_ok.mpr ⟨inRange, rfl⟩]
    rfl
  · exact (Chunks.overwrite_length inRange).trans middleLength
  · have bodyLength : (middle.take (elements * elementSize)).length =
          elements * elementSize :=
      List.length_take_of_le (Nat.le_trans body (middleLength ▸ holds))
    have restLength : (input.drop (elements * elementSize)).length =
          input.length - elements * elementSize :=
      List.length_drop
    unfold Chunks.overwrite
    rw [List.take_append, bodyLength, List.take_of_length_le
      (by rw [bodyLength]; exact body), isFront, List.take_append,
      restLength, Nat.sub_self, List.take_zero, List.append_nil,
      List.take_of_length_le (Nat.le_of_eq restLength),
      List.take_append_drop]

/-! ### Putting back stays in range -/

section Safety

variable {input : Bytes} {elementSize capacity : Nat}

theorem scatter_safe
    {byte : Nat} (isCapacity : out.length = capacity)
    (inInput : read + elements.length ≤ input.length)
    (fits : ∀ element ∈ elements, Numeric.place elementSize byte element < capacity) :
    Safe (fun result =>
        result.1 = read + elements.length ∧ result.2.length = capacity)
      (scatter input elementSize byte elements read out) := by
  induction elements generalizing read out with
  | nil => exact ⟨rfl, isCapacity⟩
  | cons element rest inductionHypothesis =>
    rw [List.length_cons] at inInput
    have inRange : read < input.length := by
      omega
    have reads : Buffer.read (ε := CoreError) input read = .ok input[read] :=
      read_eq_ok.mpr (List.getElem?_eq_getElem inRange)
    rw [scatter, reads]
    obtain ⟨here, fits⟩ := List.forall_mem_cons.mp fits
    refine (Buffer.write_safe (isCapacity.symm ▸ here)).bind ?_
    intro written sameLength
    have safe :=
      @inductionHypothesis (read + 1) written (sameLength.trans isCapacity) (by omega) fits
    rw [Nat.add_assoc, Nat.add_comm 1] at safe
    exact safe

theorem scatterAll_safe
    {elements : Nat} (isCapacity : out.length = capacity)
    (inInput : read + elements * positions.length ≤ input.length)
    (fits : ∀ byte ∈ positions,
        ∀ element < elements, Numeric.place elementSize byte element < capacity) :
    Safe (fun result => result.2.length = capacity)
      (scatterAll input elementSize elements positions read out) := by
  induction positions generalizing read out with
  | nil => exact isCapacity
  | cons byte rest inductionHypothesis =>
    rw [List.length_cons, Nat.mul_succ] at inInput
    obtain ⟨here, fits⟩ := List.forall_mem_cons.mp fits
    refine (scatter_safe isCapacity ?_ ?_).bind ?_
    · rw [List.length_range]
      omega
    · intro element member
      exact here element (List.mem_range.mp member)
    · rintro ⟨further, written⟩ ⟨isFurther, sameLength⟩
      rw [List.length_range] at isFurther
      exact inductionHypothesis sameLength (by omega) fits

/-- Whatever the bytes, putting back fails or gives their length. -/
theorem decode_safe (out : Bytes) :
    Safe (fun result =>
        result.1 = input.length ∧ result.2.length = out.length)
      (decode input elementSize out) := by
  unfold decode
  split
  · trivial
  split
  · trivial
  next holds =>
  have body : input.length / elementSize * elementSize ≤ input.length :=
    Nat.div_mul_le_self _ _
  refine (scatterAll_safe rfl ?_ ?_).bind ?_
  · rw [Nat.zero_add, List.length_range]
    exact body
  · intro byte member element inElements
    refine Nat.lt_of_lt_of_le (Numeric.place_lt (List.mem_range.mp member) inElements) ?_
    omega
  · rintro ⟨_, written⟩ sameLength
    refine (Buffer.sliceFrom_safe body).bind ?_
    rintro _ rfl
    refine (Buffer.write_safe ?_).bind ?_
    · rw [List.length_drop, sameLength]
      omega
    · intro final finalLength
      exact ⟨rfl, finalLength.trans sameLength⟩

end Safety

end Transpose

end Fectp
