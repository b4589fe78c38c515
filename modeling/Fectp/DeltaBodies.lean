import Mathlib.Data.List.Nodup
import Fectp.PayloadCoding

namespace Fectp

/-!
# Bodies of delta-coded samples

A body spells the differences between the samples of each channel.  Reading
sums them up in 32 bits and keeps the low bits of a narrower sample, while
writing spells the differences between the samples as they are.  The two agree
on a body whose sums never leave the range of a sample.
-/

open Buffer (sliceFrom sliceTo lift)

variable {channel read further : Nat} {previous : BitVec 32} {out written : Bytes}

namespace Numeric

/-- The differences a body spells, up to this many of them. -/
def differences : Nat → Bytes → List (BitVec 32)
  | 0, _ =>
      []
  | count + 1, body =>
      match Varint.decode body with
      | .error _ =>
          []
      | .ok (encoded, used) =>
          Varint.unzigzag encoded :: differences count (body.drop used)

/-- The sums of the differences are in the range of a sample throughout. -/
def Within (width : Nat) : BitVec 32 → List (BitVec 32) → Prop
  | _, [] =>
      True
  | sum, delta :: rest =>
      Sampled width (sum + delta) ∧ Within width (sum + delta) rest

/-- The sums of the differences of each channel are. -/
def SumsFit (width channels samples : Nat) (body : Bytes) : Prop :=
  ∀ channel < channels,
    Within width 0#32
      (Chunks.chunk samples (differences (channels * samples) body) channel)

instance (width : Nat) (value : BitVec 32) :
    Decidable (Sampled width value) :=
  inferInstanceAs
    (Decidable (width = 2 → -32768 ≤ value.toInt ∧ value.toInt < 32768))

instance decidableWithin (width : Nat) :
    ∀ sum deltas, Decidable (Within width sum deltas)
  | _, [] =>
      inferInstanceAs (Decidable True)
  | sum, delta :: rest =>
      have := decidableWithin width (sum + delta) rest
      inferInstanceAs
        (Decidable
          (Sampled width (sum + delta) ∧ Within width (sum + delta) rest))

instance (width channels samples : Nat) (body : Bytes) :
    Decidable (SumsFit width channels samples body) :=
  Nat.decidableBallLT _ _

variable {width channels : Nat}

/-! ### Samples written are samples read -/

/-- Narrowing a value keeps it where it is in the range of a sample. -/
theorem signExtend_setWidth_eq_iff (value : BitVec 32) :
    (value.setWidth 16).signExtend 32 = value ↔ Sampled 2 value := by
  constructor
  · intro kept _
    rw [← kept, BitVec.toInt_signExtend_of_le (by decide)]
    exact ⟨BitVec.le_toInt _, BitVec.toInt_lt⟩
  · intro inRange
    obtain ⟨low, high⟩ := inRange rfl
    apply BitVec.eq_of_toInt_eq
    have sameLow : (value.toNat : Int).bmod (2 ^ 16) = value.toInt.bmod (2 ^ 16) := by
      rw [BitVec.toInt_eq_toNat_bmod, Int.bmod_bmod_of_dvd (by decide)]
    rw [BitVec.toInt_signExtend_of_le (by decide), BitVec.toInt_setWidth, sameLow]
    exact Int.bmod_eq_of_le low (by omega)

/-- No two samples have the same place. -/
theorem place_inj {other sample another : Nat} (isChannel : channel < channels)
    (isOther : other < channels)
    (same : place channels channel sample = place channels other another) :
    channel = other ∧ sample = another := by
  unfold place at same
  have sameChannel := congrArg (· % channels) same
  simp only [Nat.mul_add_mod_self_right, Nat.mod_eq_of_lt isChannel,
    Nat.mod_eq_of_lt isOther] at sameChannel
  refine ⟨sameChannel, ?_⟩
  rw [sameChannel] at same
  exact Nat.eq_of_mul_eq_mul_right (Nat.zero_lt_of_lt isChannel) (Nat.add_right_cancel same)

section

variable (isWidth : width = 2 ∨ width = 4)

include isWidth

theorem readSample_of_chunk {samples : Bytes} {index : Nat} {value : BitVec 32}
    (isChunk : Chunks.chunk width samples index = sampleBytes value width) :
    ∃ sample, sliceFrom (ε := CoreError) samples (index * width) =
          .ok (samples.drop (index * width)) ∧
        readSample (samples.drop (index * width)) width = .ok sample ∧
        (sample = value ↔ Sampled width value) := by
  have long : width ≤ (samples.drop (index * width)).length := by
    have isLength := congrArg List.length isChunk
    rw [sampleBytes_length isWidth, Chunks.chunk, List.length_take] at isLength
    omega
  have slices : sliceFrom (ε := CoreError) samples (index * width) =
        .ok (samples.drop (index * width)) := by
    refine Buffer.sliceFrom_eq_ok.mpr ⟨?_, rfl⟩
    rw [List.length_drop] at long
    omega
  unfold Chunks.chunk sampleBytes at isChunk
  unfold readSample
  rcases isWidth with rfl | rfl
  · rw [if_pos rfl] at isChunk ⊢
    refine ⟨(value.setWidth 16).signExtend 32, slices, ?_, signExtend_setWidth_eq_iff value⟩
    rw [Buffer.sliceTo_eq_ok.mpr ⟨long, rfl⟩, isChunk]
    show Except.ok _ = _
    rw [LittleEndian.decode_encode (BitVec.isLt _), BitVec.ofNat_toNat, BitVec.setWidth_eq]
  · rw [if_neg (by decide)] at isChunk ⊢
    have wide : Sampled 4 value := fun isTwo => absurd isTwo (by decide)
    refine ⟨value, slices, ?_, iff_of_true rfl wide⟩
    rw [Buffer.sliceTo_eq_ok.mpr ⟨long, rfl⟩, isChunk]
    show Except.ok _ = _
    rw [LittleEndian.decode_encode (BitVec.isLt _), BitVec.ofNat_toNat, BitVec.setWidth_eq]

/-! ### Reading touches only the samples read -/

variable {input : Bytes}

/-- One sample is read, and its bytes are written in its place. -/
theorem decodeSamples_cons {sample : Nat} {rest : List Nat}
    (decodes : decodeSamples input channels width channel (sample :: rest) previous read out =
        .ok (further, written)) :
    ∃ encoded used, Varint.decode (input.drop read) = .ok (encoded, used) ∧
        (place channels channel sample + 1) * width ≤ out.length ∧
        decodeSamples input channels width channel rest
            (previous + Varint.unzigzag encoded) (read + used)
            (Chunks.overwrite out (place channels channel sample * width)
              (sampleBytes (previous + Varint.unzigzag encoded) width)) =
          .ok (further, written) := by
  obtain ⟨remaining, slices, decodes⟩ := Buffer.bind_eq_ok.mp decodes
  obtain ⟨_, rfl⟩ := Buffer.sliceFrom_eq_ok.mp slices
  obtain ⟨⟨encoded, used⟩, lifts, decodes⟩ := Buffer.bind_eq_ok.mp decodes
  obtain ⟨middle, writes, decodes⟩ := Buffer.bind_eq_ok.mp decodes
  obtain ⟨inRange, rfl⟩ := Buffer.write_eq_ok.mp writes
  rw [sampleBytes_length isWidth, ← Nat.succ_mul] at inRange
  exact ⟨encoded, used, Buffer.lift_eq_ok.mp lifts, inRange, decodes⟩

theorem decodeSamples_frame {samples : List Nat}
    (decodes : decodeSamples input channels width channel samples previous read out =
        .ok (further, written))
    {index : Nat} (apart : ∀ sample ∈ samples, index ≠ place channels channel sample) :
    Chunks.chunk width written index = Chunks.chunk width out index := by
  induction samples generalizing previous read out with
  | nil =>
    cases decodes
    rfl
  | cons sample rest inductionHypothesis =>
    obtain ⟨encoded, used, _, whole, decodes⟩ := decodeSamples_cons isWidth decodes
    obtain ⟨here, apart⟩ := List.forall_mem_cons.mp apart
    rw [inductionHypothesis decodes apart]
    exact Chunks.chunk_overwrite_other whole (sampleBytes_length isWidth _) here

theorem decodeChannels_frame
    {samples : Nat} {list : List Nat}
    (decodes : decodeChannels input channels width samples list read out = .ok (further, written))
    {index : Nat}
    (apart : ∀ channel ∈ list, ∀ sample < samples, index ≠ place channels channel sample) :
    Chunks.chunk width written index = Chunks.chunk width out index := by
  induction list generalizing read out with
  | nil =>
    cases decodes
    rfl
  | cons channel rest inductionHypothesis =>
    obtain ⟨⟨between, middle⟩, decodesFirst, decodes⟩ := Buffer.bind_eq_ok.mp decodes
    obtain ⟨here, apart⟩ := List.forall_mem_cons.mp apart
    rw [inductionHypothesis decodes apart]
    refine decodeSamples_frame isWidth decodesFirst ?_
    intro sample member
    exact here sample (List.mem_range.mp member)

/-! ### Writing back what was read -/

/--
Writing some samples of a channel, as they were read, from what they were read
from: they are spelled the same if their sums were in range.
-/
theorem encodeSamples_iff {samples : List Nat}
    (decodes : decodeSamples input channels width channel samples previous read out =
        .ok (further, written))
    (distinct : (samples.map (place channels channel)).Nodup) {final : Bytes}
    (same : ∀ sample ∈ samples, Chunks.chunk width final (place channels channel sample) =
          Chunks.chunk width written (place channels channel sample)) :
    ∃ front deltas, input.drop read = front ++ input.drop further ∧ deltas.length = samples.length ∧
        (∀ more, differences (samples.length + more) (input.drop read) =
            deltas ++ differences more (input.drop further)) ∧
        ∀ {room bytes after},
          front.length ≤ room →
          bytes ++ after = input.drop read →
          (encodeSamples final channels width channel samples previous room = .ok bytes ↔
            bytes = front ∧ Within width previous deltas) := by
  induction samples generalizing previous read out with
  | nil =>
    cases decodes
    refine ⟨[], [], rfl, rfl, ?_, ?_⟩
    · intro more
      rw [List.length_nil, Nat.zero_add, List.nil_append]
    · intro room bytes after _ _
      refine ⟨?_, ?_⟩
      · intro encodes
        cases encodes
        exact ⟨rfl, trivial⟩
      · rintro ⟨rfl, _⟩
        rfl
  | cons sample rest inductionHypothesis =>
    obtain ⟨encoded, used, varint, whole, decodes⟩ := decodeSamples_cons isWidth decodes
    rw [List.map_cons, List.nodup_cons] at distinct
    obtain ⟨isChunk, same⟩ := List.forall_mem_cons.mp same
    obtain ⟨front, deltas, isFront, isLength, spells, encodesRest⟩ :=
      inductionHypothesis decodes distinct.2 same
    have apart : ∀ other ∈ rest, place channels channel sample ≠ place channels channel other := by
      intro other member samePlace
      exact distinct.1 (List.mem_map.mpr ⟨other, member, samePlace.symm⟩)
    rw [decodeSamples_frame isWidth decodes apart,
      Chunks.chunk_overwrite_same whole (sampleBytes_length isWidth _)]
      at isChunk
    obtain ⟨found, slices, reads, isSum⟩ := readSample_of_chunk isWidth isChunk
    have inRest := Varint.decode_used varint
    have varintLength : ((input.drop read).take used).length = used := List.length_take_of_le inRest
    refine ⟨(input.drop read).take used ++ front,
      Varint.unzigzag encoded :: deltas, ?_, congrArg Nat.succ isLength,
      ?_, ?_⟩
    · rw [List.append_assoc, ← isFront, ← List.drop_drop, List.take_append_drop]
    · intro more
      rw [List.length_cons, Nat.succ_add, differences, varint]
      dsimp only
      rw [List.drop_drop, spells more, List.cons_append]
    · intro room bytes after enough splits
      rw [List.length_append, varintLength] at enough
      rw [encodeSamples, slices]
      show (readSample _ width >>= _) = _ ↔ _
      rw [reads]
      show (lift _ >>= _) = _ ↔ _
      constructor
      · intro encodes
        obtain ⟨first, lifts, encodes⟩ := Buffer.bind_eq_ok.mp encodes
        obtain ⟨back, encodesBack, returns⟩ := Buffer.bind_eq_ok.mp encodes
        cases returns
        have again := Varint.decode_encode (Buffer.lift_eq_ok.mp lifts) (back ++ after)
        rw [← List.append_assoc, splits, varint] at again
        cases again
        rw [List.append_assoc] at splits
        have isFirst : (input.drop read).take first.length = first := by
          rw [← splits, List.take_left]
        have restSplits : back ++ after = input.drop (read + first.length) := by
          rw [← List.drop_drop, ← splits, List.drop_left]
        rw [Varint.add_unzigzag_sub] at encodesRest isSum
        obtain ⟨rfl, inRange⟩ := (encodesRest (by omega) restSplits).mp encodesBack
        refine ⟨congrArg (· ++ back) isFirst.symm, ?_⟩
        rw [Within, Varint.add_unzigzag_sub]
        exact ⟨isSum.mp rfl, inRange⟩
      · rintro ⟨rfl, inRange, restInRange⟩
        have isFound := isSum.mpr inRange
        have spelled : Varint.zigzag (found - previous) = encoded := by
          rw [isFound, BitVec.add_comm, BitVec.add_sub_cancel, Varint.zigzag_unzigzag]
        have encodesFront :=
          Varint.encode_decode varint (Nat.le_trans (Nat.le_add_right _ _) enough)
        refine Buffer.bind_eq_ok.mpr ⟨(input.drop read).take used, ?_, ?_⟩
        · rw [spelled]
          exact Buffer.lift_eq_ok.mpr encodesFront
        · refine Buffer.bind_eq_ok.mpr ⟨front, ?_, rfl⟩
          rw [varintLength, isFound]
          exact (encodesRest (by omega) isFront.symm).mpr ⟨rfl, restInRange⟩

/-- Writing the samples of some channels, as they were read. -/
theorem encodeChannels_iff
    {samples : Nat} {list : List Nat}
    (decodes : decodeChannels input channels width samples list read out = .ok (further, written))
    (distinct : list.Nodup) (inRange : ∀ channel ∈ list, channel < channels) {final : Bytes}
    (same : ∀ channel ∈ list, ∀ sample < samples,
          Chunks.chunk width final (place channels channel sample) =
            Chunks.chunk width written (place channels channel sample)) :
    ∃ front deltas, input.drop read = front ++ input.drop further ∧
        (∀ more, differences (list.length * samples + more) (input.drop read) =
            deltas ++ differences more (input.drop further)) ∧
        ∀ {room bytes after},
          front.length ≤ room →
          bytes ++ after = input.drop read →
          (encodeChannels final channels width samples list room = .ok bytes ↔
            bytes = front ∧ ∀ position < list.length,
                Within width 0#32 (Chunks.chunk samples deltas position)) := by
  induction list generalizing read out with
  | nil =>
    cases decodes
    refine ⟨[], [], rfl, ?_, ?_⟩
    · intro more
      rw [List.length_nil, Nat.zero_mul, Nat.zero_add, List.nil_append]
    · intro room bytes after _ _
      refine ⟨?_, ?_⟩
      · intro encodes
        cases encodes
        exact ⟨rfl, nofun⟩
      · rintro ⟨rfl, _⟩
        rfl
  | cons channel rest inductionHypothesis =>
    rw [List.nodup_cons] at distinct
    obtain ⟨⟨between, middle⟩, decodesFirst, decodes⟩ := Buffer.bind_eq_ok.mp decodes
    obtain ⟨isChannel, inRange⟩ := List.forall_mem_cons.mp inRange
    obtain ⟨here, same⟩ := List.forall_mem_cons.mp same
    have sameFirst : ∀ sample ∈ List.range samples,
          Chunks.chunk width final (place channels channel sample) =
            Chunks.chunk width middle (place channels channel sample) := by
      intro sample member
      rw [here sample (List.mem_range.mp member)]
      refine decodeChannels_frame isWidth decodes ?_
      intro other member sample' _ samePlace
      refine distinct.1 ?_
      rw [(place_inj isChannel (inRange other member) samePlace).1]
      exact member
    have distinctFirst : ((List.range samples).map (place channels channel)).Nodup :=
      List.Nodup.map (fun _ _ samePlace => (place_inj isChannel isChannel samePlace).2)
        List.nodup_range
    obtain ⟨first, firstDeltas, isFirst, firstLength, firstSpells, encodesFirst⟩ :=
      encodeSamples_iff isWidth decodesFirst distinctFirst sameFirst
    obtain ⟨front, deltas, isFront, spells, encodesRest⟩ :=
      inductionHypothesis decodes distinct.2 inRange same
    rw [List.length_range] at firstLength firstSpells
    refine ⟨first ++ front, firstDeltas ++ deltas, ?_, ?_, ?_⟩
    · rw [isFirst, isFront, List.append_assoc]
    · intro more
      rw [List.length_cons, Nat.succ_mul, Nat.add_comm _ samples,
        Nat.add_assoc, firstSpells, spells, List.append_assoc]
    · intro room bytes after enough splits
      rw [List.length_append] at enough
      have parts : (∀ position < (channel :: rest).length,
              Within width 0#32 (Chunks.chunk samples (firstDeltas ++ deltas) position)) ↔
            Within width 0#32 firstDeltas ∧ ∀ position < rest.length,
                Within width 0#32 (Chunks.chunk samples deltas position) := by
        rw [List.length_cons, Nat.forall_lt_succ_left']
        refine and_congr ?_ (forall₂_congr fun position _ => ?_)
        · rw [Chunks.chunk, Nat.zero_mul, List.drop_zero, ← firstLength, List.take_left]
        · rw [Chunks.chunk, Nat.succ_mul, Nat.add_comm, ← List.drop_drop,
            ← firstLength, List.drop_left]
          rfl
      rw [encodeChannels, parts]
      constructor
      · intro encodes
        obtain ⟨head, encodesHead, encodes⟩ := Buffer.bind_eq_ok.mp encodes
        obtain ⟨back, encodesBack, returns⟩ := Buffer.bind_eq_ok.mp encodes
        cases returns
        rw [List.append_assoc] at splits
        obtain ⟨rfl, inHead⟩ := (encodesFirst (by omega) splits).mp encodesHead
        rw [isFirst] at splits
        obtain ⟨rfl, inBack⟩ :=
          (encodesRest (by omega) (List.append_cancel_left splits)).mp encodesBack
        exact ⟨rfl, inHead, inBack⟩
      · rintro ⟨rfl, inHead, inBack⟩
        refine Buffer.bind_eq_ok.mpr ⟨first, ?_, ?_⟩
        · exact (encodesFirst (by omega) isFirst.symm).mpr ⟨rfl, inHead⟩
        · refine Buffer.bind_eq_ok.mpr ⟨front, ?_, rfl⟩
          exact (encodesRest (by omega) isFront.symm).mpr ⟨rfl, inBack⟩

omit isWidth in
/-- Every sample has a place in the samples read. -/
theorem chunk_take {samples channel sample : Nat} (isChannel : channel < channels)
    (isSample : sample < samples) (written : Bytes) :
    Chunks.chunk width (written.take (samples * channels * width)) (place channels channel sample) =
      Chunks.chunk width written (place channels channel sample) := by
  have whole : place channels channel sample * width + width ≤ samples * channels * width := by
    rw [← Nat.succ_mul]
    exact Nat.mul_le_mul_right width (place_lt isChannel isSample)
  rw [Chunks.chunk, List.drop_take, List.take_take, Nat.min_eq_left (by omega)]
  rfl

/-- Writing what was read spells the same body if the sums were in range. -/
theorem encode_decode_iff {body : Bytes} {originalLen len room : Nat}
    (decodes : decode body channels width originalLen out = .ok (len, written))
    (enough : body.length ≤ room) :
    encode (written.take len) channels width room = .ok body ↔
      SumsFit width channels (originalLen / (channels * width)) body := by
  have safe := @decode_safe body channels width isWidth originalLen out
  rw [decodes] at safe
  have sameLength : written.length = out.length := safe.2
  obtain ⟨samples, lays, decodes⟩ := Buffer.bind_eq_ok.mp decodes
  obtain ⟨someChannel, isLength⟩ := frameLayout_eq_ok (Buffer.lift_eq_ok.mp lays)
  have isSamples : originalLen / (channels * width) = samples := by
    rw [isLength, Nat.mul_assoc]
    refine Nat.mul_div_cancel _ (Nat.mul_pos someChannel ?_)
    rcases isWidth with rfl | rfl <;> decide
  split at decodes
  · cases decodes
  next holds =>
  obtain ⟨⟨read, _⟩, decodes, returns⟩ := Buffer.bind_eq_ok.mp decodes
  dsimp only at returns
  split at returns
  · cases returns
  next isWhole =>
  cases returns
  have isRead : read = body.length := not_not.mp isWhole
  subst isRead
  have takes : (written.take originalLen).length = originalLen := by
    apply List.length_take_of_le
    omega
  obtain ⟨front, deltas, isFront, spells, encodes⟩ :=
    encodeChannels_iff isWidth decodes List.nodup_range (fun channel => List.mem_range.mp)
      (fun channel member sample isSample =>
        @chunk_take width _ _ _ _ (List.mem_range.mp member) isSample written)
  rw [List.drop_zero, List.drop_length, List.append_nil] at isFront
  subst isFront
  have isDeltas := spells 0
  rw [List.drop_zero, List.length_range, differences, List.append_nil, Nat.add_zero] at isDeltas
  have rewritten := @encodes room body [] enough (List.append_nil _)
  rw [← isLength, List.length_range, and_iff_right rfl] at rewritten
  rw [encode, takes, lays, SumsFit, isSamples, isDeltas]
  exact rewritten

end

/-- A sample as wide as the sums holds whatever they come to. -/
theorem within_of_wide (isWide : width = 4) (sum : BitVec 32) (deltas : List (BitVec 32)) :
    Within width sum deltas := by
  subst isWide
  induction deltas generalizing sum with
  | nil => trivial
  | cons delta rest inductionHypothesis => exact ⟨nofun, inductionHypothesis _⟩

end Numeric

namespace Transform

/-- The bytes a sample takes, of a transform that codes differences. -/
def sampleWidth : Transform → Option Nat
  | .i16Delta =>
      some 2
  | .i32Delta =>
      some 4
  | _ =>
      .none

/--
A body that is read is what its samples are written as, exactly if the sums of
its differences stay in the range of a sample; for samples of 32 bits they do.
No two such bodies are read as the same samples.
-/
theorem delta_bodies_canonical_iff
    {transform : Transform}
    {width : Nat}
    (isDelta : transform.sampleWidth = some width)
    {body out written : Bytes}
    {param : UInt8}
    {originalLen len : Nat}
    (reverses :
      transform.reverse body param originalLen out = .ok (len, written)) :
    let Fits :=
      Numeric.SumsFit width param.toNat (originalLen / (param.toNat * width))
    (∀ room,
        body.length ≤ room →
        (transform.apply (written.take len) param room = .ok body ↔
          Fits body)) ∧
      (transform = .i32Delta → Fits body) ∧
      ∀ other otherOut otherWritten,
        transform.reverse other param originalLen otherOut =
          .ok (len, otherWritten) →
        otherWritten.take len = written.take len →
        Fits body →
        Fits other →
        other = body := by
  intro Fits
  have canonical
      {body out written : Bytes}
      {len room : Nat}
      (reverses :
        transform.reverse body param originalLen out = .ok (len, written))
      (enough : body.length ≤ room) :
      transform.apply (written.take len) param room = .ok body ↔ Fits body := by
    cases transform with
    | i16Delta =>
        cases isDelta
        exact Numeric.encode_decode_iff (Or.inl rfl) reverses enough
    | i32Delta =>
        cases isDelta
        exact Numeric.encode_decode_iff (Or.inr rfl) reverses enough
    | none =>
        cases isDelta
    | byteTranspose =>
        cases isDelta
  refine ⟨fun room => canonical reverses, ?_, ?_⟩
  · rintro rfl channel _
    cases isDelta
    exact Numeric.within_of_wide rfl _ _
  · intro other otherOut otherWritten otherReverses same fits otherFits
    have here := (canonical reverses (Nat.le_max_left _ other.length)).mpr fits
    have there :=
      (canonical otherReverses (Nat.le_max_right body.length _)).mpr otherFits
    rw [same, here] at there
    cases there
    rfl

theorem delta_bodies_canonical_of_small_body :
    apply .i16Delta [1, 0, 0, 0] 1 3 = .ok [2, 1] := by
  have reverses :
      reverse .i16Delta [2, 1] 1 4 [0, 0, 0, 0] = .ok (4, [1, 0, 0, 0]) :=
    rfl
  have canonical := (delta_bodies_canonical_iff rfl reverses).1 3 (by decide)
  exact canonical.mpr (by decide)

/-- A difference of 65536 is lost in a sample of 16 bits. -/
theorem lost_difference_collides :
    reverse .i16Delta [0x80, 0x80, 0x08] 1 2 [0, 0] = .ok (2, [0, 0]) ∧
      reverse .i16Delta [0] 1 2 [0, 0] = .ok (2, [0, 0]) ∧
      apply .i16Delta [0, 0] 1 8 = .ok [0] := by
  refine ⟨?_, ?_, ?_⟩ <;> rfl

end Transform

end Fectp
