import Fectp.ReassemblyTable

namespace Fectp

open Chunks

/-!
# What is held of a message

`Traced` ties what is held of a message to the fragments offered for it, each at
its own place.  When those are the fragments of a message cut the way the sender
cuts it, none is refused, and the one that completes the message returns its
bytes.
-/

namespace Partial

/-- What is held of a message was offered. -/
structure Traced
    (offered : Nat → Bytes → Prop)
    (assembling : Partial) : Prop extends assembling.Shaped where
  tail : assembling.tail = [] ∧
        assembling.arrived[assembling.count - 1]? ≠ some true ∨
      offered (assembling.count - 1) assembling.tail
  early : ∀ index,
      index + 1 < assembling.count →
        assembling.arrived[index]? = some true →
          ∃ stride,
            assembling.stride = some stride ∧
              offered index (chunk stride assembling.body index)
  stride : ∀ stride,
      assembling.stride = some stride →
        stride * (assembling.count - 1) ≤ maxMessageLen ∧
          ∃ index data,
            index + 1 < assembling.count ∧
              assembling.arrived[index]? = some true ∧
              data.length = stride ∧
              offered index data

theorem not_arrived_new (message : BitVec 32) (count index : Nat) :
    (new message count).arrived[index]? ≠ some true := by
  intro arrived
  simp [new, List.getElem?_replicate] at arrived

theorem traced_new
    (offered : Nat → Bytes → Prop) (message : BitVec 32) {count : Nat} (positive : 0 < count) :
    (new message count).Traced offered :=
  ⟨shaped_new message positive, Or.inl ⟨rfl, not_arrived_new _ _ _⟩,
    fun _ _ arrived => (not_arrived_new _ _ _ arrived).elim, nofun⟩

variable {offered : Nat → Bytes → Prop} {assembling after : Partial}
  {fragment : Fragment} {data : Bytes}

/-- A full count means that every fragment has come. -/
theorem Shaped.every
    (shaped : assembling.Shaped) (full : assembling.received = assembling.count) {index : Nat}
    (inside : index < assembling.count) :
    assembling.arrived[index]? = some true := by
  have all : assembling.arrived.count true = assembling.arrived.length := by
    rw [← shaped.received, full, shaped.slots]
  have slot : index < assembling.arrived.length := by
    rw [shaped.slots]
    exact inside
  rw [List.getElem?_eq_getElem slot, List.count_eq_length.mp all _ (List.getElem_mem slot)]

/-- Nothing is complete while a fragment is missing. -/
theorem Shaped.exists_missing (shaped : assembling.Shaped)
    (short : assembling.received ≠ assembling.count) :
    ∃ index < assembling.count, assembling.arrived[index]? ≠ some true := by
  by_contra all
  push Not at all
  apply short
  rw [shaped.received, ← shaped.slots]
  refine List.count_eq_length.mpr fun mark member => ?_
  obtain ⟨index, inside, rfl⟩ := List.mem_iff_getElem.mp member
  have arrived := all index (shaped.slots ▸ inside)
  rw [List.getElem?_eq_getElem inside] at arrived
  exact (Option.some.inj arrived).symm

/-- Once its length is known, the body does not grow. -/
theorem Shaped.grown_known
    (shaped : assembling.Shaped) {stride : Nat} (known : assembling.stride = some stride) :
    grown assembling.body (stride * (assembling.count - 1)) =
      assembling.body := by
  rcases shaped.body with ⟨unknown, _⟩ | ⟨other, same, length⟩
  · rw [unknown] at known
    cases known
  · rw [known] at same
    cases same
    exact if_neg (Nat.not_lt_of_le length.ge)

theorem Traced.marks
    (traced : assembling.Traced offered) (sameCount : assembling.count = fragment.count)
    (inside : fragment.index < fragment.count) (isOffered : offered fragment.index data)
    (notYet : assembling.arrived[fragment.index]? = some false)
    (marks : assembling.Marks fragment data after) :
    after.Traced offered := by
  have shaped := traced.toShaped.marks sameCount inside notYet marks
  have arrivedSet := fun index => (@Marks.arrived_iff _ _ _ _ marks notYet index).mp
  have arrivedThen := fun index => (@Marks.arrived_iff _ _ _ _ marks notYet index).mpr
  cases marks with
  | last last =>
    have isLast : fragment.index + 1 = fragment.count := by
      simpa [Fragment.isLast] using last
    refine ⟨shaped, Or.inr ?_, ?_, fun stride known => ?_⟩
    · change offered (assembling.count - 1) data
      rw [show assembling.count - 1 = fragment.index by omega]
      exact isOffered
    · intro index early arrived
      rcases arrivedSet _ arrived with before | here
      · exact traced.early index early before
      · change index + 1 < assembling.count at early
        omega
    · obtain ⟨small, index, data, early, arrived, was⟩ := traced.stride stride known
      exact ⟨small, index, data, early, arrivedThen index (Or.inl arrived), was⟩
  | early notLast same small =>
    have notEnd := Fragment.early_of_not_last inside notLast
    have whole := traced.fits sameCount inside notLast same
    refine ⟨shaped, ?_, ?_, ?_⟩
    · rcases traced.tail with ⟨empty, absent⟩ | present
      · refine Or.inl ⟨empty, fun arrived => ?_⟩
        rcases arrivedSet _ arrived with before | here
        · exact absent before
        · change assembling.count - 1 = fragment.index at here
          omega
      · exact Or.inr present
    · intro index early arrived
      refine ⟨data.length, rfl, ?_⟩
      change offered index (chunk data.length (overwrite ..) index)
      by_cases here : index = fragment.index
      · rw [here, chunk_overwrite_same whole rfl]
        exact isOffered
      obtain ⟨stride, known, wasOffered⟩ :=
        traced.early index early ((arrivedSet _ arrived).resolve_right here)
      rw [known, Option.getD_some] at same
      rw [chunk_overwrite_other whole rfl here, ← same, traced.grown_known known]
      exact wasOffered
    · rintro _ ⟨⟩
      refine ⟨small, fragment.index, data, ?_, arrivedThen _ (Or.inr rfl), rfl, isOffered⟩
      change fragment.index + 1 < assembling.count
      omega

/-- A whole message is of fragments that were offered. -/
theorem Traced.complete
    (traced : assembling.Traced offered) (full : assembling.received = assembling.count) :
    offered (assembling.count - 1) assembling.tail ∧ ∃ stride,
        assembling.body.length = stride * (assembling.count - 1) ∧
          stride * (assembling.count - 1) ≤ maxMessageLen ∧
          ∀ index, index + 1 < assembling.count →
              (chunk stride assembling.body index).length = stride ∧
                offered index (chunk stride assembling.body index) := by
  have positive := traced.positive
  constructor
  · rcases traced.tail with ⟨_, absent⟩ | present
    · exact (absent (traced.every full (by omega))).elim
    · exact present
  · rcases traced.body with ⟨unknown, empty⟩ | ⟨stride, known, length⟩
    · have single : assembling.count - 1 = 0 := by
        by_contra several
        obtain ⟨stride, known, _⟩ := traced.early 0 (by omega) (traced.every full (by omega))
        rw [unknown] at known
        cases known
      refine ⟨0, by rw [empty, Nat.zero_mul]; rfl, by simp, ?_⟩
      intro index early
      omega
    · refine ⟨stride, length, (traced.stride stride known).1, ?_⟩
      intro index early
      obtain ⟨other, same, wasOffered⟩ := traced.early index early (traced.every full (by omega))
      rw [known] at same
      cases same
      refine ⟨chunk_length ?_, wasOffered⟩
      rw [length, Nat.mul_comm stride]
      exact Nat.mul_le_mul_right _ (by omega)

/-! ### The fragments of a message -/

section

variable {cutting : Cutting}
    (traced : assembling.Traced fun index data => data = cutting.piece index)
    (isCount : assembling.count = cutting.count)

include traced isCount

/-- The message is whole when every fragment has come. -/
theorem Traced.whole (full : assembling.received = assembling.count) :
    assembling.body ++ assembling.tail = cutting.data := by
  obtain ⟨isTail, stride, length, _, early⟩ := traced.complete full
  rw [isCount] at isTail length early
  have isBody : assembling.body = cutting.data.take ((cutting.count - 1) * cutting.size) := by
    rcases Nat.eq_zero_or_pos (cutting.count - 1) with single | several
    · rw [single] at length ⊢
      rw [Nat.zero_mul, List.take_zero]
      exact List.length_eq_zero_iff.mp length
    have isStride : stride = cutting.size := by
      obtain ⟨strideLength, isPiece⟩ := early 0 (by omega)
      rw [← strideLength, isPiece, cutting.piece_length (by omega)]
    rw [isStride, Nat.mul_comm] at length
    have agrees : Agrees cutting.size cutting.data assembling.body
          fun index => index + 1 < cutting.count := by
      intro index inside
      have isPiece := (early index inside).2
      rwa [isStride] at isPiece
    exact agrees.eq_take (fun index inside => by omega) length
  rw [isBody, isTail, cutting.take_append_last]

end

/-! ### Fragments of one length -/

/--
A fragment before the last is of one length, and a last one leaves a body of
such fragments within the ceiling.
-/
def Suits (stride : Nat) (fragment : Fragment) (data : Bytes) : Prop :=
  if fragment.isLast then
    stride * (fragment.count - 1) + data.length ≤ maxMessageLen
  else
    data.length = stride

/-- Only fragments that suit each other are held. -/
structure Even (stride : Nat) (assembling : Partial) : Prop
    extends assembling.Sane where
  length : assembling.stride = some stride ∨
      assembling.stride = none ∧
        ∀ index,
          index + 1 < assembling.count →
            assembling.arrived[index]? ≠ some true
  room :
    stride * (assembling.count - 1) + assembling.tail.length ≤ maxMessageLen

section

variable {stride count : Nat} {outcome : Except Error (Option Bytes) × Option Partial}

theorem even_new (message : BitVec 32) (positive : 0 < count)
    (small : stride * (count - 1) ≤ maxMessageLen) :
    (new message count).Even stride :=
  ⟨sane_new message positive, Or.inr ⟨rfl, fun _ _ => not_arrived_new _ _ _⟩, small⟩

theorem Even.marks
    (even : assembling.Even stride) (sameCount : assembling.count = fragment.count)
    (inside : fragment.index < fragment.count) (suits : Suits stride fragment data)
    (notYet : assembling.arrived[fragment.index]? = some false)
    (marks : assembling.Marks fragment data after) :
    after.held ≤ maxMessageLen ∧ (after.received ≠ after.count → after.Even stride) := by
  have shaped := even.toShaped.marks sameCount inside notYet marks
  have arrived := fun index => (@Marks.arrived_iff _ _ _ _ marks notYet index).mp
  obtain ⟨_, count, _, received⟩ := marks.frame
  have kept : (after.stride = some stride ∨ after.stride = none ∧
        ∀ index, index + 1 < after.count → after.arrived[index]? ≠ some true) ∧
      stride * (after.count - 1) + after.tail.length ≤ maxMessageLen := by
    unfold Suits at suits
    cases marks with
    | last last =>
      rw [if_pos last, ← sameCount] at suits
      refine ⟨even.length.imp_right fun ⟨unknown, unbegun⟩ => ⟨unknown, ?_⟩, suits⟩
      intro index early now
      have isLast : fragment.index + 1 = fragment.count := by
        simpa [Fragment.isLast] using last
      rcases arrived index now with before | here
      · exact unbegun index early before
      · omega
    | early notLast _ _ =>
      rw [notLast, if_neg Bool.false_ne_true] at suits
      exact ⟨Or.inl (congrArg some suits), even.room⟩
  have small : after.held ≤ maxMessageLen := by
    unfold held
    rcases shaped.body with ⟨_, empty⟩ | ⟨held, known, length⟩
    · rw [empty, List.length_nil]
      omega
    rcases kept.1 with same | ⟨unknown, _⟩
    · rw [known] at same
      cases same
      rw [length]
      exact kept.2
    · rw [unknown] at known
      cases known
  have unfinished := even.unfinished
  exact ⟨small, fun notFull =>
    { shaped with
      unfinished := by omega
      bounded := small
      length := kept.1
      room := kept.2 }⟩

/--
A fragment that suits those held is there already, completes the message, or is
recorded; it is never refused.
-/
theorem Even.offer
    (even : assembling.Even stride) (sameCount : assembling.count = fragment.count)
    (inside : fragment.index < fragment.count) (suits : Suits stride fragment data)
    (offered : assembling.Offered fragment data outcome) :
    (assembling.arrived[fragment.index]? = some true ∧ outcome = (.ok none, some assembling)) ∨
      ∃ after, assembling.arrived[fragment.index]? = some false ∧
        assembling.Marks fragment data after ∧
        (after.received = after.count ∧ after.held ≤ maxMessageLen ∧
            outcome = (.ok (some (after.body ++ after.tail)), none) ∨
          after.Even stride ∧ outcome = (.ok none, some after)) := by
  have room := even.room
  cases offered with
  | miscounted different => exact (different sameCount).elim
  | again _ already => exact Or.inl ⟨already, rfl⟩
  | odd _ _ notLast different =>
    rw [Suits, notLast, if_neg Bool.false_ne_true] at suits
    refine (different ?_).elim
    rcases even.length with known | ⟨unknown, _⟩
    · rw [known, Option.getD_some, suits]
    · rw [unknown, Option.getD_none]
  | large _ _ notLast exceeds =>
    rw [Suits, notLast, if_neg Bool.false_ne_true] at suits
    rw [suits] at exceeds
    omega
  | recorded _ notYet marks notFull _ =>
    have kept := even.marks sameCount inside suits notYet marks
    exact Or.inr ⟨_, notYet, marks, Or.inr ⟨kept.2 notFull, rfl⟩⟩
  | overfull _ notYet marks _ exceeds =>
    have kept := even.marks sameCount inside suits notYet marks
    exact absurd kept.1 (Nat.not_le_of_lt exceeds)
  | completed _ notYet marks full =>
    have kept := even.marks sameCount inside suits notYet marks
    exact Or.inr ⟨_, notYet, marks, Or.inl ⟨full, kept.1, rfl⟩⟩

end

/-- Fragments of one message have come, and not all of them. -/
structure Follows (assembling : Partial) (cutting : Cutting) : Prop extends
    assembling.Even cutting.size,
    assembling.Traced fun index data => data = cutting.piece index where
  isCount : assembling.count = cutting.count

theorem follows_new (message : BitVec 32) (cutting : Cutting) :
    (new message cutting.count).Follows cutting := by
  have starts := cutting.starts
  have bounded := cutting.bounded
  rw [Nat.mul_comm] at starts
  exact { even_new message cutting.positive (starts.trans bounded),
      traced_new _ message cutting.positive with
    isCount := rfl }

/-- The fragments of a message suit each other. -/
theorem suits_piece {cutting : Cutting} (inside : fragment.index < fragment.count)
    (sameCount : fragment.count = cutting.count) :
    Suits cutting.size fragment (cutting.piece fragment.index) := by
  unfold Suits
  split
  · next last =>
      have isLast : fragment.index + 1 = fragment.count := by
        simpa [Fragment.isLast] using last
      have whole := congrArg List.length cutting.take_append_last
      rw [List.length_append, List.length_take, Nat.min_eq_left cutting.starts,
        Nat.mul_comm] at whole
      rw [sameCount, show fragment.index = cutting.count - 1 by omega, whole]
      exact cutting.bounded
  next notLast =>
  have early := Fragment.early_of_not_last inside (Bool.not_eq_true _ ▸ notLast)
  exact cutting.piece_length (by omega)

/--
A fragment of the message either is the last one missing, and returns the
message, or is recorded.
-/
theorem Follows.offer
    {cutting : Cutting} {outcome : Except Error (Option Bytes) × Option Partial}
    (follows : assembling.Follows cutting) (isMessage : assembling.message = fragment.message)
    (inside : fragment.index < cutting.count) (sameCount : fragment.count = cutting.count)
    (offered : assembling.Offered fragment (cutting.piece fragment.index) outcome) :
    (outcome = (.ok (some cutting.data), none) ∧ ∀ index < cutting.count,
        assembling.arrived[index]? = some true ∨ index = fragment.index) ∨
      ∃ after, outcome = (.ok none, some after) ∧ after.message = fragment.message ∧
        after.Follows cutting ∧
        ∀ index : Nat, after.arrived[index]? = some true ↔
            assembling.arrived[index]? = some true ∨ index = fragment.index := by
  have within : fragment.index < fragment.count := sameCount ▸ inside
  have countSame := follows.isCount.trans sameCount.symm
  rcases follows.toEven.offer countSame within (suits_piece within sameCount) offered with
    ⟨already, records⟩ | ⟨after, notYet, marks, takes⟩
  · refine Or.inr ⟨_, records, isMessage, follows, fun index => ⟨Or.inl, ?_⟩⟩
    rintro (before | rfl)
    · exact before
    · exact already
  obtain ⟨sameMessage, count, _, _⟩ := marks.frame
  have isCount := count.trans follows.isCount
  have traced := follows.toTraced.marks countSame within rfl notYet marks
  rcases takes with ⟨full, _, completes⟩ | ⟨even, records⟩
  · rw [traced.whole isCount full] at completes
    refine Or.inl ⟨completes, fun index below => ?_⟩
    exact (marks.arrived_iff notYet).mp (traced.every full (isCount ▸ below))
  · exact Or.inr ⟨after, records, sameMessage.trans isMessage,
      { even, traced with isCount := isCount }, fun index => marks.arrived_iff notYet⟩

end Partial

namespace Reassembly

/--
Every half-assembled message is one the sender cut, and holds only fragments
that have come.
-/
def Sound
    (reassembly : Reassembly)
    (cut : BitVec 32 → Option Cutting)
    (came : BitVec 32 → Nat → Prop) : Prop :=
  ∀ assembling ∈ reassembly.partials,
    ∃ cutting,
      cut assembling.message = some cutting ∧
        assembling.Follows cutting ∧
        ∀ index,
          assembling.arrived[index]? = some true →
          came assembling.message index

variable {reassembly : Reassembly} {cut : BitVec 32 → Option Cutting}
  {came : BitVec 32 → Nat → Prop}

/-- More messages may be cut and more fragments may come. -/
theorem Sound.mono {cut' : BitVec 32 → Option Cutting} {came' : BitVec 32 → Nat → Prop}
    (sound : reassembly.Sound cut came)
    (cutMore : ∀ {message cutting}, cut message = some cutting → cut' message = some cutting)
    (cameMore : ∀ {message index}, came message index → came' message index) :
    reassembly.Sound cut' came' := by
  intro assembling member
  obtain ⟨cutting, isCut, follows, arrived⟩ := sound assembling member
  exact ⟨cutting, cutMore isCut, follows, fun index marked => cameMore (arrived index marked)⟩

section

variable (sound : reassembly.Sound cut came) {fragment : Fragment}
    {cutting : Cutting} (isCut : cut fragment.message = some cutting)
    (sameCount : fragment.count = cutting.count)

include sound isCut sameCount

/-- The slot a genuine fragment goes to holds its message. -/
theorem Sound.slot :
    let assembling :=
      (reassembly.lookup fragment.message).getD (.new fragment.message fragment.count)
    assembling.message = fragment.message ∧ assembling.Follows cutting ∧
      ∀ index, assembling.arrived[index]? = some true → came fragment.message index := by
  rcases found : reassembly.lookup fragment.message with _ | assembling
  · rw [Option.getD_none, sameCount]
    exact ⟨rfl, Partial.follows_new _ cutting,
      fun index arrived => (Partial.not_arrived_new _ _ _ arrived).elim⟩
  have isMessage : assembling.message = fragment.message := by
    simpa using List.find?_some found
  obtain ⟨other, otherCut, follows, arrived⟩ := sound assembling (List.mem_of_find?_eq_some found)
  rw [isMessage, isCut] at otherCut
  cases otherCut
  exact ⟨isMessage, follows, isMessage ▸ arrived⟩

/--
A genuine fragment is never refused.  It completes its message, every
fragment of which has then come and whose bytes come back whole, or it is
recorded.
-/
theorem Sound.accept
    (inside : fragment.index < cutting.count) (comes : came fragment.message fragment.index) :
    (reassembly.accept fragment (cutting.piece fragment.index)).2.Sound cut came ∧
      ((reassembly.accept fragment (cutting.piece fragment.index)).1 = .ok (some cutting.data) ∧
          (∀ index, index < cutting.count → came fragment.message index) ∨
        (reassembly.accept fragment (cutting.piece fragment.index)).1 = .ok none) := by
  have few : fragment.count ≤ maxFragments := sameCount ▸ cutting.few
  obtain ⟨isMessage, follows, arrived⟩ := sound.slot isCut sameCount
  have result : (reassembly.accept fragment (cutting.piece fragment.index)).1 =
        (Partial.offer (reassembly.lookup fragment.message) fragment
          (cutting.piece fragment.index)).1 := by
    obtain ⟨_, _, _, _, _, isAfter⟩ := reassembly.accept_spec few (cutting.piece fragment.index)
    rw [isAfter]
  have known : ∀ index, index = fragment.index → came fragment.message index := by
    rintro _ rfl
    exact comes
  have offered := follows.toSane.offered (sameCount ▸ inside) (cutting.piece fragment.index)
  rcases follows.offer isMessage inside sameCount offered with
    ⟨completes, every⟩ | ⟨after, records, afterMessage, afterFollows, now⟩
  · rw [result, completes]
    refine ⟨fun other member => ?_, Or.inl ⟨rfl, fun index early =>
      (every index early).elim (arrived index) (known index)⟩⟩
    rcases mem_accept few member with older | isSlot
    · exact sound other older
    · rw [completes] at isSlot
      cases isSlot
  · rw [result, records]
    refine ⟨fun other member => ?_, Or.inr rfl⟩
    rcases mem_accept few member with older | isSlot
    · exact sound other older
    rw [records] at isSlot
    cases isSlot
    rw [afterMessage]
    exact ⟨cutting, isCut, afterFollows, fun index marked =>
      ((now index).mp marked).elim (arrived index) (known index)⟩

end

end Reassembly

end Fectp
