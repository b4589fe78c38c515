import Fectp.Execution
import Fectp.Reassembly

namespace Fectp

open Chunks

/-!
# The reassembly table under attack

A hostile peer chooses every descriptor that decodes and every byte behind it.
`Partial.offer` is what becomes of one message's own slot, the others apart;
the table is such slots side by side, and a fragment moves its own slot and may
push the oldest one out.
-/

/-- Every descriptor that decodes is coherent. -/
theorem Fragment.coherent_of_decode
    {input : Bytes} {fragment : Fragment} (accepted : Fragment.decode input = .ok fragment) :
    fragment.Coherent := by
  unfold Fragment.decode at accepted
  dsimp only at accepted
  split at accepted
  · cases accepted
  split at accepted
  · cases accepted
  next coherent =>
  cases accepted
  rw [not_or, not_or] at coherent
  exact ⟨Nat.lt_of_not_le coherent.2.2, Nat.le_of_not_lt coherent.2.1⟩

theorem Fragment.early_of_not_last {fragment : Fragment} (inside : fragment.index < fragment.count)
    (notLast : fragment.isLast = false) :
    fragment.index + 1 ≤ fragment.count - 1 := by
  have different : fragment.index + 1 ≠ fragment.count := by
    simpa [Fragment.isLast] using notLast
  omega

/-- A fragment off the wire, behind a descriptor that decodes. -/
structure Arrival where
  fragment : Fragment
  data : Bytes
  accepted : ∃ input, Fragment.decode input = .ok fragment

theorem Arrival.coherent (arrival : Arrival) : arrival.fragment.Coherent := by
  obtain ⟨_, accepted⟩ := arrival.accepted
  exact Fragment.coherent_of_decode accepted

namespace Partial

/-- The fields agree with each other. -/
structure Shaped (assembling : Partial) : Prop where
  positive : 0 < assembling.count
  slots : assembling.arrived.length = assembling.count
  received : assembling.received = assembling.arrived.count true
  body : assembling.stride = none ∧ assembling.body = [] ∨
      ∃ stride,
        assembling.stride = some stride ∧
          assembling.body.length = stride * (assembling.count - 1)

/-- A message that may stand in the table. -/
structure Sane (assembling : Partial) : Prop extends assembling.Shaped where
  unfinished : assembling.received < assembling.count
  bounded : assembling.held ≤ maxMessageLen

/-- Every index and slice `insert` takes is inside what it is taken of. -/
structure InRange
    (assembling : Partial)
    (fragment : Fragment)
    (data : Bytes) : Prop where
  slot : fragment.index < assembling.arrived.length
  positive : 0 < assembling.count
  body : fragment.isLast = false →
      let stride := assembling.stride.getD data.length
      data.length = stride →
        stride * (assembling.count - 1) ≤ maxMessageLen →
          (fragment.index + 1) * stride ≤
            (grown assembling.body (stride * (assembling.count - 1))).length

theorem shaped_new (message : BitVec 32) {count : Nat} (positive : 0 < count) :
    (new message count).Shaped where
  positive := positive
  slots := List.length_replicate
  received := by
    simp [new, List.count_replicate]
  body := Or.inl ⟨rfl, rfl⟩

theorem sane_new (message : BitVec 32) {count : Nat} (positive : 0 < count) :
    (new message count).Sane :=
  ⟨shaped_new message positive, positive, Nat.zero_le _⟩

variable {assembling : Partial} {fragment : Fragment} {slot : Option Partial}

/-- A body that is empty or already as long as it should be grows to that. -/
theorem Shaped.grown_length
    (shaped : assembling.Shaped) {len : Nat} (same : assembling.stride.getD len = len) :
    (grown assembling.body (len * (assembling.count - 1))).length =
      len * (assembling.count - 1) := by
  have within : assembling.body.length ≤ len * (assembling.count - 1) := by
    rcases shaped.body with ⟨_, empty⟩ | ⟨stride, known, length⟩
    · rw [empty]
      exact Nat.zero_le _
    · rw [known, Option.getD_some] at same
      rw [length, same]
  unfold grown
  split
  · rw [List.length_append, List.length_replicate]
    omega
  · next long => exact Nat.le_antisymm within (Nat.le_of_not_lt long)

/-- A fragment before the last, of the right length, is inside the body. -/
theorem Shaped.fits (shaped : assembling.Shaped) (sameCount : assembling.count = fragment.count)
    (inside : fragment.index < fragment.count) (notLast : fragment.isLast = false) {len : Nat}
    (same : assembling.stride.getD len = len) :
    (fragment.index + 1) * len ≤ (grown assembling.body (len * (assembling.count - 1))).length := by
  have early := Fragment.early_of_not_last inside notLast
  rw [shaped.grown_length same, Nat.mul_comm len]
  exact Nat.mul_le_mul_right _ (sameCount ▸ early)

theorem Shaped.inRange (shaped : assembling.Shaped) (sameCount : assembling.count = fragment.count)
    (inside : fragment.index < fragment.count) (data : Bytes) :
    assembling.InRange fragment data where
  slot := by
    rw [shaped.slots, sameCount]
    exact inside
  positive := shaped.positive
  body := by
    intro notLast stride same _
    rw [← same]
    exact shaped.fits sameCount inside notLast same.symm

/-- A message with one more fragment recorded. -/
def marked (placed : Partial) (index : Nat) : Partial :=
  { placed with
    arrived := placed.arrived.set index true
    received := placed.received + 1 }

variable {data : Bytes} {after : Partial}

/-- A fragment that was missing is put in and recorded. -/
inductive Marks
    (assembling : Partial)
    (fragment : Fragment)
    (data : Bytes) : Partial → Prop
  | last :
      fragment.isLast = true →
        Marks assembling fragment data
          ({ assembling with tail := data }.marked fragment.index)
  | early :
      fragment.isLast = false →
        assembling.stride.getD data.length = data.length →
          data.length * (assembling.count - 1) ≤ maxMessageLen →
            Marks assembling fragment data
              ({ assembling with
                  stride := some data.length
                  body :=
                    overwrite
                      (grown assembling.body
                        (data.length * (assembling.count - 1)))
                      (fragment.index * data.length) data }.marked
                fragment.index)

theorem Marks.frame (marks : assembling.Marks fragment data after) :
    after.message = assembling.message ∧ after.count = assembling.count ∧
      after.arrived = assembling.arrived.set fragment.index true ∧
      after.received = assembling.received + 1 := by
  cases marks <;> exact ⟨rfl, rfl, rfl, rfl⟩

/-- What has come, with one fragment more. -/
theorem Marks.arrived_iff (marks : assembling.Marks fragment data after)
    (notYet : assembling.arrived[fragment.index]? = some false) {index : Nat} :
    after.arrived[index]? = some true ↔
      assembling.arrived[index]? = some true ∨ index = fragment.index := by
  have slot := (List.getElem?_eq_some_iff.mp notYet).1
  rw [marks.frame.2.2.1, List.getElem?_set]
  split
  · next here => exact iff_of_true rfl (Or.inr here.symm)
  · next elsewhere => exact (or_iff_left (Ne.symm elsewhere)).symm

/-- What is put in keeps the fields in agreement. -/
theorem Shaped.marks (shaped : assembling.Shaped) (sameCount : assembling.count = fragment.count)
    (inside : fragment.index < fragment.count)
    (notYet : assembling.arrived[fragment.index]? = some false)
    (marks : assembling.Marks fragment data after) :
    after.Shaped := by
  obtain ⟨_, count, arrived, received⟩ := marks.frame
  refine ⟨count ▸ shaped.positive, ?_, ?_, ?_⟩
  · rw [arrived, List.length_set, shaped.slots, count]
  · obtain ⟨slot, isFalse⟩ := List.getElem?_eq_some_iff.mp notYet
    rw [arrived, received, List.count_set slot, shaped.received, isFalse]
    simp
  · cases marks with
    | last _ => exact shaped.body
    | early notLast same _ =>
      refine Or.inr ⟨_, rfl, (overwrite_length ?_).trans (shaped.grown_length same)⟩
      rw [← Nat.succ_mul]
      exact shaped.fits sameCount inside notLast same

/-- Everything `place` can do. -/
theorem place_cases (assembling : Partial) (fragment : Fragment) (data : Bytes) :
    (∃ placed, assembling.place fragment data = .ok placed ∧
          assembling.Marks fragment data (placed.marked fragment.index)) ∨
      (fragment.isLast = false ∧ assembling.stride.getD data.length ≠ data.length ∧
        assembling.place fragment data = .error (.protocol .badHeader)) ∨
      (fragment.isLast = false ∧ maxMessageLen < data.length * (assembling.count - 1) ∧
        assembling.place fragment data = .error (.protocol .payloadTooLarge)) := by
  unfold place
  cases last : fragment.isLast with
  | true => exact Or.inl ⟨_, if_pos rfl, .last last⟩
  | false =>
    by_cases same : assembling.stride.getD data.length = data.length
    · rw [same, if_neg (not_not_intro rfl)]
      by_cases large :
          data.length * (assembling.count - 1) > maxMessageLen
      · exact Or.inr (Or.inr ⟨rfl, large, if_pos large⟩)
      · exact Or.inl ⟨_, if_neg large, .early last same (Nat.le_of_not_lt large)⟩
    · exact Or.inr (Or.inl ⟨rfl, same, if_pos (Ne.symm same)⟩)

/--
What becomes of one message's slot, and what the caller hears, when a fragment
comes for it.
-/
def offer (slot : Option Partial) (fragment : Fragment) (data : Bytes) :
    Except Error (Option Bytes) × Option Partial :=
  let assembling := slot.getD (new fragment.message fragment.count)
  if assembling.count ≠ fragment.count then
    (.error (.protocol .badHeader), none)
  else
    match assembling.insert fragment data with
    | .error error =>
        (.error error, none)
    | .ok (some whole, _) =>
        (.ok (some whole), none)
    | .ok (none, after) =>
        if after.held > maxMessageLen then
          (.error (.protocol .payloadTooLarge), none)
        else
          (.ok none, some after)

/-- The slot a fragment finds is its message's, and may stand in the table. -/
def Standing (message : BitVec 32) (slot : Option Partial) : Prop :=
  ∀ assembling ∈ slot, assembling.message = message ∧ assembling.Sane

theorem Standing.sane (standing : Standing fragment.message slot) (coherent : fragment.Coherent) :
    (slot.getD (new fragment.message fragment.count)).Sane := by
  cases slot with
  | none => exact sane_new _ (Nat.zero_lt_of_lt coherent.1)
  | some assembling => exact (standing assembling rfl).2

/-- Everything that can come of a fragment offered to what is held. -/
inductive Offered
    (assembling : Partial)
    (fragment : Fragment)
    (data : Bytes) :
    Except Error (Option Bytes) × Option Partial → Prop
  | miscounted :
      assembling.count ≠ fragment.count →
        Offered assembling fragment data (.error (.protocol .badHeader), none)
  | again :
      assembling.count = fragment.count →
        assembling.arrived[fragment.index]? = some true →
          Offered assembling fragment data (.ok none, some assembling)
  | odd :
      assembling.count = fragment.count →
        assembling.arrived[fragment.index]? = some false →
          fragment.isLast = false →
            assembling.stride.getD data.length ≠ data.length →
              Offered assembling fragment data
                (.error (.protocol .badHeader), none)
  | large :
      assembling.count = fragment.count →
        assembling.arrived[fragment.index]? = some false →
          fragment.isLast = false →
            maxMessageLen < data.length * (assembling.count - 1) →
              Offered assembling fragment data
                (.error (.protocol .payloadTooLarge), none)
  | recorded {after : Partial} :
      assembling.count = fragment.count →
        assembling.arrived[fragment.index]? = some false →
          assembling.Marks fragment data after →
            after.received ≠ after.count →
              after.held ≤ maxMessageLen →
                Offered assembling fragment data (.ok none, some after)
  | overfull {after : Partial} :
      assembling.count = fragment.count →
        assembling.arrived[fragment.index]? = some false →
          assembling.Marks fragment data after →
            after.received ≠ after.count →
              maxMessageLen < after.held →
                Offered assembling fragment data
                  (.error (.protocol .payloadTooLarge), none)
  | completed {after : Partial} :
      assembling.count = fragment.count →
        assembling.arrived[fragment.index]? = some false →
          assembling.Marks fragment data after →
            after.received = after.count →
              Offered assembling fragment data
                (.ok (some (after.body ++ after.tail)), none)

theorem Sane.offered (sane : (slot.getD (new fragment.message fragment.count)).Sane)
    (inside : fragment.index < fragment.count) (data : Bytes) :
    Offered (slot.getD (new fragment.message fragment.count)) fragment data
      (offer slot fragment data) := by
  unfold offer
  generalize slot.getD (new fragment.message fragment.count) = assembling at sane
  by_cases sameCount : assembling.count = fragment.count
  · have slot : fragment.index < assembling.arrived.length := by
      rw [sane.slots, sameCount]
      exact inside
    rw [if_neg (not_not_intro sameCount)]
    unfold Partial.insert
    rw [List.getD_eq_getElem?_getD]
    cases arrived : assembling.arrived[fragment.index] with
    | true =>
      rw [List.getElem?_eq_getElem slot, arrived]
      dsimp only [Option.getD_some]
      rw [if_pos rfl]
      dsimp only
      rw [if_neg (Nat.not_lt_of_le sane.bounded)]
      exact .again sameCount (by rw [List.getElem?_eq_getElem slot, arrived])
    | false =>
      have notYet : assembling.arrived[fragment.index]? = some false := by
        rw [List.getElem?_eq_getElem slot, arrived]
      rw [notYet, Option.getD_some, if_neg Bool.false_ne_true]
      rcases assembling.place_cases fragment data with
        ⟨placed, places, marks⟩ | ⟨notLast, odd, fails⟩ | ⟨notLast, large, fails⟩
      · rw [places]
        dsimp only
        by_cases full : placed.received + 1 = placed.count
        · rw [if_neg (not_not_intro full)]
          have completed := Offered.completed sameCount notYet marks full
          exact completed
        rw [if_pos full]
        dsimp only
        split
        · next exceeds => exact .overfull sameCount notYet marks full exceeds
        · next small => exact .recorded sameCount notYet marks full (Nat.le_of_not_lt small)
      · rw [fails]
        exact .odd sameCount notYet notLast odd
      · rw [fails]
        exact .large sameCount notYet notLast large
  · rw [if_pos sameCount]
    exact .miscounted sameCount

/-- Whatever comes, a slot that stands is left standing or emptied. -/
theorem Standing.offer
    (standing : Standing fragment.message slot) (coherent : fragment.Coherent) (data : Bytes) :
    Standing fragment.message (offer slot fragment data).2 := by
  have sane := standing.sane coherent
  have isMessage : (slot.getD (new fragment.message fragment.count)).message =
        fragment.message := by
    cases slot with
    | none => rfl
    | some assembling => exact (standing assembling rfl).1
  have offered := sane.offered coherent.1 data
  generalize Partial.offer slot fragment data = outcome at offered ⊢
  cases offered with
  | again _ _ =>
    rintro _ ⟨⟩
    exact ⟨isMessage, sane⟩
  | recorded sameCount notYet marks notFull small =>
    obtain ⟨sameMessage, count, _, received⟩ := marks.frame
    have unfinished := sane.unfinished
    rintro _ ⟨⟩
    exact ⟨sameMessage.trans isMessage,
      sane.toShaped.marks sameCount coherent.1 notYet marks, by omega,
      small⟩
  | miscounted _ | odd _ _ _ _ | large _ _ _ _ | overfull _ _ _ _ _
  | completed _ _ _ _ => nofun

end Partial

namespace Reassembly

/-- The slot of a message, if it has one. -/
def lookup (table : Reassembly) (message : BitVec 32) : Option Partial :=
  table.partials.find? (·.message == message)

/-- What is left to make room for a fragment's message. -/
def kept (table : Reassembly) (message : BitVec 32) : List Partial :=
  if table.lookup message = none ∧
      table.partials.length ≥ maxReassemblies then
    table.partials.eraseIdx 0
  else
    table.partials

/-- No two slots are of one message. -/
def Distinct (table : Reassembly) : Prop :=
  (table.partials.map Partial.message).Nodup

variable {table : Reassembly} {fragment : Fragment}
  {front back : List Partial} {message : BitVec 32}

/-- Once the slot is settled, it alone is offered the fragment. -/
theorem accept_of_slotFor (few : fragment.count ≤ maxFragments) {assembling : Partial}
    (settled : table.slotFor fragment = (.ok front.length, ⟨front ++ assembling :: back⟩))
    (sameCount : assembling.count = fragment.count) (data : Bytes) :
    table.accept fragment data = ((Partial.offer (some assembling) fragment data).1,
        ⟨front ++ ((Partial.offer (some assembling) fragment data).2.toList ++ back)⟩) := by
  have held : (front ++ assembling :: back)[front.length]? = some assembling := by
    simp
  have erased : (front ++ assembling :: back).eraseIdx front.length = front ++ back := by
    rw [List.eraseIdx_append_of_length_le le_rfl, Nat.sub_self]
    rfl
  unfold accept Partial.offer
  rw [if_neg (Nat.not_lt_of_le few), settled]
  dsimp only [Option.getD_some]
  rw [held, if_neg (not_not_intro sameCount)]
  dsimp only
  rcases assembling.insert fragment data with error | ⟨_ | whole, after⟩
  · rw [erased]
    rfl
  · dsimp only
    split
    · rw [erased]
      rfl
    · rw [List.set_append_right _ _ le_rfl, Nat.sub_self]
      rfl
  · rw [erased]
    rfl

/--
Everything a fragment does to the table: room is made, and its own slot is
offered the fragment, wherever it stands.
-/
theorem accept_spec (table : Reassembly) (few : fragment.count ≤ maxFragments) (data : Bytes) :
    ∃ front back, table.kept fragment.message =
          front ++ ((table.lookup fragment.message).toList ++ back) ∧
        (∀ assembling ∈ front, assembling.message ≠ fragment.message) ∧
        (table.lookup fragment.message = none → back = []) ∧
        table.accept fragment data = ((Partial.offer (table.lookup fragment.message) fragment
              data).1,
            ⟨front ++ ((Partial.offer (table.lookup fragment.message) fragment
                data).2.toList ++ back)⟩) := by
  rcases found : table.lookup fragment.message with _ | assembling
  · have others : ∀ other ∈ table.partials, other.message ≠ fragment.message := by
      intro other member
      simpa using List.find?_eq_none.mp found other member
    have absent : table.partials.findIdx? (·.message == fragment.message) = none :=
      List.findIdx?_eq_none_iff.mpr fun other member => by
        simpa using others other member
    have settled : table.slotFor fragment = (.ok (table.kept fragment.message).length,
            ⟨table.kept fragment.message ++
              Partial.new fragment.message fragment.count :: []⟩) := by
      unfold slotFor kept
      rw [absent, found]
      simp only [true_and]
    refine ⟨table.kept fragment.message, [], (List.append_nil _).symm, ?_, fun _ => rfl,
      accept_of_slotFor few settled rfl data⟩
    intro other member
    refine others other ?_
    unfold kept at member
    split at member
    · exact List.mem_of_mem_eraseIdx member
    · exact member
  · obtain ⟨isMessage, front, back, parts, others⟩ :=
      List.find?_eq_some_iff_append.mp found
    have position : table.partials.findIdx? (·.message == fragment.message) =
          some front.length := by
      rw [parts, List.findIdx?_append, List.findIdx?_eq_none_iff.mpr fun other member => by
          simpa using others other member]
      simp [List.findIdx?_cons, isMessage]
    have held : table.partials[front.length]? = some assembling := by
      rw [parts]
      simp
    refine ⟨front, back, ?_, ?_, nofun, ?_⟩
    · unfold kept
      rw [if_neg fun missing => by rw [found] at missing; cases missing.1]
      exact parts
    · intro other member
      simpa using others other member
    · by_cases sameCount : assembling.count = fragment.count
      · refine accept_of_slotFor few ?_ sameCount data
        unfold slotFor
        rw [position]
        dsimp only
        rw [held, Option.map_some, sameCount, if_neg (not_not_intro rfl), ← parts]
      · have dropped : table.partials.eraseIdx front.length = front ++ back := by
          rw [parts, List.eraseIdx_append_of_length_le le_rfl, Nat.sub_self]
          rfl
        unfold accept slotFor Partial.offer
        rw [if_neg (Nat.not_lt_of_le few), position]
        dsimp only [Option.getD_some]
        rw [held, Option.map_some, if_pos fun same => sameCount (Option.some.inj same),
          if_pos sameCount, dropped]
        rfl

/-- Few messages, each once and each in order. -/
structure Bounded (table : Reassembly) : Prop where
  few : table.partials.length ≤ maxReassemblies
  distinct : table.Distinct
  sane : ∀ assembling ∈ table.partials, assembling.Sane

theorem bounded_new : Reassembly.new.Bounded :=
  ⟨Nat.zero_le _, List.nodup_nil, nofun⟩

theorem kept_sublist (table : Reassembly) (message : BitVec 32) :
    (table.kept message).Sublist table.partials := by
  unfold kept
  split
  · exact List.eraseIdx_sublist ..
  · exact List.Sublist.refl _

/-- What the table then holds was there, or is the fragment's own slot. -/
theorem mem_accept (few : fragment.count ≤ maxFragments) {data : Bytes} {assembling : Partial}
    (member : assembling ∈ (table.accept fragment data).2.partials) :
    assembling ∈ table.partials ∨
      assembling ∈ (Partial.offer (table.lookup fragment.message) fragment data).2 := by
  obtain ⟨front, back, parts, _, _, isAfter⟩ := table.accept_spec few data
  have subset := (table.kept_sublist fragment.message).subset
  rw [isAfter] at member
  rw [parts] at subset
  simp only [List.mem_append, Option.mem_toList] at member
  rcases member with inFront | isSlot | inBack
  · exact Or.inl (subset (List.mem_append_left _ inFront))
  · exact Or.inr isSlot
  · exact Or.inl (subset (List.mem_append_right _ (List.mem_append_right _ inBack)))

/-- A new message always finds room. -/
theorem Bounded.kept_length (bounded : table.Bounded) (missing : table.lookup message = none) :
    (table.kept message).length < maxReassemblies := by
  have few := bounded.few
  unfold kept
  by_cases full : table.partials.length ≥ maxReassemblies
  · have inhabited : 0 < table.partials.length :=
      Nat.lt_of_lt_of_le (by decide) full
    rw [if_pos ⟨missing, full⟩, List.length_eraseIdx_of_lt inhabited]
    omega
  · rw [if_neg fun both => full both.2]
    exact Nat.lt_of_not_le full

theorem Bounded.standing (bounded : table.Bounded) (message : BitVec 32) :
    Partial.Standing message (table.lookup message) := by
  intro assembling found
  refine ⟨?_, bounded.sane assembling (List.mem_of_find?_eq_some found)⟩
  simpa using List.find?_some found

/-- The parts of a bounded table around the slot a fragment goes to. -/
theorem Bounded.accept_spec
    (bounded : table.Bounded) (few : fragment.count ≤ maxFragments) (data : Bytes) :
    ∃ front back, table.kept fragment.message =
          front ++ ((table.lookup fragment.message).toList ++ back) ∧
        (∀ assembling ∈ front ++ back, assembling.message ≠ fragment.message) ∧
        table.accept fragment data = ((Partial.offer (table.lookup fragment.message) fragment
              data).1,
            ⟨front ++ ((Partial.offer (table.lookup fragment.message) fragment
                data).2.toList ++ back)⟩) := by
  obtain ⟨front, back, parts, before, alone, isAfter⟩ := table.accept_spec few data
  refine ⟨front, back, parts, ?_, isAfter⟩
  intro other member
  rcases List.mem_append.mp member with inFront | inBack
  · exact before other inFront
  rcases found : table.lookup fragment.message with _ | assembling
  · rw [alone found] at inBack
    cases inBack
  · have isMessage := (bounded.standing _ _ found).1
    have distinct :=
      ((table.kept_sublist fragment.message).map Partial.message).nodup bounded.distinct
    rw [parts, found, List.map_append] at distinct
    have once := (List.nodup_cons.mp (List.nodup_append.mp distinct).2.1).1
    rw [isMessage] at once
    intro same
    exact once (List.mem_map.mpr ⟨other, inBack, same⟩)

/-- Whatever comes, the table stays bounded. -/
theorem Bounded.accept (bounded : table.Bounded) (coherent : fragment.Coherent) (data : Bytes) :
    (table.accept fragment data).2.Bounded := by
  obtain ⟨front, back, parts, others, isAfter⟩ := bounded.accept_spec coherent.2 data
  have standing := (bounded.standing fragment.message).offer coherent data
  have sublist := table.kept_sublist fragment.message
  rw [isAfter]
  generalize (Partial.offer (table.lookup fragment.message) fragment data).2 = slot at standing
  have rest : (front ++ back).Sublist table.partials := by
    rw [parts] at sublist
    refine List.Sublist.trans ?_ sublist
    exact (List.Sublist.refl front).append (List.sublist_append_right _ back)
  have restDistinct := (rest.map Partial.message).nodup bounded.distinct
  have rearranged : (front ++ (slot.toList ++ back)).Perm (slot.toList ++ (front ++ back)) := by
    rw [← List.append_assoc, ← List.append_assoc]
    exact List.perm_append_comm.append_right back
  refine ⟨?_, ?_, ?_⟩
  · have one : slot.toList.length ≤ 1 := by
      cases slot <;> simp
    have size := congrArg List.length parts
    have room := sublist.length_le
    have few := bounded.few
    simp only [List.length_append] at size ⊢
    rcases found : table.lookup fragment.message with _ | assembling
    · have left := bounded.kept_length found
      omega
    · rw [found] at size
      simp only [Option.toList_some, List.length_singleton] at size
      omega
  · refine (rearranged.map Partial.message).nodup_iff.mpr ?_
    cases slot with
    | none => exact restDistinct
    | some after =>
      refine List.nodup_cons.mpr ⟨?_, restDistinct⟩
      rw [(standing after rfl).1]
      intro member
      obtain ⟨other, isOther, same⟩ := List.mem_map.mp member
      exact others other isOther same
  · intro assembling member
    rcases List.mem_append.mp (rearranged.mem_iff.mp member) with
      isSlot | isRest
    · exact (standing assembling (Option.mem_toList.mp isSlot)).2
    · exact bounded.sane assembling (rest.subset isRest)

/-! ### The table as slots side by side -/

theorem lookup_append
    (others : ∀ assembling ∈ front ++ back, assembling.message ≠ message) {slot : Option Partial}
    (own : ∀ assembling ∈ slot, assembling.message = message) :
    (⟨front ++ (slot.toList ++ back)⟩ : Reassembly).lookup message = slot := by
  have absent : ∀ {part : List Partial},
        (∀ assembling ∈ part, assembling.message ≠ message) →
          part.find? (·.message == message) = none := by
    intro part elsewhere
    refine List.find?_eq_none.mpr fun assembling member => ?_
    simpa using elsewhere assembling member
  unfold lookup
  rw [List.find?_append, absent fun other member => others other (List.mem_append_left _ member),
    Option.none_or, List.find?_append,
    absent fun other member =>
      others other (List.mem_append_right _ member),
    Option.or_none]
  cases slot with
  | none => rfl
  | some assembling => simp [own assembling rfl]

/-- One message's slot says nothing of the others. -/
theorem lookup_elsewhere {other : BitVec 32} {slot : Option Partial}
    (standing : Partial.Standing message slot) (different : other ≠ message) :
    (⟨front ++ (slot.toList ++ back)⟩ : Reassembly).lookup other =
      (⟨front ++ back⟩ : Reassembly).lookup other := by
  have skips : slot.toList.find? (·.message == other) = none := by
    refine List.find?_eq_none.mpr fun assembling member => ?_
    rw [(standing assembling (Option.mem_toList.mp member)).1]
    simpa using different.symm
  unfold lookup
  rw [List.find?_append, List.find?_append, List.find?_append, skips, Option.none_or]

/-- A fragment moves its own slot as it would move it alone. -/
theorem Bounded.accept_own (bounded : table.Bounded) (coherent : fragment.Coherent) (data : Bytes) :
    (table.accept fragment data).1 =
        (Partial.offer (table.lookup fragment.message) fragment data).1 ∧
      (table.accept fragment data).2.lookup fragment.message =
        (Partial.offer (table.lookup fragment.message) fragment data).2 := by
  obtain ⟨front, back, _, others, isAfter⟩ := bounded.accept_spec coherent.2 data
  have standing := (bounded.standing fragment.message).offer coherent data
  rw [isAfter]
  exact ⟨rfl, lookup_append others fun assembling member =>
    (standing assembling member).1⟩

/-- With room left, no other slot is moved. -/
theorem Bounded.accept_other (bounded : table.Bounded) (coherent : fragment.Coherent) (data : Bytes)
    (roomy : table.lookup fragment.message = none → table.partials.length < maxReassemblies)
    {other : BitVec 32} (different : other ≠ fragment.message) :
    (table.accept fragment data).2.lookup other = table.lookup other := by
  obtain ⟨front, back, parts, _, isAfter⟩ := bounded.accept_spec coherent.2 data
  have standing := bounded.standing fragment.message
  have stillStanding := standing.offer coherent data
  have all : table.kept fragment.message = table.partials := by
    unfold kept
    rw [if_neg fun both => Nat.not_lt_of_le both.2 (roomy both.1)]
  have before : table = ⟨table.kept fragment.message⟩ := by
    rw [all]
  rw [isAfter, lookup_elsewhere stillStanding different]
  refine Eq.trans ?_ (congrArg (lookup · other) before).symm
  rw [parts, lookup_elsewhere standing different]

/-! ### Runs -/

/-- The table after one more fragment. -/
def step (table : Reassembly) (arrival : Arrival) : Reassembly :=
  (table.accept arrival.fragment arrival.data).2

theorem run_bounded (arrivals : List Arrival) :
    (Execution.run step new arrivals).Bounded :=
  @Execution.invariant_of_step _ _ step Bounded
    (fun bounded arrival => bounded.accept arrival.coherent arrival.data)
    _ _ bounded_new

/-- The slot a fragment is put in is there, and takes it. -/
theorem Bounded.slotFor_inRange
    {after : Reassembly} (bounded : table.Bounded) (coherent : fragment.Coherent) {slot : Nat}
    (settled : table.slotFor fragment = (.ok slot, after)) (data : Bytes) :
    ∃ assembling, after.partials[slot]? = some assembling ∧ assembling.InRange fragment data := by
  unfold slotFor at settled
  split at settled
  · next position found =>
      split at settled
      · cases settled
      next counted =>
      cases settled
      obtain ⟨assembling, held, sameCount⟩ := Option.map_eq_some_iff.mp (not_not.mp counted)
      have shaped := (bounded.sane assembling (List.mem_of_getElem? held)).toShaped
      exact ⟨assembling, held, shaped.inRange sameCount coherent.1 data⟩
  · cases settled
    have positive := Nat.zero_lt_of_lt coherent.1
    exact ⟨_, List.getElem?_concat_length,
      (Partial.shaped_new fragment.message positive).inRange rfl coherent.1 data⟩

/--
Whatever fragments a peer sends, few messages are half-assembled, each once;
each counts what has come of it, has not all of it, holds a body of its declared
size or none and no more than the ceiling; and the next fragment, whatever it
is, is put in a slot that is there, at indices that are inside.
-/
theorem stays_coherent (arrivals : List Arrival) :
    let table := Execution.run step new arrivals
    table.partials.length ≤ maxReassemblies ∧
      (table.partials.map Partial.message).Nodup ∧
      (∀ assembling ∈ table.partials,
        assembling.arrived.length = assembling.count ∧
          assembling.received = assembling.arrived.count true ∧
          assembling.received < assembling.count ∧
          (assembling.body.length = 0 ∨
            ∃ stride,
              assembling.stride = some stride ∧
                assembling.body.length =
                  stride * (assembling.count - 1)) ∧
          assembling.body.length + assembling.tail.length ≤
            maxMessageLen) ∧
      ∀ (next : Arrival) (slot : Nat) (after : Reassembly),
        table.slotFor next.fragment = (.ok slot, after) →
          ∃ assembling,
            after.partials[slot]? = some assembling ∧
              assembling.InRange next.fragment next.data := by
  intro table
  have bounded : table.Bounded := run_bounded arrivals
  refine ⟨bounded.few, bounded.distinct, ?_, ?_⟩
  · intro assembling member
    have sane := bounded.sane assembling member
    refine ⟨sane.slots, sane.received, sane.unfinished, ?_, sane.bounded⟩
    rcases sane.body with ⟨_, empty⟩ | known
    · exact Or.inl (congrArg List.length empty)
    · exact Or.inr known
  · intro next slot after settled
    exact bounded.slotFor_inRange next.coherent settled next.data

end Reassembly

end Fectp
