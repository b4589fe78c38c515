import Mathlib.Data.List.Dedup
import Mathlib.Data.List.Perm.Subperm
import Fectp.ReassemblyTrace

namespace Fectp

/-!
# Reassembly undoes splitting

Messages cut as the sender cuts them arrive as fragments in any order, repeated
and mixed with each other.  As long as the table has room for every message
begun and not complete, a message comes back exactly with its last missing
fragment, and as it was.
-/

/-- A message and the way the sender cuts it. -/
structure CutMessage where
  data : Bytes
  perFragment : Nat
  count : Nat
  needed : fragmentsNeeded data.length perFragment = some count

namespace CutMessage

/-- The bytes of one fragment. -/
def piece (message : CutMessage) (index : Nat) : Bytes :=
  Chunks.chunk message.perFragment message.data index

theorem exists_cutting (message : CutMessage) :
    ∃ cutting : Cutting, cutting.data = message.data ∧ cutting.count = message.count ∧
        ∀ index, cutting.piece index = message.piece index := by
  obtain ⟨cutting, _, sameData, sameSize, sameCount⟩ := Cutting.of_fragmentsNeeded message.needed
  refine ⟨cutting, sameData, sameCount, fun index => ?_⟩
  unfold Cutting.piece piece
  rw [sameData, sameSize]

end CutMessage

/-! ### Fragments of many messages -/

/-- A fragment of a message, by identifier and index. -/
abbrev Piece := BitVec 32 × Nat

/-- The table, and the fragments that have come. -/
structure Mixture where
  table : Reassembly
  came : List Piece

namespace Mixture

variable (messages : BitVec 32 → CutMessage)

/-- The descriptor the sender gives a fragment. -/
def descriptor (piece : Piece) : Fragment where
  message := piece.1
  index := piece.2
  count := (messages piece.1).count

/-- Every fragment of a message has come. -/
def complete (came : List Piece) (message : BitVec 32) : Bool :=
  (List.range (messages message).count).all fun index =>
    (message, index) ∈ came

/-- The messages of some fragments that are not complete. -/
def unfinished (came begun : List Piece) : List (BitVec 32) :=
  (begun.map Prod.fst).dedup.filter fun message =>
    !complete messages came message

def start : Mixture where
  table := .new
  came := []

/-- What the receiver makes of a fragment. -/
def accept (mixture : Mixture) (piece : Piece) :
    Except Error (Option Bytes) × Reassembly :=
  mixture.table.accept (descriptor messages piece)
    ((messages piece.1).piece piece.2)

def step (mixture : Mixture) (piece : Piece) : Mixture where
  table := (mixture.accept messages piece).2
  came := piece :: mixture.came

/-- A fragment of a message that is not complete. -/
def Genuine (mixture : Mixture) (piece : Piece) : Prop :=
  piece.2 < (messages piece.1).count ∧
    complete messages mixture.came piece.1 = false

/-- There is room for every message begun, the arriving one among them. -/
def Roomy (mixture : Mixture) (piece : Piece) : Prop :=
  (unfinished messages mixture.came (piece :: mixture.came)).length ≤
    maxReassemblies

/-- The message comes back with its last missing fragment, and only then. -/
def Inverts (mixture : Mixture) (piece : Piece) : Prop :=
  (mixture.accept messages piece).1 =
    .ok
      (if complete messages (piece :: mixture.came) piece.1 then
        some (messages piece.1).data
      else
        none)

instance (mixture : Mixture) (piece : Piece) :
    Decidable (mixture.Genuine messages piece) :=
  inferInstanceAs (Decidable (_ ∧ _))

instance (mixture : Mixture) (piece : Piece) :
    Decidable (mixture.Roomy messages piece) :=
  inferInstanceAs (Decidable (_ ≤ _))

variable {messages}

variable {came : List Piece} {message : BitVec 32} {piece : Piece}

theorem complete_iff :
    complete messages came message = true ↔
      ∀ index < (messages message).count, (message, index) ∈ came := by
  simp [complete]

theorem mem_unfinished {begun : List Piece} :
    message ∈ unfinished messages came begun ↔
      (∃ index, (message, index) ∈ begun) ∧ complete messages came message = false := by
  simp [unfinished]

/-- What the table holds of a message is what has come of it. -/
structure Holds
    (messages : BitVec 32 → CutMessage)
    (came : List Piece)
    (message : BitVec 32)
    (assembling : Partial) : Prop where
  isMessage : assembling.message = message
  follows : ∃ cutting : Cutting,
      cutting.data = (messages message).data ∧
        cutting.count = (messages message).count ∧
        (∀ index, cutting.piece index = (messages message).piece index) ∧
        assembling.Follows cutting
  arrived :
    ∀ index, assembling.arrived[index]? = some true ↔ (message, index) ∈ came

/-- A message some fragment of which has come, and some has not. -/
def Begun
    (messages : BitVec 32 → CutMessage)
    (came : List Piece)
    (message : BitVec 32) : Prop :=
  (∃ index, (message, index) ∈ came) ∧ complete messages came message = false

/-- The table holds what was begun and is not complete. -/
structure Faithful
    (messages : BitVec 32 → CutMessage)
    (mixture : Mixture) : Prop where
  bounded : mixture.table.Bounded
  held : ∀ message assembling,
      mixture.table.lookup message = some assembling →
        Begun messages mixture.came message ∧
          Holds messages mixture.came message assembling
  waiting : ∀ message,
      Begun messages mixture.came message → mixture.table.lookup message ≠ none

theorem faithful_start : start.Faithful messages :=
  ⟨Reassembly.bounded_new, nofun, fun _ begun => nomatch begun.1.choose_spec⟩

/-- Fragments of another message say nothing of this one. -/
theorem mem_cons_other (different : message ≠ piece.1) {index : Nat} :
    (message, index) ∈ piece :: came ↔ (message, index) ∈ came := by
  rw [List.mem_cons, or_iff_right]
  intro same
  exact different (congrArg Prod.fst same)

theorem complete_other (different : message ≠ piece.1) :
    complete messages (piece :: came) message = complete messages came message := by
  rw [Bool.eq_iff_iff, complete_iff, complete_iff]
  exact forall₂_congr fun index _ => mem_cons_other different

theorem begun_other (different : message ≠ piece.1) :
    Begun messages (piece :: came) message ↔ Begun messages came message := by
  unfold Begun
  rw [complete_other different]
  exact and_congr_left' (exists_congr fun index => mem_cons_other different)

theorem Holds.other {assembling : Partial} (holds : Holds messages came message assembling)
    (different : message ≠ piece.1) :
    Holds messages (piece :: came) message assembling :=
  { holds with
    arrived := fun index =>
      (holds.arrived index).trans (mem_cons_other different).symm }

section

variable {mixture : Mixture} {piece : Piece}

theorem Genuine.coherent (genuine : mixture.Genuine messages piece) :
    (descriptor messages piece).Coherent := by
  obtain ⟨cutting, _, sameCount, _⟩ := (messages piece.1).exists_cutting
  refine ⟨genuine.1, ?_⟩
  change (messages piece.1).count ≤ maxFragments
  rw [← sameCount]
  exact cutting.few

section

variable (faithful : mixture.Faithful messages) (genuine : mixture.Genuine
    messages piece)

include faithful genuine

/-- What a fragment finds of its message is what has come of it. -/
theorem Faithful.holds :
    Holds messages mixture.came piece.1
      ((mixture.table.lookup piece.1).getD (.new piece.1 (messages piece.1).count)) := by
  rcases found : mixture.table.lookup piece.1 with _ | assembling
  · obtain ⟨cutting, sameData, sameCount, samePieces⟩ :=
      (messages piece.1).exists_cutting
    have nothing : ∀ index, (piece.1, index) ∉ mixture.came :=
      fun index came =>
        faithful.waiting piece.1 ⟨⟨index, came⟩, genuine.2⟩ found
    refine ⟨rfl, ⟨cutting, sameData, sameCount, samePieces, ?_⟩, fun index => ?_⟩
    · rw [← sameCount]
      exact Partial.follows_new piece.1 cutting
    · exact iff_of_false (Partial.not_arrived_new _ _ _) (nothing index)
  · exact (faithful.held piece.1 assembling found).2

/-- The table has room for one more when the messages begun leave it. -/
theorem Faithful.roomy
    (roomy : mixture.Roomy messages piece) (missing : mixture.table.lookup piece.1 = none) :
    mixture.table.partials.length < maxReassemblies := by
  have known : ∀ assembling ∈ mixture.table.partials,
        ∃ other, mixture.table.lookup assembling.message = some other := by
    intro assembling member
    exact Option.isSome_iff_exists.mp
      (List.find?_isSome.mpr ⟨assembling, member, beq_self_eq_true _⟩)
  have distinct : (piece.1 :: mixture.table.partials.map Partial.message).Nodup := by
    refine List.nodup_cons.mpr ⟨fun present => ?_, faithful.bounded.distinct⟩
    obtain ⟨assembling, member, same⟩ := List.mem_map.mp present
    obtain ⟨other, found⟩ := known assembling member
    rw [same, missing] at found
    cases found
  have among : piece.1 :: mixture.table.partials.map Partial.message ⊆
        unfinished messages mixture.came (piece :: mixture.came) := by
    refine List.cons_subset.mpr ⟨?_, fun message present => ?_⟩
    · exact mem_unfinished.mpr ⟨⟨piece.2, List.mem_cons_self⟩, genuine.2⟩
    · obtain ⟨assembling, member, rfl⟩ := List.mem_map.mp present
      obtain ⟨other, found⟩ := known assembling member
      obtain ⟨⟨⟨index, came⟩, incomplete⟩, _⟩ := faithful.held _ other found
      exact mem_unfinished.mpr ⟨⟨index, List.mem_cons_of_mem _ came⟩, incomplete⟩
  have fits := (List.subperm_of_subset distinct among).length_le
  rw [List.length_cons, List.length_map] at fits
  exact Nat.lt_of_succ_le (fits.trans roomy)

/-- A fragment leaves the other messages as they were. -/
theorem Faithful.extend (roomy : mixture.Roomy messages piece)
    (held : ∀ assembling, (mixture.step messages piece).table.lookup piece.1 = some assembling →
          Begun messages (piece :: mixture.came) piece.1 ∧
            Holds messages (piece :: mixture.came) piece.1 assembling)
    (waiting : Begun messages (piece :: mixture.came) piece.1 →
        (mixture.step messages piece).table.lookup piece.1 ≠ none) :
    (mixture.step messages piece).Faithful messages := by
  have others : ∀ {message : BitVec 32},
        message ≠ piece.1 →
          (mixture.step messages piece).table.lookup message = mixture.table.lookup message :=
    faithful.bounded.accept_other genuine.coherent _ (faithful.roomy genuine roomy)
  refine ⟨faithful.bounded.accept genuine.coherent _, ?_, ?_⟩
  · intro message assembling found
    by_cases same : message = piece.1
    · subst same
      exact held assembling found
    · rw [others same] at found
      obtain ⟨begun, holds⟩ := faithful.held message assembling found
      exact ⟨(begun_other same).mpr begun, holds.other same⟩
  · intro message begun
    by_cases same : message = piece.1
    · subst same
      exact waiting begun
    · rw [others same]
      exact faithful.waiting message ((begun_other same).mp begun)

/-- One fragment: what it returns, and what the table then holds. -/
theorem Faithful.step (roomy : mixture.Roomy messages piece) :
    mixture.Inverts messages piece ∧ (mixture.step messages piece).Faithful messages := by
  have holds := faithful.holds genuine
  obtain ⟨cutting, sameData, sameCount, samePieces, follows⟩ := holds.follows
  obtain ⟨result, slot⟩ :=
    faithful.bounded.accept_own genuine.coherent ((messages piece.1).piece piece.2)
  have isPiece : cutting.piece (descriptor messages piece).index =
      (messages piece.1).piece piece.2 :=
    samePieces piece.2
  have offers :=
    follows.offer holds.isMessage (sameCount ▸ genuine.1) sameCount.symm
      (@Partial.Sane.offered (descriptor messages piece) _ follows.toSane genuine.1 _)
  rw [isPiece] at offers
  have arrivals : ∀ index, ((mixture.table.lookup piece.1).getD
              (.new piece.1 (messages piece.1).count)).arrived[index]? =
            some true ∨ index = piece.2 ↔
          (piece.1, index) ∈ piece :: mixture.came := by
    intro index
    rw [holds.arrived index, List.mem_cons, or_comm]
    refine or_congr ⟨fun same => ?_, fun same => ?_⟩ Iff.rfl
    · rw [same]
    · exact congrArg Prod.snd same
  rcases offers with
    ⟨completes, every⟩ | ⟨after, records, isMessage, afterFollows, arrived⟩
  · have isComplete : complete messages (piece :: mixture.came) piece.1 = true := by
      rw [complete_iff, ← sameCount]
      intro index inside
      exact (arrivals index).mp (every index inside)
    have emptied : (mixture.step messages piece).table.lookup piece.1 = none :=
      slot.trans (congrArg Prod.snd completes)
    constructor
    · unfold Inverts
      rw [isComplete, if_pos rfl, ← sameData]
      exact result.trans (congrArg Prod.fst completes)
    · refine faithful.extend genuine roomy ?_ ?_
      · intro assembling found
        rw [emptied] at found
        cases found
      · rintro ⟨_, incomplete⟩
        rw [isComplete] at incomplete
        cases incomplete
  · have nowArrived : ∀ index,
          after.arrived[index]? = some true ↔ (piece.1, index) ∈ piece :: mixture.came :=
      fun index => (arrived index).trans (arrivals index)
    have isIncomplete : complete messages (piece :: mixture.came) piece.1 = false := by
      obtain ⟨index, inside, lacking⟩ :=
        afterFollows.exists_missing afterFollows.unfinished.ne
      rw [Bool.eq_false_iff, ne_eq, complete_iff, ← sameCount, ← afterFollows.isCount]
      intro all
      exact lacking ((nowArrived index).mpr (all index inside))
    have kept : (mixture.step messages piece).table.lookup piece.1 = some after :=
      slot.trans (congrArg Prod.snd records)
    constructor
    · unfold Inverts
      rw [isIncomplete, if_neg Bool.false_ne_true]
      exact result.trans (congrArg Prod.fst records)
    · refine faithful.extend genuine roomy ?_ ?_
      · intro assembling found
        rw [kept] at found
        cases found
        refine ⟨⟨⟨piece.2, List.mem_cons_self⟩, isIncomplete⟩, isMessage,
          ⟨cutting, sameData, sameCount, samePieces, afterFollows⟩,
          nowArrived⟩
      · intro _
        rw [kept]
        exact Option.some_ne_none _

end

end

/--
Whatever messages are cut and in whatever order, repeated and mixed, their
fragments come, with room for every message begun, the arriving one among them:
no fragment is refused, and each message comes back, as it was, exactly with its
last missing fragment.
-/
theorem reassembly_inverts_splitting
    (messages : BitVec 32 → CutMessage)
    (pieces : List Piece)
    (orderly :
      Execution.Admits (step messages)
        (fun mixture piece =>
          mixture.Genuine messages piece ∧ mixture.Roomy messages piece)
        start pieces) :
    Execution.Admits (step messages) (Inverts messages) start pieces := by
  have initially : start.Faithful messages := faithful_start
  refine Execution.admits_of_invariant ?_ ?_ orderly initially
  · intro mixture piece allowed faithful
    exact (faithful.step allowed.1 allowed.2).2
  · intro mixture piece allowed faithful
    exact (faithful.step allowed.1 allowed.2).1

/-- Three bytes in two fragments. -/
def smallMessage : CutMessage where
  data := [1, 2, 3]
  perFragment := 2
  count := 2
  needed := by decide

/-- Two messages mixed, the last fragment of one first and repeated. -/
def smallMixture : List Piece :=
  [(1, 1), (2, 0), (1, 1), (1, 0), (2, 1)]

theorem reassembly_inverts_splitting_of_small_mixture :
    let messages := fun _ => smallMessage
    Execution.Admits (step messages)
        (fun mixture piece =>
          mixture.Genuine messages piece ∧ mixture.Roomy messages piece)
        start smallMixture ∧
      Execution.Admits (step messages) (Inverts messages) start
        smallMixture := by
  intro messages
  have orderly : Execution.Admits (step messages)
        (fun mixture piece =>
          mixture.Genuine messages piece ∧ mixture.Roomy messages piece)
        start smallMixture := by
    decide
  exact ⟨orderly, reassembly_inverts_splitting messages _ orderly⟩

/-- Four messages of two bytes and one of one, a byte to a fragment. -/
def fiveMessages (message : BitVec 32) : CutMessage :=
  if message = 4 then
    { data := [0], perFragment := 1, count := 1, needed := by decide }
  else
    { data := [0, 1], perFragment := 1, count := 2, needed := by decide }

/-- No more messages are begun and incomplete than the table holds. -/
def Settled
    (messages : BitVec 32 → CutMessage)
    (mixture : Mixture)
    (piece : Piece) : Prop :=
  (unfinished messages (piece :: mixture.came)
    (piece :: mixture.came)).length ≤ maxReassemblies

instance (messages : BitVec 32 → CutMessage) (mixture : Mixture)
    (piece : Piece) : Decidable (Settled messages mixture piece) :=
  inferInstanceAs (Decidable (_ ≤ _))

/--
With four messages begun, a message of one fragment takes the place of the
oldest: never are more than four incomplete, and the oldest does not come back.
-/
theorem whole_message_evicts_begun :
    let messages := fiveMessages
    let pieces : List Piece := [(0, 0), (1, 0), (2, 0), (3, 0), (4, 0)]
    Execution.Admits (step messages) (Genuine messages) start
        (pieces ++ [(0, 1)]) ∧
      Execution.Admits (step messages) (Settled messages) start
        (pieces ++ [(0, 1)]) ∧
      let mixture := Execution.run (step messages) start pieces
      complete messages ((0, 1) :: mixture.came) 0 = true ∧
        (mixture.accept messages (0, 1)).1 = .ok none := by
  decide

end Mixture

end Fectp
