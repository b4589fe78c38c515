import Mathlib.Data.List.Nodup
import Mathlib.Logic.Function.Basic
import Mathlib.Logic.Relation

namespace Fectp

/-!
# A registry with two indices

Handles are numbers given out once each.  A handle is pending, and then filed
at a place, which is an address together with a tag.  One index finds the handle
filed at a place; the other lists the handles that share a tag, whatever their
addresses.  The three are kept in step by hand, and what is proved here is that
a few moves keep them so.
-/

/-- Which handles are out, where they are filed, and the two indices. -/
structure Registry (α β : Type*) where
  place : Nat → Option (α × β)
  route : α × β → Option Nat
  shelf : β → Option (List Nat)
  pending : Nat → Bool
  next : Nat

namespace Registry

variable {α β : Type*} [DecidableEq α] [DecidableEq β]

open Function (update update_self update_of_ne)
open Relation (ReflTransGen)

/-- A shelf once a handle is taken off it; an empty one is cleared away. -/
def unshelve (handle : Nat) (shelf : Option (List Nat)) :
    Option (List Nat) :=
  (shelf.map (·.filter (· != handle))).filter (!·.isEmpty)

/-- Files a handle at a place. -/
def add (registry : Registry α β) (handle : Nat) (place : α × β) :
    Registry α β :=
  { registry with
    place := update registry.place handle (some place)
    route := update registry.route place (some handle)
    shelf :=
      update registry.shelf place.2
        (some ((registry.shelf place.2).getD [] ++ [handle])) }

/-- Takes a handle out of its place and off its shelf. -/
def remove (registry : Registry α β) (handle : Nat) (place : α × β) :
    Registry α β :=
  { registry with
    place := update registry.place handle none
    route := update registry.route place none
    shelf :=
      update registry.shelf place.2 (unshelve handle (registry.shelf place.2)) }

/-- Moves a handle to another address; its tag stays. -/
def relocate
    (registry : Registry α β)
    (handle : Nat)
    (place : α × β)
    (address : α) :
    Registry α β :=
  { registry with
    place := update registry.place handle (some (address, place.2))
    route :=
      update (update registry.route place none) (address, place.2)
        (some handle) }

/-- A handle that is pending or filed. -/
def Resolves (registry : Registry α β) (handle : Nat) : Prop :=
  registry.pending handle = true ∨ registry.place handle ≠ none

/-- The indices are in step with where things are filed. -/
structure Consistent (registry : Registry α β) : Prop where
  routed : ∀ place handle,
      registry.route place = some handle ↔ registry.place handle = some place
  /-- A shelf is never left empty. -/
  shelved : ∀ tag, registry.shelf tag ≠ some []
  distinct : ∀ tag sharing, registry.shelf tag = some sharing → sharing.Nodup
  listed : ∀ tag handle,
      (∃ sharing, registry.shelf tag = some sharing ∧ handle ∈ sharing) ↔
        ∃ address, registry.place handle = some (address, tag)
  apart :
    ∀ handle, registry.pending handle = true → registry.place handle = none
  issued : ∀ handle, registry.Resolves handle → handle < registry.next

/-- A handle leaves. -/
inductive Leave : Registry α β → Registry α β → Prop where
  | leave {registry : Registry α β} {handle : Nat} {place : α × β} :
      registry.place handle = some place →
      Leave registry (registry.remove handle place)

/-- What can happen to a registry. -/
inductive Move : Registry α β → Registry α β → Prop where
  | start {registry : Registry α β} :
      Move registry
        { registry with
          pending := update registry.pending registry.next true
          next := registry.next + 1 }
  | close {registry : Registry α β} {handle : Nat} :
      Move registry
        { registry with pending := update registry.pending handle false }
  /-- A handle is given out and filed at once. -/
  | accept {registry : Registry α β} {place : α × β} :
      registry.route place = none →
      Move registry
        (({ registry with next := registry.next + 1 } : Registry α β).add
          registry.next place)
  /-- A pending handle is filed. -/
  | complete {registry : Registry α β} {handle : Nat} {place : α × β} :
      registry.pending handle = true →
      registry.route place = none →
      Move registry
        (({ registry with
            pending := update registry.pending handle false } :
          Registry α β).add handle place)
  | leave {before after : Registry α β} :
      Leave before after →
      Move before after
  | relocate {registry : Registry α β} {handle : Nat} {place : α × β}
      {address : α} :
      registry.place handle = some place →
      registry.route (address, place.2) = none →
      Move registry (registry.relocate handle place address)

theorem unshelve_ne_nil (handle : Nat) (shelf : Option (List Nat)) :
    unshelve handle shelf ≠ some [] := by
  intro isNil
  have kept := (Option.filter_eq_some_iff.mp isNil).2
  simp at kept

variable {handle : Nat} {before after : Registry α β}

theorem mem_unshelve {other : Nat} {shelf : Option (List Nat)} :
    (∃ sharing, unshelve handle shelf = some sharing ∧ other ∈ sharing) ↔
      other ≠ handle ∧ ∃ sharing, shelf = some sharing ∧ other ∈ sharing := by
  constructor
  · rintro ⟨sharing, isSharing, member⟩
    obtain ⟨before, isBefore, rfl⟩ :=
      Option.map_eq_some_iff.mp (Option.filter_eq_some_iff.mp isSharing).1
    obtain ⟨inBefore, isOther⟩ := List.mem_filter.mp member
    exact ⟨by simpa using isOther, before, isBefore, inBefore⟩
  · rintro ⟨isOther, sharing, rfl, member⟩
    have stays : other ∈ sharing.filter (· != handle) :=
      List.mem_filter.mpr ⟨member, by simpa using isOther⟩
    refine ⟨sharing.filter (· != handle), ?_, stays⟩
    rw [unshelve, Option.map_some, Option.filter_some, if_pos]
    cases filtered : sharing.filter (· != handle) with
    | nil =>
      rw [filtered] at stays
      cases stays
    | cons head rest => rfl

theorem nodup_of_unshelve {shelf : Option (List Nat)} {sharing : List Nat}
    (distinct : ∀ before, shelf = some before → before.Nodup)
    (isSharing : unshelve handle shelf = some sharing) :
    sharing.Nodup := by
  obtain ⟨before, isBefore, rfl⟩ :=
    Option.map_eq_some_iff.mp (Option.filter_eq_some_iff.mp isSharing).1
  exact (distinct before isBefore).filter _

/-- A shelf with a handle put on it holds the handle besides the others. -/
theorem mem_shelve {other : Nat} {shelf : Option (List Nat)} :
    (∃ sharing, some (shelf.getD [] ++ [handle]) = some sharing ∧ other ∈ sharing) ↔
      other = handle ∨ ∃ sharing, shelf = some sharing ∧ other ∈ sharing := by
  cases shelf <;> simp [or_comm]

/-! ### Maps that are each other's inverse -/

section Paired

variable {η π : Type*} [DecidableEq η] [DecidableEq π]
  {place : η → Option π} {route : π → Option η} {filed : η} {there : π}

theorem paired_insert (paired : ∀ there filed, route there = some filed ↔ place filed = some there)
    (unfiled : place filed = none) (vacant : route there = none) (elsewhere : π) (other : η) :
    update route there (some filed) elsewhere = some other ↔
      update place filed (some there) other = some elsewhere := by
  have before := paired elsewhere other
  have unplaced := paired there other
  grind

theorem paired_erase (paired : ∀ there filed, route there = some filed ↔ place filed = some there)
    (isFiled : place filed = some there) (elsewhere : π) (other : η) :
    update route there none elsewhere = some other ↔
      update place filed none other = some elsewhere := by
  have before := paired elsewhere other
  have routed := paired there filed
  have placed := paired there other
  grind

end Paired

namespace Consistent

variable {registry after : Registry α β}

variable {handle : Nat}

/-- Filing a handle that is out and not on file, where nothing is filed. -/
theorem add {place : α × β} (consistent : registry.Consistent)
    (issued : handle < registry.next) (unfiled : registry.place handle = none)
    (settled : registry.pending handle = false) (vacant : registry.route place = none) :
    (registry.add handle place).Consistent where
  routed := paired_insert consistent.routed unfiled vacant
  shelved :=
    (Function.forall_update_iff _ fun _ shelf => shelf ≠ some []).mpr
      ⟨by simp, fun tag _ => consistent.shelved tag⟩
  distinct := by
    refine (Function.forall_update_iff _ fun _ (shelf : Option (List Nat)) =>
      ∀ sharing, shelf = some sharing → sharing.Nodup).mpr
      ⟨?_, fun tag _ => consistent.distinct tag⟩
    rintro _ ⟨⟩
    cases shelf : registry.shelf place.2 with
    | none => simp
    | some before =>
      refine List.nodup_append.mpr ⟨consistent.distinct _ _ shelf, List.nodup_singleton handle, ?_⟩
      intro first inBefore second inNew same
      rw [List.mem_singleton.mp inNew] at same
      obtain ⟨address, isPlace⟩ :=
        (consistent.listed place.2 handle).mp ⟨before, shelf, same ▸ inBefore⟩
      rw [unfiled] at isPlace
      cases isPlace
  listed := by
    intro tag other
    have before := consistent.listed tag other
    unfold Registry.add
    dsimp only
    by_cases isTag : tag = place.2
    · subst isTag
      rw [update_self, mem_shelve, before]
      by_cases isHandle : other = handle
      · subst isHandle
        rw [update_self]
        exact iff_of_true (Or.inl rfl) ⟨place.1, rfl⟩
      · rw [update_of_ne isHandle, or_iff_right isHandle]
    · rw [update_of_ne isTag, before]
      by_cases isHandle : other = handle
      · subst isHandle
        rw [update_self, unfiled]
        refine iff_of_false nofun ?_
        rintro ⟨address, same⟩
        exact isTag (congrArg Prod.snd (Option.some.inj same)).symm
      · rw [update_of_ne isHandle]
  apart :=
    (Function.forall_update_iff _ fun other filed =>
      registry.pending other = true → filed = none).mpr
      ⟨fun isPending => absurd isPending (Bool.eq_false_iff.mp settled),
        fun other _ => consistent.apart other⟩
  issued :=
    (Function.forall_update_iff _ fun other filed =>
      registry.pending other = true ∨ filed ≠ none → other < registry.next).mpr
      ⟨fun _ => issued, fun other _ => consistent.issued other⟩

theorem remove {place : α × β} (consistent : registry.Consistent)
    (filed : registry.place handle = some place) :
    (registry.remove handle place).Consistent where
  routed := paired_erase consistent.routed filed
  shelved :=
    (Function.forall_update_iff _ fun _ shelf => shelf ≠ some []).mpr
      ⟨unshelve_ne_nil handle _, fun tag _ => consistent.shelved tag⟩
  distinct :=
    (Function.forall_update_iff _ fun _ (shelf : Option (List Nat)) =>
      ∀ sharing, shelf = some sharing → sharing.Nodup).mpr
      ⟨fun _ => nodup_of_unshelve (consistent.distinct place.2),
        fun tag _ => consistent.distinct tag⟩
  listed := by
    intro tag other
    have before := consistent.listed tag other
    unfold Registry.remove
    dsimp only
    by_cases isTag : tag = place.2
    · subst isTag
      rw [update_self, mem_unshelve, before]
      by_cases isHandle : other = handle
      · subst isHandle
        simp
      · rw [update_of_ne isHandle, and_iff_right isHandle]
    · rw [update_of_ne isTag, before]
      by_cases isHandle : other = handle
      · subst isHandle
        rw [update_self, filed]
        refine iff_of_false ?_ nofun
        rintro ⟨address, same⟩
        exact isTag (congrArg Prod.snd (Option.some.inj same)).symm
      · rw [update_of_ne isHandle]
  apart :=
    (Function.forall_update_iff _ fun other filed =>
      registry.pending other = true → filed = none).mpr
      ⟨fun _ => rfl, fun other _ => consistent.apart other⟩
  issued :=
    (Function.forall_update_iff _ fun other filed =>
      registry.pending other = true ∨ filed ≠ none → other < registry.next).mpr
      ⟨fun resolves =>
        consistent.issued handle (resolves.imp_right (absurd rfl)),
        fun other _ => consistent.issued other⟩

theorem relocate {handle : Nat} {place : α × β} {address : α} (consistent : registry.Consistent)
    (filed : registry.place handle = some place)
    (vacant : registry.route (address, place.2) = none) :
    (registry.relocate handle place address).Consistent where
  routed := by
    have unfiled : update registry.place handle none handle = none := update_self ..
    have free : update registry.route place none (address, place.2) = none := by
      rw [Function.update_apply, vacant, ite_self]
    have filedAgain := paired_insert (paired_erase consistent.routed filed) unfiled free
    rw [Function.update_idem] at filedAgain
    exact filedAgain
  shelved := consistent.shelved
  distinct := consistent.distinct
  listed := by
    intro tag other
    refine (consistent.listed tag other).trans ?_
    unfold Registry.relocate
    dsimp only
    by_cases isHandle : other = handle
    · subst isHandle
      rw [update_self, filed]
      constructor
      · rintro ⟨before, same⟩
        exact ⟨address, by rw [Option.some.inj same]⟩
      · rintro ⟨after, same⟩
        have isTag : place.2 = tag := congrArg Prod.snd (Option.some.inj same)
        exact ⟨place.1, by rw [← isTag]⟩
    · rw [update_of_ne isHandle]
  apart :=
    (Function.forall_update_iff _ fun other filed =>
      registry.pending other = true → filed = none).mpr
      ⟨fun isPending =>
        absurd ((consistent.apart handle isPending).symm.trans filed) nofun,
        fun other _ => consistent.apart other⟩
  issued :=
    (Function.forall_update_iff _ fun other filed =>
      registry.pending other = true ∨ filed ≠ none → other < registry.next).mpr
      ⟨fun _ => consistent.issued handle (Or.inr (filed ▸ nofun)),
        fun other _ => consistent.issued other⟩

theorem leave (consistent : registry.Consistent) (leaves : Leave registry after) :
    after.Consistent := by
  cases leaves with
  | leave filed => exact consistent.remove filed

omit [DecidableEq α] [DecidableEq β] in
/-- A change of what is pending, with nothing pending that is on file. -/
theorem handles {pending : Nat → Bool} {next : Nat} (consistent : registry.Consistent)
    (apart : ∀ handle, pending handle = true → registry.place handle = none)
    (issued : ∀ handle, pending handle = true → handle < next) (grown : registry.next ≤ next) :
    ({ registry with pending := pending, next := next } :
      Registry α β).Consistent where
  routed := consistent.routed
  shelved := consistent.shelved
  distinct := consistent.distinct
  listed := consistent.listed
  apart := apart
  issued := by
    intro handle resolves
    rcases resolves with isPending | isFiled
    · exact issued handle isPending
    · exact Nat.lt_of_lt_of_le (consistent.issued handle (Or.inr isFiled)) grown

omit [DecidableEq α] [DecidableEq β] in
/-- A handle not out yet is neither pending nor filed. -/
theorem unissued (consistent : registry.Consistent) (notOut : registry.next ≤ handle) :
    registry.place handle = none ∧ registry.pending handle = false := by
  have unresolved : ¬ registry.Resolves handle := fun resolves =>
    absurd (consistent.issued handle resolves) (Nat.not_lt.mpr notOut)
  constructor
  · by_contra filed
    exact unresolved (Or.inr filed)
  · exact Bool.eq_false_iff.mpr fun isPending =>
      unresolved (Or.inl isPending)

omit [DecidableEq α] [DecidableEq β] in
theorem close (consistent : registry.Consistent) (closed : Nat) :
    ({ registry with pending := update registry.pending closed false } :
      Registry α β).Consistent := by
  have stillPending : ∀ handle, update registry.pending closed false handle = true →
        registry.pending handle = true := by
    intro handle isPending
    by_cases isClosed : handle = closed
    · rw [isClosed, update_self] at isPending
      cases isPending
    · rwa [update_of_ne isClosed] at isPending
  exact consistent.handles (fun handle isPending =>
      consistent.apart handle (stillPending handle isPending))
    (fun handle isPending =>
      consistent.issued handle (Or.inl (stillPending handle isPending)))
    (Nat.le_refl _)

/-- Every move keeps the indices in step. -/
theorem move (consistent : registry.Consistent) (moves : Move registry after) :
    after.Consistent := by
  cases moves with
  | start =>
    apply consistent.handles
    · intro handle isPending
      by_cases isNext : handle = registry.next
      · rw [isNext]
        exact (consistent.unissued (Nat.le_refl _)).1
      · rw [update_of_ne isNext] at isPending
        exact consistent.apart handle isPending
    · intro handle isPending
      by_cases isNext : handle = registry.next
      · rw [isNext]
        exact Nat.lt_succ_self _
      · rw [update_of_ne isNext] at isPending
        exact Nat.lt_succ_of_lt (consistent.issued handle (Or.inl isPending))
    · exact Nat.le_succ _
  | close => exact consistent.close _
  | accept vacant =>
    obtain ⟨unfiled, settled⟩ := consistent.unissued (Nat.le_refl _)
    have grown : ({ registry with next := registry.next + 1 } : Registry α β).Consistent :=
      consistent.handles consistent.apart (fun handle isPending =>
          Nat.lt_succ_of_lt (consistent.issued handle (Or.inl isPending)))
        (Nat.le_succ _)
    exact grown.add (Nat.lt_succ_self _) unfiled settled vacant
  | complete isPending vacant =>
    exact (consistent.close _).add (consistent.issued _ (Or.inl isPending))
      (consistent.apart _ isPending) (update_self _ _ _) vacant
  | leave leaves => exact consistent.leave leaves
  | relocate filed vacant => exact consistent.relocate filed vacant

theorem moves (consistent : registry.Consistent) (moves : ReflTransGen Move registry after) :
    after.Consistent := by
  induction moves with
  | refl => exact consistent
  | tail _ moves inductionHypothesis => exact inductionHypothesis.move moves

end Consistent

/-- Who is pending, and what is given out next, plays no part in leaving. -/
theorem Leave.handles (leaves : Leave before after) (pending : Nat → Bool) (next : Nat) :
    Leave { before with pending := pending, next := next }
      { after with pending := pending, next := next } := by
  cases leaves with
  | @leave handle place filed =>
    exact @Leave.leave α β _ _ { before with pending := pending, next := next } handle place filed

theorem Move.next_le (moves : Move before after) :
    before.next ≤ after.next := by
  cases moves with
  | start => exact Nat.le_succ _
  | close => exact Nat.le_refl _
  | accept => exact Nat.le_succ _
  | complete => exact Nat.le_refl _
  | leave leaves =>
    cases leaves
    exact Nat.le_refl _
  | relocate => exact Nat.le_refl _

theorem next_le_of_moves (moves : ReflTransGen Move before after) :
    before.next ≤ after.next := by
  induction moves with
  | refl => exact Nat.le_refl _
  | tail _ move inductionHypothesis => exact Nat.le_trans inductionHypothesis move.next_le

/-- Only a handle given out now comes to be pending. -/
theorem Move.pending (moves : Move before after) (issued : handle < before.next)
    (pending : after.pending handle = true) :
    before.pending handle = true := by
  cases moves with
  | start =>
    dsimp only at pending
    rwa [update_of_ne (Nat.ne_of_lt issued)] at pending
  | @close ended =>
    dsimp only at pending
    by_cases isEnded : handle = ended
    · rw [isEnded, update_self] at pending
      cases pending
    · rwa [update_of_ne isEnded] at pending
  | @complete ended place _ _ =>
    unfold Registry.add at pending
    dsimp only at pending
    by_cases isEnded : handle = ended
    · rw [isEnded, update_self] at pending
      cases pending
    · rwa [update_of_ne isEnded] at pending
  | leave leaves =>
    cases leaves
    exact pending
  | accept | relocate => exact pending

/-- A handle that has been out and is not pending never is again. -/
theorem unpending_of_moves (moves : ReflTransGen Move before after) (issued : handle < before.next)
    (unpending : before.pending handle = false) :
    after.pending handle = false := by
  induction moves with
  | refl => exact unpending
  | tail earlier move inductionHypothesis =>
    rw [← Bool.not_eq_true] at inductionHypothesis ⊢
    exact fun pending => inductionHypothesis (move.pending
      (Nat.lt_of_lt_of_le issued (next_le_of_moves earlier)) pending)

/-- Only a handle that was out, or one given out now, resolves. -/
theorem Move.resolves
    (moves : Move before after) (issued : handle < before.next) (resolves : after.Resolves handle) :
    before.Resolves handle := by
  unfold Resolves at resolves ⊢
  cases moves with
  | start =>
    dsimp only at resolves
    rwa [update_of_ne (Nat.ne_of_lt issued)] at resolves
  | @close closed =>
    dsimp only at resolves
    by_cases isClosed : handle = closed
    · subst isClosed
      rw [update_self] at resolves
      exact Or.inr (resolves.resolve_left Bool.false_ne_true)
    · rwa [update_of_ne isClosed] at resolves
  | accept =>
    unfold Registry.add at resolves
    dsimp only at resolves
    rwa [update_of_ne (Nat.ne_of_lt issued)] at resolves
  | @complete completed place isPending _ =>
    unfold Registry.add at resolves
    dsimp only at resolves
    by_cases isCompleted : handle = completed
    · rw [isCompleted]
      exact Or.inl isPending
    · rwa [update_of_ne isCompleted, update_of_ne isCompleted] at resolves
  | leave leaves =>
    cases leaves with
    | @leave gone place _ =>
      unfold Registry.remove at resolves
      dsimp only at resolves
      by_cases isGone : handle = gone
      · rw [isGone, update_self] at resolves
        rw [isGone]
        exact Or.inl (resolves.resolve_right fun filed => filed rfl)
      · rwa [update_of_ne isGone] at resolves
  | @relocate moved place address filed _ =>
    by_cases isMoved : handle = moved
    · rw [isMoved, filed]
      exact Or.inr (Option.some_ne_none _)
    · unfold Registry.relocate at resolves
      dsimp only at resolves
      rwa [update_of_ne isMoved] at resolves

/-- A handle that has been out and no longer resolves never does again. -/
theorem gone_forever (moves : ReflTransGen Move before after) (issued : handle < before.next)
    (gone : ¬ before.Resolves handle) :
    handle < after.next ∧ ¬ after.Resolves handle := by
  induction moves with
  | refl => exact ⟨issued, gone⟩
  | tail _ move inductionHypothesis =>
    obtain ⟨issued, gone⟩ := inductionHypothesis
    exact ⟨Nat.lt_of_lt_of_le issued move.next_le,
      fun resolves => gone (move.resolves issued resolves)⟩

end Registry

end Fectp
