import Mathlib.Data.List.Dedup
import Fectp.Execution
import Fectp.TicketStore

namespace Fectp

/-!
# The life of a ticket

The store keeps its tickets twice, by name and in the order they entered it.
One ticket is watched beside the store: its latest issue, whether it has been
in time since, and which others were issued since it entered.
-/

namespace TicketStore

/-- A call of the store, and the clock as the call reads it. -/
inductive Call where
  | insert (ticket : ResumptionTicket) (peer : Bytes) (issuedMs : Nat)
      (readMs : Bytes → Nat)
  | take (id : Bytes) (nowMs : Nat)
  | setLifetime (lifetime : Nat)

def call (store : TicketStore) : Call → TicketStore
  | .insert ticket peer issuedMs readMs =>
      store.insert ticket peer issuedMs readMs
  | .take id nowMs =>
      (store.take id nowMs).2
  | .setLifetime lifetime =>
      store.setLifetime lifetime

/-- What has become of one ticket. -/
structure Watch where
  /-- Its latest insert, if it has not been taken since. -/
  held : Option Held
  /--
  It was within the lifetime in force when its own insert looked at it, and
  when every insert since did.
  -/
  timely : Bool
  /-- The other tickets inserted since it entered the store. -/
  others : List Bytes
  deriving Repr, DecidableEq

namespace Watch

def call (id : Bytes) (watch : Watch) (store : TicketStore) : Call → Watch
  | .insert ticket peer issuedMs readMs =>
      if ticket.id = id then
        { held := some ⟨ticket, peer, issuedMs⟩
          timely := readMs id - issuedMs < store.lifetime
          others := if (store.byId.lookup id).isNone then [] else watch.others }
      else
        { watch with
          timely :=
            watch.timely &&
              watch.held.all (readMs id - ·.issued < store.lifetime)
          others := watch.others ++ [ticket.id] }
  | .take taken _ =>
      if taken = id then { watch with held := none } else watch
  | .setLifetime _ =>
      watch

end Watch

/-- A new store after some calls, and what has become of one ticket. -/
def watched (id : Bytes) (calls : List Call) : TicketStore × Watch :=
  Execution.run
    (fun (store, watch) call => (store.call call, watch.call id store call))
    (new, ⟨none, false, []⟩) calls

/-! ### By name and in order -/

/-- The order lists what is held, once each. -/
structure Consistent (byId : Table Bytes Held) (order : List Bytes) :
    Prop where
  distinct : order.Nodup
  lists : ∀ id, id ∈ order ↔ (byId.lookup id).isSome

theorem lookup_foldl_erase (byId : Table Bytes Held) (ids : List Bytes) (id : Bytes) :
    (ids.foldl (fun byId id => byId.erase id) byId).lookup id =
      if id ∈ ids then none else byId.lookup id := by
  induction ids generalizing byId with
  | nil => simp
  | cons first rest inductionHypothesis =>
    rw [List.foldl_cons, inductionHypothesis]
    by_cases isFirst : id = first
    · subst isFirst
      simp
    · simp [isFirst]

/-- What leaves the order leaves the table. -/
theorem Consistent.discard
    {byId : Table Bytes Held} {order kept dropped : List Bytes} (consistent : Consistent byId order)
    (splits : (kept ++ dropped).Perm order) :
    Consistent (dropped.foldl (fun byId id => byId.erase id) byId) kept := by
  have distinct := splits.nodup_iff.mpr consistent.distinct
  rw [List.nodup_append'] at distinct
  obtain ⟨keptDistinct, _, apart⟩ := distinct
  refine ⟨keptDistinct, fun id => ?_⟩
  rw [lookup_foldl_erase]
  have listed := consistent.lists id
  rw [← splits.mem_iff, List.mem_append] at listed
  split
  · next isDropped => exact iff_of_false (fun isKept => apart isKept isDropped) (by simp)
  · next isKept => rw [← listed, or_iff_left isKept]

theorem Consistent.prune
    {store : TicketStore} (consistent : Consistent store.byId store.order) (readMs : Bytes → Nat) :
    Consistent (store.prune readMs).byId (store.prune readMs).order :=
  consistent.discard (List.filter_append_perm _ _)

theorem Consistent.shrink {store : TicketStore} (consistent : Consistent store.byId store.order) :
    Consistent store.shrink.byId store.shrink.order := by
  unfold TicketStore.shrink
  generalize store.order.length - maxTickets = excess
  refine consistent.discard ?_
  refine List.perm_append_comm.trans ?_
  rw [List.take_append_drop]

/-- The store as it is right after a ticket is put in. -/
def put
    (store : TicketStore)
    (ticket : ResumptionTicket)
    (peer : Bytes)
    (issuedMs : Nat) :
    TicketStore :=
  { store with
    byId := store.byId.insert ticket.id ⟨ticket, peer, issuedMs⟩
    order :=
      if (store.byId.lookup ticket.id).isNone then
        store.order ++ [ticket.id]
      else store.order }

theorem insert_eq (store : TicketStore) (ticket : ResumptionTicket) (peer : Bytes) (issuedMs : Nat)
    (readMs : Bytes → Nat) :
    store.insert ticket peer issuedMs readMs =
      ((store.put ticket peer issuedMs).prune readMs).shrink :=
  rfl

variable
    {store : TicketStore}
    {ticket : ResumptionTicket}
    {peer : Bytes}
    {issuedMs nowMs : Nat}
    {readMs : Bytes → Nat}
    {id : Bytes}

theorem Consistent.put (consistent : Consistent store.byId store.order)
    (ticket : ResumptionTicket) (peer : Bytes) (issuedMs : Nat) :
    Consistent (store.put ticket peer issuedMs).byId (store.put ticket peer issuedMs).order := by
  have listed := consistent.lists ticket.id
  unfold TicketStore.put
  split
  · next isNew =>
      rw [Option.isNone_iff_eq_none] at isNew
      rw [isNew] at listed
      have unlisted : ticket.id ∉ store.order := by
        simpa using listed
      refine ⟨List.nodup_append.mpr ⟨consistent.distinct, List.nodup_singleton _, ?_⟩, fun id => ?_⟩
      · rintro id member _ isId rfl
        exact unlisted (List.mem_singleton.mp isId ▸ member)
      · by_cases isId : id = ticket.id
        · rw [isId, AList.lookup_insert]
          simp
        · rw [AList.lookup_insert_ne isId, ← consistent.lists]
          simp [isId]
  next isOld =>
  refine ⟨consistent.distinct, fun id => ?_⟩
  by_cases isId : id = ticket.id
  · rw [isId, listed, AList.lookup_insert]
    rw [Bool.not_eq_true, Option.isNone_eq_false_iff] at isOld
    exact iff_of_true isOld rfl
  · rw [AList.lookup_insert_ne isId, consistent.lists]

/-- Nothing comes into the order but at its end. -/
theorem insert_order :
    (store.insert ticket peer issuedMs readMs).order.Sublist (store.put ticket peer issuedMs).order := by
  rw [insert_eq]
  unfold shrink prune
  dsimp only
  exact (List.drop_sublist _ _).trans List.filter_sublist

theorem of_put_order
    {other : Bytes} (inOrder : [id, other].Sublist (store.put ticket peer issuedMs).order) :
    [id, other].Sublist store.order ∨
      store.byId.lookup ticket.id = none ∧ id ∈ store.order ∧ other = ticket.id := by
  unfold TicketStore.put at inOrder
  split at inOrder
  · next isNew =>
      refine (@Execution.sublist_concat _ [id] _ _ _ inOrder).imp_right ?_
      rintro ⟨listed, isLast⟩
      exact ⟨Option.isNone_iff_eq_none.mp isNew, List.singleton_sublist.mp listed, isLast⟩
  · exact Or.inl inOrder

theorem of_lookup_insert
    {held : Held} (found : (store.insert ticket peer issuedMs readMs).byId.lookup id = some held) :
    (store.put ticket peer issuedMs).byId.lookup id = some held := by
  rw [insert_eq] at found
  unfold shrink prune at found
  dsimp only at found
  rw [lookup_foldl_erase, lookup_foldl_erase] at found
  split at found
  · cases found
  · split at found
    · cases found
    · exact found

/-- A ticket in time, with few others behind it, stays. -/
theorem lookup_insert_of_few {held : Held} (consistent : Consistent store.byId store.order)
    (found : (store.put ticket peer issuedMs).byId.lookup id = some held)
    (inTime : readMs id - held.issued < store.lifetime) {others : List Bytes}
    (behind : ∀ other, [id, other].Sublist (store.put ticket peer issuedMs).order → other ∈ others)
    (few : others.dedup.length < maxTickets) :
    (store.insert ticket peer issuedMs readMs).byId.lookup id = some held := by
  have isLive : (store.put ticket peer issuedMs).live readMs id = true := by
    unfold live
    rw [found]
    exact decide_eq_true inTime
  have pruned := (consistent.put ticket peer issuedMs).prune readMs
  have stays : ((store.put ticket peer issuedMs).prune readMs).byId.lookup id = some held := by
    unfold prune
    rw [lookup_foldl_erase, if_neg, found]
    simp [isLive]
  have listed := (pruned.lists id).mpr (by rw [stays]; rfl)
  obtain ⟨front, back, isOrder⟩ := List.append_of_mem listed
  have distinct := pruned.distinct
  rw [isOrder] at distinct
  have short : back.length < maxTickets := by
    refine Nat.lt_of_le_of_lt (List.Subperm.length_le ?_) few
    refine List.subperm_of_subset (List.nodup_cons.mp (List.nodup_append.mp distinct).2.1).2 ?_
    intro other member
    refine List.mem_dedup.mpr (behind other ?_)
    have inOrder : [id, other].Sublist ((store.put ticket peer issuedMs).prune readMs).order := by
      rw [isOrder]
      exact (((List.singleton_sublist.mpr member).cons_cons id).trans
        (List.sublist_append_right front _))
    exact inOrder.trans List.filter_sublist
  have unshrunk : id ∉ (front ++ id :: back).take ((front ++ id :: back).length - maxTickets) := by
    rw [List.take_append_of_le_length]
    · intro member
      exact (List.nodup_append.mp distinct).2.2 id
        (List.mem_of_mem_take member) id (List.mem_cons_self ..) rfl
    · rw [List.length_append, List.length_cons]
      omega
  rw [insert_eq]
  unfold shrink
  rw [lookup_foldl_erase, isOrder, if_neg unshrunk, stays]

/-! ### One ticket -/

/-- What the store holds of a ticket is what has become of it. -/
structure Tracks (id : Bytes) (store : TicketStore) (watch : Watch) :
    Prop where
  consistent : Consistent store.byId store.order
  bounded : store.order.length ≤ maxTickets
  issued : ∀ {held}, store.byId.lookup id = some held → watch.held = some held
  behind : ∀ other, [id, other].Sublist store.order → other ∈ watch.others
  kept : ∀ {held},
      watch.held = some held →
      watch.timely = true →
      watch.others.dedup.length < maxTickets →
      store.byId.lookup id = some held

variable {watch : Watch}

theorem insert_bounded :
    (store.insert ticket peer issuedMs readMs).order.length ≤ maxTickets := by
  rw [insert_eq]
  unfold shrink
  rw [List.length_drop]
  omega

theorem Tracks.insert_own (tracks : Tracks ticket.id store watch) :
    Tracks ticket.id (store.insert ticket peer issuedMs readMs)
      (watch.call ticket.id store (.insert ticket peer issuedMs readMs)) := by
  have behind : ∀ other, [ticket.id, other].Sublist (store.put ticket peer issuedMs).order →
        other ∈ if (store.byId.lookup ticket.id).isNone then [] else watch.others := by
    intro other inOrder
    rcases of_put_order inOrder with already | ⟨isNew, listed, _⟩
    · have listed := already.subset (List.mem_cons_self ..)
      rw [tracks.consistent.lists, Option.isSome_iff_ne_none] at listed
      rw [if_neg (mt Option.isNone_iff_eq_none.mp listed)]
      exact tracks.behind other already
    · rw [tracks.consistent.lists, isNew] at listed
      cases listed
  rw [Watch.call, if_pos rfl]
  refine ⟨((tracks.consistent.put ticket peer issuedMs).prune readMs).shrink,
    insert_bounded, ?_, ?_, ?_⟩
  · intro held found
    have put := of_lookup_insert found
    rw [TicketStore.put, AList.lookup_insert] at put
    exact put
  · intro other inOrder
    exact behind other (inOrder.trans insert_order)
  · rintro _ ⟨⟩ timely few
    refine lookup_insert_of_few tracks.consistent ?_ ?_ behind few
    · exact AList.lookup_insert _
    · exact of_decide_eq_true timely

theorem Tracks.insert_other (tracks : Tracks id store watch) (isOther : ticket.id ≠ id) :
    Tracks id (store.insert ticket peer issuedMs readMs)
      (watch.call id store (.insert ticket peer issuedMs readMs)) := by
  have behind : ∀ other, [id, other].Sublist (store.put ticket peer issuedMs).order →
        other ∈ watch.others ++ [ticket.id] := by
    intro other inOrder
    rw [List.mem_append, List.mem_singleton]
    rcases of_put_order inOrder with already | ⟨_, _, isLast⟩
    · exact Or.inl (tracks.behind other already)
    · exact Or.inr isLast
  rw [Watch.call, if_neg isOther]
  refine ⟨((tracks.consistent.put ticket peer issuedMs).prune readMs).shrink,
    insert_bounded, ?_, ?_, ?_⟩
  · intro held found
    have put := of_lookup_insert found
    rw [TicketStore.put, AList.lookup_insert_ne isOther.symm] at put
    exact tracks.issued put
  · intro other inOrder
    exact behind other (inOrder.trans insert_order)
  · intro held isHeld timely few
    rw [Bool.and_eq_true, isHeld] at timely
    refine lookup_insert_of_few tracks.consistent ?_ (of_decide_eq_true timely.2) behind few
    rw [TicketStore.put, AList.lookup_insert_ne isOther.symm]
    refine tracks.kept isHeld timely.1 (Nat.lt_of_le_of_lt ?_ few)
    refine List.Subperm.length_le (List.subperm_of_subset (List.nodup_dedup _) ?_)
    intro other member
    rw [List.mem_dedup] at member ⊢
    exact List.mem_append_left _ member

theorem take_order :
    (store.take id nowMs).2.order.Sublist store.order := by
  unfold take
  split
  · exact .refl _
  · dsimp only
    split <;> exact List.filter_sublist

theorem Consistent.take
    (consistent : Consistent store.byId store.order) (id : Bytes) (nowMs : Nat) :
    Consistent (store.take id nowMs).2.byId (store.take id nowMs).2.order := by
  refine ⟨consistent.distinct.sublist take_order, fun other => ?_⟩
  have listed := consistent.lists other
  rw [lookup_take]
  unfold TicketStore.take
  split
  · next absent =>
      split
      · next isTaken =>
          rw [isTaken] at listed ⊢
          rw [listed, absent]
      · exact listed
  · dsimp only
    have filtered : other ∈ store.order.filter (· != id) ↔
          (if other = id then none else store.byId.lookup other).isSome := by
      split
      · next isTaken => simp [isTaken]
      · next isOther => simp [isOther, listed]
    split <;> exact filtered

theorem Tracks.take (tracks : Tracks id store watch) (taken : Bytes) (nowMs : Nat) :
    Tracks id (store.take taken nowMs).2 (watch.call id store (.take taken nowMs)) := by
  have behind : ∀ other, [id, other].Sublist (store.take taken nowMs).2.order →
        other ∈ watch.others :=
    fun other inOrder => tracks.behind other (inOrder.trans take_order)
  have bounded := Nat.le_trans (@take_order store nowMs taken).length_le tracks.bounded
  rw [Watch.call]
  split
  · next isTaken =>
      subst isTaken
      refine ⟨tracks.consistent.take taken nowMs, bounded, ?_, behind, nofun⟩
      intro held found
      rw [lookup_take, if_pos rfl] at found
      cases found
  next isOther =>
  refine ⟨tracks.consistent.take taken nowMs, bounded, ?_, behind, ?_⟩
  · intro held found
    rw [lookup_take, if_neg (Ne.symm isOther)] at found
    exact tracks.issued found
  · intro held isHeld timely few
    rw [lookup_take, if_neg (Ne.symm isOther)]
    exact tracks.kept isHeld timely few

theorem Tracks.call (tracks : Tracks id store watch) (call : Call) :
    Tracks id (store.call call) (watch.call id store call) := by
  cases call with
  | insert ticket peer issuedMs readMs =>
    by_cases isOwn : ticket.id = id
    · subst isOwn
      exact tracks.insert_own
    · exact tracks.insert_other isOwn
  | take taken nowMs => exact tracks.take taken nowMs
  | setLifetime lifetime =>
    obtain ⟨consistent, bounded, issued, behind, kept⟩ := tracks
    exact ⟨consistent, bounded, issued, behind, kept⟩

theorem watched_tracks (id : Bytes) (calls : List Call) :
    Tracks id (watched id calls).1 (watched id calls).2 := by
  refine @Execution.invariant_of_step _ _ _
    (fun (pair : TicketStore × Watch) => Tracks id pair.1 pair.2)
    (fun tracks call => tracks.call call) (new, ⟨none, false, []⟩) calls ?_
  refine ⟨⟨List.nodup_nil, ?_⟩, Nat.zero_le _, nofun, nofun, nofun⟩
  intro other
  exact iff_of_false List.not_mem_nil nofun

/--
The order lists what is held, once each and no more of it than allowed.  A
ticket taken is the latest inserted under its name, not taken since, and
within the lifetime.  Every such ticket is taken, if it was within the
lifetime at its insert and at every insert since, and few others have been
inserted since it entered.
-/
theorem tickets_single_use_and_mortal
    (calls : List Call)
    (id : Bytes)
    (nowMs : Nat) :
    let (store, watch) := watched id calls
    store.order.Nodup ∧
      (∀ other, other ∈ store.order ↔ (store.byId.lookup other).isSome) ∧
      store.order.length ≤ maxTickets ∧
      (∀ ticket peer,
        (store.take id nowMs).1 = some (ticket, peer) →
        ∃ issued,
          watch.held = some ⟨ticket, peer, issued⟩ ∧
            nowMs - issued < store.lifetime) ∧
      ∀ held,
        watch.held = some held →
        watch.timely = true →
        watch.others.dedup.length < maxTickets →
        nowMs - held.issued < store.lifetime →
        (store.take id nowMs).1 = some (held.ticket, held.peer) := by
  have tracks := watched_tracks id calls
  generalize watched id calls = pair at tracks ⊢
  obtain ⟨store, watch⟩ := pair
  refine ⟨tracks.consistent.distinct, tracks.consistent.lists,
    tracks.bounded, ?_, ?_⟩
  · intro ticket peer taken
    rw [take_fst] at taken
    obtain ⟨held, found, inTime⟩ := Option.bind_eq_some_iff.mp taken
    split at inTime
    · cases inTime
    next inTime' =>
    cases inTime
    exact ⟨held.issued, tracks.issued found, Nat.not_le.mp inTime'⟩
  · intro held isHeld timely few inTime
    rw [take_fst, tracks.kept isHeld timely few, Option.bind_some,
      if_neg (Nat.not_le.mpr inTime)]

/--
A ticket that its own insert finds too old is gone, though it is within the
lifetime when it is asked for.
-/
theorem ticket_outlived_by_its_insert_is_gone :
    let ticket : ResumptionTicket := ⟨[1], [2]⟩
    let store :=
      ((new.setLifetime 1).insert ticket [3] 0 fun _ => 1).setLifetime 1000
    (store.take [1] 1).1 = none := by
  decide

end TicketStore

end Fectp
