import Fectp.LittleEndian
import Fectp.Table

namespace Fectp

/-!
# Resumption tickets

The tickets a server will honour.  A ticket is spent by being redeemed, and
lapses with time or when too many newer ones have been issued.
-/

def maxTickets : Nat := 256

/-- How long a ticket is honoured unless told otherwise, in milliseconds. -/
def ticketLifetime : Nat := 3600000

/-- A secret two peers share, and the name it goes by. -/
structure ResumptionTicket where
  id : Bytes
  key : Bytes
  deriving Repr, DecidableEq

/-- A ticket, whom it was issued to and when. -/
structure Held where
  ticket : ResumptionTicket
  peer : Bytes
  issued : Nat
  deriving Repr, DecidableEq

structure TicketStore where
  byId : Table Bytes Held
  order : List Bytes
  lifetime : Nat

namespace TicketStore

def new : TicketStore where
  byId := ∅
  order := []
  lifetime := ticketLifetime

def setLifetime (store : TicketStore) (lifetime : Nat) : TicketStore :=
  { store with lifetime := lifetime }

/--
Whether a ticket is in the store and not yet past its lifetime, by the clock as
it is read for that ticket.
-/
def live (store : TicketStore) (readMs : Bytes → Nat) (id : Bytes) : Bool :=
  (store.byId.lookup id).any (readMs id - ·.issued < store.lifetime)

/-- Drops every ticket past its lifetime. -/
def prune (store : TicketStore) (readMs : Bytes → Nat) : TicketStore :=
  { store with
    order := store.order.filter (store.live readMs)
    byId :=
      (store.order.filter (!store.live readMs ·)).foldl
        (fun byId id => byId.erase id) store.byId }

/-- Drops the oldest tickets, until no more than `maxTickets` are left. -/
def shrink (store : TicketStore) : TicketStore :=
  let excess := store.order.length - maxTickets
  { store with
    order := store.order.drop excess
    byId :=
      (store.order.take excess).foldl (fun byId id => byId.erase id)
        store.byId }

/-- The clock is read once for the ticket, and again for each that may go. -/
def insert
    (store : TicketStore)
    (ticket : ResumptionTicket)
    (peer : Bytes)
    (issuedMs : Nat)
    (readMs : Bytes → Nat) :
    TicketStore :=
  let isNew := (store.byId.lookup ticket.id).isNone
  let store :=
    { store with
      byId := store.byId.insert ticket.id ⟨ticket, peer, issuedMs⟩
      order := if isNew then store.order ++ [ticket.id] else store.order }
  (store.prune readMs).shrink

/-- Takes a ticket, removing it whether or not it is still good. -/
def take (store : TicketStore) (id : Bytes) (nowMs : Nat) :
    Option (ResumptionTicket × Bytes) × TicketStore :=
  match store.byId.lookup id with
  | none =>
      (none, store)
  | some held =>
      let store :=
        { store with
          byId := store.byId.erase id
          order := store.order.filter (· != id) }
      if nowMs - held.issued ≥ store.lifetime then
        (none, store)
      else
        (some (held.ticket, held.peer), store)

variable (store : TicketStore) (id : Bytes) (nowMs : Nat)

theorem take_fst :
    (store.take id nowMs).1 = (store.byId.lookup id).bind fun held =>
        if nowMs - held.issued ≥ store.lifetime then none
        else some (held.ticket, held.peer) := by
  unfold take
  cases store.byId.lookup id with
  | none => rfl
  | some held =>
    dsimp only [Option.bind_some]
    split <;> rfl

theorem take_lifetime :
    (store.take id nowMs).2.lifetime = store.lifetime := by
  unfold take
  split
  · rfl
  · dsimp only
    split <;> rfl

theorem lookup_take (other : Bytes) (nowMs : Nat) :
    (store.take id nowMs).2.byId.lookup other =
      if other = id then none else store.byId.lookup other := by
  have erased : (store.byId.erase id).lookup other =
        if other = id then none else store.byId.lookup other := by
    split
    · next same => rw [same, AList.lookup_erase]
    · next isOther => exact AList.lookup_erase_ne isOther
  unfold take
  split
  · next absent =>
      split
      · next same => rw [same, absent]
      · rfl
  · dsimp only
    split
    · exact erased
    · exact erased

/-- The ticket taken is the only one that goes. -/
theorem take_other {id other : Bytes} (isOther : other ≠ id) (nowMs laterMs : Nat) :
    ((store.take id nowMs).2.take other laterMs).1 = (store.take other laterMs).1 := by
  rw [take_fst, take_fst, take_lifetime, lookup_take, if_neg isOther]

/-- A ticket is taken once. -/
theorem take_again (laterMs : Nat) :
    ((store.take id nowMs).2.take id laterMs).1 = none := by
  rw [take_fst, lookup_take, if_pos rfl, Option.bind_none]

/-- A ticket past its lifetime stays so. -/
theorem take_lapsed {store : TicketStore} {id : Bytes} {nowMs laterMs : Nat}
    (lapsed : (store.take id nowMs).1 = none) (later : nowMs ≤ laterMs) :
    (store.take id laterMs).1 = none := by
  rw [take_fst] at lapsed ⊢
  cases found : store.byId.lookup id with
  | none => rfl
  | some held =>
    rw [found, Option.bind_some] at lapsed
    rw [Option.bind_some]
    split at lapsed
    · next past => rw [if_pos (le_trans past (Nat.sub_le_sub_right later _))]
    · cases lapsed

/-- Taking spares every good ticket exactly if it takes none. -/
theorem take_spares_iff :
    (∀ other laterMs, nowMs ≤ laterMs →
        ((store.take id nowMs).2.take other laterMs).1 = (store.take other laterMs).1) ↔
      (store.take id nowMs).1 = none := by
  constructor
  · intro spares
    rw [← spares id nowMs le_rfl]
    exact store.take_again id nowMs nowMs
  · intro lapsed other laterMs later
    by_cases isOther : other = id
    · subst isOther
      rw [take_again, take_lapsed lapsed later]
    · exact store.take_other isOther nowMs laterMs

end TicketStore

end Fectp
