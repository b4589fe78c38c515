import Fectp.Endpoint.Steps
import Fectp.Rendezvous.State

namespace Fectp

/-!
# What a step of a rendezvous does to its books

Most of what a rendezvous does leaves no new request, no new introduction and
no offer behind.  What is left is listed here: a request that waits, a pair
introduced, and a relay offered.
-/

/-- The key introduced to, of an introduction. -/
def Control.introduced? : Control → Option Key
  | .introduction key _ => some key
  | _ => none

/-- The key relayed with, of an offer. -/
def Control.offered? : Control → Option Key
  | .relayOffer key _ _ => some key
  | _ => none

open Relation (ReflTransGen)

namespace Rendezvous

variable {ω : Type*} {env : Env ω}

/-- Introductions given out in a step: to which session, and to which key. -/
def introductions (rendezvous : Rendezvous ω) : List (PeerId × Key) :=
  rendezvous.record.filterMap fun (peer, control) =>
    control.introduced?.map (peer, ·)

/-- Relays offered in a step: to which session, and with which key. -/
def offers (rendezvous : Rendezvous ω) : List (PeerId × Key) :=
  rendezvous.record.filterMap fun (peer, control) =>
    control.offered?.map (peer, ·)

/-- Every client is the one its key is registered to. -/
def Listed (rendezvous : Rendezvous ω) : Prop :=
  ∀ {peer client},
    rendezvous.clients.lookup peer = some client →
    rendezvous.byKey.lookup client.key = some peer

/-- Nothing new is asked, introduced or offered. -/
structure Quiet (before after : Rendezvous ω) : Prop where
  asked : ∀ {request since},
      after.asked.lookup request = some since →
      before.asked.lookup request = some since
  introduced : ∀ {between since},
      after.introduced.lookup between = some since →
      before.introduced.lookup between = some since
  listed : before.Listed → after.Listed
  introductions : after.introductions = before.introductions
  offers : after.offers = before.offers

/-- Registrations are as they were, whatever the endpoint has done. -/
structure Aside (before after : Rendezvous ω) : Prop where
  clients : after.clients = before.clients
  byKey : after.byKey = before.byKey
  stirs :
    ReflTransGen Endpoint.Stirs before.driver.endpoint after.driver.endpoint

/-- Nothing new is asked, and neither a registration nor a setting changed. -/
structure Keeps (before after : Rendezvous ω) : Prop
    extends Quiet before after, Aside before after where
  policy : after.policy = before.policy
  window : after.window = before.window

section

variable {before between after : Rendezvous ω}

theorem Quiet.refl (rendezvous : Rendezvous ω) :
    Quiet rendezvous rendezvous :=
  ⟨id, id, id, rfl, rfl⟩

theorem Quiet.trans (first : Quiet before between) (second : Quiet between after) :
    Quiet before after where
  asked found := first.asked (second.asked found)
  introduced found := first.introduced (second.introduced found)
  listed listed := second.listed (first.listed listed)
  introductions := second.introductions.trans first.introductions
  offers := second.offers.trans first.offers

theorem Aside.of_same
    (clients : after.clients = before.clients) (byKey : after.byKey = before.byKey)
    (driver : after.driver = before.driver) :
    Aside before after :=
  ⟨clients, byKey, driver ▸ .refl⟩

theorem Aside.trans (first : Aside before between) (second : Aside between after) :
    Aside before after where
  clients := second.clients.trans first.clients
  byKey := second.byKey.trans first.byKey
  stirs := first.stirs.trans second.stirs

theorem Keeps.refl (rendezvous : Rendezvous ω) :
    Keeps rendezvous rendezvous :=
  ⟨.refl rendezvous, .of_same rfl rfl rfl, rfl, rfl⟩

theorem Keeps.trans (first : Keeps before between) (second : Keeps between after) :
    Keeps before after where
  toQuiet := first.toQuiet.trans second.toQuiet
  toAside := first.toAside.trans second.toAside
  policy := second.policy.trans first.policy
  window := second.window.trans first.window

/-- A step of a loop that keeps the books keeps them throughout. -/
theorem keeps_foldl {α : Type*} {visit : Rendezvous ω → α → Rendezvous ω}
    (visits : ∀ rendezvous item, Keeps rendezvous (visit rendezvous item))
    (items : List α) (rendezvous : Rendezvous ω) :
    Keeps rendezvous (items.foldl visit rendezvous) := by
  induction items generalizing rendezvous with
  | nil => exact .refl rendezvous
  | cons item rest inductionHypothesis =>
    exact (visits rendezvous item).trans (inductionHypothesis _)

end

/-! ### Sending -/

section

variable
    (env : Env ω)
    (rendezvous : Rendezvous ω)
    (peer : PeerId)
    (control : Control)
    (nowMs : Nat)

theorem send_aside :
    Aside rendezvous (send env rendezvous peer control nowMs) := by
  have atoms : ReflTransGen
        (Endpoint.Atom env ⟨nowMs, env.walk, .sendReliable peer control.encode .opaqueBytes⟩)
        rendezvous.driver.endpoint
        (send env rendezvous peer control nowMs).driver.endpoint :=
    Endpoint.sendReliable_atoms rfl
  exact ⟨rfl, rfl, atoms.lift id fun _ _ atom => ⟨_, _, atom⟩⟩

theorem send_introductions :
    (send env rendezvous peer control nowMs).introductions =
      rendezvous.introductions ++ (control.introduced?.map (peer, ·)).toList := by
  unfold introductions send
  cases isKey : control.introduced? <;> simp [isKey]

theorem send_offers :
    (send env rendezvous peer control nowMs).offers =
      rendezvous.offers ++ (control.offered?.map (peer, ·)).toList := by
  unfold offers send
  cases isKey : control.offered? <;> simp [isKey]

end

variable {before after : Rendezvous ω} {event : Event} {between : Pair}

/-- The books are the same, and so is what has been given out. -/
theorem keeps_of_toBooks (books : after.toBooks = before.toBooks)
    (introductions : after.introductions = before.introductions)
    (offers : after.offers = before.offers) (aside : Aside before after) :
    Keeps before after := by
  obtain ⟨_, _, _⟩ := before
  obtain ⟨_, _, _⟩ := after
  cases books
  exact ⟨⟨id, id, id, introductions, offers⟩, aside, rfl, rfl⟩

section

variable
    (env : Env ω)
    (rendezvous : Rendezvous ω)
    {control : Control}
    (unintroduced : control.introduced? = none)
    (unoffered : control.offered? = none)

include unintroduced unoffered

theorem send_keeps (peer : PeerId) (nowMs : Nat) :
    Keeps rendezvous (send env rendezvous peer control nowMs) := by
  apply keeps_of_toBooks
  · rfl
  · rw [send_introductions, unintroduced]
    exact List.append_nil _
  · rw [send_offers, unoffered]
    exact List.append_nil _
  · exact send_aside env rendezvous peer control nowMs

theorem sendTo_keeps (key : Key) (nowMs : Nat) :
    Keeps rendezvous (sendTo env rendezvous key control nowMs) := by
  unfold sendTo
  split
  · exact .refl rendezvous
  · exact send_keeps env rendezvous unintroduced unoffered _ nowMs

end

/-! ### What keeps the books -/

section

variable (env : Env ω) (rendezvous : Rendezvous ω)

theorem groups_keeps (groups : Table GroupTag (List (PeerId × Key × Bytes))) :
    Keeps rendezvous { rendezvous with groups := groups } :=
  ⟨⟨id, id, id, rfl, rfl⟩, .of_same rfl rfl rfl, rfl, rfl⟩

theorem tellGroup_keeps (tag : GroupTag) (nowMs : Nat) :
    Keeps rendezvous (tellGroup env rendezvous tag nowMs) := by
  unfold tellGroup
  split
  · exact .refl rendezvous
  · refine keeps_foldl ?_ _ rendezvous
    intro rendezvous member
    exact send_keeps env rendezvous rfl rfl member.1 nowMs

theorem join_keeps (peer : PeerId) (key : Key) (tag : GroupTag) (mac : Bytes) (nowMs : Nat) :
    Keeps rendezvous (join env rendezvous peer key tag mac nowMs) := by
  unfold join
  dsimp only
  split
  · exact groups_keeps rendezvous _
  · exact (groups_keeps rendezvous _).trans (tellGroup_keeps env _ tag nowMs)

theorem leave_keeps (peer : PeerId) (tag : GroupTag) (nowMs : Nat) :
    Keeps rendezvous (leave env rendezvous peer tag nowMs) := by
  unfold leave
  split
  · exact .refl rendezvous
  dsimp only
  split
  · exact .refl rendezvous
  split
  · exact groups_keeps rendezvous _
  · exact (groups_keeps rendezvous _).trans (tellGroup_keeps env _ tag nowMs)

theorem spend_keeps (ip nowMs : Nat) :
    Keeps rendezvous (rendezvous.spend ip nowMs).2 :=
  ⟨⟨id, id, id, rfl, rfl⟩, .of_same rfl rfl rfl, rfl, rfl⟩

theorem refuseRelay_keeps (asker target : Key) (reason : Unavailable) (nowMs : Nat) :
    Keeps rendezvous (refuseRelay env rendezvous asker target reason nowMs) :=
  (sendTo_keeps env rendezvous rfl rfl asker nowMs).trans (sendTo_keeps env _ rfl rfl target nowMs)

theorem retain_sub {κ : Type*} [DecidableEq κ] {table : Table κ Nat} {keep : κ → Nat → Bool}
    {key : κ} {since : Nat} (found : (table.retain keep).lookup key = some since) :
    table.lookup key = some since := by
  rw [Table.lookup_retain] at found
  exact (Option.filter_eq_some_iff.mp found).1

theorem released_keeps
    (recent : Pair → Nat → Bool) (relays : Table Pair Allocation) (budgets : Table Nat Budget) :
    Keeps rendezvous
      { rendezvous with
        introduced := rendezvous.introduced.retain recent
        relays := relays
        budgets := budgets } :=
  ⟨⟨id, retain_sub, id, rfl, rfl⟩, .of_same rfl rfl rfl, rfl, rfl⟩

theorem expire_keeps (moment : Moment) :
    Keeps rendezvous (expire env rendezvous moment) := by
  have requests : ∀ keep,
        Keeps rendezvous { rendezvous with asked := rendezvous.asked.retain keep } :=
    fun keep => ⟨⟨retain_sub, id, id, rfl, rfl⟩, .of_same rfl rfl rfl, rfl, rfl⟩
  have expired : ∀ rendezvous request,
        Keeps rendezvous (expireRequest env rendezvous request moment.nowMs) :=
    fun rendezvous request =>
      sendTo_keeps env rendezvous rfl rfl request.1 moment.nowMs
  exact ((requests _).trans (keeps_foldl expired _ _)).trans (released_keeps _ _ _ _)

theorem drive_keeps (moment : Endpoint.Moment) :
    Keeps rendezvous (drive env rendezvous moment).2 := by
  have drives : Aside rendezvous
        { rendezvous with driver := (rendezvous.driver.step env moment).2 } :=
    ⟨rfl, rfl, (rendezvous.driver.next_atoms env moment).lift id fun _ _ atom => ⟨_, _, atom⟩⟩
  unfold drive
  dsimp only
  split <;> exact keeps_of_toBooks rfl rfl rfl drives

theorem polled_keeps (moment : Moment) :
    Keeps rendezvous (polled env rendezvous moment).2 := by
  unfold polled
  split
  · exact (expire_keeps env rendezvous moment).trans (drive_keeps env _ _)
  · exact .refl rendezvous
  · exact drive_keeps env rendezvous _
  · exact .refl rendezvous

end

/-! ### Registration -/

theorem forget_quiet (env : Env ω) (rendezvous : Rendezvous ω) (peer : PeerId) (moment : Moment) :
    Quiet rendezvous (forget env rendezvous peer moment) := by
  unfold forget
  refine .trans ?_ (keeps_foldl (fun rendezvous tag =>
    leave_keeps env rendezvous peer tag moment.nowMs) _ _).toQuiet
  split
  · exact .refl rendezvous
  next client isClient =>
  refine ⟨id, id, ?_, rfl, rfl⟩
  intro listed other held found
  obtain ⟨different, found⟩ := Table.found_of_erase found
  have isOther := listed found
  split
  · next isPeer =>
      have anotherKey : held.key ≠ client.key := by
        intro sameKey
        rw [sameKey, isPeer] at isOther
        exact different (Option.some.inj isOther).symm
      rw [AList.lookup_erase_ne anotherKey]
      exact isOther
  · exact isOther

theorem register_quiet (env : Env ω) (rendezvous : Rendezvous ω) (peer : PeerId) (nowMs : Nat) :
    Quiet rendezvous (register env rendezvous peer nowMs) := by
  unfold register
  dsimp only
  split
  · next key addr _ _ =>
      split
      · exact .refl rendezvous
      refine .trans ?_ (send_keeps env _ rfl rfl peer nowMs).toQuiet
      refine ⟨id, id, ?_, rfl, rfl⟩
      intro listed other held found
      rcases Table.found_of_insert found with
        ⟨rfl, rfl⟩ | ⟨isPeer, found⟩
      · exact AList.lookup_insert _
      -- Whoever else held the key has lost its registration.
      have kept : rendezvous.clients.lookup other = some held ∧
            rendezvous.byKey.lookup key ≠ some other := by
        split at found
        · next old isOld =>
            split at found
            · next same =>
                refine ⟨found, ?_⟩
                rw [isOld, same]
                exact fun isOther =>
                  isPeer (Option.some.inj isOther).symm
            · obtain ⟨different, found⟩ := Table.found_of_erase found
              refine ⟨found, ?_⟩
              rw [isOld]
              exact fun isOther => different (Option.some.inj isOther).symm
        next unheld =>
        refine ⟨found, ?_⟩
        rw [unheld]
        exact nofun
      have isOther := listed kept.1
      have anotherKey : held.key ≠ key := by
        intro sameKey
        rw [sameKey] at isOther
        exact kept.2 isOther
      exact (AList.lookup_insert_ne anotherKey).trans isOther
  · exact .refl rendezvous

/-! ### Requests -/

/-- A registered session's message is what the endpoint came back with. -/
def Takes
    (rendezvous : Rendezvous ω)
    (event : Event)
    (peer : PeerId)
    (client : Client)
    (control : Control) : Prop :=
  ∃ data,
    event = .message peer data ∧
      Control.decode data = some control ∧
      rendezvous.clients.lookup peer = some client

/-- A pair of keys, in either order. -/
def IsPair (between : Pair) (first second : Key) : Prop :=
  between = (first, second) ∨ between = (second, first)

theorem pair_isPair (first second : Key) :
    IsPair (pair first second) first second := by
  unfold pair IsPair
  split
  · exact Or.inl rfl
  · exact Or.inr rfl

/-- What acting on an event does. -/
inductive Settled
    (event : Event)
    (nowMs : Nat)
    (before after : Rendezvous ω) :
    Prop where
  | quiet (kept : Quiet before after)
  /-- A request is noted, and waits for the other side's. -/
  | waits {peer : PeerId} {client : Client} {target : Key}
      (takes : before.Takes event peer client (.introduce target))
      (kept : Quiet
          { before with
            asked := before.asked.insert (client.key, target) nowMs }
          after)
  /-- Both sides have asked, and are told of one another. -/
  | introduces {peer other : PeerId} {client : Client} {target : Key}
      {since : Nat}
      (takes : before.Takes event peer client (.introduce target))
      (different : target ≠ client.key)
      (allowed : before.policy client.key target = true)
      (registered : before.byKey.lookup target = some other)
      (asks : before.asked.lookup (target, client.key) = some since)
      (inTime : nowMs - since ≤ before.window)
      (asked : ∀ {request since},
          after.asked.lookup request = some since →
          ¬ IsPair request client.key target ∧
            before.asked.lookup request = some since)
      (introduced : ∀ {between since},
          after.introduced.lookup between = some since →
          between = pair client.key target ∧ since = nowMs ∨
            before.introduced.lookup between = some since)
      (listed : before.Listed → after.Listed)
      (introductions : after.introductions =
          before.introductions ++ [(peer, target), (other, client.key)])
      (offers : after.offers = before.offers)
  /-- A pair introduced is offered a relay. -/
  | offers {between : Pair} {since : Nat} {items : List (PeerId × Key)}
      (recent : before.introduced.lookup between = some since)
      (inTime : nowMs - since ≤ relayWindow)
      (asked : ∀ {request since},
          after.asked.lookup request = some since →
          before.asked.lookup request = some since)
      (introduced : ∀ {between since},
          after.introduced.lookup between = some since →
          before.introduced.lookup between = some since)
      (listed : before.Listed → after.Listed)
      (introductions : after.introductions = before.introductions)
      (offers : after.offers = before.offers ++ items)
      (toPair : ∀ item ∈ items,
          ∃ key,
            before.byKey.lookup key = some item.1 ∧ IsPair between key item.2)

theorem Settled.of_keeps {nowMs : Nat} {middle : Rendezvous ω} (kept : Keeps before middle)
    (settled : Settled event nowMs middle after) :
    Settled event nowMs before after := by
  cases settled with
  | quiet quiet => exact .quiet (kept.toQuiet.trans quiet)
  | @waits peer client target takes quiet =>
    rw [Takes, kept.clients] at takes
    refine .waits takes ⟨?_, ?_, ?_, ?_, ?_⟩
    · intro request since found
      have found := quiet.asked found
      rcases Table.found_of_insert found with
        ⟨rfl, rfl⟩ | ⟨another, found⟩
      · exact AList.lookup_insert _
      · exact (AList.lookup_insert_ne another).trans (kept.asked found)
    · exact fun found => kept.introduced (quiet.introduced found)
    · exact fun listed => quiet.listed (kept.listed listed)
    · exact quiet.introductions.trans kept.introductions
    · exact quiet.offers.trans kept.offers
  | introduces takes different allowed registered asks inTime asked introduced
      listed introductions offers =>
      rw [Takes, kept.clients] at takes
      rw [kept.policy] at allowed
      rw [kept.byKey] at registered
      rw [kept.window] at inTime
      refine .introduces takes different allowed registered (kept.asked asks)
        inTime ?_ ?_ (fun listed' => listed (kept.listed listed')) ?_ ?_
      · intro request since found
        exact ⟨(asked found).1, kept.asked (asked found).2⟩
      · intro between since found
        exact (introduced found).imp_right kept.introduced
      · rw [introductions, kept.introductions]
      · rw [offers, kept.offers]
  | offers recent inTime asked introduced listed introductions offers
      toPair =>
      rw [kept.byKey] at toPair
      refine .offers (kept.introduced recent) inTime ?_ ?_
        (fun listed' => listed (kept.listed listed')) ?_ ?_ toPair
      · exact fun found => kept.asked (asked found)
      · exact fun found => kept.introduced (introduced found)
      · rw [introductions, kept.introductions]
      · rw [offers, kept.offers]

theorem introduce_settled
    (env : Env ω) {rendezvous : Rendezvous ω} {peer : PeerId} {client : Client} {target : Key}
    (takes : rendezvous.Takes event peer client (.introduce target)) (nowMs : Nat) :
    Settled event nowMs rendezvous (introduce env rendezvous peer client.key target nowMs) := by
  unfold introduce
  split
  · exact .quiet (.refl rendezvous)
  next different =>
  split
  · exact .quiet (send_keeps env rendezvous rfl rfl peer nowMs).toQuiet
  next allowed =>
  dsimp only
  split
  · exact .waits takes (.refl _)
  next other registered =>
  split
  · exact .waits takes (.refl _)
  next isMutual =>
  split
  · next here there _ _ =>
      have swapped : (target, client.key) ≠ (client.key, target) := by
        intro same
        exact different (congrArg Prod.fst same)
      rw [AList.lookup_insert_ne swapped, Bool.not_eq_false, Option.any_eq_true] at isMutual
      obtain ⟨since, asks, inTime⟩ := isMutual
      refine .introduces takes different (Bool.not_eq_false _ ▸ allowed)
        registered asks (of_decide_eq_true inTime) ?_ ?_ id ?_ ?_
      · intro request since found
        obtain ⟨notOther, found⟩ := Table.found_of_erase found
        obtain ⟨notThis, found⟩ := Table.found_of_erase found
        rw [AList.lookup_insert_ne notThis] at found
        exact ⟨not_or.mpr ⟨notThis, notOther⟩, found⟩
      · intro between since found
        exact (Table.found_of_insert found).imp_right And.right
      · simp only [send_introductions, List.append_assoc]
        rfl
      · simp only [send_offers, Control.offered?, Option.map_none,
          Option.toList_none, List.append_nil]
        rfl
  · exact .waits takes (.refl _)

/-- Nothing but offers goes out, to the sessions of a pair. -/
structure OffersTo (between : Pair) (before after : Rendezvous ω) :
    Prop where
  books : after.toBooks = before.toBooks
  introductions : after.introductions = before.introductions
  offers : ∃ items,
      after.offers = before.offers ++ items ∧
        ∀ item ∈ items,
          ∃ key,
            before.byKey.lookup key = some item.1 ∧ IsPair between key item.2

theorem OffersTo.trans {middle : Rendezvous ω} (first : OffersTo between before middle)
    (second : OffersTo between middle after) :
    OffersTo between before after := by
  obtain ⟨items, isItems, toItems⟩ := first.offers
  obtain ⟨rest, isRest, toRest⟩ := second.offers
  refine ⟨second.books.trans first.books,
    second.introductions.trans first.introductions, items ++ rest, ?_, ?_⟩
  · rw [isRest, isItems, List.append_assoc]
  · intro item member
    rcases List.mem_append.mp member with early | late
    · exact toItems item early
    · obtain ⟨key, registered, isPair⟩ := toRest item late
      rw [first.books] at registered
      exact ⟨key, registered, isPair⟩

theorem sendTo_offersTo (env : Env ω) (rendezvous : Rendezvous ω) {key other : Key}
    (isPair : IsPair between key other) (addr : SocketAddr) (token : Bytes) (nowMs : Nat) :
    OffersTo between rendezvous
      (sendTo env rendezvous key (.relayOffer other addr token) nowMs) := by
  unfold sendTo
  split
  · exact ⟨rfl, rfl, [], (List.append_nil _).symm, nofun⟩
  next peer registered =>
  refine ⟨rfl, ?_, [(peer, other)], send_offers .., ?_⟩
  · rw [send_introductions]
    exact List.append_nil _
  · intro item member
    rw [List.mem_singleton] at member
    subst member
    exact ⟨key, registered, isPair⟩

theorem offer_offersTo (env : Env ω) (rendezvous : Rendezvous ω) (between : Pair)
    (allocation : Allocation) (nowMs : Nat) :
    OffersTo between rendezvous (offer env rendezvous between allocation nowMs) :=
  (sendTo_offersTo env rendezvous (Or.inl rfl) _ _ nowMs).trans
    (sendTo_offersTo env _ (Or.inr rfl) _ _ nowMs)

theorem OffersTo.settled (offersTo : OffersTo between before after) {since nowMs : Nat}
    (recent : before.introduced.lookup between = some since)
    (inTime : nowMs - since ≤ relayWindow) (event : Event) :
    Settled event nowMs before after := by
  obtain ⟨items, isItems, toPair⟩ := offersTo.offers
  have listed : before.Listed → after.Listed := by
    unfold Listed
    rw [offersTo.books]
    exact id
  refine .offers recent inTime ?_ ?_ listed offersTo.introductions isItems toPair
  · rw [offersTo.books]
    exact id
  · rw [offersTo.books]
    exact id

section

variable (env : Env ω) (rendezvous : Rendezvous ω)

theorem relay_settled (event : Event) (peer : PeerId) (asker target : Key) (moment : Moment) :
    Settled event moment.nowMs rendezvous (relay env rendezvous peer asker target moment) := by
  unfold relay
  dsimp only
  split
  · exact .quiet (send_keeps env rendezvous rfl rfl _ _).toQuiet
  next other _ =>
  split
  · exact .quiet (send_keeps env rendezvous rfl rfl _ _).toQuiet
  next isRecent =>
  rw [Bool.not_eq_false, Option.any_eq_true] at isRecent
  obtain ⟨since, recent, inTime⟩ := isRecent
  have inTime := of_decide_eq_true inTime
  split
  · exact .quiet (refuseRelay_keeps env rendezvous _ _ _ _).toQuiet
  split
  · exact (offer_offersTo env rendezvous _ _ _).settled recent inTime event
  split
  · exact .quiet (refuseRelay_keeps env rendezvous _ _ _ _).toQuiet
  next allocation _ =>
  have kept : Keeps rendezvous { rendezvous with
          relays :=
            rendezvous.relays.insert (pair asker target) allocation } :=
    ⟨⟨id, id, id, rfl, rfl⟩, .of_same rfl rfl rfl, rfl, rfl⟩
  refine .of_keeps kept ((offer_offersTo env _ _ _ _).settled ?_ inTime event)
  exact recent

theorem handle_settled
    {peer : PeerId} {data : Bytes} {control : Control} (isMessage : event = .message peer data)
    (decodes : Control.decode data = some control) (moment : Moment) :
    Settled event moment.nowMs rendezvous (handle env rendezvous peer control moment) := by
  unfold handle
  dsimp only
  split
  · exact .quiet (register_quiet env rendezvous peer moment.nowMs)
  split
  · exact .quiet (.refl rendezvous)
  next client isClient =>
  have spent := spend_keeps rendezvous client.addr.ip moment.nowMs
  split
  · split
    · exact .quiet (spent.trans (join_keeps env _ _ _ _ _ _)).toQuiet
    · exact .quiet spent.toQuiet
  · exact .quiet (leave_keeps env rendezvous _ _ _).toQuiet
  · split
    · refine .of_keeps spent (introduce_settled env ?_ moment.nowMs)
      exact ⟨data, isMessage, decodes, spent.clients ▸ isClient⟩
    · exact .quiet (spent.trans (send_keeps env _ rfl rfl _ _)).toQuiet
  · split
    · exact .of_keeps spent (relay_settled env _ event peer _ _ moment)
    · exact .quiet (spent.trans (send_keeps env _ rfl rfl _ _)).toQuiet
  · exact .quiet (.refl rendezvous)

theorem settle_settled (event : Event) (moment : Moment) :
    Settled event moment.nowMs rendezvous (settle env rendezvous event moment) := by
  unfold settle
  split
  · split
    · next decodes => exact handle_settled env rendezvous rfl decodes moment
    · exact .quiet (.refl rendezvous)
  · exact .quiet (forget_quiet env rendezvous _ moment)
  · exact .quiet (.refl rendezvous)

/-- A step is quiet, or acts on what the endpoint came back with. -/
theorem next_cases (moment : Moment) :
    Quiet { rendezvous with record := [] } (next env rendezvous moment) ∨
      ∃ event, event? env rendezvous moment = some event ∧
          Settled event moment.nowMs { rendezvous with record := [] }
            (next env rendezvous moment) := by
  have kept := polled_keeps env { rendezvous with record := [] } moment
  unfold next event?
  dsimp only
  split
  · exact Or.inl ⟨id, id, id, rfl, rfl⟩
  · exact Or.inl ⟨id, id, id, rfl, rfl⟩
  · exact Or.inl ⟨id, id, id, rfl, rfl⟩
  · exact Or.inl ⟨id, id, id, rfl, rfl⟩
  split
  · next event middle isPolled =>
      rw [isPolled] at kept ⊢
      exact Or.inr ⟨event, rfl, .of_keeps kept (settle_settled env middle event moment)⟩
  next isPolled =>
  rw [isPolled] at kept
  exact Or.inl kept.toQuiet

end

end Rendezvous

end Fectp
