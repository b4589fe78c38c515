import Fectp.Introductions.Failures

namespace Fectp

/-!
# Members of a group are discovered

Of each list of a group's members a client announces the keys that were not on
the list before it.  It keeps only the last list, so a key is announced once
as long as none comes back that a list had left out.
-/

/-- Something holds, then does not, and then holds again. -/
def Returns {α : Type*} (Holds : α → Prop) (items : List α) : Prop :=
  ∃ first second third,
    [first, second, third].Sublist items ∧
      Holds first ∧ ¬ Holds second ∧ Holds third

/-- It holds of one more that it held of before, but not of the last. -/
theorem returns_concat {α : Type*} {Holds : α → Prop} {items : List α} {item : α} :
    Returns Holds (items ++ [item]) ↔ Returns Holds items ∨
        Holds item ∧ (∃ earlier ∈ items, Holds earlier) ∧
          ∀ last ∈ items.getLast?, ¬ Holds last := by
  constructor
  · rintro ⟨first, second, third, sublist, isFirst, notSecond, isThird⟩
    have ends := @Execution.sublist_concat _ [first, second] _ _ _ sublist
    rcases ends with inItems | ⟨inItems, rfl⟩
    · exact Or.inl ⟨first, second, third, inItems, isFirst, notSecond, isThird⟩
    by_cases lasts : ∃ last ∈ items.getLast?, Holds last
    · obtain ⟨last, isLast, holds⟩ := lasts
      obtain ⟨front, rfl⟩ := List.getLast?_eq_some_iff.mp isLast
      have inFront := @Execution.sublist_concat _ [first] _ _ _ inItems
      rcases inFront with inFront | ⟨_, rfl⟩
      · exact Or.inl ⟨first, second, last, inFront.append (.refl [last]),
          isFirst, notSecond, holds⟩
      · exact absurd holds notSecond
    · right
      refine ⟨isThird, ⟨first, ?_, isFirst⟩, ?_⟩
      · exact inItems.subset (List.mem_cons_self ..)
      · intro last isLast holds
        exact lasts ⟨last, isLast, holds⟩
  · rintro (⟨first, second, third, sublist, returns⟩ |
      ⟨holds, ⟨earlier, member, held⟩, lost⟩)
    · exact ⟨first, second, third, sublist.trans (List.sublist_append_left _ _), returns⟩
    · obtain ⟨front, last, rfl⟩ :=
        (List.eq_nil_or_concat' items).resolve_left (List.ne_nil_of_mem member)
      have notLast : ¬ Holds last := by
        apply lost
        rw [List.getLast?_concat]
        rfl
      refine ⟨earlier, last, item, ?_, held, notLast, holds⟩
      rcases List.mem_append.mp member with inFront | isLast
      · exact ((List.singleton_sublist.mpr inFront).append (.refl [last])).append (.refl [item])
      · rw [List.mem_singleton.mp isLast] at held
        exact absurd held notLast

namespace ClientEndpoint

variable {ω : Type*} (env : ClientEnv ω) (tag : GroupTag)

/-- The keys of a group that events announce. -/
def announces (events : List Event) : List Key :=
  events.filterMap fun
    | .peerDiscovered key group => if group = tag then some key else none
    | _ => none

/-- The keys of a group announced from one state to another. -/
def discovered (before after : ClientEndpoint ω) : List Key :=
  announces tag
    (after.driver.endpoint.events.drop before.driver.endpoint.events.length)

/-- The keys of a list, other than one's own, whose certificates check. -/
def shown (own : Option Key) (groupKey : Bytes) (list : List (Key × Bytes)) :
    List Key :=
  ((list.filter fun (key, mac) =>
    own != some key &&
      Relay.same mac (memberMac env groupKey key)).map Prod.fst).dedup

/-- The client is told of a group's members, and does other things meanwhile
that leave the group as it is. -/
inductive Listens (start : ClientEndpoint ω) :
    List (List (Key × Bytes)) → List Key → ClientEndpoint ω → Prop where
  | begin :
      Listens start [] [] start
  | meanwhile {lists announced client later}
      (listens : Listens start lists announced client)
      (sameGroup : later.groups.lookup tag = client.groups.lookup tag)
      (sameOwn : ownKey env later = ownKey env client) :
      Listens start lists announced later
  | told {lists announced client} (list : List (Key × Bytes))
      (moment : Moment)
      (listens : Listens start lists announced client) :
      Listens start (lists ++ [list])
        (announced ++
          discovered tag client
            (onControl env client (.members tag list) moment))
        (onControl env client (.members tag list) moment)

variable {env tag}

theorem mem_shown {own : Option Key} {groupKey : Bytes} {list : List (Key × Bytes)} {key : Key} :
    key ∈ shown env own groupKey list ↔
      own ≠ some key ∧ (key, memberMac env groupKey key) ∈ list := by
  simp [shown, and_comm]

theorem discovered_raised (client : ClientEndpoint ω) (endpoint : Endpoint ω) (keys : List Key)
    (isEvents : endpoint.events =
        client.driver.endpoint.events ++ keys.map (.peerDiscovered · tag)) :
    discovered tag client (client.withEndpoint endpoint) = keys := by
  unfold discovered withEndpoint announces
  rw [isEvents, List.drop_left, List.filterMap_map]
  simp

/-- What is new on a list is announced, and it takes the place of the last. -/
theorem onMembers_spec
    {client : ClientEndpoint ω} {group : Group} (joined : client.groups.lookup tag = some group)
    (list : List (Key × Bytes)) (moment : Moment) :
    let after := onControl env client (.members tag list) moment
    let checked := shown env (ownKey env client) group.key list
    after.groups.lookup tag = some { group with members := checked } ∧
      ownKey env after = ownKey env client ∧
      discovered tag client after =
        (checked.filter (!group.members.contains ·)).mergeSort (· ≤ ·) := by
  intro after checked
  have isAfter : after = onMembers env client tag list := rfl
  unfold onMembers at isAfter
  rw [joined] at isAfter
  dsimp only at isAfter
  rw [raise_foldl] at isAfter
  rw [isAfter]
  exact ⟨AList.lookup_insert _, rfl, discovered_raised client _ _ rfl⟩

variable
    {start client : ClientEndpoint ω}
    {lists : List (List (Key × Bytes))}
    {announced : List Key}
    {group : Group}

/-- What a client in a group knows, and has announced. -/
structure Knows
    (env : ClientEnv ω)
    (tag : GroupTag)
    (own : Option Key)
    (groupKey : Bytes)
    (lists : List (List (Key × Bytes)))
    (announced : List Key)
    (client : ClientEndpoint ω) :
    Prop where
  isOwn : ownKey env client = own
  joined : ∃ group,
      client.groups.lookup tag = some group ∧ group.key = groupKey ∧
        ∀ key,
          key ∈ group.members ↔
            ∃ last ∈ lists.getLast?, key ∈ shown env own groupKey last
  isAnnounced : ∀ key,
      key ∈ announced ↔ ∃ list ∈ lists, key ∈ shown env own groupKey list
  once : announced.Nodup ↔
      ∀ key, ¬ Returns (key ∈ shown env own groupKey ·) lists

theorem Listens.knows (listens : Listens env tag start lists announced client)
    (joined : start.groups.lookup tag = some group) (fresh : group.members = []) :
    Knows env tag (ownKey env start) group.key lists announced client := by
  induction listens with
  | begin =>
    refine ⟨rfl, ⟨group, joined, rfl, ?_⟩, ?_, ?_⟩
    · intro key
      simp [fresh]
    · simp
    · refine iff_of_true List.nodup_nil ?_
      rintro key ⟨_, _, _, sublist, _⟩
      cases sublist
  | meanwhile _ sameGroup sameOwn inductionHypothesis =>
    obtain ⟨own, joined, announced, once⟩ := inductionHypothesis
    exact ⟨sameOwn.trans own, sameGroup ▸ joined, announced, once⟩
  | @told lists announced client list moment _ inductionHypothesis =>
    obtain ⟨own, ⟨last, joined, isKey, isLast⟩, isAnnounced, once⟩ := inductionHypothesis
    obtain ⟨joined, sameOwn, isFound⟩ := onMembers_spec joined list moment
    rw [own, isKey] at joined isFound
    have found : ∀ key, key ∈ discovered tag client
              (onControl env client (.members tag list) moment) ↔
            key ∈ shown env (ownKey env start) group.key list ∧
              ∀ last ∈ lists.getLast?, key ∉ shown env (ownKey env start) group.key last := by
      intro key
      rw [isFound, List.mem_mergeSort, List.mem_filter]
      simp [isLast]
    refine ⟨sameOwn.trans own, ⟨_, joined, rfl, ?_⟩, ?_, ?_⟩
    · intro key
      simp
    · intro key
      rw [List.mem_append, isAnnounced, found]
      constructor
      · rintro (⟨earlier, member, shows⟩ | ⟨shows, _⟩)
        · exact ⟨earlier, List.mem_append_left _ member, shows⟩
        · exact ⟨list, List.mem_append_right _ (List.mem_singleton_self _), shows⟩
      · rintro ⟨some, member, shows⟩
        rcases List.mem_append.mp member with earlier | isList
        · exact Or.inl ⟨some, earlier, shows⟩
        rw [List.mem_singleton.mp isList] at shows
        by_cases again :
            ∀ last ∈ lists.getLast?, key ∉ shown env (ownKey env start) group.key last
        · exact Or.inr ⟨shows, again⟩
        · push Not at again
          obtain ⟨last, isLast, shows⟩ := again
          exact Or.inl ⟨last, List.mem_of_getLast? isLast, shows⟩
    · have distinct : (discovered tag client
            (onControl env client (.members tag list) moment)).Nodup := by
        rw [isFound, (List.mergeSort_perm _ _).nodup_iff]
        exact (List.nodup_dedup _).filter _
      simp only [returns_concat, not_or, forall_and]
      rw [List.nodup_append, once, and_iff_right distinct]
      refine and_congr_right fun _ => ⟨?_, ?_⟩
      · rintro apart key ⟨shows, earlier, new⟩
        exact apart key ((isAnnounced key).mpr earlier) key ((found key).mpr ⟨shows, new⟩) rfl
      · rintro apart key member _ isNew rfl
        obtain ⟨shows, new⟩ := (found key).mp isNew
        exact apart key ⟨shows, (isAnnounced key).mp member, new⟩

/-! ### Steps -/

section

open Relation (ReflTransGen)

/-- What plain events are queued announces nobody. -/
theorem announces_plainly {before after : List Event} (plainly : Event.Plainly before after) :
    (announces tag after).Sublist (announces tag before) := by
  have rare (events : List Event) :
      announces tag (events.filter (!·.isPlain)) = announces tag events := by
    unfold announces
    rw [List.filterMap_filter]
    congr 1
    funext event
    cases event <;> rfl
  rw [← rare before, ← rare after]
  exact plainly.filterMap _

/--
The client goes on listening: of what it announces, no more is queued than was
before or is raised now.
-/
def Continues
    (env : ClientEnv ω)
    (tag : GroupTag)
    (start : ClientEndpoint ω)
    (lists : List (List (Key × Bytes)))
    (announced : List Key)
    (client later : ClientEndpoint ω) :
    Prop :=
  ∃ more raised,
    Listens env tag start (lists ++ more) (announced ++ raised) later ∧
      (announces tag later.driver.endpoint.events).Sublist
        (announces tag client.driver.endpoint.events ++ raised)

variable {later : ClientEndpoint ω}

theorem Listens.meanwhile_plainly (listens : Listens env tag start lists announced client)
    (groups : later.groups.lookup tag = client.groups.lookup tag)
    (mode : later.driver.endpoint.mode = client.driver.endpoint.mode)
    (plainly : Event.Plainly client.driver.endpoint.events later.driver.endpoint.events) :
    Continues env tag start lists announced client later := by
  refine ⟨[], [], ?_, ?_⟩
  · rw [List.append_nil, List.append_nil]
    refine .meanwhile listens groups ?_
    unfold ownKey
    rw [mode]
  · rw [List.append_nil]
    exact announces_plainly plainly

variable {Free : Stage → Table PeerId Outbound → Prop} {Linked : PeerId → Prop}

/-- A small change goes on, unless the rendezvous is lost by it. -/
theorem Listens.atom (listens : Listens env tag start lists announced client)
    (atom : Atom Free Linked env client later) (moment : Moment) :
    client.rendezvous.isSome ∧ later.rendezvous = none ∨
      later.rendezvous = client.rendezvous ∧
        Continues env tag start lists announced client later := by
  cases atom with
  | apart _ changes dwindles | moved _ _ changes dwindles =>
    exact Or.inr ⟨changes.rendezvous,
      listens.meanwhile_plainly (changes.groups ▸ rfl) dwindles.mode dwindles.events⟩
  | begun _ _ changes begins =>
    exact Or.inr ⟨changes.rendezvous,
      listens.meanwhile_plainly (changes.groups ▸ rfl) begins.mode (begins.events ▸ .refl _)⟩
  | listed group list isAfter =>
    obtain ⟨groups, keys, isListed, others⟩ := onMembers_eq env client group list
    rw [isAfter]
    refine Or.inr ⟨isListed ▸ rfl, ?_⟩
    by_cases isGroup : group = tag
    · subst isGroup
      refine ⟨[list], _, .told list moment listens, ?_⟩
      unfold discovered
      rw [show onControl env client (.members group list) moment = _ from isListed, isListed]
      simp [withEndpoint, announces]
    · refine ⟨[], [], ?_, ?_⟩
      · rw [List.append_nil, List.append_nil]
        rw [isListed]
        exact .meanwhile listens (others tag (Ne.symm isGroup)) rfl
      · rw [isListed]
        simp [withEndpoint, announces, isGroup]
  | lost isSome gone _ _ _ => exact Or.inl ⟨isSome, gone⟩

theorem Listens.atoms (listens : Listens env tag start lists announced client)
    (chain : ReflTransGen (Atom Free Linked env) client later) (moment : Moment) :
    client.rendezvous.isSome ∧ later.rendezvous = none ∨
      later.rendezvous = client.rendezvous ∧
        Continues env tag start lists announced client later := by
  induction chain with
  | refl => exact Or.inr ⟨rfl, listens.meanwhile_plainly rfl rfl (.refl _)⟩
  | @tail mid later _ atom inductionHypothesis =>
    rcases inductionHypothesis with ⟨isSome, gone⟩ | ⟨same, more, raised, listening, sublist⟩
    · refine Or.inl ⟨isSome, ?_⟩
      rcases atom.rendezvous with same | gone
      · exact same.trans gone
      · exact gone
    · rcases listening.atom atom moment with ⟨isSome, gone⟩ | ⟨sameLater, again, raisedAgain, later⟩
      · exact Or.inl ⟨same ▸ isSome, gone⟩
      · refine Or.inr ⟨sameLater.trans same, more ++ again, raised ++ raisedAgain, ?_⟩
        rw [← List.append_assoc, ← List.append_assoc, ← List.append_assoc]
        exact ⟨later.1, later.2.trans (sublist.append (.refl _))⟩

/-- The step neither joins the group nor leaves it, nor is the rendezvous lost. -/
structure Stays
    (env : ClientEnv ω)
    (tag : GroupTag)
    (client : ClientEndpoint ω)
    (moment : Moment) :
    Prop where
  joins : ∀ secret,
      moment.action = .joinGroup secret → groupTag env secret ≠ tag
  leaves : moment.action ≠ .leaveGroup tag
  loses : (next env client moment).rendezvous = none → client.rendezvous = none

/-- A client goes on listening through every step. -/
theorem Listens.step (listens : Listens env tag start lists announced client) {moment : Moment}
    (stays : Stays env tag client moment) :
    Continues env tag start lists announced client (next env client moment) := by
  have takes := @takes_of_linked _ (fun _ => True) env client moment fun _ _ _ => trivial
  cases takes with
  | atoms chain =>
    rcases listens.atoms chain moment with ⟨isSome, gone⟩ | ⟨_, continues⟩
    · rw [stays.loses gone] at isSome
      cases isSome
    · exact continues
  | called _ _ changes dwindles =>
    exact listens.meanwhile_plainly (changes.groups ▸ rfl) dwindles.mode dwindles.events
  | connected _ _ _ _ groups _ begins =>
    exact listens.meanwhile_plainly (groups ▸ rfl) begins.mode (begins.events ▸ .refl _)
  | regrouped group isAction others changes dwindles =>
    refine listens.meanwhile_plainly ?_ dwindles.mode dwindles.events
    refine (congrArg (·.lookup tag) changes.groups).trans (others tag ?_)
    rintro rfl
    rcases isAction with ⟨secret, isJoin, isTag⟩ | isLeave
    · exact stays.joins secret isJoin isTag
    · exact stays.leaves isLeave

end

/--
A client in a group announces no key twice exactly if no key, once shown and
then left out, is shown again; and it announces none but those shown with a
certificate that checks, its own apart.  Whatever it does next, short of
joining the group again, leaving it or losing the rendezvous, goes on so.
-/
theorem announced_once_iff
    (listens : Listens env tag start lists announced client)
    (joined : start.groups.lookup tag = some group)
    (fresh : group.members = []) :
    (announced.Nodup ↔
        ∀ key,
          ¬ Returns (key ∈ shown env (ownKey env start) group.key ·) lists) ∧
      (∀ key ∈ announced,
        ownKey env start ≠ some key ∧
          ∃ list ∈ lists, (key, memberMac env group.key key) ∈ list) ∧
      ∀ moment,
        Stays env tag client moment →
          Continues env tag start lists announced client
            (next env client moment) := by
  obtain ⟨_, _, isAnnounced, once⟩ := listens.knows joined fresh
  refine ⟨once, ?_, fun moment stays => listens.step stays⟩
  intro key member
  obtain ⟨list, isList, shows⟩ := (isAnnounced key).mp member
  obtain ⟨notOwn, certified⟩ := mem_shown.mp shows
  exact ⟨notOwn, list, isList, certified⟩

/-! ### A small group -/

/-- A client that has joined a group at a rendezvous. -/
def smallMember : ClientEndpoint Unit :=
  Execution.run (next smallClientEnv)
    (.new (.new smallClientEnv.toEnv (.publicKey (smallKey 1)) ()))
    [smallClientMoment 0
        (.connectRendezvous (Endpoint.host 1) (smallKey 9)),
      smallClientMoment 0 (.joinGroup (smallKey 3))]

/-- The client is told of these members. -/
def smallTold (client : ClientEndpoint Unit) (keys : List Key) :
    ClientEndpoint Unit :=
  onControl smallClientEnv client (.members [] (keys.map (·, [])))
    (smallClientMoment 0 .turn)

/-- A key stays on the list, another comes, and is left out for a third. -/
theorem announced_once_of_small_group :
    let first := smallTold smallMember [smallKey 2]
    let second := smallTold first [smallKey 2, smallKey 4]
    let third := smallTold second [smallKey 2, smallKey 5]
    let announced :=
      discovered [] smallMember first ++ discovered [] first second ++
        discovered [] second third
    announced = [smallKey 2, smallKey 4, smallKey 5] ∧ announced.Nodup := by
  intro first second third announced
  have isAnnounced : announced = [smallKey 2, smallKey 4, smallKey 5] := by
    decide +kernel
  have joined : smallMember.groups.lookup [] = some ⟨[], [], []⟩ := by
    decide +kernel
  have listens : Listens smallClientEnv [] smallMember _ announced third :=
    .told [(smallKey 2, []), (smallKey 5, [])] (smallClientMoment 0 .turn)
      (.told [(smallKey 2, []), (smallKey 4, [])] (smallClientMoment 0 .turn)
        (.told [(smallKey 2, [])] (smallClientMoment 0 .turn) .begin))
  refine ⟨isAnnounced, (announced_once_iff listens joined rfl).1.mpr ?_⟩
  -- Three lists are all there are, and what is on the first is on the second.
  rintro key ⟨earlier, between, later, sublist, shows, hides, _⟩
  cases sublist.eq_of_length rfl
  obtain ⟨notOwn, certified⟩ := mem_shown.mp shows
  refine hides (mem_shown.mpr ⟨notOwn, ?_⟩)
  exact List.mem_append_left [(smallKey 4, [])] certified

/-- A key that was left out comes back, and is announced again. -/
theorem returned_member_is_announced_again :
    let first := smallTold smallMember [smallKey 2]
    let second := smallTold first []
    discovered [] smallMember first = [smallKey 2] ∧
      discovered [] first second = [] ∧
      discovered [] second (smallTold second [smallKey 2]) =
        [smallKey 2] := by
  decide +kernel

end ClientEndpoint

end Fectp
