import Mathlib.Data.List.Nodup
import Fectp.Execution
import Fectp.Rendezvous.State

namespace Fectp

/-!
# What a group is told of itself

A rendezvous files sessions in groups and sends a group to its members when it
changes.  Only two things matter here: the groups, and the messages sent.  A
rendezvous is projected to these two, and what a group is told is followed
there from call to call.
-/

/-- A member of a group: its session, its key and its certificate. -/
abbrev Member := PeerId × Key × Bytes

/-- The members a message lists, if it is about a group. -/
def Control.listing? (tag : GroupTag) : Control → Option (List (Key × Bytes))
  | .members named list => if named = tag then some list else none
  | _ => none

/-- The groups of a rendezvous, and what its sessions were sent. -/
structure Gathering where
  groups : Table GroupTag (List Member)
  record : List (PeerId × Control)

namespace Gathering

/-- Whether a session is among some members. -/
def holds (peer : PeerId) (members : List Member) : Bool :=
  members.any (·.1 == peer)

/-- What members are shown of each other. -/
def listing (members : List Member) : List (Key × Bytes) :=
  members.map fun (_, key, mac) => (key, mac)

/-- The messages that tell members who they are. -/
def announcement (tag : GroupTag) (members : List Member) :
    List (PeerId × Control) :=
  members.map fun (peer, _, _) => (peer, .members tag (listing members))

/-- The lists of a group that a session was sent, in order. -/
def lists (record : List (PeerId × Control)) (peer : PeerId) (tag : GroupTag) :
    List (List (Key × Bytes)) :=
  record.filterMap fun (reader, control) =>
    if reader = peer then control.listing? tag else none

/-- The last list of a group that a session was sent. -/
def lastMembers
    (record : List (PeerId × Control))
    (peer : PeerId)
    (tag : GroupTag) :
    Option (List (Key × Bytes)) :=
  (lists record peer tag).getLast?

/-- The members of a group, none if it is not kept. -/
def roster (gathering : Gathering) (tag : GroupTag) : List Member :=
  (gathering.groups.lookup tag).getD []

/-- How many groups a session is in. -/
def groupsOf (gathering : Gathering) (peer : PeerId) : Nat :=
  gathering.groups.entries.countP fun entry => holds peer entry.2

/-! ### The calls -/

/-- Leaves a group to these members and tells nobody. -/
def settle (gathering : Gathering) (tag : GroupTag) (members : List Member) :
    Gathering :=
  { gathering with
    groups :=
      if members.isEmpty then gathering.groups.erase tag
      else gathering.groups.insert tag members }

/-- Gives a group these members and tells them. -/
def announce (gathering : Gathering) (tag : GroupTag) (members : List Member) :
    Gathering where
  groups := gathering.groups.insert tag members
  record := gathering.record ++ announcement tag members

/-- The members of a group that are neither this session nor this key. -/
def others
    (gathering : Gathering)
    (peer : PeerId)
    (key : Key)
    (tag : GroupTag) :
    List Member :=
  (gathering.roster tag).filter fun (held, filed, _) =>
    held != peer && filed != key

/-- A join is refused for a bound. -/
def Refuses
    (gathering : Gathering)
    (peer : PeerId)
    (key : Key)
    (tag : GroupTag) :
    Prop :=
  maxGroupMembers ≤ (gathering.others peer key tag).length ∨
    maxGroups ≤ gathering.groups.elsewhere tag (holds peer)

instance
    (gathering : Gathering)
    (peer : PeerId)
    (key : Key)
    (tag : GroupTag) :
    Decidable (gathering.Refuses peer key tag) := by
  unfold Refuses
  infer_instance

def join
    (gathering : Gathering)
    (peer : PeerId)
    (key : Key)
    (tag : GroupTag)
    (mac : Bytes) :
    Gathering :=
  if gathering.Refuses peer key tag then
    gathering.settle tag (gathering.others peer key tag)
  else
    gathering.announce tag (gathering.others peer key tag ++ [(peer, key, mac)])

def leave (gathering : Gathering) (peer : PeerId) (tag : GroupTag) :
    Gathering :=
  let kept := (gathering.roster tag).filter (·.1 != peer)
  if kept.length = (gathering.roster tag).length then gathering
  else if kept.isEmpty then gathering.settle tag []
  else gathering.announce tag kept

/-! ### What was sent last -/

theorem lists_append (first second : List (PeerId × Control)) (peer : PeerId) (tag : GroupTag) :
    lists (first ++ second) peer tag = lists first peer tag ++ lists second peer tag :=
  List.filterMap_append

variable {members : List Member}

/-- A member is told the members, whatever it was told before. -/
theorem lastMembers_announced {member : Member} (among : member ∈ members)
    (record : List (PeerId × Control)) (tag : GroupTag) :
    lastMembers (record ++ announcement tag members) member.1 tag = some (listing members) := by
  have isTold : listing members ∈ lists (announcement tag members) member.1 tag := by
    refine List.mem_filterMap.mpr ⟨(member.1, .members tag (listing members)), ?_, ?_⟩
    · exact List.mem_map.mpr ⟨member, among, rfl⟩
    · simp [Control.listing?]
  have only : ∀ list ∈ lists (announcement tag members) member.1 tag, list = listing members := by
    intro list listed
    obtain ⟨message, sent, carries⟩ := List.mem_filterMap.mp listed
    obtain ⟨other, _, rfl⟩ := List.mem_map.mp sent
    simp only [Control.listing?, if_true, Option.ite_none_right_eq_some,
      Option.some.injEq] at carries
    exact carries.2.symm
  have someList := List.ne_nil_of_mem isTold
  unfold lastMembers
  rw [lists_append, List.getLast?_append, List.getLast?_eq_some_getLast someList, Option.some_or,
    only _ (List.getLast_mem someList)]

/-- Nobody is told anything of another group. -/
theorem lastMembers_other {named tag : GroupTag} (different : tag ≠ named)
    (record : List (PeerId × Control)) (members : List Member) (peer : PeerId) :
    lastMembers (record ++ announcement named members) peer tag = lastMembers record peer tag := by
  have nothing : lists (announcement named members) peer tag = [] := by
    refine List.filterMap_eq_nil_iff.mpr ?_
    intro message sent
    obtain ⟨member, _, rfl⟩ := List.mem_map.mp sent
    simp [Control.listing?, different.symm]
  unfold lastMembers
  rw [lists_append, nothing, List.append_nil]

/-! ### Knowing -/

/-- Members as a group may hold them. -/
structure Seated (members : List Member) : Prop where
  occupied : members ≠ []
  few : members.length ≤ maxGroupMembers
  keys : (members.map fun (_, key, _) => key).Nodup
  sessions : (members.map fun (peer, _, _) => peer).Nodup

/-- Every group is within its bounds and its members know it. -/
structure Knowing (gathering : Gathering) : Prop where
  told : ∀ {tag members},
      gathering.groups.lookup tag = some members →
      ∀ member ∈ members,
        lastMembers gathering.record member.1 tag = some (listing members)
  seated : ∀ {tag members},
      gathering.groups.lookup tag = some members → Seated members
  bounded : ∀ peer, gathering.groupsOf peer ≤ maxGroups

theorem Seated.sublist {kept : List Member} (seated : Seated members)
    (fewer : kept.Sublist members) (occupied : kept ≠ []) :
    Seated kept where
  occupied := occupied
  few := fewer.length_le.trans seated.few
  keys := seated.keys.sublist (fewer.map _)
  sessions := seated.sessions.sublist (fewer.map _)

theorem holds_iff {peer : PeerId} :
    holds peer members = true ↔ ∃ member ∈ members, member.1 = peer := by
  simp [holds]

theorem holds_of_sublist {peer : PeerId} {kept : List Member} (fewer : kept.Sublist members)
    (held : holds peer kept = true) :
    holds peer members = true := by
  obtain ⟨member, among, isPeer⟩ := holds_iff.mp held
  exact holds_iff.mpr ⟨member, fewer.subset among, isPeer⟩

section

variable {gathering : Gathering} {tag : GroupTag}

theorem roster_of_lookup
    {members : List Member} (found : gathering.groups.lookup tag = some members) :
    gathering.roster tag = members := by
  unfold roster
  rw [found, Option.getD_some]

theorem roster_of_missing (missing : gathering.groups.lookup tag = none) :
    gathering.roster tag = [] := by
  unfold roster
  rw [missing, Option.getD_none]

/-- A session's groups are this one, if it is in it, and the others. -/
theorem groupsOf_eq (gathering : Gathering) (tag : GroupTag) (peer : PeerId) :
    gathering.groupsOf peer = gathering.groups.elsewhere tag (holds peer) +
        (gathering.groups.lookup tag).toList.countP (holds peer) :=
  Table.countP_entries gathering.groups tag (holds peer)

variable {peer : PeerId} {key : Key}

section

variable (known : Knowing gathering)

include known

/-- A member of a group is in fewer others than it may be in. -/
theorem Knowing.room (held : holds peer (gathering.roster tag) = true) :
    gathering.groups.elsewhere tag (holds peer) < maxGroups := by
  cases found : gathering.groups.lookup tag with
  | none =>
    rw [roster_of_missing found] at held
    cases held
  | some members =>
    rw [roster_of_lookup found] at held
    have bounded := known.bounded peer
    rw [groupsOf_eq gathering tag peer, found] at bounded
    simp only [Option.toList_some, List.countP_singleton, held, if_true] at bounded
    exact bounded

/-- What a group holds it may hold, but for being empty. -/
theorem Knowing.roster_nodup (tag : GroupTag) :
    (gathering.roster tag).length ≤ maxGroupMembers ∧
      ((gathering.roster tag).map fun (_, key, _) => key).Nodup ∧
      ((gathering.roster tag).map fun (peer, _, _) => peer).Nodup := by
  cases found : gathering.groups.lookup tag with
  | none =>
    rw [roster_of_missing found]
    exact ⟨Nat.zero_le _, List.nodup_nil, List.nodup_nil⟩
  | some members =>
    rw [roster_of_lookup found]
    have seated := known.seated found
    exact ⟨seated.few, seated.keys, seated.sessions⟩

/-! ### What each change keeps -/

/-- A change that tells the members keeps everyone knowing. -/
theorem Knowing.announce {members : List Member} (seated : Seated members)
    (room : ∀ peer, holds peer members = true →
        gathering.groups.elsewhere tag (holds peer) < maxGroups) :
    Knowing (gathering.announce tag members) where
  told found := by
    rcases Table.found_of_insert found with ⟨rfl, rfl⟩ | ⟨different, before⟩
    · intro member among
      exact lastMembers_announced among gathering.record _
    · intro member among
      exact (lastMembers_other different _ _ _).trans (known.told before member among)
  seated found := by
    rcases Table.found_of_insert found with ⟨_, rfl⟩ | ⟨_, before⟩
    · exact seated
    · exact known.seated before
  bounded peer := by
    have before := known.bounded peer
    rw [groupsOf_eq gathering tag peer] at before
    rw [groupsOf_eq _ tag peer]
    simp only [Gathering.announce, Table.elsewhere_insert,
      AList.lookup_insert, Option.toList_some, List.countP_singleton]
    split
    · next held => exact room peer held
    · exact (Nat.le_add_right _ _).trans before

/-- Where every group stands as it did, everyone knows what they knew. -/
theorem Knowing.of_same
    {after : Gathering} (same : ∀ other, after.groups.lookup other = gathering.groups.lookup other)
    (sameElsewhere : ∀ peer,
        after.groups.elsewhere tag (holds peer) = gathering.groups.elsewhere tag (holds peer))
    (sameRecord : after.record = gathering.record) :
    Knowing after where
  told found := by
    rw [sameRecord]
    exact known.told ((same _).symm.trans found)
  seated found := known.seated ((same _).symm.trans found)
  bounded peer := by
    rw [groupsOf_eq after tag peer, sameElsewhere peer, same tag, ← groupsOf_eq gathering tag peer]
    exact known.bounded peer

/-- A group that has emptied leaves the others as they were. -/
theorem Knowing.dissolve (tag : GroupTag) :
    Knowing (gathering.settle tag []) where
  told found := known.told (Table.found_of_erase found).2
  seated found := known.seated (Table.found_of_erase found).2
  bounded peer := by
    have before := known.bounded peer
    rw [groupsOf_eq gathering tag peer] at before
    rw [groupsOf_eq _ tag peer]
    simp only [settle, List.isEmpty_nil, if_true, Table.elsewhere_erase,
      AList.lookup_erase, Option.toList_none, List.countP_nil]
    exact (Nat.le_add_right _ _).trans before

end

theorem settle_elsewhere
    (gathering : Gathering) (tag : GroupTag) (members : List Member) (peer : PeerId) :
    (gathering.settle tag members).groups.elsewhere tag (holds peer) =
      gathering.groups.elsewhere tag (holds peer) := by
  unfold settle
  split <;> simp

/-- A group left to the members it has is as it was. -/
theorem Knowing.settle_roster (known : Knowing gathering) (tag other : GroupTag) :
    (gathering.settle tag (gathering.roster tag)).groups.lookup other =
      gathering.groups.lookup other := by
  unfold settle
  by_cases isTag : other = tag
  · subst isTag
    cases found : gathering.groups.lookup other with
    | none =>
      rw [roster_of_missing found]
      exact AList.lookup_erase other _
    | some members =>
      have occupied := (known.seated found).occupied
      rw [roster_of_lookup found, List.isEmpty_eq_false_iff.mpr occupied]
      exact AList.lookup_insert _
  · split
    · exact AList.lookup_erase_ne isTag
    · exact AList.lookup_insert_ne isTag

theorem Knowing.leave (known : Knowing gathering) (peer : PeerId) (tag : GroupTag) :
    Knowing (gathering.leave peer tag) := by
  have fewer : ((gathering.roster tag).filter (·.1 != peer)).Sublist (gathering.roster tag) :=
    List.filter_sublist
  unfold Gathering.leave
  dsimp only
  split
  · exact known
  split
  · exact known.dissolve tag
  next occupied =>
  refine known.announce ?_ ?_
  · cases found : gathering.groups.lookup tag with
    | none =>
      rw [roster_of_missing found] at occupied
      exact absurd rfl occupied
    | some members =>
      rw [roster_of_lookup found] at fewer occupied ⊢
      refine (known.seated found).sublist fewer ?_
      exact fun isEmpty => occupied (List.isEmpty_iff.mpr isEmpty)
  · intro other held
    exact known.room (holds_of_sublist fewer held)

theorem others_sublist (gathering : Gathering) (peer : PeerId) (key : Key) (tag : GroupTag) :
    (gathering.others peer key tag).Sublist (gathering.roster tag) :=
  List.filter_sublist

/-- Nobody is put aside for a session and key the group does not hold. -/
theorem others_eq_iff (gathering : Gathering) (peer : PeerId) (key : Key) (tag : GroupTag) :
    gathering.others peer key tag = gathering.roster tag ↔
      ∀ member ∈ gathering.roster tag, member.1 ≠ peer ∧ member.2.1 ≠ key := by
  simp [others, List.filter_eq_self]

/-- A join that is let in keeps everyone knowing. -/
theorem Knowing.admit
    (known : Knowing gathering) (admitted : ¬gathering.Refuses peer key tag) (mac : Bytes) :
    Knowing (gathering.announce tag (gathering.others peer key tag ++ [(peer, key, mac)])) := by
  obtain ⟨hasRoom, isFree⟩ := not_or.mp admitted
  obtain ⟨_, keys, sessions⟩ := known.roster_nodup tag
  have fewer := gathering.others_sublist peer key tag
  have apart : ∀ member ∈ gathering.others peer key tag, member.1 ≠ peer ∧ member.2.1 ≠ key := by
    intro member among
    have passes := (List.mem_filter.mp among).2
    simpa using passes
  refine known.announce ⟨?_, ?_, ?_, ?_⟩ ?_
  · exact List.append_ne_nil_of_right_ne_nil _ (List.cons_ne_nil _ _)
  · rw [List.length_append]
    exact Nat.lt_of_not_le hasRoom
  · rw [List.map_append]
    refine (keys.sublist (fewer.map _)).append (List.nodup_singleton _) ?_
    intro held among isKey
    obtain ⟨member, isMember, rfl⟩ := List.mem_map.mp among
    exact (apart member isMember).2 (List.mem_singleton.mp isKey)
  · rw [List.map_append]
    refine (sessions.sublist (fewer.map _)).append (List.nodup_singleton _) ?_
    intro held among isPeer
    obtain ⟨member, isMember, rfl⟩ := List.mem_map.mp among
    exact (apart member isMember).1 (List.mem_singleton.mp isPeer)
  · intro other held
    obtain ⟨member, among, rfl⟩ := holds_iff.mp held
    rcases List.mem_append.mp among with isOld | isNew
    · exact known.room (holds_of_sublist fewer (holds_iff.mpr ⟨member, isOld, rfl⟩))
    · rw [List.mem_singleton.mp isNew]
      exact Nat.lt_of_not_le isFree

/-! ### A join refused -/

/-- A join that its session's other groups rule out finds neither its session
nor its key in the group. -/
def Unforced
    (gathering : Gathering)
    (peer : PeerId)
    (key : Key)
    (tag : GroupTag) :
    Prop :=
  maxGroups ≤ gathering.groups.elsewhere tag (holds peer) →
    ∀ member ∈ gathering.roster tag, member.1 ≠ peer ∧ member.2.1 ≠ key

instance
    (gathering : Gathering)
    (peer : PeerId)
    (key : Key)
    (tag : GroupTag) :
    Decidable (gathering.Unforced peer key tag) := by
  unfold Unforced
  infer_instance

/-- A group too full for a join has nobody to put aside for it. -/
theorem Knowing.others_of_full
    (known : Knowing gathering) (full : maxGroupMembers ≤ (gathering.others peer key tag).length) :
    gathering.others peer key tag = gathering.roster tag :=
  (gathering.others_sublist peer key tag).eq_of_length_le ((known.roster_nodup tag).1.trans full)

theorem Knowing.others_of_refused
    (known : Knowing gathering) (unforced : gathering.Unforced peer key tag)
    (refused : gathering.Refuses peer key tag) :
    gathering.others peer key tag = gathering.roster tag := by
  rcases refused with full | many
  · exact known.others_of_full full
  · exact (gathering.others_eq_iff peer key tag).mpr (unforced many)

theorem Knowing.join
    (known : Knowing gathering) (unforced : gathering.Unforced peer key tag) (mac : Bytes) :
    Knowing (gathering.join peer key tag mac) := by
  unfold Gathering.join
  split
  · next refused =>
      rw [known.others_of_refused unforced refused]
      exact known.of_same (known.settle_roster tag) (gathering.settle_elsewhere tag _) rfl
  · next admitted => exact known.admit admitted mac

/-- A refused join that puts somebody aside changes the group. -/
theorem others_of_settle
    (same : (gathering.settle tag (gathering.others peer key tag)).groups.lookup tag =
        gathering.groups.lookup tag) :
    gathering.others peer key tag = gathering.roster tag := by
  unfold settle at same
  split at same
  · next isEmpty =>
      rw [AList.lookup_erase] at same
      rw [roster_of_missing same.symm]
      exact List.isEmpty_iff.mp isEmpty
  · rw [AList.lookup_insert] at same
    exact (roster_of_lookup same.symm).symm

end

end Gathering

/-! ### The rendezvous -/

/-- What moves groups at a rendezvous. -/
inductive GroupCall where
  | join (peer : PeerId) (key : Key) (tag : GroupTag) (mac : Bytes)
    (nowMs : Nat)
  | leave (peer : PeerId) (tag : GroupTag) (nowMs : Nat)
  | forget (peer : PeerId) (moment : Rendezvous.Moment)

namespace Rendezvous

variable {ω : Type*} (env : Env ω)

/-- The groups of a rendezvous, and what its sessions were sent. -/
def gathering (rendezvous : Rendezvous ω) : Gathering :=
  ⟨rendezvous.groups, rendezvous.record⟩

def call (rendezvous : Rendezvous ω) : GroupCall → Rendezvous ω
  | .join peer key tag mac nowMs =>
      join env rendezvous peer key tag mac nowMs
  | .leave peer tag nowMs =>
      leave env rendezvous peer tag nowMs
  | .forget peer moment =>
      forget env rendezvous peer moment

variable (rendezvous : Rendezvous ω) (peer : PeerId) (tag : GroupTag)

/-- Messages sent one after another are recorded so. -/
theorem gathering_foldl_send (members : List Member) (control : Control) (nowMs : Nat) :
    (members.foldl (fun rendezvous (peer, _, _) =>
          send env rendezvous peer control nowMs)
        rendezvous).gathering =
      ⟨rendezvous.groups,
        rendezvous.record ++ members.map fun (peer, _, _) => (peer, control)⟩ := by
  induction members generalizing rendezvous with
  | nil => simp [gathering]
  | cons member rest inductionHypothesis =>
    rw [List.foldl_cons, inductionHypothesis]
    simp [send]

/-- A group that was just filed is told. -/
theorem gathering_tellGroup (members : List Member) (nowMs : Nat) :
    (tellGroup env { rendezvous with groups := rendezvous.groups.insert tag members }
        tag nowMs).gathering =
      rendezvous.gathering.announce tag members := by
  unfold tellGroup
  rw [AList.lookup_insert]
  exact gathering_foldl_send env _ members _ nowMs

/-- The code's count of a session's other groups. -/
theorem elsewhere_gathering :
    (rendezvous.groups.entries.countP fun ⟨other, members⟩ =>
        other != tag && members.any (·.1 == peer)) =
      rendezvous.gathering.groups.elsewhere tag (Gathering.holds peer) := by
  apply List.countP_congr
  intro entry _
  simp [Gathering.holds]

theorem gathering_join (key : Key) (tag : GroupTag) (mac : Bytes) (nowMs : Nat) :
    (join env rendezvous peer key tag mac nowMs).gathering =
      rendezvous.gathering.join peer key tag mac := by
  unfold join Gathering.join
  dsimp only
  rw [elsewhere_gathering]
  simp only [Bool.or_eq_true, decide_eq_true_eq]
  split
  · next refused =>
      have refused : rendezvous.gathering.Refuses peer key tag := refused
      rw [if_pos refused]
      rfl
  next admitted =>
  have admitted : ¬rendezvous.gathering.Refuses peer key tag := admitted
  rw [if_neg admitted]
  exact gathering_tellGroup env rendezvous tag _ nowMs

theorem gathering_leave (nowMs : Nat) :
    (leave env rendezvous peer tag nowMs).gathering = rendezvous.gathering.leave peer tag := by
  unfold leave Gathering.leave
  cases found : rendezvous.groups.lookup tag with
  | none =>
    have isEmpty : rendezvous.gathering.roster tag = [] := Gathering.roster_of_missing found
    rw [isEmpty]
    rfl
  | some members =>
    have isRoster : rendezvous.gathering.roster tag = members := Gathering.roster_of_lookup found
    rw [isRoster]
    dsimp only
    split
    · rfl
    · split
      · rfl
      · exact gathering_tellGroup env rendezvous tag _ nowMs

/-- A session that is forgotten leaves one group after another. -/
theorem knowing_foldl_leave {rendezvous : Rendezvous ω} (known : rendezvous.gathering.Knowing)
    (peer : PeerId) (nowMs : Nat) (tags : List GroupTag) :
    (tags.foldl (fun rendezvous tag => leave env rendezvous peer tag nowMs)
        rendezvous).gathering.Knowing := by
  induction tags generalizing rendezvous with
  | nil => exact known
  | cons tag rest inductionHypothesis =>
    refine inductionHypothesis ?_
    rw [gathering_leave]
    exact known.leave peer tag

theorem knowing_forget {rendezvous : Rendezvous ω} (known : rendezvous.gathering.Knowing)
    (peer : PeerId) (moment : Moment) :
    (forget env rendezvous peer moment).gathering.Knowing := by
  unfold forget
  apply knowing_foldl_leave
  split <;> exact known

/-! ### Every sequence of calls -/

/-- A join refused for a bound leaves the group as it was. -/
def Undisturbed (rendezvous : Rendezvous ω) : GroupCall → Prop
  | .join peer key tag mac nowMs =>
      rendezvous.gathering.Refuses peer key tag →
        (join env rendezvous peer key tag mac nowMs).groups.lookup tag =
          rendezvous.groups.lookup tag
  | _ =>
      True

/-- No session that is in all the groups it may be in joins a group that
holds its key. -/
def Unforced (rendezvous : Rendezvous ω) : GroupCall → Prop
  | .join peer key tag _ _ =>
      rendezvous.gathering.Unforced peer key tag
  | _ =>
      True

variable {env}

theorem call_knowing
    {rendezvous : Rendezvous ω} {group : GroupCall} (known : rendezvous.gathering.Knowing)
    (unforced : rendezvous.Unforced group) :
    (call env rendezvous group).gathering.Knowing := by
  cases group with
  | join peer key tag mac nowMs =>
    change (join env rendezvous peer key tag mac nowMs).gathering.Knowing
    rw [gathering_join]
    exact known.join unforced mac
  | leave peer tag nowMs =>
    change (leave env rendezvous peer tag nowMs).gathering.Knowing
    rw [gathering_leave]
    exact known.leave peer tag
  | forget peer moment => exact knowing_forget env known peer moment

/-- A refused join leaves the group to those it did not put aside. -/
theorem lookup_of_refused {rendezvous : Rendezvous ω} {peer : PeerId} {key : Key} {tag : GroupTag}
    (refused : rendezvous.gathering.Refuses peer key tag) (mac : Bytes) (nowMs : Nat) :
    (join env rendezvous peer key tag mac nowMs).groups =
      (rendezvous.gathering.settle tag (rendezvous.gathering.others peer key tag)).groups := by
  have joined := gathering_join env rendezvous peer key tag mac nowMs
  unfold Gathering.join at joined
  rw [if_pos refused] at joined
  exact congrArg Gathering.groups joined

theorem undisturbed_of_unforced
    {rendezvous : Rendezvous ω} {group : GroupCall} (known : rendezvous.gathering.Knowing)
    (unforced : rendezvous.Unforced group) :
    Undisturbed env rendezvous group := by
  cases group with
  | join peer key tag mac nowMs =>
    intro refused
    rw [lookup_of_refused refused, known.others_of_refused unforced refused]
    exact known.settle_roster tag tag
  | leave | forget => exact trivial

theorem unforced_of_undisturbed {rendezvous : Rendezvous ω} {group : GroupCall}
    (undisturbed : Undisturbed env rendezvous group) :
    rendezvous.Unforced group := by
  cases group with
  | join peer key tag mac nowMs =>
    intro many
    have same := undisturbed (Or.inr many)
    rw [lookup_of_refused (Or.inr many)] at same
    exact (Gathering.others_eq_iff _ peer key tag).mp (Gathering.others_of_settle same)
  | leave | forget => exact trivial

theorem knowing_of_no_groups (record : List (PeerId × Control)) :
    Gathering.Knowing ⟨∅, record⟩ where
  told found := nomatch found
  seated found := nomatch found
  bounded _ := Nat.zero_le _

/-- In every sequence of joins, leaves and forgotten sessions, the members of
every group know it after each call and a join refused for a bound changes
nothing, exactly when no session that is in all the groups it may be in joins
a group that holds its key. -/
theorem group_knows_itself_iff
    (env : Env ω)
    (rendezvous : Rendezvous ω)
    (calls : List GroupCall) :
    Execution.Admits (call env) Unforced
        { rendezvous with groups := ∅ } calls ↔
      Execution.Admits (call env)
        (fun before group =>
          (call env before group).gathering.Knowing ∧
            Undisturbed env before group)
        { rendezvous with groups := ∅ } calls := by
  have initially : ({ rendezvous with groups := ∅ } :
        Rendezvous ω).gathering.Knowing :=
    knowing_of_no_groups rendezvous.record
  generalize ({ rendezvous with groups := ∅ } : Rendezvous ω) = start
    at initially ⊢
  induction calls generalizing start with
  | nil =>
      exact Iff.rfl
  | cons group rest inductionHypothesis =>
      constructor
      · rintro ⟨unforced, later⟩
        have known := @call_knowing _ env _ _ initially unforced
        exact ⟨⟨known, undisturbed_of_unforced initially unforced⟩,
          (inductionHypothesis _ known).mp later⟩
      · rintro ⟨⟨known, undisturbed⟩, later⟩
        exact ⟨unforced_of_undisturbed undisturbed,
          (inductionHypothesis _ known).mpr later⟩

/-! ### A join that is forced -/

/-- The groups and the messages of joins depend on nothing else. -/
theorem gathering_run_joins
    (env : Env ω) (rendezvous : Rendezvous ω) (joins : List (PeerId × Key × GroupTag × Bytes)) :
    (Execution.run (call env) rendezvous (joins.map fun (peer, key, tag, mac) =>
          .join peer key tag mac 0)).gathering =
      joins.foldl (fun gathering (peer, key, tag, mac) =>
          gathering.join peer key tag mac)
        rendezvous.gathering := by
  induction joins generalizing rendezvous with
  | nil => rfl
  | cons first rest inductionHypothesis =>
    rw [List.map_cons, Execution.run_cons, inductionHypothesis, List.foldl_cons]
    congr 1
    exact gathering_join env rendezvous _ _ _ _ _

/-- Two keys meet in a group, and one of them comes back under another session
and joins as many other groups as it may. -/
def reconnect : List (PeerId × Key × GroupTag × Bytes) :=
  [(1, [1], [0], [10]), (2, [2], [0], [20])] ++
    [1, 2, 3, 4, 5, 6, 7, 8].map fun tag => (3, [1], [tag], [30])

/-- The groups when it has done so. -/
def crowded : Gathering :=
  reconnect.foldl
    (fun gathering (peer, key, tag, mac) => gathering.join peer key tag mac)
    ⟨∅, []⟩

/-- When it joins the first group again it is refused, but its old entry is
gone, and the one still there was last told of both: at every rendezvous without
groups, however its sends go. -/
theorem refused_join_drops_member :
    crowded.Refuses 3 [1] [0] ∧
      crowded.groups.lookup [0] = some [(1, [1], [10]), (2, [2], [20])] ∧
      (crowded.join 3 [1] [0] [30]).groups.lookup [0] =
        some [(2, [2], [20])] ∧
      Gathering.lastMembers (crowded.join 3 [1] [0] [30]).record 2 [0] =
        some [([1], [10]), ([2], [20])] ∧
      ∀ (env : Env Unit) (rendezvous : Rendezvous Unit),
        let full :=
          Execution.run (call env)
            { rendezvous with groups := ∅, record := [] }
            (reconnect.map fun (peer, key, tag, mac) =>
              .join peer key tag mac 0)
        full.gathering = crowded ∧
          (call env full (.join 3 [1] [0] [30] 0)).gathering =
            crowded.join 3 [1] [0] [30] := by
  refine ⟨by decide +kernel, by decide +kernel, by decide +kernel,
    by decide +kernel, ?_⟩
  intro env rendezvous full
  have reached : full.gathering = crowded := gathering_run_joins env _ reconnect
  refine ⟨reached, ?_⟩
  rw [← reached]
  exact gathering_join env full 3 [1] [0] [30] 0

end Rendezvous

end Fectp
