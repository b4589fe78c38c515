import Fectp.Endpoint.Openings
import Fectp.Introductions.Course

namespace Fectp

/-!
# What a step of a client consists of

A client's step is a chain of small changes.  Each moves one introduction on,
or touches none; the list of a group's members changes in a way of its own, and
the rendezvous may be lost.  What a change may count on is a parameter: which
stages may be given up while which handshakes are under way, and which sessions
something is sent for.
-/

open Relation (ReflTransGen)

open Endpoint (Dwindles Begins)

/-- What is done is no introduction's, and a session's only if it is linked. -/
def Cause.Aside (Linked : PeerId → Prop) : Cause → Prop
  | .caller => True
  | .ask _ => False
  | .link peer => Linked peer

variable {peer : PeerId} {moment : Moment}

namespace ClientEndpoint

variable {ω : Type*}

/-- The stage of each introduction. -/
def stages (client : ClientEndpoint ω) (key : Key) : Option Stage :=
  (client.asks.lookup key).map Ask.stage

/-- What was done for something. -/
def acts (client : ClientEndpoint ω) (cause : Cause) : List Act :=
  (client.record.filter (·.1 == cause)).map Prod.snd

/-- The stages are these now, and so much was done; the rest stays. -/
structure Changes
    (before after : ClientEndpoint ω)
    (stages : Key → Option Stage)
    (noted : List (Cause × Act)) :
    Prop where
  stages : after.stages = stages
  record : after.record = before.record ++ noted
  groups : after.groups = before.groups
  rendezvous : after.rendezvous = before.rendezvous

theorem Changes.trans {first second third : ClientEndpoint ω}
    {between stages : Key → Option Stage} {noted more : List (Cause × Act)}
    (earlier : Changes first second between noted) (later : Changes second third stages more) :
    Changes first third stages (noted ++ more) where
  stages := later.stages
  record := by rw [later.record, earlier.record, List.append_assoc]
  groups := later.groups.trans earlier.groups
  rendezvous := later.rendezvous.trans earlier.rendezvous

/-- A small change. -/
inductive Atom
    (Free : Stage → Table PeerId Outbound → Prop)
    (Linked : PeerId → Prop)
    (env : ClientEnv ω)
    (before after : ClientEndpoint ω) :
    Prop where
  | apart {noted : List (Cause × Act)} :
      (∀ entry ∈ noted, entry.1.Aside Linked) →
      Changes before after before.stages noted →
      Dwindles before.driver.endpoint after.driver.endpoint →
      Atom Free Linked env before after
  | moved {key : Key} {old : Stage} {new : Option Stage} {acts : List Act} :
      before.stages key = some old →
      Course.Move (Free · before.driver.endpoint.outbound)
        before.driver.endpoint.nextId old new acts false →
      Changes before after (Function.update before.stages key new)
        (acts.map (.ask key, ·)) →
      Dwindles before.driver.endpoint after.driver.endpoint →
      Atom Free Linked env before after
  | begun {key : Key} {old : Stage} {new : Option Stage} {acts : List Act} :
      before.stages key = some old →
      Course.Move (Free · before.driver.endpoint.outbound)
        before.driver.endpoint.nextId old new acts true →
      Changes before after (Function.update before.stages key new)
        (acts.map (.ask key, ·)) →
      Begins before.driver.endpoint after.driver.endpoint (some key) →
      Atom Free Linked env before after
  /-- A group's members are listed. -/
  | listed (tag : GroupTag) (list : List (Key × Bytes)) :
      after = onMembers env before tag list →
      Atom Free Linked env before after
  /-- The rendezvous is gone. -/
  | lost :
      before.rendezvous.isSome →
      after.rendezvous = none →
      after.stages = before.stages →
      after.record = before.record →
      after.driver = before.driver →
      Atom Free Linked env before after

theorem raise_foldl (tag : GroupTag) (keys : List Key) (client : ClientEndpoint ω) :
    keys.foldl (fun client key => client.raise (.peerDiscovered key tag)) client =
      client.withEndpoint { client.driver.endpoint with
          events :=
            client.driver.endpoint.events ++ keys.map (.peerDiscovered · tag) } := by
  induction keys generalizing client with
  | nil => simp [withEndpoint]
  | cons key rest inductionHypothesis =>
    rw [List.foldl_cons, inductionHypothesis]
    simp [raise, withEndpoint]

/-- A list touches its group's entry, and announces keys of the group. -/
theorem onMembers_eq (env : ClientEnv ω) (client : ClientEndpoint ω) (tag : GroupTag)
    (list : List (Key × Bytes)) :
    ∃ (groups : Table GroupTag Group) (keys : List Key),
      onMembers env client tag list = withEndpoint { client with groups := groups }
        { client.driver.endpoint with
          events := client.driver.endpoint.events ++ keys.map (.peerDiscovered · tag) } ∧
      ∀ other ≠ tag, groups.lookup other = client.groups.lookup other := by
  unfold onMembers
  split
  · exact ⟨client.groups, [], by simp [withEndpoint], fun _ _ => rfl⟩
  · rw [raise_foldl]
    exact ⟨_, _, rfl, fun _ different => AList.lookup_insert_ne different⟩

variable {Free : Stage → Table PeerId Outbound → Prop} {Linked : PeerId → Prop}
  {env : ClientEnv ω}

variable {after : ClientEndpoint ω}

theorem Atom.rendezvous {before : ClientEndpoint ω} (atom : Atom Free Linked env before after) :
    after.rendezvous = before.rendezvous ∨ after.rendezvous = none := by
  cases atom with
  | apart _ changes _ | moved _ _ changes _ | begun _ _ changes _ => exact Or.inl changes.rendezvous
  | listed tag list isAfter =>
    obtain ⟨_, _, same, _⟩ := onMembers_eq env before tag list
    rw [isAfter, same]
    exact Or.inl rfl
  | lost _ gone _ _ _ => exact Or.inr gone

/-- What touches no introduction, and does nothing that is recorded. -/
theorem Atom.same {before : ClientEndpoint ω} (asks : after.asks = before.asks)
    (record : after.record = before.record) (groups : after.groups = before.groups)
    (rendezvous : after.rendezvous = before.rendezvous)
    (dwindles : Dwindles before.driver.endpoint after.driver.endpoint) :
    Atom Free Linked env before after := by
  refine .apart (List.forall_mem_nil _) ⟨?_, ?_, groups, rendezvous⟩ dwindles
  · funext key
    unfold stages
    rw [asks]
  · rw [record, List.append_nil]

section

variable {client after : ClientEndpoint ω} {key : Key} {old : Stage}

theorem stages_of_ask {ask : Ask} (isAsk : client.asks.lookup key = some ask) :
    client.stages key = some ask.stage := by
  unfold stages
  rw [isAsk]
  rfl

theorem setStage_stages (isOld : client.stages key = some old) (stage : Stage) :
    (client.setStage key stage).stages = Function.update client.stages key (some stage) := by
  obtain ⟨ask, isAsk, _⟩ := Option.map_eq_some_iff.mp isOld
  funext other
  unfold stages setStage
  rw [Table.lookup_update, Function.update_apply]
  split
  · rw [isAsk]
    rfl
  · rfl

theorem stages_update {ask : Option Ask}
    (lookup : (fun other => after.asks.lookup other) =
        Function.update (fun other => client.asks.lookup other) key ask) :
    after.stages = Function.update client.stages key (ask.map Ask.stage) := by
  funext other
  have found : after.asks.lookup other = _ := congrFun lookup other
  unfold stages
  rw [found, Function.update_apply, Function.update_apply]
  split <;> rfl

/-- A request that may be given up is dropped. -/
theorem Atom.dropped {ask : Ask} (isAsk : client.asks.lookup key = some ask)
    (free : Free ask.stage client.driver.endpoint.outbound)
    (asks : after.asks = client.asks.erase key) (record : after.record = client.record)
    (groups : after.groups = client.groups) (rendezvous : after.rendezvous = client.rendezvous)
    (dwindles : Dwindles client.driver.endpoint after.driver.endpoint) :
    Atom Free Linked env client after := by
  refine .moved (stages_of_ask isAsk) (.dropped free) ⟨?_, ?_, groups, rendezvous⟩ dwindles
  · exact @stages_update _ client after key none (asks ▸ Table.lookup_erase _ _)
  · rw [record, List.map_nil, List.append_nil]

end

/-! ### Requests that end -/

section

variable {client : ClientEndpoint ω} {key : Key}

/-- A request fails for what was done about it. -/
theorem Atom.failed {sent : ClientEndpoint ω} {old stage : Stage} {acts : List Act}
    (isOld : client.stages key = some old)
    (changes : Changes client sent (Function.update client.stages key (some stage))
        (acts.map (.ask key, ·)))
    (move : Course.Move (Free · client.driver.endpoint.outbound) client.driver.endpoint.nextId old
        none acts false)
    (dwindles : Dwindles client.driver.endpoint sent.driver.endpoint) (reason : Unavailable) :
    Atom Free Linked env client (sent.failIntroduction key reason) := by
  have isStage : sent.stages key = some stage := by
    rw [changes.stages, Function.update_self]
  obtain ⟨ask, isAsk, _⟩ := Option.map_eq_some_iff.mp isStage
  unfold failIntroduction
  rw [isAsk]
  refine .moved isOld move ⟨?_, changes.record, changes.groups, changes.rendezvous⟩ ?_
  · have gone : Function.update sent.stages key none = Function.update client.stages key none := by
      rw [changes.stages, Function.update_idem]
    rw [← gone]
    exact @stages_update _ sent _ key none (Table.lookup_erase _ _)
  · refine dwindles.trans (.of_queued rfl rfl rfl rfl fun event member => ?_)
    rw [List.mem_singleton.mp member]
    rfl

/-- A stage that may be given up. -/
def MayGo (Free : Stage → Table PeerId Outbound → Prop) (client : ClientEndpoint ω) (key : Key) :
    Prop :=
  ∀ stage, client.stages key = some stage → Free stage client.driver.endpoint.outbound

theorem failIntroduction_atoms (free : client.MayGo Free key) (reason : Unavailable) :
    ReflTransGen (Atom Free Linked env) client (client.failIntroduction key reason) := by
  unfold failIntroduction
  split
  · exact .refl
  next isAsk =>
  refine .single (.dropped isAsk (free _ (stages_of_ask isAsk)) rfl rfl rfl rfl ?_)
  exact .of_queued rfl rfl rfl rfl fun event member => by
    rw [List.mem_singleton.mp member]
    rfl

theorem failIntroduction_mayGo {other : Key} (free : client.MayGo Free other)
    (reason : Unavailable) :
    (client.failIntroduction key reason).MayGo Free other := by
  unfold failIntroduction
  split
  · exact free
  intro stage isStage
  obtain ⟨ask, isAsk, isStage⟩ := Option.map_eq_some_iff.mp isStage
  refine free stage ?_
  rw [stages_of_ask (Table.found_of_erase isAsk).2, isStage]

theorem failAll_atoms {keys : List Key} (free : ∀ key ∈ keys, client.MayGo Free key) :
    ReflTransGen (Atom Free Linked env) client (client.failAll keys) := by
  induction keys generalizing client with
  | nil => exact .refl
  | cons key rest inductionHypothesis =>
    refine (failIntroduction_atoms (free key List.mem_cons_self) .unreachable).trans
      (inductionHypothesis ?_)
    intro other member
    exact failIntroduction_mayGo (free other (List.mem_cons_of_mem _ member)) _

theorem loseRendezvous_atoms (isSome : client.rendezvous.isSome)
    (free : ∀ key ∈ client.asks.keys, client.MayGo Free key) (moment : Moment) :
    ReflTransGen (Atom Free Linked env) client (client.loseRendezvous moment) := by
  refine .trans ?_ (failAll_atoms ?_)
  · exact .single (.lost isSome rfl rfl rfl rfl)
  · intro key member
    exact free key ((moment.keys.perm _).mem_iff.mp member)

/-- A session with a key ends the request for it. -/
theorem onConnected_atoms
    (free : ∀ entry, client.driver.endpoint.peers.lookup peer = some entry →
        client.MayGo Free entry.peer.session.remoteStatic)
    (nowMs : Nat) :
    ReflTransGen (Atom Free Linked env) client (client.onConnected peer nowMs) := by
  unfold onConnected
  split
  · exact .refl
  next entry found =>
  dsimp only
  split
  · exact .refl
  next ask isAsk =>
  have isFree := free entry found _ (stages_of_ask isAsk)
  split
  · split
    · exact .single (.dropped isAsk isFree rfl rfl rfl rfl (.of_same rfl rfl rfl rfl))
    · exact .single (.dropped isAsk isFree rfl rfl rfl rfl (.refl _))
  · exact .single (.dropped isAsk isFree rfl rfl rfl rfl (.refl _))

end

/-! ### What the rendezvous says -/

section

variable (env : ClientEnv ω) (client : ClientEndpoint ω) (key : Key) (addr : SocketAddr)
  (moment : Moment)

theorem tellRendezvous_changes (control : Control) (nowMs : Nat) :
    Changes client (tellRendezvous env client control nowMs) client.stages [] ∧
      Dwindles client.driver.endpoint (tellRendezvous env client control nowMs).driver.endpoint := by
  unfold tellRendezvous
  split
  · exact ⟨⟨rfl, (List.append_nil _).symm, rfl, rfl⟩, .refl _⟩
  · exact ⟨⟨rfl, (List.append_nil _).symm, rfl, rfl⟩, Endpoint.sendReliable_dwindles ..⟩

theorem tellRendezvous_atom (control : Control) (nowMs : Nat) :
    Atom Free Linked env client (tellRendezvous env client control nowMs) := by
  obtain ⟨changes, dwindles⟩ := tellRendezvous_changes env client control nowMs
  exact .apart (List.forall_mem_nil _) changes dwindles

theorem onObserved_atoms :
    ReflTransGen (Atom Free Linked env) client (onObserved env client addr moment) := by
  unfold onObserved
  dsimp only
  split
  · exact .single (.same rfl rfl rfl rfl (.refl _))
  · refine List.foldlRecOn _ _ ?_ fun client atoms control _ =>
      atoms.tail (tellRendezvous_atom env client control moment.nowMs)
    exact .single (.same rfl rfl rfl rfl (.refl _))

end

section

variable {client after : ClientEndpoint ω} {key : Key} {addr : SocketAddr} {moment : Moment}

/-- A handshake is begun, or not; it is on the record either way. -/
theorem connect_spec {cause : Cause} {result : Except Error PeerId}
    (connects : connect env client cause addr key moment = (result, after)) :
    Changes client after client.stages [(cause, .begins addr)] ∧
      ((∃ error, result = .error error ∧ Dwindles client.driver.endpoint after.driver.endpoint) ∨
        result = .ok client.driver.endpoint.nextId ∧
          Begins client.driver.endpoint after.driver.endpoint (some key)) := by
  rcases isConnected :
      Endpoint.connectAndSend env.toEnv client.driver.endpoint addr
        (some key) [] moment.sessionId moment.random moment.nowMs with
    ⟨outcome, endpoint⟩
  unfold connect at connects
  rw [isConnected] at connects
  cases connects
  exact ⟨⟨rfl, rfl, rfl, rfl⟩, Endpoint.connectAndSend_begins isConnected⟩

section

variable {sent : ClientEndpoint ω} {old : Stage} {acts : List Act} {socket : ω}
  (isOld : client.stages key = some old)
  (changes : Changes client sent client.stages (acts.map (.ask key, ·)))
  (endpoint : sent.driver.endpoint = { client.driver.endpoint with socket := socket })

include isOld changes endpoint

/-- What was sent is followed by a handshake. -/
theorem begun_atom {new : Stage}
    (connects : connect env sent (.ask key) addr key moment = (.ok peer, after))
    (move : Course.Move (Free · client.driver.endpoint.outbound) peer old (some new)
        (acts ++ [.begins addr]) true) :
    Atom Free Linked env client (after.setStage key new) := by
  obtain ⟨connected, ⟨_, isError, _⟩ | ⟨isOk, begins⟩⟩ := connect_spec connects
  · cases isError
  have isPeer : peer = client.driver.endpoint.nextId := by
    cases isOk
    rw [endpoint]
  have whole := changes.trans connected
  have same := whole.stages.trans changes.stages
  rw [endpoint] at begins
  refine .begun isOld (isPeer ▸ move) ⟨?_, ?_, whole.groups, whole.rendezvous⟩
    ⟨begins.outbound, begins.nextId, begins.events, begins.mode⟩
  · rw [setStage_stages (same ▸ isOld), same]
  · rw [List.map_append]
    exact whole.record

/-- What was sent was for nothing. -/
theorem unbegun_atom {error : Error}
    (connects : connect env sent (.ask key) addr key moment = (.error error, after))
    (move : Course.Move (Free · client.driver.endpoint.outbound) client.driver.endpoint.nextId old
        none (acts ++ [.begins addr]) false) :
    Atom Free Linked env client (after.failIntroduction key .unreachable) := by
  obtain ⟨connected, ⟨_, _, dwindles⟩ | ⟨isOk, _⟩⟩ := connect_spec connects
  · have whole := changes.trans connected
    have sends : Dwindles client.driver.endpoint sent.driver.endpoint := by
      rw [endpoint]
      exact .of_same rfl rfl rfl rfl
    have kept : Changes client after (Function.update client.stages key (some old))
        ((acts ++ [Act.begins addr]).map (.ask key, ·)) := by
      rw [← isOld, Function.update_eq_self, List.map_append]
      exact ⟨whole.stages.trans changes.stages, whole.record, whole.groups, whole.rendezvous⟩
    exact .failed isOld kept move (sends.trans dwindles) _
  · cases isOk

end

/-- The address named is punched, and one side connects to it. -/
theorem onIntroduction_atoms :
    ReflTransGen (Atom Free Linked env) client (onIntroduction env client key addr moment) := by
  unfold onIntroduction
  dsimp only
  split
  · exact .refl
  next isActedOn =>
  obtain ⟨ask, isAsk, isAsked⟩ : ∃ ask, client.asks.lookup key = some ask ∧ ask.stage = .asked := by
    simp only [Bool.or_eq_true, not_or, Bool.not_eq_true, Bool.not_eq_false',
      Option.any_eq_true, beq_iff_eq] at isActedOn
    exact isActedOn.1
  have isOld := isAsked ▸ stages_of_ask isAsk
  have punched : Changes client
      (sendRaw env (client.note (.ask key) (.told addr)) (.ask key) [notAFrame, punchByte] addr
        moment.nowMs)
      client.stages
      ([.told addr, .sends [notAFrame, punchByte] addr].map (.ask key, ·)) :=
    ⟨rfl, List.append_assoc _ _ _, rfl, rfl⟩
  split
  · split
    · next connects =>
        exact .single (unbegun_atom isOld punched rfl connects (.unreached addr))
    · next connects =>
        exact .single (begun_atom isOld punched rfl connects (.connects addr))
  · exact .single (.moved isOld (.awaits addr)
      ⟨setStage_stages isOld _, punched.record, rfl, rfl⟩ (.of_same rfl rfl rfl rfl))

theorem onRelayOffer_atoms {port : SocketAddr} {token : Bytes} {nowMs : Nat}
    (free : ∀ outbound relayAsked, client.stages key = some (.introduced outbound relayAsked) →
        client.MayGo Free key) :
    ReflTransGen (Atom Free Linked env) client (client.onRelayOffer key port token nowMs) := by
  unfold onRelayOffer
  split
  · next isAsk =>
      have isOld := stages_of_ask isAsk
      exact .single (.moved isOld (.offered (free _ _ isOld _ isOld))
        ⟨setStage_stages isOld _, rfl, rfl, rfl⟩ (.of_same rfl rfl rfl rfl))
  · exact .refl

/-! ### Events -/

theorem onOwnFailure_atoms (free : client.MayGo Free key) (nowMs : Nat) :
    ReflTransGen (Atom Free Linked env) client (onOwnFailure env client key nowMs) := by
  unfold onOwnFailure
  split
  · next isAsk =>
      have isOld := stages_of_ask isAsk
      refine .tail (.single ?_) (tellRendezvous_atom env _ _ nowMs)
      exact .moved isOld .relayAsked
        ⟨setStage_stages isOld _, (List.append_nil _).symm, rfl, rfl⟩ (.refl _)
  · exact failIntroduction_atoms free _

end

/-- The introductions an event takes from their handshakes. -/
def taken (client : ClientEndpoint ω) : Event → List Key
  | .connected peer _ _ _ =>
      if client.rendezvous = some peer then
        []
      else
        (client.driver.endpoint.peers.lookup peer).toList.map
          (·.peer.session.remoteStatic)
  | .message peer data =>
      if client.rendezvous = some peer then
        match Control.decode data with
        | some (.unavailable key _) =>
            [key]
        | some (.relayOffer key _ _) =>
            -- One that comes too early, or again, is ignored.
            match client.stages key with
            | some (.introduced _ _) => [key]
            | _ => []
        | _ =>
            []
      else
        []
  | .connectFailed peer | .peerLost peer =>
      if client.rendezvous = some peer then client.asks.keys else []
  | _ =>
      []

/-- What an event takes from its handshake may go, and what has failed. -/
structure Spared
    (Free : Stage → Table PeerId Outbound → Prop)
    (client : ClientEndpoint ω)
    (event : Event) :
    Prop where
  taken : ∀ key ∈ client.taken event, client.MayGo Free key
  failed : ∀ peer key stage,
      event = .connectFailed peer →
      client.stages key = some stage →
      stage.outbound? = some peer →
      Free stage client.driver.endpoint.outbound

theorem owner_spec {client : ClientEndpoint ω} {key : Key}
    (isOwner : client.owner peer moment = some key) :
    ∃ stage, client.stages key = some stage ∧ stage.outbound? = some peer := by
  have holds := List.find?_some isOwner
  obtain ⟨ask, isAsk, isHandle⟩ := (Option.any_eq_true _ _).mp holds
  exact ⟨ask.stage, stages_of_ask isAsk, beq_iff_eq.mp isHandle⟩

theorem intercept_atoms {client : ClientEndpoint ω} {event : Event} (spared : client.Spared Free event)
    (moment : Moment) :
    ReflTransGen (Atom Free Linked env) client (intercept env client event moment).2 := by
  have taken := spared.taken
  unfold ClientEndpoint.taken at taken
  unfold intercept
  split
  · split
    · exact .single (tellRendezvous_atom env client _ _)
    next different =>
    refine onConnected_atoms ?_ _
    intro entry found
    refine taken _ ?_
    dsimp only
    rw [if_neg different, found]
    exact List.mem_singleton_self _
  · split
    · next isRendezvous =>
        split
        · exact .refl
        next control decodes =>
        dsimp only at taken
        rw [if_pos isRendezvous, decodes] at taken
        cases control with
        | observed addr => exact onObserved_atoms env client addr moment
        | unavailable key reason =>
          exact failIntroduction_atoms (taken key (List.mem_singleton_self _)) _
        | introduction key addr => exact onIntroduction_atoms
        | relayOffer key port token =>
          refine onRelayOffer_atoms ?_
          intro outbound relayAsked isOld
          dsimp only at taken
          rw [isOld] at taken
          exact taken key (List.mem_singleton_self _)
        | members tag list => exact .single (.listed tag list rfl)
        | register | introduce | relay | join | leave => exact .refl
    · exact .refl
  · next peer =>
      split
      · next isRendezvous =>
          dsimp only at taken
          rw [if_pos isRendezvous] at taken
          exact loseRendezvous_atoms (Option.isSome_of_eq_some isRendezvous) taken moment
      · split
        · exact .refl
        next key isOwner =>
        refine onOwnFailure_atoms ?_ _
        intro stage isStage
        obtain ⟨held, isHeld, isHandle⟩ := owner_spec isOwner
        rw [isHeld] at isStage
        cases isStage
        exact spared.failed peer key _ rfl isHeld isHandle
  · next peer =>
      dsimp only at taken ⊢
      have released : Atom Free Linked env client
          { client with relayed := client.relayed.erase peer } :=
        .same rfl rfl rfl rfl (.refl _)
      split
      · next isRendezvous =>
          rw [if_pos isRendezvous] at taken
          refine .head released ?_
          refine loseRendezvous_atoms ?_ ?_ moment
          · exact Option.isSome_of_eq_some isRendezvous
          · exact taken
      · exact .single released
  · exact .refl

/-! ### Time-driven work -/

section

variable {client : ClientEndpoint ω}

/-- Driving a stage leaves it, or is a move of its own. -/
theorem driveStage_cases (stage : Stage) (nowMs : Nat) (pad : SocketAddr → Bytes)
    (IsFree : Stage → Prop) (handle : PeerId) :
    let driven := driveStage stage nowMs pad
    driven = (stage, none, false) ∨
      (∃ new, driven = (new, none, false) ∧
        Course.Move IsFree handle stage (some new) [] false) ∨
      (∃ new, driven = (new, none, true) ∧ Course.Move IsFree handle stage none [] false) ∨
      ∃ new bytes port, driven = (new, some (bytes, port), false) ∧
        Course.Move IsFree handle stage (some new) [.sends bytes port] false := by
  intro driven
  unfold driven driveStage
  split
  · next port token checked legacy binds nextBind outbound =>
      split
      · exact Or.inl rfl
      next inTime =>
      simp only [Bool.or_eq_true, decide_eq_true_eq, not_or, Nat.not_lt] at inTime
      right
      split
      · next atMost =>
          subst atMost
          cases checked
          · cases legacy
            · exact Or.inl ⟨_, rfl, .fallsBack⟩
            · exact Or.inr (Or.inl ⟨_, rfl, .givenUp⟩)
          · exact Or.inl ⟨_, rfl, .exhausted⟩
      next notAll =>
      refine Or.inr (Or.inr ⟨_, _, _, rfl, .binds (Nat.lt_of_le_of_ne inTime.2 notAll) ?_⟩)
      cases legacy <;> rfl
  · exact Or.inl rfl

theorem driveKey_atoms (key : Key) (moment : Moment) :
    ReflTransGen (Atom Free Linked env) client (driveKey env client key moment) := by
  unfold driveKey driveAsk
  cases isAsk : client.asks.lookup key with
  | none => exact .refl
  | some ask =>
    have isOld := stages_of_ask isAsk
    have unnoted : client.record = client.record ++ ([] : List Act).map (.ask key, ·) :=
      (List.append_nil _).symm
    dsimp only
    rcases driveStage_cases ask.stage moment.nowMs moment.pad
        (Free · client.driver.endpoint.outbound) client.driver.endpoint.nextId with
      same | ⟨new, isDriven, move⟩ | ⟨new, isDriven, move⟩ | ⟨new, bytes, port, isDriven, move⟩
    · rw [same]
      refine .single (.apart (List.forall_mem_nil _) ⟨?_, (List.append_nil _).symm, rfl, rfl⟩ (.refl _))
      rw [setStage_stages isOld, ← isOld, Function.update_eq_self]
    · rw [isDriven]
      exact .single (.moved isOld move ⟨setStage_stages isOld _, unnoted, rfl, rfl⟩ (.refl _))
    · rw [isDriven]
      exact .single (.failed isOld ⟨setStage_stages isOld _, unnoted, rfl, rfl⟩ move (.refl _) _)
    · rw [isDriven]
      exact .single (.moved isOld move ⟨setStage_stages isOld _, rfl, rfl, rfl⟩
        (.of_same rfl rfl rfl rfl))

/-- A link proves its address again. -/
theorem refreshLink_atom (linked : Linked peer) (moment : Moment) :
    Atom Free Linked env client (refreshLink env client peer moment) := by
  have still : Atom Free Linked env client client := .same rfl rfl rfl rfl (.refl _)
  unfold refreshLink
  split
  · exact still
  split
  · refine .apart ?_ ⟨rfl, rfl, rfl, rfl⟩ (.of_same rfl rfl rfl rfl)
    intro entry member
    rw [List.mem_singleton.mp member]
    exact linked
  · exact still

theorem failAll_relayed (keys : List Key) : (client.failAll keys).relayed = client.relayed := by
  refine List.foldlRecOn (motive := fun later : ClientEndpoint ω => later.relayed = client.relayed)
    keys _ rfl fun later same key _ => ?_
  rw [← same]
  unfold failIntroduction
  split <;> rfl

theorem driveKey_relayed (key : Key) (moment : Moment) :
    (driveKey env client key moment).relayed = client.relayed := by
  unfold driveKey driveAsk
  cases client.asks.lookup key with
  | none => rfl
  | some ask =>
    dsimp only
    rcases driveStage ask.stage moment.nowMs moment.pad with ⟨stage, _ | bind, _ | _⟩
    · rfl
    · exact failAll_relayed [key]
    · rfl
    · rfl

theorem attend_atoms
    (free : ∀ key ask, client.asks.lookup key = some ask →
        introductionDeadline < moment.nowMs - ask.since →
        Free ask.stage client.driver.endpoint.outbound)
    (linked : ∀ peer ∈ client.relayed.keys, Linked peer) :
    ReflTransGen (Atom Free Linked env) client (attend env client moment) := by
  unfold attend
  split
  · unfold driveIntroductions
    generalize isExpired : (moment.keys.order client.asks.keys).filter _ = expired
    have fails : ReflTransGen (Atom Free Linked env) client (client.failAll expired) := by
      refine failAll_atoms ?_
      intro key member stage isStage
      rw [← isExpired] at member
      obtain ⟨ask, isAsk, rfl⟩ := Option.map_eq_some_iff.mp isStage
      have late := (List.mem_filter.mp member).2
      rw [isAsk, Option.any_some, decide_eq_true_eq] at late
      exact free key ask isAsk late
    have drives := List.foldlRecOn (motive := fun later =>
        ReflTransGen (Atom Free Linked env) client later ∧ later.relayed = client.relayed)
      (moment.keys.order (client.failAll expired).asks.keys)
      (fun client key => driveKey env client key moment)
      ⟨fails, failAll_relayed expired⟩
      fun later driven key _ =>
        ⟨driven.1.trans (driveKey_atoms key moment), (driveKey_relayed key moment).trans driven.2⟩
    refine List.foldlRecOn _ _ drives.1 fun later atoms peer member => atoms.tail ?_
    refine refreshLink_atom (linked peer ?_) moment
    rw [← drives.2]
    exact (moment.walk.perm _).mem_iff.mp member
  · exact .refl

theorem hastenRefresh_atom (peer : PeerId) :
    Atom Free Linked env client (client.hastenRefresh peer) := by
  have still : Atom Free Linked env client client := .same rfl rfl rfl rfl (.refl _)
  unfold hastenRefresh
  split
  · exact still
  · split
    · exact .same rfl rfl rfl rfl (.of_same rfl rfl rfl rfl)
    · exact still

/-! ### Datagrams that are no frames -/

/-- An answer is neither a bind nor a punch. -/
theorem answer_kind (env : ClientEnv ω) (token nonce : Bytes) (legacy : Bool) (port : SocketAddr) :
    (Act.sends (answer env token nonce legacy) port).bound? = none ∧
      (Act.sends (answer env token nonce legacy) port).punched? = none := by
  cases legacy <;> exact ⟨rfl, rfl⟩

/-- A check answered is for a port under proof. -/
theorem checkedAsk_relaying {nonce reply : Bytes} {addr : SocketAddr} {key : Key}
    {first : Bool}
    (finds : checkedAsk env client nonce addr moment = some (key, reply, first)) :
    ∃ token checked legacy binds nextBind outbound,
      client.stages key = some (.relaying addr token checked legacy binds nextBind outbound) ∧
        (Act.sends reply addr).bound? = none ∧ (Act.sends reply addr).punched? = none ∧
        first = !checked := by
  obtain ⟨found, _, isFound⟩ := List.exists_of_findSome?_eq_some finds
  split at isFound
  · next since port token checked legacy binds nextBind outbound isAsk =>
      split at isFound
      · next isPort =>
          cases isFound
          subst isPort
          obtain ⟨notBind, notPunch⟩ := answer_kind env token nonce legacy port
          exact ⟨token, checked, legacy, binds, nextBind, outbound, stages_of_ask isAsk, notBind,
            notPunch, rfl⟩
      · cases isFound
  · cases isFound

theorem noteChecked_eq {client : ClientEndpoint ω} {key : Key} {port : SocketAddr} {token : Bytes}
    {checked legacy : Bool} {binds nextBind : Nat} {held : Option PeerId}
    (isOld : client.stages key =
        some (.relaying port token checked legacy binds nextBind held))
    (outbound : Option PeerId) :
    client.noteChecked key outbound = client.setStage key
        (.relaying port token true legacy binds nextBind (outbound <|> held)) := by
  obtain ⟨⟨since, _⟩, isAsk, rfl⟩ := Option.map_eq_some_iff.mp isOld
  unfold noteChecked
  rw [isAsk]

theorem takeNotAFrame_atoms (linked : ∀ peer ∈ client.relayed.keys, Linked peer) (bytes : Bytes)
    (addr : SocketAddr) (moment : Moment) :
    ReflTransGen (Atom Free Linked env) client (takeNotAFrame env client bytes addr moment) := by
  unfold takeNotAFrame
  split
  · exact .refl
  split
  · next peer link isLink =>
      refine .single (.apart ?_ ⟨rfl, rfl, rfl, rfl⟩ (.of_same rfl rfl rfl rfl))
      intro entry member
      rw [List.mem_singleton.mp member]
      obtain ⟨found, isFound, isPeer⟩ := List.exists_of_findSome?_eq_some isLink
      obtain ⟨_, _, isSame⟩ := Option.map_eq_some_iff.mp isPeer
      cases isSame
      exact linked _ ((moment.walk.perm _).mem_iff.mp isFound)
  split
  · exact .refl
  next key reply first finds =>
  obtain ⟨token, checked, legacy, binds, nextBind, outbound, isOld, notBind, notPunch, rfl⟩ :=
    checkedAsk_relaying finds
  have replied : Changes client (sendRaw env client (.ask key) reply addr moment.nowMs)
      client.stages ([Act.sends reply addr].map (.ask key, ·)) :=
    ⟨rfl, rfl, rfl, rfl⟩
  dsimp only
  split
  · next begins =>
      have unchecked : checked = false := by
        rw [Bool.and_eq_true, Bool.not_eq_true'] at begins
        exact begins.1
      subst unchecked
      split
      · next connects =>
          exact .single (unbegun_atom isOld replied rfl connects (.unrelayed notBind notPunch))
      next peer after connects =>
      have same := (connect_spec connects).1.stages
      rw [noteChecked_eq ((congrFun same key).trans isOld)]
      exact .single (begun_atom isOld replied rfl connects (.relays notBind notPunch))
  · have still : (sendRaw env client (.ask key) reply addr moment.nowMs).stages key = _ := isOld
    rw [noteChecked_eq still]
    exact .single (.moved isOld (.answers notBind notPunch)
      ⟨setStage_stages still _, replied.record, rfl, rfl⟩ (.of_same rfl rfl rfl rfl))

/-- Where something may be sent for a link. -/
def Action.reaches : Action → Bool
  | .turn | .pass (.receive _) => true
  | _ => false

theorem prepare_atoms {action : Endpoint.Action}
    (linked : Action.reaches (.pass action) = true →
        ∀ peer ∈ client.relayed.keys, Linked peer)
    (moment : Moment) :
    ReflTransGen (Atom Free Linked env) client (prepare env client action moment) := by
  unfold prepare
  split
  · split
    · exact takeNotAFrame_atoms (linked rfl) _ _ moment
    · exact .refl
  · split
    · exact List.foldlRecOn _ _ .refl fun client atoms peer _ => atoms.tail (hastenRefresh_atom peer)
    · exact .refl
  · exact .refl

end

/-! ### The caller -/

/-- What a step does: a chain of small changes, or a call's own doing. -/
inductive Takes
    (Free : Stage → Table PeerId Outbound → Prop)
    (Linked : PeerId → Prop)
    (env : ClientEnv ω)
    (before : ClientEndpoint ω)
    (moment : Moment)
    (outcome : Option Reply × ClientEndpoint ω) :
    Prop where
  | atoms :
      ReflTransGen (Atom Free Linked env) before outcome.2 →
      Takes Free Linked env before moment outcome
  /-- A key is asked for anew. -/
  | called (key : Key) :
      before.hasSessionWith key = false →
      Changes before outcome.2
        (Function.update before.stages key (some .asked))
        [(.ask key, .called)] →
      Dwindles before.driver.endpoint outcome.2.driver.endpoint →
      Takes Free Linked env before moment outcome
  /-- The caller begins a handshake, perhaps with a rendezvous. -/
  | connected {noted : List (Cause × Act)} {peerPublic : Option Bytes} :
      (∀ entry ∈ noted, entry.1.Aside Linked) →
      outcome.1 =
        some (.endpoint (.connecting (.ok before.driver.endpoint.nextId))) →
      outcome.2.stages = before.stages →
      outcome.2.record = before.record ++ noted →
      outcome.2.groups = before.groups →
      (outcome.2.rendezvous = before.rendezvous ∨
        outcome.2.rendezvous = some before.driver.endpoint.nextId) →
      Begins before.driver.endpoint outcome.2.driver.endpoint peerPublic →
      Takes Free Linked env before moment outcome
  /-- A group is joined or left. -/
  | regrouped (tag : GroupTag) {groups : Table GroupTag Group} :
      ((∃ secret, moment.action = .joinGroup secret ∧ groupTag env secret = tag) ∨
        moment.action = .leaveGroup tag) →
      (∀ other ≠ tag, groups.lookup other = before.groups.lookup other) →
      Changes { before with groups := groups } outcome.2 before.stages [] →
      Dwindles before.driver.endpoint outcome.2.driver.endpoint →
      Takes Free Linked env before moment outcome

section

variable (env : ClientEnv ω) (client : ClientEndpoint ω) (moment : Moment)

theorem introduce_takes (key : Key) (reply : Option Reply) :
    Takes Free Linked env client moment (reply, (introduce env client key moment.nowMs).2) := by
  unfold introduce
  split
  · exact .atoms .refl
  split
  · exact .atoms .refl
  next unopened =>
  split
  · exact .atoms .refl
  dsimp only
  have asks : stages { client with asks := client.asks.insert key ⟨moment.nowMs, .asked⟩ } =
      Function.update client.stages key (some .asked) :=
    @stages_update _ client _ key (some ⟨moment.nowMs, .asked⟩) (Table.lookup_insert _ _ _)
  rw [Bool.not_eq_true] at unopened
  split
  · obtain ⟨changes, dwindles⟩ := tellRendezvous_changes env
      (note { client with asks := client.asks.insert key ⟨moment.nowMs, .asked⟩ } (.ask key)
        .called) (.introduce key) moment.nowMs
    refine .called key unopened ⟨changes.stages.trans asks, ?_, changes.groups, changes.rendezvous⟩
      (dwindles.trans (.of_same rfl rfl rfl rfl))
    exact changes.record.trans (List.append_nil _)
  · exact .called key unopened ⟨asks, rfl, rfl, rfl⟩ (.of_same rfl rfl rfl rfl)

theorem connectRendezvous_takes (addr : SocketAddr) (rendezvousPublic : Key) :
    let outcome := connectRendezvous env client addr rendezvousPublic moment
    Takes Free Linked env client moment
      (some (.endpoint (.connecting outcome.1)), outcome.2) := by
  intro outcome
  unfold outcome connectRendezvous
  have aside : ∀ entry ∈ [(Cause.caller, Act.begins addr)], entry.1.Aside Linked := by
    intro entry member
    rw [List.mem_singleton.mp member]
    trivial
  split
  · exact .atoms .refl
  split
  · next connects =>
      obtain ⟨changes, ⟨_, _, dwindles⟩ | ⟨isOk, _⟩⟩ := connect_spec connects
      · exact .atoms (.single (.apart aside changes dwindles))
      · cases isOk
  next connects =>
  obtain ⟨changes, ⟨_, isError, _⟩ | ⟨isOk, begins⟩⟩ := connect_spec connects
  · cases isError
  cases isOk
  exact .connected aside rfl changes.stages changes.record changes.groups (Or.inr rfl) begins

theorem release_eq (action : Endpoint.Action) :
    ∃ relayed, client.release action = { client with relayed := relayed } := by
  unfold release
  split
  · split
    · exact ⟨_, rfl⟩
    · exact ⟨_, rfl⟩
  · exact ⟨_, rfl⟩

theorem call_takes (action : Endpoint.Action) :
    Takes Free Linked env client moment (call env client action moment) := by
  unfold call
  split
  · obtain ⟨relayed, released⟩ := release_eq client action
    rw [released]
    rcases Endpoint.Driver.step_begins env.toEnv client.driver
        ⟨moment.nowMs, moment.walk, action⟩ with
      dwindles | ⟨_, isReply, peerPublic, begins⟩
    · exact .atoms (.single (.same rfl rfl rfl rfl dwindles))
    refine .connected (List.forall_mem_nil _) ?_ rfl (List.append_nil _).symm rfl (Or.inl rfl)
      begins
    unfold drive
    dsimp only
    rw [isReply]
    rfl
  · exact .atoms .refl

theorem regrouped_takes {tag : GroupTag} {groups : Table GroupTag Group} {reply : Option Reply}
    (isAction : (∃ secret, moment.action = .joinGroup secret ∧ groupTag env secret = tag) ∨
        moment.action = .leaveGroup tag)
    (others : ∀ other ≠ tag, groups.lookup other = client.groups.lookup other)
    (isAfter : after = { client with groups := groups } ∨
        ∃ control, after = tellRendezvous env { client with groups := groups } control moment.nowMs) :
    Takes Free Linked env client moment (reply, after) := by
  rcases isAfter with rfl | ⟨control, rfl⟩
  · exact .regrouped tag isAction others ⟨rfl, (List.append_nil _).symm, rfl, rfl⟩ (.refl _)
  · obtain ⟨changes, dwindles⟩ := tellRendezvous_changes env { client with groups := groups } control
      moment.nowMs
    exact .regrouped tag isAction others changes dwindles

theorem joinGroup_takes {secret : Bytes} (isAction : moment.action = .joinGroup secret)
    (reply : Option Reply) :
    Takes Free Linked env client moment (reply, (joinGroup env client secret moment.nowMs).2) := by
  unfold joinGroup
  split
  · exact .atoms .refl
  split
  · exact .atoms .refl
  split
  · exact .atoms .refl
  dsimp only
  split
  · exact .atoms .refl
  split
  · exact regrouped_takes env client moment (Or.inl ⟨secret, isAction, rfl⟩)
      (fun _ different => AList.lookup_insert_ne different) (Or.inr ⟨_, rfl⟩)
  · exact regrouped_takes env client moment (Or.inl ⟨secret, isAction, rfl⟩)
      (fun _ different => AList.lookup_insert_ne different) (Or.inl rfl)

theorem leaveGroup_takes {tag : GroupTag} (isAction : moment.action = .leaveGroup tag)
    (reply : Option Reply) :
    Takes Free Linked env client moment (reply, (leaveGroup env client tag moment.nowMs).2) := by
  unfold leaveGroup
  split
  · exact .atoms .refl
  · refine regrouped_takes env client moment (Or.inr isAction) ?_ (Or.inr ⟨_, rfl⟩)
    intro other different
    exact AList.lookup_erase_ne different

/-! ### A step of `poll` -/

/-- The endpoint's reply to a step of `poll`, and the client then. -/
def driven : Option (Option Endpoint.Reply × ClientEndpoint ω) :=
  match client.polling, moment.action, client.driver.call with
  | some deadline, .turn, .idle =>
      let client := attend env client moment
      some
        (drive env client
          ⟨moment.nowMs, moment.walk,
            .poll (client.wait deadline moment.nowMs)⟩)
  | some _, .pass _, .idle =>
      none
  | some _, .pass action, _ =>
      some
        (drive env (prepare env client action moment)
          ⟨moment.nowMs, moment.walk, action⟩)
  | _, _, _ =>
      none

/-- The event the endpoint's poll hands to the client, and the client then. -/
def surfaces : Option (Event × ClientEndpoint ω) :=
  match driven env client moment with
  | some (some (.polled (.ok event)), client) =>
      some (event, client)
  | _ =>
      none

end

section

variable {client mid : ClientEndpoint ω} {moment : Moment} {reply : Option Endpoint.Reply}

theorem surfaces_iff {event : Event} :
    surfaces env client moment = some (event, mid) ↔
      driven env client moment = some (some (.polled (.ok event)), mid) := by
  unfold surfaces
  split
  · next isDriven => simp [isDriven]
  next other =>
  refine ⟨nofun, fun isDriven => ?_⟩
  exact (other _ _ isDriven).elim

/-- A busy endpoint begins no handshake. -/
theorem drive_dwindles
    (busy : client.driver.call ≠ .idle) (action : Endpoint.Action) (moment : Moment) :
    Dwindles (prepare env client action moment).driver.endpoint
      (drive env (prepare env client action moment)
        ⟨moment.nowMs, moment.walk, action⟩).2.driver.endpoint := by
  by_cases connects :
      ∃ addr peerPublic zeroRtt sessionId random,
        action = .connect addr peerPublic zeroRtt sessionId random
  · obtain ⟨addr, peerPublic, zeroRtt, sessionId, random, rfl⟩ := connects
    have unprepared : prepare env client
            (.connect addr peerPublic zeroRtt sessionId random) moment =
          client := by
      unfold prepare
      cases client.driver.call <;> rfl
    rw [unprepared]
    exact (Endpoint.Driver.step_begins env.toEnv client.driver _).resolve_right
      fun begins => busy begins.1
  · refine Endpoint.Driver.next_dwindles env.toEnv _ ?_
    intro addr peerPublic zeroRtt sessionId random isAction
    exact connects ⟨addr, peerPublic, zeroRtt, sessionId, random, isAction⟩

theorem drive_atom {ready : ClientEndpoint ω} {at' : Endpoint.Moment}
    (drives : drive env ready at' = (reply, mid))
    (dwindles : Dwindles ready.driver.endpoint mid.driver.endpoint) :
    Atom Free Linked env ready mid := by
  cases drives
  exact .same rfl rfl rfl rfl dwindles

/-- Small changes lead up to the endpoint's step, which begins nothing. -/
theorem driven_atoms (isDriven : driven env client moment = some (reply, mid))
    (free : moment.action = .turn → ∀ key ask, client.asks.lookup key = some ask →
        introductionDeadline < moment.nowMs - ask.since →
        Free ask.stage client.driver.endpoint.outbound)
    (linked : moment.action.reaches = true → ∀ peer ∈ client.relayed.keys, Linked peer) :
    ∃ ready action, ReflTransGen (Atom Free Linked env) client ready ∧
      drive env ready ⟨moment.nowMs, moment.walk, action⟩ = (reply, mid) ∧
      Dwindles ready.driver.endpoint mid.driver.endpoint := by
  unfold driven at isDriven
  split at isDriven
  · next deadline _ isAction _ =>
      have drives := Option.some.inj isDriven
      have dwindles : Dwindles (attend env client moment).driver.endpoint
          (drive env (attend env client moment) ⟨moment.nowMs, moment.walk,
            .poll ((attend env client moment).wait deadline moment.nowMs)⟩).2.driver.endpoint :=
        Endpoint.Driver.next_dwindles env.toEnv _ (by simp)
      rw [drives] at dwindles
      exact ⟨_, _, attend_atoms (free isAction) (linked (isAction ▸ rfl)), drives, dwindles⟩
  · cases isDriven
  · next action _ isAction busy =>
      have drives := Option.some.inj isDriven
      have dwindles := @drive_dwindles _ env _ busy action moment
      rw [drives] at dwindles
      exact ⟨_, _, prepare_atoms (isAction ▸ linked) moment, drives, dwindles⟩
  · cases isDriven

/-- What `poll` makes of the endpoint's reply. -/
theorem step_driven (isDriven : driven env client moment = some (reply, mid)) :
    ∃ polling,
      (∃ event, reply = some (.polled (.ok event)) ∧
        next env client moment =
          { (intercept env mid event moment).2 with polling := polling } ∧
        ∀ peer, (step env client moment).1 =
            some (.endpoint (.polled (.ok (.connectFailed peer)))) →
          (intercept env mid event moment).1 = some (.connectFailed peer)) ∨
      next env client moment = { mid with polling := polling } ∧
        ∀ peer, (step env client moment).1 ≠
          some (.endpoint (.polled (.ok (.connectFailed peer)))) := by
  unfold driven at isDriven
  unfold next step
  split at isDriven
  · next deadline isPolling isAction isCall =>
      have drives := Option.some.inj isDriven
      rw [isPolling, isAction]
      rw [isCall]
      unfold turn
      dsimp only
      rw [drives]
      split
      · next event _ isReply =>
          cases isReply
          split
          · next passed _ intercepts =>
              refine ⟨none, Or.inl ⟨event, rfl, ?_, ?_⟩⟩
              · rw [intercepts]
                rfl
              · rintro peer ⟨⟩
                rw [intercepts]
          next after intercepts =>
          refine ⟨after.polling, Or.inl ⟨event, rfl, ?_, nofun⟩⟩
          rw [intercepts]
      next isReply =>
      cases isReply
      exact ⟨_, Or.inr ⟨rfl, nofun⟩⟩
  · cases isDriven
  · next deadline action isPolling isAction busy =>
      have drives := Option.some.inj isDriven
      have rounds (later : ClientEndpoint ω) : ∃ polling,
          (later.goRound deadline moment.nowMs).2 = { later with polling := polling } ∧
          ∀ peer, (later.goRound deadline moment.nowMs).1 ≠
            some (.endpoint (.polled (.ok (.connectFailed peer)))) := by
        unfold goRound
        split
        · exact ⟨none, rfl, nofun⟩
        · exact ⟨later.polling, rfl, nofun⟩
      rw [isPolling, isAction]
      dsimp only
      split
      · next isCall => exact (busy isCall).elim
      unfold pass
      rw [drives]
      split
      · next isReply =>
          cases isReply
          exact ⟨none, Or.inr ⟨rfl, nofun⟩⟩
      · next isReply =>
          cases isReply
          obtain ⟨polling, same, unfailed⟩ := rounds mid
          exact ⟨polling, Or.inr ⟨same, unfailed⟩⟩
      · next event _ _ isReply =>
          cases isReply
          split
          · next intercepts =>
              refine ⟨none, Or.inl ⟨event, rfl, ?_, ?_⟩⟩
              · rw [intercepts]
                rfl
              · rintro peer ⟨⟩
                rw [intercepts]
          next after intercepts =>
          obtain ⟨polling, same, unfailed⟩ := rounds after
          refine ⟨polling, Or.inl ⟨event, rfl, ?_, fun peer fails => (unfailed peer fails).elim⟩⟩
          rw [intercepts]
          exact same
      next isReply =>
      cases isReply
      exact ⟨mid.polling, Or.inr ⟨rfl, nofun⟩⟩
  · cases isDriven

theorem next_takes
    (free : moment.action = .turn → ∀ key ask, client.asks.lookup key = some ask →
        introductionDeadline < moment.nowMs - ask.since →
        Free ask.stage client.driver.endpoint.outbound)
    (linked : moment.action.reaches = true → ∀ peer ∈ client.relayed.keys, Linked peer)
    (spared : ∀ event mid, surfaces env client moment = some (event, mid) → mid.Spared Free event) :
    Takes Free Linked env client moment (step env client moment) := by
  cases isDriven : driven env client moment with
  | some outcome =>
    obtain ⟨reply, mid⟩ := outcome
    obtain ⟨ready, action, atoms, drives, dwindles⟩ := driven_atoms isDriven free linked
    have reaches := atoms.tail (drive_atom drives dwindles)
    refine .atoms (show ReflTransGen _ client (next env client moment) from ?_)
    obtain ⟨polling, ⟨event, rfl, same, _⟩ | ⟨same, _⟩⟩ := step_driven isDriven
    · rw [same]
      have spares := spared event mid (surfaces_iff.mpr isDriven)
      refine (reaches.trans (intercept_atoms spares moment)).tail ?_
      exact .same rfl rfl rfl rfl (.refl _)
    · rw [same]
      exact reaches.tail (.same rfl rfl rfl rfl (.refl _))
  | none =>
    unfold step
    split
    · exact call_takes env client moment _
    · exact connectRendezvous_takes env client moment _ _
    · exact introduce_takes env client moment _ _
    · next isAction => exact joinGroup_takes env client moment isAction _
    · next isAction => exact leaveGroup_takes env client moment isAction _
    · exact .atoms (.single (.same rfl rfl rfl rfl (.refl _)))
    · next isPolling isAction =>
        split
        · next isCall =>
            unfold driven at isDriven
            rw [isPolling, isAction, isCall] at isDriven
            cases isDriven
        · exact .atoms .refl
    · next isPolling isAction =>
        split
        · exact .atoms .refl
        next busy =>
        unfold driven at isDriven
        rw [isPolling, isAction] at isDriven
        cases isCall : client.driver.call with
        | idle => exact (busy isCall).elim
        | polling _ | feeding _ | reading _ _ =>
          rw [isCall] at isDriven
          cases isDriven
    · exact .atoms .refl

end

end ClientEndpoint

end Fectp
