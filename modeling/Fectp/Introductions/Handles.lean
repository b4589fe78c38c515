import Fectp.Introductions.Restraint

namespace Fectp

/-!
# Whose handshakes fail

A client begins handshakes of its own for the introductions it asks for.  The
caller has no handle for them, and a failure of one is the introduction's
affair.  Whose a handle is stands in the introduction's stage alone: what
replaces the stage or drops the introduction while the handshake is under way
leaves the handle to nobody, and its failure is then reported to the caller.
-/

open Relation (ReflTransGen)

open Endpoint (Dwindles Begins)

/-- A port is offered, and has not checked this side's address. -/
def Stage.isUnproved : Stage → Bool
  | .relaying _ _ false _ _ _ _ => true
  | _ => false

/-- The handshake a stage began is under way no more. -/
def Stage.Over (stage : Stage) (outbound : Table PeerId Outbound) : Prop :=
  ∀ id, stage.outbound? = some id → outbound.lookup id = none

section

variable {IsFree : Stage → Prop} {handle : PeerId} {old : Stage} {new : Option Stage}
  {acts : List Act}

/-- Without a handshake begun, a handle is kept or given up. -/
theorem Course.Move.handles (move : Move IsFree handle old new acts false)
    (unproved : old.isUnproved = true → old.outbound? = none) :
    (new.bind Stage.outbound? = old.outbound? ∨
        new.bind Stage.outbound? = none ∧ IsFree old) ∧
      ∀ stage ∈ new, stage.isUnproved = true → stage.outbound? = none := by
  cases move with
  | dropped free => exact ⟨Or.inr ⟨rfl, free⟩, nofun⟩
  | awaits | relayAsked => exact ⟨Or.inl rfl, by rintro _ ⟨⟩ ⟨⟩⟩
  | unreached => exact ⟨Or.inl rfl, nofun⟩
  | offered free => exact ⟨Or.inr ⟨rfl, free⟩, by rintro _ ⟨⟩ _; rfl⟩
  | @binds _ _ _ checked =>
    refine ⟨Or.inl rfl, ?_⟩
    rintro _ ⟨⟩
    cases checked
    · exact unproved
    · exact nofun
  | fallsBack => exact ⟨Or.inl rfl, by rintro _ ⟨⟩; exact unproved⟩
  | exhausted | answers => exact ⟨Or.inl rfl, by rintro _ ⟨⟩ ⟨⟩⟩
  | givenUp | unrelayed => exact ⟨Or.inl (unproved rfl).symm, nofun⟩

/-- A handshake is begun where there was none, and its handle kept. -/
theorem Course.Move.begins (move : Move IsFree handle old new acts true)
    (unproved : old.isUnproved = true → old.outbound? = none) :
    old.outbound? = none ∧
      ∃ stage, new = some stage ∧ stage.outbound? = some handle ∧ stage.isUnproved = false := by
  cases move with
  | connects => exact ⟨rfl, _, rfl, rfl, rfl⟩
  | relays => exact ⟨unproved rfl, _, rfl, rfl, rfl⟩

end

namespace ClientEndpoint

variable {ω : Type*}

/-- The handle of the handshake begun for a key's introduction. -/
def handle (client : ClientEndpoint ω) (key : Key) : Option PeerId :=
  (client.stages key).bind Stage.outbound?

/-- The handshake begun for a key's introduction is under way. -/
def pending (client : ClientEndpoint ω) (key : Key) : Bool :=
  (client.handle key).any fun id =>
    (client.driver.endpoint.outbound.lookup id).isSome

/-- No introduction whose handshake is under way is over its time. -/
def lasts (client : ClientEndpoint ω) (nowMs : Nat) : Bool :=
  client.asks.keys.all fun key =>
    !client.pending key ||
      (client.asks.lookup key).all fun ask =>
        nowMs - ask.since ≤ introductionDeadline

/-- The event takes no introduction from a handshake under way. -/
def spares (client : ClientEndpoint ω) (event : Event) : Bool :=
  (client.taken event).all (!client.pending ·)

/--
Nothing takes an introduction from its handshake: the introduction is in time,
and the event at hand spares it.
-/
def undisturbed
    (env : ClientEnv ω)
    (client : ClientEndpoint ω)
    (moment : Moment) :
    Bool :=
  (match moment.action with
    | .turn => client.lasts moment.nowMs
    | _ => true) &&
    (surfaces env client moment).all fun (event, client) =>
      client.spares event

theorem mayGo_of_not_pending {client : ClientEndpoint ω} {key : Key}
    (ended : client.pending key = false) :
    client.MayGo Stage.Over key := by
  intro stage isStage id isHandle
  unfold pending handle at ended
  rw [isStage, Option.bind_some, isHandle, Option.any_some] at ended
  exact Option.not_isSome_iff_eq_none.mp (Bool.eq_false_iff.mp ended)

/-! ### Every handshake under way has an owner -/

/-- Every handshake under way has an owner, given the caller's handles. -/
structure Accounted (client : ClientEndpoint ω) (given : List PeerId) :
    Prop where
  /-- A handshake is the caller's or an introduction's. -/
  owned : ∀ {id outbound},
      client.driver.endpoint.outbound.lookup id = some outbound →
      id ∈ given ∨ ∃ key, client.handle key = some id
  fresh : ∀ {id outbound},
      client.driver.endpoint.outbound.lookup id = some outbound →
      id < client.driver.endpoint.nextId
  issued : ∀ {key id},
      client.handle key = some id → id < client.driver.endpoint.nextId
  /-- An introduction's handshake is with the key it is for. -/
  keyed : ∀ {key id outbound},
      client.handle key = some id →
      client.driver.endpoint.outbound.lookup id = some outbound →
      outbound.peerKey = some key
  unproved : ∀ {key stage},
      client.stages key = some stage →
      stage.isUnproved = true →
      stage.outbound? = none
  rendezvous : ∀ {peer}, client.rendezvous = some peer → peer ∈ given
  quiet : ∀ id, .connectFailed id ∉ client.driver.endpoint.events

namespace Accounted

variable {env : ClientEnv ω} {given : List PeerId} {before after : ClientEndpoint ω}

/-- No handshake is begun, and handles are dropped once they are over. -/
theorem dwindle (accounted : before.Accounted given)
    (dwindles : Dwindles before.driver.endpoint after.driver.endpoint)
    (rendezvous : after.rendezvous = before.rendezvous ∨ after.rendezvous = none)
    (handles : ∀ key, after.handle key = before.handle key ∨
        after.handle key = none ∧ before.MayGo Stage.Over key)
    (unproved : ∀ {key stage},
        after.stages key = some stage →
        stage.isUnproved = true →
        stage.outbound? = none) :
    after.Accounted given where
  owned := by
    intro id later found
    obtain ⟨earlier, isEarlier, _⟩ := dwindles.outbound found
    refine (accounted.owned isEarlier).imp_right ?_
    rintro ⟨key, isHandle⟩
    rcases handles key with same | ⟨_, ended⟩
    · exact ⟨key, same.trans isHandle⟩
    · obtain ⟨stage, isStage, isOutbound⟩ := Option.bind_eq_some_iff.mp isHandle
      cases (ended stage isStage id isOutbound).symm.trans isEarlier
  fresh := by
    intro id later found
    obtain ⟨earlier, isEarlier, _⟩ := dwindles.outbound found
    exact (accounted.fresh isEarlier).trans_le dwindles.nextId
  issued := by
    intro key id isHandle
    rcases handles key with same | ⟨none, _⟩
    · rw [same] at isHandle
      exact (accounted.issued isHandle).trans_le dwindles.nextId
    · rw [none] at isHandle
      cases isHandle
  keyed := by
    intro key id later isHandle found
    obtain ⟨earlier, isEarlier, sameKey⟩ := dwindles.outbound found
    rcases handles key with same | ⟨none, _⟩
    · rw [same] at isHandle
      exact sameKey.trans (accounted.keyed isHandle isEarlier)
    · rw [none] at isHandle
      cases isHandle
  unproved := unproved
  rendezvous := by
    intro peer isRendezvous
    rcases rendezvous with same | gone
    · exact accounted.rendezvous (same.symm.trans isRendezvous)
    · rw [gone] at isRendezvous
      cases isRendezvous
  quiet id member := accounted.quiet id (dwindles.events.mem member rfl)

/-- What touches no introduction and begins no handshake. -/
theorem same (accounted : before.Accounted given) (stages : after.stages = before.stages)
    (rendezvous : after.rendezvous = before.rendezvous ∨ after.rendezvous = none)
    (dwindles : Dwindles before.driver.endpoint after.driver.endpoint) :
    after.Accounted given := by
  refine accounted.dwindle dwindles rendezvous ?_ ?_
  · intro key
    left
    unfold handle
    rw [stages]
  · rw [stages]
    exact accounted.unproved

/-- One stage is replaced, and its handle kept or given up. -/
theorem replace {key : Key} {new : Option Stage} (accounted : before.Accounted given)
    (dwindles : Dwindles before.driver.endpoint after.driver.endpoint)
    (stages : after.stages = Function.update before.stages key new)
    (rendezvous : after.rendezvous = before.rendezvous)
    (handles : new.bind Stage.outbound? = before.handle key ∨
        new.bind Stage.outbound? = none ∧ before.MayGo Stage.Over key)
    (unproved : ∀ stage ∈ new, stage.isUnproved = true → stage.outbound? = none) :
    after.Accounted given := by
  refine accounted.dwindle dwindles (Or.inl rendezvous) ?_ ?_
  · intro other
    unfold handle
    rw [stages]
    by_cases isKey : other = key
    · rw [isKey, Function.update_self]
      exact handles
    · rw [Function.update_of_ne isKey]
      exact Or.inl rfl
  · intro other stage isStage
    rw [stages] at isStage
    by_cases isKey : other = key
    · rw [isKey, Function.update_self] at isStage
      exact unproved stage isStage
    · rw [Function.update_of_ne isKey] at isStage
      exact accounted.unproved isStage

/-- A handshake is begun, and its handle is the caller's or a key's. -/
theorem begins {peerPublic : Option Bytes} {later : List PeerId}
    (accounted : before.Accounted given)
    (begins : Begins before.driver.endpoint after.driver.endpoint peerPublic)
    (grown : ∀ id ∈ given, id ∈ later)
    (owner : before.driver.endpoint.nextId ∈ later ∨
        ∃ key, after.handle key = some before.driver.endpoint.nextId)
    (handles : ∀ key, after.handle key = before.handle key ∨
          after.handle key = some before.driver.endpoint.nextId ∧ peerPublic = some key ∧
            before.handle key = none)
    (rendezvous : ∀ {peer}, after.rendezvous = some peer → peer ∈ later)
    (unproved : ∀ {key stage},
        after.stages key = some stage →
        stage.isUnproved = true →
        stage.outbound? = none) :
    after.Accounted later := by
  obtain ⟨begun, isKeyed, isInserted⟩ := begins.outbound
  have grows : before.driver.endpoint.nextId < after.driver.endpoint.nextId := by
    rw [begins.nextId]
    exact Nat.lt_succ_self _
  have finds {id : PeerId} {held : Outbound}
      (found : after.driver.endpoint.outbound.lookup id = some held) :
      id = before.driver.endpoint.nextId ∧ held = begun ∨
        before.driver.endpoint.outbound.lookup id = some held := by
    rw [isInserted] at found
    exact (Table.found_of_insert found).imp_right And.right
  refine ⟨?_, ?_, ?_, ?_, unproved, rendezvous, ?_⟩
  · intro id held found
    rcases finds found with ⟨rfl, _⟩ | earlier
    · exact owner
    rcases accounted.owned earlier with isGiven | ⟨key, isHandle⟩
    · exact Or.inl (grown id isGiven)
    · right
      rcases handles key with same | ⟨_, _, none⟩
      · exact ⟨key, same.trans isHandle⟩
      · cases none.symm.trans isHandle
  · intro id held found
    rcases finds found with ⟨rfl, _⟩ | earlier
    · exact grows
    · exact (accounted.fresh earlier).trans grows
  · intro key id isHandle
    rcases handles key with same | ⟨new, _⟩
    · exact (accounted.issued (same.symm.trans isHandle)).trans grows
    · cases new.symm.trans isHandle
      exact grows
  · intro key id held isHandle found
    rcases handles key with same | ⟨new, isPublic, _⟩
    · have earlier := same.symm.trans isHandle
      rcases finds found with ⟨rfl, _⟩ | found
      · exact absurd (accounted.issued earlier) (Nat.lt_irrefl _)
      · exact accounted.keyed earlier found
    · cases new.symm.trans isHandle
      rcases finds found with ⟨_, rfl⟩ | found
      · exact isKeyed.trans isPublic
      · exact absurd (accounted.fresh found) (Nat.lt_irrefl _)
  · rw [begins.events]
    exact accounted.quiet

/-- A handshake is begun for a key that had none. -/
theorem begun {key : Key} {old : Stage} {new : Option Stage} {acts : List Act}
    (accounted : before.Accounted given) (isOld : before.stages key = some old)
    (move : Course.Move (Stage.Over · before.driver.endpoint.outbound)
        before.driver.endpoint.nextId old new acts true)
    (changes : Changes before after (Function.update before.stages key new)
        (acts.map (.ask key, ·)))
    (begins : Begins before.driver.endpoint after.driver.endpoint (some key)) :
    after.Accounted given := by
  obtain ⟨unbegun, stage, rfl, isHandle, proved⟩ := move.begins (accounted.unproved isOld)
  have isStage : after.stages key = some stage := by
    rw [changes.stages, Function.update_self]
  have sameStage {other : Key} (different : other ≠ key) :
      after.stages other = before.stages other := by
    rw [changes.stages, Function.update_of_ne different]
  have handled : after.handle key = some before.driver.endpoint.nextId := by
    unfold handle
    rw [isStage]
    exact isHandle
  refine accounted.begins begins (fun _ => id) (Or.inr ⟨key, handled⟩) ?_ ?_ ?_
  · intro other
    by_cases isKey : other = key
    · subst isKey
      refine Or.inr ⟨handled, rfl, ?_⟩
      unfold handle
      rw [isOld]
      exact unbegun
    · left
      unfold handle
      rw [sameStage isKey]
  · intro peer isRendezvous
    exact accounted.rendezvous (changes.rendezvous.symm.trans isRendezvous)
  · intro other held isHeld isUnproved
    by_cases isKey : other = key
    · rw [isKey, isStage] at isHeld
      cases isHeld
      rw [proved] at isUnproved
      cases isUnproved
    · exact accounted.unproved ((sameStage isKey).symm.trans isHeld) isUnproved

theorem atom {Linked : PeerId → Prop} (accounted : before.Accounted given)
    (atom : Atom Stage.Over Linked env before after) :
    after.Accounted given := by
  cases atom with
  | apart _ changes dwindles => exact accounted.same changes.stages (Or.inl changes.rendezvous) dwindles
  | moved isOld move changes dwindles =>
    obtain ⟨handles, unproved⟩ := move.handles (accounted.unproved isOld)
    refine accounted.replace dwindles changes.stages changes.rendezvous ?_ unproved
    unfold handle MayGo
    rw [isOld]
    refine handles.imp_right fun given => ⟨given.1, ?_⟩
    rintro stage ⟨⟩
    exact given.2
  | begun isOld move changes begins => exact accounted.begun isOld move changes begins
  | listed tag list isAfter =>
    obtain ⟨_, _, isListed, _⟩ := onMembers_eq env before tag list
    rw [isAfter, isListed]
    refine ⟨accounted.owned, accounted.fresh, accounted.issued, accounted.keyed, accounted.unproved,
      accounted.rendezvous, ?_⟩
    intro id member
    refine (List.mem_append.mp member).elim (accounted.quiet id) ?_
    simp
  | lost _ gone stages _ driver => exact accounted.same stages (Or.inr gone) (driver ▸ .refl _)

theorem atoms {Linked : PeerId → Prop} (accounted : before.Accounted given)
    (chain : ReflTransGen (Atom Stage.Over Linked env) before after) :
    after.Accounted given := by
  induction chain with
  | refl => exact accounted
  | tail _ atom inductionHypothesis => exact inductionHypothesis.atom atom

end Accounted

/-! ### Steps -/

/-- The caller's handles, after a reply. -/
def noted (given : List PeerId) : Option Reply → List PeerId
  | some (.endpoint (.connecting (.ok peer))) => given ++ [peer]
  | _ => given

theorem noted_grows (given : List PeerId) (reply : Option Reply) :
    ∀ id ∈ given, id ∈ noted given reply := by
  intro id member
  unfold noted
  split
  · exact List.mem_append_left _ member
  · exact member

theorem Accounted.grow {client : ClientEndpoint ω} {given later : List PeerId}
    (accounted : client.Accounted given) (grown : ∀ id ∈ given, id ∈ later) :
    client.Accounted later :=
  { accounted with
    owned := fun found => (accounted.owned found).imp_left (grown _)
    rendezvous := fun isPeer => grown _ (accounted.rendezvous isPeer) }

section

variable {env : ClientEnv ω} {client : ClientEndpoint ω} {given : List PeerId} {key : Key}
  {moment : Moment}

/-- A key that is asked for anew has no handshake under way. -/
theorem Accounted.unopened (accounted : client.Accounted given)
    (unopened : client.hasSessionWith key = false) :
    client.MayGo Stage.Over key := by
  intro stage isStage id isHandle
  by_contra isThere
  obtain ⟨outbound, found⟩ := Option.ne_none_iff_exists'.mp isThere
  have isKey : outbound.peerKey = some key := by
    refine accounted.keyed ?_ found
    unfold handle
    rw [isStage]
    exact isHandle
  unfold hasSessionWith at unopened
  rw [Bool.or_eq_false_iff] at unopened
  exact List.any_eq_false.mp unopened.2 outbound (Table.mem_values.mpr ⟨id, found⟩)
    (beq_iff_eq.mpr isKey)

theorem Accounted.takes {Linked : PeerId → Prop} {outcome : Option Reply × ClientEndpoint ω}
    (accounted : client.Accounted given)
    (takes : Takes Stage.Over Linked env client moment outcome) :
    outcome.2.Accounted (noted given outcome.1) := by
  cases takes with
  | atoms chain => exact (accounted.atoms chain).grow (noted_grows given _)
  | called key unopened changes dwindles =>
    refine (accounted.replace dwindles changes.stages changes.rendezvous
      (Or.inr ⟨rfl, accounted.unopened unopened⟩) ?_).grow (noted_grows given _)
    rintro _ ⟨⟩ ⟨⟩
  | connected _ isReply stages _ _ rendezvous begins =>
    rw [isReply]
    refine accounted.begins begins (fun id member => List.mem_append_left _ member)
      (Or.inl List.mem_concat_self) ?_ ?_ ?_
    · intro key
      left
      unfold handle
      rw [stages]
    · intro peer isPeer
      rcases rendezvous with same | new
      · exact List.mem_append_left _ (accounted.rendezvous (same.symm.trans isPeer))
      · cases new.symm.trans isPeer
        exact List.mem_concat_self
    · rw [stages]
      exact accounted.unproved
  | regrouped _ _ _ changes dwindles =>
    exact (accounted.same changes.stages (Or.inl changes.rendezvous) dwindles).grow
      (noted_grows given _)

/-- What is in time may be given up once it is not. -/
theorem mayGo_of_lasts (inTime : client.lasts moment.nowMs = true) {ask : Ask}
    (isAsk : client.asks.lookup key = some ask)
    (late : introductionDeadline < moment.nowMs - ask.since) :
    ask.stage.Over client.driver.endpoint.outbound := by
  have isKey : key ∈ client.asks.keys := AList.lookup_isSome.mp (by rw [isAsk]; rfl)
  have lasts := List.all_eq_true.mp inTime key isKey
  rw [isAsk, Option.all_some, Bool.or_eq_true, Bool.not_eq_true', decide_eq_true_eq] at lasts
  exact mayGo_of_not_pending (lasts.resolve_right (Nat.not_le.mpr late)) _ (stages_of_ask isAsk)

/--
What leads up to the endpoint's reply keeps the account; a failure it reports
ends a handshake that was under way.
-/
theorem Accounted.driven {event : Event} {mid : ClientEndpoint ω}
    (accounted : client.Accounted given)
    (inTime : moment.action = .turn → client.lasts moment.nowMs = true)
    (isDriven : driven env client moment = some (some (.polled (.ok event)), mid)) :
    ∃ (ready : ClientEndpoint ω) (driver : Endpoint.Driver ω),
      ready.Accounted given ∧ mid = { ready with driver := driver } ∧
        Endpoint.Ends ready.driver.endpoint driver.endpoint (some event) := by
  obtain ⟨ready, action, chain, drives, _⟩ := @driven_atoms _ Stage.Over (fun _ => True) env _ _ _ _
    isDriven (fun isTurn _ _ isAsk late => mayGo_of_lasts (inTime isTurn) isAsk late)
    fun _ _ _ => trivial
  have kept := accounted.atoms chain
  rcases isStep : ready.driver.step env.toEnv ⟨moment.nowMs, moment.walk, action⟩ with
    ⟨reply, driver⟩
  unfold drive at drives
  rw [isStep] at drives
  cases drives
  exact ⟨ready, driver, kept, rfl, Endpoint.Driver.step_ends env.toEnv kept.quiet isStep⟩

theorem owner_of_handle {peer : PeerId} (isHandle : client.handle key = some peer)
    (moment : Moment) :
    client.owner peer moment ≠ none := by
  intro isNone
  obtain ⟨stage, isStage, isOutbound⟩ := Option.bind_eq_some_iff.mp isHandle
  obtain ⟨ask, isAsk, rfl⟩ := Option.map_eq_some_iff.mp isStage
  have isKey : key ∈ client.asks.keys := AList.lookup_isSome.mp (by rw [isAsk]; rfl)
  have differs := List.find?_eq_none.mp isNone key ((moment.keys.perm _).mem_iff.mpr isKey)
  rw [isAsk, Option.any_some, isOutbound, beq_self_eq_true] at differs
  exact differs rfl

/-- A failure that is passed on is one, and no introduction's. -/
theorem intercept_connectFailed {event : Event} {peer : PeerId}
    (passes : (intercept env client event moment).1 = some (.connectFailed peer)) :
    event = .connectFailed peer ∧
      (client.rendezvous = some peer ∨ client.owner peer moment = none) := by
  unfold intercept at passes
  cases event with
  | connectFailed failed =>
    dsimp only at passes
    split at passes
    · next isRendezvous =>
        cases passes
        exact ⟨rfl, Or.inl isRendezvous⟩
    split at passes
    · next isNone =>
        cases passes
        exact ⟨rfl, Or.inr isNone⟩
    · cases passes
  | message source data =>
    dsimp only at passes
    split at passes
    · split at passes <;> cases passes
    · cases passes
  | connected | peerLost =>
    dsimp only at passes
    split at passes <;> cases passes
  | _ => cases passes

/-- A call other than `poll` reports no failure. -/
theorem call_ne_polled (client : ClientEndpoint ω) (action : Endpoint.Action) (moment : Moment)
    (result : Except Error Event) :
    (call env client action moment).1 ≠ some (.endpoint (.polled result)) := by
  unfold call drive Endpoint.Driver.step
  cases action <;> cases (client.release _).driver.call <;> simp [isCall]

/-- A failure is reported only where the endpoint's poll comes back. -/
theorem driven_of_polled {peer : PeerId}
    (fails : (step env client moment).1 =
        some (.endpoint (.polled (.ok (.connectFailed peer))))) :
    ∃ reply mid, driven env client moment = some (reply, mid) := by
  unfold step at fails
  split at fails
  case h_1 => exact (call_ne_polled client _ moment _ fails).elim
  case h_7 isPolling isAction =>
    split at fails
    · next isCall =>
        unfold driven
        rw [isPolling, isAction, isCall]
        exact ⟨_, _, rfl⟩
    · cases fails
  case h_8 isPolling isAction =>
    split at fails
    · cases fails
    next busy =>
    unfold driven
    rw [isPolling, isAction]
    cases isCall : client.driver.call with
    | idle => exact (busy isCall).elim
    | polling _ | feeding _ | reading _ _ => exact ⟨_, _, rfl⟩
  all_goals cases fails

/-- The account is kept, and a failure that is reported is the caller's. -/
structure Faithful
    (given : List PeerId)
    (outcome : Option Reply × ClientEndpoint ω) :
    Prop where
  accounted : outcome.2.Accounted (noted given outcome.1)
  reported : ∀ {peer},
      outcome.1 = some (.endpoint (.polled (.ok (.connectFailed peer)))) →
      peer ∈ given

theorem Accounted.step (accounted : client.Accounted given)
    (calm : undisturbed env client moment = true) :
    Faithful given (step env client moment) := by
  unfold undisturbed at calm
  rw [Bool.and_eq_true] at calm
  obtain ⟨inTime, spared⟩ := calm
  have lasts : moment.action = .turn → client.lasts moment.nowMs = true := by
    intro isTurn
    rwa [isTurn] at inTime
  constructor
  · have anyLink : moment.action.reaches = true → ∀ peer ∈ client.relayed.keys, True :=
      fun _ _ _ => trivial
    refine accounted.takes (next_takes ?_ anyLink ?_)
    · exact fun isTurn _ _ isAsk late => mayGo_of_lasts (lasts isTurn) isAsk late
    · intro event mid surfaced
      rw [surfaced, Option.all_some] at spared
      refine ⟨fun key member => ?_, ?_⟩
      · exact mayGo_of_not_pending
          ((Bool.not_eq_true' _).mp (List.all_eq_true.mp spared key member))
      · rintro peer key stage rfl isStage isHandle id isId
        obtain ⟨ready, driver, _, rfl, ends⟩ := accounted.driven lasts (surfaces_iff.mp surfaced)
        cases isHandle.symm.trans isId
        exact (ends peer rfl).2
  · intro peer fails
    obtain ⟨reply, mid, isDriven⟩ := driven_of_polled fails
    obtain ⟨_, ⟨event, rfl, _, passes⟩ | ⟨_, unfailed⟩⟩ := step_driven isDriven
    · obtain ⟨ready, driver, kept, rfl, ends⟩ := accounted.driven lasts isDriven
      obtain ⟨rfl, isRendezvous | isNone⟩ := intercept_connectFailed (passes peer fails)
      · exact kept.rendezvous isRendezvous
      obtain ⟨⟨outbound, found⟩, _⟩ := ends peer rfl
      refine (kept.owned found).resolve_right ?_
      rintro ⟨key, isHandle⟩
      exact owner_of_handle isHandle moment isNone
    · exact (unfailed peer fails).elim

end

end ClientEndpoint

end Fectp
