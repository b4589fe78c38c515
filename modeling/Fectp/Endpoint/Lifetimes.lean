import Fectp.Endpoint.Flood
import Fectp.Endpoint.PeerKeys

namespace Fectp

/-!
# The life of a handle

What the caller is told about a handle over a whole run: whoever it stands for
it goes on standing for, and a handshake the caller began fails once at most.
-/

namespace Endpoint

variable {ω : Type*}

/--
However a run goes on, a handle that still has a session has it with the
holder of the same key.
-/
theorem handle_keeps_key
    (env : Env ω) (mode : Mode) (socket : ω) (first second : List Moment) (id : PeerId)
    (held now : PeerEntry) :
    let early := Execution.run (Driver.next env) (Driver.new (Endpoint.new env mode socket)) first
    let late := Execution.run (Driver.next env) early second
    early.endpoint.peers.lookup id = some held →
      late.endpoint.peers.lookup id = some now →
      now.peer.session.remoteStatic = held.peer.session.remoteStatic := by
  intro early late isHeld isNow
  have consistent : early.endpoint.registry.Consistent := run_consistent env mode socket first
  have standsFor :=
    @Driver.run_invariant _ env
      (fun endpoint =>
        StandsFor id held.peer.session.remoteStatic endpoint ∧ endpoint.registry.Consistent)
      (fun kept atom =>
        ⟨kept.1.atom kept.2 atom, kept.2.moves (atom.moves kept.2)⟩)
      _ second ⟨standsFor_of_session consistent isHeld, consistent⟩
  exact standsFor.1.keyed now isNow

theorem handle_keeps_key_of_small_flood :
    ∃ held now,
      smallFull.endpoint.peers.lookup 0 = some held ∧
        smallFlooded.endpoint.peers.lookup 0 = some now ∧
        now.peer.session.remoteStatic = held.peer.session.remoteStatic := by
  have stays : (smallFull.endpoint.peers.lookup 0).isSome ∧
        (smallFlooded.endpoint.peers.lookup 0).isSome := by
    decide +kernel
  obtain ⟨held, isHeld⟩ := Option.isSome_iff_exists.mp stays.1
  obtain ⟨now, isNow⟩ := Option.isSome_iff_exists.mp stays.2
  exact ⟨held, now, isHeld, isNow,
    handle_keeps_key smallEnv (.publicKey []) () smallSpeaker smallFlood 0 held now isHeld isNow⟩

/-! ### Failures -/

/-- The handle a reply gives out. -/
def Reply.begun : Reply → Option PeerId
  | .connecting (.ok id) =>
      some id
  | _ =>
      none

/-- The handle a reply says no session came of. -/
def Reply.failed : Reply → Option PeerId
  | .polled (.ok (.connectFailed id)) =>
      some id
  | _ =>
      none

/-- A driver, and what it came back with so far, latest first. -/
structure Told (ω : Type*) where
  driver : Driver ω
  replies : List Reply

namespace Told

/-- One step, and what it comes back with. -/
def next (env : Env ω) (told : Told ω) (moment : Moment) : Told ω :=
  let outcome := told.driver.step env moment
  ⟨outcome.2, outcome.1.toList ++ told.replies⟩

def begun (told : Told ω) : List PeerId :=
  told.replies.filterMap Reply.begun

def failed (told : Told ω) : List PeerId :=
  told.replies.filterMap Reply.failed

end Told

/-- What was given out is new, and what failed was given out and is over. -/
structure Told.Accounted (told : Told ω) : Prop where
  quiet : ∀ id, .connectFailed id ∉ told.driver.endpoint.events
  begun : told.begun.Nodup
  given : ∀ id ∈ told.begun, id < told.driver.endpoint.nextId
  failed : told.failed.Nodup
  ended : ∀ id ∈ told.failed, id ∈ told.begun ∧
      told.driver.endpoint.outbound.lookup id = none
  pending : ∀ id begun,
      told.driver.endpoint.outbound.lookup id = some begun → id ∈ told.begun

theorem Dwindles.none {before after : Endpoint ω} (dwindles : Dwindles before after) {id : PeerId}
    (unbegun : before.outbound.lookup id = none) :
    after.outbound.lookup id = none := by
  cases found : after.outbound.lookup id with
  | none => rfl
  | some later =>
    obtain ⟨earlier, isEarlier, _⟩ := dwindles.outbound found
    rw [unbegun] at isEarlier
    cases isEarlier

/-- What a step does to the handshakes begun here, and what it says of them. -/
inductive Tells (before after : Endpoint ω) : Option Reply → Prop where
  | begins {peerPublic : Option Bytes} :
      Begins before after peerPublic →
      Tells before after (some (.connecting (.ok before.nextId)))
  | fails {id : PeerId} :
      Dwindles before after →
      Ends before after (some (.connectFailed id)) →
      Tells before after (some (.polled (.ok (.connectFailed id))))
  | other {reply : Option Reply} :
      Dwindles before after →
      reply.bind Reply.begun = none →
      reply.bind Reply.failed = none →
      Tells before after reply

variable {env : Env ω} {driver : Driver ω} {moment : Moment}

theorem Driver.step_gives
    {id : PeerId} (gives : (driver.step env moment).1 = some (.connecting (.ok id))) :
    id = driver.endpoint.nextId ∧ ∃ peerPublic,
        Begins driver.endpoint (driver.step env moment).2.endpoint
          peerPublic := by
  unfold Driver.step at gives ⊢
  dsimp only at gives ⊢
  split at gives
  case h_1 =>
    generalize connects : connectAndSend .. = outcome at gives ⊢
    rcases connectAndSend_begins connects with
      ⟨_, fails, _⟩ | ⟨goes, begins⟩
    · rw [fails] at gives
      cases gives
    · rw [goes] at gives
      cases gives
      exact ⟨rfl, _, begins⟩
  all_goals repeat' split at gives
  all_goals cases gives

theorem Driver.step_tells
    (quiet : ∀ id, .connectFailed id ∉ driver.endpoint.events) :
    Tells driver.endpoint (driver.step env moment).2.endpoint (driver.step env moment).1 := by
  rcases driver.step_begins env moment with
    dwindles | ⟨_, isReply, _, begins⟩
  · have gives := @Driver.step_gives _ env driver moment
    have ends := @Driver.step_ends _ env
    rcases isStep : driver.step env moment with ⟨reply, later⟩
    rw [isStep] at dwindles gives
    rcases reply with _ | reply
    · exact .other dwindles rfl rfl
    cases reply with
    | connecting result =>
      rcases result with _ | id
      · exact .other dwindles rfl rfl
      · obtain ⟨rfl, _, begins⟩ := gives rfl
        exact .begins begins
    | polled result =>
      rcases result with _ | event
      · exact .other dwindles rfl rfl
      cases event with
      | connectFailed id => exact .fails dwindles (ends quiet isStep)
      | _ => exact .other dwindles rfl rfl
    | _ => exact .other dwindles rfl rfl
  · rw [isReply]
    exact .begins begins

theorem Told.accounted_new (env : Env ω) (mode : Mode) (socket : ω) :
    Told.Accounted ⟨Driver.new (Endpoint.new env mode socket), []⟩ where
  quiet _ member := (List.not_mem_nil member).elim
  begun := .nil
  given _ member := (List.not_mem_nil member).elim
  failed := .nil
  ended _ member := (List.not_mem_nil member).elim
  pending _ _ found := by cases found

/-- Where no handshake is begun, only what failed is to be accounted for. -/
theorem Told.Accounted.dwindles {told later : Told ω} (accounted : told.Accounted)
    (dwindles : Dwindles told.driver.endpoint later.driver.endpoint)
    (same : later.begun = told.begun) (failed : later.failed.Nodup)
    (ended : ∀ id ∈ later.failed, id ∈ told.begun ∧
        later.driver.endpoint.outbound.lookup id = none) :
    later.Accounted where
  quiet id member := accounted.quiet id (dwindles.events.mem member rfl)
  begun := same ▸ accounted.begun
  given id member := (accounted.given id (same ▸ member)).trans_le dwindles.nextId
  failed := failed
  ended := same ▸ ended
  pending id _ found := by
    obtain ⟨earlier, isEarlier, _⟩ := dwindles.outbound found
    exact same ▸ accounted.pending id earlier isEarlier

theorem Told.Accounted.next {told : Told ω} (accounted : told.Accounted) (moment : Moment) :
    (told.next env moment).Accounted := by
  have tells := @Driver.step_tells _ env _ moment accounted.quiet
  unfold Told.next
  generalize told.driver.step env moment = outcome at tells ⊢
  rcases outcome with ⟨reply, later⟩
  cases tells with
  | begins begins =>
    obtain ⟨⟨begun, _, isOutbound⟩, isNext, isEvents⟩ := begins
    have isNew : told.driver.endpoint.nextId ∉ told.begun :=
      fun member => (accounted.given _ member).ne rfl
    refine ⟨isEvents ▸ accounted.quiet, ?_, ?_, accounted.failed, ?_, ?_⟩
    · exact List.nodup_cons.mpr ⟨isNew, accounted.begun⟩
    · intro id member
      rw [isNext]
      rcases List.mem_cons.mp member with rfl | old
      · exact Nat.lt_succ_self _
      · exact Nat.lt_succ_of_lt (accounted.given id old)
    · intro id member
      obtain ⟨isBegun, unbegun⟩ := accounted.ended id member
      refine ⟨List.mem_cons_of_mem _ isBegun, ?_⟩
      rw [isOutbound, AList.lookup_insert_ne]
      · exact unbegun
      · rintro rfl
        exact isNew isBegun
    · intro id outbound found
      by_cases isNext : id = told.driver.endpoint.nextId
      · exact List.mem_cons.mpr (.inl isNext)
      · rw [isOutbound, AList.lookup_insert_ne isNext] at found
        exact List.mem_cons_of_mem _ (accounted.pending id outbound found)
  | @fails failed dwindles ends =>
    obtain ⟨⟨outbound, found⟩, gone⟩ := ends failed rfl
    refine accounted.dwindles dwindles rfl ?_ ?_
    · refine List.nodup_cons.mpr ⟨?_, accounted.failed⟩
      intro member
      rw [(accounted.ended failed member).2] at found
      cases found
    · intro id member
      rcases List.mem_cons.mp member with rfl | old
      · exact ⟨accounted.pending id outbound found, gone⟩
      · exact (accounted.ended id old).imp_right dwindles.none
  | @other reply dwindles unbegun unfailed =>
    have same : ∀ read : Reply → Option PeerId, reply.bind read = none →
        (reply.toList ++ told.replies).filterMap read = told.replies.filterMap read := by
      rcases reply with _ | reply
      · exact fun _ _ => rfl
      · exact fun read isNone => List.filterMap_cons_none isNone
    refine accounted.dwindles dwindles (same _ unbegun) ?_ ?_
    · rw [Told.failed, same _ unfailed]
      exact accounted.failed
    · intro id member
      rw [Told.failed, same _ unfailed] at member
      exact (accounted.ended id member).imp_right dwindles.none

/--
In every run, no handle is given out twice, and a handshake is said to have
failed once at most, after the caller was given its handle.
-/
theorem fails_once
    (env : Env ω) (mode : Mode) (socket : ω) (moments : List Moment) :
    let told :=
      Execution.run (Told.next env) ⟨Driver.new (Endpoint.new env mode socket), []⟩ moments
    told.begun.Nodup ∧ told.failed.Nodup ∧ told.failed ⊆ told.begun := by
  intro told
  have accounted : told.Accounted :=
    Execution.invariant_of_step Told.Accounted.next (Told.accounted_new env mode socket)
  exact ⟨accounted.begun, accounted.failed, fun id member => (accounted.ended id member).1⟩

end Endpoint

end Fectp
