import Fectp.Pipeline
import Fectp.RetransmitSlots
import Fectp.SplitDelivery
import Mathlib.Logic.Function.Iterate

namespace Fectp

/-!
# One batch of retransmissions

`poll` clears the slot of every message out of retries before the loop over
its reports has begun, and the loop leaves at the first resend that fails.
What the batch then accounts for is what it reached.
-/

namespace Outbox

variable {ω : Type*}

/-- Every identifier of a list is dropped, recorded and counted. -/
structure GivesUp
    (ids : List MessageId)
    (before after : Outbox) : Prop where
  dropped : after.pending = before.pending.filter (!ids.contains ·.id)
  abandoned : after.abandoned = before.abandoned ++ ids
  counted : after.abandonedCount =
      (saturatingAdd 32 · 1)^[ids.length] before.abandonedCount
  unqueued : after.abandonedUnqueued =
      (saturatingAdd 32 · 1)^[ids.countP (!before.awaited ·)]
        before.abandonedUnqueued

/-- The items behind the first resend that fails. -/
def behindFailure (emit : ω → Outgoing → Except Error Unit × ω) :
    List Due → List Pending → ω → List Due
  | [], _, _ =>
      []
  | .gaveUp id :: rest, pending, world =>
      behindFailure emit rest (pending.filter (·.id != id)) world
  | .retransmit id :: rest, pending, world =>
      match pending.find? (·.id == id) with
      | none =>
          behindFailure emit rest pending world
      | some entry =>
          match emit world entry.outgoing with
          | (.error _, _) =>
              rest
          | (.ok (), world) =>
              behindFailure emit rest pending world

/-- The loop gives up on what it reaches, and changes nothing else. -/
theorem resend_reached
    (emit : ω → Outgoing → Except Error Unit × ω) (due : List Due) (outbox : Outbox) (world : ω) :
    ∃ reached, due = reached ++ behindFailure emit due outbox.pending world ∧
        (resend emit due outbox world).2.1 =
          (reached.filterMap Due.givenUp).foldl giveUp outbox := by
  induction due generalizing outbox world with
  | nil => exact ⟨[], rfl, rfl⟩
  | cons item rest inductionHypothesis =>
    cases item with
    | gaveUp id =>
      obtain ⟨reached, split, accounted⟩ := inductionHypothesis (outbox.giveUp id) world
      exact ⟨.gaveUp id :: reached, congrArg (.gaveUp id :: ·) split, accounted⟩
    | retransmit id =>
      cases found : outbox.pending.find? (·.id == id) with
      | none =>
        obtain ⟨reached, split, accounted⟩ := inductionHypothesis outbox world
        simp only [resend, behindFailure, found]
        exact ⟨.retransmit id :: reached, congrArg (.retransmit id :: ·) split, accounted⟩
      | some entry =>
        rcases emitted : emit world entry.outgoing with
          ⟨error | _, world'⟩
        · simp only [resend, behindFailure, found, emitted]
          exact ⟨[.retransmit id], rfl, rfl⟩
        obtain ⟨reached, split, accounted⟩ :=
          inductionHypothesis outbox world'
        simp only [resend, behindFailure, found, emitted]
        exact ⟨.retransmit id :: reached, congrArg (.retransmit id :: ·) split, accounted⟩

/-- Giving up on one identifier after another accounts for them all. -/
theorem givesUp_foldl (ids : List MessageId) (outbox : Outbox) :
    GivesUp ids outbox (ids.foldl giveUp outbox) := by
  induction ids generalizing outbox with
  | nil => exact ⟨by simp, (List.append_nil _).symm, rfl, rfl⟩
  | cons id rest inductionHypothesis =>
    obtain ⟨dropped, abandoned, counted, unqueued⟩ := inductionHypothesis (outbox.giveUp id)
    refine ⟨?_, ?_, ?_, ?_⟩
    · rw [List.foldl_cons, dropped, giveUp, List.filter_filter]
      refine List.filter_congr fun pending _ => ?_
      rw [List.contains_cons, Bool.not_or, Bool.and_comm]
      rfl
    · rw [List.foldl_cons, abandoned, giveUp, List.append_assoc]
      rfl
    · rw [List.foldl_cons, counted]
      rfl
    · rw [List.foldl_cons, unqueued, List.countP_cons]
      have sameAwaited : (outbox.giveUp id).awaited = outbox.awaited := rfl
      rw [sameAwaited]
      cases isAwaited : outbox.awaited id with
      | true => simp [giveUp, isAwaited]
      | false => simp [giveUp, isAwaited, Function.iterate_succ_apply]

/-- A batch that did not fail was worked through to its end. -/
theorem behindFailure_of_ok
    {emit : ω → Outgoing → Except Error Unit × ω} {due : List Due} {outbox : Outbox} {world : ω}
    (succeeded : (resend emit due outbox world).1 = .ok ()) :
    behindFailure emit due outbox.pending world = [] := by
  induction due generalizing outbox world with
  | nil => rfl
  | cons item rest inductionHypothesis =>
    cases item with
    | gaveUp id => exact @inductionHypothesis (outbox.giveUp id) world succeeded
    | retransmit id =>
      cases found : outbox.pending.find? (·.id == id) with
      | none =>
        simp only [resend, found] at succeeded
        simp only [behindFailure, found]
        exact inductionHypothesis succeeded
      | some entry =>
        rcases emitted : emit world entry.outgoing with
          ⟨error | _, world'⟩
        · simp only [resend, found, emitted] at succeeded
          cases succeeded
        · simp only [resend, found, emitted] at succeeded
          simp only [behindFailure, found, emitted]
          exact inductionHypothesis succeeded

/-- A pass accounts for all it gave up on exactly if it reached it all. -/
theorem driveRetransmits_givesUp_iff
    (emit : ω → Outgoing → Except Error Unit × ω) (outbox : Outbox) (nowMs : Nat) (world : ω) :
    GivesUp (outbox.retransmit.removedByPoll nowMs) outbox
        (outbox.driveRetransmits emit nowMs world).2.1 ↔
      ∀ id, .gaveUp id ∉
          behindFailure emit (outbox.retransmit.poll nowMs maxInFlight).1 outbox.pending world := by
  obtain ⟨reached, split, accounted⟩ :=
    resend_reached emit (outbox.retransmit.poll nowMs maxInFlight).1
      { outbox with
        retransmit := (outbox.retransmit.poll nowMs maxInFlight).2 }
      world
  have given :=
    givesUp_foldl (reached.filterMap Due.givenUp)
      { outbox with
        retransmit := (outbox.retransmit.poll nowMs maxInFlight).2 }
  rw [← accounted] at given
  have ids : outbox.retransmit.removedByPoll nowMs = reached.filterMap Due.givenUp ++
          (behindFailure emit (outbox.retransmit.poll nowMs maxInFlight).1
            outbox.pending world).filterMap Due.givenUp := by
    rw [RetransmitQueue.removedByPoll_eq, ← List.filterMap_append]
    exact congrArg (List.filterMap Due.givenUp) split
  rw [ids]
  generalize
    behindFailure emit (outbox.retransmit.poll nowMs maxInFlight).1 outbox.pending world = behind
  constructor
  · intro all id member
    have sameIds := all.abandoned.symm.trans given.abandoned
    rw [List.append_cancel_left_eq, List.append_right_eq_self, List.filterMap_eq_nil_iff] at sameIds
    cases sameIds _ member
  · intro none
    have nothing : behind.filterMap Due.givenUp = [] := by
      refine List.filterMap_eq_nil_iff.mpr fun item member => ?_
      cases item with
      | retransmit id => rfl
      | gaveUp id => exact (none id member).elim
    rw [nothing, List.append_nil]
    exact ⟨given.dropped, given.abandoned, given.counted, given.unqueued⟩

/-- A pass that did not fail, or had nothing to give up on, accounts for all. -/
theorem driveRetransmits_givesUp
    {emit : ω → Outgoing → Except Error Unit × ω} {outbox : Outbox} {nowMs : Nat} {world : ω}
    (whole : (outbox.driveRetransmits emit nowMs world).1 = .ok () ∨
        outbox.retransmit.patient nowMs = true) :
    GivesUp (outbox.retransmit.removedByPoll nowMs) outbox
      (outbox.driveRetransmits emit nowMs world).2.1 := by
  rw [driveRetransmits_givesUp_iff]
  intro id behind
  rcases whole with succeeded | patient
  · have none : behindFailure emit (outbox.retransmit.poll nowMs maxInFlight).1
          outbox.pending world = [] :=
      @behindFailure_of_ok ω emit _
        { outbox with
          retransmit := (outbox.retransmit.poll nowMs maxInFlight).2 }
        world succeeded
    rw [none] at behind
    cases behind
  · have nothing := RetransmitQueue.removedByPoll_of_patient patient
    obtain ⟨reached, split, _⟩ :=
      resend_reached emit (outbox.retransmit.poll nowMs maxInFlight).1 outbox world
    rw [RetransmitQueue.removedByPoll_eq, List.filterMap_eq_nil_iff] at nothing
    have notReported := nothing (.gaveUp id)
    rw [split] at notReported
    cases notReported (List.mem_append_right _ behind)

end Outbox

namespace Peer

variable {ω : Type*}

/--
A pass over the retransmissions due drops, records and counts every message
whose slot it emptied, exactly when no give-up of its batch stands behind a
resend that fails.
-/
theorem give_ups_survive_iff
    (suite : Suite)
    (peer : Peer)
    (nowMs txLen : Nat)
    (send : ω → Bytes → Except Error Unit × ω)
    (socket : ω) :
    Outbox.GivesUp (peer.retransmit.removedByPoll nowMs) peer.toOutbox
        (peer.driveRetransmits suite nowMs txLen send socket).2.1.toOutbox ↔
      ∀ id,
        .gaveUp id ∉
          Outbox.behindFailure (Sealing.emit suite txLen send)
            (peer.retransmit.poll nowMs maxInFlight).1 peer.pending
            (peer.toSealing, socket) :=
  Outbox.driveRetransmits_givesUp_iff _ _ _ _

/-- The first slot is due again, the second out of retries. -/
def mixedPeer : Peer :=
  let peer := Peer.new SplitMessages.System.smallPair.alice
  { peer with
    retransmit :=
      { peer.retransmit with
        slots :=
          some ⟨9, 2600, 1600, 0⟩ :: some ⟨1, 3000, 1000, 5⟩ ::
            List.replicate 30 none
        nextId := 10
        slots_length := rfl }
    pending :=
      [⟨1, .opaqueBytes, [11], none, 1200⟩,
        ⟨9, .opaqueBytes, [99], none, 1200⟩] }

/-- The socket refuses the resend, and the give-up behind it is dropped. -/
theorem failed_resend_hides_give_up :
    let after :=
      (mixedPeer.driveRetransmits SplitMessages.System.smallSuite 3000 100
        (fun socket _ => (.error .io, socket)) ()).2.1
    mixedPeer.retransmit.removedByPoll 3000 = [1] ∧
      after.retransmit.slots[1]? = some none ∧
      1 ∈ after.pending.map Pending.id ∧
      after.abandoned = [] ∧
      after.abandonedCount = 0 ∧
      after.abandonedUnqueued = 0 := by
  decide +kernel

end Peer

end Fectp
