import Fectp.ConnectionWait
import Fectp.Ledger
import Fectp.RetransmitBatch

namespace Fectp

/-!
# What a flush answers for

A flush clears the count of abandonments when it is called and reports what
has been counted when it returns.  What `recv` gives up on in between is
counted and then cleared, and what a flush gives up on before it fails for
another reason is never reported either.  A ledger is kept beside the
connection to say which messages an `Ok` may still hide.
-/

namespace Ledger

/-- The accounts balance, and a loss not yet reported has been counted. -/
structure Covers (ledger : Ledger) (outbox : Outbox) : Prop where
  balanced : ledger.Balanced outbox
  counted : ledger.lost ≠ [] ∨ outbox.abandoned ≠ [] → 0 < outbox.abandonedCount

/-- No loss is waiting to be reported. -/
structure Clear (ledger : Ledger) (outbox : Outbox) : Prop where
  noLoss : ledger.lost = []
  noAbandoned : outbox.abandoned = []

/-- With nothing counted, there is nothing to report. -/
theorem Covers.clear {ledger : Ledger} {outbox : Outbox} (covers : Covers ledger outbox)
    (uncounted : outbox.abandonedCount = 0) :
    Clear ledger outbox := by
  have none : ¬(ledger.lost ≠ [] ∨ outbox.abandoned ≠ []) := by
    intro some
    exact Nat.ne_of_gt (covers.counted some) uncounted
  rw [not_or, not_not, not_not] at none
  exact ⟨none.1, none.2⟩

theorem Clear.covers {ledger : Ledger} {outbox : Outbox} (clear : Clear ledger outbox)
    (balanced : ledger.Balanced outbox) :
    Covers ledger outbox := by
  refine ⟨balanced, ?_⟩
  rintro (lost | abandoned)
  · exact (lost clear.noLoss).elim
  · exact (abandoned clear.noAbandoned).elim

end Ledger

namespace Outbox

/-- A count of abandonments that has left zero stays off it. -/
theorem GivesUp.counted_pos
    {ids : List MessageId} {before after : Outbox} (givesUp : GivesUp ids before after)
    (some : 0 < before.abandonedCount ∨ ids ≠ []) :
    0 < after.abandonedCount := by
  rw [givesUp.counted]
  rcases some with positive | nonempty
  · induction ids.length with
    | zero => exact positive
    | succ count _ =>
      rw [Function.iterate_succ_apply']
      simp [saturatingAdd, maxValue]
  · obtain ⟨count, isCount⟩ :=
      Nat.exists_eq_succ_of_ne_zero (mt List.eq_nil_of_length_eq_zero nonempty)
    rw [isCount, Function.iterate_succ_apply']
    simp [saturatingAdd, maxValue]

end Outbox

namespace Core

variable {ω : Type*}
  (suite : Suite)
  (send : ω → Bytes → Except SendFailure Unit × ω)

/-- A pass over the queue, entered in the ledger. -/
def driveQueueLedger
    (core : Core)
    (nowMs : Nat)
    (socket : ω)
    (ledger : Ledger) :
    Ledger :=
  ledger.driveQueue
    (Sealing.emit suite core.size (sendStamped send nowMs))
    core.peer.toOutbox nowMs (core.peer.toSealing, socket, core.lastSentMs)

/-- A pass of `recv` or `flush`, entered in the ledger. -/
def pumpLedger
    (core : Core)
    (deadline : Option Nat)
    (outLen : Option Nat)
    (pass : Pass)
    (socket : ω)
    (ledger : Ledger) :
    Ledger :=
  let driven := (core.driveQueue suite send pass.queueMs socket).2.1
  let prepared :=
    (core.prepare suite send deadline outLen.isNone pass socket).2.1
  let pumped := (core.pump suite send deadline outLen pass socket).2.1
  let ledger := core.driveQueueLedger suite send pass.queueMs socket ledger
  (ledger.poll driven.peer.retransmit.slots
      prepared.peer.retransmit.slots).applyAck
    prepared.peer.retransmit.slots pumped.peer.retransmit.slots

/-- A reliable send, entered in the ledger. -/
def sendReliableLedger
    (core : Core)
    (data : Bytes)
    (payloadType : PayloadType)
    (nowMs : Nat)
    (socket : ω)
    (ledger : Ledger) :
    Ledger :=
  let (result, after, _) :=
    core.sendReliable suite send data payloadType nowMs socket
  if data.length ≤ core.peer.payloadRoom core.limit true false then
    ledger.sendOne core.peer.toOutbox after.peer.toOutbox result.isOk
  else
    match core.peer.queueMessage data payloadType core.limit with
    | (.error _, _) =>
        ledger
    | (.ok (), peer) =>
        let count := peer.queue.getLast?.elim 0 Queued.count
        let queued :=
          ({ core with peer := peer } : Core).driveQueueLedger suite send
            nowMs socket (ledger.queue count)
        if result.isOk then
          { queued with accepted := ledger.frames.length :: queued.accepted }
        else
          queued

variable {ledger : Ledger}

/-- Driving the queue loses no count, and takes note of what was lost. -/
theorem driveQueue_covers
    {core : Core} (covers : ledger.Covers core.peer.toOutbox) (nowMs : Nat) (socket : ω) :
    let after := (core.driveQueue suite send nowMs socket).2.1
    let entered := core.driveQueueLedger suite send nowMs socket ledger
    entered.Covers after.peer.toOutbox ∧ after.peer.abandoned = [] ∧
      entered.frames = ledger.frames ∧
      (ledger.Clear core.peer.toOutbox → entered.Clear after.peer.toOutbox) := by
  obtain ⟨balanced, sameFrames, sameLost⟩ :=
    covers.balanced.driveQueue (Sealing.emit suite core.size (sendStamped send nowMs)) nowMs
      (core.peer.toSealing, socket, core.lastSentMs)
  obtain ⟨noAbandoned, sameCount⟩ :=
    core.peer.toOutbox.driveQueue_abandoned
      (Sealing.emit suite core.size (sendStamped send nowMs)) nowMs
      (core.peer.toSealing, socket, core.lastSentMs)
  refine ⟨⟨balanced, ?_⟩, noAbandoned, sameFrames, ?_⟩
  · rintro (lost | abandoned)
    · change 0 < (Outbox.driveQueue _ _ _ _).2.1.abandonedCount
      rw [sameCount]
      by_cases looked : core.peer.toOutbox.abandoned = []
      · refine covers.counted (Or.inl ?_)
        rw [← sameLost looked]
        exact lost
      · exact covers.counted (Or.inr looked)
    · exact (abandoned noAbandoned).elim
  · intro clear
    exact ⟨(sameLost clear.noAbandoned).trans clear.noLoss, noAbandoned⟩

variable {core : Core}

/-- Resending that accounts for all it gave up on counts what it lost. -/
theorem driveRetransmits_covers
    (covers : ledger.Covers core.peer.toOutbox) {nowMs : Nat} {socket : ω}
    (whole : (core.driveRetransmits suite send nowMs socket).1 = .ok () ∨
        core.peer.retransmit.patient nowMs = true) :
    let after := (core.driveRetransmits suite send nowMs socket).2.1
    let entered := ledger.poll core.peer.retransmit.slots after.peer.retransmit.slots
    entered.Covers after.peer.toOutbox ∧ (core.peer.retransmit.patient nowMs = true →
        ledger.Clear core.peer.toOutbox →
        entered.Clear after.peer.toOutbox) := by
  rw [driveRetransmits_result] at whole
  dsimp only
  rw [driveRetransmits_outbox]
  have givesUp := Outbox.driveRetransmits_givesUp whole
  obtain ⟨polled, sameQueue⟩ :=
    core.peer.toOutbox.driveRetransmits_polls
      (Sealing.emit suite core.size (sendWatched send nowMs)) nowMs
      (core.peer.toSealing, (socket, core.lastSentMs), false)
  generalize (Outbox.driveRetransmits (Sealing.emit suite core.size (sendWatched send nowMs))
      core.peer.toOutbox nowMs
      (core.peer.toSealing, (socket, core.lastSentMs), false)).2.1 = after
    at givesUp polled sameQueue
  have isRemoved : RetransmitQueue.cleared core.peer.retransmit.slots after.retransmit.slots =
        core.peer.retransmit.removedByPoll nowMs := by
    rw [polled]
    rfl
  refine ⟨⟨?_, ?_⟩, ?_⟩
  · refine covers.balanced.poll ?_ ?_ sameQueue
    · rw [polled]
      exact RetransmitQueue.poll_keeps _ _ _
    · rw [polled]
      exact RetransmitQueue.poll_nextId _ _ _
  · intro some
    apply givesUp.counted_pos
    by_cases none : core.peer.retransmit.removedByPoll nowMs = []
    · refine Or.inl (covers.counted ?_)
      simp only [Ledger.poll, isRemoved, none, givesUp.abandoned,
        List.filterMap_nil, List.nil_append, List.append_nil] at some
      exact some
    · exact Or.inr none
  · intro patient clear
    have none := RetransmitQueue.removedByPoll_of_patient patient
    refine ⟨?_, ?_⟩
    · simp only [Ledger.poll, isRemoved, none, List.filterMap_nil,
        List.nil_append]
      exact clear.noLoss
    · rw [givesUp.abandoned, none, List.append_nil]
      exact clear.noAbandoned

/-- An acknowledgement loses nothing. -/
theorem applyAck_covers {outbox after : Outbox} (covers : ledger.Covers outbox) {nowMs : Nat}
    (applied : after = outbox ∨ ∃ ack, after = outbox.applyAck ack nowMs) :
    let entered := ledger.applyAck outbox.retransmit.slots after.retransmit.slots
    entered.Covers after ∧ (ledger.Clear outbox → entered.Clear after) := by
  rcases applied with rfl | ⟨ack, rfl⟩
  · have kept : List.Forall₂ RetransmitQueue.Keeps after.retransmit.slots
          after.retransmit.slots :=
      List.forall₂_same.mpr fun slot _ => RetransmitQueue.Keeps.refl slot
    exact ⟨⟨covers.balanced.applyAck kept rfl rfl, covers.counted⟩,
      fun clear => ⟨clear.noLoss, clear.noAbandoned⟩⟩
  · have kept := outbox.retransmit.onAck_keeps ack nowMs maxInFlight
    have sameNext := outbox.retransmit.onAck_nextId ack nowMs maxInFlight
    exact ⟨⟨covers.balanced.applyAck kept sameNext rfl, covers.counted⟩,
      fun clear => ⟨clear.noLoss, clear.noAbandoned⟩⟩

/-- Driving the queue makes no message run out of retries. -/
theorem driveQueue_patient {pollMs : Nat} (patient : core.peer.retransmit.patient pollMs = true)
    (nowMs : Nat) (socket : ω) :
    (core.driveQueue suite send nowMs socket).2.1.peer.retransmit.patient pollMs = true :=
  Outbox.driveQueue_retransmit (fun queue => queue.patient pollMs = true)
    RetransmitQueue.patient_register patient _

/-- What a pass has done before it reads. -/
theorem prepare_covers (covers : ledger.Covers core.peer.toOutbox) {deadline : Option Nat}
    {flushing : Bool} {pass : Pass} {socket : ω}
    (whole : (core.prepare suite send deadline flushing pass socket).1.isOk = true ∨
        core.peer.retransmit.patient pass.retransmitMs = true) :
    let driven := (core.driveQueue suite send pass.queueMs socket).2.1
    let prepared := (core.prepare suite send deadline flushing pass socket).2.1
    let entered :=
      (core.driveQueueLedger suite send pass.queueMs socket ledger).poll
        driven.peer.retransmit.slots prepared.peer.retransmit.slots
    entered.Covers prepared.peer.toOutbox ∧ (core.peer.retransmit.patient pass.retransmitMs = true →
        ledger.Clear core.peer.toOutbox →
        entered.Clear prepared.peer.toOutbox) := by
  obtain ⟨drivenCovers, _, _, drivenClear⟩ :=
    driveQueue_covers suite send covers pass.queueMs socket
  have stillPatient : core.peer.retransmit.patient pass.retransmitMs = true →
      (core.driveQueue suite send pass.queueMs
        socket).2.1.peer.retransmit.patient pass.retransmitMs = true :=
    fun patient => driveQueue_patient suite send patient pass.queueMs socket
  have isPrepared := core.prepare_outbox suite send deadline flushing pass socket
  dsimp only
  rw [isPrepared]
  rcases drives : core.driveQueue suite send pass.queueMs socket with
    ⟨error | _, driven, between⟩
  · -- The pass failed before it polled, so nothing else happened.
    rw [drives] at drivenCovers drivenClear
    have unchanged : (core.driveQueueLedger suite send pass.queueMs socket ledger).poll
            driven.peer.retransmit.slots driven.peer.retransmit.slots =
          core.driveQueueLedger suite send pass.queueMs socket ledger := by
      simp [Ledger.poll]
    rw [unchanged]
    exact ⟨drivenCovers, fun _ => drivenClear⟩
  · rw [drives] at drivenCovers drivenClear stillPatient
    have wholeAfter : (driven.driveRetransmits suite send pass.retransmitMs between).1 = .ok () ∨
          driven.peer.retransmit.patient pass.retransmitMs = true := by
      rcases whole with succeeded | patient
      · obtain ⟨driven', between', drives', resends⟩ :=
          prepare_ok suite send succeeded
        rw [drives] at drives'
        cases drives'
        exact Or.inl resends
      · exact Or.inr (stillPatient patient)
    obtain ⟨resentCovers, resentClear⟩ := driveRetransmits_covers suite send drivenCovers wholeAfter
    exact ⟨resentCovers, fun patient clear =>
      resentClear (stillPatient patient) (drivenClear clear)⟩

/-- A whole pass. -/
theorem pump_covers {core : Core} (covers : ledger.Covers core.peer.toOutbox)
    {deadline : Option Nat} {outLen : Option Nat} {pass : Pass} {socket : ω}
    (whole : (core.pump suite send deadline outLen pass socket).1.isOk = true ∨
        core.peer.retransmit.patient pass.retransmitMs = true) :
    let pumped := (core.pump suite send deadline outLen pass socket).2.1
    let entered := core.pumpLedger suite send deadline outLen pass socket ledger
    entered.Covers pumped.peer.toOutbox ∧ (core.peer.retransmit.patient pass.retransmitMs = true →
        ledger.Clear core.peer.toOutbox →
        entered.Clear pumped.peer.toOutbox) := by
  have wholeBefore := whole.imp_left (pump_ok suite send)
  obtain ⟨preparedCovers, preparedClear⟩ := prepare_covers suite send covers wholeBefore
  obtain ⟨pumpedCovers, pumpedClear⟩ :=
    applyAck_covers preparedCovers (core.pump_outbox suite send deadline outLen pass socket)
  exact ⟨pumpedCovers, fun patient clear =>
    pumpedClear (preparedClear patient clear)⟩

/-- A message of one frame. -/
theorem sendOne_covers (covers : ledger.Covers core.peer.toOutbox) (data : Bytes)
    (payloadType : PayloadType) (nowMs : Nat) (socket : ω) :
    let sent := core.sendOneReliable suite send data payloadType nowMs socket
    let entered := ledger.sendOne core.peer.toOutbox sent.2.1.peer.toOutbox sent.1.isOk
    entered.Covers sent.2.1.peer.toOutbox ∧
      (ledger.Clear core.peer.toOutbox → entered.Clear sent.2.1.peer.toOutbox) := by
  rcases sends :
      core.sendOneReliable suite send data payloadType nowMs socket with
    ⟨result, after, socket'⟩
  dsimp only
  rcases sendOneReliable_cases suite send sends with
    ⟨_, unchanged⟩ | ⟨id, retransmit, _, registered, outcome⟩
  · rw [unchanged]
    simp only [Ledger.sendOne, reduceIte]
    exact ⟨covers, fun clear => clear⟩
  obtain ⟨rfl, _, _, _, nextId, _⟩ :=
    RetransmitQueue.register_ok registered
  have moved : ¬retransmit.nextId = core.peer.toOutbox.retransmit.nextId := by
    rw [nextId]
    simp
  rcases outcome with ⟨failed, isAfter⟩ | ⟨succeeded, isAfter⟩
  · rw [isAfter]
    simp only [Ledger.sendOne, if_neg moved, failed, Bool.false_eq_true, if_false]
    exact ⟨⟨covers.balanced.refused registered, covers.counted⟩,
      fun clear => ⟨clear.noLoss, clear.noAbandoned⟩⟩
  · rw [isAfter]
    simp only [Ledger.sendOne, if_neg moved, succeeded, if_true]
    have balanced := covers.balanced.sentOne registered
    exact ⟨⟨balanced.same rfl rfl, covers.counted⟩,
      fun clear => ⟨clear.noLoss, clear.noAbandoned⟩⟩

/-- A reliable send, whole or split. -/
theorem sendReliable_covers (covers : ledger.Covers core.peer.toOutbox) (data : Bytes)
    (payloadType : PayloadType) (nowMs : Nat) (socket : ω) :
    let after := (core.sendReliable suite send data payloadType nowMs socket).2.1
    let entered := core.sendReliableLedger suite send data payloadType nowMs socket ledger
    entered.Covers after.peer.toOutbox ∧
      (ledger.Clear core.peer.toOutbox → entered.Clear after.peer.toOutbox) := by
  unfold sendReliableLedger sendReliable
  dsimp only
  split
  · exact sendOne_covers suite send covers data payloadType nowMs socket
  rcases queues :
      core.peer.queueMessage data payloadType core.limit with
    ⟨error | _, peer⟩
  · rcases Peer.queueMessage_cases queues with
      ⟨_, rfl⟩ | ⟨impossible, _⟩
    · exact ⟨covers, fun clear => clear⟩
    · cases impossible
  · rcases Peer.queueMessage_cases queues with
      ⟨impossible, _⟩ | ⟨_, job, untouched, isPeer⟩
    · cases impossible
    · have isQueue : peer.queue = core.peer.queue ++ [job] := by
        rw [isPeer]
      have isLast : peer.queue.getLast?.elim 0 Queued.count = job.count := by
        rw [isQueue, List.getLast?_concat]
        rfl
      have queued : (ledger.queue job.count).Covers peer.toOutbox :=
        ⟨covers.balanced.queue untouched.unlost untouched.isFirst (by rw [isPeer]) isQueue,
          by rw [isPeer]; exact covers.counted⟩
      obtain ⟨drivenCovers, _, sameFrames, drivenClear⟩ :=
        @driveQueue_covers ω suite send _ { core with peer := peer } queued nowMs socket
      have clears : ledger.Clear core.peer.toOutbox →
            (ledger.queue job.count).Clear peer.toOutbox := by
        intro clear
        refine ⟨clear.noLoss, ?_⟩
        rw [isPeer]
        exact clear.noAbandoned
      dsimp only
      rw [isLast]
      split
      · have isKnown : ledger.frames.length <
              (driveQueueLedger suite send { core with peer := peer } nowMs
                socket (ledger.queue job.count)).frames.length := by
          rw [sameFrames]
          simp [Ledger.queue]
        exact ⟨⟨drivenCovers.balanced.accept isKnown, drivenCovers.counted⟩, fun clear =>
            have after := drivenClear (clears clear)
            ⟨after.noLoss, after.noAbandoned⟩⟩
      · exact ⟨drivenCovers, fun clear => drivenClear (clears clear)⟩

/--
In a pass of `flush` every frame is sealed and leaves, and the datagram read
is taken in.
-/
def flushRuns
    (core : Core)
    (deadline driveMs checkMs : Nat)
    (pass : Pass)
    (socket : ω) :
    Bool :=
  (core.driveQueue suite send driveMs socket).1.isOk &&
    match core.tryFlush suite send deadline driveMs checkMs socket with
    | (none, core, socket) =>
        (core.pump suite send (some deadline) none pass socket).1.isOk
    | (some _, _, _) =>
        true

end Core

namespace Connection

variable {ω : Type*}
  (suite : Suite)
  (send : ω → Bytes → Except SendFailure Unit × ω)

/-- A connection and the ledger kept beside it. -/
structure Audited (ω : Type*) where
  connection : Connection ω
  ledger : Ledger

/-- What an event enters in the ledger. -/
def ledgerAfter (connection : Connection ω) (event : Event) (ledger : Ledger) :
    Ledger :=
  match connection.call, event with
  | .idle, .sendReliable data payloadType nowMs =>
      connection.core.sendReliableLedger suite send data payloadType nowMs
        connection.socket ledger
  | .receiving deadline outLen, .receivePass pass _ =>
      connection.core.pumpLedger suite send deadline (some outLen) pass
        connection.socket ledger
  | .flushing deadline, .flushPass driveMs checkMs pass =>
      let driven :=
        connection.core.driveQueueLedger suite send driveMs
          connection.socket ledger
      match connection.core.tryFlush suite send deadline driveMs checkMs
          connection.socket with
      | (some (.error (.unacknowledged _)), _, _) =>
          driven.report
      | (some _, _, _) =>
          driven
      | (none, core, socket) =>
          core.pumpLedger suite send (some deadline) none pass socket driven
  | _, _ =>
      ledger

/-- One event, of the connection and in the ledger. -/
def audit (audited : Audited ω) (event : Event) : Audited ω where
  connection := audited.connection.next suite send event
  ledger := audited.connection.ledgerAfter suite send event audited.ledger

/--
No message runs out of retries while the caller is in `recv`, and a flush with
an abandonment to report is not cut short.
-/
def heeds (connection : Connection ω) (event : Event) : Bool :=
  let core := connection.core
  match connection.call, event with
  | .receiving _ _, .receivePass pass _ =>
      core.peer.retransmit.patient pass.retransmitMs
  | .flushing deadline, .flushPass driveMs checkMs pass =>
      (core.peer.abandonedCount == 0 &&
          core.peer.retransmit.patient pass.retransmitMs) ||
        core.flushRuns suite send deadline driveMs checkMs pass
          connection.socket
  | _, _ =>
      true

/-- The caller is in `flush`. -/
def Flushing (connection : Connection ω) : Prop :=
  ∃ deadline, connection.call = .flushing deadline

/-- Losses are counted while a flush runs; outside one there are none. -/
structure Accounted (audited : Audited ω) : Prop where
  covers : audited.ledger.Covers audited.connection.core.peer.toOutbox
  clear : ¬audited.connection.Flushing →
      audited.ledger.Clear audited.connection.core.peer.toOutbox

namespace Accounted

variable {suite send}
variable {core : Core} {socket : ω} {ledger : Ledger}

theorem of_clear
    {audited : Audited ω} (covers : audited.ledger.Covers audited.connection.core.peer.toOutbox)
    (clear : audited.ledger.Clear audited.connection.core.peer.toOutbox) :
    Accounted audited :=
  ⟨covers, fun _ => clear⟩

/-- The flush reports, and what was lost is answered for. -/
theorem reported
    (balanced : ledger.Balanced core.peer.toOutbox) (noAbandoned : core.peer.abandoned = []) :
    Accounted ⟨⟨core, socket, .idle⟩, ledger.report⟩ :=
  have clear : ledger.report.Clear core.peer.toOutbox := ⟨rfl, noAbandoned⟩
  of_clear (clear.covers balanced.report) clear

/-- A pass of `recv` in which nothing is given up on. -/
theorem receivePass {deadline : Option Nat} {outLen checkMs : Nat} {pass : Pass}
    (accounted : Accounted ⟨⟨core, socket, .receiving deadline outLen⟩, ledger⟩)
    (patient : core.peer.retransmit.patient pass.retransmitMs = true) :
    Accounted (audit suite send ⟨⟨core, socket, .receiving deadline outLen⟩, ledger⟩
        (.receivePass pass checkMs)) := by
  have clear := accounted.clear (by rintro ⟨_, isFlushing⟩; cases isFlushing)
  obtain ⟨pumpedCovers, pumpedClear⟩ :=
    @Core.pump_covers ω suite send ledger core accounted.covers deadline
      (some outLen) pass socket (Or.inr patient)
  have after := pumpedClear patient clear
  unfold audit next step ledgerAfter
  dsimp only at pumpedCovers after ⊢
  rcases pumps : core.pump suite send deadline (some outLen) pass socket with
    ⟨error | (_ | data), pumped, socket'⟩
  all_goals rw [pumps] at pumpedCovers after
  · exact of_clear pumpedCovers after
  · dsimp only
    split <;> exact of_clear pumpedCovers after
  · exact of_clear pumpedCovers after

/-- A pass of `flush`. -/
theorem flushPass {deadline driveMs checkMs : Nat} {pass : Pass}
    (accounted : Accounted ⟨⟨core, socket, .flushing deadline⟩, ledger⟩)
    (heeded : (core.peer.abandonedCount = 0 ∧
          core.peer.retransmit.patient pass.retransmitMs = true) ∨
        core.flushRuns suite send deadline driveMs checkMs pass socket = true) :
    Accounted (audit suite send ⟨⟨core, socket, .flushing deadline⟩, ledger⟩
        (.flushPass driveMs checkMs pass)) := by
  obtain ⟨drivenCovers, noAbandoned, _, drivenClear⟩ :=
    Core.driveQueue_covers suite send accounted.covers driveMs socket
  unfold audit next step ledgerAfter
  dsimp only at drivenCovers noAbandoned drivenClear ⊢
  rcases tries :
      core.tryFlush suite send deadline driveMs checkMs socket with
    ⟨verdict, driven, between⟩
  rcases Core.tryFlush_cases suite send tries with
    ⟨error, rfl, drives⟩ | ⟨drives, rfl | ⟨count, rfl⟩ | ⟨rfl, _, uncounted⟩⟩
  all_goals rw [drives] at drivenCovers noAbandoned drivenClear
  · -- The queue could not be driven: there was nothing to report.
    have drivenNow : (Core.driveQueueLedger suite send core driveMs socket
        ledger).Clear driven.peer.toOutbox := by
      rcases heeded with ⟨uncounted, _⟩ | runs
      · exact drivenClear (accounted.covers.clear uncounted)
      · rw [Core.flushRuns, drives] at runs
        cases runs
    dsimp only
    split
    · exact reported drivenCovers.balanced noAbandoned
    · exact of_clear drivenCovers drivenNow
    · next impossible => cases impossible
  · -- The pass goes on to read.
    dsimp only
    rcases heeded with ⟨uncounted, patient⟩ | runs
    · have drivenPatient :=
        Core.driveQueue_patient suite send patient driveMs socket
      rw [drives] at drivenPatient
      obtain ⟨pumpedCovers, pumpedClear⟩ :=
        @Core.pump_covers ω suite send _ driven drivenCovers (some deadline)
          none pass between (Or.inr drivenPatient)
      have after := pumpedClear drivenPatient (drivenClear (accounted.covers.clear uncounted))
      rcases pumps : driven.pump suite send (some deadline) none pass
          between with ⟨error | data, pumped, socket'⟩
      all_goals
        rw [pumps] at pumpedCovers after
        exact of_clear pumpedCovers after
    · have pumpRuns : (driven.pump suite send (some deadline) none pass
            between).1.isOk = true := by
        rw [Core.flushRuns, tries, Bool.and_eq_true] at runs
        exact runs.2
      obtain ⟨pumpedCovers, _⟩ := Core.pump_covers suite send drivenCovers (Or.inl pumpRuns)
      rcases pumps : driven.pump suite send (some deadline) none pass
          between with ⟨error | data, pumped, socket'⟩
      · rw [pumps] at pumpRuns
        cases pumpRuns
      · rw [pumps] at pumpedCovers
        exact ⟨pumpedCovers, fun notFlushing =>
          (notFlushing ⟨deadline, rfl⟩).elim⟩
  · exact reported drivenCovers.balanced noAbandoned
  · exact of_clear drivenCovers (drivenCovers.clear uncounted)

/-- Every event allowed keeps the books. -/
theorem audit {audited : Audited ω} {event : Event}
    (heeded : audited.connection.heeds suite send event = true) (accounted : Accounted audited) :
    Accounted (audit suite send audited event) := by
  obtain ⟨⟨core, socket, call⟩, ledger⟩ := audited
  cases call with
  | idle =>
    have clear := accounted.clear (by rintro ⟨_, isFlushing⟩; cases isFlushing)
    cases event with
    | send data payloadType nowMs =>
      have unchanged :=
        core.sealAndTransmit_outbox suite send
          ⟨data, payloadType, none, none, core.limit⟩ nowMs socket
      refine of_clear ?_ ?_
      · change ledger.Covers
          (core.sealAndTransmit suite send _ _ _).2.1.peer.toOutbox
        rw [unchanged]
        exact accounted.covers
      · change ledger.Clear
          (core.sealAndTransmit suite send _ _ _).2.1.peer.toOutbox
        rw [unchanged]
        exact clear
    | sendReliable data payloadType nowMs =>
      obtain ⟨sentCovers, sentClear⟩ :=
        Core.sendReliable_covers suite send accounted.covers data payloadType nowMs socket
      exact of_clear sentCovers (sentClear clear)
    | recv outLen nowMs =>
      unfold Connection.audit next step
      dsimp only
      split <;> exact of_clear accounted.covers clear
    | flush timeout nowMs =>
      have cleared : ledger.Clear { core.peer.toOutbox with abandonedCount := 0 } :=
        ⟨clear.noLoss, clear.noAbandoned⟩
      exact of_clear (cleared.covers (accounted.covers.balanced.same rfl rfl)) cleared
    | receivePass pass checkMs => exact accounted
    | flushPass driveMs checkMs pass => exact accounted
  | receiving deadline outLen =>
    cases event with
    | receivePass pass checkMs => exact accounted.receivePass heeded
    | send | sendReliable | recv | flush | flushPass => exact accounted
  | flushing deadline =>
    cases event with
    | flushPass driveMs checkMs pass =>
      refine accounted.flushPass ?_
      simpa [heeds] using heeded
    | send | sendReliable | recv | flush | receivePass => exact accounted

end Accounted

/-- A flush that returns without error. -/
def flushesOk (connection : Connection ω) (event : Event) : Prop :=
  (connection.step suite send event).1 = some (.flushed (.ok ()))

/-- Nothing is hidden by a flush that returns without error. -/
theorem Accounted.flushed {suite : Suite} {send : ω → Bytes → Except SendFailure Unit × ω}
    {audited : Audited ω} {event : Event} (accounted : Accounted audited)
    (flushes : audited.connection.flushesOk suite send event) :
    ∀ number ∈ (Connection.audit suite send audited event).ledger.accepted,
      (Connection.audit suite send audited event).ledger.FullyAcked number ∨
        number ∈ (Connection.audit suite send audited event).ledger.reported := by
  obtain ⟨⟨core, socket, call⟩, ledger⟩ := audited
  unfold flushesOk step at flushes
  dsimp only at flushes
  split at flushes
  · cases flushes
  · cases flushes
  · split at flushes <;> cases flushes
  · cases flushes
  · split at flushes
    · cases flushes
    · cases flushes
    · split at flushes <;> cases flushes
  · next deadline driveMs checkMs pass =>
      obtain ⟨drivenCovers, _⟩ := Core.driveQueue_covers suite send accounted.covers driveMs socket
      unfold Connection.audit ledgerAfter
      dsimp only at drivenCovers ⊢
      rcases tries :
          core.tryFlush suite send deadline driveMs checkMs socket with
        ⟨verdict, driven, between⟩
      rw [tries] at flushes
      rcases Core.tryFlush_cases suite send tries with
        ⟨error, rfl, drives⟩ | ⟨drives, rfl | ⟨count, rfl⟩ | ⟨rfl, drained, uncounted⟩⟩
      · cases flushes
      · dsimp only at flushes
        split at flushes <;> cases flushes
      · cases flushes
      rw [drives] at drivenCovers
      rw [Core.drained, Bool.and_eq_true, beq_iff_eq, List.isEmpty_iff] at drained
      have clear := drivenCovers.clear uncounted
      intro number accepted
      by_cases isReported :
          number ∈ (Core.driveQueueLedger suite send core driveMs socket ledger).reported
      · exact Or.inr isReported
      refine Or.inl (drivenCovers.balanced.fullyAcked drained.1 drained.2
        accepted ?_ isReported)
      rw [clear.noLoss]
      exact List.not_mem_nil
  · cases flushes

/--
In every run of sends, receives and flushes over any network and any socket,
in which no message runs out of retries inside `recv` and no flush with an
abandonment to report is cut short: when a flush returns without error, every
message accepted was acknowledged in full, or a flush since it was given up on
has reported that.
-/
theorem flush_answers_for_all
    {connection : Connection ω}
    {events : List Event}
    (fresh : connection.core.peer.toOutbox.Fresh)
    (heeded :
      Execution.Admits (audit suite send)
        (fun audited event => audited.connection.heeds suite send event = true)
        ⟨connection, .empty⟩ events) :
    Execution.Admits (audit suite send)
      (fun audited event =>
        audited.connection.flushesOk suite send event →
        ∀ number ∈ (audit suite send audited event).ledger.accepted,
          (audit suite send audited event).ledger.FullyAcked number ∨
            number ∈ (audit suite send audited event).ledger.reported)
      ⟨connection, .empty⟩ events := by
  have balanced := Ledger.balanced_empty fresh
  have clear : Ledger.empty.Clear connection.core.peer.toOutbox :=
    ⟨rfl, fresh.noneAbandoned⟩
  refine Execution.admits_of_invariant Accounted.audit ?_ heeded
    (Accounted.of_clear (clear.covers balanced) clear)
  intro audited event _ accounted flushes
  exact accounted.flushed flushes

/-- The same connection, whose `recv` gives up waiting in time. -/
def impatientConnection : Connection Unit :=
  { smallConnection with
    core := { smallConnection.core with readTimeout := some 7000000 } }

/-- The peer's acknowledgement of one identifier. -/
def ackOf (id : MessageId) : Bytes :=
  match (SplitMessages.System.smallPair.bob.sealAck
      SplitMessages.System.smallSuite.aead ⟨id, 0⟩ 60).1 with
  | .ok frame =>
      frame
  | .error _ =>
      []

/-- Times far enough apart for each to find a retransmission due. -/
def lateTimes : List Nat :=
  [1000000, 2000000, 3000000, 4000000, 5000000, 6000000]

/-- A lost message reported by one flush, and the next one acknowledged. -/
def lossInFlush : List Event :=
  [.sendReliable [1] .opaqueBytes 0, .flush 7000000 1] ++
    lateTimes.map (fun nowMs =>
      .flushPass nowMs nowMs (quietPass nowMs .timedOut)) ++
    [.flushPass 6000001 6000001 (quietPass 6000001 .timedOut),
      .sendReliable [2] .opaqueBytes 6000002,
      .flush 1000 6000003,
      .flushPass 6000004 6000004 (quietPass 6000005 (.datagram (ackOf 1))),
      .flushPass 6000006 6000006 (quietPass 6000006 .timedOut)]

theorem flush_answers_for_loss_in_flush :
    (Execution.run (audit SplitMessages.System.smallSuite sendsAll)
        ⟨smallConnection, .empty⟩ lossInFlush).ledger.reported = [0] ∧
      Execution.Admits (audit SplitMessages.System.smallSuite sendsAll)
        (fun audited event =>
          audited.connection.flushesOk SplitMessages.System.smallSuite
              sendsAll event →
          ∀ number ∈
            (audit SplitMessages.System.smallSuite sendsAll audited
              event).ledger.accepted,
            (audit SplitMessages.System.smallSuite sendsAll audited
                event).ledger.FullyAcked number ∨
              number ∈
                (audit SplitMessages.System.smallSuite sendsAll audited
                  event).ledger.reported)
        ⟨smallConnection, .empty⟩ lossInFlush :=
  ⟨by decide +kernel,
    flush_answers_for_all SplitMessages.System.smallSuite sendsAll
      Outbox.fresh_new (by decide +kernel)⟩

/-- The same loss, while the caller is in `recv`. -/
def lossInRecv : List Event :=
  [.sendReliable [1] .opaqueBytes 0, .recv 100 1] ++
    lateTimes.map (fun nowMs =>
      .receivePass (quietPass nowMs .timedOut) nowMs) ++
    [.receivePass (quietPass 7000001 .timedOut) 7000001, .flush 1000 7000002]

/-- The flush that follows returns without error, and nobody was told. -/
theorem flush_hides_loss_in_recv :
    let audited :=
      Execution.run (audit SplitMessages.System.smallSuite sendsAll)
        ⟨impatientConnection, .empty⟩ lossInRecv
    let flush : Event :=
      .flushPass 7000003 7000003 (quietPass 7000003 .timedOut)
    let after := audit SplitMessages.System.smallSuite sendsAll audited flush
    (audited.connection.step SplitMessages.System.smallSuite sendsAll
        flush).1 = some (.flushed (.ok ())) ∧
      after.ledger.accepted = [0] ∧
      after.ledger.frames = [1] ∧
      after.ledger.acked = [] ∧
      after.ledger.reported = [] := by
  decide +kernel

end Connection

end Fectp
