import Fectp.Connection
import Fectp.RetransmitSlots
import Fectp.SplitDelivery

namespace Fectp

/-!
# What a connection sleeps on

A pass settles at most one queued message before it polls, so a message
waiting behind one that has just finished may find nothing in flight to wake
the connection.  Below, exactly when it does.
-/

namespace RetransmitQueue

/-- Some message in flight is not given up on by a poll at this time. -/
def outlives (queue : RetransmitQueue) (nowMs : Nat) : Bool :=
  queue.entries.any (!queue.spent nowMs ·)

variable (queue : RetransmitQueue) (nowMs : Nat)

theorem inFlight_pos_iff :
    0 < queue.inFlight ↔ ∃ entry, some entry ∈ queue.slots := by
  rw [inFlight, List.countP_pos_iff]
  constructor
  · rintro ⟨slot, member, occupied⟩
    obtain ⟨entry, rfl⟩ := Option.isSome_iff_exists.mp occupied
    exact ⟨entry, member⟩
  · rintro ⟨entry, member⟩
    exact ⟨_, member, rfl⟩

theorem outlives_iff :
    queue.outlives nowMs = true ↔
      ∃ entry, some entry ∈ queue.slots ∧ queue.spent nowMs entry = false := by
  rw [outlives, List.any_eq_true]
  constructor
  · rintro ⟨entry, member, lives⟩
    exact ⟨entry, (by simpa [entries] using member), (by simpa using lives)⟩
  · rintro ⟨entry, member, lives⟩
    exact ⟨entry, (by simpa [entries] using member), (by simpa using lives)⟩

/-- Something in flight has an earliest deadline. -/
theorem nextDeadlineMs_of_inFlight {queue : RetransmitQueue} (occupied : 0 < queue.inFlight) :
    ∃ earliest, queue.nextDeadlineMs = some earliest := by
  obtain ⟨entry, member⟩ := queue.inFlight_pos_iff.mp occupied
  cases isMin : queue.nextDeadlineMs with
  | some earliest => exact ⟨earliest, rfl⟩
  | none =>
    have noEntries := List.min?_eq_none_iff.mp isMin
    have isEntry : entry ∈ queue.entries := by
      simpa [entries] using member
    rw [List.map_eq_nil_iff.mp noEntries] at isEntry
    cases isEntry

/-- With room to report them all, a poll empties just the spent slots. -/
theorem pollSlots_occupied
    (rto : Rto) {room : Nat} {slots : List (Option InFlight)} (fits : slots.length ≤ room) :
    (∃ entry, some entry ∈ (pollSlots queue.maxRetries nowMs rto room slots).1) ↔
      ∃ entry, some entry ∈ slots ∧ queue.spent nowMs entry = false := by
  induction slots generalizing room with
  | nil => simp [pollSlots]
  | cons slot rest inductionHypothesis =>
    rw [List.length_cons] at fits
    cases slot with
    | none =>
      simp only [pollSlots, List.mem_cons, reduceCtorEq, false_or]
      exact inductionHypothesis (Nat.le_of_succ_le fits)
    | some entry =>
      simp only [pollSlots]
      split
      · next early =>
          refine iff_of_true ⟨entry, List.mem_cons_self⟩ ⟨entry, List.mem_cons_self, ?_⟩
          simp [spent, Nat.not_le.mpr early]
      next isDue =>
      cases room with
      | zero => exact (Nat.not_succ_le_zero _ fits).elim
      | succ room =>
        have rest := @inductionHypothesis room (by omega)
        simp only
        split
        · next exhausted =>
            simp only [List.mem_cons, reduceCtorEq, false_or, rest]
            have isSpent : queue.spent nowMs entry = true := by
              simp only [spent, Bool.and_eq_true, decide_eq_true_eq]
              exact ⟨Nat.le_of_not_lt isDue, exhausted⟩
            constructor
            · rintro ⟨other, member, lives⟩
              exact ⟨other, Or.inr member, lives⟩
            · rintro ⟨other, isHead | member, lives⟩
              · cases isHead
                rw [isSpent] at lives
                cases lives
              · exact ⟨other, member, lives⟩
        next remaining =>
        refine iff_of_true ⟨_, List.mem_cons_self⟩ ⟨entry, List.mem_cons_self, ?_⟩
        simp [spent, Nat.not_le.mp remaining]

/-- Something stays in flight exactly if something outlives the poll. -/
theorem poll_inFlight_pos_iff :
    0 < (queue.poll nowMs maxInFlight).2.inFlight ↔ queue.outlives nowMs = true := by
  rw [inFlight_pos_iff, poll_slots, outlives_iff]
  exact queue.pollSlots_occupied nowMs queue.rto (Nat.le_of_eq queue.slots_length)

/-- A message just registered is not given up on, whenever it is polled. -/
theorem register_outlives {queue registered : RetransmitQueue} {nowMs : Nat} {id : MessageId}
    (accepted : queue.register nowMs = .ok (id, registered)) (pollMs : Nat) :
    registered.outlives pollMs = true := by
  obtain ⟨_, _, _, free, _, slots, _, _⟩ := register_ok accepted
  have positive := registered.maxRetries_pos
  rw [outlives_iff, slots]
  refine ⟨_, List.mem_set free _, ?_⟩
  simp only [spent, firstTransmission, Bool.and_eq_false_imp]
  intro _
  exact decide_eq_false (Nat.not_le.mpr positive)

end RetransmitQueue

namespace Outbox

variable {ω : Type*}

/-- The front message, its losses marked, has a fragment the window takes. -/
def frontFeeds (outbox : Outbox) (nowMs : Nat) : Bool :=
  match outbox.queue with
  | [] =>
      false
  | job :: _ =>
      let job := job.markLost outbox.abandoned
      !job.lost && job.next < job.count &&
        (outbox.retransmit.register nowMs).isOk

/-- One message is queued, and it is lost or has nothing left pending. -/
def settlesLast (outbox : Outbox) : Bool :=
  match outbox.queue with
  | [job] =>
      ((job.markLost outbox.abandoned).retainPending outbox.pending).done
  | _ =>
      false

variable (emit : ω → Outgoing → Except Error Unit × ω) {outbox : Outbox}

/-- Feeding that gets as far as one fragment leaves it in flight. -/
theorem feed_outlives (nowMs left : Nat) (outbox : Outbox) {job : Queued} {rest : List Queued}
    (isFront : outbox.queue = job :: rest)
    (feeds : (!job.lost && job.next < job.count && (outbox.retransmit.register nowMs).isOk) = true)
    (world : ω) (pollMs : Nat) :
    (feed emit nowMs (left + 1) outbox world).2.1.retransmit.outlives pollMs = true := by
  simp only [Bool.and_eq_true, Bool.not_eq_true', decide_eq_true_eq] at feeds
  obtain ⟨⟨intact, ready⟩, accepted⟩ := feeds
  cases registered : outbox.retransmit.register nowMs with
  | error error =>
    rw [registered] at accepted
    cases accepted
  | ok entry =>
    obtain ⟨id, retransmit⟩ := entry
    have lives := RetransmitQueue.register_outlives registered pollMs
    unfold feed
    simp only [isFront, registered, intact, Bool.false_eq_true, false_or,
      ge_iff_le, Nat.not_le.mpr ready, if_false]
    cases emit world (job.pendingAt id).outgoing with
    | mk result world' =>
      cases result with
      | error error => exact lives
      | ok _ =>
        -- Whatever is fed after it only adds to the window.
        apply feed_invariant (fun outbox _ => outbox.retransmit.outlives pollMs = true)
        · intro _ _ _ _ _ _ _ _ _ _ _ registered _ _
          exact RetransmitQueue.register_outlives registered pollMs
        · intro _ _ _ _ _ _ _ _ _ _ registered _ _
          exact RetransmitQueue.register_outlives registered pollMs
        · exact lives

/-- With the front message feeding, something outlives the next poll. -/
theorem driveQueue_outlives
    {nowMs : Nat} (feeds : outbox.frontFeeds nowMs = true) (world : ω) (pollMs : Nat) :
    (outbox.driveQueue emit nowMs world).2.1.retransmit.outlives pollMs =
      true := by
  unfold frontFeeds at feeds
  unfold driveQueue
  cases isFront : outbox.queue with
  | nil =>
    rw [isFront] at feeds
    cases feeds
  | cons job rest =>
    rw [isFront] at feeds
    dsimp only at feeds ⊢
    obtain ⟨left, isLeft⟩ : ∃ left, (job.markLost outbox.abandoned).count -
              (job.markLost outbox.abandoned).next = left + 1 := by
      simp only [Bool.and_eq_true, decide_eq_true_eq] at feeds
      exact Nat.exists_eq_succ_of_ne_zero (Nat.sub_ne_zero_of_lt feeds.1.2)
    rw [isLeft]
    have lives :=
      feed_outlives emit nowMs left
        { outbox with
          abandoned := []
          queue := job.markLost outbox.abandoned :: rest }
        rfl feeds world pollMs
    generalize feed emit nowMs (left + 1) _ world = outcome at lives ⊢
    obtain ⟨result, after, world'⟩ := outcome
    cases result with
    | error error => exact lives
    | ok _ =>
      rw [settle_retransmit]
      exact lives

/-- Otherwise a pass over the queue only settles. -/
theorem driveQueue_idle {nowMs : Nat} (idle : outbox.frontFeeds nowMs = false) (world : ω) :
    (outbox.driveQueue emit nowMs world).2.1.retransmit = outbox.retransmit ∧
      ((outbox.driveQueue emit nowMs world).2.1.queue = [] ↔
        outbox.queue = [] ∨ outbox.settlesLast = true) := by
  unfold frontFeeds at idle
  unfold driveQueue settlesLast
  cases isFront : outbox.queue with
  | nil => exact ⟨rfl, iff_of_true rfl (Or.inl rfl)⟩
  | cons job rest =>
    rw [isFront] at idle
    dsimp only at idle ⊢
    rw [feed_refused emit nowMs _
      { outbox with
        abandoned := []
        queue := job.markLost outbox.abandoned :: rest }
      rfl idle]
    simp only [settle]
    split
    · next isDone =>
        refine ⟨rfl, ?_⟩
        cases rest with
        | nil => exact iff_of_true rfl (Or.inr isDone)
        | cons second rest => simp
    next undone =>
    refine ⟨rfl, ?_⟩
    cases rest with
    | nil => simpa using undone
    | cons second rest => simp

/-- Some message stays in flight, or none stays queued. -/
def staysBusy (outbox : Outbox) (queueMs retransmitMs : Nat) : Bool :=
  outbox.queue.isEmpty ||
    outbox.retransmit.outlives retransmitMs ||
    outbox.frontFeeds queueMs ||
    outbox.settlesLast

/--
Once the queue and then the retransmissions have been driven, a message is
left queued with nothing in flight exactly if the outbox was not to stay busy.
-/
theorem staysBusy_iff {ω' : Type*} (emit' : ω' → Outgoing → Except Error Unit × ω')
    {driven after : Outbox} {queueMs retransmitMs : Nat} {world : ω} {world' : ω'}
    (isDriven : (outbox.driveQueue emit queueMs world).2.1 = driven)
    (isAfter : (driven.driveRetransmits emit' retransmitMs world').2.1 = after) :
    (after.queue ≠ [] → 0 < after.retransmit.inFlight) ↔
      outbox.staysBusy queueMs retransmitMs = true := by
  obtain ⟨polled, sameQueue⟩ := driveRetransmits_polls emit' driven retransmitMs world'
  rw [isAfter] at polled sameQueue
  have occupied : 0 < after.retransmit.inFlight ↔
        driven.retransmit.outlives retransmitMs = true := by
    rw [polled]
    exact RetransmitQueue.poll_inFlight_pos_iff _ _
  rw [occupied, sameQueue]
  simp only [staysBusy, Bool.or_eq_true, List.isEmpty_iff]
  cases feeds : outbox.frontFeeds queueMs with
  | true =>
    have lives := driveQueue_outlives emit feeds world retransmitMs
    rw [isDriven] at lives
    exact iff_of_true (fun _ => lives) (Or.inl (Or.inr rfl))
  | false =>
    obtain ⟨sameRetransmit, emptied⟩ := driveQueue_idle emit feeds world
    rw [isDriven] at sameRetransmit emptied
    rw [sameRetransmit]
    constructor
    · intro busy
      by_cases isEmpty : driven.queue = []
      · rcases emptied.mp isEmpty with already | settles
        · exact Or.inl (Or.inl (Or.inl already))
        · exact Or.inr settles
      · exact Or.inl (Or.inl (Or.inr (busy isEmpty)))
    · rintro (((already | lives) | absurd) | settles) queued
      · exact (queued (emptied.mpr (Or.inl already))).elim
      · exact lives
      · cases absurd
      · exact (queued (emptied.mpr (Or.inr settles))).elim

end Outbox

namespace Core

variable {ω : Type*}
  (suite : Suite)
  (send : ω → Bytes → Except SendFailure Unit × ω)

/-- What a pass that blocks has done. -/
theorem prepare_blocks {core after : Core} {deadline : Option Nat} {flushing : Bool} {pass : Pass}
    {socket socket' : ω} {timeout : Option Nat}
    (blocks : core.prepare suite send deadline flushing pass socket =
        (.ok (.blocks timeout), after, socket')) :
    timeout = (after.wait deadline pass.waitMs).map (max · 1) ∧ ∃ driven between,
        core.driveQueue suite send pass.queueMs socket = (.ok (), driven, between) ∧
          after.peer.toOutbox =
            (driven.driveRetransmits suite send pass.retransmitMs between).2.1.peer.toOutbox := by
  unfold prepare at blocks
  split at blocks
  · cases blocks
  next driven between drives =>
  split at blocks
  · cases blocks
  next resent between' resends =>
  split at blocks
  · cases blocks
  split at blocks
  · cases blocks
  next spoken between'' keeps =>
  simp only [Prod.mk.injEq, Except.ok.injEq, Waiting.blocks.injEq] at blocks
  obtain ⟨isTimeout, isAfter, _⟩ := blocks
  subst isAfter
  refine ⟨isTimeout.symm, driven, between, drives, ?_⟩
  have spokenSame :=
    resent.keepAlive_outbox suite send pass.keepaliveToken pass.waitMs between'
  rw [keeps] at spokenSame
  rw [drivePmtu_outbox, spokenSame, resends]

/-- The earliest retransmission bounds the wait. -/
theorem wait_le (core : Core) (deadline : Option Nat) (nowMs : Nat) {earliest : Nat}
    (isEarliest : core.peer.retransmit.nextDeadlineMs = some earliest) :
    ∃ wait, core.wait deadline nowMs = some wait ∧ wait ≤ earliest - nowMs := by
  have member : earliest - nowMs ∈ (core.peer.retransmit.nextDeadlineMs.map (· - nowMs)).toList ++
          (deadline.map (· - nowMs)).toList ++
          (core.keepaliveDueMs.map (· - nowMs)).toList ++
          (core.pmtuDueIn nowMs).toList := by
    simp [isEarliest]
  unfold wait
  revert member
  generalize (core.peer.retransmit.nextDeadlineMs.map (· - nowMs)).toList ++
      (deadline.map (· - nowMs)).toList ++
      (core.keepaliveDueMs.map (· - nowMs)).toList ++
      (core.pmtuDueIn nowMs).toList = candidates
  intro member
  cases isMin : candidates.min? with
  | none =>
    rw [List.min?_eq_none_iff.mp isMin] at member
    cases member
  | some least => exact ⟨least, rfl, (List.min?_eq_some_iff.mp isMin).2 _ member⟩

end Core

namespace Connection

variable {ω : Type*}

/-- A read about to block. -/
structure Block where
  /-- The state the pass began with. -/
  before : Core
  pass : Pass
  /-- The state while it waits. -/
  core : Core
  timeout : Option Nat

/-- A queued message has something in flight to wake the connection by. -/
def Block.Awake (block : Block) : Prop :=
  block.core.peer.queue ≠ [] →
    0 < block.core.peer.retransmit.inFlight ∧
      ∃ earliest timeout,
        block.core.peer.retransmit.nextDeadlineMs = some earliest ∧
          block.timeout = some timeout ∧
          timeout ≤ max (earliest - block.pass.waitMs) 1

section Run

variable (suite : Suite)
  (send : ω → Bytes → Except SendFailure Unit × ω)

/-- The read a pass blocks on, if it gets that far. -/
def blockIn
    (core : Core)
    (deadline : Option Nat)
    (flushing : Bool)
    (pass : Pass)
    (socket : ω) :
    Option Block :=
  match core.prepare suite send deadline flushing pass socket with
  | (.ok (.blocks timeout), after, _) =>
      some ⟨core, pass, after, timeout⟩
  | _ =>
      none

/-- The read an event blocks on, if it does. -/
def blockOf (connection : Connection ω) (event : Event) : Option Block :=
  match connection.call, event with
  | .receiving deadline _, .receivePass pass _ =>
      blockIn suite send connection.core deadline false pass connection.socket
  | .flushing deadline, .flushPass driveMs checkMs pass =>
      match connection.core.tryFlush suite send deadline driveMs checkMs
          connection.socket with
      | (none, core, socket) =>
          blockIn suite send core (some deadline) true pass socket
      | (some _, _, _) =>
          none
  | _, _ =>
      none

/-- A blocked read is awake exactly if its pass began with enough to do. -/
theorem blockIn_awake_iff {core : Core} {deadline : Option Nat} {flushing : Bool} {pass : Pass}
    {socket : ω} {block : Block}
    (blocked : blockIn suite send core deadline flushing pass socket = some block) :
    block.Awake ↔
      block.before.peer.toOutbox.staysBusy block.pass.queueMs block.pass.retransmitMs = true := by
  unfold blockIn at blocked
  split at blocked
  · next timeout after socket' prepared =>
      cases blocked
      obtain ⟨isTimeout, driven, between, drives, sameOutbox⟩ :=
        Core.prepare_blocks suite send prepared
      have isDriven : (core.peer.toOutbox.driveQueue
              (Sealing.emit suite core.size (sendStamped send pass.queueMs)) pass.queueMs
              (core.peer.toSealing, socket, core.lastSentMs)).2.1 =
            driven.peer.toOutbox := by
        rw [← congrArg (·.2.1.peer.toOutbox) drives]
        rfl
      rw [← Outbox.staysBusy_iff _ _ isDriven
        (Core.driveRetransmits_outbox suite send driven pass.retransmitMs
          between).symm, ← sameOutbox]
      refine forall_congr' fun queued => ?_
      constructor
      · rintro ⟨occupied, _⟩
        exact occupied
      · intro occupied
        obtain ⟨earliest, isEarliest⟩ := RetransmitQueue.nextDeadlineMs_of_inFlight occupied
        obtain ⟨wait, isWait, bounded⟩ := after.wait_le deadline pass.waitMs isEarliest
        refine ⟨occupied, earliest, max wait 1, isEarliest, ?_, ?_⟩
        · rw [isTimeout, isWait]
          rfl
        · exact max_le_max_right 1 bounded
  · cases blocked

/--
In every run of sends, receives and flushes, over any network: a read blocks
on a queued message with nothing in flight, or past the earliest
retransmission, exactly if its pass began with the outbox not busy enough.
-/
theorem sleeps_awake_iff (connection : Connection ω) (events : List Event) :
    Execution.Admits (next suite send)
      (fun connection event =>
        ∀ block,
          blockOf suite send connection event = some block →
          (block.Awake ↔
            block.before.peer.toOutbox.staysBusy block.pass.queueMs
              block.pass.retransmitMs = true))
      connection events := by
  induction events generalizing connection with
  | nil =>
      trivial
  | cons event rest inductionHypothesis =>
      refine ⟨?_, inductionHypothesis _⟩
      intro block blocked
      unfold blockOf at blocked
      split at blocked
      · exact blockIn_awake_iff suite send blocked
      · split at blocked
        · exact blockIn_awake_iff suite send blocked
        · cases blocked
      · cases blocked

end Run

/-! ### Two messages, the second behind one just acknowledged -/

def smallConnection : Connection Unit :=
  new (Core.new SplitMessages.System.smallPair.alice 60 false) ()

def sendsAll (socket : Unit) (_ : Bytes) :
    Except SendFailure Unit × Unit :=
  (.ok (), socket)

/-- The peer's acknowledgement of the first two identifiers. -/
def ackOfFirstTwo : Bytes :=
  match (SplitMessages.System.smallPair.bob.sealAck
      SplitMessages.System.smallSuite.aead ⟨1, 1⟩ 60).1 with
  | .ok frame =>
      frame
  | .error _ =>
      []

def quietPass (nowMs : Nat) (reading : Reading) : Pass where
  queueMs := nowMs
  retransmitMs := nowMs
  waitMs := nowMs
  ingestMs := nowMs
  keepaliveToken := []
  probeTokens := []
  reading := reading

def twoQueued : List Event :=
  [.sendReliable (List.replicate 27 7) .opaqueBytes 0,
    .sendReliable (List.replicate 27 8) .opaqueBytes 0,
    .recv 100 1,
    .receivePass (quietPass 1 (.datagram ackOfFirstTwo)) 50]

/-- The second message is queued, nothing is in flight, and no timeout set. -/
theorem sleeps_on_second_message :
    let connection :=
      Execution.run (next SplitMessages.System.smallSuite sendsAll)
        smallConnection twoQueued
    (blockOf SplitMessages.System.smallSuite sendsAll connection
        (.receivePass (quietPass 60 .timedOut) 61)).map
      (fun block =>
        (block.core.peer.queue.length,
          block.core.peer.retransmit.inFlight, block.timeout)) =
      some (1, 0, none) := by
  decide +kernel

end Connection

end Fectp
