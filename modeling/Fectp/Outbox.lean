import Fectp.Chunks
import Fectp.Frame
import Fectp.RetransmitSlots

namespace Fectp

/-!
# The sending half of a peer

Messages waiting for an acknowledgement, messages being fed out fragment by
fragment, and the records of what was given up on.  A frame leaves through
`emit`, which stands for sealing it and handing it to the socket: the caller's
world is whatever those two read and change, and either may fail.
-/

/-- Messages a peer may have part-sent at once. -/
def maxQueued : Nat := 4

/-- What the caller knows about the shape of a payload. -/
inductive PayloadType where
  | opaqueBytes
  | i16 (channels : UInt8)
  | i32 (channels : UInt8)
  | elements (size : UInt8)
  deriving Repr, DecidableEq

/-- A message being fed out one fragment at a time. -/
structure Queued where
  message : BitVec 32
  payloadType : PayloadType
  data : Bytes
  perFragment : Nat
  /-- The datagram limit the message was cut for. -/
  limit : Nat
  count : Nat
  /-- Next fragment to hand to the window. -/
  next : Nat
  /-- Fragments sent but not yet acknowledged. -/
  outstanding : List MessageId
  /-- Set when a fragment was given up on. -/
  lost : Bool
  deriving Repr, DecidableEq

/-- What a pass over the outgoing queue finished. -/
structure Finished where
  delivered : Bool
  deriving Repr, DecidableEq

/-- A reliable message awaiting acknowledgement, kept to be resent. -/
structure Pending where
  id : MessageId
  payloadType : PayloadType
  data : Bytes
  fragment : Option Fragment
  limit : Nat
  deriving Repr, DecidableEq

/-- What sealing is asked for. -/
structure Outgoing where
  data : Bytes
  payloadType : PayloadType
  messageId : Option MessageId
  fragment : Option Fragment
  limit : Nat
  deriving Repr, DecidableEq

namespace Queued

/-- The fragment at an index, as it is sealed under an identifier. -/
def pendingAt (job : Queued) (id : MessageId) : Pending where
  id := id
  payloadType := job.payloadType
  data := Chunks.chunk job.perFragment job.data job.next
  fragment := some ⟨job.message, job.next, job.count⟩
  limit := job.limit

/-- Takes out the identifiers given up on, which lose the message. -/
def markLost (job : Queued) (lost : List MessageId) : Queued :=
  if lost.isEmpty then
    job
  else
    { job with
      lost := job.lost || job.outstanding.any (lost.contains ·)
      outstanding := job.outstanding.filter (!lost.contains ·) }

/-- Keeps the outstanding fragments that still await acknowledgement. -/
def retainPending (job : Queued) (pending : List Pending) : Queued :=
  { job with
    outstanding := job.outstanding.filter fun id => pending.any (·.id == id) }

/-- Every fragment is settled, or one of them is lost. -/
def done (job : Queued) : Bool :=
  job.lost || (job.next == job.count && job.outstanding.isEmpty)

/-- No fragment was handed to the window yet. -/
structure Untouched (job : Queued) : Prop where
  unlost : job.lost = false
  isFirst : job.next = 0
  noneOut : job.outstanding = []
  someLeft : 0 < job.count

@[simp] theorem markLost_message (job : Queued) (lost : List MessageId) :
    (job.markLost lost).message = job.message := by
  unfold markLost
  split <;> rfl

@[simp] theorem markLost_count (job : Queued) (lost : List MessageId) :
    (job.markLost lost).count = job.count := by
  unfold markLost
  split <;> rfl

@[simp] theorem markLost_next (job : Queued) (lost : List MessageId) :
    (job.markLost lost).next = job.next := by
  unfold markLost
  split <;> rfl

variable {job : Queued}

theorem mem_markLost_outstanding {lost : List MessageId} {id : MessageId} :
    id ∈ (job.markLost lost).outstanding ↔ id ∈ job.outstanding ∧ id ∉ lost := by
  unfold markLost
  split
  · next isEmpty => simp [List.isEmpty_iff.mp isEmpty]
  · simp [List.mem_filter]

/-- A message is lost once one of its fragments is given up on. -/
theorem markLost_lost {lost : List MessageId} :
    (job.markLost lost).lost = true ↔ job.lost = true ∨ ∃ id ∈ job.outstanding, id ∈ lost := by
  unfold markLost
  split
  · next isEmpty => simp [List.isEmpty_iff.mp isEmpty]
  · simp

theorem mem_retainPending_outstanding {pending : List Pending} {id : MessageId} :
    id ∈ (job.retainPending pending).outstanding ↔
      id ∈ job.outstanding ∧ ∃ entry ∈ pending, entry.id = id := by
  simp [retainPending, List.mem_filter]

end Queued

namespace Pending

/-- What resending asks sealing for. -/
def outgoing (pending : Pending) : Outgoing where
  data := pending.data
  payloadType := pending.payloadType
  messageId := some pending.id
  fragment := pending.fragment
  limit := pending.limit

end Pending

/-- The sender side of the reliability layer of one peer. -/
structure Outbox where
  retransmit : RetransmitQueue
  pending : List Pending
  /-- Identifiers abandoned since the queue last looked. -/
  abandoned : List MessageId
  /-- Messages abandoned that no queued job was waiting on, a `u32`. -/
  abandonedUnqueued : Nat
  /-- Messages abandoned since a caller last cleared this, a `u32`. -/
  abandonedCount : Nat
  nextMessage : BitVec 32
  queue : List Queued
  deriving Repr, DecidableEq

namespace Outbox

def new : Outbox where
  retransmit := .new
  pending := []
  abandoned := []
  abandonedUnqueued := 0
  abandonedCount := 0
  nextMessage := 0
  queue := []

/-- Nothing was handed to the outbox yet. -/
structure Fresh (outbox : Outbox) : Prop where
  noneInFlight : ∀ slot ∈ outbox.retransmit.slots, slot = none
  noneQueued : outbox.queue = []
  noneAbandoned : outbox.abandoned = []

theorem fresh_new : new.Fresh where
  noneInFlight := fun _ member => List.eq_of_mem_replicate member
  noneQueued := rfl
  noneAbandoned := rfl

variable {ω : Type*}

/--
Feeds the front message into the window, one fragment for each of `left`
remaining, until the window is full.  A failure after registration leaves the
identifier in the window.
-/
def feed (emit : ω → Outgoing → Except Error Unit × ω) (nowMs : Nat) :
    Nat → Outbox → ω → Except Error Unit × Outbox × ω
  | 0, outbox, world =>
      (.ok (), outbox, world)
  | left + 1, outbox, world =>
      match outbox.queue with
      | [] =>
          (.ok (), outbox, world)
      | job :: rest =>
          if job.lost ∨ job.next ≥ job.count then
            (.ok (), outbox, world)
          else
            match outbox.retransmit.register nowMs with
            | .error .windowFull =>
                (.ok (), outbox, world)
            | .error error =>
                (.error (.protocol error), outbox, world)
            | .ok (id, retransmit) =>
                let outbox := { outbox with retransmit := retransmit }
                let fragment := job.pendingAt id
                match emit world fragment.outgoing with
                | (.error error, world) =>
                    (.error error, outbox, world)
                | (.ok (), world) =>
                    let job :=
                      { job with
                        outstanding := job.outstanding ++ [id]
                        next := job.next + 1 }
                    feed emit nowMs left
                      { outbox with
                        pending := outbox.pending ++ [fragment]
                        queue := job :: rest }
                      world

/-- Strikes off what is settled and pops the front message if it is done. -/
def settle (outbox : Outbox) : Option Finished × Outbox :=
  match outbox.queue with
  | [] =>
      (none, outbox)
  | job :: rest =>
      let job := job.retainPending outbox.pending
      if job.done then
        (some ⟨!job.lost⟩, { outbox with queue := rest })
      else
        (none, { outbox with queue := job :: rest })

/-- Feeds queued fragments into whatever send window is free. -/
def driveQueue
    (emit : ω → Outgoing → Except Error Unit × ω)
    (outbox : Outbox)
    (nowMs : Nat)
    (world : ω) :
    Except Error (Option Finished) × Outbox × ω :=
  let lost := outbox.abandoned
  let outbox := { outbox with abandoned := [] }
  match outbox.queue with
  | [] =>
      (.ok none, outbox, world)
  | job :: rest =>
      let job := job.markLost lost
      match feed emit nowMs (job.count - job.next)
          { outbox with queue := job :: rest } world with
      | (.error error, outbox, world) =>
          (.error error, outbox, world)
      | (.ok (), outbox, world) =>
          let (finished, outbox) := outbox.settle
          (.ok finished, outbox, world)

/-- Applies an acknowledgement, dropping the messages it covers. -/
def applyAck (outbox : Outbox) (ack : Ack) (nowMs : Nat) : Outbox :=
  let (acked, retransmit) := outbox.retransmit.onAck ack nowMs maxInFlight
  { outbox with
    retransmit := retransmit
    pending := outbox.pending.filter (!acked.contains ·.id) }

/-- Whether a queued message is waiting on an identifier. -/
def awaited (outbox : Outbox) (id : MessageId) : Bool :=
  outbox.queue.any (·.outstanding.contains id)

/-- Records that a message ran out of retries. -/
def giveUp (outbox : Outbox) (id : MessageId) : Outbox :=
  { outbox with
    pending := outbox.pending.filter (·.id != id)
    abandonedUnqueued :=
      if outbox.awaited id then
        outbox.abandonedUnqueued
      else
        saturatingAdd 32 outbox.abandonedUnqueued 1
    abandoned := outbox.abandoned ++ [id]
    abandonedCount := saturatingAdd 32 outbox.abandonedCount 1 }

/-- Works through a batch of due items, leaving it at the first failure. -/
def resend (emit : ω → Outgoing → Except Error Unit × ω) :
    List Due → Outbox → ω → Except Error Unit × Outbox × ω
  | [], outbox, world =>
      (.ok (), outbox, world)
  | .retransmit id :: rest, outbox, world =>
      match outbox.pending.find? (·.id == id) with
      | none =>
          resend emit rest outbox world
      | some pending =>
          match emit world pending.outgoing with
          | (.error error, world) =>
              (.error error, outbox, world)
          | (.ok (), world) =>
              resend emit rest outbox world
  | .gaveUp id :: rest, outbox, world =>
      resend emit rest (outbox.giveUp id) world

/-- Resends what is due and records what is given up on. -/
def driveRetransmits
    (emit : ω → Outgoing → Except Error Unit × ω)
    (outbox : Outbox)
    (nowMs : Nat)
    (world : ω) :
    Except Error Unit × Outbox × ω :=
  let (due, retransmit) := outbox.retransmit.poll nowMs maxInFlight
  resend emit due { outbox with retransmit := retransmit } world

/-! ### Rules for the two loops -/

section

variable {emit : ω → Outgoing → Except Error Unit × ω} {nowMs : Nat}
    (Invariant : Outbox → ω → Prop)
    (refused : ∀ {outbox world job rest id retransmit error world'},
        outbox.queue = job :: rest →
        job.lost = false →
        job.next < job.count →
        outbox.retransmit.register nowMs = .ok (id, retransmit) →
        emit world (job.pendingAt id).outgoing = (.error error, world') →
        Invariant outbox world →
        Invariant { outbox with retransmit := retransmit } world')
    (sent : ∀ {outbox world job rest id retransmit world'},
        outbox.queue = job :: rest →
        job.lost = false →
        job.next < job.count →
        outbox.retransmit.register nowMs = .ok (id, retransmit) →
        emit world (job.pendingAt id).outgoing = (.ok (), world') →
        Invariant outbox world →
        Invariant
          { outbox with
            retransmit := retransmit
            pending := outbox.pending ++ [job.pendingAt id]
            queue :=
              { job with
                outstanding := job.outstanding ++ [id]
                next := job.next + 1 } :: rest }
          world')
    {outbox : Outbox}
    {world : ω}

include refused sent

/--
What one fragment handed to the window preserves, whether or not it then
leaves, the feeding loop preserves.
-/
theorem feed_invariant (left : Nat) (initially : Invariant outbox world) :
    Invariant (feed emit nowMs left outbox world).2.1 (feed emit nowMs left outbox world).2.2 := by
  induction left generalizing outbox world with
  | zero => exact initially
  | succ left inductionHypothesis =>
    unfold feed
    split
    · exact initially
    next job rest isFront =>
    split
    · exact initially
    next ready =>
    rw [not_or, Bool.not_eq_true, Nat.not_le] at ready
    split
    · exact initially
    · exact initially
    next id retransmit registered =>
    dsimp only
    split
    · next error world' failed =>
        exact refused isFront ready.1 ready.2 registered failed initially
    next world' left' =>
    exact inductionHypothesis
      (sent isFront ready.1 ready.2 registered left' initially)

/-- What feeding and settling preserve, a pass over the queue preserves. -/
theorem driveQueue_invariant
    (settled : ∀ {outbox world}, Invariant outbox world → Invariant outbox.settle.2 world)
    (looked : ∀ queue, Invariant { outbox with abandoned := [], queue := queue } world) :
    Invariant (outbox.driveQueue emit nowMs world).2.1
      (outbox.driveQueue emit nowMs world).2.2 := by
  unfold driveQueue
  dsimp only
  split
  · exact looked _
  next job rest _ =>
  have fed :=
    feed_invariant Invariant refused sent
      ((job.markLost outbox.abandoned).count - (job.markLost outbox.abandoned).next)
      (looked (job.markLost outbox.abandoned :: rest))
  split
  · next isFed =>
      rw [isFed] at fed
      exact fed
  next isFed =>
  rw [isFed] at fed
  exact settled fed

end

/--
What one resend and one abandonment preserve, the loop over a batch of due
items preserves.
-/
theorem resend_invariant
    {emit : ω → Outgoing → Except Error Unit × ω} (Invariant : Outbox → ω → Prop)
    (resent : ∀ {outbox world pending},
        pending ∈ outbox.pending →
        Invariant outbox world →
        Invariant outbox (emit world pending.outgoing).2)
    (gaveUp : ∀ {outbox world} (id : MessageId),
        Invariant outbox world →
        Invariant (outbox.giveUp id) world)
    (due : List Due) {outbox : Outbox} {world : ω} (initially : Invariant outbox world) :
    Invariant (resend emit due outbox world).2.1 (resend emit due outbox world).2.2 := by
  induction due generalizing outbox world with
  | nil => exact initially
  | cons item rest inductionHypothesis =>
    cases item with
    | gaveUp id => exact inductionHypothesis (gaveUp id initially)
    | retransmit id =>
      simp only [resend]
      split
      · exact inductionHypothesis initially
      next pending found =>
      have after := resent (List.mem_of_find?_eq_some found) initially
      split
      · next error world' failed =>
          rw [failed] at after
          exact after
      next world' emitted =>
      rw [emitted] at after
      exact inductionHypothesis after

variable (emit : ω → Outgoing → Except Error Unit × ω) (outbox : Outbox)
  (nowMs : Nat)

@[simp] theorem settle_retransmit :
    outbox.settle.2.retransmit = outbox.retransmit := by
  unfold settle
  split
  · rfl
  · dsimp only
    split <;> rfl

/-- Feeding that the front message or the window refuses does nothing. -/
theorem feed_refused (left : Nat) (outbox : Outbox) {job : Queued} {rest : List Queued}
    (isFront : outbox.queue = job :: rest)
    (refused : (!job.lost && job.next < job.count &&
        (outbox.retransmit.register nowMs).isOk) = false)
    (world : ω) :
    feed emit nowMs left outbox world = (.ok (), outbox, world) := by
  cases left with
  | zero => rfl
  | succ left =>
    unfold feed
    rw [isFront]
    dsimp only
    split
    · rfl
    next ready =>
    rw [not_or, Bool.not_eq_true, Nat.not_le] at ready
    cases registered : outbox.retransmit.register nowMs with
    | error error => rw [RetransmitQueue.register_error registered]
    | ok entry => simp [ready.1, ready.2, registered, Except.isOk, Except.toBool] at refused

/-- A pass over the retransmissions polls, and leaves the queue alone. -/
theorem driveRetransmits_polls (world : ω) :
    (outbox.driveRetransmits emit nowMs world).2.1.retransmit =
        (outbox.retransmit.poll nowMs maxInFlight).2 ∧
      (outbox.driveRetransmits emit nowMs world).2.1.queue = outbox.queue := by
  apply resend_invariant (fun after _ =>
      after.retransmit = (outbox.retransmit.poll nowMs maxInFlight).2 ∧ after.queue = outbox.queue)
  · intro after world pending _ kept
    exact kept
  · intro after world id kept
    exact kept
  · exact ⟨rfl, rfl⟩

/-- What registration preserves of the window, a pass over the queue does. -/
theorem driveQueue_retransmit
    {emit : ω → Outgoing → Except Error Unit × ω} {nowMs : Nat} (Holds : RetransmitQueue → Prop)
    (registered : ∀ {queue after : RetransmitQueue} {id : MessageId},
        queue.register nowMs = .ok (id, after) →
        Holds queue →
        Holds after)
    {outbox : Outbox} (initially : Holds outbox.retransmit) (world : ω) :
    Holds (outbox.driveQueue emit nowMs world).2.1.retransmit := by
  apply driveQueue_invariant (fun after _ => Holds after.retransmit)
  · intro _ _ _ _ _ _ _ _ _ _ _ accepted _
    exact registered accepted
  · intro _ _ _ _ _ _ _ _ _ _ accepted _
    exact registered accepted
  · intro after _ kept
    rw [settle_retransmit]
    exact kept
  · intro _
    exact initially

/-- A pass over the queue takes note of what was given up on. -/
theorem driveQueue_abandoned (world : ω) :
    (outbox.driveQueue emit nowMs world).2.1.abandoned = [] ∧
      (outbox.driveQueue emit nowMs world).2.1.abandonedCount =
        outbox.abandonedCount := by
  have settles : ∀ (outbox : Outbox), outbox.settle.2.abandoned = outbox.abandoned ∧
          outbox.settle.2.abandonedCount = outbox.abandonedCount := by
    intro outbox
    unfold settle
    split
    · exact ⟨rfl, rfl⟩
    · dsimp only
      split <;> exact ⟨rfl, rfl⟩
  apply driveQueue_invariant fun after _ =>
    after.abandoned = [] ∧ after.abandonedCount = outbox.abandonedCount
  · intro _ _ _ _ _ _ _ _ _ _ _ _ _ kept
    exact kept
  · intro _ _ _ _ _ _ _ _ _ _ _ _ kept
    exact kept
  · intro after _ kept
    rw [(settles after).1, (settles after).2]
    exact kept
  · intro _
    exact ⟨rfl, rfl⟩

/-! ### What is handed to the caller's world -/

section

variable (Reached : ω → Prop) (emitted : ∀ world outgoing, Reached world →
    Reached (emit world outgoing).2) (outbox : Outbox) (nowMs : Nat) (world : ω)
    (initially : Reached world)

include emitted initially

/-- What every fragment handed over preserves, feeding preserves. -/
theorem driveQueue_world :
    Reached (outbox.driveQueue emit nowMs world).2.2 := by
  apply driveQueue_invariant fun _ world => Reached world
  · intro _ world job _ id _ _ _ _ _ _ _ failed reached
    have after := emitted world (job.pendingAt id).outgoing reached
    rw [failed] at after
    exact after
  · intro _ world job _ id _ _ _ _ _ _ left reached
    have after := emitted world (job.pendingAt id).outgoing reached
    rw [left] at after
    exact after
  · intro _ _ reached
    exact reached
  · intro _
    exact initially

theorem driveRetransmits_world :
    Reached (outbox.driveRetransmits emit nowMs world).2.2 := by
  exact resend_invariant (fun _ world => Reached world)
    (fun _ reached => emitted _ _ reached) (fun _ reached => reached) _ initially

end

/-! ### Watching the caller's world through a view of it -/

section View

variable {ω' : Type*}
  {emit : ω → Outgoing → Except Error Unit × ω}
  {emit' : ω' → Outgoing → Except Error Unit × ω'}
  {view : ω' → ω}

section

variable (same : ∀ world outgoing, emit (view world) outgoing = ((emit' world
    outgoing).1, view (emit' world outgoing).2))

include same

theorem feed_view (nowMs left : Nat) (outbox : Outbox) (world : ω') :
    feed emit nowMs left outbox (view world) = ((feed emit' nowMs left outbox world).1,
        (feed emit' nowMs left outbox world).2.1,
        view (feed emit' nowMs left outbox world).2.2) := by
  induction left generalizing outbox world with
  | zero => rfl
  | succ left inductionHypothesis =>
    unfold feed
    split
    · rfl
    next job rest _ =>
    split
    · rfl
    split
    · rfl
    · rfl
    next id retransmit _ =>
    dsimp only
    rw [same]
    cases emit' world (job.pendingAt id).outgoing with
    | mk result world' =>
      cases result with
      | error error => rfl
      | ok _ => exact inductionHypothesis _ _

theorem driveQueue_view (outbox : Outbox) (nowMs : Nat) (world : ω') :
    outbox.driveQueue emit nowMs (view world) = ((outbox.driveQueue emit' nowMs world).1,
        (outbox.driveQueue emit' nowMs world).2.1,
        view (outbox.driveQueue emit' nowMs world).2.2) := by
  unfold driveQueue
  dsimp only
  split
  · rfl
  rw [feed_view same]
  generalize feed emit' nowMs _ _ world = outcome
  obtain ⟨result, after, world'⟩ := outcome
  cases result <;> rfl

end

end View

end Outbox

end Fectp
