import Mathlib.Data.List.Nodup
import Fectp.Outbox

namespace Fectp

/-!
# A ledger of reliable messages

Messages are numbered in the order they were handed in, and every frame that
leaves is entered on the account of its message.  A frame's slot is emptied by
an acknowledgement or by giving up; the ledger records which, so that what
became of a message can be read off it.

An identifier may come round again, so the owner of an identifier is whoever
it was given to last.
-/

structure Ledger where
  /-- Who each identifier was given to, the latest first. -/
  owners : List (MessageId × Option Nat)
  /-- The numbers of the queued messages, in queue order. -/
  jobs : List Nat
  /-- How many frames each message takes. -/
  frames : List Nat
  /-- Messages whose send returned without error. -/
  accepted : List Nat
  /-- One entry for each frame acknowledged. -/
  acked : List Nat
  /-- Messages given up on, and not yet reported. -/
  lost : List Nat
  /-- Messages given up on, and reported since. -/
  reported : List Nat
  deriving Repr, DecidableEq

namespace Ledger

variable {ω : Type*}

def empty : Ledger where
  owners := []
  jobs := []
  frames := []
  accepted := []
  acked := []
  lost := []
  reported := []

/-- The message an identifier was last given out for. -/
def owner (ledger : Ledger) (id : MessageId) : Option Nat :=
  (ledger.owners.lookup id).join

/-- Frames of a message that await acknowledgement. -/
def inFlight (ledger : Ledger) (slots : List (Option InFlight)) (number : Nat) :
    Nat :=
  slots.countP (·.any (ledger.owner ·.id == some number))

/-- Frames of a queued message not yet sent. -/
def unsent (ledger : Ledger) (queue : List Queued) (number : Nat) :
    Nat :=
  ((ledger.jobs.zip queue).lookup number).elim 0 fun job => job.count - job.next

/-- Frames of a message acknowledged, in flight and still to be sent. -/
def account (ledger : Ledger) (outbox : Outbox) (number : Nat) : Nat :=
  ledger.acked.count number +
    ledger.inFlight outbox.retransmit.slots number +
    ledger.unsent outbox.queue number

/-- A message every frame of which was acknowledged. -/
def FullyAcked (ledger : Ledger) (number : Nat) : Prop :=
  ledger.frames[number]? = some (ledger.acked.count number)

/-- An identifier is given out, on a message's account or on none. -/
def register (ledger : Ledger) (id : Option MessageId) (number : Option Nat) :
    Ledger :=
  { ledger with owners := (id.map (·, number)).toList ++ ledger.owners }

/-- Emits a frame and enters its identifier, if it left, for a message. -/
def record
    (emit : ω → Outgoing → Except Error Unit × ω)
    (number : Option Nat)
    (world : ω × Ledger)
    (outgoing : Outgoing) :
    Except Error Unit × ω × Ledger :=
  match emit world.1 outgoing with
  | (.ok (), after) =>
      (.ok (), after, world.2.register outgoing.messageId number)
  | (.error error, after) =>
      (.error error, after, world.2.register outgoing.messageId none)

/-- Recording changes nothing of what is emitted. -/
theorem record_view (emit : ω → Outgoing → Except Error Unit × ω) (number : Option Nat)
    (world : ω × Ledger) (outgoing : Outgoing) :
    emit world.1 outgoing =
      ((record emit number world outgoing).1, (record emit number world outgoing).2.1) := by
  unfold record
  generalize emit world.1 outgoing = outcome
  obtain ⟨result, after⟩ := outcome
  cases result <;> rfl

/-- The front message leaves the queue; one that was lost is written off. -/
def settle (ledger : Ledger) (before after : Outbox) : Ledger :=
  if after.queue.length < before.queue.length then
    { ledger with
      jobs := ledger.jobs.tail
      lost :=
        match before.queue with
        | job :: _ =>
            if (job.markLost before.abandoned).lost then
              ledger.jobs.head?.toList ++ ledger.lost
            else
              ledger.lost
        | [] =>
            ledger.lost }
  else
    ledger

/-- A pass over the queue, entered. -/
def driveQueue
    (emit : ω → Outgoing → Except Error Unit × ω)
    (ledger : Ledger)
    (outbox : Outbox)
    (nowMs : Nat)
    (world : ω) :
    Ledger :=
  let (_, after, _, fed) :=
    outbox.driveQueue (record emit ledger.jobs.head?) nowMs (world, ledger)
  fed.settle outbox after

/-- The slots a poll emptied, entered. -/
def poll (ledger : Ledger) (before after : List (Option InFlight)) : Ledger :=
  { ledger with
    lost :=
      (RetransmitQueue.cleared before after).filterMap ledger.owner ++
        ledger.lost }

/-- The slots an acknowledgement emptied, entered. -/
def applyAck (ledger : Ledger) (before after : List (Option InFlight)) :
    Ledger :=
  { ledger with
    acked :=
      (RetransmitQueue.cleared before after).filterMap ledger.owner ++
        ledger.acked }

/-- A message of one frame, sent at once. -/
def sendOne (ledger : Ledger) (before after : Outbox) (sent : Bool) :
    Ledger :=
  if after.retransmit.nextId = before.retransmit.nextId then
    ledger
  else if sent then
    { ledger.register (some before.retransmit.nextId)
        (some ledger.frames.length) with
      frames := ledger.frames ++ [1]
      accepted := ledger.frames.length :: ledger.accepted }
  else
    ledger.register (some before.retransmit.nextId) none

/-- A split message joins the queue. -/
def queue (ledger : Ledger) (count : Nat) : Ledger :=
  { ledger with
    jobs := ledger.jobs ++ [ledger.frames.length]
    frames := ledger.frames ++ [count] }

/-- The verdict of a flush is in: what was lost is reported. -/
def report (ledger : Ledger) : Ledger :=
  { ledger with
    lost := []
    reported := ledger.lost ++ ledger.reported }

/-- Every account balances. -/
structure Balanced (ledger : Ledger) (outbox : Outbox) : Prop where
  reach : outbox.retransmit.Reach
  aligned : ledger.jobs.length = outbox.queue.length
  distinct : ledger.jobs.Nodup
  numbered :
    ∀ {number : Nat}, number ∈ ledger.jobs → number < ledger.frames.length
  intact : ∀ {job : Queued}, job ∈ outbox.queue → job.lost = false
  counted : ∀ {number : Nat} {job : Queued},
      (number, job) ∈ ledger.jobs.zip outbox.queue →
      ledger.frames[number]? = some job.count ∧ job.next ≤ job.count
  known : ∀ {number : Nat},
      number ∈ ledger.accepted → number < ledger.frames.length
  owned : ∀ {id : MessageId} {number : Nat},
      ledger.owner id = some number → number < ledger.frames.length
  tallied :
    ∀ {number : Nat}, number ∈ ledger.acked → number < ledger.frames.length
  balance : ∀ {number frames : Nat},
      ledger.frames[number]? = some frames →
      number ∉ ledger.lost →
      number ∉ ledger.reported →
      ledger.account outbox number = frames

/-! ### Entries -/

variable (ledger : Ledger) (id : Option MessageId) (number : Option Nat)

@[simp] theorem register_jobs :
    (ledger.register id number).jobs = ledger.jobs :=
  rfl

@[simp] theorem register_acked :
    (ledger.register id number).acked = ledger.acked :=
  rfl

@[simp] theorem register_unsent :
    (ledger.register id number).unsent = ledger.unsent :=
  rfl

theorem settle_frames (before after : Outbox) :
    (ledger.settle before after).frames = ledger.frames := by
  unfold settle
  split <;> rfl

theorem owner_register (id other : MessageId) (number : Option Nat) :
    (ledger.register (some id) number).owner other =
      if other = id then number else ledger.owner other := by
  simp only [owner, register, Option.map_some, Option.toList_some,
    List.singleton_append, List.lookup_cons]
  by_cases same : other = id
  · simp [same]
  · simp [same, beq_eq_false_iff_ne.mpr same]

/-- Giving out an identifier puts one frame in flight, if it has an owner. -/
theorem inFlight_register
    {retransmit after : RetransmitQueue} (reach : retransmit.Reach) {nowMs : Nat} {id : MessageId}
    (accepted : retransmit.register nowMs = .ok (id, after)) (owner : Option Nat) (number : Nat) :
    (ledger.register (some id) owner).inFlight after.slots number =
      ledger.inFlight retransmit.slots number + if owner = some number then 1 else 0 := by
  obtain ⟨isNext, _, _, free, _, slots, _, _⟩ := RetransmitQueue.register_ok accepted
  -- The slot filled was free, and the other slots hold other identifiers.
  have wasFree : retransmit.slots[retransmit.freeSlot] = none := by
    have found := List.findIdx_getElem (w := free)
    exact Option.isNone_iff_eq_none.mp found
  have others : retransmit.slots.countP
          (·.any ((ledger.register (some id) owner).owner ·.id == some number)) =
        ledger.inFlight retransmit.slots number := by
    refine List.countP_congr fun slot member => ?_
    cases slot with
    | none => rfl
    | some entry =>
      have different : entry.id ≠ id := isNext ▸ reach.fresh member
      simp [owner_register, different]
  rw [inFlight, slots, List.countP_set free, others, wasFree]
  simp [RetransmitQueue.firstTransmission, ← isNext, owner_register]

theorem count_filterMap_owner (ids : List MessageId) (number : Nat) :
    (ids.filterMap ledger.owner).count number = ids.countP (ledger.owner · == some number) := by
  rw [List.count, List.countP_filterMap]
  refine List.countP_congr fun id _ => ?_
  cases ledger.owner id with
  | none => simp
  | some other => simp

/-- Slots that are emptied take their frames out of flight. -/
theorem inFlight_cleared {before after : List (Option InFlight)}
    (keeps : List.Forall₂ RetransmitQueue.Keeps before after) (number : Nat) :
    ledger.inFlight before number = ledger.inFlight after number +
        ((RetransmitQueue.cleared before after).filterMap ledger.owner).count number := by
  rw [count_filterMap_owner]
  exact RetransmitQueue.countP_cleared (ledger.owner · == some number) keeps

/-- What the front message has left to send, and what the others have. -/
theorem unsent_cons {ledger : Ledger} {first : Nat} {jobs : List Nat}
    (isJobs : ledger.jobs = first :: jobs) (job : Queued) (rest : List Queued) (number : Nat) :
    ledger.unsent (job :: rest) number = if number = first then job.count - job.next
      else ((jobs.zip rest).lookup number).elim 0 fun job => job.count - job.next := by
  rw [unsent, isJobs, List.zip_cons_cons, List.lookup_cons]
  by_cases same : number = first
  · simp [same]
  · simp [same, beq_eq_false_iff_ne.mpr same]

theorem zip_lookup_of_notMem
    {jobs : List Nat} {number : Nat} (notQueued : number ∉ jobs) {queue : List Queued} :
    (jobs.zip queue).lookup number = none := by
  rw [List.lookup_eq_none_iff]
  intro entry member
  have isJob := (List.of_mem_zip member).1
  simpa using fun same : number = entry.1 => notQueued (same ▸ isJob)

theorem unsent_of_notMem
    {ledger : Ledger} {number : Nat} (notQueued : number ∉ ledger.jobs) (queue : List Queued) :
    ledger.unsent queue number = 0 := by
  rw [unsent, zip_lookup_of_notMem notQueued]
  rfl

theorem account_register {outbox : Outbox} (reach : outbox.retransmit.Reach) {nowMs : Nat}
    {id : MessageId} {after : RetransmitQueue}
    (accepted : outbox.retransmit.register nowMs = .ok (id, after))
    (owner : Option Nat) (number : Nat) :
    (ledger.register (some id) owner).account { outbox with retransmit := after } number =
      ledger.account outbox number + if owner = some number then 1 else 0 := by
  have flight := ledger.inFlight_register reach accepted owner number
  simp only [account, flight, register_acked, register_unsent]
  omega

/-! ### What each operation does to the accounts -/

namespace Balanced

variable {ledger : Ledger} {outbox : Outbox}

variable {number nowMs : Nat} {after : Outbox} {job : Queued}
  {rest : List Queued}

/-- A number not given out yet has nothing on its account. -/
theorem account_fresh (balanced : Balanced ledger outbox) (fresh : ledger.frames.length ≤ number) :
    ledger.account outbox number = 0 := by
  have noAck : ledger.acked.count number = 0 :=
    List.count_eq_zero.mpr fun member =>
      absurd (balanced.tallied member) (Nat.not_lt.mpr fresh)
  have noFlight : ledger.inFlight outbox.retransmit.slots number = 0 := by
    refine List.countP_eq_zero.mpr fun slot _ => ?_
    cases slot with
    | none => simp
    | some entry =>
      intro isOwner
      have known := balanced.owned (eq_of_beq isOwner)
      omega
  have noneLeft : ledger.unsent outbox.queue number = 0 :=
    unsent_of_notMem (fun member => absurd (balanced.numbered member) (Nat.not_lt.mpr fresh)) _
  rw [account, noAck, noFlight, noneLeft]

/-- A frame that failed after registration is nobody's. -/
theorem refused (balanced : Balanced ledger outbox) {id : MessageId} {after : RetransmitQueue}
    (accepted : outbox.retransmit.register nowMs = .ok (id, after)) :
    Balanced (ledger.register (some id) none) { outbox with retransmit := after } :=
  { balanced with
    reach := balanced.reach.register accepted
    owned := by
      intro other number isOwner
      rw [owner_register] at isOwner
      split at isOwner
      · cases isOwner
      · exact balanced.owned isOwner
    balance := by
      intro number frames isFrames notLost notReported
      rw [account_register ledger balanced.reach accepted]
      exact balanced.balance isFrames notLost notReported }

section Front

variable {job job' : Queued} {rest : List Queued}

section

variable (balanced : Balanced ledger outbox) (isFront : outbox.queue = job ::
    rest)

include balanced isFront

/-- The front of the queue has a number. -/
theorem front_numbered :
    ∃ first jobs, ledger.jobs = first :: jobs ∧
        ledger.jobs.zip outbox.queue = (first, job) :: jobs.zip rest := by
  have aligned := balanced.aligned
  rw [isFront] at aligned
  obtain ⟨first, jobs, isJobs⟩ := List.exists_cons_of_length_eq_add_one aligned
  exact ⟨first, jobs, isJobs, by rw [isJobs, isFront, List.zip_cons_cons]⟩

theorem front_intact (unlost : job'.lost = false) {other : Queued} (member : other ∈ job' :: rest) :
    other.lost = false := by
  rcases List.mem_cons.mp member with rfl | behind
  · exact unlost
  · exact balanced.intact (isFront ▸ List.mem_cons_of_mem _ behind)

theorem front_counted (sameCount : job'.count = job.count) (bounded : job'.next ≤ job.count)
    {number : Nat} {other : Queued} (member : (number, other) ∈ ledger.jobs.zip (job' :: rest)) :
    ledger.frames[number]? = some other.count ∧ other.next ≤ other.count := by
  obtain ⟨first, jobs, isJobs, wasZip⟩ := balanced.front_numbered isFront
  rw [isJobs, List.zip_cons_cons] at member
  rcases List.mem_cons.mp member with isHead | behind
  · have old := balanced.counted (wasZip ▸ List.mem_cons_self)
    cases isHead
    rw [sameCount]
    exact ⟨old.1, bounded⟩
  · exact balanced.counted (wasZip ▸ List.mem_cons_of_mem _ behind)

end

end Front

section

variable (balanced : Balanced ledger outbox)

include balanced

/-- A fragment of the front message goes out. -/
theorem sent {nowMs : Nat} {id : MessageId} {after : RetransmitQueue} {job : Queued}
    {rest : List Queued} (isFront : outbox.queue = job :: rest) (unfinished : job.next < job.count)
    (accepted : outbox.retransmit.register nowMs = .ok (id, after)) (pending : List Pending) :
    Balanced (ledger.register (some id) ledger.jobs.head?)
      { outbox with
        retransmit := after
        pending := pending
        queue :=
          { job with
            outstanding := job.outstanding ++ [id]
            next := job.next + 1 } :: rest } := by
  obtain ⟨first, jobs, isJobs, _⟩ := balanced.front_numbered isFront
  have isFirst : ledger.jobs.head? = some first := by
    rw [isJobs]
    rfl
  have unlost : job.lost = false := balanced.intact (isFront ▸ List.mem_cons_self)
  rw [isFirst]
  exact {
    balanced with
    reach := balanced.reach.register accepted
    aligned := by
      rw [register_jobs, balanced.aligned, isFront]
      rfl
    intact := by
      intro other member
      refine balanced.front_intact isFront ?_ member
      exact unlost
    counted := by
      intro number other member
      refine balanced.front_counted isFront ?_ ?_ member
      · rfl
      · exact unfinished
    owned := by
      intro other number isOwner
      rw [owner_register] at isOwner
      split at isOwner
      · cases isOwner
        exact balanced.numbered (isJobs ▸ List.mem_cons_self)
      · exact balanced.owned isOwner
    balance := by
      intro number frames isFrames notLost notReported
      have old := balanced.balance isFrames notLost notReported
      have flight := ledger.inFlight_register balanced.reach accepted (some first) number
      rw [account, isFront, unsent_cons isJobs] at old
      rw [account, flight, register_acked, register_unsent, unsent_cons isJobs]
      by_cases same : number = first
      · subst same
        simp only [reduceIte] at old ⊢
        omega
      have different : ¬some first = some number :=
        fun equal => same (Option.some.inj equal).symm
      rw [if_neg different, if_neg same]
      rw [if_neg same] at old
      exact old }

/-- Only the window and the queue are accounted for. -/
theorem same (sameRetransmit : after.retransmit = outbox.retransmit)
    (sameQueue : after.queue = outbox.queue) :
    Balanced ledger after := by
  cases after
  cases sameRetransmit
  cases sameQueue
  exact { balanced with }

/-- What the front message awaits may change, if it is not lost. -/
theorem front {job' : Queued} (isFront : outbox.queue = job :: rest)
    (sameCount : job'.count = job.count) (sameNext : job'.next = job.next)
    (unlost : job'.lost = false) :
    Balanced ledger { outbox with queue := job' :: rest } := by
  obtain ⟨first, jobs, isJobs, wasZip⟩ := balanced.front_numbered isFront
  have bounded := (balanced.counted (wasZip ▸ List.mem_cons_self)).2
  exact {
    balanced with
    aligned := by
      rw [balanced.aligned, isFront]
      rfl
    intact := balanced.front_intact isFront unlost
    counted := balanced.front_counted isFront sameCount (sameNext ▸ bounded)
    balance := by
      intro number frames isFrames notLost notReported
      have old := balanced.balance isFrames notLost notReported
      rw [account, isFront, unsent_cons isJobs] at old
      rw [account, unsent_cons isJobs, sameCount, sameNext]
      exact old }

/-- The front message leaves, all sent or written off. -/
theorem pop
    (isFront : outbox.queue = job :: rest) {lost : List Nat} (writtenOff : ledger.lost ⊆ lost)
    (settled : job.next = job.count ∨ ∀ number, ledger.jobs.head? = some number → number ∈ lost) :
    Balanced { ledger with jobs := ledger.jobs.tail, lost := lost }
      { outbox with queue := rest } := by
  obtain ⟨first, jobs, isJobs, wasZip⟩ := balanced.front_numbered isFront
  have distinct := balanced.distinct
  rw [isJobs, List.nodup_cons] at distinct
  exact {
    balanced with
    aligned := by
      rw [List.length_tail, balanced.aligned, isFront]
      rfl
    distinct := by
      rw [isJobs]
      exact distinct.2
    numbered := fun member => balanced.numbered (List.mem_of_mem_tail member)
    intact := fun member =>
      balanced.intact (isFront ▸ List.mem_cons_of_mem _ member)
    counted := by
      intro number other member
      rw [isJobs] at member
      exact balanced.counted (wasZip ▸ List.mem_cons_of_mem _ member)
    balance := by
      intro number frames isFrames notLost notReported
      have old := balanced.balance isFrames (fun member => notLost (writtenOff member)) notReported
      rw [account, isFront, unsent_cons isJobs] at old
      change ledger.acked.count number + ledger.inFlight outbox.retransmit.slots number +
        ((ledger.jobs.tail.zip rest).lookup number).elim 0 _ = frames
      rw [isJobs, List.tail_cons]
      by_cases isFirst : number = first
      · subst isFirst
        have allSent : job.next = job.count := by
          rcases settled with allSent | isLost
          · exact allSent
          · exact (notLost (isLost number (by rw [isJobs]; rfl))).elim
        have noneLeft : ({ ledger with jobs := jobs } : Ledger).unsent rest number = 0 :=
          unsent_of_notMem distinct.1 rest
        rw [unsent] at noneLeft
        rw [noneLeft]
        simp only [reduceIte, allSent, Nat.sub_self] at old
        exact old
      · rw [if_neg isFirst] at old
        exact old }

/-- Feeding enters each fragment, and changes nothing else in the ledger. -/
theorem feed {emit : ω → Outgoing → Except Error Unit × ω} {left : Nat}
    {world world' : ω} {result : Except Error Unit} {fed : Ledger}
    (isFed : Outbox.feed (record emit ledger.jobs.head?) nowMs left outbox
        (world, ledger) = (result, after, world', fed)) :
    Balanced fed after ∧ (∃ owners, fed = { ledger with owners := owners }) ∧
      after.queue.length = outbox.queue.length := by
  have fromStart :=
    @Outbox.feed_invariant (ω × Ledger) (record emit ledger.jobs.head?) nowMs (fun after world =>
        Balanced world.2 after ∧ (∃ owners, world.2 = { ledger with owners := owners }) ∧
          after.queue.length = outbox.queue.length)
      ?refused ?sent outbox (world, ledger) left
      ⟨balanced, ⟨ledger.owners, rfl⟩, rfl⟩
  · rw [isFed] at fromStart
    exact fromStart
  · rintro after ⟨world, ledger'⟩ job rest id retransmit error ⟨world', fed⟩
      _ _ _ accepted failed ⟨balanced', ⟨owners, rfl⟩, sameLength⟩
    unfold record at failed
    split at failed
    · cases failed
    · cases failed
      exact ⟨balanced'.refused accepted, ⟨_, rfl⟩, sameLength⟩
  · rintro after ⟨world, ledger'⟩ job rest id retransmit ⟨world', fed⟩
      isFront _ unfinished accepted emitted
      ⟨balanced', ⟨owners, rfl⟩, sameLength⟩
    unfold record at emitted
    split at emitted
    · cases emitted
      refine ⟨balanced'.sent isFront unfinished accepted _, ⟨_, rfl⟩, ?_⟩
      rw [← sameLength, isFront]
      rfl
    · cases emitted

/-- A send that returned without error is answered for. -/
theorem accept (isKnown : number < ledger.frames.length) :
    Balanced { ledger with accepted := number :: ledger.accepted } outbox :=
  { balanced with
    known := by
      intro other member
      rcases List.mem_cons.mp member with rfl | older
      · exact isKnown
      · exact balanced.known older }

/-- Taking out what is settled either drops the front message or keeps it. -/
theorem settle {before : Outbox} (wasFront : before.queue = job :: rest)
    (unlost : (job.markLost before.abandoned).lost = false)
    (sameLength : outbox.queue.length = before.queue.length) :
    Balanced (ledger.settle before outbox.settle.2) outbox.settle.2 ∧
      (ledger.settle before outbox.settle.2).lost = ledger.lost := by
  cases isFront : outbox.queue with
  | nil =>
    rw [isFront, wasFront] at sameLength
    cases sameLength
  | cons front behind =>
    have intact := balanced.intact (isFront ▸ List.mem_cons_self)
    simp only [Outbox.settle, isFront]
    split
    · next done =>
        have shorter : behind.length < (job :: rest).length := by
          rw [← wasFront, ← sameLength, isFront]
          exact Nat.lt_succ_self _
        have allSent : front.next = front.count := by
          simp only [Queued.done, Queued.retainPending, intact,
            Bool.false_or, Bool.and_eq_true, beq_iff_eq] at done
          exact done.1
        simp only [Ledger.settle, wasFront, if_pos shorter, unlost, Bool.false_eq_true, if_false]
        exact ⟨balanced.pop isFront (List.Subset.refl _) (Or.inl allSent), trivial⟩
    · have sameSize : ¬(behind.length + 1 < before.queue.length) := by
        rw [← sameLength, isFront]
        exact Nat.lt_irrefl _
      simp only [Ledger.settle, List.length_cons, if_neg sameSize]
      exact ⟨balanced.front isFront rfl rfl intact, trivial⟩

/-- A pass over the queue keeps the accounts. -/
theorem driveQueue (emit : ω → Outgoing → Except Error Unit × ω) (nowMs : Nat) (world : ω) :
    Balanced (ledger.driveQueue emit outbox nowMs world) (outbox.driveQueue emit nowMs world).2.1 ∧
      (ledger.driveQueue emit outbox nowMs world).frames = ledger.frames ∧
      (outbox.abandoned = [] → (ledger.driveQueue emit outbox nowMs world).lost = ledger.lost) := by
  have seen :=
    @Outbox.driveQueue_view ω (ω × Ledger) emit (record emit ledger.jobs.head?) Prod.fst
      (record_view emit ledger.jobs.head?) outbox nowMs (world, ledger)
  rw [seen]
  unfold Ledger.driveQueue Outbox.driveQueue
  cases wasFront : outbox.queue with
  | nil =>
    refine ⟨?_, ?_, ?_⟩
    · simp only [Ledger.settle, wasFront]
      exact balanced.same rfl wasFront.symm
    · exact settle_frames _ _ _
    · intro _
      simp [Ledger.settle, wasFront]
  | cons job rest =>
    cases isLost : (job.markLost outbox.abandoned).lost with
    | true =>
      -- A lost message is fed no further and leaves at once.
      have idle :=
        Outbox.feed_refused (record emit ledger.jobs.head?) nowMs
          ((job.markLost outbox.abandoned).count - (job.markLost outbox.abandoned).next)
          { outbox with
            abandoned := []
            queue := job.markLost outbox.abandoned :: rest }
          rfl (by simp [isLost]) (world, ledger)
      have shorter : rest.length < (job :: rest).length := Nat.lt_succ_self _
      simp only [idle, Outbox.settle, Queued.done, Queued.retainPending,
        isLost, Bool.true_or, if_true, Ledger.settle, if_pos shorter,
        wasFront]
      refine ⟨?_, trivial, ?_⟩
      · refine (balanced.pop wasFront (List.subset_append_right _ _)
          (Or.inr ?_)).same rfl rfl
        intro number isHead
        simp [isHead]
      · intro looked
        have intact := balanced.intact (wasFront ▸ List.mem_cons_self)
        rw [looked] at isLost
        simp [Queued.markLost, intact] at isLost
    | false =>
      have marked : Balanced ledger
            { outbox with
              abandoned := []
              queue := job.markLost outbox.abandoned :: rest } :=
        (balanced.front wasFront (job.markLost_count _) (job.markLost_next _) isLost).same rfl rfl
      rcases isFed :
          Outbox.feed (record emit ledger.jobs.head?) nowMs
            ((job.markLost outbox.abandoned).count - (job.markLost outbox.abandoned).next)
            { outbox with
              abandoned := []
              queue := job.markLost outbox.abandoned :: rest }
            (world, ledger) with ⟨error | _, after, world', fed⟩
      · obtain ⟨kept, ⟨owners, rfl⟩, sameLength⟩ := marked.feed isFed
        have sameSize : ¬after.queue.length < outbox.queue.length := by
          rw [sameLength, wasFront]
          exact Nat.lt_irrefl _
        simp only [isFed, Ledger.settle, if_neg sameSize]
        exact ⟨kept, trivial, fun _ => trivial⟩
      · obtain ⟨kept, ⟨owners, rfl⟩, sameLength⟩ := marked.feed isFed
        simp only [isFed]
        obtain ⟨settled, sameLost⟩ :=
          kept.settle wasFront isLost (sameLength.trans (by rw [wasFront]; rfl))
        exact ⟨settled, settle_frames _ _ _, fun _ => sameLost⟩

end

section Clearing

variable {after : Outbox}
  (kept : List.Forall₂ RetransmitQueue.Keeps outbox.retransmit.slots
      after.retransmit.slots)
  (sameNext : after.retransmit.nextId = outbox.retransmit.nextId)
  (sameQueue : after.queue = outbox.queue)

include kept sameNext sameQueue

/-- A frame given up on is on the account of a message now lost. -/
theorem poll (balanced : Balanced ledger outbox) :
    Balanced (ledger.poll outbox.retransmit.slots after.retransmit.slots)
      after := by
  cases after
  cases sameQueue
  exact {
    balanced with
    reach := balanced.reach.keeps kept sameNext
    balance := by
      intro number frames isFrames notLost notReported
      have old :=
        balanced.balance isFrames
          (fun member => notLost (List.mem_append_right _ member)) notReported
      have flight := ledger.inFlight_cleared kept number
      rw [List.count_eq_zero.mpr fun member =>
        notLost (List.mem_append_left _ member), Nat.add_zero] at flight
      rw [account, flight] at old
      exact old }

/-- A frame acknowledged moves on its account. -/
theorem applyAck (balanced : Balanced ledger outbox) :
    Balanced (ledger.applyAck outbox.retransmit.slots after.retransmit.slots)
      after := by
  cases after
  cases sameQueue
  exact {
    balanced with
    reach := balanced.reach.keeps kept sameNext
    tallied := by
      intro number member
      rcases List.mem_append.mp member with isNew | older
      · obtain ⟨id, _, isOwner⟩ := List.mem_filterMap.mp isNew
        exact balanced.owned isOwner
      · exact balanced.tallied older
    balance := by
      intro number frames isFrames notLost notReported
      have old := balanced.balance isFrames notLost notReported
      have flight := ledger.inFlight_cleared kept number
      rw [account, flight] at old
      change (_ ++ ledger.acked).count number +
        ledger.inFlight _ number + ledger.unsent outbox.queue number = frames
      rw [List.count_append]
      omega }

end Clearing

section Growth

variable {count number : Nat}

/-- The messages there are keep their frames when one more comes. -/
theorem counted_append (balanced : Balanced ledger outbox) {job : Queued}
    (member : (number, job) ∈ ledger.jobs.zip outbox.queue) :
    (ledger.frames ++ [count])[number]? = some job.count ∧ job.next ≤ job.count := by
  obtain ⟨isFrames, bounded⟩ := balanced.counted member
  have inside := (List.getElem?_eq_some_iff.mp isFrames).1
  exact ⟨(List.getElem?_append_left inside).trans isFrames, bounded⟩

/-- An account is that of a message there was, or of the one that comes. -/
theorem balance_append (balanced : Balanced ledger outbox) {frames : Nat}
    (isFrames : (ledger.frames ++ [count])[number]? = some frames)
    (notLost : number ∉ ledger.lost) (notReported : number ∉ ledger.reported) :
    (number < ledger.frames.length ∧ ledger.account outbox number = frames) ∨
      (number = ledger.frames.length ∧ frames = count ∧ ledger.account outbox number = 0) := by
  rcases Nat.lt_or_ge number ledger.frames.length with older | isNew
  · rw [List.getElem?_append_left older] at isFrames
    exact Or.inl ⟨older, balanced.balance isFrames notLost notReported⟩
  rw [List.getElem?_append_right isNew] at isFrames
  obtain ⟨isLast, isCount⟩ : number - ledger.frames.length = 0 ∧ count = frames := by
    simpa [List.getElem?_singleton] using isFrames
  exact Or.inr ⟨Nat.le_antisymm (Nat.le_of_sub_eq_zero isLast) isNew,
    isCount.symm, balanced.account_fresh isNew⟩

end Growth

/-- A message of one frame goes out. -/
theorem sentOne (balanced : Balanced ledger outbox) {id : MessageId} {after : RetransmitQueue}
    (accepted : outbox.retransmit.register nowMs = .ok (id, after)) :
    Balanced
      { ledger.register (some id) (some ledger.frames.length) with
        frames := ledger.frames ++ [1]
        accepted := ledger.frames.length :: ledger.accepted }
      { outbox with retransmit := after } := by
  have grown : ledger.frames.length < (ledger.frames ++ [1]).length := by
    simp
  exact {
    balanced with
    reach := balanced.reach.register accepted
    numbered := fun member => (balanced.numbered member).trans grown
    counted := balanced.counted_append
    known := by
      intro number member
      rcases List.mem_cons.mp member with rfl | older
      · exact grown
      · exact (balanced.known older).trans grown
    owned := by
      intro other number isOwner
      change (ledger.register _ _).owner other = _ at isOwner
      rw [owner_register] at isOwner
      split at isOwner
      · cases isOwner
        exact grown
      · exact (balanced.owned isOwner).trans grown
    tallied := fun member => (balanced.tallied member).trans grown
    balance := by
      intro number frames isFrames notLost notReported
      change (ledger.register _ _).account _ number = frames
      rw [account_register ledger balanced.reach accepted]
      rcases balanced.balance_append isFrames notLost notReported with
        ⟨older, old⟩ | ⟨rfl, rfl, fresh⟩
      · have different : ¬some ledger.frames.length = some number :=
          fun same => Nat.ne_of_gt older (Option.some.inj same)
        rw [if_neg different]
        exact old
      · rw [fresh, if_pos rfl] }

/-- A split message joins the queue with all its fragments to send. -/
theorem queue
    (balanced : Balanced ledger outbox) (unlost : job.lost = false) (isFirst : job.next = 0)
    (sameRetransmit : after.retransmit = outbox.retransmit)
    (isQueue : after.queue = outbox.queue ++ [job]) :
    Balanced (ledger.queue job.count) after := by
  have grown : ledger.frames.length < (ledger.frames ++ [job.count]).length := by
    simp
  have joined : (ledger.queue job.count).jobs.zip after.queue =
        ledger.jobs.zip outbox.queue ++ [(ledger.frames.length, job)] := by
    rw [isQueue]
    exact List.zip_append balanced.aligned
  have notQueued : ledger.frames.length ∉ ledger.jobs :=
    fun member => Nat.lt_irrefl _ (balanced.numbered member)
  exact {
    reach := sameRetransmit ▸ balanced.reach
    aligned := by
      rw [isQueue]
      simp [Ledger.queue, balanced.aligned]
    distinct := by
      change (ledger.jobs ++ [ledger.frames.length]).Nodup
      rw [← List.concat_eq_append]
      exact List.Nodup.concat notQueued balanced.distinct
    numbered := by
      intro number member
      rcases List.mem_append.mp member with older | isNew
      · exact (balanced.numbered older).trans grown
      · rw [List.mem_singleton.mp isNew]
        exact grown
    intact := by
      intro other member
      rw [isQueue] at member
      rcases List.mem_append.mp member with older | isNew
      · exact balanced.intact older
      · rw [List.mem_singleton.mp isNew]
        exact unlost
    counted := by
      intro number other member
      rw [joined] at member
      rcases List.mem_append.mp member with older | isNew
      · exact balanced.counted_append older
      · cases List.mem_singleton.mp isNew
        exact ⟨by simp [Ledger.queue], isFirst ▸ Nat.zero_le _⟩
    known := fun member => (balanced.known member).trans grown
    owned := fun isOwner => (balanced.owned isOwner).trans grown
    tallied := fun member => (balanced.tallied member).trans grown
    balance := by
      intro number frames isFrames notLost notReported
      have isAccount : (ledger.queue job.count).account after number = ledger.acked.count number +
              ledger.inFlight outbox.retransmit.slots number +
              ((ledger.jobs.zip outbox.queue ++ [(ledger.frames.length, job)]).lookup number).elim 0
                fun job => job.count - job.next := by
        rw [account, unsent, joined, sameRetransmit]
        rfl
      rw [isAccount, List.lookup_append]
      rcases balanced.balance_append isFrames notLost notReported with
        ⟨older, old⟩ | ⟨rfl, rfl, fresh⟩
      · have different : (number == ledger.frames.length) = false :=
          beq_eq_false_iff_ne.mpr (Nat.ne_of_lt older)
        rw [List.lookup_cons, different]
        simpa [account, unsent] using old
      · rw [account] at fresh
        simp only [zip_lookup_of_notMem notQueued, Option.none_or,
          List.lookup_cons, beq_self_eq_true, Option.elim_some, isFirst]
        omega }

/-- What was lost is reported. -/
theorem report (balanced : Balanced ledger outbox) :
    Balanced ledger.report outbox :=
  { balanced with
    balance := by
      intro number frames isFrames _ notReported
      exact balanced.balance isFrames (fun member => notReported (List.mem_append_left _ member))
        (fun member => notReported (List.mem_append_right _ member)) }

/--
Once nothing is in flight or queued, a message that was not given up on has
had every frame acknowledged.
-/
theorem fullyAcked
    (balanced : Balanced ledger outbox) (nothingInFlight : outbox.retransmit.inFlight = 0)
    (nothingQueued : outbox.queue = []) (accepted : number ∈ ledger.accepted)
    (notLost : number ∉ ledger.lost) (notReported : number ∉ ledger.reported) :
    ledger.FullyAcked number := by
  have isFrames := List.getElem?_eq_getElem (balanced.known accepted)
  have settled := balanced.balance isFrames notLost notReported
  have noFlight : ledger.inFlight outbox.retransmit.slots number = 0 := by
    refine List.countP_eq_zero.mpr fun slot member => ?_
    cases slot with
    | none => simp
    | some entry =>
      have occupied := List.countP_eq_zero.mp nothingInFlight _ member
      simp at occupied
  have noneLeft : ledger.unsent outbox.queue number = 0 := by
    rw [unsent, nothingQueued, List.zip_nil_right]
    rfl
  rw [account, noFlight, noneLeft] at settled
  rw [FullyAcked, isFrames, ← settled]
  rfl

end Balanced

/-- An empty ledger for an outbox nothing was handed to. -/
theorem balanced_empty {outbox : Outbox} (fresh : outbox.Fresh) :
    Balanced empty outbox where
  reach := fun _ member => nomatch fresh.noneInFlight _ member
  aligned := by
    rw [fresh.noneQueued]
    rfl
  distinct := List.nodup_nil
  numbered := nofun
  intact := by
    rw [fresh.noneQueued]
    exact nofun
  counted := nofun
  known := nofun
  owned := nofun
  tallied := nofun
  balance := nofun

end Ledger

end Fectp
