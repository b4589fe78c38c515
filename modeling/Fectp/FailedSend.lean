import Fectp.ConnectionWait
import Fectp.Endpoint.Calls

namespace Fectp

/-!
# What a failed reliable send leaves behind

A message is entered in the window, or in the queue, before its frames are
sealed and sent.  A call that its checks refuse leaves everything as it was;
one that fails after them leaves the message where it was entered.
-/

namespace Queued

/-- What a message offers a window with room for `left` more fragments. -/
def offered (nowMs : Nat) :
    Nat → Queued → RetransmitQueue → List Outgoing
  | 0, _, _ =>
      []
  | left + 1, job, queue =>
      match queue.register nowMs with
      | .error _ =>
          []
      | .ok (id, queue) =>
          (job.pendingAt id).outgoing ::
            offered nowMs left { job with next := job.next + 1 } queue

/-- What is outstanding does not matter to what is offered. -/
theorem offered_outstanding
    (nowMs left : Nat) (job : Queued) (outstanding : List MessageId) (queue : RetransmitQueue) :
    offered nowMs left { job with outstanding := outstanding } queue =
      offered nowMs left job queue := by
  induction left generalizing job queue with
  | zero => rfl
  | succ left inductionHypothesis =>
    unfold offered
    split
    · rfl
    · exact congrArg _ (inductionHypothesis { job with next := job.next + 1 } _)

end Queued

namespace Outbox

variable {ω : Type*}

/-- The slots, the pending list and the queue hold what they held. -/
structure HoldsSame (before after : Outbox) : Prop where
  slots : after.retransmit.slots = before.retransmit.slots
  pending : after.pending = before.pending
  queue : after.queue = before.queue

theorem HoldsSame.refl (outbox : Outbox) : outbox.HoldsSame outbox where
  slots := rfl
  pending := rfl
  queue := rfl

/-- The frames a pass over the queue offers the window. -/
def offered (outbox : Outbox) (nowMs : Nat) : List Outgoing :=
  match outbox.queue with
  | [] =>
      []
  | job :: _ =>
      let job := job.markLost outbox.abandoned
      if job.lost then []
      else job.offered nowMs (job.count - job.next) outbox.retransmit

variable (emit : ω → Outgoing → Except Error Unit × ω) {outbox : Outbox}
  {job : Queued} {rest : List Queued}

/-- The feeding loop emits what is offered, up to the first failure. -/
theorem feed_emits {nowMs left : Nat} (isFront : outbox.queue = job :: rest)
    (unlost : job.lost = false) (bounded : left ≤ job.count - job.next) (world : ω) :
    ((feed emit nowMs left outbox world).1, (feed emit nowMs left outbox world).2.2) =
      forEach (fun outgoing world => emit world outgoing)
        (job.offered nowMs left outbox.retransmit) world := by
  induction left generalizing outbox job world with
  | zero => rfl
  | succ left inductionHypothesis =>
    have ready : ¬(job.lost = true ∨ job.next ≥ job.count) := by
      rintro (isLost | isLast)
      · simp [unlost] at isLost
      · omega
    unfold feed Queued.offered
    rw [isFront]
    dsimp only
    rw [if_neg ready]
    cases registered : outbox.retransmit.register nowMs with
    | error error =>
      rw [RetransmitQueue.register_error registered]
      rfl
    | ok entry =>
      obtain ⟨id, retransmit⟩ := entry
      unfold forEach
      dsimp only
      rcases emits : emit world (job.pendingAt id).outgoing with
        ⟨error | _, world'⟩
      · rfl
      have shorter : left ≤ job.count - (job.next + 1) := by
        omega
      rw [← Queued.offered_outstanding nowMs left _ (job.outstanding ++ [id])]
      exact @inductionHypothesis
          { outbox with
            retransmit := retransmit
            pending := outbox.pending ++ [job.pendingAt id]
            queue :=
              { job with
                outstanding := job.outstanding ++ [id]
                next := job.next + 1 } :: rest }
          { job with
            outstanding := job.outstanding ++ [id]
            next := job.next + 1 }
          rfl unlost shorter world'

/-- A pass over the queue fails exactly if a frame it offers does. -/
theorem driveQueue_emits (outbox : Outbox) (nowMs : Nat) (world : ω) :
    ((outbox.driveQueue emit nowMs world).1.map fun _ => (),
        (outbox.driveQueue emit nowMs world).2.2) =
      forEach (fun outgoing world => emit world outgoing) (outbox.offered nowMs) world := by
  unfold driveQueue offered
  cases isFront : outbox.queue with
  | nil => rfl
  | cons job rest =>
    dsimp only
    generalize isMarked : job.markLost outbox.abandoned = marked
    have emitted : ((feed emit nowMs (marked.count - marked.next)
              { outbox with abandoned := [], queue := marked :: rest }
              world).1,
            (feed emit nowMs (marked.count - marked.next)
              { outbox with abandoned := [], queue := marked :: rest }
              world).2.2) =
          forEach (fun outgoing world => emit world outgoing) (if marked.lost then [] else
              marked.offered nowMs (marked.count - marked.next) outbox.retransmit)
            world := by
      split
      · next isLost =>
          rw [feed_refused emit nowMs _ _ rfl (by simp [isLost])]
          rfl
      · next unlost => exact feed_emits emit rfl (Bool.not_eq_true _ ▸ unlost) le_rfl world
    rw [← emitted]
    generalize feed emit nowMs _ _ world = fed
    obtain ⟨error | _, after, world'⟩ := fed <;> rfl

/-- A front message some fragment of which is out, or which has not begun. -/
def FrontLive (outbox : Outbox) (rest : List Queued) : Prop :=
  ∃ job,
    outbox.queue = job :: rest ∧
      job.lost = false ∧
      0 < job.count ∧
      (job.next = 0 ∨
        ∃ id ∈ job.outstanding, ∃ entry ∈ outbox.pending, entry.id = id)

/-- Such a message is not settled. -/
theorem FrontLive.settle_queue (live : outbox.FrontLive rest) :
    outbox.settle.2.queue.length = rest.length + 1 := by
  obtain ⟨job, isFront, unlost, someLeft, begun⟩ := live
  have undone : (job.retainPending outbox.pending).done = false := by
    rcases begun with isFirst | ⟨id, isOut, isPending⟩
    · have unfinished : ¬0 = job.count := by omega
      simp [Queued.done, Queued.retainPending, unlost, isFirst, unfinished]
    have kept : id ∈ (job.retainPending outbox.pending).outstanding :=
      Queued.mem_retainPending_outstanding.mpr ⟨isOut, isPending⟩
    have nonempty : (job.retainPending outbox.pending).outstanding.isEmpty = false := by
      rw [List.isEmpty_eq_false_iff]
      exact List.ne_nil_of_mem kept
    have stillUnlost : (job.retainPending outbox.pending).lost = false := unlost
    simp [Queued.done, nonempty, stillUnlost]
  unfold settle
  rw [isFront]
  dsimp only
  rw [if_neg (by simp [undone])]
  rfl

/--
A pass over the queue keeps its length, or drops a front message that had
begun.
-/
theorem driveQueue_queue (nowMs : Nat) (isFront : outbox.queue = job :: rest) (world : ω) :
    (outbox.driveQueue emit nowMs world).2.1.queue.length = rest.length + 1 ∨
      (outbox.driveQueue emit nowMs world).2.1.queue = rest ∧ ¬job.Untouched := by
  have fedQueue : ∀ {left : Nat} {outbox : Outbox},
        (∃ job, outbox.queue = job :: rest) →
        ∃ job, (feed emit nowMs left outbox world).2.1.queue = job :: rest := by
    intro left outbox initially
    apply feed_invariant (fun after _ => ∃ job, after.queue = job :: rest)
    · intro _ _ _ _ _ _ _ _ _ _ _ _ _ kept
      exact kept
    · rintro _ _ _ _ _ _ _ isFront _ _ _ _ ⟨front, same⟩
      rw [same] at isFront
      cases isFront
      exact ⟨_, rfl⟩
    · exact initially
  unfold driveQueue
  rw [isFront]
  dsimp only
  obtain ⟨front, fed⟩ :=
    @fedQueue ((job.markLost outbox.abandoned).count - (job.markLost outbox.abandoned).next)
      { outbox with
        abandoned := []
        queue := job.markLost outbox.abandoned :: rest }
      ⟨_, rfl⟩
  by_cases untouched : job.Untouched
  · -- Whatever is fed of an untouched message keeps it live.
    left
    have marked : job.markLost outbox.abandoned = job := by
      unfold Queued.markLost
      split
      · rfl
      · have same : ({ job with outstanding := [] } : Queued) = job := by
          rw [← untouched.noneOut]
        simpa [untouched.noneOut] using same
    have live : (feed emit nowMs
          ((job.markLost outbox.abandoned).count - (job.markLost outbox.abandoned).next)
          { outbox with
            abandoned := []
            queue := job.markLost outbox.abandoned :: rest }
          world).2.1.FrontLive rest := by
      apply feed_invariant (fun after _ => after.FrontLive rest)
      · intro _ _ _ _ _ _ _ _ _ _ _ _ _ kept
        exact kept
      · rintro _ _ _ _ id _ _ isFront unlost _ _ _
          ⟨front, same, _, someLeft, _⟩
        rw [same] at isFront
        cases isFront
        refine ⟨_, rfl, unlost, someLeft, Or.inr ⟨id, ?_, ?_⟩⟩
        · exact List.mem_append_right _ (List.mem_singleton.mpr rfl)
        · exact ⟨_, List.mem_append_right _ (List.mem_singleton.mpr rfl), rfl⟩
      · rw [marked]
        exact ⟨job, rfl, untouched.unlost, untouched.someLeft, Or.inl untouched.isFirst⟩
    split
    · next isFed =>
        rw [isFed] at fed
        exact congrArg List.length fed
    next isFed =>
    rw [isFed] at live
    exact live.settle_queue
  · split
    · next isFed =>
        rw [isFed] at fed
        exact Or.inl (congrArg List.length fed)
    next after _ isFed =>
    rw [isFed] at fed
    unfold settle
    rw [fed]
    dsimp only
    split
    · exact Or.inr ⟨rfl, untouched⟩
    · exact Or.inl rfl

/-- A message just queued is not what a pass over the queue drops. -/
theorem driveQueue_queue_ne (nowMs : Nat) {earlier : List Queued}
    (isQueue : outbox.queue = earlier ++ [job]) (untouched : job.Untouched) (world : ω) :
    (outbox.driveQueue emit nowMs world).2.1.queue ≠ earlier := by
  have rotated : ∀ {front : Queued} {rest : List Queued},
        rest ++ [job] = front :: rest →
        front = job := by
    intro front rest
    induction rest generalizing front with
    | nil =>
      intro same
      cases same
      rfl
    | cons second rest inductionHypothesis =>
      intro same
      rw [List.cons_append, List.cons.injEq] at same
      rw [← same.1]
      exact inductionHypothesis same.2
  intro unchanged
  cases earlier with
  | nil =>
    rcases driveQueue_queue emit nowMs isQueue world with
      longer | ⟨_, begun⟩
    · rw [unchanged] at longer
      cases longer
    · exact begun untouched
  | cons front rest =>
    rcases driveQueue_queue emit nowMs isQueue world with
      longer | ⟨dropped, begun⟩
    · rw [unchanged] at longer
      simp at longer
    · rw [dropped] at unchanged
      exact begun (rotated unchanged ▸ untouched)

end Outbox

namespace Core

variable {ω : Type*}
  (suite : Suite)
  (send : ω → Bytes → Except SendFailure Unit × ω)

/--
The call passes its checks, and a frame it then offers fails to be sealed or
sent.
-/
def failsLate
    (core : Core)
    (data : Bytes)
    (payloadType : PayloadType)
    (nowMs : Nat)
    (socket : ω) :
    Bool :=
  if data.length ≤ core.peer.payloadRoom core.limit true false then
    core.peer.session.peerCaps.supportsReliable &&
      match core.peer.retransmit.register nowMs with
      | .error _ =>
          false
      | .ok (id, _) =>
          !(Sealing.emit suite core.size (sendPlain send)
            (core.peer.toSealing, socket)
            ⟨data, payloadType, some id, none, core.limit⟩).1.isOk
  else
    match core.peer.queueMessage data payloadType core.limit with
    | (.error _, _) =>
        false
    | (.ok (), peer) =>
        !(forEach
          (fun outgoing world =>
            Sealing.emit suite core.size (sendStamped send nowMs) world
              outgoing)
          (peer.toOutbox.offered nowMs)
          (peer.toSealing, socket, core.lastSentMs)).1.isOk

variable (core : Core) (data : Bytes) (payloadType : PayloadType)
  (nowMs : Nat) (socket : ω)

theorem sealAndTransmit_result (outgoing : Outgoing) (nowMs : Nat) (socket : ω) :
    (core.sealAndTransmit suite send outgoing nowMs socket).1 =
      (Sealing.emit suite core.size (sendPlain send) (core.peer.toSealing, socket) outgoing).1 := by
  unfold sealAndTransmit Sealing.emit
  dsimp only
  rcases core.peer.toSealing.sealPayload suite outgoing core.size with
    ⟨error | frame, sealing⟩
  · rfl
  · unfold transmit
    dsimp only
    rcases sendPlain send socket frame with ⟨error | _, socket'⟩ <;> rfl

/-- Whether a message of one frame goes out. -/
theorem sendOneReliable_result :
    (core.sendOneReliable suite send data payloadType nowMs socket).1.isOk =
      (core.peer.session.peerCaps.supportsReliable && match core.peer.retransmit.register nowMs with
        | .error _ => false
        | .ok (id, _) =>
          (Sealing.emit suite core.size (sendPlain send) (core.peer.toSealing, socket)
            ⟨data, payloadType, some id, none, core.limit⟩).1.isOk) := by
  unfold sendOneReliable
  cases supported : core.peer.session.peerCaps.supportsReliable with
  | false => rfl
  | true =>
    rw [Bool.true_and, Bool.not_true, if_neg Bool.false_ne_true]
    cases registered : core.peer.retransmit.register nowMs with
    | error error => rfl
    | ok entry =>
      dsimp only
      split
      · next sends =>
          have result :=
            (congrArg Prod.fst sends).symm.trans
              (sealAndTransmit_result suite send _ _ nowMs socket)
          exact congrArg Except.isOk result
      next sends =>
      have result :=
        (congrArg Prod.fst sends).symm.trans
          (sealAndTransmit_result suite send _ _ nowMs socket)
      exact congrArg Except.isOk result

/-- A message of one frame is left in the window by a failure after that. -/
theorem sendOneReliable_holdsSame_iff :
    ((core.sendOneReliable suite send data payloadType nowMs socket).1.isOk = false →
        core.peer.toOutbox.HoldsSame
          (core.sendOneReliable suite send data payloadType nowMs socket).2.1.peer.toOutbox) ↔
      (core.peer.session.peerCaps.supportsReliable && match core.peer.retransmit.register nowMs with
        | .error _ => false
        | .ok (id, _) =>
          !(Sealing.emit suite core.size (sendPlain send) (core.peer.toSealing, socket)
            ⟨data, payloadType, some id, none, core.limit⟩).1.isOk) =
        false := by
  have succeeds := core.sendOneReliable_result suite send data payloadType nowMs socket
  rcases sends :
      core.sendOneReliable suite send data payloadType nowMs socket with
    ⟨result, after, socket'⟩
  rw [sends] at succeeds
  rcases sendOneReliable_cases suite send sends with
    ⟨unsupported | refused, kept⟩ | ⟨id, retransmit, supported, registered, outcome⟩
  · rw [kept, unsupported]
    exact iff_of_true (fun _ => .refl _) rfl
  · rw [kept]
    cases registered : core.peer.retransmit.register nowMs with
    | error error => exact iff_of_true (fun _ => .refl _) (Bool.and_false _)
    | ok entry =>
      rw [registered] at refused
      cases refused
  · rw [supported, registered, Bool.true_and] at succeeds ⊢
    dsimp only at succeeds ⊢
    rw [← succeeds]
    rcases outcome with ⟨failed, isOutbox⟩ | ⟨went, _⟩
    · rw [failed]
      refine iff_of_false (fun unchanged => ?_) Bool.noConfusion
      have same := (unchanged rfl).slots
      rw [isOutbox] at same
      exact RetransmitQueue.register_slots_ne registered same
    · rw [went]
      exact iff_of_true (fun failed => by cases failed) rfl

/-- A message of several is left in the queue by a failure after that. -/
theorem driveQueue_holdsSame_iff {peer : Peer} {job : Queued} (untouched : job.Untouched)
    (isQueue : peer.queue = core.peer.queue ++ [job]) (nowMs : Nat) (socket : ω) :
    ((({ core with peer := peer } : Core).driveQueue suite send nowMs
          socket).1.isOk = false →
        core.peer.toOutbox.HoldsSame
          (({ core with peer := peer } : Core).driveQueue suite send nowMs
            socket).2.1.peer.toOutbox) ↔
      (!(forEach (fun outgoing world =>
          Sealing.emit suite core.size (sendStamped send nowMs) world outgoing)
        (peer.toOutbox.offered nowMs)
        (peer.toSealing, socket, core.lastSentMs)).1.isOk) = false := by
  have moved :=
    Outbox.driveQueue_queue_ne (Sealing.emit suite core.size (sendStamped send nowMs)) nowMs isQueue
      untouched (peer.toSealing, socket, core.lastSentMs)
  have emitted :=
    congrArg Prod.fst (Outbox.driveQueue_emits
        (Sealing.emit suite core.size (sendStamped send nowMs)) peer.toOutbox
        nowMs (peer.toSealing, socket, core.lastSentMs))
  rw [← emitted, Bool.not_eq_false']
  unfold driveQueue Peer.driveQueue
  constructor
  · intro unchanged
    rw [← Bool.not_eq_false]
    intro failed
    exact moved (unchanged failed).queue
  · intro succeeded failed
    rw [succeeded] at failed
    cases failed

/--
A failed call leaves the connection holding what it held, exactly if it does
not fail late.
-/
theorem sendReliable_holdsSame_iff :
    ((core.sendReliable suite send data payloadType nowMs socket).1.isOk = false →
        core.peer.toOutbox.HoldsSame
          (core.sendReliable suite send data payloadType nowMs socket).2.1.peer.toOutbox) ↔
      core.failsLate suite send data payloadType nowMs socket = false := by
  unfold sendReliable failsLate
  split
  · exact core.sendOneReliable_holdsSame_iff suite send data payloadType nowMs socket
  rcases queues :
      core.peer.queueMessage data payloadType core.limit with
    ⟨error | _, peer⟩
  · rcases Peer.queueMessage_cases queues with
      ⟨_, rfl⟩ | ⟨impossible, _⟩
    · exact iff_of_true (fun _ => .refl _) rfl
    · cases impossible
  · rcases Peer.queueMessage_cases queues with
      ⟨impossible, _⟩ | ⟨_, job, untouched, isPeer⟩
    · cases impossible
    · exact core.driveQueue_holdsSame_iff suite send untouched (by rw [isPeer]) nowMs socket

end Core

namespace Endpoint

variable {ω : Type*} (env : Env ω)

/-- Emits what one peer's queue offers. -/
def emitOffered
    (endpoint : Endpoint ω)
    (nowMs : Nat)
    (peerId : PeerId)
    (socket : ω) :
    Except Error Unit × ω :=
  match endpoint.peers.lookup peerId with
  | none =>
      (.ok (), socket)
  | some entry =>
      let (result, _, socket, _) :=
        forEach
          (fun outgoing world =>
            Sealing.emit env.suite endpoint.size
              (sendStamped env endpoint peerId entry.addr nowMs) world outgoing)
          (entry.peer.toOutbox.offered nowMs)
          (entry.peer.toSealing, socket, entry.lastSent)
      (result, socket)

/--
The call passes its checks, and a frame it then offers, or one another peer's
queue then offers, fails to be sealed or sent.
-/
def failsLate
    (endpoint : Endpoint ω)
    (peerId : PeerId)
    (data : Bytes)
    (payloadType : PayloadType)
    (nowMs : Nat) :
    Bool :=
  match endpoint.peers.lookup peerId with
  | none =>
      false
  | some entry =>
      if data.length ≤
          entry.peer.payloadRoom entry.datagramLimit true false then
        entry.peer.session.peerCaps.supportsReliable &&
          match entry.peer.retransmit.register nowMs with
          | .error _ =>
              false
          | .ok (id, _) =>
              !(Sealing.emit env.suite endpoint.size
                (sendStamped env endpoint peerId entry.addr nowMs)
                (entry.peer.toSealing, endpoint.socket, entry.lastSent)
                ⟨data, payloadType, some id, none, entry.datagramLimit⟩).1.isOk
      else
        match entry.peer.queueMessage data payloadType entry.datagramLimit with
        | (.error _, _) =>
            false
        | (.ok (), peer) =>
            let queued := endpoint.putEntry peerId { entry with peer := peer }
            !(forEach (emitOffered env queued nowMs)
              (env.walk.order queued.peers.keys) endpoint.socket).1.isOk

variable (endpoint : Endpoint ω) (nowMs : Nat) {peerId : PeerId}

/-- One peer's queue drives as what it offers is emitted. -/
theorem driveQueueOf_emits (peerId : PeerId) :
    ((driveQueueOf env nowMs peerId endpoint).1,
        (driveQueueOf env nowMs peerId endpoint).2.socket) =
      emitOffered env endpoint nowMs peerId endpoint.socket := by
  unfold emitOffered
  cases found : endpoint.peers.lookup peerId with
  | none =>
    unfold driveQueueOf
    rw [found]
  | some entry =>
    rw [driveQueueOf_eq env found]
    dsimp only
    rw [← Outbox.driveQueue_emits]

theorem driveQueueOf_lookup_ne {other : PeerId} (different : other ≠ peerId) :
    (driveQueueOf env nowMs peerId endpoint).2.peers.lookup other =
      endpoint.peers.lookup other := by
  cases found : endpoint.peers.lookup peerId with
  | none =>
    unfold driveQueueOf
    rw [found]
  | some entry =>
    rw [driveQueueOf_eq env found]
    exact AList.lookup_insert_ne different

/-- The queues are driven without a failure exactly if all they offer goes. -/
theorem driveQueues_emits :
    (driveQueues env endpoint nowMs).1 = (forEach (emitOffered env endpoint nowMs)
        (env.walk.order endpoint.peers.keys) endpoint.socket).1 := by
  have distinct : (env.walk.order endpoint.peers.keys).Nodup :=
    (env.walk.perm _).nodup_iff.mpr endpoint.peers.nodupKeys
  have same :=
    @forEach_simulates PeerId (Endpoint ω) ω Error
      (driveQueueOf env nowMs) (emitOffered env endpoint nowMs)
      (fun keys current socket =>
        keys.Nodup ∧ current.socket = socket ∧ current.size = endpoint.size ∧
          ∀ key ∈ keys, current.peers.lookup key = endpoint.peers.lookup key)
  unfold driveQueues
  rw [← same]
  · rcases forEach (driveQueueOf env nowMs)
        (env.walk.order endpoint.peers.keys) endpoint with
      ⟨error | _, after⟩ <;> rfl
  · -- A visit sees its own entry as it was before the loop.
    rintro key rest current socket ⟨distinct, rfl, sameSize, unvisited⟩
    obtain ⟨absent, distinct⟩ := List.nodup_cons.mp distinct
    have emits := driveQueueOf_emits env current nowMs key
    have sameEmit : emitOffered env current nowMs key current.socket =
          emitOffered env endpoint nowMs key current.socket := by
      unfold emitOffered sendStamped
      rw [unvisited key List.mem_cons_self, sameSize]
    rw [sameEmit] at emits
    rw [← emits]
    refine ⟨rfl, distinct, rfl, ?_, ?_⟩
    · rw [driveQueueOf_size, sameSize]
    · intro other member
      have different : other ≠ key := fun isKey => absent (isKey ▸ member)
      rw [driveQueueOf_lookup_ne env current nowMs different]
      exact unvisited other (List.mem_cons_of_mem key member)
  · exact ⟨distinct, rfl, rfl, fun _ _ => rfl⟩

/-- A message just queued stays in its queue while the queues are driven. -/
theorem driveQueues_queue_ne {endpoint : Endpoint ω} {entry : PeerEntry}
    (found : endpoint.peers.lookup peerId = some entry) {job : Queued}
    {earlier : List Queued} (isQueue : entry.peer.queue = earlier ++ [job])
    (untouched : job.Untouched) :
    ∃ after, (driveQueues env endpoint nowMs).2.peers.lookup peerId = some after ∧
        after.peer.queue ≠ earlier := by
  have distinct : (env.walk.order endpoint.peers.keys).Nodup :=
    (env.walk.perm _).nodup_iff.mpr endpoint.peers.nodupKeys
  have driven : (driveQueues env endpoint nowMs).2.peers = (forEach (driveQueueOf env nowMs)
          (env.walk.order endpoint.peers.keys) endpoint).2.peers := by
    unfold driveQueues
    rcases forEach (driveQueueOf env nowMs) (env.walk.order endpoint.peers.keys) endpoint with
      ⟨error | _, after⟩ <;> rfl
  rw [driven]
  have others : ∀ {other : PeerId} {state : Endpoint ω},
        other ≠ peerId →
        (driveQueueOf env nowMs other state).2.peers.lookup peerId = state.peers.lookup peerId :=
    fun different =>
      driveQueueOf_lookup_ne env _ nowMs (Ne.symm different)
  rcases forEach_part (fun state => state.peers.lookup peerId) others distinct endpoint with
    unvisited | ⟨between, same, visited⟩
  · refine ⟨entry, unvisited.trans found, ?_⟩
    rw [isQueue]
    exact fun shorter => by simpa using congrArg List.length shorter
  rw [found] at same
  rw [visited, driveQueueOf_eq env same]
  refine ⟨_, AList.lookup_insert _, ?_⟩
  exact Outbox.driveQueue_queue_ne _ nowMs isQueue untouched _

/-- The sending half of a peer on file holds what it held. -/
def HoldsSame (before after : Endpoint ω) (peerId : PeerId) : Prop :=
  ∀ entry,
    before.peers.lookup peerId = some entry →
    ∃ entry',
      after.peers.lookup peerId = some entry' ∧
        entry.peer.toOutbox.HoldsSame entry'.peer.toOutbox

theorem HoldsSame.refl (peerId : PeerId) :
    endpoint.HoldsSame endpoint peerId :=
  fun entry found => ⟨entry, found, .refl _⟩

/-- A message of one frame is left in the window by a failure after that. -/
theorem sendOneReliable_holdsSame_iff {endpoint : Endpoint ω} {entry : PeerEntry}
    (found : endpoint.peers.lookup peerId = some entry) (data : Bytes)
    (payloadType : PayloadType) (nowMs : Nat) :
    ((sendOneReliable env endpoint peerId entry data payloadType nowMs).1.isOk = false →
        endpoint.HoldsSame
          (sendOneReliable env endpoint peerId entry data payloadType nowMs).2 peerId) ↔
      (entry.peer.session.peerCaps.supportsReliable &&
        match entry.peer.retransmit.register nowMs with
        | .error _ => false
        | .ok (id, _) =>
          !(Sealing.emit env.suite endpoint.size (sendStamped env endpoint peerId entry.addr nowMs)
            (entry.peer.toSealing, endpoint.socket, entry.lastSent)
            ⟨data, payloadType, some id, none, entry.datagramLimit⟩).1.isOk) =
        false := by
  unfold sendOneReliable
  cases supported : entry.peer.session.peerCaps.supportsReliable with
  | false => exact iff_of_true (fun _ => .refl endpoint peerId) rfl
  | true =>
    rw [Bool.true_and, Bool.not_true, if_neg Bool.false_ne_true]
    cases registered : entry.peer.retransmit.register nowMs with
    | error error => exact iff_of_true (fun _ => .refl endpoint peerId) rfl
    | ok registration =>
      dsimp only [Pending.outgoing]
      rcases Sealing.emit env.suite endpoint.size (sendStamped env endpoint peerId entry.addr nowMs)
          (entry.peer.toSealing, endpoint.socket, entry.lastSent)
          ⟨data, payloadType, some registration.1, none, entry.datagramLimit⟩ with
        ⟨error | _, sealing, socket, stamp⟩
      · refine iff_of_false (fun unchanged => ?_) Bool.noConfusion
        obtain ⟨after, foundAfter, same⟩ := unchanged rfl entry found
        dsimp only at foundAfter
        rw [putEntry, AList.lookup_insert, Option.some.injEq] at foundAfter
        subst foundAfter
        exact RetransmitQueue.register_slots_ne registered same.slots
      · exact iff_of_true (fun failed => by cases failed) rfl

/-- A message of several is left in the queue by a failure after that. -/
theorem driveQueues_holdsSame_iff
    {endpoint queued : Endpoint ω} {peerId : PeerId} {entry entry' : PeerEntry}
    {job : Queued} (found : endpoint.peers.lookup peerId = some entry)
    (foundQueued : queued.peers.lookup peerId = some entry')
    (isQueue : entry'.peer.queue = entry.peer.queue ++ [job])
    (untouched : job.Untouched) (nowMs : Nat) :
    ((driveQueues env queued nowMs).1.isOk = false →
        endpoint.HoldsSame (driveQueues env queued nowMs).2 peerId) ↔
      (!(forEach (emitOffered env queued nowMs)
        (env.walk.order queued.peers.keys) queued.socket).1.isOk) =
        false := by
  obtain ⟨after, foundAfter, moved⟩ := driveQueues_queue_ne env nowMs foundQueued isQueue untouched
  rw [← driveQueues_emits, Bool.not_eq_false']
  constructor
  · intro unchanged
    rw [← Bool.not_eq_false]
    intro failed
    obtain ⟨same, foundSame, held⟩ := unchanged failed entry found
    rw [foundAfter, Option.some.injEq] at foundSame
    subst foundSame
    exact moved held.queue
  · intro succeeded failed
    rw [succeeded] at failed
    cases failed

/--
A failed call leaves the endpoint's peer holding what it held, exactly if it
does not fail late.
-/
theorem sendReliable_holdsSame_iff
    (peerId : PeerId) (data : Bytes) (payloadType : PayloadType) (nowMs : Nat) :
    ((sendReliable env endpoint peerId data payloadType nowMs).1.isOk = false →
        endpoint.HoldsSame (sendReliable env endpoint peerId data payloadType nowMs).2 peerId) ↔
      failsLate env endpoint peerId data payloadType nowMs = false := by
  unfold sendReliable failsLate
  cases found : endpoint.peers.lookup peerId with
  | none => exact iff_of_true (fun _ => .refl endpoint peerId) rfl
  | some entry =>
    dsimp only
    split
    · exact sendOneReliable_holdsSame_iff env found data payloadType nowMs
    rcases queues :
        entry.peer.queueMessage data payloadType entry.datagramLimit with
      ⟨error | _, peer⟩
    · rcases Peer.queueMessage_cases queues with
        ⟨_, rfl⟩ | ⟨impossible, _⟩
      · refine iff_of_true (fun _ => ?_) rfl
        intro other foundOther
        rw [found] at foundOther
        cases foundOther
        exact ⟨_, AList.lookup_insert _, .refl _⟩
      · cases impossible
    · rcases Peer.queueMessage_cases queues with
        ⟨impossible, _⟩ | ⟨_, job, untouched, isPeer⟩
      · cases impossible
      · have driven :=
          @driveQueues_holdsSame_iff ω env endpoint
            (endpoint.putEntry peerId { entry with peer := peer }).noteQueued
            peerId entry { entry with peer := peer } job found
            (AList.lookup_insert _) (by rw [isPeer]) untouched nowMs
        rcases drives :
            driveQueues env
              (endpoint.putEntry peerId { entry with peer := peer }).noteQueued nowMs with
          ⟨error | _, after⟩
        · rw [drives] at driven
          exact driven
        · rw [drives] at driven
          refine iff_of_true (fun failed => by cases failed) ?_
          exact driven.mp (fun failed => by cases failed)

end Endpoint

/--
A failed reliable send leaves a connection's peer, and an endpoint's, holding
what it held exactly if no frame offered after the checks fails to be sealed
or sent.
-/
theorem failed_sends_hold_same_iff
    {ω ω' : Type*}
    (suite : Suite)
    (send : ω → Bytes → Except SendFailure Unit × ω)
    (core : Core)
    (socket : ω)
    (env : Env ω')
    (endpoint : Endpoint ω')
    (peerId : PeerId)
    (data : Bytes)
    (payloadType : PayloadType)
    (nowMs : Nat) :
    (((core.sendReliable suite send data payloadType nowMs
            socket).1.isOk = false →
          core.peer.toOutbox.HoldsSame
            (core.sendReliable suite send data payloadType nowMs
              socket).2.1.peer.toOutbox) ↔
        core.failsLate suite send data payloadType nowMs socket = false) ∧
      (((Endpoint.sendReliable env endpoint peerId data payloadType
              nowMs).1.isOk = false →
          endpoint.HoldsSame
            (Endpoint.sendReliable env endpoint peerId data payloadType
              nowMs).2 peerId) ↔
        Endpoint.failsLate env endpoint peerId data payloadType nowMs =
          false) :=
  ⟨core.sendReliable_holdsSame_iff suite send data payloadType nowMs socket,
    Endpoint.sendReliable_holdsSame_iff env endpoint peerId data payloadType
      nowMs⟩

/-- The network is unreachable. -/
def sendsNothing (socket : Unit) (_ : Bytes) :
    Except SendFailure Unit × Unit :=
  (.error .other, socket)

/--
The call fails and its message is in flight all the same: two hundred
milliseconds later it falls due for retransmission.
-/
theorem refused_send_stays_in_flight :
    let core := Connection.smallConnection.core
    let (result, after, _) :=
      core.sendReliable SplitMessages.System.smallSuite sendsNothing [1]
        .opaqueBytes 0 ()
    result = .error .io ∧
      core.peer.retransmit.inFlight = 0 ∧
      after.peer.retransmit.inFlight = 1 ∧
      (after.peer.retransmit.poll 200 maxInFlight).1 = [.retransmit 0] := by
  decide +kernel

end Fectp
