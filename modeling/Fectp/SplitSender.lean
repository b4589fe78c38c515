import Fectp.SplitMessages

namespace Fectp

open SerialNumber

/-!
# The books of the sending half

Every fragment that leaves is accounted for: which message it is a piece of,
which identifier carries it, and, for the message at the front of the queue,
whether it still awaits an acknowledgement, was accepted, or was lost.  Each
operation of the sending half keeps the books.
-/

/-- The message as it was queued. -/
def Queued.origin (job : Queued) : Queued :=
  { job with next := 0, outstanding := [], lost := false }

namespace Queued

@[simp] theorem origin_markLost (job : Queued) (lost : List MessageId) :
    (job.markLost lost).origin = job.origin := by
  unfold markLost
  split <;> rfl

end Queued

namespace SplitMessages

/-- What was sent is one piece of a message that was queued. -/
structure PieceOf
    (messages : List Queued)
    (outgoing : Outgoing)
    (fragment : Fragment) : Prop where
  carried : outgoing.fragment = some fragment
  queued : ∃ job,
      messages[fragment.message.toNat]? = some job ∧
        fragment.count = job.count ∧
        fragment.index < job.count ∧
        outgoing.data = Chunks.chunk job.perFragment job.data fragment.index

/-- A piece of a queued message stays one as more are queued. -/
theorem PieceOf.append {messages : List Queued} {outgoing : Outgoing} {fragment : Fragment}
    (piece : PieceOf messages outgoing fragment) (more : List Queued) :
    PieceOf (messages ++ more) outgoing fragment := by
  obtain ⟨job, isQueued, rest⟩ := piece.queued
  refine ⟨piece.carried, job, ?_, rest⟩
  exact List.getElem?_append_left (List.getElem?_eq_some_iff.mp isQueued).1 ▸ isQueued

/-- Where each fragment fed from the front message stands. -/
structure Front
    (done : List Queued)
    (accepted : List (MessageId × Fragment))
    (outbox : Outbox)
    (wire : Wire)
    (job : Queued) : Prop where
  counted : done.length + job.next ≤ wire.fed
  begun : job.lost = true ∨ job.outstanding ≠ [] → 0 < job.next
  covered : ∀ {index : Nat},
      index < job.next →
      ∃ outgoing ∈ wire.issued, ∃ id,
        outgoing.messageId = some id ∧
          outgoing.fragment = some ⟨job.message, index, job.count⟩ ∧
          (id ∈ job.outstanding ∨
            (id, ⟨job.message, index, job.count⟩) ∈ accepted ∨
            job.lost = true)
  kept : ∀ {id : MessageId},
      id ∈ job.outstanding →
      (∃ pending ∈ outbox.pending, pending.id = id) ∨
        (∃ fragment, (id, fragment) ∈ accepted) ∨
        id ∈ outbox.abandoned

/-- A message nothing was sent of leaves nothing to account for. -/
theorem Front.untouched {done : List Queued} {accepted : List (MessageId × Fragment)}
    {outbox : Outbox} {wire : Wire} {job : Queued} (settled : done.length ≤ wire.fed) :
    Front done accepted outbox wire job.origin where
  counted := settled
  begun := by
    rintro (isLost | waits)
    · cases isLost
    · exact (waits rfl).elim
  covered := by
    intro index low
    exact (Nat.not_lt_zero _ low).elim
  kept := by
    intro id member
    cases member

/-- The books balance. -/
structure Books
    (codec : Codec)
    (messages done : List Queued)
    (accepted : List (MessageId × Fragment))
    (outbox : Outbox)
    (wire : Wire) : Prop where
  few : wire.fed < 2 ^ 31
  nextId : outbox.retransmit.nextId = serial 32 wire.fed
  nextMessage : outbox.nextMessage = serial 32 messages.length
  layout : messages = done ++ outbox.queue.map Queued.origin
  short : outbox.queue.length ≤ maxQueued
  cut : ∀ {position : Nat} {job : Queued},
      messages[position]? = some job →
      job.message = serial 32 position ∧
        fragmentsNeeded job.data.length job.perFragment = some job.count
  settled : done.length ≤ wire.fed
  numbered : ∀ {outgoing : Outgoing},
      outgoing ∈ wire.issued →
      ∃ number, number < wire.fed ∧ outgoing.messageId = some (serial 32 number)
  pieces : ∀ {outgoing : Outgoing},
      outgoing ∈ wire.issued →
      ∃ fragment, PieceOf messages outgoing fragment
  onceById : ∀ {first second : Outgoing},
      first ∈ wire.issued →
      second ∈ wire.issued →
      first.messageId = second.messageId →
      first = second
  onceByFragment : ∀ {first second : Outgoing},
      first ∈ wire.issued →
      second ∈ wire.issued →
      first.fragment = second.fragment →
      first = second
  reached : ∀ {outgoing : Outgoing} {fragment : Fragment},
      outgoing ∈ wire.issued →
      outgoing.fragment = some fragment →
      fragment.message.toNat < done.length ∨
        ∃ job,
          outbox.queue.head? = some job ∧
            fragment.message = job.message ∧
            fragment.index < job.next
  pending : ∀ {pending : Pending},
      pending ∈ outbox.pending → pending.outgoing ∈ wire.issued
  network : ∀ {transmission : Transmission},
      transmission ∈ wire.network →
      transmission.outgoing ∈ wire.issued ∧ Wire.Carries codec transmission
  waiting : ∀ {job : Queued}, job ∈ outbox.queue.tail → job.origin = job
  front : ∀ {job : Queued},
      outbox.queue.head? = some job →
      Front done accepted outbox wire job
  known : ∀ {id : MessageId} {fragment : Fragment},
      (id, fragment) ∈ accepted →
      ∃ outgoing ∈ wire.issued,
        outgoing.messageId = some id ∧ outgoing.fragment = some fragment

namespace Books

variable {codec : Codec}
  {messages done : List Queued}
  {accepted : List (MessageId × Fragment)}
  {outbox : Outbox}
  {wire : Wire}

/-- Identifiers of a run this short do not wrap. -/
theorem toNat_serial {number : Nat} (small : number < 2 ^ 32) :
    (serial 32 number).toNat = number := by
  exact Nat.mod_eq_of_lt small

variable {job : Queued} {rest : List Queued} {outgoing : Outgoing}
  {suite : Suite}

section

variable (books : Books codec messages done accepted outbox wire)

include books

/-- The front message is the next one to settle. -/
theorem frontMessage (isFront : outbox.queue = job :: rest) :
    messages[done.length]? = some job.origin ∧ job.message = serial 32 done.length ∧
      job.message.toNat = done.length ∧
      fragmentsNeeded job.data.length job.perFragment = some job.count := by
  have place : messages[done.length]? = some job.origin := by
    rw [books.layout, isFront]
    simp
  obtain ⟨numbered, needed⟩ := books.cut place
  have small : done.length < 2 ^ 32 := by
    have settled := books.settled
    have few := books.few
    omega
  refine ⟨place, numbered, ?_, needed⟩
  have isNumbered : job.message = serial 32 done.length := numbered
  rw [isNumbered, toNat_serial small]

/-- The identifier the window gives next was never given before. -/
theorem fresh_id (member : outgoing ∈ wire.issued) :
    outgoing.messageId ≠ some outbox.retransmit.nextId := by
  obtain ⟨number, earlier, isNumbered⟩ := books.numbered member
  intro same
  rw [isNumbered, books.nextId, Option.some.injEq] at same
  have few := books.few
  have equal := (serial_inj (w := 32) (by omega) (by omega)).mp same
  omega

/-- A fragment the window took that did not leave changes no account. -/
theorem refused {after : Wire} {retransmit : RetransmitQueue} (few : after.fed < 2 ^ 31)
    (fed : after.fed = wire.fed + 1) (issued : after.issued = wire.issued)
    (network : after.network = wire.network)
    (nextId : retransmit.nextId = outbox.retransmit.nextId + 1) :
    Books codec messages done accepted { outbox with retransmit := retransmit } after := by
  cases after
  cases issued
  cases network
  cases fed
  exact {
    books with
    few := few
    nextId := by
      rw [serial_succ, ← books.nextId]
      exact nextId
    settled := Nat.le_succ_of_le books.settled
    numbered := by
      intro outgoing member
      obtain ⟨number, earlier, isNumbered⟩ := books.numbered member
      exact ⟨number, Nat.lt_succ_of_lt earlier, isNumbered⟩
    front := by
      intro job isFront
      have front := books.front isFront
      exact ⟨Nat.le_succ_of_le front.counted, front.begun, front.covered, front.kept⟩ }

/-- A fragment that leaves is entered under its own identifier. -/
theorem sent {after : Wire} {retransmit : RetransmitQueue} {job : Queued}
    {rest : List Queued} {transmission : Transmission}
    (isFront : outbox.queue = job :: rest) (ready : job.next < job.count)
    (few : after.fed < 2 ^ 31) (fed : after.fed = wire.fed + 1)
    (issued : after.issued = (job.pendingAt outbox.retransmit.nextId).outgoing :: wire.issued)
    (network : after.network = transmission :: wire.network)
    (carried : transmission.outgoing = (job.pendingAt outbox.retransmit.nextId).outgoing)
    (carries : Wire.Carries codec transmission)
    (nextId : retransmit.nextId = outbox.retransmit.nextId + 1) :
    Books codec messages done accepted
      { outbox with
        retransmit := retransmit
        pending := outbox.pending ++ [job.pendingAt outbox.retransmit.nextId]
        queue :=
          { job with
            outstanding := job.outstanding ++ [outbox.retransmit.nextId]
            next := job.next + 1 } :: rest }
      after := by
  obtain ⟨place, isNumbered, toNat, needed⟩ := books.frontMessage isFront
  have head : outbox.queue.head? = some job := by
    rw [isFront]
    rfl
  have front := books.front head
  -- The front message has sent only the fragments before this one.
  have freshFragment : ∀ {outgoing : Outgoing},
        outgoing ∈ wire.issued →
        outgoing.fragment ≠ some ⟨job.message, job.next, job.count⟩ := by
    intro outgoing member same
    rcases books.reached member same with earlier | ⟨other, isHead, _, low⟩
    · dsimp only at earlier
      omega
    · rw [head] at isHead
      cases isHead
      exact Nat.lt_irrefl _ low
  refine
    { books with
      few := few
      nextId := ?_
      layout := ?_
      short := ?_
      settled := ?_
      numbered := ?_
      pieces := ?_
      onceById := ?_
      onceByFragment := ?_
      reached := ?_
      pending := ?_
      network := ?_
      waiting := ?_
      front := ?_
      known := ?_ }
  · rw [fed, serial_succ, ← books.nextId]
    exact nextId
  · have layout := books.layout
    rw [isFront] at layout
    exact layout
  · have short := books.short
    rw [isFront] at short
    exact short
  · have settled := books.settled
    omega
  · intro outgoing member
    rw [issued] at member
    rcases List.mem_cons.mp member with rfl | older
    · refine ⟨wire.fed, by omega, ?_⟩
      rw [← books.nextId]
      rfl
    · obtain ⟨number, earlier, isNumbered⟩ := books.numbered older
      exact ⟨number, by omega, isNumbered⟩
  · intro outgoing member
    rw [issued] at member
    rcases List.mem_cons.mp member with rfl | older
    · refine ⟨⟨job.message, job.next, job.count⟩, rfl, job.origin, ?_,
        rfl, ready, rfl⟩
      rw [toNat]
      exact place
    · exact books.pieces older
  · intro first second firstMember secondMember same
    rw [issued] at firstMember secondMember
    rcases List.mem_cons.mp firstMember with rfl | firstOlder
    · rcases List.mem_cons.mp secondMember with rfl | secondOlder
      · rfl
      · exact (books.fresh_id secondOlder same.symm).elim
    · rcases List.mem_cons.mp secondMember with rfl | secondOlder
      · exact (books.fresh_id firstOlder same).elim
      · exact books.onceById firstOlder secondOlder same
  · intro first second firstMember secondMember same
    rw [issued] at firstMember secondMember
    rcases List.mem_cons.mp firstMember with rfl | firstOlder
    · rcases List.mem_cons.mp secondMember with rfl | secondOlder
      · rfl
      · exact (freshFragment secondOlder same.symm).elim
    · rcases List.mem_cons.mp secondMember with rfl | secondOlder
      · exact (freshFragment firstOlder same).elim
      · exact books.onceByFragment firstOlder secondOlder same
  · intro outgoing fragment member carriedFragment
    rw [issued] at member
    rcases List.mem_cons.mp member with rfl | older
    · cases carriedFragment
      exact Or.inr ⟨_, rfl, rfl, Nat.lt_succ_self _⟩
    rcases books.reached older carriedFragment with
      earlier | ⟨other, isHead, sameMessage, low⟩
    · exact Or.inl earlier
    · rw [head] at isHead
      cases isHead
      exact Or.inr ⟨_, rfl, sameMessage, Nat.lt_succ_of_lt low⟩
  · intro pending member
    rw [issued]
    rcases List.mem_append.mp member with older | isNew
    · exact List.mem_cons_of_mem _ (books.pending older)
    · rw [List.mem_singleton] at isNew
      subst isNew
      exact List.mem_cons_self
  · intro other member
    rw [network] at member
    rw [issued]
    rcases List.mem_cons.mp member with rfl | older
    · refine ⟨?_, carries⟩
      rw [carried]
      exact List.mem_cons_self
    · obtain ⟨isIssued, carriesOther⟩ := books.network older
      exact ⟨List.mem_cons_of_mem _ isIssued, carriesOther⟩
  · intro other member
    refine books.waiting ?_
    rw [isFront]
    exact member
  · intro other isHead
    cases isHead
    refine ⟨?_, fun _ => Nat.succ_pos _, ?_, ?_⟩
    · have counted := front.counted
      dsimp only
      omega
    · intro index low
      rw [issued]
      rcases Nat.lt_succ_iff_lt_or_eq.mp low with older | rfl
      · obtain ⟨outgoing, member, id, isId, isFragment, stands⟩ :=
          front.covered older
        refine ⟨outgoing, List.mem_cons_of_mem _ member, id, isId, isFragment, ?_⟩
        rcases stands with waits | settledOrLost
        · exact Or.inl (List.mem_append_left _ waits)
        · exact Or.inr settledOrLost
      · exact ⟨_, List.mem_cons_self, _, rfl, rfl,
          Or.inl (List.mem_append_right _ List.mem_cons_self)⟩
    · intro id member
      rcases List.mem_append.mp member with older | isNew
      · rcases front.kept older with ⟨pending, isPending, same⟩ | other
        · exact Or.inl ⟨pending, List.mem_append_left _ isPending, same⟩
        · exact Or.inr other
      · rw [List.mem_singleton] at isNew
        exact Or.inl ⟨_, List.mem_append_right _ List.mem_cons_self, isNew.symm⟩
  · intro id fragment member
    obtain ⟨outgoing, isIssued, rest⟩ := books.known member
    rw [issued]
    exact ⟨outgoing, List.mem_cons_of_mem _ isIssued, rest⟩

/-- A change to the outbox that leaves the queue and the wire alone. -/
theorem ofOutbox {after : Outbox} (sameQueue : after.queue = outbox.queue)
    (sameNext : after.nextMessage = outbox.nextMessage)
    (sameId : after.retransmit.nextId = outbox.retransmit.nextId)
    (fewer : after.pending ⊆ outbox.pending)
    (kept : ∀ {job : Queued} {id : MessageId},
        outbox.queue.head? = some job →
        id ∈ job.outstanding →
        (∃ pending ∈ after.pending, pending.id = id) ∨ (∃ fragment, (id, fragment) ∈ accepted) ∨
          id ∈ after.abandoned) :
    Books codec messages done accepted after wire := by
  cases after
  cases sameQueue
  cases sameNext
  exact {
    books with
    nextId := sameId.trans books.nextId
    pending := fun member => books.pending (fewer member)
    front := by
      intro job isFront
      have front := books.front isFront
      exact ⟨front.counted, front.begun, front.covered, kept isFront⟩ }

/-- An abandoned fragment stays on the books until the queue has looked. -/
theorem giveUp (id : MessageId) :
    Books codec messages done accepted (outbox.giveUp id) wire := by
  refine books.ofOutbox rfl rfl rfl (List.filter_subset_self _) ?_
  intro job other isFront member
  by_cases same : other = id
  · exact Or.inr (Or.inr (same ▸ List.mem_append_right _ List.mem_cons_self))
  rcases (books.front isFront).kept member with
    ⟨pending, isPending, sameId⟩ | isAccepted | isAbandoned
  · refine Or.inl ⟨pending, List.mem_filter.mpr ⟨isPending, ?_⟩, sameId⟩
    simpa [sameId] using same
  · exact Or.inr (Or.inl isAccepted)
  · exact Or.inr (Or.inr (List.mem_append_left _ isAbandoned))

/-- A sound acknowledgement removes only what was accepted. -/
theorem applyAck {ack : Ack}
    (sound : ∀ {id : MessageId},
        id.toNat < 2 ^ 31 →
        ack.covers id = true →
        ∃ fragment, (id, fragment) ∈ accepted)
    (nowMs : Nat) :
    Books codec messages done accepted (outbox.applyAck ack nowMs) wire := by
  refine books.ofOutbox rfl rfl (RetransmitQueue.onAck_nextId _ ack nowMs maxInFlight)
    (List.filter_subset_self _) ?_
  intro job id isFront member
  rcases (books.front isFront).kept member with
    ⟨pending, isPending, sameId⟩ | other
  · -- Still pending, or freed by an acknowledgement that covers it.
    by_cases freed :
        id ∈ (outbox.retransmit.onAck ack nowMs maxInFlight).1
    · refine Or.inr (Or.inl ?_)
      obtain ⟨number, earlier, isNumbered⟩ := books.numbered (books.pending isPending)
      have few := books.few
      have isId : id = serial 32 number := by
        rw [← sameId]
        exact Option.some.inj isNumbered
      apply sound
      · rw [isId, toNat_serial (by omega)]
        omega
      · rw [RetransmitQueue.onAck_freed] at freed
        exact (List.mem_filter.mp (List.mem_of_mem_take freed)).2
    · refine Or.inl ⟨pending, List.mem_filter.mpr ⟨isPending, ?_⟩, sameId⟩
      rw [sameId, Bool.not_eq_true', List.contains_eq_mem]
      exact decide_eq_false freed
  · exact Or.inr other

/-- Frames may come and go while each carries something issued. -/
theorem ofNetwork
    {after : Wire} (sameIssued : after.issued = wire.issued) (sameFed : after.fed = wire.fed)
    (network : ∀ {transmission : Transmission},
        transmission ∈ after.network →
        transmission.outgoing ∈ wire.issued ∧ Wire.Carries codec transmission) :
    Books codec messages done accepted outbox after := by
  cases after
  cases sameIssued
  cases sameFed
  exact {
    books with
    network := network
    front := by
      intro job isFront
      have front := books.front isFront
      exact ⟨front.counted, front.begun, front.covered, front.kept⟩ }

end

/-- A resent fragment is one already entered. -/
theorem transmit (books : Books suite.codec messages done accepted outbox wire)
    (txLen : Nat) {pending : Pending} (isPending : pending ∈ outbox.pending) :
    Books suite.codec messages done accepted outbox
      (wire.transmit suite txLen pending.outgoing).2 := by
  obtain ⟨sameIssued, sameFed, outcome⟩ := wire.transmit_spec suite txLen pending.outgoing
  refine books.ofNetwork sameIssued sameFed ?_
  intro transmission member
  rcases outcome with ⟨_, sameNetwork⟩ | ⟨_, other, grown, same, carries⟩
  · rw [sameNetwork] at member
    exact books.network member
  rw [grown] at member
  rcases List.mem_cons.mp member with rfl | older
  · rw [same]
    exact ⟨books.pending isPending, carries⟩
  · exact books.network older

section

variable (books : Books codec messages done accepted outbox wire)

include books

/-- The front message may strike off fragments, if it says where they are. -/
theorem ofFront {after : Outbox} {job' : Queued} (isFront : outbox.queue = job :: rest)
    (isFront' : after.queue = job' :: rest)
    (sameOrigin : job'.origin = job.origin) (sameNext : job'.next = job.next)
    (sameId : after.retransmit.nextId = outbox.retransmit.nextId)
    (sameNextMessage : after.nextMessage = outbox.nextMessage)
    (samePending : after.pending = outbox.pending) (front : Front done accepted after wire job') :
    Books codec messages done accepted after wire where
  __ := books
  nextId := sameId.trans books.nextId
  nextMessage := sameNextMessage.trans books.nextMessage
  layout := by
    rw [books.layout, isFront, isFront', List.map_cons, List.map_cons, sameOrigin]
  short := by
    have short := books.short
    rw [isFront] at short
    rw [isFront']
    exact short
  reached := by
    intro outgoing fragment member carried
    rcases books.reached member carried with
      earlier | ⟨other, isHead, sameMessage, low⟩
    · exact Or.inl earlier
    rw [isFront] at isHead
    cases isHead
    refine Or.inr ⟨job', by rw [isFront']; rfl, ?_, by omega⟩
    have same : job'.origin.message = job.origin.message := by
      rw [sameOrigin]
    exact sameMessage.trans same.symm
  pending := by
    rw [samePending]
    exact books.pending
  waiting := by
    intro other member
    rw [isFront'] at member
    apply books.waiting
    rw [isFront]
    exact member
  front := by
    intro other isHead
    rw [isFront'] at isHead
    cases isHead
    exact front

/-- Looking at what was abandoned loses the messages it belonged to. -/
theorem markLost (isFront : outbox.queue = job :: rest) :
    Books codec messages done accepted
      { outbox with
        abandoned := []
        queue := job.markLost outbox.abandoned :: rest }
      wire := by
  have front := books.front (by rw [isFront]; rfl)
  refine books.ofFront isFront rfl (by simp) (by simp) rfl rfl rfl ?_
  refine ⟨?_, ?_, ?_, ?_⟩
  · simpa using front.counted
  · intro started
    rw [Queued.markLost_next]
    apply front.begun
    rcases started with isLost | waits
    · rcases Queued.markLost_lost.mp isLost with already | ⟨id, member, _⟩
      · exact Or.inl already
      · exact Or.inr (List.ne_nil_of_mem member)
    · obtain ⟨id, member⟩ := List.exists_mem_of_ne_nil _ waits
      exact Or.inr (List.ne_nil_of_mem (Queued.mem_markLost_outstanding.mp member).1)
  · intro index low
    rw [Queued.markLost_next] at low
    rw [Queued.markLost_message, Queued.markLost_count]
    obtain ⟨outgoing, member, id, isId, isFragment, stands⟩ := front.covered low
    refine ⟨outgoing, member, id, isId, isFragment, ?_⟩
    rcases stands with waits | isAccepted | isLost
    · by_cases gone : id ∈ outbox.abandoned
      · exact Or.inr (Or.inr (Queued.markLost_lost.mpr (Or.inr ⟨id, waits, gone⟩)))
      · exact Or.inl (Queued.mem_markLost_outstanding.mpr ⟨waits, gone⟩)
    · exact Or.inr (Or.inl isAccepted)
    · exact Or.inr (Or.inr (Queued.markLost_lost.mpr (Or.inl isLost)))
  · intro id member
    obtain ⟨waits, present⟩ := Queued.mem_markLost_outstanding.mp member
    rcases front.kept waits with isPending | isAccepted | isAbandoned
    · exact Or.inl isPending
    · exact Or.inr (Or.inl isAccepted)
    · exact (present isAbandoned).elim

/-- An identifier carries one fragment, so accepting it accepts that. -/
theorem accepted_of_id {id : MessageId} {fragment other : Fragment}
    (isIssued : outgoing ∈ wire.issued) (isId : outgoing.messageId = some id)
    (isFragment : outgoing.fragment = some fragment) (isAccepted : (id, other) ∈ accepted) :
    (id, fragment) ∈ accepted := by
  obtain ⟨known, knownIssued, knownId, knownFragment⟩ := books.known isAccepted
  have same : known = outgoing := books.onceById knownIssued isIssued (knownId.trans isId.symm)
  rw [same, isFragment] at knownFragment
  cases knownFragment
  exact isAccepted

/-- A message whose every fragment is settled, and none lost, arrived. -/
theorem delivered (looked : outbox.abandoned = []) (isFront : outbox.queue = job :: rest)
    (intact : job.lost = false) (sentAll : job.next = job.count)
    (noneWaits : (job.retainPending outbox.pending).outstanding = [])
    {index : Nat} (low : index < job.count) :
    ∃ id, (id, ⟨job.message, index, job.count⟩) ∈ accepted := by
  have front := books.front (by rw [isFront]; rfl)
  obtain ⟨outgoing, isIssued, id, isId, isFragment, stands⟩ := front.covered (sentAll.symm ▸ low)
  rcases stands with waits | isAccepted | isLost
  · rcases front.kept waits with isPending | ⟨fragment, isAccepted⟩ |
      isAbandoned
    · have member :=
        Queued.mem_retainPending_outstanding.mpr ⟨waits, isPending⟩
      rw [noneWaits] at member
      cases member
    · exact ⟨id, books.accepted_of_id isIssued isId isFragment isAccepted⟩
    · rw [looked] at isAbandoned
      cases isAbandoned
  · exact ⟨id, isAccepted⟩
  · rw [intact] at isLost
    cases isLost

/-- The front message may leave the queue once it has sent something. -/
theorem popped (isFront : outbox.queue = job :: rest) (begun : 0 < job.next) :
    Books codec messages (done ++ [job.origin]) accepted { outbox with queue := rest } wire := by
  obtain ⟨_, _, toNat, _⟩ := books.frontMessage isFront
  have front := books.front (by rw [isFront]; rfl)
  have counted := front.counted
  have length : (done ++ [job.origin]).length = done.length + 1 := by
    simp
  exact
    { books with
      layout := by
        rw [books.layout, isFront]
        simp
      short := by
        have short := books.short
        rw [isFront, List.length_cons] at short
        exact Nat.le_of_succ_le short
      settled := by omega
      reached := by
        intro outgoing fragment member carried
        rcases books.reached member carried with
          earlier | ⟨other, isHead, sameMessage, _⟩
        · exact Or.inl (by omega)
        · rw [isFront] at isHead
          cases isHead
          exact Or.inl (by rw [sameMessage]; omega)
      waiting := by
        intro other member
        apply books.waiting
        rw [isFront]
        exact List.mem_of_mem_tail member
      front := by
        -- What stood second has sent nothing yet.
        intro other isHead
        have untouched : other.origin = other := by
          apply books.waiting
          rw [isFront]
          exact List.mem_of_mem_head? isHead
        rw [← untouched]
        exact Front.untouched (by omega) }

/-- A message that is done has sent something. -/
theorem begun_of_done (isFront : outbox.queue = job :: rest)
    (isDone : (job.retainPending outbox.pending).done = true) :
    0 < job.next := by
  obtain ⟨_, _, _, needed⟩ := books.frontMessage isFront
  have front := books.front (by rw [isFront]; rfl)
  simp only [Queued.done, Bool.or_eq_true, Bool.and_eq_true, beq_iff_eq] at isDone
  rcases isDone with isLost | ⟨sentAll, _⟩
  · exact front.begun (Or.inl isLost)
  have sentAll : job.next = job.count := sentAll
  obtain ⟨cutting, _, _, _, sameCount⟩ := Cutting.of_fragmentsNeeded needed
  have positive := cutting.positive
  omega

/-- Settling strikes off what is acknowledged, or settles the message. -/
theorem settle (looked : outbox.abandoned = []) :
    (∃ done', Books codec messages done' accepted outbox.settle.2 wire) ∧
      (outbox.settle.1 = some ⟨true⟩ → ∀ {job : Queued} {index : Nat},
          outbox.queue.head? = some job →
          index < job.count →
          ∃ id, (id, ⟨job.message, index, job.count⟩) ∈ accepted) := by
  unfold Outbox.settle
  split
  · next isEmpty => exact ⟨⟨done, books⟩, fun finished => nomatch finished⟩
  next job rest isFront =>
  have front := books.front (by rw [isFront]; rfl)
  dsimp only
  split
  · next isDone =>
      refine ⟨⟨_, books.popped isFront (books.begun_of_done isFront isDone)⟩, ?_⟩
      intro finished other index isHead low
      rw [isFront] at isHead
      cases isHead
      simp only [Option.some.injEq, Finished.mk.injEq, Bool.not_eq_true'] at finished
      simp only [Queued.done, finished, Bool.false_or,
        Bool.and_eq_true, beq_iff_eq, List.isEmpty_iff] at isDone
      exact books.delivered looked isFront finished isDone.1 isDone.2 low
  · refine ⟨⟨done, books.ofFront isFront rfl rfl rfl rfl rfl rfl ?_⟩,
      fun finished => nomatch finished⟩
    refine ⟨front.counted, ?_, ?_, ?_⟩
    · rintro (isLost | waits)
      · exact front.begun (Or.inl isLost)
      · obtain ⟨id, member⟩ := List.exists_mem_of_ne_nil _ waits
        exact front.begun (Or.inr (List.ne_nil_of_mem
          (Queued.mem_retainPending_outstanding.mp member).1))
    · intro index low
      obtain ⟨outgoing, isIssued, id, isId, isFragment, stands⟩ := front.covered low
      refine ⟨outgoing, isIssued, id, isId, isFragment, ?_⟩
      rcases stands with waits | settledOrLost
      · rcases front.kept waits with isPending |
          ⟨fragment, isAccepted⟩ | isAbandoned
        · exact Or.inl (Queued.mem_retainPending_outstanding.mpr ⟨waits, isPending⟩)
        · exact Or.inr (Or.inl (books.accepted_of_id isIssued isId isFragment isAccepted))
        · rw [looked] at isAbandoned
          cases isAbandoned
      · exact Or.inr settledOrLost
    · intro id member
      exact front.kept (Queued.mem_retainPending_outstanding.mp member).1

end

/-- Feeding the window keeps the books while identifiers last. -/
theorem feed_books (nowMs txLen left : Nat)
    (books : wire.fed < 2 ^ 31 → Books suite.codec messages done accepted outbox wire)
    (looked : outbox.abandoned = []) (isFront : outbox.queue.head? = some job) :
    ((Outbox.feed (Wire.issue suite txLen) nowMs left outbox wire).2.2.fed < 2 ^ 31 →
        Books suite.codec messages done accepted
          (Outbox.feed (Wire.issue suite txLen) nowMs left outbox wire).2.1
          (Outbox.feed (Wire.issue suite txLen) nowMs left outbox wire).2.2) ∧
      (Outbox.feed (Wire.issue suite txLen) nowMs left outbox wire).2.1.abandoned = [] ∧
      ∃ last, (Outbox.feed (Wire.issue suite txLen) nowMs left outbox
            wire).2.1.queue.head? = some last ∧
          last.message = job.message ∧
          last.count = job.count := by
  apply Outbox.feed_invariant (fun outbox wire =>
      (wire.fed < 2 ^ 31 → Books suite.codec messages done accepted outbox wire) ∧
        outbox.abandoned = [] ∧
        ∃ last, outbox.queue.head? = some last ∧ last.message = job.message ∧
            last.count = job.count)
  · rintro outbox wire front rest id retransmit error wire' isFront _ _
      registered failed ⟨books, looked, last⟩
    obtain ⟨fed, issued, network⟩ := Wire.issue_error failed
    obtain ⟨_, _, _, _, nextId, _⟩ := RetransmitQueue.register_ok registered
    refine ⟨?_, looked, last⟩
    intro few
    exact (books (by omega)).refused few fed issued network nextId
  · rintro outbox wire front rest id retransmit wire' isFront _ ready
      registered left ⟨books, looked, last, isLast, sameMessage, sameCount⟩
    obtain ⟨fed, issued, transmission, network, carried, carries⟩ := Wire.issue_ok left
    obtain ⟨isNext, _, _, _, nextId, _⟩ := RetransmitQueue.register_ok registered
    subst isNext
    rw [isFront] at isLast
    cases isLast
    refine ⟨?_, looked, _, rfl, sameMessage, sameCount⟩
    intro few
    exact (books (by omega)).sent isFront ready few fed issued network carried carries nextId
  · exact ⟨books, looked, job, isFront, rfl, rfl⟩

/--
A pass over the queue keeps the books, and a message it reports delivered
has arrived whole.
-/
theorem driveQueue
    (books : Books suite.codec messages done accepted outbox wire) (nowMs txLen : Nat)
    (few : (outbox.driveQueue (Wire.issue suite txLen) nowMs wire).2.2.fed < 2 ^ 31) :
    (∃ done', Books suite.codec messages done' accepted
          (outbox.driveQueue (Wire.issue suite txLen) nowMs wire).2.1
          (outbox.driveQueue (Wire.issue suite txLen) nowMs wire).2.2) ∧
      ((outbox.driveQueue (Wire.issue suite txLen) nowMs wire).1 = .ok (some ⟨true⟩) →
        ∀ {job : Queued} {index : Nat},
          outbox.queue.head? = some job →
          index < job.count →
          ∃ id, (id, ⟨job.message, index, job.count⟩) ∈ accepted) := by
  cases isFront : outbox.queue with
  | nil =>
    simp only [Outbox.driveQueue, isFront]
    refine ⟨⟨done, books.ofOutbox isFront.symm rfl rfl
      (List.Subset.refl _) ?_⟩, fun finished => nomatch finished⟩
    intro job id isHead
    rw [isFront] at isHead
    cases isHead
  | cons job rest =>
    simp only [Outbox.driveQueue, isFront] at few ⊢
    have fedInvariant := feed_books nowMs txLen
      ((job.markLost outbox.abandoned).count - (job.markLost outbox.abandoned).next)
      (fun _ => books.markLost isFront) rfl rfl
    generalize Outbox.feed (Wire.issue suite txLen) nowMs _ _ wire = outcome at few fedInvariant ⊢
    obtain ⟨result, after, wire'⟩ := outcome
    obtain ⟨stillBooks, looked, last, isLast, sameMessage, sameCount⟩ := fedInvariant
    cases result with
    | error error => exact ⟨⟨done, stillBooks few⟩, fun finished => nomatch finished⟩
    | ok _ =>
      obtain ⟨settled, whole⟩ := (stillBooks few).settle looked
      refine ⟨settled, ?_⟩
      intro finished other index isHead low
      cases isHead
      simp only [Except.ok.injEq] at finished
      rw [Queued.markLost_message] at sameMessage
      rw [Queued.markLost_count] at sameCount
      rw [← sameMessage, ← sameCount]
      exact whole finished isLast (by omega)

/-- A pass over the retransmissions due keeps the books. -/
theorem driveRetransmits
    (books : Books suite.codec messages done accepted outbox wire) (nowMs txLen : Nat) :
    Books suite.codec messages done accepted
      (outbox.driveRetransmits (Wire.transmit suite txLen) nowMs wire).2.1
      (outbox.driveRetransmits (Wire.transmit suite txLen) nowMs wire).2.2 := by
  apply Outbox.resend_invariant (Books suite.codec messages done accepted)
  · intro outbox wire pending isPending books
    exact books.transmit txLen isPending
  · intro outbox wire id books
    exact books.giveUp id
  · exact books.ofOutbox rfl rfl (RetransmitQueue.poll_nextId ..)
      (List.Subset.refl _) fun isFront => (books.front isFront).kept

/-- A message joins the queue with nothing of it sent. -/
theorem queued
    (books : Books codec messages done accepted outbox wire) (untouched : job.origin = job)
    (isNext : job.message = serial 32 messages.length)
    (needed : fragmentsNeeded job.data.length job.perFragment = some job.count)
    (room : outbox.queue.length < maxQueued) :
    Books codec (messages ++ [job]) done accepted
      { outbox with
        nextMessage := outbox.nextMessage + 1
        queue := outbox.queue ++ [job] }
      wire where
  __ := books
  nextMessage := by
    rw [List.length_append, List.length_singleton, serial_succ, ← books.nextMessage]
  layout := by
    rw [books.layout]
    simp [untouched]
  short := by
    rw [List.length_append, List.length_singleton]
    exact room
  cut := by
    intro position other place
    rcases Nat.lt_or_ge position messages.length with earlier | later
    · rw [List.getElem?_append_left earlier] at place
      exact books.cut place
    rw [List.getElem?_append_right later,
      List.getElem?_singleton] at place
    split at place
    · next isLast =>
        cases place
        have isLength : position = messages.length := by omega
        exact ⟨isLength ▸ isNext, needed⟩
    · cases place
  pieces := by
    intro outgoing member
    obtain ⟨fragment, piece⟩ := books.pieces member
    exact ⟨fragment, piece.append _⟩
  reached := by
    intro outgoing fragment member carried
    rcases books.reached member carried with earlier | ⟨front, isHead, rest⟩
    · exact Or.inl earlier
    · exact Or.inr ⟨front, by rw [List.head?_append, isHead]; rfl, rest⟩
  waiting := by
    intro other member
    cases isFront : outbox.queue with
    | nil => simp [isFront] at member
    | cons front rest =>
      rw [isFront] at member
      rcases List.mem_append.mp member with older | isNew
      · apply books.waiting
        rw [isFront]
        exact older
      · rw [List.mem_singleton.mp isNew]
        exact untouched
  front := by
    intro other isHead
    rw [List.head?_append] at isHead
    cases isFront : outbox.queue.head? with
    | some front =>
      rw [isFront] at isHead
      cases isHead
      obtain ⟨counted, begun, covered, kept⟩ := books.front isFront
      exact ⟨counted, begun, covered, kept⟩
    | none =>
      rw [isFront] at isHead
      cases isHead
      rw [← untouched]
      exact Front.untouched books.settled

/-- A message that is queued waits behind those already there. -/
theorem queueMessage
    {sender : Peer} (books : Books codec messages done accepted sender.toOutbox wire)
    (data : Bytes) (payloadType : PayloadType) (limit : Nat) :
    Books codec
      (messages ++ (sender.queueMessage data payloadType limit).2.queue.drop sender.queue.length)
      done accepted
      (sender.queueMessage data payloadType limit).2.toOutbox wire := by
  unfold Peer.queueMessage
  split
  · simpa using books
  split
  · simpa using books
  next room =>
  dsimp only
  split
  · simpa using books
  next count needed =>
  rw [List.drop_left]
  exact books.queued rfl books.nextMessage needed (Nat.lt_of_not_le room)

/-- A fragment the receiver accepts was issued. -/
theorem accept (books : Books codec messages done accepted outbox wire) {id : MessageId}
    {fragment : Fragment} (isIssued : outgoing ∈ wire.issued) (isId : outgoing.messageId = some id)
    (isFragment : outgoing.fragment = some fragment) :
    Books codec messages done ((id, fragment) :: accepted) outbox wire :=
  { books with
    front := by
      intro job isFront
      have front := books.front isFront
      refine ⟨front.counted, front.begun, ?_, ?_⟩
      · intro index low
        obtain ⟨issued, member, other, isOther, same, stands⟩ := front.covered low
        refine ⟨issued, member, other, isOther, same, ?_⟩
        exact stands.imp_right (Or.imp_left (List.mem_cons_of_mem _))
      · intro other member
        refine (front.kept member).imp_right (Or.imp_left ?_)
        rintro ⟨known, isAccepted⟩
        exact ⟨known, List.mem_cons_of_mem _ isAccepted⟩
    known := by
      intro other known member
      rcases List.mem_cons.mp member with isNew | older
      · cases isNew
        exact ⟨outgoing, isIssued, isId, isFragment⟩
      · exact books.known older }

end Books

end SplitMessages

end Fectp
