import Fectp.ReassemblyTrace
import Fectp.SessionChannel
import Fectp.SplitSender
import Mathlib.Data.List.Nodup

namespace Fectp

open SerialNumber

/-!
# Split messages arrive whole and once

The receiving half of the accounts: what the receiver has accepted, what its
acknowledgements cover, and what its half-assembled messages hold.  With the
sender's books this is an invariant of every run, and the three properties of
a split message follow from it.
-/

variable {transmission : Transmission} {receiver : Peer} {id : MessageId} {fragment : Fragment}
    {outgoing : Outgoing} {result : Except Error Ingested}

namespace SplitMessages

/-- The message queued under an identifier, cut as it was sent. -/
def cutOf (messages : List Queued) (message : BitVec 32) : Option Cutting :=
  messages[message.toNat]?.bind fun job =>
    Cutting.of job.data job.perFragment job.count

/-- A fragment of a message was accepted as new. -/
def Came
    (accepted : List (MessageId × Fragment))
    (message : BitVec 32)
    (index : Nat) : Prop :=
  ∃ id count, (id, ⟨message, index, count⟩) ∈ accepted

/-- The positions of the identifiers accepted. -/
def Seen
    (accepted : List (MessageId × Fragment))
    (position : Nat) : Prop :=
  ∃ id fragment, (id, fragment) ∈ accepted ∧ id.toNat = position

/-- Where the receiver stands. -/
structure Receiving (system : System) : Prop where
  tracks : system.receiver.dedup.Tracks (Seen system.accepted)
  acks : ∀ {ack : Ack} {id : MessageId},
      ack ∈ system.acks →
      id.toNat < 2 ^ 31 →
      ack.covers id = true →
      ∃ fragment, (id, fragment) ∈ system.accepted
  sound : system.receiver.reassembly.Sound (cutOf system.messages)
      (Came system.accepted)
  returned : ∀ {message : BitVec 32} {whole : Bytes},
      (message, whole) ∈ system.returned →
      ∃ job,
        system.messages[message.toNat]? = some job ∧
          job.data = whole ∧
          ∀ index,
            index < job.count →
            Came system.accepted message index
  once : (system.returned.map Prod.fst).Nodup

/-- What every run keeps. -/
structure Invariant (codec : Codec) (system : System) : Prop where
  books : ∃ done,
      Books codec system.messages done system.accepted
        system.sender.toOutbox system.wire
  receiving : Receiving system

/-! ### One frame at the receiver -/

/-- A payload comes out of a genuine frame as it went in. -/
theorem deliver_carried {codec : Codec} (roundTrips : codec.RoundTrips) (carries : Wire.Carries codec transmission) {flags : UInt8}
    (sameFlags : flags &&& flagCompressed = transmission.parts.flags &&& flagCompressed) :
    Peer.deliver codec transmission.parts.payload (flags &&& flagCompressed != 0) =
      .ok transmission.outgoing.data := by
  rw [sameFlags]
  rcases carries.payload with ⟨isCoded, caps, coded⟩ | ⟨isPlain, same⟩
  · rw [isCoded]
    exact roundTrips _ _ _ _ coded
  · rw [isPlain, same]
    rfl

/-- What a genuine data frame does to the receiver. -/
inductive Arrival
    (receiver : Peer)
    (id : MessageId)
    (fragment : Fragment)
    (piece : Bytes)
    (result : Except Error Ingested)
    (reply : Bytes)
    (after : Peer) :
    Option (MessageId × Fragment) → Prop where
  /-- The frame did not open. -/
  | unopened
      (noReply : reply = [])
      (noMessage : ∀ whole, result ≠ .ok (.message whole))
      (sameDedup : after.dedup = receiver.dedup)
      (sameReassembly : after.reassembly = receiver.reassembly) :
      Arrival receiver id fragment piece result reply after none
  /-- Its identifier was not new. -/
  | repeated
      (old : (receiver.dedup.accept id).1 = false)
      (noMessage : ∀ whole, result ≠ .ok (.message whole))
      (nextDedup : after.dedup = (receiver.dedup.accept id).2)
      (sameReassembly : after.reassembly = receiver.reassembly) :
      Arrival receiver id fragment piece result reply after none
  /-- It was new, but no acknowledgement could be sealed. -/
  | unanswered
      (isNew : (receiver.dedup.accept id).1 = true)
      (noMessage : ∀ whole, result ≠ .ok (.message whole))
      (nextDedup : after.dedup = (receiver.dedup.accept id).2)
      (sameReassembly : after.reassembly = receiver.reassembly) :
      Arrival receiver id fragment piece result reply after
        (some (id, fragment))
  /-- It was new and went to reassembly. -/
  | reassembled
      (isNew : (receiver.dedup.accept id).1 = true)
      (completes : ∀ whole,
          result = .ok (.message whole) ↔
            (receiver.reassembly.accept fragment piece).1 = .ok (some whole))
      (nextDedup : after.dedup = (receiver.dedup.accept id).2)
      (nextReassembly : after.reassembly =
          (receiver.reassembly.accept fragment piece).2) :
      Arrival receiver id fragment piece result reply after
        (some (id, fragment))

/-- A genuine data frame is one of the four. -/
theorem arrival_of_genuine {suite : Suite} (roundTrips : suite.codec.RoundTrips) (carries : Wire.Carries suite.codec transmission)
    (genuine : System.Genuine suite receiver transmission) (isId : transmission.outgoing.messageId = some id)
    (isFragment : transmission.outgoing.fragment = some fragment) (nowMs ackLen : Nat) :
    Arrival receiver id fragment transmission.outgoing.data
      (receiver.ingest suite transmission.frame nowMs ackLen).1
      (receiver.ingest suite transmission.frame nowMs ackLen).2.1
      (receiver.ingest suite transmission.frame nowMs ackLen).2.2.2
      (System.newFragment suite receiver transmission.frame) := by
  unfold System.Genuine at genuine
  unfold System.newFragment Peer.ingest
  generalize receiver.session.openFrame suite.aead transmission.frame = outcome at genuine ⊢
  obtain ⟨result, buffer, session⟩ := outcome
  cases result with
  | error error => exact .unopened rfl (fun whole same => nomatch same) rfl rfl
  | ok opened =>
    obtain ⟨sameType, sameFlags, sameId, sameFragment, samePayload⟩ := genuine opened rfl
    have isData : opened.header.frameType = .data := sameType.trans carries.isData
    have hasId : opened.messageId = some id := by
      rw [sameId, carries.sameId, isId]
    have hasFragment : opened.fragment = some fragment := by
      rw [sameFragment, carries.sameFragment (by rw [isId]; rfl), isFragment]
    have delivered := deliver_carried roundTrips carries sameFlags
    simp only [Peer.ingestOpened, isData, hasId, hasFragment, samePayload]
    generalize (receiver.dedup.accept id).2.toAck = ack
    generalize session.sealAck suite.aead ack ackLen = acknowledged
    obtain ⟨reply, session'⟩ := acknowledged
    cases isNew : (receiver.dedup.accept id).1 with
    | false =>
      cases reply with
      | error error => exact .repeated isNew (fun whole same => nomatch same) rfl rfl
      | ok reply => exact .repeated isNew (fun whole same => nomatch same) rfl rfl
    | true =>
      cases reply with
      | error error => exact .unanswered isNew (fun whole same => nomatch same) rfl rfl
      | ok reply =>
        simp only [Peer.ingestNew, hasFragment, delivered]
        rcases accepted :
            receiver.reassembly.accept fragment transmission.outgoing.data with
          ⟨error | whole | whole, reassembly⟩
        all_goals
          exact .reassembled isNew (by simp [accepted]) rfl (by rw [accepted]; rfl)

namespace Books

variable {codec : Codec}
  {messages done : List Queued}
  {accepted : List (MessageId × Fragment)}
  {outbox : Outbox}
  {wire : Wire}

section

variable (books : Books codec messages done accepted outbox wire)

include books

/-- An identifier accepted is one already handed out. -/
theorem seen_lt {position : Nat} (seen : Seen accepted position) :
    position < wire.fed := by
  obtain ⟨id, fragment, isAccepted, rfl⟩ := seen
  obtain ⟨outgoing, isIssued, isId, _⟩ := books.known isAccepted
  obtain ⟨number, earlier, isNumbered⟩ := books.numbered isIssued
  have few := books.few
  rw [isId] at isNumbered
  rw [Option.some.inj isNumbered, toNat_serial (by omega)]
  exact earlier

/-- A position issued can be told from every one accepted. -/
theorem comparable {position other : Nat} (small : position < 2 ^ 31) (seen : Seen accepted other) :
    Comparable position other := by
  have low := books.seen_lt seen
  have few := books.few
  constructor <;> omega

/-- An acknowledgement covers what was accepted. -/
theorem ack_sound {dedup : DedupWindow} (tracks : dedup.Tracks (Seen accepted))
    (started : ∃ first, Seen accepted first)
    (small : id.toNat < 2 ^ 31) (covered : dedup.toAck.covers id = true) :
    ∃ fragment, (id, fragment) ∈ accepted := by
  obtain ⟨first, isSeen⟩ := started
  have isSerial : serial 32 id.toNat = id := by
    simp [serial]
  rw [← isSerial] at covered
  obtain ⟨other, fragment, isAccepted, same⟩ :=
    tracks.seen_of_covers isSeen (books.comparable small) covered
  rw [BitVec.eq_of_toNat_eq same] at isAccepted
  exact ⟨fragment, isAccepted⟩

/-- What an issued fragment is a piece of. -/
theorem cutting (isIssued : outgoing ∈ wire.issued)
    (isFragment : outgoing.fragment = some fragment) :
    ∃ job cutting, messages[fragment.message.toNat]? = some job ∧
        cutOf messages fragment.message = some cutting ∧
        cutting.data = job.data ∧
        cutting.count = job.count ∧
        fragment.count = job.count ∧
        fragment.index < cutting.count ∧
        outgoing.data = cutting.piece fragment.index := by
  obtain ⟨other, carried, job, isQueued, sameCount, inside, isPiece⟩ := books.pieces isIssued
  rw [isFragment] at carried
  cases carried
  obtain ⟨cutting, isCut, sameData, sameSize, cutCount⟩ :=
    Cutting.of_fragmentsNeeded (books.cut isQueued).2
  refine ⟨job, cutting, isQueued, ?_, sameData, cutCount, sameCount, by omega, ?_⟩
  · rw [cutOf, isQueued]
    exact isCut
  · rw [isPiece, Cutting.piece, sameData, sameSize]

/-- A fragment that has come was accepted under its own identifier. -/
theorem accepted_of_came
    (isIssued : outgoing ∈ wire.issued) (isId : outgoing.messageId = some id)
    (isFragment : outgoing.fragment = some fragment)
    (came : Came accepted fragment.message fragment.index) :
    (id, fragment) ∈ accepted := by
  obtain ⟨other, count, isAccepted⟩ := came
  obtain ⟨known, knownIssued, knownId, knownFragment⟩ := books.known isAccepted
  obtain ⟨job, _, isQueued, _, _, _, sameCount, _⟩ := books.cutting isIssued isFragment
  obtain ⟨job', _, isQueued', _, _, _, sameCount', _⟩ := books.cutting knownIssued knownFragment
  -- Both descriptors count the fragments of the one message.
  rw [isQueued] at isQueued'
  cases isQueued'
  have same : (⟨fragment.message, fragment.index, count⟩ : Fragment) =
      fragment := by
    rw [← sameCount] at sameCount'
    exact congrArg (Fragment.mk fragment.message fragment.index) sameCount'
  rw [same] at isAccepted knownFragment
  have isKnown : known = outgoing :=
    books.onceByFragment knownIssued isIssued (knownFragment.trans isFragment.symm)
  rw [isKnown, isId] at knownId
  cases knownId
  exact isAccepted

end

end Books

/-! ### What one step keeps -/

namespace Invariant

variable {codec : Codec} {system : System}

/-- A frame that brings nothing new. -/
theorem record_old (invariant : Invariant codec system)
    {reply : Bytes} (noMessage : ∀ whole, result ≠ .ok (.message whole))
    (sameDedup : receiver.dedup = system.receiver.dedup)
    (sameReassembly : receiver.reassembly = system.receiver.reassembly)
    (answered : reply = [] ∨ ∃ first, Seen system.accepted first) :
    Invariant codec (system.record result reply receiver none) := by
  obtain ⟨done, books⟩ := invariant.books
  obtain ⟨tracks, acks, sound, returned, once⟩ := invariant.receiving
  have sameReturned : (system.record result reply receiver none).returned =
        system.returned := by
    unfold System.record
    dsimp only
    split
    · next whole => exact (noMessage whole rfl).elim
    · rfl
  refine ⟨⟨done, books⟩, ?_, ?_, ?_, ?_, ?_⟩
  · rw [← sameDedup] at tracks
    exact tracks
  · intro ack id member small covered
    unfold System.record at member
    split at member
    · exact acks member small covered
    next hasReply =>
    rcases List.mem_cons.mp member with rfl | older
    · rcases answered with noReply | started
      · rw [noReply] at hasReply
        exact (hasReply rfl).elim
      · rw [sameDedup] at covered
        exact books.ack_sound tracks started small covered
    · exact acks older small covered
  · rw [← sameReassembly] at sound
    exact sound
  · rw [sameReturned]
    exact returned
  · rw [sameReturned]
    exact once

/-- A frame that brings a new fragment, and perhaps completes a message. -/
theorem record_new (invariant : Invariant codec system)
    {reply : Bytes} (isIssued : outgoing ∈ system.issued)
    (isId : outgoing.messageId = some id) (isFragment : outgoing.fragment = some fragment)
    (unseen : ¬ Seen system.accepted id.toNat)
    (tracks : receiver.dedup.Tracks (fun other => Seen system.accepted other ∨ other = id.toNat))
    (sound : receiver.reassembly.Sound (cutOf system.messages)
        (Came ((id, fragment) :: system.accepted)))
    (completes : ∀ {whole : Bytes},
        result = .ok (.message whole) →
        ∃ job, system.messages[fragment.message.toNat]? = some job ∧ job.data = whole ∧
            ∀ index, index < job.count →
              Came ((id, fragment) :: system.accepted) fragment.message index) :
    Invariant codec (system.record result reply receiver (some (id, fragment))) := by
  obtain ⟨done, books⟩ := invariant.books
  obtain ⟨_, acks, _, returned, once⟩ := invariant.receiving
  have books' := books.accept isIssued isId isFragment
  have tracks' : receiver.dedup.Tracks (Seen ((id, fragment) :: system.accepted)) := by
    have same : (fun other => Seen system.accepted other ∨ other = id.toNat) =
          Seen ((id, fragment) :: system.accepted) := by
      funext other
      simp only [Seen, List.mem_cons, Prod.mk.injEq, eq_iff_iff]
      constructor
      · rintro (⟨known, carried, member, isOther⟩ | isNew)
        · exact ⟨known, carried, Or.inr member, isOther⟩
        · exact ⟨id, fragment, Or.inl ⟨rfl, rfl⟩, isNew.symm⟩
      · rintro ⟨known, carried, ⟨rfl, rfl⟩ | member, isOther⟩
        · exact Or.inr isOther.symm
        · exact Or.inl ⟨known, carried, member, isOther⟩
    rw [← same]
    exact tracks
  have started : ∃ first, Seen ((id, fragment) :: system.accepted) first :=
    ⟨_, id, fragment, List.mem_cons_self, rfl⟩
  have stillReturned : ∀ {message : BitVec 32} {whole : Bytes},
        (message, whole) ∈ system.returned →
        ∃ job, system.messages[message.toNat]? = some job ∧ job.data = whole ∧
            ∀ index, index < job.count →
              Came ((id, fragment) :: system.accepted) message index := by
    intro message whole member
    obtain ⟨job, isQueued, same, came⟩ := returned member
    refine ⟨job, isQueued, same, fun index low => ?_⟩
    obtain ⟨other, count, isAccepted⟩ := came index low
    exact ⟨other, count, List.mem_cons_of_mem _ isAccepted⟩
  -- A message returned before had this fragment then.
  have fresh : fragment.message ∉ system.returned.map Prod.fst := by
    intro member
    obtain ⟨⟨message, whole⟩, isReturned, isMessage⟩ := List.mem_map.mp member
    cases isMessage
    obtain ⟨job, isQueued, _, came⟩ := returned isReturned
    obtain ⟨job', _, isQueued', _, _, cutCount, _, inside, _⟩ := books.cutting isIssued isFragment
    rw [isQueued] at isQueued'
    cases isQueued'
    exact unseen ⟨id, fragment,
      books.accepted_of_came isIssued isId isFragment (came _ (by omega)), rfl⟩
  refine ⟨⟨done, books'⟩, tracks', ?_, sound, ?_, ?_⟩
  · intro ack other member small covered
    unfold System.record at member
    have older : ack ∈ system.acks →
        ∃ carried, (other, carried) ∈ (id, fragment) :: system.accepted := by
      intro isOld
      obtain ⟨carried, isAccepted⟩ := acks isOld small covered
      exact ⟨carried, List.mem_cons_of_mem _ isAccepted⟩
    split at member
    · exact older member
    · rcases List.mem_cons.mp member with rfl | isOld
      · exact books'.ack_sound tracks' started small covered
      · exact older isOld
  · intro message whole member
    unfold System.record at member
    dsimp only at member
    split at member
    · rcases List.mem_cons.mp member with isNew | isOld
      · cases isNew
        exact completes rfl
      · exact stillReturned isOld
    · exact stillReturned member
  · unfold System.record
    dsimp only
    split
    · exact List.nodup_cons.mpr ⟨fresh, once⟩
    · exact once

variable {suite : Suite}

/-- A genuine frame reaches the receiver. -/
theorem arrive (roundTrips : suite.codec.RoundTrips)
    (invariant : Invariant suite.codec system)
    (carries : Wire.Carries suite.codec transmission)
    (isIssued : transmission.outgoing ∈ system.issued)
    (genuine : System.Genuine suite system.receiver transmission) (nowMs ackLen : Nat) :
    Invariant suite.codec (system.arrive suite transmission.frame nowMs ackLen) := by
  obtain ⟨done, books⟩ := invariant.books
  obtain ⟨tracks, _, sound, _, _⟩ := invariant.receiving
  obtain ⟨number, earlier, isId⟩ := books.numbered isIssued
  obtain ⟨fragment, isFragment, _⟩ := books.pieces isIssued
  have small : number < 2 ^ 31 := Nat.lt_trans earlier books.few
  have toNat : (serial 32 number).toNat = number := Books.toNat_serial (by omega)
  obtain ⟨job, cutting, isQueued, isCut, sameData, cutCount, sameCount,
    inside, isPiece⟩ := books.cutting isIssued isFragment
  have arrival := arrival_of_genuine roundTrips carries genuine isId isFragment nowMs ackLen
  have widened : system.receiver.reassembly.Sound (cutOf system.messages)
        (Came ((serial 32 number, fragment) :: system.accepted)) := by
    refine sound.mono id ?_
    rintro message index ⟨other, count, isAccepted⟩
    exact ⟨other, count, List.mem_cons_of_mem _ isAccepted⟩
  unfold System.arrive
  generalize system.receiver.ingest suite transmission.frame nowMs ackLen = outcome at arrival ⊢
  obtain ⟨result, reply, buffer, after⟩ := outcome
  generalize System.newFragment suite system.receiver transmission.frame = brought at arrival ⊢
  have accepted := tracks.accept (books.comparable small)
  cases arrival with
  | unopened noReply noMessage sameDedup sameReassembly =>
    exact invariant.record_old noMessage sameDedup sameReassembly (Or.inl noReply)
  | repeated old noMessage nextDedup sameReassembly =>
    rcases accepted with ⟨isNew, _⟩ | ⟨refused, started⟩
    · rw [old] at isNew
      cases isNew
    · rw [refused] at nextDedup
      exact invariant.record_old noMessage nextDedup sameReassembly (Or.inr started)
  | unanswered isNew noMessage nextDedup sameReassembly =>
    rcases accepted with ⟨_, unseen, tracks'⟩ | ⟨refused, _⟩
    · rw [← nextDedup] at tracks'
      rw [← sameReassembly] at widened
      refine invariant.record_new isIssued isId isFragment
        (by rw [toNat]; exact unseen) (by rw [toNat]; exact tracks')
        widened ?_
      intro whole isMessage
      exact (noMessage whole isMessage).elim
    · rw [refused] at isNew
      cases isNew
  | reassembled isNew completes nextDedup nextReassembly =>
    rcases accepted with ⟨_, unseen, tracks'⟩ | ⟨refused, _⟩
    · rw [← nextDedup] at tracks'
      obtain ⟨sound', outcome⟩ :=
        widened.accept isCut (sameCount.trans cutCount.symm) inside
          ⟨_, fragment.count, List.mem_cons_self⟩
      rw [← isPiece] at sound' outcome
      rw [← nextReassembly] at sound'
      refine invariant.record_new isIssued isId isFragment
        (by rw [toNat]; exact unseen) (by rw [toNat]; exact tracks')
        sound' ?_
      intro whole isMessage
      have isWhole := (completes whole).mp isMessage
      rcases outcome with ⟨finished, came⟩ | unfinished
      · rw [isWhole] at finished
        cases finished
        exact ⟨job, isQueued, sameData.symm, fun index low => came index (by omega)⟩
      · rw [isWhole] at unfinished
        cases unfinished
    · rw [refused] at isNew
      cases isNew

/-- Frames may be lost. -/
theorem ofNetwork (invariant : Invariant codec system) {network : List Transmission}
    (fewer : network ⊆ system.network) :
    Invariant codec { system with network := network } := by
  obtain ⟨⟨done, books⟩, receiving⟩ := invariant
  refine ⟨⟨done, books.ofNetwork rfl rfl ?_⟩, ?_⟩
  · intro transmission member
    exact books.network (fewer member)
  · exact ⟨receiving.tracks, receiving.acks, receiving.sound, receiving.returned, receiving.once⟩

/-- A message joins the queue. -/
theorem queueMessage
    (invariant : Invariant codec system) (data : Bytes) (payloadType : PayloadType) (limit : Nat) :
    Invariant codec
      { system with
        sender := (system.sender.queueMessage data payloadType limit).2
        messages :=
          system.messages ++ (system.sender.queueMessage data payloadType
              limit).2.queue.drop system.sender.queue.length } := by
  obtain ⟨⟨done, books⟩, receiving⟩ := invariant
  have queued := books.queueMessage data payloadType limit
  refine ⟨⟨done, queued.ofNetwork rfl rfl queued.network⟩,
    receiving.tracks, receiving.acks, ?_, ?_, receiving.once⟩
  · refine receiving.sound.mono ?_ id
    intro message cutting isCut
    obtain ⟨job, isQueued, isOf⟩ := Option.bind_eq_some_iff.mp isCut
    rw [cutOf, List.getElem?_append_left (List.getElem?_eq_some_iff.mp isQueued).1, isQueued]
    exact isOf
  · intro message whole member
    obtain ⟨job, isQueued, rest⟩ := receiving.returned member
    refine ⟨job, ?_, rest⟩
    rw [List.getElem?_append_left (List.getElem?_eq_some_iff.mp isQueued).1]
    exact isQueued

/-- Every allowed step keeps the accounts of both sides. -/
theorem step (roundTrips : suite.codec.RoundTrips) {event : Event}
    (allowed : System.Allowed suite system event) (invariant : Invariant suite.codec system) :
    Invariant suite.codec (system.step suite event) := by
  obtain ⟨few, genuine⟩ := allowed
  cases event with
  | queue data payloadType limit => exact invariant.queueMessage data payloadType limit
  | driveQueue nowMs txLen =>
    obtain ⟨⟨done, books⟩, receiving⟩ := invariant
    obtain ⟨driven, _⟩ := books.driveQueue nowMs txLen few
    exact ⟨driven, receiving.tracks, receiving.acks, receiving.sound,
      receiving.returned, receiving.once⟩
  | driveRetransmits nowMs txLen =>
    obtain ⟨⟨done, books⟩, receiving⟩ := invariant
    exact ⟨⟨done, books.driveRetransmits nowMs txLen⟩,
      receiving.tracks, receiving.acks, receiving.sound,
      receiving.returned, receiving.once⟩
  | lose index => exact invariant.ofNetwork List.eraseIdx_subset
  | deliver index nowMs ackLen =>
    simp only [System.step]
    cases found : system.network[index]? with
    | none => exact invariant
    | some transmission =>
      obtain ⟨done, books⟩ := invariant.books
      obtain ⟨isIssued, carries⟩ := books.network (List.mem_of_getElem? found)
      exact (invariant.ofNetwork List.eraseIdx_subset).arrive roundTrips carries isIssued
        (genuine transmission found) nowMs ackLen
  | applyAck index nowMs =>
    simp only [System.step]
    cases found : system.acks[index]? with
    | none => exact invariant
    | some ack =>
      obtain ⟨⟨done, books⟩, receiving⟩ := invariant
      refine ⟨⟨done, books.applyAck ?_ nowMs⟩, receiving.tracks,
        receiving.acks, receiving.sound, receiving.returned,
        receiving.once⟩
      intro id small covered
      exact receiving.acks (List.mem_of_getElem? found) small covered

/-- Nothing has happened yet. -/
theorem initial (codec : Codec) (senderSession receiverSession : Session) :
    Invariant codec (System.initial senderSession receiverSession) where
  books :=
    ⟨[],
      { few := Nat.two_pow_pos 31
        nextId := rfl
        nextMessage := rfl
        layout := rfl
        short := Nat.zero_le _
        cut := fun place => nomatch place
        settled := Nat.le_refl _
        numbered := fun member => nomatch member
        pieces := fun member => nomatch member
        onceById := fun member => nomatch member
        onceByFragment := fun member => nomatch member
        reached := fun member => nomatch member
        pending := fun member => nomatch member
        network := fun member => nomatch member
        waiting := fun member => nomatch member
        front := fun isFront => nomatch isFront
        known := fun member => nomatch member }⟩
  receiving :=
    { tracks := by
        refine Or.inl ⟨rfl, ?_⟩
        rintro position ⟨id, fragment, member, _⟩
        cases member
      acks := fun member => nomatch member
      sound := fun assembling member => nomatch member
      returned := fun member => nomatch member
      once := List.nodup_nil }

/-- Message identifiers do not wrap in so short a run. -/
theorem messages_distinct (invariant : Invariant codec system) :
    (system.messages.map Queued.message).Nodup := by
  obtain ⟨done, books⟩ := invariant.books
  have length : system.messages.length < 2 ^ 32 := by
    have few := books.few
    have settled := books.settled
    have short : system.sender.queue.length ≤ 4 := books.short
    rw [books.layout, List.length_append, List.length_map]
    omega
  rw [List.nodup_iff_getElem?_ne_getElem?]
  intro first second before inRange same
  rw [List.length_map] at inRange
  have firstRange : first < system.messages.length := Nat.lt_trans before inRange
  rw [List.getElem?_map, List.getElem?_map, List.getElem?_eq_getElem firstRange,
    List.getElem?_eq_getElem inRange] at same
  have firstNumber := (books.cut (List.getElem?_eq_getElem firstRange)).1
  have secondNumber := (books.cut (List.getElem?_eq_getElem inRange)).1
  simp only [Option.map_some, firstNumber, secondNumber, Option.some.injEq] at same
  have equal := (SerialNumber.serial_inj (w := 32) (by omega) (by omega)).mp same
  omega

/-- A message reported delivered has arrived. -/
theorem correct {event : Event} (allowed : System.Allowed suite system event)
    (invariant : Invariant suite.codec system) :
    system.Correct suite event := by
  cases event with
  | driveQueue nowMs txLen =>
    obtain ⟨done, books⟩ := invariant.books
    intro job isFront finished index low
    rw [System.driveQueue_step] at finished
    exact (books.driveQueue nowMs txLen allowed.1).2 finished isFront low
  | _ => trivial

end Invariant

namespace System

/--
Split messages, end to end.  In every run from two fresh peers that hands
fewer than `2 ^ 31` fragments to the window, over a network that loses,
reorders and delays at will: what the receiver returns is what was queued,
each queued message is returned at most once, and a message is reported
delivered only when the receiver has accepted every fragment of it as new.
-/
theorem split_messages_correct
    (suite : Suite)
    (roundTrips : suite.codec.RoundTrips)
    (senderSession receiverSession : Session)
    (events : List Event)
    (admitted :
      Execution.Admits (step suite) (Allowed suite)
        (initial senderSession receiverSession) events) :
    let final :=
      Execution.run (step suite) (initial senderSession receiverSession) events
    Execution.Admits (step suite) (Correct suite)
        (initial senderSession receiverSession) events ∧
      (∀ message whole,
        (message, whole) ∈ final.returned →
        ∃ job ∈ final.messages, job.message = message ∧ job.data = whole) ∧
      (final.returned.map Prod.fst).Nodup ∧
      (final.messages.map Queued.message).Nodup := by
  have start := Invariant.initial suite.codec senderSession receiverSession
  have invariant :=
    Execution.invariant_of_admits (Invariant.step roundTrips) admitted start
  intro final
  change Invariant suite.codec final at invariant
  clear_value final
  refine ⟨?_, ?_, invariant.receiving.once, invariant.messages_distinct⟩
  · refine Execution.admits_of_invariant (Invariant.step roundTrips) ?_
      admitted start
    intro state event allowed invariant
    exact invariant.correct allowed
  · intro message whole member
    obtain ⟨done, books⟩ := invariant.books
    obtain ⟨job, isQueued, same, _⟩ := invariant.receiving.returned member
    refine ⟨job, List.mem_of_getElem? isQueued, ?_, same⟩
    rw [(books.cut isQueued).1]
    simp [serial]

/-- Codes whatever is longer than a byte, back to front. -/
def mirrorCodec : Codec where
  encodePayload := fun data _ _ =>
    if 1 < data.length then some data.reverse else none
  originalLen := fun coded => .ok coded.length
  decodePayload := fun coded => .ok coded.reverse

theorem mirrorCodec_roundTrips : mirrorCodec.RoundTrips := by
  intro data payloadType caps coded paid
  unfold mirrorCodec at paid ⊢
  dsimp only at paid ⊢
  split at paid
  · cases paid
    rw [List.reverse_reverse]
  · cases paid

def smallSuite : Suite where
  aead := SessionChannel.System.checksumAead
  codec := mirrorCodec

/-- A handshake whose sides both offer reliable delivery. -/
def smallPair : SessionChannel.System :=
  .initial
    { SessionChannel.System.smallHandshake with
      aliceCaps := ⟨capReliable, 1200, 0⟩
      bobCaps := ⟨capReliable, 1200, 0⟩ }

/--
Two messages, cut for different limits.  The first loses a fragment and has
it resent; its fragments arrive last to first.
-/
def smallTransfer : List Event :=
  [.queue [1, 2, 3, 4, 5] .opaqueBytes 44,
    .queue [6, 7] .opaqueBytes 43,
    .driveQueue 0 100,
    .lose 1,
    .deliver 0 10 100,
    .deliver 0 11 100,
    .applyAck 0 20,
    .driveRetransmits 2000 100,
    .deliver 0 2010 100,
    .applyAck 0 2020,
    .driveQueue 2030 100,
    .driveQueue 2031 100,
    .deliver 1 2040 100,
    .deliver 0 2041 100]

theorem split_messages_correct_of_small_transfer :
    Execution.Admits (step smallSuite) (Allowed smallSuite)
        (initial smallPair.alice smallPair.bob) smallTransfer ∧
      (∀ message whole,
        (message, whole) ∈
            (Execution.run (step smallSuite)
              (initial smallPair.alice smallPair.bob)
              smallTransfer).returned →
        ∃ job ∈
            (Execution.run (step smallSuite)
              (initial smallPair.alice smallPair.bob)
              smallTransfer).messages,
          job.message = message ∧ job.data = whole) ∧
      (Execution.run (step smallSuite)
          (initial smallPair.alice smallPair.bob)
          smallTransfer).returned =
        [(1, [6, 7]), (0, [1, 2, 3, 4, 5])] := by
  have admitted : Execution.Admits (step smallSuite) (Allowed smallSuite)
        (initial smallPair.alice smallPair.bob) smallTransfer := by
    decide +kernel
  refine ⟨admitted, ?_, by decide +kernel⟩
  exact (split_messages_correct smallSuite mirrorCodec_roundTrips
    smallPair.alice smallPair.bob smallTransfer admitted).2.1

end System

end SplitMessages

end Fectp
