import Fectp.FailedSend
import Fectp.SessionChannel

namespace Fectp

/-!
# The room a payload is promised

What is left of a datagram once the optional parts of a frame are paid for.
The room counts the identifier and the descriptor; a padded frame also has a
length field and is rounded up, which it does not count.
-/

namespace Session

/-- The plaintext of a frame padded to a whole number of blocks. -/
def paddedLen (innerLen : Nat) : Nat :=
  (lengthFieldLen + innerLen + (padBlock - 1)) / padBlock * padBlock

/-- The plaintext of a frame, as the session pads it. -/
def plaintextLen (session : Session) (innerLen : Nat) : Nat :=
  if session.padding then paddedLen innerLen else innerLen

variable {aead : Aead} {session : Session} {parts : FrameParts}

/-- A keyed session with a number left seals whatever the buffer has room for. -/
theorem sealFramePadded_keyed
    (keyed : session.send.key.isSome = true) (fresh : session.sendSeq ≠ maxValue 64)
    {padding : Padding} {plaintextLen : Nat}
    (countable : ¬ (padding.isPadded = true ∧ parts.innerLen > maxValue 16))
    (planned : padding.plaintextLen parts.innerLen = .ok plaintextLen) (outLen : Nat) :
    ∃ send generation frame,
      send.key.isSome = true ∧ frame.length = plaintextLen + dataOverhead ∧
        let rekeyed := { session with send := send, sendGeneration := generation }
        session.sealFramePadded aead parts padding outLen =
          if outLen < frame.length then
            (.error .bufferTooSmall, rekeyed)
          else
            (.ok frame, { rekeyed with sendSeq := session.sendSeq + 1 }) := by
  obtain ⟨key, isKey⟩ := Option.isSome_iff_exists.mp keyed
  let steps := generationOf session.sendSeq - session.sendGeneration
  obtain ⟨send, rekeys, isLater⟩ := @rekeySend_chain 0 aead key session steps isKey
  generalize chain aead key _ = later at isLater
  have fits := fits_of_plaintextLen countable planned
  have isLength : (parts.frame aead later session.sessionId padding.isPadded plaintextLen
      session.sendSeq).length = plaintextLen + dataOverhead := by
    rw [FrameParts.frame, List.length_append, Header.bytes_length, aead.encrypt_length,
      FrameParts.plaintext_length fits, dataOverhead]
    omega
  refine ⟨send, session.sendGeneration + steps, _, Option.isSome_of_eq_some isLater, isLength, ?_⟩
  unfold sealFramePadded writeFrame
  rw [if_neg fresh, rekeys, isLength]
  dsimp only
  rw [if_neg countable, planned]
  dsimp only
  split
  · rfl
  · simp only [CipherState.encryptAt, isLater, FrameParts.plaintext_length fits, lt_irrefl,
      if_false]
    rfl

end Session

namespace Sealing

/-- What goes out for a payload that fits as it is: coded, if that pays. -/
def carried (codec : Codec) (sealing : Sealing) (outgoing : Outgoing) :
    Bytes :=
  let limit :=
    sealing.payloadRoom outgoing.limit outgoing.messageId.isSome
      outgoing.fragment.isSome
  ((sealing.attemptCoding codec outgoing false).1.filter
    (·.length ≤ limit)).getD outgoing.data

/-- The plaintext of the frame a payload goes out in, before padding. -/
def innerLen (codec : Codec) (sealing : Sealing) (outgoing : Outgoing) :
    Nat :=
  (if outgoing.messageId.isSome then
      messageIdLen + if outgoing.fragment.isSome then fragmentLen else 0
    else 0) +
    (sealing.carried codec outgoing).length

variable {suite : Suite} {sealing : Sealing} {outgoing : Outgoing}

/-- A payload within its room is planned as it is carried. -/
theorem planPayload_carried (suite : Suite)
    (inRoom : outgoing.data.length ≤
        sealing.payloadRoom outgoing.limit outgoing.messageId.isSome outgoing.fragment.isSome) :
    ∃ parts coding,
      sealing.planPayload suite.codec outgoing = (.ok parts, { sealing with coding := coding }) ∧
        parts.innerLen = sealing.innerLen suite.codec outgoing ∧
        (sealing.carried suite.codec outgoing).length ≤
          sealing.payloadRoom outgoing.limit outgoing.messageId.isSome
            outgoing.fragment.isSome := by
  unfold planPayload plan innerLen carried
  dsimp only
  rw [decide_eq_false (Nat.not_lt.mpr inRoom)]
  cases filtered :
      (sealing.attemptCoding suite.codec outgoing false).1.filter (·.length ≤
          sealing.payloadRoom outgoing.limit outgoing.messageId.isSome
            outgoing.fragment.isSome) with
  | none =>
    rw [if_neg (Nat.not_lt.mpr inRoom)]
    refine ⟨_, _, rfl, ?_, inRoom⟩
    unfold FrameParts.innerLen
    cases outgoing.messageId <;> simp
  | some coded =>
    refine ⟨_, _, rfl, ?_, ?_⟩
    · unfold FrameParts.innerLen
      cases outgoing.messageId <;> simp
    · exact of_decide_eq_true (Option.filter_eq_some_iff.mp filtered).2

/-- The plaintext of a payload within its room leaves room for the rest. -/
theorem innerLen_within
    (wide : dataOverhead + messageIdLen + fragmentLen ≤
        min outgoing.limit sealing.session.peerCaps.maxFrameSize)
    (inRoom : outgoing.data.length ≤
        sealing.payloadRoom outgoing.limit outgoing.messageId.isSome outgoing.fragment.isSome) :
    sealing.innerLen suite.codec outgoing + dataOverhead ≤
      min outgoing.limit sealing.session.peerCaps.maxFrameSize := by
  obtain ⟨_, _, _, _, carriedInRoom⟩ := planPayload_carried suite inRoom
  have isMax : sealing.maxPayload outgoing.limit + dataOverhead =
      min outgoing.limit sealing.session.peerCaps.maxFrameSize := by
    unfold maxPayload Session.maxPayload
    omega
  unfold payloadRoom at carriedInRoom
  unfold innerLen
  generalize outgoing.messageId.isSome = reliable at carriedInRoom ⊢
  generalize outgoing.fragment.isSome = fragmented at carriedInRoom ⊢
  cases reliable <;> cases fragmented
  all_goals
    simp only [if_true, if_false, Bool.false_eq_true] at carriedInRoom ⊢
    omega

/-- A payload within its room is sealed exactly if its plaintext leaves room. -/
theorem sealPayload_keyed
    (keyed : sealing.session.send.key.isSome = true)
    (fresh : sealing.session.sendSeq ≠ maxValue 64)
    (inRoom : outgoing.data.length ≤
        sealing.payloadRoom outgoing.limit outgoing.messageId.isSome outgoing.fragment.isSome)
    (countable : sealing.session.padding = true →
        sealing.innerLen suite.codec outgoing ≤ maxValue 16)
    (txLen : Nat) :
    ∃ send generation frame coding,
      send.key.isSome = true ∧
        frame.length =
          sealing.session.plaintextLen (sealing.innerLen suite.codec outgoing) + dataOverhead ∧
        let rekeyed := { sealing.session with send := send, sendGeneration := generation }
        sealing.sealPayload suite outgoing txLen =
          if txLen < frame.length then
            (.error (.protocol .bufferTooSmall),
              { sealing with session := rekeyed, coding := coding })
          else
            (.ok frame,
              { sealing with
                session := { rekeyed with sendSeq := sealing.session.sendSeq + 1 }
                coding := coding }) := by
  obtain ⟨parts, coding, planned, isInner, _⟩ := planPayload_carried suite inRoom
  rw [← isInner] at countable ⊢
  have isPlanned : (if sealing.session.padding then Padding.block else .none).plaintextLen
      parts.innerLen = .ok (sealing.session.plaintextLen parts.innerLen) := by
    unfold Session.plaintextLen
    split <;> rfl
  have isCountable : ¬ ((if sealing.session.padding then Padding.block else .none).isPadded = true ∧
      parts.innerLen > maxValue 16) := by
    rintro ⟨isPadded, tooLong⟩
    split at isPadded
    · next padded => exact absurd (countable padded) (Nat.not_le.mpr tooLong)
    · cases isPadded
  obtain ⟨send, generation, frame, stillKeyed, isLength, seals⟩ :=
    @Session.sealFramePadded_keyed suite.aead _ _ keyed fresh _ _ isCountable isPlanned txLen
  refine ⟨send, generation, frame, coding, stillKeyed, isLength, ?_⟩
  unfold sealPayload Session.sealFrame
  rw [planned]
  dsimp only
  rw [seals]
  by_cases tight : txLen < frame.length
  · rw [if_pos tight, if_pos tight]
  · rw [if_neg tight, if_neg tight]

end Sealing

/-! ### Messages cut for the room -/

/-- A message is cut as `queueMessage` cuts it, for a wide enough datagram. -/
structure Queued.CutFor (sealing : Sealing) (job : Queued) : Prop where
  wide :
    dataOverhead + messageIdLen + fragmentLen ≤
      min job.limit sealing.session.peerCaps.maxFrameSize
  cut : job.perFragment = sealing.maxFragmentPayload job.limit

/-- Marking what was lost leaves a message cut as it was. -/
theorem Queued.markLost_cut {job : Queued} {lost : List MessageId} :
    (job.markLost lost).limit = job.limit ∧
      (job.markLost lost).perFragment = job.perFragment := by
  unfold markLost
  split <;> exact ⟨rfl, rfl⟩

/-- What a message offers the window are its fragments. -/
theorem Queued.offered_fragments
    {nowMs left : Nat}
    {job : Queued}
    {queue : RetransmitQueue} :
    (job.offered nowMs left queue).length ≤ left ∧
      ∀ outgoing ∈ job.offered nowMs left queue,
        outgoing.limit = job.limit ∧
          outgoing.data.length ≤ job.perFragment ∧
          outgoing.messageId.isSome = true ∧
          outgoing.fragment.isSome = true := by
  induction left generalizing job queue with
  | zero =>
      exact ⟨Nat.le_refl _, List.forall_mem_nil _⟩
  | succ left inductionHypothesis =>
      unfold offered
      cases queue.register nowMs with
      | error error =>
          exact ⟨Nat.zero_le _, List.forall_mem_nil _⟩
      | ok registered =>
          have others :=
            @inductionHypothesis { job with next := job.next + 1 } registered.2
          refine ⟨Nat.succ_le_succ others.1, ?_⟩
          intro outgoing member
          rcases List.mem_cons.mp member with rfl | later
          · exact ⟨rfl, List.length_take_le .., rfl, rfl⟩
          · exact others.2 outgoing later

/-- A session that seals without padding, for so many frames more. -/
structure Session.Ready (session : Session) (caps : Capabilities) (frames : Nat) :
    Prop where
  keyed : session.send.key.isSome = true
  unpadded : session.padding = false
  sameCaps : session.peerCaps = caps
  fresh : session.sendSeq + frames ≤ maxValue 64

/-- A fragment of a message cut for the room is sealed and sent. -/
theorem Sealing.emit_ok
    {ω : Type*}
    {suite : Suite}
    {sealing current : Sealing}
    {send : ω → Bytes → Except Error Unit × ω}
    {txLen frames : Nat}
    {job : Queued}
    {outgoing : Outgoing}
    (cut : job.CutFor sealing)
    (roomy : job.limit ≤ txLen)
    (accepts :
      ∀ socket frame,
        frame.length ≤ min job.limit sealing.session.peerCaps.maxFrameSize →
        (send socket frame).1 = .ok ())
    (fragment :
      outgoing.limit = job.limit ∧
        outgoing.data.length ≤ job.perFragment ∧
        outgoing.messageId.isSome = true ∧
        outgoing.fragment.isSome = true)
    (ready : current.session.Ready sealing.session.peerCaps (frames + 1))
    (socket : ω) :
    ∃ world,
      emit suite txLen send (current, socket) outgoing = (.ok (), world) ∧
        world.1.session.Ready sealing.session.peerCaps frames := by
  obtain ⟨keyed, unpadded, sameCaps, fresh⟩ := ready
  obtain ⟨isLimit, short, isReliable, isFragment⟩ := fragment
  have wide := cut.wide
  rw [← isLimit, ← sameCaps] at wide
  have inRoom :
      outgoing.data.length ≤
        current.payloadRoom outgoing.limit outgoing.messageId.isSome
          outgoing.fragment.isSome := by
    rw [isReliable, isFragment, isLimit]
    refine short.trans (Nat.le_of_eq ?_)
    rw [cut.cut]
    unfold maxFragmentPayload payloadRoom maxPayload Session.maxPayload
    rw [sameCaps]
  have within := @innerLen_within suite current outgoing wide inRoom
  obtain ⟨send', generation, frame, coding, stillKeyed, isLength, seals⟩ :=
    @sealPayload_keyed suite current outgoing keyed (by omega) inRoom
      (fun padded => absurd (unpadded.symm.trans padded) Bool.false_ne_true) txLen
  rw [Session.plaintextLen, unpadded, if_neg Bool.false_ne_true] at isLength
  rw [isLimit, sameCaps] at within
  have sends := accepts socket frame (by omega)
  unfold emit
  rw [seals, if_neg (by omega)]
  dsimp only
  rw [← sends]
  exact ⟨_, rfl, stillKeyed, unpadded, sameCaps, by dsimp only; omega⟩

namespace Peer

variable {peer : Peer}

/-- What `queueMessage` cuts is cut for the room. -/
theorem queued_in_room
    (cut : ∀ job ∈ peer.queue, job.CutFor peer.toSealing)
    {limit : Nat}
    (wide :
      dataOverhead + messageIdLen + fragmentLen ≤
        min limit peer.session.peerCaps.maxFrameSize)
    (data : Bytes)
    (payloadType : PayloadType) :
    ∀ job ∈ (peer.queueMessage data payloadType limit).2.queue,
      job.CutFor (peer.queueMessage data payloadType limit).2.toSealing := by
  unfold queueMessage
  split
  · exact cut
  split
  · exact cut
  dsimp only
  split
  · exact cut
  intro job member
  rcases List.mem_append.mp member with earlier | isLast
  · exact cut job earlier
  · rw [List.mem_singleton.mp isLast]
    exact ⟨wide, rfl⟩

/-- A pass over messages cut for the room seals and sends all it offers. -/
theorem driveQueue_ok
    {ω : Type*}
    {suite : Suite}
    {nowMs txLen : Nat}
    {send : ω → Bytes → Except Error Unit × ω}
    (cut : ∀ job ∈ peer.queue, job.CutFor peer.toSealing)
    (keyed : peer.session.send.key.isSome = true)
    (unpadded : peer.session.padding = false)
    (roomy :
      ∀ job ∈ peer.queue.head?,
        job.limit ≤ txLen ∧
          peer.session.sendSeq + (job.count - job.next) ≤ maxValue 64 ∧
          ∀ socket frame,
            frame.length ≤
              min job.limit peer.session.peerCaps.maxFrameSize →
            (send socket frame).1 = .ok ())
    (socket : ω) :
    ∃ finished,
      (peer.driveQueue suite nowMs txLen send socket).1 = .ok finished := by
  have emits :=
    Outbox.driveQueue_emits (Sealing.emit suite txLen send) peer.toOutbox nowMs
      (peer.toSealing, socket)
  have sent :
      (forEach
        (fun outgoing world => Sealing.emit suite txLen send world outgoing)
        (peer.toOutbox.offered nowMs) (peer.toSealing, socket)).1 =
        .ok () := by
    unfold Outbox.offered
    cases isQueue : peer.queue with
    | nil =>
        rfl
    | cons job rest =>
        dsimp only
        split
        · rfl
        have isHead : job ∈ peer.queue := by
          rw [isQueue]
          exact List.mem_cons_self
        obtain ⟨fits, fresh, accepts⟩ :=
          roomy job (by rw [isQueue]; exact rfl)
        have fragments :=
          @Queued.offered_fragments nowMs (job.count - job.next)
            (job.markLost peer.abandoned) peer.retransmit
        rw [Queued.markLost_cut.1, Queued.markLost_cut.2] at fragments
        rw [Queued.markLost_count, Queued.markLost_next]
        have ready : peer.session.Ready peer.session.peerCaps (job.count - job.next) :=
          ⟨keyed, unpadded, rfl, fresh⟩
        exact
          forEach_ok
            (fun left (world : Sealing × ω) =>
              world.1.session.Ready peer.session.peerCaps left)
            (fun {_ _ world} member ready =>
              Sealing.emit_ok (cut job isHead) fits accepts
                (fragments.2 _ member) ready world.2)
            fragments.1 ready
  unfold driveQueue
  generalize
    peer.toOutbox.driveQueue (Sealing.emit suite txLen send) nowMs
      (peer.toSealing, socket) = driven at emits ⊢
  obtain ⟨error | finished, _⟩ := driven
  · rw [← emits] at sent
    cases sent
  · exact ⟨finished, rfl⟩

/-- A peer whose stream of opaque bytes is not worth coding just now. -/
def uncoded (session : Session) : Peer :=
  { Peer.new session with coding := ⟨0, 1, .opaqueBytes⟩ }

/-- A payload that fills the room of one frame of its own. -/
def filling (session : Session) (limit : Nat) : Outgoing :=
  ⟨List.replicate ((uncoded session).maxPayload limit) 0, .opaqueBytes, none,
    none, limit⟩

/-- With padding on, a payload that fills the room does not fit it. -/
theorem filling_overruns
    {suite : Suite}
    {session : Session}
    {limit : Nat}
    (keyed : session.send.key.isSome = true)
    (fresh : session.sendSeq ≠ maxValue 64)
    (isFrameSize : session.peerCaps.maxFrameSize ≤ maxValue 16)
    (wide : dataOverhead ≤ min limit session.peerCaps.maxFrameSize)
    (padded : session.padding = true)
    {frame : Bytes}
    (seals :
      ((uncoded session).sealPayload suite (filling session limit) limit).1 =
        .ok frame) :
    min limit session.peerCaps.maxFrameSize < frame.length := by
  have isRoom :
      (uncoded session).maxPayload limit + dataOverhead =
        min limit session.peerCaps.maxFrameSize := by
    unfold Sealing.maxPayload Session.maxPayload uncoded Peer.new
    dsimp only
    omega
  have isInner :
      (uncoded session).innerLen suite.codec (filling session limit) =
        (uncoded session).maxPayload limit := by
    unfold Sealing.innerLen Sealing.carried Sealing.attemptCoding
    simp [uncoded, filling, CodingDecision.shouldCode]
  obtain ⟨_, _, sealed, _, _, isLength, isSealed⟩ :=
    @Sealing.sealPayload_keyed suite (uncoded session).toSealing (filling session limit) keyed
      fresh (by simp [filling, Sealing.payloadRoom]) (by omega) limit
  have longer :
      (uncoded session).maxPayload limit <
        Session.paddedLen ((uncoded session).maxPayload limit) := by
    unfold Session.paddedLen lengthFieldLen padBlock
    omega
  rw [isInner, Session.plaintextLen, show (uncoded session).session.padding = true from padded,
    if_pos rfl] at isLength
  rw [isSealed] at seals
  split at seals
  · cases seals
  · cases seals
    omega

/--
Every payload within its room is sealed into a frame that fits exactly if the
session does not pad.  It then does so too for every fragment of the messages
that were cut for it: no pass over the queue fails.
-/
theorem room_kept_iff
    {ω : Type*}
    (suite : Suite)
    (session : Session)
    (limit : Nat)
    (keyed : session.send.key.isSome = true)
    (fresh : session.sendSeq ≠ maxValue 64)
    (isFrameSize : session.peerCaps.maxFrameSize ≤ maxValue 16)
    (wide :
      dataOverhead + messageIdLen + fragmentLen ≤
        min limit session.peerCaps.maxFrameSize) :
    ((∀ (peer : Peer) (outgoing : Outgoing),
          peer.session = session →
          outgoing.limit = limit →
          outgoing.data.length ≤
            peer.payloadRoom limit outgoing.messageId.isSome
              outgoing.fragment.isSome →
          ∃ frame,
            (peer.sealPayload suite outgoing limit).1 = .ok frame ∧
              frame.length ≤ min limit session.peerCaps.maxFrameSize) ↔
        session.padding = false) ∧
      ∀ peer : Peer,
        peer.session = session →
        (∀ job ∈ peer.queue, job.CutFor peer.toSealing) →
        (∀ data payloadType,
            ∀ job ∈ (peer.queueMessage data payloadType limit).2.queue,
              job.CutFor
                (peer.queueMessage data payloadType limit).2.toSealing) ∧
          (session.padding = false →
            ∀ nowMs txLen (send : ω → Bytes → Except Error Unit × ω) socket,
              (∀ job ∈ peer.queue.head?,
                job.limit ≤ txLen ∧
                  session.sendSeq + (job.count - job.next) ≤ maxValue 64 ∧
                  ∀ socket frame,
                    frame.length ≤
                      min job.limit session.peerCaps.maxFrameSize →
                    (send socket frame).1 = .ok ()) →
              ∃ finished,
                (peer.driveQueue suite nowMs txLen send socket).1 =
                  .ok finished) := by
  constructor
  · constructor
    · intro kept
      by_contra padded
      rw [Bool.not_eq_false] at padded
      obtain ⟨frame, seals, isShort⟩ :=
        kept (uncoded session) (filling session limit) rfl rfl
          (by simp [filling, Sealing.payloadRoom])
      have overruns := filling_overruns keyed fresh isFrameSize (by omega) padded seals
      omega
    · intro unpadded peer outgoing isSession isLimit inRoom
      subst isSession isLimit
      have within := @Sealing.innerLen_within suite _ outgoing wide inRoom
      obtain ⟨_, _, frame, _, _, isLength, seals⟩ :=
        @Sealing.sealPayload_keyed suite _ outgoing keyed fresh inRoom
          (fun padded => absurd (unpadded.symm.trans padded) Bool.false_ne_true) outgoing.limit
      rw [Session.plaintextLen, unpadded, if_neg Bool.false_ne_true] at isLength
      rw [seals, if_neg (by omega)]
      exact ⟨frame, rfl, by omega⟩
  · intro peer isSession cut
    subst isSession
    exact
      ⟨queued_in_room cut wide, fun unpadded _ _ _ socket roomy =>
        driveQueue_ok cut keyed unpadded roomy socket⟩

end Peer

/-! ### Small peers -/

/-- A checksum for an AEAD, and coding that never pays. -/
def plainSuite : Suite where
  aead := SessionChannel.System.checksumAead
  codec := ⟨fun _ _ _ => none, fun _ => .ok 0, .ok⟩

/-- A peer of one that takes frames of a hundred bytes. -/
def smallPadded (padding : Bool) : Peer :=
  let session :=
    (SessionChannel.System.initial
      { SessionChannel.System.smallHandshake with
        bobCaps := ⟨capReliable, 100, 0⟩ }).alice
  .new { session with padding := padding }

/-- So many bytes, to be sent as they are. -/
def smallPayload (length : Nat) : Outgoing :=
  ⟨List.replicate length 7, .opaqueBytes, none, none, 100⟩

/--
Seventy bytes are within the room of a datagram of a hundred.  Padded, they do
not fit it, and in a larger buffer the frame is larger than the peer takes.
-/
theorem padding_overruns_room :
    (smallPadded true).payloadRoom 100 false false = 70 ∧
      (smallPadded true).session.peerCaps.maxFrameSize = 100 ∧
      ((smallPadded true).sealPayload plainSuite (smallPayload 70) 100).1 =
        .error (.protocol .bufferTooSmall) ∧
      ((smallPadded true).sealPayload plainSuite (smallPayload 70)
          1318).1.map List.length = .ok 158 := by
  decide +kernel

/-- Seventy bytes do fit if they are not padded, and so does a long message. -/
theorem room_kept_iff_of_small_peer :
    (∃ frame,
        ((smallPadded false).sealPayload plainSuite (smallPayload 70)
            100).1 =
          .ok frame ∧
        frame.length ≤ 100) ∧
      ((smallPadded false).queueMessage (List.replicate 200 7) .opaqueBytes
          100).1 =
        .ok () ∧
      ∃ finished,
        (((smallPadded false).queueMessage (List.replicate 200 7)
            .opaqueBytes 100).2.driveQueue plainSuite 0 100
              (fun (sent : List Bytes) frame => (.ok (), sent ++ [frame]))
              []).1 =
          .ok finished := by
  have kept :=
    @Peer.room_kept_iff (List Bytes) plainSuite (smallPadded false).session
      100 (by decide +kernel) (by decide +kernel) (by decide +kernel)
      (by decide +kernel)
  refine ⟨?_, by decide +kernel, ?_⟩
  · exact
      kept.1.mpr rfl (smallPadded false) (smallPayload 70) rfl rfl
        (by decide +kernel)
  · have cut :=
      (kept.2 (smallPadded false) rfl (List.forall_mem_nil _)).1
        (List.replicate 200 7) .opaqueBytes
    have isSession :
        ((smallPadded false).queueMessage (List.replicate 200 7)
            .opaqueBytes 100).2.session =
          (smallPadded false).session := by
      decide +kernel
    have isRoomy :
        ∀ job ∈
            ((smallPadded false).queueMessage (List.replicate 200 7)
              .opaqueBytes 100).2.queue.head?,
          job.limit ≤ 100 ∧
            (smallPadded false).session.sendSeq + (job.count - job.next) ≤
              maxValue 64 := by
      decide +kernel
    refine (kept.2 _ isSession cut).2 (by decide +kernel) 0 100 _ [] ?_
    intro job isHead
    exact
      ⟨(isRoomy job isHead).1, (isRoomy job isHead).2, fun _ _ _ => rfl⟩

end Fectp
