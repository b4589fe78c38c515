import Fectp.Buffers
import Fectp.SessionNonces

namespace Fectp

/-!
# Opening is all or nothing

Opening a frame reads a header, takes the frame apart, decrypts in place, peels
prefixes off and moves the payload down, at places the sender chose.  Here each
of these steps is written with its accesses checked, and shown to be the plain
step: no access is out of range.  Then what a frame that does not open leaves
behind, and what one that does.
-/

namespace Header

/-- `decode` with every access checked. -/
def decodeIndexed (input : Bytes) : Except (Halt CoreError) Header := do
  if input.length < headerLen then
    .error (.failed .messageTooShort)
  else
    let first ← Buffer.read input 0
    if first >>> 4 ≠ version then
      .error (.failed .unsupportedVersion)
    else
      let frameType ← Buffer.lift (FrameType.fromBits (first &&& 0x0f))
      let flags ← Buffer.read input 1
      if flags &&& ~~~knownFlags ≠ 0 then
        .error (.failed .badHeader)
      else
        let id ← Buffer.slice input 2 (2 + 4)
        let sequence ← Buffer.slice input 6 (6 + 8)
        .ok
          { frameType := frameType
            flags := flags
            sessionId := BitVec.ofNat 32 (LittleEndian.decode id)
            sequence := LittleEndian.decode sequence }

theorem decodeIndexed_eq (input : Bytes) :
    decodeIndexed input = Buffer.lift (decode input) := by
  unfold decodeIndexed decode
  split
  · rfl
  next longEnough =>
  have inRange : 14 ≤ input.length := Nat.le_of_not_lt longEnough
  have first : 0 < input.length := Nat.lt_of_lt_of_le (by decide) inRange
  have second : 1 < input.length := Nat.lt_of_lt_of_le (by decide) inRange
  have idRange : 2 + 4 ≤ input.length := Nat.le_trans (by decide) inRange
  rw [Buffer.read_of_lt first 0, Buffer.lift_ok_bind]
  split
  · rfl
  cases FrameType.fromBits (input.getD 0 0 &&& 0x0f) with
  | error error => rfl
  | ok frameType =>
    rw [Buffer.lift_ok_bind, Buffer.read_of_lt second 0, Buffer.lift_ok_bind]
    split
    · rfl
    · rw [Buffer.slice_of_le idRange, Buffer.lift_ok_bind,
        Buffer.slice_of_le inRange, Buffer.lift_ok_bind]
      rfl

end Header

namespace Fragment

/-- `decode` with every access checked. -/
def decodeIndexed (input : Bytes) : Except (Halt CoreError) Fragment := do
  if input.length < fragmentLen then
    .error (.failed .messageTooShort)
  else
    let message ← Buffer.slice input 0 (0 + 4)
    let index ← Buffer.slice input 4 (4 + 2)
    let count ← Buffer.slice input 6 (6 + 2)
    let fragment : Fragment :=
      { message := BitVec.ofNat 32 (LittleEndian.decode message)
        index := LittleEndian.decode index
        count := LittleEndian.decode count }
    if fragment.count = 0 ∨ fragment.count > maxFragments ∨
        fragment.index ≥ fragment.count then
      .error (.failed .badHeader)
    else
      .ok fragment

theorem decodeIndexed_eq (input : Bytes) :
    decodeIndexed input = Buffer.lift (decode input) := by
  unfold decodeIndexed decode
  split
  · rfl
  next longEnough =>
  have inRange : 8 ≤ input.length := Nat.le_of_not_lt longEnough
  have messageRange : 0 + 4 ≤ input.length := Nat.le_trans (by decide) inRange
  have indexRange : 4 + 2 ≤ input.length := Nat.le_trans (by decide) inRange
  rw [Buffer.slice_of_le messageRange, Buffer.lift_ok_bind,
    Buffer.slice_of_le indexRange, Buffer.lift_ok_bind,
    Buffer.slice_of_le inRange, Buffer.lift_ok_bind, List.drop_zero]
  dsimp only
  split <;> rfl

end Fragment

/-- `decryptAt` with every access checked. -/
def CipherState.decryptIndexed
    (aead : Aead)
    (cipher : CipherState)
    (ad : Bytes)
    (counter : Nat)
    (buf : Bytes) :
    Except (Halt CoreError) Bytes := do
  match cipher.key with
  | none =>
      .error (.failed .notReady)
  | some key =>
      if buf.length < tagLen then
        .error (.failed .messageTooShort)
      else
        let (body, tag) ← Buffer.splitAt buf (buf.length - tagLen)
        match aead.decrypt key counter ad (body ++ tag) with
        | none =>
            .error (.failed .decrypt)
        | some plaintext =>
            .ok plaintext

theorem CipherState.decryptIndexed_eq
    (aead : Aead) (cipher : CipherState) (ad : Bytes) (counter : Nat) (buf : Bytes) :
    cipher.decryptIndexed aead ad counter buf =
      Buffer.lift (cipher.decryptAt aead ad counter buf) := by
  unfold decryptIndexed decryptAt
  cases cipher.key with
  | none => rfl
  | some key =>
    dsimp only
    split
    · rfl
    · rw [Buffer.splitAt_of_le (Nat.sub_le _ _), Buffer.lift_ok_bind]
      rw [List.take_append_drop]
      cases aead.decrypt key counter ad buf <;> rfl

namespace Session

/-! ### Peeling -/

def peelPaddingIndexed (flags : UInt8) (body : Bytes) (plaintextLen : Nat) :
    Except (Halt CoreError) Peeled := do
  if flags &&& flagPadded ≠ 0 then
    if plaintextLen < lengthFieldLen then
      .error (.failed .badHeader)
    else
      let raw ← Buffer.slice body 0 (0 + lengthFieldLen)
      let inner := LittleEndian.decode raw
      if lengthFieldLen + inner > plaintextLen then
        .error (.failed .badHeader)
      else
        .ok ⟨lengthFieldLen, inner, none, none⟩
  else
    .ok ⟨0, plaintextLen, none, none⟩

def peelMessageIdIndexed (flags : UInt8) (body : Bytes) (peeled : Peeled) :
    Except (Halt CoreError) Peeled := do
  if flags &&& flagReliable ≠ 0 then
    if peeled.len < messageIdLen then
      .error (.failed .badHeader)
    else
      let raw ← Buffer.slice body peeled.start (peeled.start + messageIdLen)
      .ok
        { peeled with
          start := peeled.start + messageIdLen
          len := peeled.len - messageIdLen
          messageId := some (BitVec.ofNat 32 (LittleEndian.decode raw)) }
  else
    .ok peeled

def peelFragmentIndexed (flags : UInt8) (body : Bytes) (peeled : Peeled) :
    Except (Halt CoreError) Peeled := do
  if flags &&& flagFragment ≠ 0 then
    if peeled.len < fragmentLen then
      .error (.failed .badHeader)
    else
      let raw ← Buffer.slice body peeled.start (peeled.start + fragmentLen)
      let fragment ← Fragment.decodeIndexed raw
      .ok
        { peeled with
          start := peeled.start + fragmentLen
          len := peeled.len - fragmentLen
          fragment := some fragment }
  else
    .ok peeled

/-- `peel` with every access checked. -/
def peelIndexed (flags : UInt8) (body : Bytes) (plaintextLen : Nat) :
    Except (Halt CoreError) Peeled := do
  let peeled ← peelPaddingIndexed flags body plaintextLen
  let peeled ← peelMessageIdIndexed flags body peeled
  peelFragmentIndexed flags body peeled

/-- What is left lies within the plaintext. -/
def Peeled.Within (peeled : Peeled) (plaintextLen : Nat) : Prop :=
  peeled.start + peeled.len ≤ plaintextLen

section

variable {flags : UInt8} {body : Bytes} {plaintextLen : Nat}

theorem peelPaddingIndexed_eq (inBody : plaintextLen ≤ body.length) :
    peelPaddingIndexed flags body plaintextLen =
      Buffer.lift (peelPadding flags body plaintextLen) := by
  unfold peelPaddingIndexed peelPadding
  split
  · split
    · rfl
    next longEnough =>
    have inRange : 0 + lengthFieldLen ≤ body.length := by
      exact (Nat.le_of_not_lt longEnough).trans inBody
    rw [Buffer.slice_of_le inRange, Buffer.lift_ok_bind, List.drop_zero]
    dsimp only
    split <;> rfl
  · rfl

variable {peeled : Peeled}

theorem peelPadding_within (peels : peelPadding flags body plaintextLen = .ok peeled) :
    peeled.Within plaintextLen := by
  unfold peelPadding at peels
  split at peels
  · split at peels
    · cases peels
    · dsimp only at peels
      split at peels
      · cases peels
      next fits =>
      cases peels
      exact Nat.le_of_not_lt fits
  · cases peels
    exact (Nat.zero_add _).le

section

variable (within : peeled.Within plaintextLen)

include within

/-- A field taken off the front of what is left lies in the body. -/
theorem Peeled.Within.field
    {len : Nat} (inBody : plaintextLen ≤ body.length) (longEnough : len ≤ peeled.len) :
    peeled.start + len ≤ body.length :=
  (Nat.add_le_add_left longEnough _).trans (within.trans inBody)

/-- And what is left after it lies in the plaintext. -/
theorem Peeled.Within.rest {len : Nat} (longEnough : len ≤ peeled.len) :
    peeled.start + len + (peeled.len - len) ≤ plaintextLen := by
  rw [Nat.add_assoc, Nat.add_sub_cancel' longEnough]
  exact within

theorem peelMessageIdIndexed_eq (inBody : plaintextLen ≤ body.length) :
    peelMessageIdIndexed flags body peeled = Buffer.lift (peelMessageId flags body peeled) := by
  unfold peelMessageIdIndexed peelMessageId
  split
  · split
    · rfl
    next longEnough =>
    have inRange := within.field inBody (Nat.le_of_not_lt longEnough)
    rw [Buffer.slice_of_le inRange]
    rfl
  · rfl

theorem peelMessageId_within
    {further : Peeled} (peels : peelMessageId flags body peeled = .ok further) :
    further.Within plaintextLen := by
  unfold peelMessageId at peels
  split at peels
  · split at peels
    · cases peels
    next longEnough =>
    cases peels
    exact within.rest (Nat.le_of_not_lt longEnough)
  · cases peels
    exact within

theorem peelFragmentIndexed_eq (inBody : plaintextLen ≤ body.length) :
    peelFragmentIndexed flags body peeled = Buffer.lift (peelFragment flags body peeled) := by
  unfold peelFragmentIndexed peelFragment
  split
  · split
    · rfl
    next longEnough =>
    have inRange := within.field inBody (Nat.le_of_not_lt longEnough)
    rw [Buffer.slice_of_le inRange, Buffer.lift_ok_bind, Fragment.decodeIndexed_eq]
    split <;> next decoded =>
      rw [decoded]
      rfl
  · rfl

theorem peelFragment_within
    {further : Peeled} (peels : peelFragment flags body peeled = .ok further) :
    further.Within plaintextLen := by
  unfold peelFragment at peels
  split at peels
  · split at peels
    · cases peels
    next longEnough =>
    split at peels
    · cases peels
    · cases peels
      exact within.rest (Nat.le_of_not_lt longEnough)
  · cases peels
    exact within

end

theorem peelIndexed_eq (inBody : plaintextLen ≤ body.length) :
    peelIndexed flags body plaintextLen = Buffer.lift (peel flags body plaintextLen) := by
  unfold peelIndexed peel
  rw [peelPaddingIndexed_eq inBody]
  cases padded : peelPadding flags body plaintextLen with
  | error error => rfl
  | ok peeled =>
    have within := peelPadding_within padded
    rw [Buffer.lift_ok_bind, peelMessageIdIndexed_eq within inBody]
    dsimp only
    cases identified : peelMessageId flags body peeled with
    | error error => rfl
    | ok further =>
      exact peelFragmentIndexed_eq (peelMessageId_within within identified) inBody

theorem peel_within (peels : peel flags body plaintextLen = .ok peeled) :
    peeled.Within plaintextLen := by
  unfold peel at peels
  split at peels
  · cases peels
  next padded =>
  have within := peelPadding_within padded
  split at peels
  · cases peels
  · next identified => exact peelFragment_within (peelMessageId_within within identified) peels

/-- `shiftDown` with every access checked. -/
def shiftIndexed (body : Bytes) (peeled : Peeled) :
    Except (Halt CoreError) Bytes :=
  if peeled.start > 0 then
    Buffer.copyWithin body peeled.start (peeled.start + peeled.len) 0
  else
    .ok body

theorem shiftIndexed_eq
    (within : peeled.Within plaintextLen) (inBody : plaintextLen ≤ body.length) :
    shiftIndexed body peeled = Buffer.lift (.ok (shiftDown body peeled)) := by
  unfold shiftIndexed shiftDown
  split
  · exact Buffer.copyWithin_front (within.trans inBody)
  · rfl

end

/-! ### Opening -/

/-- `screenHeader` with every access checked. -/
def screenIndexed (session : Session) (frame : Bytes) :
    Except (Halt CoreError) Header := do
  let header ← Header.decodeIndexed frame
  if !carriesTransport header.frameType then
    .error (.failed .badHeader)
  else if header.sessionId ≠ session.sessionId then
    .error (.failed .badHeader)
  else if frame.length < headerLen + tagLen then
    .error (.failed .messageTooShort)
  else
    let () ← Buffer.lift (session.replay.check header.sequence)
    .ok header

theorem screenIndexed_eq (session : Session) (frame : Bytes) :
    session.screenIndexed frame = Buffer.lift (session.screenHeader frame) := by
  unfold screenIndexed screenHeader
  rw [Header.decodeIndexed_eq]
  cases Header.decode frame with
  | error error => rfl
  | ok header =>
    rw [Buffer.lift_ok_bind]
    dsimp only
    split
    · rfl
    split
    · rfl
    · split
      · rfl
      · cases session.replay.check header.sequence <;> rfl

/-- `openFrame` with every access checked: nothing, if one is out of range. -/
def openIndexed (aead : Aead) (session : Session) (frame : Bytes) :
    Option (Except CoreError Opened × Bytes × Session) := do
  match ← Buffer.outcome (session.screenIndexed frame) with
  | .error error =>
      return (.error error, frame, session)
  | .ok header =>
      let generation := generationOf header.sequence
      match session.candidateKey aead generation with
      | .error error =>
          return (.error error, frame, session)
      | .ok candidate =>
          match session.cipherFor generation candidate with
          | .error error =>
              return (.error error, frame, session)
          | .ok cipher =>
              let (hdr, sealedBody) ←
                (Buffer.splitAt (ε := CoreError) frame headerLen).toOption
              match ← Buffer.outcome
                  (cipher.decryptIndexed aead hdr header.sequence
                    sealedBody) with
              | .error error =>
                  return (.error error, frame, session)
              | .ok plaintext =>
                  let body := plaintext ++ sealedBody.drop plaintext.length
                  match ← Buffer.outcome
                      (peelIndexed header.flags body plaintext.length) with
                  | .error error =>
                      return (.error error, hdr ++ body, session)
                  | .ok peeled =>
                      let body ← (shiftIndexed body peeled).toOption
                      if decoratedPath header peeled then
                        return (.error .badHeader, hdr ++ body, session)
                      else
                        let session := session.adopt generation candidate
                        return (.ok ⟨header, peeled.len, peeled.messageId,
                            peeled.fragment⟩,
                          hdr ++ body,
                          { session with
                            replay := session.replay.commit header.sequence })

/-- No access is out of range, whatever the session and whatever arrives. -/
theorem openIndexed_eq (aead : Aead) (session : Session) (frame : Bytes) :
    session.openIndexed aead frame = some (session.openFrame aead frame) := by
  unfold openIndexed openFrame
  rw [screenIndexed_eq, Buffer.outcome_lift]
  cases screened : session.screenHeader frame with
  | error error => rfl
  | ok header =>
    have inRange : headerLen ≤ frame.length := Nat.le_of_add_right_le (screenHeader_ok screened).2.1
    dsimp only [Option.bind_eq_bind, Option.bind_some]
    cases session.candidateKey aead (generationOf header.sequence) with
    | error error => rfl
    | ok candidate =>
      dsimp only
      cases session.cipherFor (generationOf header.sequence) candidate with
      | error error => rfl
      | ok cipher =>
        rw [Buffer.splitAt_of_le inRange]
        dsimp only [Buffer.lift, Except.toOption, Option.bind_some]
        rw [CipherState.decryptIndexed_eq, Buffer.outcome_lift, Option.bind_some]
        cases cipher.decryptAt aead (frame.take headerLen)
            header.sequence (frame.drop headerLen) with
        | error error => rfl
        | ok plaintext =>
          have inBody : plaintext.length ≤
                (plaintext ++ (frame.drop headerLen).drop plaintext.length).length := by
            rw [List.length_append]
            exact Nat.le_add_right _ _
          dsimp only
          rw [peelIndexed_eq inBody, Buffer.outcome_lift, Option.bind_some]
          cases peels :
              peel header.flags (plaintext ++ (frame.drop headerLen).drop plaintext.length)
                plaintext.length with
          | error error => rfl
          | ok peeled =>
            dsimp only
            rw [shiftIndexed_eq (peel_within peels) inBody]
            dsimp only [Buffer.lift, Except.toOption, Option.bind_some]
            split <;> rfl

variable {aead : Aead} {session : Session} {frame : Bytes}

/-- The payload and the tag lie in the frame. -/
theorem Opening.len_le (opening : Opening aead session frame) :
    headerLen + opening.opened.len + tagLen ≤ frame.length := by
  have within : opening.peeled.start + opening.peeled.len ≤ opening.plaintext.length :=
    peel_within opening.peels
  have longEnough := (screenHeader_ok opening.screened).2.1
  have decrypted := opening.decrypted
  unfold CipherState.decryptAt at decrypted
  split at decrypted
  · cases decrypted
  split at decrypted
  · cases decrypted
  · split at decrypted
    · cases decrypted
    next verified =>
    cases decrypted
    have length := aead.decrypt_length verified
    rw [List.length_drop] at length
    change headerLen + opening.peeled.len + tagLen ≤ frame.length
    omega

/-- Opening moves on to the frame's generation, and never back. -/
theorem Opening.generation (opening : Opening aead session frame) :
    opening.adopted.recvGeneration =
      max session.recvGeneration (generationOf opening.header.sequence) := by
  have derived := opening.derived
  unfold Opening.adopted adopt
  unfold candidateKey at derived
  dsimp only at derived
  split at derived
  · cases derived
  split at derived
  · next ahead =>
      split at derived
      · cases derived
      cases isCandidate : opening.candidate with
      | none =>
        rw [isCandidate] at derived
        cases derived
      | some next => exact (max_eq_right (Nat.le_of_lt (Nat.lt_of_sub_pos ahead))).symm
  next notAhead =>
  rw [← Except.ok.inj derived]
  have behind := Nat.le_of_sub_eq_zero (Nat.eq_zero_of_not_pos notAhead)
  exact (max_eq_left behind).symm

end Session

/-! ### What was accepted -/

/-- A session, and the numbers of the frames it has opened. -/
structure Receiver where
  session : Session
  accepted : List Nat

namespace Receiver

/-- A call on the session; a frame that opens is noted. -/
def next (aead : Aead) (receiver : Receiver) : SessionCall → Receiver
  | .seals call =>
      { receiver with
        session := (receiver.session.sealCall aead call).2 }
  | .setPadding enabled =>
      { receiver with session := receiver.session.setPadding enabled }
  | .opens frame =>
      match receiver.session.openFrame aead frame with
      | (.error _, _, session) =>
          { receiver with session := session }
      | (.ok opened, _, session) =>
          { session := session
            accepted := receiver.accepted ++ [opened.header.sequence] }

/-- The receiving key is the one of the highest number accepted, and the first
one before that. -/
structure Aligned (receiver : Receiver) : Prop where
  fresh : receiver.accepted = [] → receiver.session.recvGeneration = 0
  current : ∀ highest ∈ receiver.accepted.max?,
      receiver.session.recvGeneration = generationOf highest

variable {aead : Aead} {receiver : Receiver}

theorem generationOf_max (first second : Nat) :
    generationOf (max first second) = max (generationOf first) (generationOf second) := by
  rcases Nat.le_total first second with ordered | ordered
  · rw [max_eq_right ordered]
    exact (max_eq_right (Nat.div_le_div_right ordered)).symm
  · rw [max_eq_left ordered]
    exact (max_eq_left (Nat.div_le_div_right ordered)).symm

theorem max?_append_singleton
    {numbers : List Nat} {highest : Nat} (isHighest : numbers.max? = some highest) (number : Nat) :
    (numbers ++ [number]).max? = some (max highest number) := by
  obtain ⟨among, below⟩ := List.max?_eq_some_iff.mp isHighest
  refine List.max?_eq_some_iff.mpr ⟨?_, ?_⟩
  · rcases Nat.le_total highest number with ordered | ordered
    · simp [max_eq_right ordered]
    · simp [max_eq_left ordered, among]
  · intro other member
    rcases List.mem_append.mp member with old | new
    · exact (below other old).trans (Nat.le_max_left _ _)
    · rw [List.mem_singleton.mp new]
      exact Nat.le_max_right _ _

/-- A frame that opens keeps the key with the highest number. -/
theorem Aligned.opens {frame : Bytes} (aligned : receiver.Aligned)
    (opening : Session.Opening aead receiver.session frame) :
    ∃ highest, (receiver.accepted ++ [opening.header.sequence]).max? = some highest ∧
        opening.adopted.recvGeneration = generationOf highest := by
  have moves := opening.generation
  cases isHighest : receiver.accepted.max? with
  | none =>
    have isEmpty := List.max?_eq_none_iff.mp isHighest
    refine ⟨opening.header.sequence, ?_, ?_⟩
    · rw [isEmpty]
      rfl
    · rw [moves, aligned.fresh isEmpty]
      exact Nat.zero_max _
  | some highest =>
    refine ⟨max highest opening.header.sequence, ?_, ?_⟩
    · exact max?_append_singleton isHighest _
    · rw [moves, aligned.current highest isHighest, generationOf_max]

/-- A session in the same state of receiving is as well aligned. -/
theorem Aligned.same {session : Session} (aligned : receiver.Aligned)
    (same : session.recvGeneration = receiver.session.recvGeneration) :
    Aligned { receiver with session := session } where
  fresh isEmpty := same.trans (aligned.fresh isEmpty)
  current highest isHighest := same.trans (aligned.current highest isHighest)

theorem sealCall_recvGeneration (aead : Aead) (session : Session) (call : SealCall) :
    (session.sealCall aead call).2.recvGeneration = session.recvGeneration := by
  rcases session.sealCall_cases aead call with
    ⟨_, refused⟩ | ⟨parts, padding, outLen, builds⟩
  · rw [refused]
  · rw [builds]
    exact (session.sealFramePadded_receiving aead parts padding outLen).receiving.2

theorem Aligned.next (aligned : receiver.Aligned) (call : SessionCall) :
    (receiver.next aead call).Aligned := by
  cases call with
  | seals call => exact aligned.same (sealCall_recvGeneration aead _ call)
  | setPadding enabled => exact aligned.same rfl
  | opens frame =>
    unfold Receiver.next
    dsimp only
    rcases receiver.session.openFrame_cases aead frame with
      ⟨_, _, refused, _⟩ | ⟨opening, outcome⟩
    · rw [refused]
      exact aligned.same rfl
    rw [outcome]
    obtain ⟨highest, isHighest, current⟩ := aligned.opens opening
    refine ⟨fun isEmpty => ?_, fun other isOther => ?_⟩
    · exact absurd isEmpty (List.append_ne_nil_of_right_ne_nil _ (List.cons_ne_nil _ _))
    · cases isHighest.symm.trans isOther
      exact current

/-- A session as a handshake hands it over, with nothing accepted. -/
def start
    (send recv : CipherState)
    (sessionId : BitVec 32)
    (peerCaps : Capabilities)
    (remoteStatic resumptionKey : Bytes) :
    Receiver where
  session := Session.new send recv sessionId peerCaps remoteStatic resumptionKey
  accepted := []

theorem run_aligned (aead : Aead) (send recv : CipherState) (sessionId : BitVec 32)
    (peerCaps : Capabilities) (remoteStatic resumptionKey : Bytes) (calls : List SessionCall) :
    (Execution.run (next aead) (start send recv sessionId peerCaps remoteStatic resumptionKey)
      calls).Aligned := by
  have initially : (start send recv sessionId peerCaps remoteStatic resumptionKey).Aligned :=
    ⟨fun _ => rfl, fun _ isHighest => nomatch isHighest⟩
  exact @Execution.invariant_of_step _ _ (next aead) Aligned
    (fun aligned call => aligned.next call) _ calls initially

end Receiver

/-- Whatever the session and whatever the bytes, opening stays within the frame;
an error leaves the session as it was; and what opens lies within the frame and
leaves a session that has been opening frames since its handshake at the
generation of the highest number it accepted. -/
theorem Session.opens_all_or_nothing
    (aead : Aead)
    (session : Session)
    (frame : Bytes) :
    session.openIndexed aead frame = some (session.openFrame aead frame) ∧
      match session.openFrame aead frame with
      | (.error _, _, after) =>
          after = session
      | (.ok opened, _, after) =>
          headerLen + opened.len ≤ frame.length - tagLen ∧
            tagLen ≤ frame.length ∧
            ∀ send recv sessionId peerCaps remoteStatic resumptionKey calls,
              let receiver :=
                Execution.run (Receiver.next aead)
                  (Receiver.start send recv sessionId peerCaps remoteStatic
                    resumptionKey)
                  calls
              receiver.session = session →
              ∃ highest,
                (receiver.accepted ++ [opened.header.sequence]).max? =
                    some highest ∧
                  after.recvGeneration = generationOf highest := by
  refine ⟨openIndexed_eq aead session frame, ?_⟩
  rcases session.openFrame_cases aead frame with
    ⟨_, _, refused, _⟩ | ⟨opening, outcome⟩
  · rw [refused]
  rw [outcome]
  have inFrame := opening.len_le
  refine ⟨Nat.le_sub_of_add_le inFrame, Nat.le_of_add_left_le inFrame, ?_⟩
  intro send recv sessionId peerCaps remoteStatic resumptionKey calls
    receiver isSession
  subst isSession
  exact (Receiver.run_aligned aead send recv sessionId peerCaps
    remoteStatic resumptionKey calls).opens opening

end Fectp
