import Fectp.ReplayHistory

namespace Fectp

/-!
# Sealing and opening one frame

A session's sending key and its peer's receiving keys are all on one chain,
each link the rekeying of the one before.  This module says what a successful
seal writes, that peeling recovers what was written in whatever combination
of padding, identifier and descriptor, and exactly when a frame sealed under
the key of its own generation opens.
-/

/-- The key a number of generations along the chain from `key`. -/
def chain (aead : Aead) (key : Bytes) : Nat → Bytes
  | 0 =>
      key
  | generation + 1 =>
      CipherState.nextKey aead (chain aead key generation)

namespace CipherState

variable {aead : Aead} {key : Bytes}

variable {cipher : CipherState} {generation : Nat}

theorem rekeyed_chain (onChain : cipher.key = some (chain aead key generation)) :
    ∃ next, cipher.rekeyed aead = .ok next ∧ next.key = some (chain aead key (generation + 1)) := by
  refine ⟨new.initializeKey (nextKey aead (chain aead key generation)), ?_, rfl⟩
  rw [rekeyed, onChain]

theorem rekeyedTimes_chain (steps : Nat) (onChain : cipher.key = some (chain aead key generation)) :
    ∃ next, rekeyedTimes aead steps cipher = .ok next ∧
        next.key = some (chain aead key (generation + steps)) := by
  induction steps generalizing cipher generation with
  | zero => exact ⟨cipher, rfl, onChain⟩
  | succ steps inductionHypothesis =>
    obtain ⟨next, derived, nextOnChain⟩ := rekeyed_chain onChain
    obtain ⟨last, reached, lastOnChain⟩ := inductionHypothesis nextOnChain
    refine ⟨last, ?_, ?_⟩
    · rw [rekeyedTimes, derived]
      exact reached
    · rw [lastOnChain, Nat.add_assoc, Nat.add_comm 1]

theorem rekeyedBy_chain
    {steps : Nat} (positive : 0 < steps) (onChain : cipher.key = some (chain aead key generation)) :
    ∃ next, cipher.rekeyedBy aead steps = .ok next ∧
        next.key = some (chain aead key (generation + steps)) := by
  obtain ⟨next, derived, nextOnChain⟩ := rekeyed_chain onChain
  obtain ⟨last, reached, lastOnChain⟩ := rekeyedTimes_chain (steps - 1) nextOnChain
  refine ⟨last, ?_, ?_⟩
  · rw [rekeyedBy, derived]
    exact reached
  · rw [lastOnChain, Nat.add_assoc, Nat.add_sub_cancel' positive]

end CipherState

namespace FrameParts

/-- The whole frame that carries these parts under a key. -/
def frame
    (parts : FrameParts)
    (aead : Aead)
    (key : Bytes)
    (sessionId : BitVec 32)
    (padded : Bool)
    (plaintextLen sequence : Nat) :
    Bytes :=
  let header := parts.header sessionId padded sequence
  header.bytes ++
    aead.encrypt key sequence header.bytes (parts.plaintext padded plaintextLen)

/-- The plaintext length leaves room for everything written, and says so. -/
structure Fits
    (parts : FrameParts)
    (padded : Bool)
    (plaintextLen : Nat) : Prop where
  room : (parts.written padded).length ≤ plaintextLen
  exactly : padded = false → plaintextLen = parts.innerLen
  countable : padded = true → parts.innerLen ≤ maxValue 16

/-- Parts a receiver accepts back: what the callers of sealing pass. -/
structure WellFormed (parts : FrameParts) (padded : Bool) : Prop where
  transport : Session.carriesTransport parts.frameType = true
  callerFlags : parts.flags = 0 ∨ parts.flags = flagCompressed
  coherent : ∀ {fragment : Fragment},
      parts.fragment = some fragment → fragment.Coherent
  bareToken : parts.frameType = .pathChallenge ∨
      parts.frameType = .pathResponse →
    parts.payload.length = pathTokenLen ∧
      parts.messageId = none ∧
      parts.fragment = none ∧
      parts.flags = 0
  bareResponse : parts.frameType = .pathResponse → padded = false

variable (parts : FrameParts)

theorem innerLen_eq :
    parts.innerLen =
      parts.idBytes.length + parts.descriptorBytes.length +
        parts.payload.length := by
  unfold innerLen idBytes descriptorBytes
  cases parts.messageId <;> cases parts.fragment <;>
    simp [messageIdLen]

theorem written_length (padded : Bool) :
    (parts.written padded).length = (parts.lengthBytes padded).length + parts.innerLen := by
  simp only [written, List.length_append, innerLen_eq]
  omega

theorem lengthBytes_length (padded : Bool) :
    (parts.lengthBytes padded).length = if padded then lengthFieldLen else 0 := by
  cases padded <;> simp [lengthBytes, lengthFieldLen]

variable {parts}

theorem plaintext_length
    {padded : Bool} {plaintextLen : Nat} (fits : parts.Fits padded plaintextLen) :
    (parts.plaintext padded plaintextLen).length = plaintextLen := by
  rw [plaintext, List.length_append, List.length_replicate]
  exact Nat.add_sub_cancel' fits.room

/-- Every flag of the header is the caller's or says which part follows. -/
theorem headerFlags_tests {padded : Bool} (wellFormed : parts.WellFormed padded) :
    parts.headerFlags padded &&& ~~~knownFlags = 0 ∧
      (parts.headerFlags padded &&& flagPadded ≠ 0 ↔ padded = true) ∧
      (parts.headerFlags padded &&& flagReliable ≠ 0 ↔ parts.messageId.isSome = true) ∧
      (parts.headerFlags padded &&& flagFragment ≠ 0 ↔ parts.fragment.isSome = true) := by
  unfold headerFlags
  generalize parts.messageId.isSome = reliable
  generalize parts.fragment.isSome = fragmented
  rcases wellFormed.callerFlags with plain | compressed
  · rw [plain]
    cases reliable <;> cases fragmented <;> cases padded <;> decide
  · rw [compressed]
    cases reliable <;> cases fragmented <;> cases padded <;> decide

end FrameParts

namespace Session

/-! ### Peeling what was written -/

variable {parts : FrameParts} {padded : Bool}
  {plaintextLen outLen generation sequence : Nat} {flags : UInt8}
  {aead : Aead} {key frame : Bytes} {session after : Session}
  {padding : Padding}

theorem peelPadding_written (fits : parts.Fits padded plaintextLen)
    (flagged : flags &&& flagPadded ≠ 0 ↔ padded = true) (rest : Bytes) :
    peelPadding flags (parts.lengthBytes padded ++ rest) plaintextLen =
      .ok ⟨(parts.lengthBytes padded).length, parts.innerLen, none, none⟩ := by
  have room := fits.room
  rw [parts.written_length, parts.lengthBytes_length] at room
  cases padded with
  | false =>
    have unpadded : ¬ flags &&& flagPadded ≠ 0 := by
      rw [flagged]
      exact Bool.false_ne_true
    rw [peelPadding, if_neg unpadded, fits.exactly rfl]
    rfl
  | true =>
    have isPadded : flags &&& flagPadded ≠ 0 := flagged.mpr rfl
    have small : parts.innerLen < 256 ^ 2 := Nat.lt_of_le_of_lt (fits.countable rfl) (by decide)
    have field : (parts.lengthBytes true ++ rest).take lengthFieldLen =
          LittleEndian.encode 2 parts.innerLen :=
      List.take_left' (by simp [FrameParts.lengthBytes, lengthFieldLen])
    simp only [if_true] at room
    rw [peelPadding, if_pos isPadded, field, LittleEndian.decode_encode small, if_neg (by omega),
      if_neg (by omega), parts.lengthBytes_length]
    rfl

theorem peelMessageId_written (flagged : flags &&& flagReliable ≠ 0 ↔ parts.messageId.isSome = true)
    (front rest : Bytes) (len : Nat) :
    peelMessageId flags (front ++ (parts.idBytes ++ rest))
        ⟨front.length, parts.idBytes.length + len, none, none⟩ =
      .ok ⟨front.length + parts.idBytes.length, len, parts.messageId, none⟩ := by
  unfold peelMessageId
  cases present : parts.messageId with
  | none =>
    have unreliable : ¬ flags &&& flagReliable ≠ 0 := by
      rw [flagged, present]
      exact Bool.false_ne_true
    rw [if_neg unreliable]
    simp [FrameParts.idBytes, present]
  | some id =>
    have reliable : flags &&& flagReliable ≠ 0 := by
      rw [flagged, present]
      rfl
    have bytes : parts.idBytes = LittleEndian.encode 4 id.toNat := by
      simp [FrameParts.idBytes, present]
    have width : parts.idBytes.length = messageIdLen := by
      simp [bytes, messageIdLen]
    have field : ((front ++ (parts.idBytes ++ rest)).drop front.length).take messageIdLen =
          LittleEndian.encode 4 id.toNat := by
      rw [List.drop_left, ← width, List.take_left, bytes]
    have fitsId : id.toNat < 256 ^ 4 := id.isLt
    rw [if_pos reliable, field, LittleEndian.decode_encode fitsId, width]
    simp

theorem peelFragment_written (flagged : flags &&& flagFragment ≠ 0 ↔ parts.fragment.isSome = true)
    (coherent : ∀ {fragment : Fragment}, parts.fragment = some fragment → fragment.Coherent)
    (front rest : Bytes) (len : Nat) (messageId : Option MessageId) :
    peelFragment flags (front ++ (parts.descriptorBytes ++ rest))
        ⟨front.length, parts.descriptorBytes.length + len, messageId, none⟩ =
      .ok ⟨front.length + parts.descriptorBytes.length, len, messageId, parts.fragment⟩ := by
  unfold peelFragment
  cases present : parts.fragment with
  | none =>
    have whole : ¬ flags &&& flagFragment ≠ 0 := by
      rw [flagged, present]
      exact Bool.false_ne_true
    rw [if_neg whole]
    simp [FrameParts.descriptorBytes, present]
  | some fragment =>
    have fragmented : flags &&& flagFragment ≠ 0 := by
      rw [flagged, present]
      rfl
    have bytes : parts.descriptorBytes = fragment.bytes := by
      simp [FrameParts.descriptorBytes, present]
    have width : parts.descriptorBytes.length = fragmentLen := by
      simp [bytes]
    have field : ((front ++ (parts.descriptorBytes ++ rest)).drop
            front.length).take fragmentLen =
          fragment.bytes := by
      rw [List.drop_left, ← width, List.take_left, bytes]
    rw [if_pos fragmented, field, Fragment.decode_bytes (coherent present), width]
    simp

/-- Peeling a plaintext finds the payload and everything before it. -/
theorem peel_plaintext
    (fits : parts.Fits padded plaintextLen) (wellFormed : parts.WellFormed padded) (tag : Bytes) :
    peel (parts.headerFlags padded) (parts.plaintext padded plaintextLen ++ tag) plaintextLen =
      .ok ⟨(parts.written padded).length - parts.payload.length,
        parts.payload.length, parts.messageId, parts.fragment⟩ := by
  obtain ⟨_, paddedFlag, reliableFlag, fragmentFlag⟩ := FrameParts.headerFlags_tests wellFormed
  -- The same body, seen from the front of each of the three parts.
  generalize rest :
    List.replicate (plaintextLen - (parts.written padded).length) (0 : UInt8) ++ tag = filler
  have body : parts.plaintext padded plaintextLen ++ tag = parts.lengthBytes padded ++
          (parts.idBytes ++ (parts.descriptorBytes ++ (parts.payload ++ filler))) := by
    simp only [FrameParts.plaintext, FrameParts.written, List.append_assoc, ← rest]
  have lengthPeeled :=
    peelPadding_written fits paddedFlag
      (parts.idBytes ++ (parts.descriptorBytes ++ (parts.payload ++ filler)))
  have idPeeled :=
    peelMessageId_written reliableFlag (parts.lengthBytes padded)
      (parts.descriptorBytes ++ (parts.payload ++ filler))
      (parts.descriptorBytes.length + parts.payload.length)
  have fragmentPeeled :=
    peelFragment_written fragmentFlag wellFormed.coherent
      (parts.lengthBytes padded ++ parts.idBytes)
      (parts.payload ++ filler) parts.payload.length parts.messageId
  rw [List.append_assoc, List.length_append] at fragmentPeeled
  rw [← Nat.add_assoc, ← parts.innerLen_eq] at idPeeled
  have start : (parts.written padded).length - parts.payload.length =
        (parts.lengthBytes padded).length + parts.idBytes.length +
          parts.descriptorBytes.length := by
    rw [parts.written_length, parts.innerLen_eq]
    omega
  simp only [peel, body, lengthPeeled, idPeeled, fragmentPeeled, start]

/-- After the shift the payload is at the front of the body. -/
theorem take_shiftDown_plaintext
    (parts : FrameParts) (padded : Bool) (plaintextLen : Nat) (tag : Bytes)
    (messageId : Option MessageId) (fragment : Option Fragment) :
    (shiftDown (parts.plaintext padded plaintextLen ++ tag)
        ⟨(parts.written padded).length - parts.payload.length,
          parts.payload.length, messageId, fragment⟩).take
      parts.payload.length = parts.payload := by
  have body : parts.plaintext padded plaintextLen ++ tag = (parts.lengthBytes padded ++
          (parts.idBytes ++ parts.descriptorBytes)) ++
          (parts.payload ++ (List.replicate (plaintextLen - (parts.written padded).length) 0 ++
              tag)) := by
    simp only [FrameParts.plaintext, FrameParts.written, List.append_assoc]
  have start : (parts.written padded).length - parts.payload.length =
        (parts.lengthBytes padded ++ (parts.idBytes ++ parts.descriptorBytes)).length := by
    simp only [FrameParts.written, List.length_append]
    omega
  unfold shiftDown
  rw [start, body]
  by_cases nothingBefore :
      (parts.lengthBytes padded ++ (parts.idBytes ++ parts.descriptorBytes)).length > 0
  · rw [if_pos nothingBefore, List.drop_left, List.take_left]
    exact List.take_left
  · rw [if_neg nothingBefore,
      List.length_eq_zero_iff.mp (Nat.eq_zero_of_not_pos nothingBefore)]
    exact List.take_left

/-- A well-formed path frame is a bare token. -/
theorem decoratedPath_wellFormed
    (wellFormed : parts.WellFormed padded) (sessionId : BitVec 32) (sequence start : Nat) :
    decoratedPath (parts.header sessionId padded sequence)
      ⟨start, parts.payload.length, parts.messageId, parts.fragment⟩ = false := by
  have typed : (parts.header sessionId padded sequence).frameType = parts.frameType := rfl
  have flagged : (parts.header sessionId padded sequence).flags = parts.headerFlags padded := rfl
  by_cases challenge : parts.frameType = .pathChallenge
  · obtain ⟨len, noId, noFragment, noFlags⟩ :=
      wellFormed.bareToken (Or.inl challenge)
    have flags : parts.headerFlags padded &&& ~~~flagPadded = 0 := by
      simp only [FrameParts.headerFlags, noId, noFragment, noFlags]
      cases padded <;> decide
    simp [decoratedPath, typed, flagged, challenge, len, noId, noFragment, flags]
  · by_cases response : parts.frameType = .pathResponse
    · obtain ⟨len, noId, noFragment, noFlags⟩ :=
        wellFormed.bareToken (Or.inr response)
      have flags : parts.headerFlags padded = 0 := by
        rw [wellFormed.bareResponse response]
        simp only [FrameParts.headerFlags, noId, noFragment, noFlags]
        decide
      simp [decoratedPath, typed, flagged, response, len, noId, noFragment, flags]
    · simp [decoratedPath, typed, challenge, response]

/-! ### Sealing -/

/-- The sending half is on its chain, no further than its next frame. -/
structure Sends
    (aead : Aead)
    (key : Bytes)
    (session : Session) : Prop where
  keyed : session.send.key = some (chain aead key session.sendGeneration)
  notAhead : session.sendGeneration ≤ generationOf session.sendSeq
  bounded : session.sendSeq ≤ maxValue 64

/-- The two sessions differ in their sending halves only. -/
def SameReceiving (first second : Session) : Prop :=
  first =
    { second with
      send := first.send
      sendGeneration := first.sendGeneration
      sendSeq := first.sendSeq }

/-- A keyed session is rekeyed as often as asked. -/
theorem rekeySend_chain
    (steps : Nat) (keyed : session.send.key = some (chain aead key generation)) :
    ∃ send, session.rekeySend aead steps = (.ok (),
            { session with
              send := send
              sendGeneration := session.sendGeneration + steps }) ∧
        send.key = some (chain aead key (generation + steps)) := by
  induction steps generalizing session generation with
  | zero => exact ⟨session.send, rfl, keyed⟩
  | succ steps inductionHypothesis =>
    obtain ⟨next, derived, nextKeyed⟩ := CipherState.rekeyed_chain keyed
    obtain ⟨last, reached, lastKeyed⟩ :=
      @inductionHypothesis _
        { session with
          send := next
          sendGeneration := session.sendGeneration + 1 }
        nextKeyed
    refine ⟨last, ?_, ?_⟩
    · rw [rekeySend, derived]
      simp only [reached, Nat.add_assoc, Nat.add_comm 1]
    · rw [lastKeyed, Nat.add_assoc, Nat.add_comm 1]

/-- Rekeying replaces the sending key and nothing else. -/
theorem rekeySend_rest (aead : Aead) (steps : Nat) (session : Session) :
    ∃ send generation, (session.rekeySend aead steps).2 =
        { session with
          send := send
          sendGeneration := generation } := by
  induction steps generalizing session with
  | zero => exact ⟨_, _, rfl⟩
  | succ steps inductionHypothesis =>
    unfold rekeySend
    split
    · exact ⟨_, _, rfl⟩
    · exact inductionHypothesis _

/-- What padding plans is room for everything written. -/
theorem fits_of_plaintextLen
    (countable : ¬ (padding.isPadded = true ∧ parts.innerLen > maxValue 16))
    (planned : padding.plaintextLen parts.innerLen = .ok plaintextLen) :
    parts.Fits padding.isPadded plaintextLen := by
  have small : padding.isPadded = true → parts.innerLen ≤ maxValue 16 :=
    fun padded => Nat.le_of_not_lt fun large => countable ⟨padded, large⟩
  have written := parts.written_length padding.isPadded
  rw [parts.lengthBytes_length] at written
  cases padding with
  | none =>
    cases planned
    exact ⟨by rw [written]; simp [Padding.isPadded], fun _ => rfl, small⟩
  | block =>
    cases planned
    refine ⟨?_, fun unpadded => (by cases unpadded), small⟩
    rw [written]
    simp only [Padding.isPadded, if_true, padBlock]
    omega
  | exact len =>
    simp only [Padding.plaintextLen] at planned
    split at planned
    · cases planned
    next room =>
    cases planned
    refine ⟨?_, fun unpadded => (by cases unpadded), small⟩
    rw [written]
    simp only [Padding.isPadded, if_true]
    omega

/-- Writing a frame changes nothing, or takes the next number. -/
theorem writeFrame_cases
    (aead : Aead) (session : Session) (parts : FrameParts) (padding : Padding) (outLen : Nat) :
    (∃ error, session.writeFrame aead parts padding outLen = (.error error, session)) ∨
      ∃ key plaintextLen, session.send.key = some key ∧ parts.Fits padding.isPadded plaintextLen ∧
          session.writeFrame aead parts padding outLen = (.ok
                (parts.frame aead key session.sessionId padding.isPadded
                  plaintextLen session.sendSeq),
              { session with sendSeq := session.sendSeq + 1 }) := by
  unfold writeFrame
  split
  · exact Or.inl ⟨_, rfl⟩
  next countable =>
  split
  · exact Or.inl ⟨_, rfl⟩
  next plaintextLen planned =>
  have fits := fits_of_plaintextLen countable planned
  split
  · exact Or.inl ⟨_, rfl⟩
  cases keyed : session.send.key with
  | none =>
    simp only [CipherState.encryptAt, keyed]
    exact Or.inl ⟨_, rfl⟩
  | some key =>
    simp only [CipherState.encryptAt, keyed,
      FrameParts.plaintext_length fits, lt_irrefl, if_false]
    exact Or.inr ⟨key, plaintextLen, rfl, fits, rfl⟩

/--
Sealing fails somewhere on the way to the key of the next number, or writes the
frame under it.
-/
theorem sealFramePadded_cases
    (aead : Aead) (session : Session) (parts : FrameParts) (padding : Padding) (outLen : Nat) :
    let steps := generationOf session.sendSeq - session.sendGeneration
    (∃ error, ∃ taken ≤ steps, session.sealFramePadded aead parts padding outLen =
            (.error error, (session.rekeySend aead taken).2)) ∨
      ∃ key plaintextLen, session.sendSeq ≠ maxValue 64 ∧
          (session.rekeySend aead steps).2.send.key = some key ∧
          parts.Fits padding.isPadded plaintextLen ∧
          session.sealFramePadded aead parts padding outLen = (.ok
                (parts.frame aead key session.sessionId padding.isPadded
                  plaintextLen session.sendSeq),
              { (session.rekeySend aead steps).2 with
                sendSeq := session.sendSeq + 1 }) := by
  intro steps
  have rest := session.rekeySend_rest aead steps
  unfold sealFramePadded
  split
  · exact Or.inl ⟨_, 0, Nat.zero_le _, rfl⟩
  next fresh =>
  rcases rekeyed : session.rekeySend aead steps with ⟨_ | _, reached⟩
  · exact Or.inl ⟨_, steps, le_rfl, by rw [rekeyed]⟩
  rw [rekeyed] at rest
  obtain ⟨send, generation, rfl⟩ := rest
  rcases writeFrame_cases aead _ parts padding outLen with
    ⟨error, fails⟩ | ⟨key, plaintextLen, keyed, fits, writes⟩
  · exact Or.inl ⟨error, steps, le_rfl, by rw [rekeyed]; exact fails⟩
  · exact Or.inr ⟨key, plaintextLen, fresh, keyed, fits, writes⟩

/--
Sealing either fails and takes no number, or writes the frame of its parts
under the key of its own generation; the receiving half is left alone.
-/
theorem Sends.sealFramePadded
    (sends : Sends aead key session) (parts : FrameParts) (padding : Padding) (outLen : Nat) :
    Sends aead key (session.sealFramePadded aead parts padding outLen).2 ∧
      SameReceiving (session.sealFramePadded aead parts padding outLen).2 session ∧
      ∀ {frame},
        (session.sealFramePadded aead parts padding outLen).1 = .ok frame →
        session.sendSeq < maxValue 64 ∧
          (session.sealFramePadded aead parts padding outLen).2.sendSeq = session.sendSeq + 1 ∧
          (session.sealFramePadded aead parts padding
              outLen).2.sendGeneration = generationOf session.sendSeq ∧
          ∃ plaintextLen, parts.Fits padding.isPadded plaintextLen ∧ frame = parts.frame aead
                  (chain aead key (generationOf session.sendSeq))
                  session.sessionId padding.isPadded plaintextLen
                  session.sendSeq := by
  have current := Nat.add_sub_cancel' sends.notAhead
  have bounded := sends.bounded
  rcases session.sealFramePadded_cases aead parts padding outLen with
    ⟨error, taken, within, fails⟩ | ⟨_, plaintextLen, fresh, keyed, fits, seals⟩
  · obtain ⟨send, rekeyed, sendKeyed⟩ := rekeySend_chain taken sends.keyed
    rw [fails, rekeyed]
    refine ⟨⟨sendKeyed, ?_, bounded⟩, rfl, nofun⟩
    change session.sendGeneration + taken ≤ generationOf session.sendSeq
    omega
  · obtain ⟨send, rekeyed, sendKeyed⟩ :=
      rekeySend_chain (generationOf session.sendSeq - session.sendGeneration) sends.keyed
    rw [current] at rekeyed sendKeyed
    have room : session.sendSeq < maxValue 64 := Nat.lt_of_le_of_ne bounded fresh
    rw [rekeyed] at keyed seals
    cases sendKeyed.symm.trans keyed
    rw [seals]
    refine ⟨⟨sendKeyed, Nat.div_le_div_right (Nat.le_succ _), room⟩, rfl, ?_⟩
    rintro _ ⟨⟩
    exact ⟨room, rfl, rfl, plaintextLen, fits, rfl⟩

/-! ### Opening -/

/-- The receiving keys are on the chain at the generations they claim. -/
structure Receives
    (aead : Aead)
    (key : Bytes)
    (session : Session) : Prop where
  keyed : session.recv.key = some (chain aead key session.recvGeneration)
  previous : ∀ {cipher : CipherState},
      session.recvPrev = some cipher →
      ∃ generation,
        generation + 1 = session.recvGeneration ∧
          cipher.key = some (chain aead key generation)

/-- The generations the session holds or will derive a key for. -/
def Reaches (session : Session) (generation : Nat) : Prop :=
  generation ≤ session.recvGeneration + maxRekeyLookahead ∧
    (generation < session.recvGeneration →
      generation + 1 = session.recvGeneration ∧ session.recvPrev.isSome = true)

/-- A generation within reach is opened with its own key. -/
theorem Receives.cipher_of_reaches
    (receives : Receives aead key session) (reaches : session.Reaches generation) :
    ∃ candidate cipher, session.candidateKey aead generation = .ok candidate ∧
        session.cipherFor generation candidate = .ok cipher ∧
        cipher.key = some (chain aead key generation) := by
  obtain ⟨near, held⟩ := reaches
  have notTooFar : ¬ generation - session.recvGeneration > maxRekeyLookahead := by
    omega
  unfold candidateKey
  by_cases ahead : generation - session.recvGeneration > 0
  · obtain ⟨next, derived, onChain⟩ :=
      CipherState.rekeyedBy_chain ahead receives.keyed
    rw [Nat.add_sub_cancel' (by omega)] at onChain
    refine ⟨some next, next, ?_, rfl, onChain⟩
    simp only [if_neg notTooFar, if_pos ahead, derived]
  · simp only [if_neg notTooFar, if_neg ahead]
    by_cases current : generation = session.recvGeneration
    · refine ⟨none, session.recv, rfl, ?_, ?_⟩
      · rw [cipherFor, if_pos current]
      · rw [current]
        exact receives.keyed
    · obtain ⟨behind, hasPrevious⟩ := held (by omega)
      obtain ⟨cipher, isPrevious⟩ := Option.isSome_iff_exists.mp hasPrevious
      obtain ⟨older, olderIs, onChain⟩ := receives.previous isPrevious
      refine ⟨none, cipher, rfl, ?_, ?_⟩
      · rw [cipherFor, if_neg current, if_pos behind, isPrevious]
      · rw [onChain]
        congr 2
        omega

/-- A cipher the session picks is within reach and has its own key. -/
theorem Receives.reaches_of_cipher
    (receives : Receives aead key session) {candidate : Option CipherState} {cipher : CipherState}
    (derived : session.candidateKey aead generation = .ok candidate)
    (picked : session.cipherFor generation candidate = .ok cipher) :
    session.Reaches generation ∧ cipher.key = some (chain aead key generation) := by
  have reaches : session.Reaches generation := by
    unfold candidateKey at derived
    dsimp only at derived
    split at derived
    · cases derived
    next notTooFar =>
    refine ⟨by omega, fun behind => ?_⟩
    rw [if_neg (by omega)] at derived
    cases derived
    rw [cipherFor, if_neg behind.ne] at picked
    split at picked
    · next adjacent =>
        refine ⟨adjacent, ?_⟩
        cases isPrevious : session.recvPrev with
        | none =>
          rw [isPrevious] at picked
          cases picked
        | some _ => rfl
    · cases picked
  obtain ⟨candidate', cipher', derived', picked', onChain⟩ := receives.cipher_of_reaches reaches
  rw [derived] at derived'
  cases derived'
  rw [picked] at picked'
  cases picked'
  exact ⟨reaches, onChain⟩

/-- Adopting a derived key moves the receiving half up the chain. -/
theorem Receives.adopt (receives : Receives aead key session) {candidate : Option CipherState}
    (derived : session.candidateKey aead generation = .ok candidate) :
    Receives aead key (session.adopt generation candidate) ∧
      (session.adopt generation candidate).recvGeneration =
        max session.recvGeneration generation := by
  unfold candidateKey at derived
  dsimp only at derived
  split at derived
  · cases derived
  split at derived
  · next ahead =>
      obtain ⟨next, stepped, onChain⟩ := CipherState.rekeyedBy_chain ahead receives.keyed
      rw [Nat.add_sub_cancel' (by omega)] at onChain
      rw [stepped] at derived
      cases derived
      refine ⟨⟨onChain, ?_⟩, ?_⟩
      · intro cipher isPrevious
        simp only [Session.adopt] at isPrevious
        split at isPrevious
        · next adjacent =>
            cases isPrevious
            refine ⟨session.recvGeneration, ?_, receives.keyed⟩
            simp only [Session.adopt]
            omega
        · cases isPrevious
      · simp only [Session.adopt]
        omega
  next notAhead =>
  cases derived
  refine ⟨receives, ?_⟩
  simp only [Session.adopt]
  omega

/-- The frame is the one its parts make, and a receiver takes it whole. -/
theorem decode_frame (wellFormed : parts.WellFormed padded) (bounded : sequence < maxValue 64)
    (sessionId : BitVec 32) (ciphertext : Bytes) :
    Header.decode ((parts.header sessionId padded sequence).bytes ++ ciphertext) =
      .ok (parts.header sessionId padded sequence) := by
  have fits : sequence < 2 ^ 64 := by
    unfold maxValue at bounded
    omega
  exact Header.decode_bytes_append _ _ (FrameParts.headerFlags_tests wellFormed).1 fits

/-- A sealed frame passes the checks made before a key is picked. -/
theorem screenHeader_frame (wellFormed : parts.WellFormed padded) (bounded : sequence < maxValue 64)
    (passes : session.replay.check sequence = .ok ()) :
    session.screenHeader (parts.frame aead key session.sessionId padded plaintextLen sequence) =
      .ok (parts.header session.sessionId padded sequence) := by
  have typed : carriesTransport (parts.header session.sessionId padded sequence).frameType = true :=
    wellFormed.transport
  have longEnough : ¬ (parts.frame aead key session.sessionId padded plaintextLen
          sequence).length < headerLen + tagLen := by
    simp only [FrameParts.frame, List.length_append, Header.bytes_length, aead.encrypt_length]
    omega
  have identified : (parts.header session.sessionId padded sequence).sessionId =
        session.sessionId :=
    rfl
  have numbered : (parts.header session.sessionId padded sequence).sequence = sequence := rfl
  have decoded : Header.decode
          (parts.frame aead key session.sessionId padded plaintextLen sequence) =
        .ok (parts.header session.sessionId padded sequence) :=
    decode_frame wellFormed bounded _ _
  simp only [screenHeader, decoded, typed, identified, longEnough,
    numbered, passes, Bool.not_true, Bool.false_eq_true, ne_eq,
    not_true_eq_false, if_false]

/-- What opening a sealed frame returns and leaves behind. -/
structure OpensAs
    (session : Session)
    (aead : Aead)
    (frame : Bytes)
    (parts : FrameParts)
    (sequence : Nat) : Prop where
  content : ∃ opened : Opened,
      (session.openFrame aead frame).1 = .ok opened ∧
        opened.header.frameType = parts.frameType ∧
        opened.messageId = parts.messageId ∧
        opened.fragment = parts.fragment ∧
        opened.len = parts.payload.length ∧
        ((session.openFrame aead frame).2.1.drop headerLen).take
          opened.len = parts.payload
  adopted : ∃ candidate,
      session.candidateKey aead (generationOf sequence) =
          .ok candidate ∧
        (session.openFrame aead frame).2.2 =
          { session.adopt (generationOf sequence) candidate with
            replay :=
              (session.adopt (generationOf sequence)
                candidate).replay.commit sequence }

/-- A frame sealed under the key of its generation opens when in reach. -/
theorem Receives.openFrame_frame
    (receives : Receives aead key session) (wellFormed : parts.WellFormed padded)
    (fits : parts.Fits padded plaintextLen) (bounded : sequence < maxValue 64)
    (passes : session.replay.check sequence = .ok ())
    (reaches : session.Reaches (generationOf sequence)) :
    session.OpensAs aead (parts.frame aead (chain aead key (generationOf sequence))
        session.sessionId padded plaintextLen sequence)
      parts sequence := by
  obtain ⟨candidate, cipher, derived, picked, onChain⟩ := receives.cipher_of_reaches reaches
  generalize isHeader :
    parts.header session.sessionId padded sequence = header
  generalize isBody :
    aead.encrypt (chain aead key (generationOf sequence)) sequence
      header.bytes (parts.plaintext padded plaintextLen) = sealedBody
  have isFrame : parts.frame aead (chain aead key (generationOf sequence))
          session.sessionId padded plaintextLen sequence =
        header.bytes ++ sealedBody := by
    rw [← isBody, ← isHeader]
    rfl
  have screened : session.screenHeader (header.bytes ++ sealedBody) = .ok header := by
    rw [← isFrame, screenHeader_frame wellFormed bounded passes, isHeader]
  have front : (header.bytes ++ sealedBody).take headerLen = header.bytes :=
    List.take_left' header.bytes_length
  have back : (header.bytes ++ sealedBody).drop headerLen = sealedBody :=
    List.drop_left' header.bytes_length
  have numbered : header.sequence = sequence := by
    rw [← isHeader]
    rfl
  have bodyLen : ¬ sealedBody.length < tagLen := by
    rw [← isBody, aead.encrypt_length]
    omega
  have decrypted : cipher.decryptAt aead header.bytes sequence sealedBody =
        .ok (parts.plaintext padded plaintextLen) := by
    rw [CipherState.decryptAt, onChain]
    dsimp only
    rw [if_neg bodyLen, ← isBody, aead.decrypt_encrypt]
  have peeled := peel_plaintext fits wellFormed (sealedBody.drop plaintextLen)
  have flagged : header.flags = parts.headerFlags padded := by
    rw [← isHeader]
    rfl
  have bare :=
    decoratedPath_wellFormed wellFormed session.sessionId sequence
      ((parts.written padded).length - parts.payload.length)
  rw [isHeader] at bare
  have outcome : session.openFrame aead (header.bytes ++ sealedBody) =
        (.ok ⟨header, parts.payload.length, parts.messageId, parts.fragment⟩,
          header.bytes ++ shiftDown
              (parts.plaintext padded plaintextLen ++ sealedBody.drop plaintextLen)
              ⟨(parts.written padded).length - parts.payload.length,
                parts.payload.length, parts.messageId,
                parts.fragment⟩,
          { session.adopt (generationOf sequence) candidate with
            replay :=
              (session.adopt (generationOf sequence) candidate).replay.commit sequence }) := by
    simp only [openFrame, screened, numbered, derived, picked, front,
      back, decrypted, FrameParts.plaintext_length fits, flagged,
      peeled, bare, Bool.false_eq_true, if_false]
  rw [isFrame]
  constructor
  · rw [outcome]
    refine ⟨_, rfl, ?_, rfl, rfl, rfl, ?_⟩
    · rw [← isHeader]
      rfl
    · exact take_shiftDown_plaintext ..
  · exact ⟨candidate, derived, by rw [outcome]⟩

/-- A header that passes is the frame's own, and new to the window. -/
theorem screenHeader_ok {header : Header} (screened : session.screenHeader frame = .ok header) :
    Header.decode frame = .ok header ∧ headerLen + tagLen ≤ frame.length ∧
      session.replay.check header.sequence = .ok () := by
  unfold screenHeader at screened
  split at screened
  · cases screened
  next decodedHeader decoded =>
  split at screened
  · cases screened
  split at screened
  · cases screened
  · split at screened
    · cases screened
    next longEnough =>
    split at screened
    · cases screened
    next passes =>
    cases screened
    exact ⟨decoded, Nat.le_of_not_lt longEnough, passes⟩

/-- The stages a frame that opens goes through. -/
structure Opening
    (aead : Aead)
    (session : Session)
    (frame : Bytes) where
  header : Header
  candidate : Option CipherState
  cipher : CipherState
  plaintext : Bytes
  peeled : Peeled
  screened : session.screenHeader frame = .ok header
  derived :
    session.candidateKey aead (generationOf header.sequence) = .ok candidate
  picked :
    session.cipherFor (generationOf header.sequence) candidate = .ok cipher
  decrypted : cipher.decryptAt aead (frame.take headerLen) header.sequence
      (frame.drop headerLen) = .ok plaintext
  peels : peel header.flags
      (plaintext ++ (frame.drop headerLen).drop plaintext.length)
      plaintext.length = .ok peeled
  plain : decoratedPath header peeled = false

namespace Opening

variable {aead : Aead} {session : Session} {frame : Bytes}

/-- What is handed to the caller. -/
def opened (opening : Opening aead session frame) : Opened :=
  ⟨opening.header, opening.peeled.len, opening.peeled.messageId,
    opening.peeled.fragment⟩

/-- The body once the payload is at its front. -/
def body (opening : Opening aead session frame) : Bytes :=
  shiftDown
    (opening.plaintext ++ (frame.drop headerLen).drop opening.plaintext.length)
    opening.peeled

/-- The session with the key of the frame, before the frame is recorded. -/
def adopted (opening : Opening aead session frame) : Session :=
  session.adopt (generationOf opening.header.sequence) opening.candidate

end Opening

/-- A frame is refused at some stage, and the session is as it was, or it goes
through all of them. -/
theorem openFrame_cases (aead : Aead) (session : Session) (frame : Bytes) :
    (∃ error buffer, session.openFrame aead frame = (.error error, buffer, session) ∧
          (buffer = frame ∨ ∃ header body,
              session.screenHeader frame = .ok header ∧ buffer = frame.take headerLen ++ body)) ∨
      ∃ opening : Opening aead session frame, session.openFrame aead frame =
          (.ok opening.opened, frame.take headerLen ++ opening.body, { opening.adopted with
              replay :=
                opening.adopted.replay.commit opening.header.sequence }) := by
  unfold openFrame
  dsimp only
  split
  · exact Or.inl ⟨_, _, rfl, Or.inl rfl⟩
  next header screened =>
  split
  · exact Or.inl ⟨_, _, rfl, Or.inl rfl⟩
  next candidate derived =>
  split
  · exact Or.inl ⟨_, _, rfl, Or.inl rfl⟩
  next cipher picked =>
  split
  · exact Or.inl ⟨_, _, rfl, Or.inl rfl⟩
  next plaintext decrypted =>
  split
  · exact Or.inl ⟨_, _, rfl, Or.inr ⟨header, _, screened, rfl⟩⟩
  next peeled peels =>
  split
  · exact Or.inl ⟨_, _, rfl, Or.inr ⟨header, _, screened, rfl⟩⟩
  next plain =>
  exact Or.inr ⟨⟨header, candidate, cipher, plaintext, peeled, screened, derived, picked,
    decrypted, peels, Bool.eq_false_iff.mpr plain⟩, rfl⟩

/-- What opens went through every stage. -/
theorem opening_of_ok {opened : Opened} (opens : (session.openFrame aead frame).1 = .ok opened) :
    ∃ opening : Opening aead session frame, opening.opened = opened ∧
        session.openFrame aead frame = (.ok opened, frame.take headerLen ++ opening.body,
            { opening.adopted with
              replay :=
                opening.adopted.replay.commit opening.header.sequence }) := by
  rcases session.openFrame_cases aead frame with
    ⟨error, buffer, refused, _⟩ | ⟨opening, outcome⟩
  · rw [refused] at opens
    cases opens
  · rw [outcome] at opens
    cases opens
    exact ⟨opening, rfl, outcome⟩

/-- Whatever opens passed the window, was in reach, and decrypted. -/
theorem Receives.openFrame_ok (receives : Receives aead key session) {opened : Opened}
    (opens : (session.openFrame aead frame).1 = .ok opened) :
    ∃ header, Header.decode frame = .ok header ∧ session.replay.check header.sequence = .ok () ∧
        session.Reaches (generationOf header.sequence) ∧
        (aead.decrypt (chain aead key (generationOf header.sequence))
          header.sequence (frame.take headerLen)
          (frame.drop headerLen)).isSome = true := by
  obtain ⟨opening, _, _⟩ := opening_of_ok opens
  obtain ⟨decoded, _, passes⟩ := screenHeader_ok opening.screened
  obtain ⟨reaches, onChain⟩ := receives.reaches_of_cipher opening.derived opening.picked
  refine ⟨opening.header, decoded, passes, reaches, ?_⟩
  have decrypted := opening.decrypted
  rw [CipherState.decryptAt, onChain] at decrypted
  dsimp only at decrypted
  split at decrypted
  · cases decrypted
  split at decrypted
  · cases decrypted
  next verified =>
  rw [verified]
  rfl

/-- A frame that does not open leaves the session as it was. -/
theorem openFrame_error {aead : Aead} {session : Session} {frame : Bytes} {error : CoreError}
    (fails : (session.openFrame aead frame).1 = .error error) :
    (session.openFrame aead frame).2.2 = session := by
  rcases session.openFrame_cases aead frame with
    ⟨_, _, refused, _⟩ | ⟨opening, outcome⟩
  · rw [refused]
  · rw [outcome] at fails
    cases fails

/-- What opens passed the screening. -/
theorem openFrame_screened
    {opened : Opened} (opens : (session.openFrame aead frame).1 = .ok opened) :
    session.screenHeader frame = .ok opened.header := by
  obtain ⟨opening, rfl, _⟩ := opening_of_ok opens
  exact opening.screened

/-- What opens has the header of its frame. -/
theorem openFrame_header {opened : Opened} (opens : (session.openFrame aead frame).1 = .ok opened) :
    Header.decode frame = .ok opened.header :=
  (screenHeader_ok (openFrame_screened opens)).1

/-- Opening a frame in place leaves its first byte alone. -/
theorem openFrame_front (aead : Aead) (session : Session) (frame : Bytes) :
    (session.openFrame aead frame).2.1.getD 0 0 = frame.getD 0 0 := by
  have front : ∀ {header : Header} (body : Bytes),
        session.screenHeader frame = .ok header →
        (frame.take headerLen ++ body).getD 0 0 = frame.getD 0 0 := by
    intro header body screened
    have decoded := (screenHeader_ok screened).1
    unfold Header.decode at decoded
    split at decoded
    · cases decoded
    next longEnough =>
    cases frame with
    | nil => simp [headerLen] at longEnough
    | cons byte rest => simp [headerLen]
  rcases session.openFrame_cases aead frame with
    ⟨_, buffer, refused, same | ⟨header, body, screened, kept⟩⟩ | ⟨opening, outcome⟩
  · rw [refused, same]
  · rw [refused, kept]
    exact front body screened
  · rw [outcome]
    exact front opening.body opening.screened

/-- Adopting a key leaves the window and the sending half alone. -/
theorem adopt_rest (session : Session) (generation : Nat) (candidate : Option CipherState) :
    (session.adopt generation candidate).replay = session.replay ∧
      (session.adopt generation candidate).send = session.send ∧
      (session.adopt generation candidate).sendSeq = session.sendSeq ∧
      (session.adopt generation candidate).sendGeneration =
        session.sendGeneration := by
  cases candidate <;> exact ⟨rfl, rfl, rfl, rfl⟩

/-- What opens is recorded. -/
theorem openFrame_replay {opened : Opened} (opens : (session.openFrame aead frame).1 = .ok opened) :
    (session.openFrame aead frame).2.2.replay = session.replay.commit opened.header.sequence := by
  obtain ⟨opening, rfl, outcome⟩ := opening_of_ok opens
  rw [outcome]
  exact congrArg (ReplayWindow.commit · _) (session.adopt_rest _ _).1

theorem SameReceiving.receiving {first second : Session} (same : SameReceiving first second) :
    first.replay = second.replay ∧ first.recvGeneration = second.recvGeneration := by
  rw [same]
  exact ⟨rfl, rfl⟩

/-- Sealing leaves alone what has been received. -/
theorem sealFramePadded_receiving
    (aead : Aead) (session : Session) (parts : FrameParts) (padding : Padding) (outLen : Nat) :
    SameReceiving (session.sealFramePadded aead parts padding outLen).2
      session := by
  rcases session.sealFramePadded_cases aead parts padding outLen with
    ⟨_, taken, _, fails⟩ | ⟨_, _, _, _, _, seals⟩
  · obtain ⟨_, _, rest⟩ := session.rekeySend_rest aead taken
    rw [fails, rest]
    rfl
  obtain ⟨_, _, rest⟩ := session.rekeySend_rest aead
    (generationOf session.sendSeq - session.sendGeneration)
  rw [seals, rest]
  rfl

/-- Opening a frame leaves the sending half alone. -/
theorem openFrame_sending (aead : Aead) (session : Session) (frame : Bytes) :
    (session.openFrame aead frame).2.2.send = session.send ∧
      (session.openFrame aead frame).2.2.sendSeq = session.sendSeq ∧
      (session.openFrame aead frame).2.2.sendGeneration =
        session.sendGeneration := by
  rcases session.openFrame_cases aead frame with
    ⟨_, _, refused, _⟩ | ⟨opening, outcome⟩
  · rw [refused]
    exact ⟨rfl, rfl, rfl⟩
  · rw [outcome]
    exact (session.adopt_rest _ _).2

/-- A frame that is not sealed takes no number. -/
theorem sealFramePadded_error {error : CoreError}
    (failed : session.sealFramePadded aead parts padding outLen = (.error error, after)) :
    after.sendSeq = session.sendSeq := by
  rcases session.sealFramePadded_cases aead parts padding outLen with
    ⟨_, taken, _, fails⟩ | ⟨_, _, _, _, _, seals⟩
  · obtain ⟨_, _, rest⟩ := session.rekeySend_rest aead taken
    rw [fails] at failed
    cases failed
    rw [rest]
  · rw [seals] at failed
    cases failed

theorem sealFramePadded_exhausted (exhausted : session.sendSeq = maxValue 64) (aead : Aead)
    (parts : FrameParts) (padding : Padding) (outLen : Nat) :
    session.sealFramePadded aead parts padding outLen = (.error .nonceExhausted, session) := by
  rw [sealFramePadded, if_pos exhausted]

/-- Without a key nothing is sealed, and the session stays as it is. -/
theorem sealFramePadded_unkeyed
    (unkeyed : session.send.key = none) (aead : Aead) (parts : FrameParts)
    (padding : Padding) (outLen : Nat) :
    ∃ error, session.sealFramePadded aead parts padding outLen = (.error error, session) := by
  have stays : ∀ steps, (session.rekeySend aead steps).2 = session := by
    rintro (_ | steps)
    · rfl
    · rw [rekeySend, CipherState.rekeyed, unkeyed]
  rcases session.sealFramePadded_cases aead parts padding outLen with
    ⟨error, taken, _, fails⟩ | ⟨_, _, _, keyed, _⟩
  · rw [stays] at fails
    exact ⟨error, fails⟩
  · rw [stays, unkeyed] at keyed
    cases keyed

end Session

end Fectp
