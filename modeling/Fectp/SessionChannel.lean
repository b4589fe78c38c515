import Fectp.Execution
import Fectp.SessionFrames

namespace Fectp

/-!
# The channel between two sessions of one handshake

Alice seals frames with any of the sealing functions, toggling padding at
will; Bob seals frames of his own and is handed byte strings to open: Alice's
frames in any order, with losses and repeats, and anything else.

The AEAD is ideal in the sense that a byte string handed to Bob opens under
the key of its generation only if one of the two sessions produced it under
that key, number and header.  The keys of the two directions never meet.
Deriving a key encrypts too, but with no associated data, and a header is
never empty.
-/

namespace SessionChannel

/-- One call of a sealing function, with its arguments. -/
inductive SealCall where
  | data (payload : Bytes) (flags : UInt8)
  | reliable (payload : Bytes) (messageId : MessageId) (flags : UInt8)
  | fragment
      (payload : Bytes)
      (messageId : MessageId)
      (descriptor : Fragment)
      (flags : UInt8)
  | ack (block : Ack)
  | pathChallenge (token : Bytes)
  | pathProbe (token : Bytes) (frameLen : Nat)
  | pathResponse (token : Bytes)
  deriving Repr, DecidableEq

namespace SealCall

/-- What the call asks the peer to receive. -/
def parts : SealCall → FrameParts
  | .data payload flags =>
      ⟨.data, payload, none, none, flags⟩
  | .reliable payload messageId flags =>
      ⟨.data, payload, some messageId, none, flags⟩
  | .fragment payload messageId descriptor flags =>
      ⟨.data, payload, some messageId, some descriptor, flags⟩
  | .ack block =>
      ⟨.ack, block.bytes, none, none, 0⟩
  | .pathChallenge token | .pathProbe token _ =>
      ⟨.pathChallenge, token, none, none, 0⟩
  | .pathResponse token =>
      ⟨.pathResponse, token, none, none, 0⟩

/-- The function the call is made to. -/
def perform (aead : Aead) (session : Session) (outLen : Nat) :
    SealCall → Except CoreError Bytes × Session
  | .data payload flags =>
      session.sealData aead payload flags outLen
  | .reliable payload messageId flags =>
      session.sealReliable aead payload messageId flags outLen
  | .fragment payload messageId descriptor flags =>
      session.sealFragment aead payload messageId descriptor flags outLen
  | .ack block =>
      session.sealAck aead block outLen
  | .pathChallenge token =>
      session.sealPathChallenge aead token outLen
  | .pathProbe token frameLen =>
      session.sealPathProbe aead token frameLen outLen
  | .pathResponse token =>
      session.sealPathResponse aead token outLen

/-- Flags a caller may pass. -/
def CallerFlags (flags : UInt8) : Prop :=
  flags = 0 ∨ flags = flagCompressed

/-- The arguments a caller is entitled to pass. -/
def WellFormed : SealCall → Prop
  | .data _ flags | .reliable _ _ flags =>
      CallerFlags flags
  | .fragment _ _ descriptor flags =>
      CallerFlags flags ∧ descriptor.Coherent
  | .ack _ =>
      True
  | .pathChallenge token | .pathProbe token _ | .pathResponse token =>
      token.length = pathTokenLen

instance decidableWellFormed :
    ∀ call : SealCall, Decidable call.WellFormed
  | .data _ _ | .reliable _ _ _ =>
      inferInstanceAs (Decidable (_ ∨ _))
  | .fragment _ _ _ _ =>
      inferInstanceAs (Decidable ((_ ∨ _) ∧ _))
  | .ack _ =>
      inferInstanceAs (Decidable True)
  | .pathChallenge _ | .pathProbe _ _ | .pathResponse _ =>
      inferInstanceAs (Decidable (_ = _))

/-- A path frame that is its token and nothing else is accepted back. -/
theorem wellFormed_token {token : Bytes} {frameType : FrameType} {padded : Bool}
    (isPath : frameType = .pathChallenge ∨ frameType = .pathResponse ∧ padded = false)
    (tokenLen : token.length = pathTokenLen) :
    FrameParts.WellFormed ⟨frameType, token, none, none, 0⟩ padded := by
  refine ⟨?_, Or.inl rfl, ?_, fun _ => ⟨tokenLen, rfl, rfl, rfl⟩, ?_⟩
  · rcases isPath with rfl | ⟨rfl, _⟩ <;> rfl
  · intro fragment absent
    cases absent
  · rintro rfl
    rcases isPath with absurd | ⟨_, unpadded⟩
    · cases absurd
    · exact unpadded

/-- A data or acknowledgement frame is accepted back, padded or not. -/
theorem wellFormed_plain {parts : FrameParts} {padded : Bool}
    (isPlain : parts.frameType = .data ∨ parts.frameType = .ack) (flags : CallerFlags parts.flags)
    (coherent : ∀ {fragment : Fragment}, parts.fragment = some fragment → fragment.Coherent) :
    parts.WellFormed padded := by
  refine ⟨?_, flags, coherent, ?_, ?_⟩
  · rcases isPlain with isType | isType <;> rw [isType] <;> rfl
  · rcases isPlain with isType | isType <;> simp [isType]
  · rcases isPlain with isType | isType <;> simp [isType]

/-- Every sealing function is the general one at its own parts. -/
theorem perform_eq (call : SealCall) (aead : Aead) (session : Session) (outLen : Nat) :
    (∃ error, call.perform aead session outLen = (.error error, session)) ∨ ∃ padding,
        call.perform aead session outLen = session.sealFramePadded aead call.parts padding outLen ∧
          (call.WellFormed → call.parts.WellFormed padding.isPadded) := by
  cases call with
  | data payload flags =>
    refine Or.inr ⟨_, rfl, fun flagged => ?_⟩
    refine wellFormed_plain (Or.inl rfl) flagged ?_
    intro fragment absent
    cases absent
  | reliable payload messageId flags =>
    refine Or.inr ⟨_, rfl, fun flagged => ?_⟩
    refine wellFormed_plain (Or.inl rfl) flagged ?_
    intro fragment absent
    cases absent
  | fragment payload messageId descriptor flags =>
    refine Or.inr ⟨_, rfl, fun flagged => ?_⟩
    refine wellFormed_plain (Or.inl rfl) flagged.1 ?_
    intro other same
    cases same
    exact flagged.2
  | ack block =>
    refine Or.inr ⟨_, rfl, fun _ => ?_⟩
    refine wellFormed_plain (Or.inr rfl) (Or.inl rfl) ?_
    intro fragment absent
    cases absent
  | pathChallenge token => exact Or.inr ⟨_, rfl, wellFormed_token (Or.inl rfl)⟩
  | pathProbe token frameLen =>
    by_cases short : frameLen < minProbeLen
    · refine Or.inl ⟨.messageTooShort, ?_⟩
      simp [perform, Session.sealPathProbe, short]
    · refine Or.inr ⟨.exact (frameLen - dataOverhead), ?_,
        wellFormed_token (Or.inl rfl)⟩
      simp [perform, Session.sealPathProbe, short, parts]
  | pathResponse token => exact Or.inr ⟨_, rfl, wellFormed_token (Or.inr ⟨rfl, rfl⟩)⟩

/-- What a sealing call does to the session that makes it. -/
theorem perform_spec {aead : Aead} {key : Bytes} {session : Session}
    (sends : Session.Sends aead key session) (call : SealCall) (outLen : Nat) :
    Session.Sends aead key (call.perform aead session outLen).2 ∧
      Session.SameReceiving (call.perform aead session outLen).2 session ∧
      ∀ {frame},
        (call.perform aead session outLen).1 = .ok frame →
        session.sendSeq < maxValue 64 ∧ ∃ padded plaintextLen,
            (call.WellFormed → call.parts.WellFormed padded) ∧ call.parts.Fits padded plaintextLen ∧
              frame = call.parts.frame aead (chain aead key (generationOf session.sendSeq))
                  session.sessionId padded plaintextLen
                  session.sendSeq := by
  rcases call.perform_eq aead session outLen with
    ⟨error, refused⟩ | ⟨padding, performed, wellFormed⟩
  · rw [refused]
    refine ⟨sends, rfl, ?_⟩
    intro frame impossible
    cases impossible
  · obtain ⟨stillSends, sameReceiving, sealed⟩ :=
      sends.sealFramePadded call.parts padding outLen
    rw [performed]
    refine ⟨stillSends, sameReceiving, ?_⟩
    intro frame isFrame
    obtain ⟨bounded, _, _, plaintextLen, fits, shape⟩ := sealed isFrame
    exact ⟨bounded, padding.isPadded, plaintextLen, wellFormed, fits, shape⟩

end SealCall

/-- One encryption a session made, as the AEAD saw it. -/
structure Encryption where
  key : Bytes
  nonce : Nat
  ad : Bytes
  ciphertext : Bytes
  deriving Repr, DecidableEq

/-- A frame Alice sealed, the call that asked for it, and its number. -/
structure Sent where
  call : SealCall
  sequence : Nat
  frame : Bytes
  deriving Repr, DecidableEq

/-- Both sessions and what has passed between them. -/
structure System where
  alice : Session
  bob : Session
  log : List Encryption
  sent : List Sent
  opened : List Bytes
  deriving Repr, DecidableEq

/-- What the handshake gives both ends. -/
structure Handshake where
  aliceKey : Bytes
  bobKey : Bytes
  sessionId : BitVec 32
  aliceCaps : Capabilities
  bobCaps : Capabilities
  aliceStatic : Bytes
  bobStatic : Bytes
  resumptionKey : Bytes

/-- One thing that may happen next. -/
inductive Event where
  | aliceSeals (call : SealCall) (outLen : Nat)
  | bobSeals (call : SealCall) (outLen : Nat)
  | alicePads (enabled : Bool)
  | bobPads (enabled : Bool)
  | bobOpens (frame : Bytes)
  deriving Repr, DecidableEq

/-- The encryption a sealed frame is, made by a session at its number. -/
def encryptionOf (before after : Session) (frame : Bytes) : Encryption where
  key := after.send.key.getD []
  nonce := before.sendSeq
  ad := frame.take headerLen
  ciphertext := frame.drop headerLen

namespace System

def initial (handshake : Handshake) : System where
  alice :=
    Session.new
      (CipherState.new.initializeKey handshake.aliceKey)
      (CipherState.new.initializeKey handshake.bobKey)
      handshake.sessionId handshake.bobCaps handshake.bobStatic
      handshake.resumptionKey
  bob :=
    Session.new
      (CipherState.new.initializeKey handshake.bobKey)
      (CipherState.new.initializeKey handshake.aliceKey)
      handshake.sessionId handshake.aliceCaps handshake.aliceStatic
      handshake.resumptionKey
  log := []
  sent := []
  opened := []

def step (aead : Aead) (system : System) : Event → System
  | .aliceSeals call outLen =>
      match call.perform aead system.alice outLen with
      | (.error _, alice) =>
          { system with alice := alice }
      | (.ok frame, alice) =>
          { system with
            alice := alice
            log := encryptionOf system.alice alice frame :: system.log
            sent := ⟨call, system.alice.sendSeq, frame⟩ :: system.sent }
  | .bobSeals call outLen =>
      match call.perform aead system.bob outLen with
      | (.error _, bob) =>
          { system with bob := bob }
      | (.ok frame, bob) =>
          { system with
            bob := bob
            log := encryptionOf system.bob bob frame :: system.log }
  | .alicePads enabled =>
      { system with alice := system.alice.setPadding enabled }
  | .bobPads enabled =>
      { system with bob := system.bob.setPadding enabled }
  | .bobOpens frame =>
      match system.bob.openFrame aead frame with
      | (.error _, _, bob) =>
          { system with bob := bob }
      | (.ok _, _, bob) =>
          { system with bob := bob, opened := frame :: system.opened }

/--
A byte string that opens under the key of the generation it claims is one of
the encryptions made under that key, number and header.
-/
def Authentic
    (aead : Aead)
    (aliceKey : Bytes)
    (system : System)
    (frame : Bytes) : Prop :=
  match Header.decode frame with
  | .error _ =>
      True
  | .ok header =>
      let key := chain aead aliceKey (generationOf header.sequence)
      (aead.decrypt key header.sequence (frame.take headerLen)
          (frame.drop headerLen)).isSome = true →
        ⟨key, header.sequence, frame.take headerLen,
          frame.drop headerLen⟩ ∈ system.log

instance decidableAuthentic
    (aead : Aead)
    (aliceKey : Bytes)
    (system : System)
    (frame : Bytes) :
    Decidable (system.Authentic aead aliceKey frame) :=
  match decoded : Header.decode frame with
  | .error _ =>
      isTrue (by simp only [Authentic, decoded])
  | .ok header =>
      let key := chain aead aliceKey (generationOf header.sequence)
      decidable_of_iff
        ((aead.decrypt key header.sequence (frame.take headerLen)
            (frame.drop headerLen)).isSome = true →
          ⟨key, header.sequence, frame.take headerLen,
            frame.drop headerLen⟩ ∈ system.log)
        (by simp only [Authentic, decoded, key])

/-- Callers pass what they are entitled to, and the AEAD is ideal. -/
def Allowed (aead : Aead) (aliceKey : Bytes) (system : System) :
    Event → Prop
  | .aliceSeals call _ =>
      call.WellFormed
  | .bobSeals _ _ | .alicePads _ | .bobPads _ =>
      True
  | .bobOpens frame =>
      system.Authentic aead aliceKey frame

instance decidableAllowed (aead : Aead) (aliceKey : Bytes) (system : System) :
    ∀ event, Decidable (system.Allowed aead aliceKey event)
  | .aliceSeals call _ =>
      call.decidableWellFormed
  | .bobSeals _ _ | .alicePads _ | .bobPads _ =>
      isTrue trivial
  | .bobOpens frame =>
      system.decidableAuthentic aead aliceKey frame

/-- The generations a sequence number can name. -/
def maxGeneration : Nat :=
  generationOf (maxValue 64)

/-- No key of one direction is ever a key of the other. -/
def DirectionsDistinct (aead : Aead) (aliceKey bobKey : Bytes) : Prop :=
  ∀ first second,
    first ≤ maxGeneration →
    second ≤ maxGeneration →
    chain aead aliceKey first ≠ chain aead bobKey second

/-- What opening owes the two sessions, for one byte string. -/
structure OpensCorrectly
    (aead : Aead)
    (system : System)
    (frame : Bytes) : Prop where
  genuine : ∀ {opened : Opened},
      (system.bob.openFrame aead frame).1 = .ok opened →
      ∃ sent ∈ system.sent, sent.frame = frame
  content : ∀ {opened : Opened} {sent : Sent},
      (system.bob.openFrame aead frame).1 = .ok opened →
      sent ∈ system.sent →
      sent.frame = frame →
      opened.header.frameType = sent.call.parts.frameType ∧
        opened.messageId = sent.call.parts.messageId ∧
        opened.fragment = sent.call.parts.fragment ∧
        opened.len = sent.call.parts.payload.length ∧
        ((system.bob.openFrame aead frame).2.1.drop headerLen).take
          opened.len = sent.call.parts.payload
  once : ∀ {opened : Opened},
      (system.bob.openFrame aead frame).1 = .ok opened →
      frame ∉ system.opened
  exactly : ∀ {sent : Sent},
      sent ∈ system.sent →
      sent.frame = frame →
      ((∃ opened, (system.bob.openFrame aead frame).1 = .ok opened) ↔
        system.bob.replay.check sent.sequence = .ok () ∧
          generationOf sent.sequence ≤
            system.bob.recvGeneration + maxRekeyLookahead ∧
          (generationOf sent.sequence < system.bob.recvGeneration →
            system.bob.recvPrev.isSome = true))

/-- Every byte string handed to Bob is opened correctly. -/
def Correct (aead : Aead) (system : System) : Event → Prop
  | .bobOpens frame =>
      system.OpensCorrectly aead frame
  | .aliceSeals _ _ | .bobSeals _ _ | .alicePads _ | .bobPads _ =>
      True

/-- A number some opened frame carried. -/
def OpenedNumber (system : System) (sequence : Nat) : Prop :=
  ∃ frame ∈ system.opened,
    ∃ header, Header.decode frame = .ok header ∧ header.sequence = sequence

/-- What every admitted run maintains. -/
structure Invariant
    (aead : Aead)
    (aliceKey bobKey : Bytes)
    (system : System) : Prop where
  aliceSends : Session.Sends aead aliceKey system.alice
  bobSends : Session.Sends aead bobKey system.bob
  bobReceives : Session.Receives aead aliceKey system.bob
  sameSession : system.alice.sessionId = system.bob.sessionId
  sentShape : ∀ {sent : Sent},
      sent ∈ system.sent →
      sent.sequence < maxValue 64 ∧
        ∃ padded plaintextLen,
          sent.call.parts.WellFormed padded ∧
            sent.call.parts.Fits padded plaintextLen ∧
            sent.frame =
              sent.call.parts.frame aead
                (chain aead aliceKey (generationOf sent.sequence))
                system.bob.sessionId padded plaintextLen sent.sequence
  logged : ∀ {entry : Encryption},
      entry ∈ system.log →
      (∃ sent ∈ system.sent,
          sent.frame = entry.ad ++ entry.ciphertext) ∨
        ∃ generation,
          generation ≤ maxGeneration ∧ entry.key = chain aead bobKey generation
  tracks : system.bob.replay.Tracks system.OpenedNumber
  current : 0 < system.bob.recvGeneration →
      ∃ sequence,
        system.OpenedNumber sequence ∧
          generationOf sequence = system.bob.recvGeneration

theorem invariant_initial (aead : Aead) (handshake : Handshake) :
    Invariant aead handshake.aliceKey handshake.bobKey (initial handshake) := by
  have nothingOpened : (initial handshake).OpenedNumber = fun _ => False := by
    funext sequence
    simp [OpenedNumber, initial]
  refine
    { aliceSends := ⟨rfl, Nat.zero_le _, Nat.zero_le _⟩
      bobSends := ⟨rfl, Nat.zero_le _, Nat.zero_le _⟩
      bobReceives := ⟨rfl, ?_⟩
      sameSession := rfl
      sentShape := ?_
      logged := ?_
      tracks := ?_
      current := ?_ }
  · intro cipher impossible
    cases impossible
  · intro sent impossible
    cases impossible
  · intro entry impossible
    cases impossible
  · rw [nothingOpened]
    exact ReplayWindow.tracks_new
  · intro positive
    cases positive

namespace Invariant

variable {aead : Aead} {aliceKey bobKey : Bytes} {system : System}

/-- The frame a `Sent` names carries its own number. -/
theorem decode_sent (invariant : Invariant aead aliceKey bobKey system) {sent : Sent}
    (member : sent ∈ system.sent) :
    ∃ header, Header.decode sent.frame = .ok header ∧ header.sequence = sent.sequence := by
  obtain ⟨bounded, padded, plaintextLen, wellFormed, _, isFrame⟩ := invariant.sentShape member
  rw [isFrame]
  exact ⟨_, Session.decode_frame wellFormed bounded _ _, rfl⟩

/--
A number the window accepts is at most one generation behind: the window is
narrower than a key's lifetime.
-/
theorem adjacent_of_check (invariant : Invariant aead aliceKey bobKey system) {sequence : Nat}
    (passes : system.bob.replay.check sequence = .ok ())
    (behind : generationOf sequence < system.bob.recvGeneration) :
    generationOf sequence + 1 = system.bob.recvGeneration := by
  obtain ⟨top, topOpened, topCurrent⟩ := invariant.current (Nat.zero_lt_of_lt behind)
  have near := ((invariant.tracks.check_iff sequence).mp passes).2 top topOpened
  have interval : rekeyInterval = 65536 := rfl
  have narrow : generationOf top ≤ generationOf sequence + 1 := by
    simp only [generationOf, interval, replayWindow] at near ⊢
    omega
  omega

/-- One of Alice's frames opens to what she sealed when Bob can reach it. -/
theorem opensAs
    (invariant : Invariant aead aliceKey bobKey system) {sent : Sent} (member : sent ∈ system.sent)
    (passes : system.bob.replay.check sent.sequence = .ok ())
    (reaches : system.bob.Reaches (generationOf sent.sequence)) :
    system.bob.OpensAs aead sent.frame sent.call.parts sent.sequence := by
  obtain ⟨bounded, padded, plaintextLen, wellFormed, fits, isFrame⟩ := invariant.sentShape member
  rw [isFrame]
  exact invariant.bobReceives.openFrame_frame wellFormed fits bounded passes reaches

variable {frame : Bytes}

section

variable (invariant : Invariant aead aliceKey bobKey system)

include invariant

/-- Whatever opens is a frame Alice sealed, and Bob could reach it. -/
theorem sent_of_ok (directions : DirectionsDistinct aead aliceKey bobKey)
    (authentic : system.Authentic aead aliceKey frame) {opened : Opened}
    (opens : (system.bob.openFrame aead frame).1 = .ok opened) :
    ∃ sent ∈ system.sent, sent.frame = frame ∧ system.bob.replay.check sent.sequence = .ok () ∧
        system.bob.Reaches (generationOf sent.sequence) := by
  obtain ⟨header, decoded, passes, reaches, decrypts⟩ := invariant.bobReceives.openFrame_ok opens
  simp only [Authentic, decoded] at authentic
  rcases invariant.logged (authentic decrypts) with
    ⟨sent, member, isFrame⟩ | ⟨generation, bounded, sameKey⟩
  · rw [List.take_append_drop] at isFrame
    obtain ⟨sentHeader, sentDecoded, numbered⟩ := invariant.decode_sent member
    rw [isFrame, decoded] at sentDecoded
    cases sentDecoded
    rw [numbered] at passes reaches
    exact ⟨sent, member, isFrame, passes, reaches⟩
  · -- A frame of Bob's own cannot be reflected: its key is not Alice's.
    have inRange : generationOf header.sequence ≤ maxGeneration :=
      Nat.div_le_div_right (Header.decode_sequence_le decoded)
    exact (directions _ _ inRange bounded sameKey).elim

/-- Under the invariant an ideal AEAD gives everything opening owes. -/
theorem opensCorrectly (directions : DirectionsDistinct aead aliceKey bobKey)
    (authentic : system.Authentic aead aliceKey frame) :
    system.OpensCorrectly aead frame where
  genuine := by
    intro opened opens
    obtain ⟨sent, member, isFrame, _⟩ := invariant.sent_of_ok directions authentic opens
    exact ⟨sent, member, isFrame⟩
  content := by
    intro opened sent opens member isFrame
    obtain ⟨other, otherMember, otherFrame, passes, reaches⟩ :=
      invariant.sent_of_ok directions authentic opens
    -- Equal frames carry equal numbers.
    obtain ⟨header, decoded, numbered⟩ := invariant.decode_sent member
    obtain ⟨otherHeader, otherDecoded, otherNumbered⟩ := invariant.decode_sent otherMember
    rw [otherFrame, ← isFrame, decoded] at otherDecoded
    cases otherDecoded
    rw [← otherNumbered, numbered] at passes reaches
    obtain ⟨answer, answered, content⟩ := (invariant.opensAs member passes reaches).content
    rw [isFrame] at answered content
    rw [opens] at answered
    cases answered
    exact content
  once := by
    intro opened opens openedBefore
    obtain ⟨sent, member, isFrame, passes, _⟩ := invariant.sent_of_ok directions authentic opens
    obtain ⟨header, decoded, numbered⟩ := invariant.decode_sent member
    rw [isFrame] at decoded
    exact ((invariant.tracks.check_iff sent.sequence).mp passes).1
      ⟨frame, openedBefore, header, decoded, numbered⟩
  exactly := by
    intro sent member isFrame
    constructor
    · rintro ⟨opened, opens⟩
      obtain ⟨header, decoded, passes, reaches, _⟩ := invariant.bobReceives.openFrame_ok opens
      obtain ⟨sentHeader, sentDecoded, numbered⟩ := invariant.decode_sent member
      rw [isFrame, decoded] at sentDecoded
      cases sentDecoded
      rw [numbered] at passes reaches
      exact ⟨passes, reaches.1, fun behind => (reaches.2 behind).2⟩
    · rintro ⟨passes, near, held⟩
      have reaches : system.bob.Reaches (generationOf sent.sequence) :=
        ⟨near, fun behind =>
          ⟨invariant.adjacent_of_check passes behind, held behind⟩⟩
      obtain ⟨opened, opens, _⟩ := (invariant.opensAs member passes reaches).content
      rw [isFrame] at opens
      exact ⟨opened, opens⟩

theorem aliceSeals {call : SealCall} (wellFormed : call.WellFormed) (outLen : Nat) :
    Invariant aead aliceKey bobKey (system.step aead (.aliceSeals call outLen)) := by
  obtain ⟨sends, same, sealed⟩ := call.perform_spec invariant.aliceSends outLen
  have sameId : (call.perform aead system.alice outLen).2.sessionId =
        system.alice.sessionId := by
    rw [same]
  simp only [step]
  split
  · next error alice failed =>
      rw [failed] at sends sameId
      exact
        { invariant with
          aliceSends := sends
          sameSession := sameId.trans invariant.sameSession }
  next frame alice wrote =>
  rw [wrote] at sends sameId sealed
  obtain ⟨bounded, padded, plaintextLen, formed, fits, shape⟩ := sealed rfl
  refine
    { invariant with
      aliceSends := sends
      sameSession := sameId.trans invariant.sameSession
      sentShape := ?_
      logged := ?_ }
  · intro sent member
    rcases List.mem_cons.mp member with rfl | older
    · refine ⟨bounded, padded, plaintextLen, formed wellFormed,
        fits, ?_⟩
      rw [← invariant.sameSession]
      exact shape
    · exact invariant.sentShape older
  · intro entry member
    rcases List.mem_cons.mp member with rfl | older
    · refine Or.inl ⟨_, List.mem_cons_self, ?_⟩
      exact (List.take_append_drop headerLen frame).symm
    rcases invariant.logged older with
      ⟨sent, sentMember, isFrame⟩ | bobs
    · exact Or.inl ⟨sent, List.mem_cons_of_mem _ sentMember, isFrame⟩
    · exact Or.inr bobs

theorem bobSeals (call : SealCall) (outLen : Nat) :
    Invariant aead aliceKey bobKey (system.step aead (.bobSeals call outLen)) := by
  obtain ⟨sends, same, _⟩ := call.perform_spec invariant.bobSends outLen
  -- Everything Bob receives with is as it was.
  have kept : ∀ bob : Session, bob = (call.perform aead system.bob outLen).2 →
        Invariant aead aliceKey bobKey { system with bob := bob } := by
    rintro bob rfl
    refine
      { aliceSends := invariant.aliceSends
        bobSends := sends
        bobReceives := ?_
        sameSession := ?_
        sentShape := ?_
        logged := invariant.logged
        tracks := ?_
        current := ?_ }
    all_goals dsimp only
    all_goals rw [same]
    · exact ⟨invariant.bobReceives.keyed, invariant.bobReceives.previous⟩
    · exact invariant.sameSession
    · exact invariant.sentShape
    · exact invariant.tracks
    · exact invariant.current
  simp only [step]
  split
  · next error bob failed => exact kept bob (by rw [failed])
  next frame bob wrote =>
  refine { kept bob (by rw [wrote]) with logged := ?_ }
  intro entry member
  rcases List.mem_cons.mp member with rfl | older
  · rw [wrote] at sends
    refine Or.inr ⟨bob.sendGeneration, ?_, ?_⟩
    · exact sends.notAhead.trans (Nat.div_le_div_right sends.bounded)
    · simp only [encryptionOf]
      rw [sends.keyed]
      rfl
  · exact invariant.logged older

theorem bobOpens (directions : DirectionsDistinct aead aliceKey bobKey)
    (authentic : system.Authentic aead aliceKey frame) :
    Invariant aead aliceKey bobKey (system.step aead (.bobOpens frame)) := by
  simp only [step]
  split
  · next error buffer bob failed =>
      have unchanged : bob = system.bob := by
        have same := @Session.openFrame_error aead system.bob frame error (by rw [failed])
        rwa [failed] at same
      rw [unchanged]
      exact invariant
  next opened buffer bob opens =>
  obtain ⟨sent, member, isFrame, passes, reaches⟩ :=
    invariant.sent_of_ok directions authentic (by rw [opens])
  obtain ⟨candidate, derived, after⟩ := (invariant.opensAs member passes reaches).adopted
  obtain ⟨header, decoded, numbered⟩ := invariant.decode_sent member
  rw [isFrame] at after decoded
  rw [opens] at after
  dsimp only at after
  obtain ⟨receives, generation⟩ := invariant.bobReceives.adopt derived
  have sending : bob.send = system.bob.send ∧ bob.sendGeneration = system.bob.sendGeneration ∧
        bob.sendSeq = system.bob.sendSeq ∧
        bob.sessionId = system.bob.sessionId ∧
        bob.replay = system.bob.replay.commit sent.sequence := by
    rw [after]
    cases candidate <;> exact ⟨rfl, rfl, rfl, rfl, rfl⟩
  obtain ⟨send, sendGeneration, sendSeq, sessionId, replay⟩ := sending
  have recvGeneration : bob.recvGeneration =
        max system.bob.recvGeneration (generationOf sent.sequence) := by
    rw [after]
    exact generation
  have openedNow : ({ system with
          bob := bob
          opened := frame :: system.opened } : System).OpenedNumber =
        fun other =>
          system.OpenedNumber other ∨ other = sent.sequence := by
    funext other
    simp only [OpenedNumber, List.mem_cons, exists_eq_or_imp,
      decoded, Except.ok.injEq, exists_eq_left', numbered]
    exact propext (or_comm.trans (or_congr Iff.rfl eq_comm))
  refine
    { aliceSends := invariant.aliceSends
      bobSends := ?_
      bobReceives := ?_
      sameSession := ?_
      sentShape := ?_
      logged := invariant.logged
      tracks := ?_
      current := ?_ }
  · refine ⟨?_, ?_, ?_⟩
    · rw [send, sendGeneration]
      exact invariant.bobSends.keyed
    · rw [sendGeneration, sendSeq]
      exact invariant.bobSends.notAhead
    · rw [sendSeq]
      exact invariant.bobSends.bounded
  · rw [after]
    exact ⟨receives.keyed, receives.previous⟩
  · rw [sessionId]
    exact invariant.sameSession
  · rw [sessionId]
    exact invariant.sentShape
  · rw [openedNow, replay]
    exact invariant.tracks.commit passes
  · rw [openedNow, recvGeneration]
    intro positive
    by_cases newer :
        system.bob.recvGeneration ≤ generationOf sent.sequence
    · exact ⟨sent.sequence, Or.inr rfl, (max_eq_right newer).symm⟩
    · rw [max_eq_left (Nat.le_of_not_le newer)] at positive ⊢
      obtain ⟨top, topOpened, topCurrent⟩ := invariant.current positive
      exact ⟨top, Or.inl topOpened, topCurrent⟩

end

/-- One step of the system preserves the invariant. -/
theorem step (directions : DirectionsDistinct aead aliceKey bobKey) {event : Event}
    (allowed : system.Allowed aead aliceKey event)
    (invariant : Invariant aead aliceKey bobKey system) :
    Invariant aead aliceKey bobKey (system.step aead event) := by
  cases event with
  | aliceSeals call outLen => exact invariant.aliceSeals allowed outLen
  | bobSeals call outLen => exact invariant.bobSeals call outLen
  | alicePads enabled =>
    exact { invariant with
      aliceSends :=
        ⟨invariant.aliceSends.keyed, invariant.aliceSends.notAhead, invariant.aliceSends.bounded⟩ }
  | bobPads enabled =>
    exact { invariant with
      bobSends :=
        ⟨invariant.bobSends.keyed, invariant.bobSends.notAhead, invariant.bobSends.bounded⟩
      bobReceives := ⟨invariant.bobReceives.keyed, invariant.bobReceives.previous⟩ }
  | bobOpens frame => exact invariant.bobOpens directions allowed

/-- Under the invariant every allowed event is correct. -/
theorem correct (directions : DirectionsDistinct aead aliceKey bobKey) {event : Event}
    (allowed : system.Allowed aead aliceKey event)
    (invariant : Invariant aead aliceKey bobKey system) :
    system.Correct aead event := by
  cases event with
  | bobOpens frame => exact invariant.opensCorrectly directions allowed
  | _ => trivial

end Invariant

/--
In every run in which callers pass what they are entitled to, the AEAD is
ideal and the two directions never share a key: whatever Bob opens is a frame
Alice sealed and comes back as she sealed it, nothing opens twice, and one of
her frames opens exactly when the replay window accepts its number, at most
four generations have been skipped, and the key behind is held if needed.
-/
theorem channel_correct
    (aead : Aead)
    (handshake : Handshake)
    (directions :
      DirectionsDistinct aead handshake.aliceKey handshake.bobKey)
    {events : List Event}
    (admitted :
      Execution.Admits (step aead) (Allowed aead handshake.aliceKey)
        (initial handshake) events) :
    Execution.Admits (step aead) (Correct aead)
      (initial handshake) events :=
  Execution.admits_of_invariant
    (fun allowed invariant =>
      Invariant.step directions allowed invariant)
    (fun allowed invariant =>
      Invariant.correct directions allowed invariant)
    admitted (invariant_initial aead handshake)

/-! ### A run, with an AEAD small enough to evaluate -/

/-- Shifts every byte by the key's first and repeats a checksum. -/
def checksumTag (key : Bytes) (nonce : Nat) (ad text : Bytes) : Bytes :=
  List.replicate tagLen
    (UInt8.ofNat nonce + (key ++ ad ++ text).foldl (3 * · + ·) 1)

def checksumAead : Aead where
  encrypt := fun key nonce ad plaintext =>
    plaintext.map (· + key.headD 0) ++ checksumTag key nonce ad plaintext
  decrypt := fun key nonce ad ciphertext =>
    let plaintext :=
      (ciphertext.take (ciphertext.length - tagLen)).map (· - key.headD 0)
    if ciphertext =
        plaintext.map (· + key.headD 0) ++
          checksumTag key nonce ad plaintext then
      some plaintext
    else
      none
  encrypt_length := by
    intro key nonce ad plaintext
    simp [checksumTag]
  decrypt_length := by
    intro key nonce ad ciphertext plaintext verified
    dsimp only at verified
    split at verified
    · next same =>
        cases verified
        have lengths := congrArg List.length same
        simpa [checksumTag] using lengths
    · cases verified
  decrypt_encrypt := by
    intro key nonce ad plaintext
    have body : ((plaintext.map (· + key.headD 0) ++
            checksumTag key nonce ad plaintext).take
          ((plaintext.map (· + key.headD 0) ++
            checksumTag key nonce ad plaintext).length - tagLen)).map
          (· - key.headD 0) = plaintext := by
      rw [List.take_left' (by simp [checksumTag]), List.map_map]
      simp [Function.comp_def]
    simp only [body, if_true]

/-- Rekeying keeps the first byte, so the two directions stay apart. -/
theorem checksumAead_chain_head (key : Bytes) (generation : Nat) :
    (chain checksumAead key generation).headD 0 = key.headD 0 := by
  induction generation with
  | zero => rfl
  | succ generation inductionHypothesis =>
    rw [← inductionHypothesis]
    simp [chain, CipherState.nextKey, checksumAead, keyLen, List.replicate_succ]

theorem checksumAead_directions :
    DirectionsDistinct checksumAead [1] [2] := by
  intro first second _ _ same
  have heads := congrArg (·.headD (0 : UInt8)) same
  simp only [checksumAead_chain_head] at heads
  cases heads

def smallHandshake : Handshake where
  aliceKey := [1]
  bobKey := [2]
  sessionId := 5
  aliceCaps := ⟨0, 1200, 0⟩
  bobCaps := ⟨0, 1200, 0⟩
  aliceStatic := []
  bobStatic := []
  resumptionKey := []

/-- Frames of every kind of wrapping, from both sides. -/
def smallSeals : List Event :=
  [.aliceSeals (.reliable [10, 20] 7 flagCompressed) 100,
    .alicePads true,
    .aliceSeals (.fragment [30] 8 ⟨1, 0, 2⟩ 0) 100,
    .aliceSeals (.pathProbe [1, 2, 3, 4, 5, 6, 7, 8] 45) 100,
    .bobSeals (.data [40] 0) 100]

/-- Everything sealed is opened newest first, each frame twice. -/
def smallExchange : List Event :=
  let sealedBy := Execution.run (step checksumAead)
    (initial smallHandshake) smallSeals
  smallSeals ++
    sealedBy.log.flatMap (fun entry =>
      [.bobOpens (entry.ad ++ entry.ciphertext),
        .bobOpens (entry.ad ++ entry.ciphertext)]) ++
    [.bobOpens [0x13, 0, 5]]

theorem channel_correct_of_small_exchange :
    Execution.Admits (step checksumAead) (Correct checksumAead)
        (initial smallHandshake) smallExchange ∧
      (Execution.run (step checksumAead) (initial smallHandshake)
        smallExchange).opened.length = 3 :=
  ⟨channel_correct checksumAead smallHandshake checksumAead_directions
      (by decide +kernel),
    by decide +kernel⟩

end System

end SessionChannel

end Fectp
