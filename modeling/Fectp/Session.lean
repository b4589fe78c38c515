import Fectp.Frame
import Fectp.Reliability

namespace Fectp

/-!
# The established session

Transport ciphers, the replay window, and the functions that seal and open
frames.  The AEAD is a parameter: the source takes it from another crate.

A frame is sealed into a caller's buffer; sealing takes the buffer's length
and returns the bytes written at its front.  A frame is opened in place, so
opening returns the buffer it leaves as well as its result.  Sequence numbers
and generations are `u64` in the source; sealing refuses the largest one, so
they are natural numbers here.
-/

def keyLen : Nat := 32

def tagLen : Nat := 16

/-- Nonce value reserved for deriving the next key. -/
def maxNonce : Nat := maxValue 64

/-- An AEAD whose ciphertext is its plaintext's length and a tag. -/
structure Aead where
  /-- Key, nonce, associated data and plaintext give ciphertext and tag. -/
  encrypt : Bytes → Nat → Bytes → Bytes → Bytes
  /-- The plaintext, unless the tag does not verify. -/
  decrypt : Bytes → Nat → Bytes → Bytes → Option Bytes
  encrypt_length : ∀ key nonce ad plaintext,
      (encrypt key nonce ad plaintext).length = plaintext.length + tagLen
  decrypt_length : ∀ {key nonce ad ciphertext plaintext},
      decrypt key nonce ad ciphertext = some plaintext →
      ciphertext.length = plaintext.length + tagLen
  decrypt_encrypt : ∀ key nonce ad plaintext,
      decrypt key nonce ad (encrypt key nonce ad plaintext) = some plaintext

/-- A keyed cipher with a nonce counter that transport frames bypass. -/
structure CipherState where
  key : Option Bytes
  nonce : Nat
  deriving Repr, DecidableEq

namespace CipherState

def new : CipherState where
  key := none
  nonce := 0

/-- Installs a key and resets the nonce counter. -/
def initializeKey (cipher : CipherState) (key : Bytes) : CipherState :=
  { cipher with key := some key, nonce := 0 }

/-- The next key of the chain: the encryption of zeros under this one. -/
def nextKey (aead : Aead) (key : Bytes) : Bytes :=
  (aead.encrypt key maxNonce [] (List.replicate keyLen 0)).take keyLen

/-- Derives the next key in the chain. -/
def rekeyed (aead : Aead) (cipher : CipherState) :
    Except CoreError CipherState :=
  match cipher.key with
  | none =>
      .error .notReady
  | some key =>
      .ok (new.initializeKey (nextKey aead key))

/-- The remaining steps of `rekeyedBy` once the first key is derived. -/
def rekeyedTimes (aead : Aead) :
    Nat → CipherState → Except CoreError CipherState
  | 0, cipher =>
      .ok cipher
  | steps + 1, cipher =>
      match cipher.rekeyed aead with
      | .error error =>
          .error error
      | .ok next =>
          rekeyedTimes aead steps next

/-- Derives `steps` keys along the chain, and never fewer than one. -/
def rekeyedBy (aead : Aead) (cipher : CipherState) (steps : Nat) :
    Except CoreError CipherState :=
  match cipher.rekeyed aead with
  | .error error =>
      .error error
  | .ok next =>
      rekeyedTimes aead (steps - 1) next

/-- Encrypts the plaintext at the front of a buffer and appends the tag. -/
def encryptAt
    (aead : Aead)
    (cipher : CipherState)
    (ad : Bytes)
    (counter bufLen : Nat)
    (plaintext : Bytes) :
    Except CoreError Bytes :=
  match cipher.key with
  | none =>
      .error .notReady
  | some key =>
      if bufLen < plaintext.length + tagLen then
        .error .bufferTooSmall
      else
        .ok (aead.encrypt key counter ad plaintext)

/-- Decrypts a ciphertext followed by its tag, returning the plaintext. -/
def decryptAt
    (aead : Aead)
    (cipher : CipherState)
    (ad : Bytes)
    (counter : Nat)
    (buf : Bytes) :
    Except CoreError Bytes :=
  match cipher.key with
  | none =>
      .error .notReady
  | some key =>
      if buf.length < tagLen then
        .error .messageTooShort
      else
        match aead.decrypt key counter ad buf with
        | none =>
            .error .decrypt
        | some plaintext =>
            .ok plaintext

end CipherState

/-- What a peer can do, exchanged inside the handshake. -/
structure Capabilities where
  flags : UInt8
  /-- Largest frame this peer is willing to receive, a `u16`. -/
  maxFrameSize : Nat
  codecs : UInt16
  deriving Repr, DecidableEq

def capReliable : UInt8 := 0b00000010

def capPmtuProbe : UInt8 := 0b00000100

namespace Capabilities

def supportsReliable (caps : Capabilities) : Bool :=
  caps.flags &&& capReliable != 0

def supportsPmtuProbe (caps : Capabilities) : Bool :=
  caps.flags &&& capPmtuProbe != 0

end Capabilities

/-- Tracks which sequence numbers have already been accepted. -/
structure ReplayWindow where
  highest : Nat
  bitmap : BitVec 64
  started : Bool
  deriving Repr, DecidableEq

/-- Number of sequence numbers the window covers. -/
def replayWindow : Nat := 64

namespace ReplayWindow

def new : ReplayWindow where
  highest := 0
  bitmap := 0
  started := false

/-- Checks `seq` without recording it. -/
def check (window : ReplayWindow) (seq : Nat) : Except CoreError Unit :=
  if !window.started then
    .ok ()
  else if seq > window.highest then
    .ok ()
  else
    let diff := window.highest - seq
    if diff ≥ replayWindow then
      .error .replay
    else if window.bitmap &&& (1#64 <<< diff) != 0#64 then
      .error .replay
    else
      .ok ()

/-- Records `seq` as accepted. -/
def commit (window : ReplayWindow) (seq : Nat) : ReplayWindow :=
  if !window.started then
    { started := true, highest := seq, bitmap := 1 }
  else if seq > window.highest then
    let shift := seq - window.highest
    let bitmap :=
      if shift ≥ replayWindow then
        1#64
      else
        (window.bitmap <<< shift) ||| 1#64
    { window with bitmap := bitmap, highest := seq }
  else
    let diff := window.highest - seq
    if diff < replayWindow then
      { window with bitmap := window.bitmap ||| (1#64 <<< diff) }
    else
      window

end ReplayWindow

/-- Bytes a data frame adds on top of its payload. -/
def dataOverhead : Nat := headerLen + tagLen

/-- Frames encrypted under one key before it is replaced. -/
def rekeyInterval : Nat := 1 <<< 16

/-- Generations a receiver will derive forward on the strength of one frame. -/
def maxRekeyLookahead : Nat := 4

/-- Which key in the chain a frame belongs to. -/
def generationOf (sequence : Nat) : Nat :=
  sequence / rekeyInterval

def pathTokenLen : Nat := 8

def pathFrameLen : Nat := dataOverhead + pathTokenLen

def padBlock : Nat := 64

/-- Bytes of length written before a padded plaintext. -/
def lengthFieldLen : Nat := 2

/-- The smallest frame `sealPathProbe` can build. -/
def minProbeLen : Nat := pathFrameLen + lengthFieldLen

/-- How a frame's plaintext is padded. -/
inductive Padding where
  | none
  /-- Up to the next `padBlock` boundary. -/
  | block
  /-- To exactly this many bytes of plaintext. -/
  | exact (len : Nat)
  deriving Repr, DecidableEq

namespace Padding

def isPadded : Padding → Bool
  | .none => false
  | .block => true
  | .exact _ => true

/-- The length of the padded plaintext holding `innerLen` bytes. -/
def plaintextLen (innerLen : Nat) : Padding → Except CoreError Nat
  | .none =>
      .ok innerLen
  | .block =>
      .ok ((lengthFieldLen + innerLen + (padBlock - 1)) / padBlock * padBlock)
  | .exact len =>
      if len < lengthFieldLen + innerLen then
        .error .payloadTooLarge
      else
        .ok len

end Padding

/-- What opening recovers from a frame. -/
structure Opened where
  header : Header
  /-- Plaintext length; it occupies the buffer from `headerLen` on. -/
  len : Nat
  messageId : Option MessageId
  fragment : Option Fragment
  deriving Repr, DecidableEq

/-- An established session. -/
structure Session where
  send : CipherState
  recv : CipherState
  /-- The key one generation behind `recv`. -/
  recvPrev : Option CipherState
  sendGeneration : Nat
  recvGeneration : Nat
  sessionId : BitVec 32
  sendSeq : Nat
  replay : ReplayWindow
  peerCaps : Capabilities
  remoteStatic : Bytes
  padding : Bool
  resumptionKey : Bytes
  deriving Repr, DecidableEq

/-- The content of an outgoing frame, as its caller states it. -/
structure FrameParts where
  frameType : FrameType
  payload : Bytes
  messageId : Option MessageId
  fragment : Option Fragment
  flags : UInt8
  deriving Repr, DecidableEq

namespace FrameParts

def innerLen (parts : FrameParts) : Nat :=
  (if parts.messageId.isSome then messageIdLen else 0) +
    (if parts.fragment.isSome then fragmentLen else 0) +
    parts.payload.length

/-- The caller's flags, and one for each part that is present. -/
def headerFlags (parts : FrameParts) (padded : Bool) : UInt8 :=
  let flags := parts.flags
  let flags := if parts.messageId.isSome then flags ||| flagReliable else flags
  let flags := if parts.fragment.isSome then flags ||| flagFragment else flags
  if padded then flags ||| flagPadded else flags

/-- The length that leads a padded plaintext. -/
def lengthBytes (parts : FrameParts) (padded : Bool) : Bytes :=
  if padded then LittleEndian.encode 2 parts.innerLen else []

def idBytes (parts : FrameParts) : Bytes :=
  match parts.messageId with
  | none =>
      []
  | some id =>
      LittleEndian.encode 4 id.toNat

def descriptorBytes (parts : FrameParts) : Bytes :=
  match parts.fragment with
  | none =>
      []
  | some fragment =>
      fragment.bytes

/-- The plaintext up to the end of the payload, in the order written. -/
def written (parts : FrameParts) (padded : Bool) : Bytes :=
  parts.lengthBytes padded ++
    (parts.idBytes ++ (parts.descriptorBytes ++ parts.payload))

/-- The plaintext, filled with zeros to its length. -/
def plaintext (parts : FrameParts) (padded : Bool) (len : Nat) : Bytes :=
  parts.written padded ++ List.replicate (len - (parts.written padded).length) 0

/-- The header of the frame that carries these parts. -/
def header
    (parts : FrameParts)
    (sessionId : BitVec 32)
    (padded : Bool)
    (sequence : Nat) :
    Header :=
  { Header.new parts.frameType sessionId with
    flags := parts.headerFlags padded
    sequence := sequence }

end FrameParts

namespace Session

def new
    (send recv : CipherState)
    (sessionId : BitVec 32)
    (peerCaps : Capabilities)
    (remoteStatic resumptionKey : Bytes) :
    Session where
  send := send
  recv := recv
  recvPrev := none
  sendGeneration := 0
  recvGeneration := 0
  sessionId := sessionId
  sendSeq := 0
  replay := .new
  peerCaps := peerCaps
  remoteStatic := remoteStatic
  padding := false
  resumptionKey := resumptionKey

def setPadding (session : Session) (enabled : Bool) : Session :=
  { session with padding := enabled }

/-- Largest payload that fits in one frame given the peer's frame limit. -/
def maxPayload (session : Session) : Nat :=
  session.peerCaps.maxFrameSize - dataOverhead

/-- Replaces the sending key `steps` times, keeping what was reached. -/
def rekeySend (aead : Aead) :
    Nat → Session → Except CoreError Unit × Session
  | 0, session =>
      (.ok (), session)
  | steps + 1, session =>
      match session.send.rekeyed aead with
      | .error error =>
          (.error error, session)
      | .ok next =>
          rekeySend aead steps
            { session with
              send := next
              sendGeneration := session.sendGeneration + 1 }

/--
Encrypts the parts of a frame once the sending key is current.  The buffer
is checked before anything is written, so writing the header and the fragment
descriptor cannot fail.
-/
def writeFrame
    (aead : Aead)
    (session : Session)
    (parts : FrameParts)
    (padding : Padding)
    (outLen : Nat) :
    Except CoreError Bytes × Session :=
  if padding.isPadded ∧ parts.innerLen > maxValue 16 then
    (.error .payloadTooLarge, session)
  else
    match padding.plaintextLen parts.innerLen with
    | .error error =>
        (.error error, session)
    | .ok plaintextLen =>
        if outLen < plaintextLen + dataOverhead then
          (.error .bufferTooSmall, session)
        else
          let header :=
            parts.header session.sessionId padding.isPadded session.sendSeq
          match session.send.encryptAt aead header.bytes session.sendSeq
              (plaintextLen + tagLen)
              (parts.plaintext padding.isPadded plaintextLen) with
          | .error error =>
              (.error error, session)
          | .ok ciphertext =>
              (.ok (header.bytes ++ ciphertext),
                { session with sendSeq := session.sendSeq + 1 })

/-- Builds any outgoing frame, with padding stated. -/
def sealFramePadded
    (aead : Aead)
    (session : Session)
    (parts : FrameParts)
    (padding : Padding)
    (outLen : Nat) :
    Except CoreError Bytes × Session :=
  if session.sendSeq = maxValue 64 then
    (.error .nonceExhausted, session)
  else
    -- The sequence number this frame will carry decides its key.
    match session.rekeySend aead
        (generationOf session.sendSeq - session.sendGeneration) with
    | (.error error, session) =>
        (.error error, session)
    | (.ok (), session) =>
        session.writeFrame aead parts padding outLen

/-- Builds any outgoing frame, with the session's own padding. -/
def sealFrame
    (aead : Aead)
    (session : Session)
    (parts : FrameParts)
    (outLen : Nat) :
    Except CoreError Bytes × Session :=
  session.sealFramePadded aead parts
    (if session.padding then .block else .none) outLen

def sealData
    (aead : Aead)
    (session : Session)
    (payload : Bytes)
    (flags : UInt8)
    (outLen : Nat) :
    Except CoreError Bytes × Session :=
  session.sealFrame aead ⟨.data, payload, none, none, flags⟩ outLen

def sealReliable
    (aead : Aead)
    (session : Session)
    (payload : Bytes)
    (messageId : MessageId)
    (flags : UInt8)
    (outLen : Nat) :
    Except CoreError Bytes × Session :=
  session.sealFrame aead ⟨.data, payload, some messageId, none, flags⟩ outLen

def sealFragment
    (aead : Aead)
    (session : Session)
    (payload : Bytes)
    (messageId : MessageId)
    (fragment : Fragment)
    (flags : UInt8)
    (outLen : Nat) :
    Except CoreError Bytes × Session :=
  session.sealFrame aead
    ⟨.data, payload, some messageId, some fragment, flags⟩ outLen

def sealAck (aead : Aead) (session : Session) (ack : Ack) (outLen : Nat) :
    Except CoreError Bytes × Session :=
  match ack.encode ackBlockLen with
  | .error error =>
      (.error error, session)
  | .ok block =>
      session.sealFrame aead ⟨.ack, block, none, none, 0⟩ outLen

/-- Encrypts a challenge, never padded. -/
def sealPathChallenge
    (aead : Aead)
    (session : Session)
    (token : Bytes)
    (outLen : Nat) :
    Except CoreError Bytes × Session :=
  session.sealFramePadded aead
    ⟨.pathChallenge, token, none, none, 0⟩ .none outLen

/-- Encrypts a challenge padded to a frame of `frameLen` bytes. -/
def sealPathProbe
    (aead : Aead)
    (session : Session)
    (token : Bytes)
    (frameLen outLen : Nat) :
    Except CoreError Bytes × Session :=
  if frameLen < minProbeLen then
    (.error .messageTooShort, session)
  else
    session.sealFramePadded aead
      ⟨.pathChallenge, token, none, none, 0⟩
      (.exact (frameLen - dataOverhead)) outLen

def sealPathResponse
    (aead : Aead)
    (session : Session)
    (token : Bytes)
    (outLen : Nat) :
    Except CoreError Bytes × Session :=
  session.sealFramePadded aead
    ⟨.pathResponse, token, none, none, 0⟩ .none outLen

/-- The payload's place in a decrypted body, and what stood before it. -/
structure Peeled where
  start : Nat
  len : Nat
  messageId : Option MessageId
  fragment : Option Fragment
  deriving Repr, DecidableEq

/-- The padding length, when the frame says it is padded. -/
def peelPadding (flags : UInt8) (body : Bytes) (plaintextLen : Nat) :
    Except CoreError Peeled :=
  if flags &&& flagPadded ≠ 0 then
    if plaintextLen < lengthFieldLen then
      .error .badHeader
    else
      let inner := LittleEndian.decode (body.take lengthFieldLen)
      if lengthFieldLen + inner > plaintextLen then
        .error .badHeader
      else
        .ok ⟨lengthFieldLen, inner, none, none⟩
  else
    .ok ⟨0, plaintextLen, none, none⟩

/-- The message identifier, when the frame is reliable. -/
def peelMessageId (flags : UInt8) (body : Bytes) (peeled : Peeled) :
    Except CoreError Peeled :=
  if flags &&& flagReliable ≠ 0 then
    if peeled.len < messageIdLen then
      .error .badHeader
    else
      .ok
        { peeled with
          start := peeled.start + messageIdLen
          len := peeled.len - messageIdLen
          messageId :=
            some (BitVec.ofNat 32 (LittleEndian.decode
              ((body.drop peeled.start).take messageIdLen))) }
  else
    .ok peeled

/-- The fragment descriptor, when the frame is a fragment. -/
def peelFragment (flags : UInt8) (body : Bytes) (peeled : Peeled) :
    Except CoreError Peeled :=
  if flags &&& flagFragment ≠ 0 then
    if peeled.len < fragmentLen then
      .error .badHeader
    else
      match Fragment.decode ((body.drop peeled.start).take fragmentLen) with
      | .error error =>
          .error error
      | .ok fragment =>
          .ok
            { peeled with
              start := peeled.start + fragmentLen
              len := peeled.len - fragmentLen
              fragment := some fragment }
  else
    .ok peeled

/-- Removes what was written before the payload, in the order written. -/
def peel (flags : UInt8) (body : Bytes) (plaintextLen : Nat) :
    Except CoreError Peeled :=
  match peelPadding flags body plaintextLen with
  | .error error =>
      .error error
  | .ok peeled =>
      match peelMessageId flags body peeled with
      | .error error =>
          .error error
      | .ok peeled =>
          peelFragment flags body peeled

/-- The body after the payload is shifted down to its front. -/
def shiftDown (body : Bytes) (peeled : Peeled) : Bytes :=
  if peeled.start > 0 then
    (body.drop peeled.start).take peeled.len ++ body.drop peeled.len
  else
    body

/-- A path frame that is anything but a bare token. -/
def decoratedPath (header : Header) (peeled : Peeled) : Bool :=
  let allowed : UInt8 :=
    if header.frameType = .pathChallenge then flagPadded else 0
  (header.frameType == .pathChallenge ||
      header.frameType == .pathResponse) &&
    (peeled.len != pathTokenLen ||
      peeled.messageId.isSome ||
      peeled.fragment.isSome ||
      header.flags &&& ~~~allowed != 0)

def carriesTransport : FrameType → Bool
  | .data | .close | .ack | .pathChallenge | .pathResponse => true
  | .handshakeInit | .handshakeResponse => false
  | .resumeInit | .resumeResponse => false

/-- The checks `openFrame` makes before it picks a key. -/
def screenHeader (session : Session) (frame : Bytes) :
    Except CoreError Header :=
  match Header.decode frame with
  | .error error =>
      .error error
  | .ok header =>
      if !carriesTransport header.frameType then
        .error .badHeader
      else if header.sessionId ≠ session.sessionId then
        .error .badHeader
      else if frame.length < headerLen + tagLen then
        .error .messageTooShort
      else
        match session.replay.check header.sequence with
        | .error error =>
            .error error
        | .ok () =>
            .ok header

/-- A key that has to be derived for this frame, if any. -/
def candidateKey (aead : Aead) (session : Session) (generation : Nat) :
    Except CoreError (Option CipherState) :=
  let ahead := generation - session.recvGeneration
  if ahead > maxRekeyLookahead then
    .error .sequenceTooFarAhead
  else if ahead > 0 then
    match session.recv.rekeyedBy aead ahead with
    | .error error =>
        .error error
    | .ok next =>
        .ok (some next)
  else
    .ok none

/-- The cipher a frame of this generation is opened with. -/
def cipherFor
    (session : Session)
    (generation : Nat)
    (candidate : Option CipherState) :
    Except CoreError CipherState :=
  match candidate with
  | some next =>
      .ok next
  | none =>
      if generation = session.recvGeneration then
        .ok session.recv
      else if generation + 1 = session.recvGeneration then
        match session.recvPrev with
        | none =>
            .error .decrypt
        | some previous =>
            .ok previous
      else
        .error .decrypt

/-- Adopts a derived key once a frame under it has authenticated. -/
def adopt
    (session : Session)
    (generation : Nat)
    (candidate : Option CipherState) :
    Session :=
  match candidate with
  | none =>
      session
  | some next =>
      { session with
        -- Skipping a generation leaves the key just behind underived.
        recvPrev :=
          if generation - session.recvGeneration = 1 then
            some session.recv
          else
            none
        recv := next
        recvGeneration := generation }

/--
Authenticates and decrypts a frame in place.  The buffer is untouched when
the tag does not verify, and holds the plaintext when a later check fails.
-/
def openFrame (aead : Aead) (session : Session) (frame : Bytes) :
    Except CoreError Opened × Bytes × Session :=
  match session.screenHeader frame with
  | .error error =>
      (.error error, frame, session)
  | .ok header =>
      let generation := generationOf header.sequence
      match session.candidateKey aead generation with
      | .error error =>
          (.error error, frame, session)
      | .ok candidate =>
          match session.cipherFor generation candidate with
          | .error error =>
              (.error error, frame, session)
          | .ok cipher =>
              let hdr := frame.take headerLen
              let sealedBody := frame.drop headerLen
              match cipher.decryptAt aead hdr header.sequence sealedBody with
              | .error error =>
                  (.error error, frame, session)
              | .ok plaintext =>
                  let body := plaintext ++ sealedBody.drop plaintext.length
                  match peel header.flags body plaintext.length with
                  | .error error =>
                      (.error error, hdr ++ body, session)
                  | .ok peeled =>
                      let body := shiftDown body peeled
                      if decoratedPath header peeled then
                        (.error .badHeader, hdr ++ body, session)
                      else
                        let session := session.adopt generation candidate
                        (.ok ⟨header, peeled.len, peeled.messageId,
                            peeled.fragment⟩,
                          hdr ++ body,
                          { session with
                            replay := session.replay.commit header.sequence })

end Session

end Fectp
