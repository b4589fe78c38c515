import Fectp.Outbox
import Fectp.Reassembly
import Fectp.Session

namespace Fectp

/-!
# One peer's protocol state

The coding, sealing and reliability logic a client connection and one peer of
a server share, independent of how bytes reach it.  The codec is a parameter,
as the AEAD is.  The coding scratch buffers carry nothing from one call to
the next and are left out.
-/

/-- Payload coding: `compress::encode_payload` and `decode_payload`. -/
structure Codec where
  /-- The codec header and coded bytes, if coding pays. -/
  encodePayload : Bytes → PayloadType → Capabilities → Option Bytes
  /-- The payload length a coded payload's header states. -/
  originalLen : Bytes → Except Error Nat
  /-- The payload, into a buffer of the length its header states. -/
  decodePayload : Bytes → Except Error Bytes

/-- Whatever the codec produces, it reverses. -/
def Codec.RoundTrips (codec : Codec) : Prop :=
  ∀ data payloadType caps coded,
    codec.encodePayload data payloadType caps = some coded →
    codec.decodePayload coded = .ok data

/-- The primitives a peer is built on. -/
structure Suite where
  aead : Aead
  codec : Codec

/-- Misses in a row before coding is assumed not to pay. -/
def codingMissLimit : Nat := 4

/-- Sends skipped after that, before trying once more. -/
def codingProbeInterval : Nat := 32

/-- Whether coding is worth attempting, and what the last attempts did. -/
structure CodingDecision where
  misses : Nat
  skips : Nat
  shape : PayloadType
  deriving Repr, DecidableEq

namespace CodingDecision

def new : CodingDecision where
  misses := 0
  skips := 0
  shape := .opaqueBytes

def shouldCode (coding : CodingDecision) (payloadType : PayloadType) :
    Bool × CodingDecision :=
  if payloadType ≠ coding.shape then
    (true, { misses := 0, skips := 0, shape := payloadType })
  else if coding.skips > 0 then
    (false, { coding with skips := coding.skips - 1 })
  else
    (true, coding)

def record (coding : CodingDecision) (paid : Bool) : CodingDecision :=
  if paid then
    { coding with misses := 0, skips := 0 }
  else if coding.misses + 1 ≥ codingMissLimit then
    { coding with misses := 0, skips := codingProbeInterval }
  else
    { coding with misses := coding.misses + 1 }

end CodingDecision

/-- What sealing a payload reads and changes. -/
structure Sealing where
  session : Session
  coding : CodingDecision
  deriving Repr, DecidableEq

namespace Sealing

variable {ω : Type*}

/-- Largest uncompressed payload that fits in one frame. -/
def maxPayload (sealing : Sealing) (datagramLimit : Nat) : Nat :=
  min sealing.session.maxPayload (datagramLimit - dataOverhead)

/-- Largest payload once the optional plaintext parts are paid for. -/
def payloadRoom
    (sealing : Sealing)
    (datagramLimit : Nat)
    (reliable fragmented : Bool) :
    Nat :=
  let room := sealing.maxPayload datagramLimit
  let room := if reliable then room - messageIdLen else room
  if fragmented then room - fragmentLen else room

/-- Largest slice of a fragmented message that fits in one frame. -/
def maxFragmentPayload (sealing : Sealing) (datagramLimit : Nat) : Nat :=
  sealing.payloadRoom datagramLimit true true

/-- An attempt at coding, unless the stream has shown it does not pay. -/
def attemptCoding
    (codec : Codec)
    (sealing : Sealing)
    (outgoing : Outgoing)
    (mustTry : Bool) :
    Option Bytes × CodingDecision :=
  let (worthwhile, coding) := sealing.coding.shouldCode outgoing.payloadType
  if worthwhile || mustTry then
    let attempt :=
      codec.encodePayload outgoing.data outgoing.payloadType
        sealing.session.peerCaps
    (attempt, if mustTry then coding else coding.record attempt.isSome)
  else
    (none, coding)

/-- The frame a payload goes out as, coded if that fits. -/
def plan (outgoing : Outgoing) (coded : Option Bytes) (limit : Nat) :
    Except Error FrameParts :=
  let frame (payload : Bytes) (flags : UInt8) : FrameParts :=
    { frameType := .data
      payload := payload
      messageId := outgoing.messageId
      -- Only a reliable message is ever sealed as a fragment.
      fragment := if outgoing.messageId.isSome then outgoing.fragment else none
      flags := flags }
  match coded.filter (·.length ≤ limit) with
  | some coded =>
      .ok (frame coded flagCompressed)
  | none =>
      if outgoing.data.length > limit then
        .error (.payloadTooLarge outgoing.data.length limit)
      else
        .ok (frame outgoing.data 0)

/-- Decides the frame a payload goes out as, remembering what coding did. -/
def planPayload (codec : Codec) (sealing : Sealing) (outgoing : Outgoing) :
    Except Error FrameParts × Sealing :=
  let limit :=
    sealing.payloadRoom outgoing.limit outgoing.messageId.isSome
      outgoing.fragment.isSome
  let (coded, coding) :=
    sealing.attemptCoding codec outgoing (outgoing.data.length > limit)
  (plan outgoing coded limit, { sealing with coding := coding })

/-- Codes if it pays, then seals into a buffer of `txLen` bytes. -/
def sealPayload
    (suite : Suite)
    (sealing : Sealing)
    (outgoing : Outgoing)
    (txLen : Nat) :
    Except Error Bytes × Sealing :=
  match sealing.planPayload suite.codec outgoing with
  | (.error error, sealing) =>
      (.error error, sealing)
  | (.ok parts, sealing) =>
      match sealing.session.sealFrame suite.aead parts txLen with
      | (.error error, session) =>
          (.error (.protocol error), { sealing with session := session })
      | (.ok frame, session) =>
          (.ok frame, { sealing with session := session })

/-- Seals a payload and hands the frame to the caller's closure. -/
def emit
    (suite : Suite)
    (txLen : Nat)
    (send : ω → Bytes → Except Error Unit × ω)
    (world : Sealing × ω)
    (outgoing : Outgoing) :
    Except Error Unit × (Sealing × ω) :=
  match world.1.sealPayload suite outgoing txLen with
  | (.error error, sealing) =>
      (.error error, sealing, world.2)
  | (.ok frame, sealing) =>
      match send world.2 frame with
      | (result, socket) =>
          (result, sealing, socket)

/-- Coding that was attempted and paid is the codec's own. -/
theorem attemptCoding_some
    {codec : Codec} {sealing : Sealing} {outgoing : Outgoing} {mustTry : Bool} {coded : Bytes}
    (paid : (sealing.attemptCoding codec outgoing mustTry).1 = some coded) :
    codec.encodePayload outgoing.data outgoing.payloadType
      sealing.session.peerCaps = some coded := by
  unfold attemptCoding at paid
  dsimp only at paid
  split at paid
  · exact paid
  · cases paid

/-- The planned frame is what was asked for, coded or plain. -/
theorem planPayload_ok
    {codec : Codec} {sealing : Sealing} {outgoing : Outgoing} {parts : FrameParts}
    (planned : (sealing.planPayload codec outgoing).1 = .ok parts) :
    parts.frameType = .data ∧ parts.messageId = outgoing.messageId ∧
      parts.fragment = (if outgoing.messageId.isSome then outgoing.fragment else none) ∧
      ((parts.flags = flagCompressed ∧ ∃ caps,
            codec.encodePayload outgoing.data outgoing.payloadType caps = some parts.payload) ∨
        (parts.flags = 0 ∧ parts.payload = outgoing.data)) := by
  unfold planPayload plan at planned
  dsimp only at planned
  split at planned
  · next coded filtered =>
      cases planned
      have paid := attemptCoding_some (Option.filter_eq_some_iff.mp filtered).1
      exact ⟨rfl, rfl, rfl, Or.inl ⟨rfl, _, paid⟩⟩
  · split at planned
    · cases planned
    · cases planned
      exact ⟨rfl, rfl, rfl, Or.inr ⟨rfl, rfl⟩⟩

end Sealing

/-- What an inbound frame turned out to be. -/
inductive Ingested where
  /-- The frame did not authenticate. -/
  | rejected
  /-- Authenticated, with nothing for the application. -/
  | nothing
  /-- Application data in the frame buffer. -/
  | data (len : Nat) (compressed : Bool)
  /-- A challenge token echoed back. -/
  | pathValidated (token : Bytes)
  /-- A fragmented message, complete and already decoded. -/
  | message (whole : Bytes)
  deriving Repr, DecidableEq

/-- One peer's protocol state. -/
structure Peer extends Sealing, Outbox where
  /-- Identifiers already delivered. -/
  dedup : DedupWindow
  /-- Partly-arrived fragmented messages. -/
  reassembly : Reassembly
  deriving Repr, DecidableEq

namespace Peer

variable {ω : Type*}

def new (session : Session) : Peer where
  session := session
  coding := .new
  toOutbox := .new
  dedup := .new
  reassembly := .new

/-- Splits `data` across frames and queues it, sending nothing. -/
def queueMessage
    (peer : Peer)
    (data : Bytes)
    (payloadType : PayloadType)
    (datagramLimit : Nat) :
    Except Error Unit × Peer :=
  if !peer.session.peerCaps.supportsReliable then
    (.error .reliabilityUnsupported, peer)
  else if peer.queue.length ≥ maxQueued then
    (.error (.protocol .windowFull), peer)
  else
    let perFragment := peer.maxFragmentPayload datagramLimit
    match fragmentsNeeded data.length perFragment with
    | none =>
        (.error (.payloadTooLarge data.length maxMessageLen), peer)
    | some count =>
        (.ok (),
          { peer with
            nextMessage := peer.nextMessage + 1
            queue :=
              peer.queue ++
                [{ message := peer.nextMessage
                   payloadType := payloadType
                   data := data
                   perFragment := perFragment
                   limit := datagramLimit
                   count := count
                   next := 0
                   outstanding := []
                   lost := false }] })

/-- Feeds queued fragments into whatever send window is free. -/
def driveQueue
    (suite : Suite)
    (peer : Peer)
    (nowMs txLen : Nat)
    (send : ω → Bytes → Except Error Unit × ω)
    (socket : ω) :
    Except Error (Option Finished) × Peer × ω :=
  let (result, outbox, sealing, socket) :=
    peer.toOutbox.driveQueue (Sealing.emit suite txLen send) nowMs
      (peer.toSealing, socket)
  (result, { peer with toSealing := sealing, toOutbox := outbox }, socket)

/-- Resends what is due and records what is given up on. -/
def driveRetransmits
    (suite : Suite)
    (peer : Peer)
    (nowMs txLen : Nat)
    (send : ω → Bytes → Except Error Unit × ω)
    (socket : ω) :
    Except Error Unit × Peer × ω :=
  let (result, outbox, sealing, socket) :=
    peer.toOutbox.driveRetransmits (Sealing.emit suite txLen send) nowMs
      (peer.toSealing, socket)
  (result, { peer with toSealing := sealing, toOutbox := outbox }, socket)

/-- Applies an acknowledgement, dropping the messages it covers. -/
def applyAck (peer : Peer) (ack : Ack) (nowMs : Nat) : Peer :=
  { peer with toOutbox := peer.toOutbox.applyAck ack nowMs }

/-- A plaintext out of a frame, decoded if it was coded. -/
def deliver (codec : Codec) (body : Bytes) (compressed : Bool) :
    Except Error Bytes :=
  if compressed then codec.decodePayload body else .ok body

/-- The same into a buffer of `outLen` bytes, which must hold it. -/
def deliverInto
    (codec : Codec)
    (body : Bytes)
    (compressed : Bool)
    (outLen : Nat) :
    Except Error Bytes :=
  if compressed then
    match codec.originalLen body with
    | .error error =>
        .error error
    | .ok len =>
        if outLen < len then
          .error (.payloadTooLarge len outLen)
        else
          codec.decodePayload body
  else if outLen < body.length then
    .error (.payloadTooLarge body.length outLen)
  else
    .ok body

/-- What a data frame means once its identifier has been found new. -/
def ingestNew (suite : Suite) (peer : Peer) (opened : Opened) (body : Bytes) :
    Ingested × Peer :=
  let compressed := opened.header.flags &&& flagCompressed != 0
  match opened.fragment with
  | none =>
      (.data opened.len compressed, peer)
  | some fragment =>
      match deliver suite.codec body compressed with
      | .error _ =>
          (.nothing, peer)
      | .ok piece =>
          match peer.reassembly.accept fragment piece with
          | (.ok (some whole), reassembly) =>
              (.message whole, { peer with reassembly := reassembly })
          | (.ok none, reassembly) | (.error _, reassembly) =>
              (.nothing, { peer with reassembly := reassembly })

/--
What an authenticated frame means.  The reply, if there is one, is what the
caller's buffer of `ackLen` bytes is left holding.
-/
def ingestOpened
    (suite : Suite)
    (peer : Peer)
    (opened : Opened)
    (body : Bytes)
    (nowMs ackLen : Nat) :
    Except Error Ingested × Bytes × Peer :=
  match opened.header.frameType with
  | .pathChallenge =>
      if opened.len ≠ pathTokenLen then
        (.ok .nothing, [], peer)
      else
        match peer.session.sealPathResponse suite.aead body ackLen with
        | (.error error, session) =>
            (.error (.protocol error), [], { peer with session := session })
        | (.ok reply, session) =>
            (.ok .nothing, reply, { peer with session := session })
  | .pathResponse =>
      if opened.len ≠ pathTokenLen then
        (.ok .nothing, [], peer)
      else
        (.ok (.pathValidated body), [], peer)
  | .ack =>
      match Ack.decode body with
      | .error _ =>
          (.ok .nothing, [], peer)
      | .ok ack =>
          (.ok .nothing, [], peer.applyAck ack nowMs)
  | _ =>
      match opened.messageId with
      | none =>
          let (ingested, peer) := peer.ingestNew suite opened body
          (.ok ingested, [], peer)
      | some id =>
          -- Duplicates are acknowledged too.
          let (isNew, dedup) := peer.dedup.accept id
          let peer := { peer with dedup := dedup }
          match peer.session.sealAck suite.aead dedup.toAck ackLen with
          | (.error error, session) =>
              (.error (.protocol error), [], { peer with session := session })
          | (.ok reply, session) =>
              let peer := { peer with session := session }
              if !isNew then
                (.ok .nothing, reply, peer)
              else
                let (ingested, peer) := peer.ingestNew suite opened body
                (.ok ingested, reply, peer)

/-- Authenticates a frame and works out what it means. -/
def ingest (suite : Suite) (peer : Peer) (frame : Bytes) (nowMs ackLen : Nat) :
    Except Error Ingested × Bytes × Bytes × Peer :=
  match peer.session.openFrame suite.aead frame with
  | (.error _, buffer, session) =>
      (.ok .rejected, [], buffer, { peer with session := session })
  | (.ok opened, buffer, session) =>
      let (result, reply, peer) :=
        ({ peer with session := session } : Peer).ingestOpened suite
          opened ((buffer.drop headerLen).take opened.len) nowMs ackLen
      (result, reply, buffer, peer)

/-- A message is refused with nothing changed, or joins the queue unsent. -/
theorem queueMessage_cases {peer after : Peer} {data : Bytes} {payloadType : PayloadType}
    {datagramLimit : Nat} {result : Except Error Unit}
    (queues : peer.queueMessage data payloadType datagramLimit = (result, after)) :
    (result.isOk = false ∧ after = peer) ∨ result = .ok () ∧ ∃ job : Queued, job.Untouched ∧ after =
              { peer with
                nextMessage := peer.nextMessage + 1
                queue := peer.queue ++ [job] } := by
  unfold queueMessage at queues
  split at queues
  · cases queues
    exact Or.inl ⟨rfl, rfl⟩
  split at queues
  · cases queues
    exact Or.inl ⟨rfl, rfl⟩
  · dsimp only at queues
    split at queues
    · cases queues
      exact Or.inl ⟨rfl, rfl⟩
    next needed =>
    cases queues
    exact Or.inr ⟨rfl, _, ⟨rfl, rfl, rfl, fragmentsNeeded_pos needed⟩, rfl⟩

/-- A frame taken in acknowledges, or leaves the sending half alone. -/
theorem ingest_outbox (suite : Suite) (peer : Peer) (frame : Bytes) (nowMs ackLen : Nat) :
    (peer.ingest suite frame nowMs ackLen).2.2.2.toOutbox = peer.toOutbox ∨ ∃ opened ack,
        (peer.session.openFrame suite.aead frame).1 = .ok opened ∧ opened.header.frameType = .ack ∧
          (peer.ingest suite frame nowMs ackLen).2.2.2.toOutbox =
            peer.toOutbox.applyAck ack nowMs := by
  have unfragmented : ∀ (peer : Peer) (opened : Opened) (body : Bytes),
        (peer.ingestNew suite opened body).2.toOutbox = peer.toOutbox := by
    intro peer opened body
    unfold ingestNew
    dsimp only
    split
    · rfl
    · split
      · rfl
      · split <;> rfl
  unfold ingest
  split
  · exact Or.inl rfl
  next opened buffer session opens =>
  unfold ingestOpened
  dsimp only
  split
  · split
    · exact Or.inl rfl
    · split <;> exact Or.inl rfl
  · split <;> exact Or.inl rfl
  · next isAck =>
      split
      · exact Or.inl rfl
      · next ack _ => exact Or.inr ⟨opened, ack, congrArg Prod.fst opens, isAck, rfl⟩
  · split
    · exact Or.inl (unfragmented _ _ _)
    · split
      · exact Or.inl rfl
      · split
        · exact Or.inl rfl
        · exact Or.inl (unfragmented _ _ _)

end Peer

end Fectp
