import Fectp.DedupHistory
import Fectp.Execution
import Fectp.Pipeline
import Fectp.RetransmitSlots

namespace Fectp

open SerialNumber

/-!
# Split messages from one peer to another

A sender queues messages and drives them; a receiver ingests the frames that
reach it, in any order and with any loss, and its acknowledgements reach the
sender late, early or never.  Sealing may fail; the socket never does.

The session layer is assumed to do what `SessionChannel` proves of it: a frame
that opens, opens to what was sealed.  Each frame is handed over at most once,
and whatever the codec produced it reverses.
-/

namespace SplitMessages

/-- A frame on its way, and what it was sealed from. -/
structure Transmission where
  frame : Bytes
  parts : FrameParts
  outgoing : Outgoing
  deriving Repr, DecidableEq

/-- What the sender seals with, and the record of what it sent. -/
structure Wire where
  sealing : Sealing
  network : List Transmission
  /-- Every fragment sent for the first time. -/
  issued : List Outgoing
  /-- Fragments handed to the window so far. -/
  fed : Nat
  deriving Repr, DecidableEq

namespace Wire

/-- Seals a payload and puts the frame on the network. -/
def transmit (suite : Suite) (txLen : Nat) (wire : Wire) (outgoing : Outgoing) :
    Except Error Unit × Wire :=
  match wire.sealing.planPayload suite.codec outgoing with
  | (.error error, sealing) =>
      (.error error, { wire with sealing := sealing })
  | (.ok parts, sealing) =>
      match sealing.session.sealFrame suite.aead parts txLen with
      | (.error error, session) =>
          (.error (.protocol error),
            { wire with sealing := { sealing with session := session } })
      | (.ok frame, session) =>
          (.ok (),
            { wire with
              sealing := { sealing with session := session }
              network := ⟨frame, parts, outgoing⟩ :: wire.network })

/-- Transmits a fragment the window has just taken. -/
def issue (suite : Suite) (txLen : Nat) (wire : Wire) (outgoing : Outgoing) :
    Except Error Unit × Wire :=
  match wire.transmit suite txLen outgoing with
  | (.error error, wire) =>
      (.error error, { wire with fed := wire.fed + 1 })
  | (.ok (), wire) =>
      (.ok (),
        { wire with
          fed := wire.fed + 1
          issued := outgoing :: wire.issued })

/-- What the source's own closures see of the wire. -/
def view (wire : Wire) : Sealing × List Bytes :=
  (wire.sealing, wire.network.map Transmission.frame)

/-- The send closure of such a run: it never fails. -/
def handOver (frames : List Bytes) (frame : Bytes) :
    Except Error Unit × List Bytes :=
  (.ok (), frame :: frames)

variable (suite : Suite) (txLen : Nat) (wire : Wire) (outgoing : Outgoing)

/-- Transmitting is sealing and handing over, with a record kept. -/
theorem emit_view :
    Sealing.emit suite txLen handOver wire.view outgoing =
      ((wire.transmit suite txLen outgoing).1, (wire.transmit suite txLen outgoing).2.view) := by
  unfold Sealing.emit Sealing.sealPayload transmit
  dsimp only [view]
  generalize wire.sealing.planPayload suite.codec outgoing = planned
  obtain ⟨parts, sealing⟩ := planned
  cases parts with
  | error error => rfl
  | ok parts =>
    dsimp only
    generalize sealing.session.sealFrame suite.aead parts txLen = sealedFrame
    obtain ⟨frame, session⟩ := sealedFrame
    cases frame <;> rfl

theorem issue_view :
    Sealing.emit suite txLen handOver wire.view outgoing =
      ((wire.issue suite txLen outgoing).1, (wire.issue suite txLen outgoing).2.view) := by
  rw [emit_view]
  unfold issue
  generalize wire.transmit suite txLen outgoing = outcome
  obtain ⟨result, after⟩ := outcome
  cases result <;> rfl

/-- The frame is one `plan` allows for what was asked. -/
structure Carries (codec : Codec) (transmission : Transmission) : Prop where
  isData : transmission.parts.frameType = .data
  sameId : transmission.parts.messageId = transmission.outgoing.messageId
  sameFragment : transmission.outgoing.messageId.isSome = true →
      transmission.parts.fragment = transmission.outgoing.fragment
  payload : (transmission.parts.flags = flagCompressed ∧
        ∃ caps,
          codec.encodePayload transmission.outgoing.data
              transmission.outgoing.payloadType caps =
            some transmission.parts.payload) ∨
      (transmission.parts.flags = 0 ∧
        transmission.parts.payload = transmission.outgoing.data)

/-- What is put on the network carries what was asked for. -/
theorem transmit_spec :
    (wire.transmit suite txLen outgoing).2.issued = wire.issued ∧
      (wire.transmit suite txLen outgoing).2.fed = wire.fed ∧
      ((∃ error, (wire.transmit suite txLen outgoing).1 = .error error) ∧
          (wire.transmit suite txLen outgoing).2.network = wire.network ∨
        (wire.transmit suite txLen outgoing).1 = .ok () ∧ ∃ transmission,
            (wire.transmit suite txLen outgoing).2.network = transmission :: wire.network ∧
              transmission.outgoing = outgoing ∧
              Carries suite.codec transmission) := by
  unfold transmit
  cases planned : wire.sealing.planPayload suite.codec outgoing with
  | mk result sealing =>
    cases result with
    | error error => exact ⟨rfl, rfl, Or.inl ⟨⟨error, rfl⟩, rfl⟩⟩
    | ok parts =>
      obtain ⟨isData, sameId, sameFragment, payload⟩ :=
        Sealing.planPayload_ok (congrArg Prod.fst planned)
      dsimp only
      generalize sealing.session.sealFrame suite.aead parts txLen = sealedFrame
      obtain ⟨frame, session⟩ := sealedFrame
      cases frame with
      | error error => exact ⟨rfl, rfl, Or.inl ⟨⟨_, rfl⟩, rfl⟩⟩
      | ok frame =>
        refine ⟨rfl, rfl, Or.inr ⟨rfl, _, rfl, rfl, isData, sameId, ?_, payload⟩⟩
        intro reliable
        rw [sameFragment, if_pos reliable]

/-- A fragment that does not leave is still one the window took. -/
theorem issue_error
    {suite : Suite} {txLen : Nat} {wire after : Wire} {outgoing : Outgoing} {error : Error}
    (failed : wire.issue suite txLen outgoing = (.error error, after)) :
    after.fed = wire.fed + 1 ∧ after.issued = wire.issued ∧ after.network = wire.network := by
  obtain ⟨sameIssued, sameFed, outcome⟩ := wire.transmit_spec suite txLen outgoing
  unfold issue at failed
  split at failed
  · next transmitted =>
      cases failed
      rw [transmitted] at sameIssued sameFed outcome
      rcases outcome with ⟨_, sameNetwork⟩ | ⟨succeeded, _⟩
      · exact ⟨congrArg (· + 1) sameFed, sameIssued, sameNetwork⟩
      · cases succeeded
  · cases failed

/-- A fragment that leaves is on the network and in the record. -/
theorem issue_ok {suite : Suite} {txLen : Nat} {wire after : Wire} {outgoing : Outgoing}
    (left : wire.issue suite txLen outgoing = (.ok (), after)) :
    after.fed = wire.fed + 1 ∧ after.issued = outgoing :: wire.issued ∧
      ∃ transmission, after.network = transmission :: wire.network ∧
          transmission.outgoing = outgoing ∧
          Carries suite.codec transmission := by
  obtain ⟨sameIssued, sameFed, outcome⟩ := wire.transmit_spec suite txLen outgoing
  unfold issue at left
  split at left
  · cases left
  next transmitted =>
  cases left
  rw [transmitted] at sameIssued sameFed outcome
  rcases outcome with ⟨⟨error, failed⟩, _⟩ | ⟨_, carried⟩
  · cases failed
  · exact ⟨congrArg (· + 1) sameFed, congrArg (outgoing :: ·) sameIssued, carried⟩

end Wire

/-- Both peers, what is between them, and what has happened. -/
structure System where
  sender : Peer
  receiver : Peer
  network : List Transmission
  acks : List Ack
  issued : List Outgoing
  fed : Nat
  /-- Every message queued, in order, as it was queued. -/
  messages : List Queued
  /-- Fragments the receiver has accepted as new. -/
  accepted : List (MessageId × Fragment)
  /-- Messages the receiver has returned. -/
  returned : List (BitVec 32 × Bytes)
  deriving Repr, DecidableEq

/-- One thing that may happen next. -/
inductive Event where
  | queue (data : Bytes) (payloadType : PayloadType) (limit : Nat)
  | driveQueue (nowMs txLen : Nat)
  | driveRetransmits (nowMs txLen : Nat)
  | lose (index : Nat)
  | deliver (index nowMs ackLen : Nat)
  | applyAck (index nowMs : Nat)
  deriving Repr, DecidableEq

namespace System

def initial (senderSession receiverSession : Session) : System where
  sender := Peer.new senderSession
  receiver := Peer.new receiverSession
  network := []
  acks := []
  issued := []
  fed := 0
  messages := []
  accepted := []
  returned := []

def wire (system : System) : Wire where
  sealing := system.sender.toSealing
  network := system.network
  issued := system.issued
  fed := system.fed

/-- The system after the sender's half and its record have moved on. -/
def afterDriving (system : System) (outbox : Outbox) (wire : Wire) :
    System :=
  { system with
    sender :=
      { system.sender with toSealing := wire.sealing, toOutbox := outbox }
    network := wire.network
    issued := wire.issued
    fed := wire.fed }

/-- The identifier and fragment a frame would have accepted as new. -/
def newFragment (suite : Suite) (receiver : Peer) (frame : Bytes) :
    Option (MessageId × Fragment) :=
  match (receiver.session.openFrame suite.aead frame).1 with
  | .error _ =>
      none
  | .ok opened =>
      match opened.messageId, opened.fragment with
      | some id, some fragment =>
          if (receiver.dedup.accept id).1 then some (id, fragment) else none
      | _, _ =>
          none

/-- The system after the receiver has dealt with a frame. -/
def record
    (system : System)
    (result : Except Error Ingested)
    (reply : Bytes)
    (receiver : Peer)
    (arrival : Option (MessageId × Fragment)) :
    System :=
  { system with
    receiver := receiver
    acks :=
      if reply.isEmpty then system.acks
      else receiver.dedup.toAck :: system.acks
    accepted := arrival.toList ++ system.accepted
    returned :=
      match result with
      | .ok (.message whole) =>
          (arrival.elim 0 (·.2.message), whole) :: system.returned
      | _ =>
          system.returned }

/-- The receiver ingests a frame and acknowledges it. -/
def arrive
    (suite : Suite)
    (system : System)
    (frame : Bytes)
    (nowMs ackLen : Nat) :
    System :=
  let (result, reply, _, receiver) :=
    system.receiver.ingest suite frame nowMs ackLen
  system.record result reply receiver (newFragment suite system.receiver frame)

def step (suite : Suite) (system : System) : Event → System
  | .queue data payloadType limit =>
      let (_, sender) := system.sender.queueMessage data payloadType limit
      { system with
        sender := sender
        messages :=
          system.messages ++ sender.queue.drop system.sender.queue.length }
  | .driveQueue nowMs txLen =>
      let (_, outbox, wire) :=
        system.sender.toOutbox.driveQueue (Wire.issue suite txLen) nowMs
          system.wire
      system.afterDriving outbox wire
  | .driveRetransmits nowMs txLen =>
      let (_, outbox, wire) :=
        system.sender.toOutbox.driveRetransmits
          (Wire.transmit suite txLen) nowMs system.wire
      system.afterDriving outbox wire
  | .lose index =>
      { system with network := system.network.eraseIdx index }
  | .deliver index nowMs ackLen =>
      match system.network[index]? with
      | none =>
          system
      | some transmission =>
          ({ system with
              network := system.network.eraseIdx index }).arrive suite
            transmission.frame nowMs ackLen
  | .applyAck index nowMs =>
      match system.acks[index]? with
      | none =>
          system
      | some ack =>
          { system with sender := system.sender.applyAck ack nowMs }

/-- The record changes nothing of what the source's `drive_queue` does. -/
theorem driveQueue_step (suite : Suite) (system : System) (nowMs txLen : Nat) :
    system.sender.driveQueue suite nowMs txLen Wire.handOver
        (system.network.map Transmission.frame) =
      ((system.sender.toOutbox.driveQueue (Wire.issue suite txLen) nowMs system.wire).1,
        (system.step suite (.driveQueue nowMs txLen)).sender,
        (system.step suite (.driveQueue nowMs txLen)).network.map Transmission.frame) := by
  have driven :=
    Outbox.driveQueue_view (Wire.issue_view suite txLen) system.sender.toOutbox nowMs system.wire
  unfold Peer.driveQueue
  rw [show (system.sender.toSealing,
      system.network.map Transmission.frame) = system.wire.view from rfl,
    driven]
  rfl

/-- A frame that opens, opens to what was sealed. -/
def Genuine
    (suite : Suite)
    (receiver : Peer)
    (transmission : Transmission) : Prop :=
  ∀ opened,
    (receiver.session.openFrame suite.aead transmission.frame).1 = .ok opened →
    opened.header.frameType = transmission.parts.frameType ∧
      opened.header.flags &&& flagCompressed =
        transmission.parts.flags &&& flagCompressed ∧
      opened.messageId = transmission.parts.messageId ∧
      opened.fragment = transmission.parts.fragment ∧
      ((receiver.session.openFrame suite.aead
          transmission.frame).2.1.drop headerLen).take opened.len =
        transmission.parts.payload

/--
Fewer than half the identifier space is ever handed to the window, and the
session layer is genuine.
-/
def Allowed (suite : Suite) (system : System) (event : Event) : Prop :=
  (system.step suite event).fed < 2 ^ 31 ∧
    match event with
    | .deliver index _ _ =>
        ∀ transmission ∈ system.network[index]?,
          Genuine suite system.receiver transmission
    | _ =>
        True

instance decidableGenuine
    (suite : Suite)
    (receiver : Peer)
    (transmission : Transmission) :
    Decidable (Genuine suite receiver transmission) :=
  match opens :
      (receiver.session.openFrame suite.aead transmission.frame).1 with
  | .error _ =>
      isTrue fun opened same => nomatch opens.symm.trans same
  | .ok opened =>
      decidable_of_iff
        (opened.header.frameType = transmission.parts.frameType ∧
          opened.header.flags &&& flagCompressed =
            transmission.parts.flags &&& flagCompressed ∧
          opened.messageId = transmission.parts.messageId ∧
          opened.fragment = transmission.parts.fragment ∧
          ((receiver.session.openFrame suite.aead
              transmission.frame).2.1.drop headerLen).take opened.len =
            transmission.parts.payload)
        ⟨fun genuine other same => by
            cases opens.symm.trans same
            exact genuine,
          fun genuine => genuine opened opens⟩

instance decidableAllowed (suite : Suite) (system : System) (event : Event) :
    Decidable (Allowed suite system event) := by
  unfold Allowed
  cases event <;> infer_instance

/--
A message reported delivered has had every fragment accepted as new by the
receiver.
-/
def Correct (suite : Suite) (system : System) : Event → Prop
  | .driveQueue nowMs txLen =>
      ∀ job,
        system.sender.queue.head? = some job →
        (system.sender.driveQueue suite nowMs txLen Wire.handOver
            (system.network.map Transmission.frame)).1 =
          .ok (some ⟨true⟩) →
        ∀ index,
          index < job.count →
          ∃ id, (id, ⟨job.message, index, job.count⟩) ∈ system.accepted
  | _ =>
      True

end System

end SplitMessages

end Fectp
