import Fectp.DedupHistory
import Fectp.Execution
import Fectp.RetransmitSlots

namespace Fectp

open SerialNumber

/-!
# One sender, one receiver, and everything the network can do to them

A fresh `RetransmitQueue` and a fresh `DedupWindow` exchange frames and
acknowledgements over a network that loses, duplicates and reorders both.
Messages are numbered by registration, without wrapping; the identifiers on
the wire are the residues of those numbers.

Three parts of the state are not the program's: which message each slot was
filled with, which messages `accept` has returned true for, and the message a
packet in flight speaks of.
-/

namespace ReliableDelivery

/-- A frame carrying a message, or an acknowledgement block. -/
inductive Packet where
  | frame (message : Nat)
  | ack (block : Ack) (highest : Nat)
  deriving Repr, DecidableEq

/-- The message a packet speaks of: its own, or the highest it reports. -/
def Packet.position : Packet → Nat
  | .frame message =>
      message
  | .ack _ highest =>
      highest

/-- Both ends, the packets between them, and the message numbering. -/
structure System where
  sender : RetransmitQueue
  receiver : DedupWindow
  network : List Packet
  registered : Nat
  holders : List Nat
  accepted : List Nat
  deriving Repr, DecidableEq

/-- Both ends fresh and nothing in flight. -/
def System.initial : System where
  sender := RetransmitQueue.new
  receiver := DedupWindow.new
  network := []
  registered := 0
  holders := List.replicate maxInFlight 0
  accepted := []

/-- One thing that may happen next. -/
inductive Event where
  | register (nowMs : Nat)
  | poll (nowMs capacity : Nat)
  | transmit (message : Nat)
  | lose (index : Nat)
  | duplicate (index : Nat)
  | emitAck
  | deliver (index nowMs capacity : Nat)
  deriving Repr, DecidableEq

namespace System

/-- A sender slot is occupied by this message. -/
def Holds (system : System) (message : Nat) : Prop :=
  ∃ (index : Nat) (entry : InFlight),
    system.sender.slots[index]? = some (some entry) ∧
      system.holders[index]? = some message

/-- A frame of `message` reaches the receiver. -/
def arrive (system : System) (message : Nat) : System :=
  let (isNew, receiver) := system.receiver.accept (serial 32 message)
  { system with
    receiver := receiver
    accepted := if isNew then message :: system.accepted else system.accepted }

/-- An acknowledgement reaches the sender. -/
def acknowledge (system : System) (block : Ack) (nowMs capacity : Nat) :
    System :=
  { system with
    sender := (system.sender.onAck block nowMs capacity).2 }

/-- A packet at the far end of the network. -/
def receive (system : System) (nowMs capacity : Nat) :
    Packet → System
  | .frame message =>
      system.arrive message
  | .ack block _ =>
      system.acknowledge block nowMs capacity

/-- Apply one event; an event naming nothing that exists does nothing. -/
def step (system : System) : Event → System
  | .register nowMs =>
      match system.sender.register nowMs with
      | .error _ =>
          system
      | .ok (_, sender) =>
          { system with
            sender := sender
            registered := system.registered + 1
            holders :=
              system.holders.set system.sender.freeSlot system.registered }
  | .poll nowMs capacity =>
      { system with
        sender := (system.sender.poll nowMs capacity).2 }
  | .transmit message =>
      if message < system.registered then
        { system with network := .frame message :: system.network }
      else
        system
  | .lose index =>
      { system with network := system.network.eraseIdx index }
  | .duplicate index =>
      match system.network[index]? with
      | none =>
          system
      | some packet =>
          { system with network := packet :: system.network }
  | .emitAck =>
      { system with
        network :=
          .ack system.receiver.toAck (system.accepted.max?.getD 0) ::
            system.network }
  | .deliver index nowMs capacity =>
      match system.network[index]? with
      | none =>
          system
      | some packet =>
          ({ system with
              network := system.network.eraseIdx index }).receive
            nowMs capacity packet

/--
The sender is less than half the identifier space ahead of the highest message
accepted and of everything still in flight.
-/
def Bounded (system : System) : Prop :=
  (∀ top ∈ system.accepted.max?,
      system.registered - top < 2 ^ 31) ∧
    ∀ packet ∈ system.network, system.registered - packet.position < 2 ^ 31

instance decidableBounded (system : System) :
    Decidable system.Bounded :=
  inferInstanceAs (Decidable (_ ∧ _))

/--
An execution the receiver takes part in as the session layer does: an
acknowledgement is emitted only once a message has been accepted.
-/
def Allowed (system : System) (event : Event) : Prop :=
  system.Bounded ∧ (event = .emitAck → system.receiver.started = true)

instance decidableAllowed (system : System) (event : Event) :
    Decidable (system.Allowed event) :=
  inferInstanceAs (Decidable (_ ∧ _))

/--
What the next event may not break: a message accepted now was not accepted
before; a message still in a slot that has not been accepted is accepted when
a frame of it arrives; and an acknowledgement frees only accepted messages.
-/
def Correct (system : System) : Event → Prop
  | .deliver index nowMs capacity =>
      match system.network[index]? with
      | none =>
          True
      | some (.frame message) =>
          ((system.receiver.accept (serial 32 message)).1 = true →
              message ∉ system.accepted) ∧
            (system.Holds message →
              message ∉ system.accepted →
              (system.receiver.accept (serial 32 message)).1 = true)
      | some (.ack block _) =>
          ∀ message,
            system.Holds message →
            ¬ (system.acknowledge block nowMs capacity).Holds message →
            message ∈ system.accepted
  | _ =>
      True

/-- What an acknowledgement in flight may claim of the receiver. -/
def AckSound
    (system : System)
    (block : Ack)
    (highest : Nat) : Prop :=
  highest < system.registered ∧
    ∀ message,
      Comparable message highest →
      block.covers (serial 32 message) = true →
      message ∈ system.accepted

/-- The receiver is fresh, or stands for the messages accepted so far. -/
def ReceiverSound (system : System) : Prop :=
  (system.accepted = [] ∧ system.receiver = DedupWindow.new) ∨
    ∃ top, system.receiver.Represents top (· ∈ system.accepted)

/-- What holds of both ends and of the network throughout an execution. -/
structure Invariant (system : System) : Prop where
  nextId : system.sender.nextId = serial 32 system.registered
  held : ∀ {index : Nat} {entry : InFlight} {message : Nat},
      system.sender.slots[index]? = some (some entry) →
      system.holders[index]? = some message →
      entry.id = serial 32 message ∧
        message < system.registered ∧
        system.registered - message ≤ ackWindow
  receiver : system.ReceiverSound
  acceptedLt : ∀ {message}, message ∈ system.accepted →
      message < system.registered
  acceptedNodup : system.accepted.Nodup
  frames : ∀ {message}, .frame message ∈ system.network →
      message < system.registered
  acks : ∀ {block highest}, .ack block highest ∈ system.network →
      system.AckSound block highest

theorem invariant_initial : initial.Invariant where
  nextId := rfl
  held := by
    intro index entry message occupied _
    have empty :=
      List.eq_of_mem_replicate (List.mem_of_getElem? (l := RetransmitQueue.new.slots) occupied)
    cases empty
  receiver := Or.inl ⟨rfl, rfl⟩
  acceptedLt := by
    intro message member
    cases member
  acceptedNodup := List.nodup_nil
  frames := by
    intro message member
    cases member
  acks := by
    intro block highest member
    cases member

namespace Invariant

variable {system : System}

variable {message : Nat}

/-- A message in a slot is among the last sixty-four registered. -/
theorem holds_recent (invariant : system.Invariant) (holds : system.Holds message) :
    message < system.registered ∧ system.registered - message ≤ ackWindow := by
  obtain ⟨index, entry, occupied, held⟩ := holds
  exact (invariant.held occupied held).2

/-- The highest position of the receiver's window is the highest accepted. -/
theorem top_eq_max {top : Nat} (represents : system.receiver.Represents top (· ∈ system.accepted)) :
    system.accepted.max? = some top := by
  rw [List.max?_eq_some_iff]
  exact ⟨represents.topSeen, fun _ member => represents.seenLe member⟩

/-- A message no further back than half the space is comparable to any
message accepted within it. -/
theorem comparable_of_near {first second bound : Nat} (firstLt : first < bound)
    (secondLt : second < bound) (firstNear : bound - first < 2 ^ 31)
    (secondNear : bound - second < 2 ^ 31) :
    Comparable first second := by
  constructor <;> omega

section

variable (invariant : system.Invariant)

include invariant

/--
What the receiver answers for a message within reach of the counter: it is new
exactly when it was not accepted before and is not below the window.
-/
theorem accept_iff (bounded : system.Bounded) (registered : message < system.registered)
    (near : system.registered - message < 2 ^ 31) :
    (system.receiver.accept (serial 32 message)).1 = true ↔
      message ∉ system.accepted ∧ ∀ top ∈ system.accepted.max?, top - message ≤ ackWindow := by
  rcases invariant.receiver with ⟨none, fresh⟩ | ⟨top, represents⟩
  · have first := (DedupWindow.accept_new message).1
    simp [none, fresh, first]
  have isMax := top_eq_max represents
  have topLt := invariant.acceptedLt represents.topSeen
  have close := comparable_of_near registered topLt near (bounded.1 top isMax)
  rw [represents.accept_iff close, isMax]
  simp

/-- Receiving a frame keeps the receiver's window true to what was accepted. -/
theorem arrive_receiver (bounded : system.Bounded) (registered : message < system.registered)
    (near : system.registered - message < 2 ^ 31) :
    (system.arrive message).ReceiverSound := by
  rcases invariant.receiver with ⟨none, fresh⟩ | ⟨top, represents⟩
  · obtain ⟨isNew, represents⟩ := DedupWindow.accept_new message
    refine Or.inr ⟨message, ?_⟩
    simpa [arrive, fresh, isNew, none] using represents
  have isMax := top_eq_max represents
  have topLt := invariant.acceptedLt represents.topSeen
  have close := comparable_of_near registered topLt near (bounded.1 top isMax)
  rcases represents.accept_cases close with
    ⟨isNew, _, top', widened⟩ | refused
  · have grown : (fun other =>
          other ∈ system.accepted ∨ other = message) =
          (· ∈ message :: system.accepted) := by
      funext other
      simp [or_comm]
    rw [grown] at widened
    exact Or.inr ⟨top', by simpa [arrive, isNew] using widened⟩
  · exact Or.inr ⟨top, by simpa [arrive, refused] using represents⟩

/-- Losing packets, or reordering them, disturbs nothing. -/
theorem shrink_network {network : List Packet} (fewer : network ⊆ system.network) :
    ({ system with network := network } : System).Invariant where
  nextId := invariant.nextId
  held := invariant.held
  receiver := invariant.receiver
  acceptedLt := invariant.acceptedLt
  acceptedNodup := invariant.acceptedNodup
  frames := fun member => invariant.frames (fewer member)
  acks := fun member => invariant.acks (fewer member)

/-- A registration puts the next message into the first free slot. -/
theorem register (nowMs : Nat) :
    (system.step (.register nowMs)).Invariant := by
  cases outcome : system.sender.register nowMs with
  | error _ => simpa [step, outcome] using invariant
  | ok result =>
    obtain ⟨id, sender⟩ := result
    simp only [step, outcome]
    obtain ⟨rfl, inReach, _, _, nextId, slots, _, _⟩ := RetransmitQueue.register_ok outcome
    refine ⟨?_, ?_, invariant.receiver, ?_, invariant.acceptedNodup, ?_, ?_⟩
    · rw [nextId, invariant.nextId, serial_succ]
    · intro index entry message occupied held
      rw [slots, List.getElem?_set] at occupied
      rw [List.getElem?_set] at held
      split at occupied
      · next atFree =>
          rw [if_pos atFree] at held
          cases occupied
          split at held
          · cases held
            exact ⟨invariant.nextId, by simp, by
              unfold ackWindow
              simp⟩
          · cases held
      next elsewhere =>
      rw [if_neg elsewhere] at held
      obtain ⟨sameId, earlier, recent⟩ := invariant.held occupied held
      -- The distance bound is checked before the counter moves.
      have distance :=
        RetransmitQueue.distance_lt_of_inReach inReach
          (List.mem_filterMap.mpr ⟨some entry, List.mem_of_getElem? occupied, rfl⟩)
      rw [invariant.nextId, sameId,
        toNat_serial_sub earlier.le (by unfold ackWindow at recent; omega)] at distance
      refine ⟨sameId, ?_, ?_⟩ <;> dsimp only <;> omega
    · intro message member
      exact (invariant.acceptedLt member).trans (Nat.lt_succ_self _)
    · intro message member
      exact (invariant.frames member).trans (Nat.lt_succ_self _)
    · intro block highest member
      obtain ⟨earlier, sound⟩ := invariant.acks member
      exact ⟨earlier.trans (Nat.lt_succ_self _), sound⟩

/-- A poll moves no message to another slot. -/
theorem poll (nowMs capacity : Nat) :
    (system.step (.poll nowMs capacity)).Invariant := by
  refine ⟨?_, ?_, invariant.receiver, invariant.acceptedLt,
    invariant.acceptedNodup, invariant.frames, invariant.acks⟩
  · simpa [step] using invariant.nextId
  · intro index kept message occupied held
    obtain ⟨entry, before, sameId⟩ := system.sender.poll_slot nowMs capacity occupied
    rw [sameId]
    exact invariant.held before held

/-- An acknowledgement moves no message to another slot. -/
theorem acknowledge (block : Ack) (nowMs capacity : Nat) :
    (system.acknowledge block nowMs capacity).Invariant := by
  refine ⟨?_, ?_, invariant.receiver, invariant.acceptedLt,
    invariant.acceptedNodup, invariant.frames, invariant.acks⟩
  · simpa [System.acknowledge] using invariant.nextId
  · intro index entry message occupied held
    have before := (system.sender.onAck_slot block nowMs capacity).mp occupied
    exact invariant.held before.1 held

/-- The acknowledgement a started receiver emits claims nothing false. -/
theorem emitAck (started : system.receiver.started = true) :
    (system.step .emitAck).Invariant := by
  rcases invariant.receiver with ⟨_, fresh⟩ | ⟨top, represents⟩
  · rw [fresh] at started
    cases started
  refine ⟨invariant.nextId, invariant.held, invariant.receiver,
    invariant.acceptedLt, invariant.acceptedNodup, ?_, ?_⟩
  · intro message member
    rcases List.mem_cons.mp member with absurd | old
    · cases absurd
    · exact invariant.frames old
  · intro block highest member
    rcases List.mem_cons.mp member with emitted | old
    · cases emitted
      rw [top_eq_max represents]
      refine ⟨invariant.acceptedLt represents.topSeen, ?_⟩
      intro message close covered
      exact ((represents.covers_iff close).mp covered).1
    · exact invariant.acks old

/-- A frame in reach of the counter is accepted at most once. -/
theorem arrive (bounded : system.Bounded) (registered : message < system.registered)
    (near : system.registered - message < 2 ^ 31) :
    (system.arrive message).Invariant := by
  have receiver := invariant.arrive_receiver bounded registered near
  have answer := invariant.accept_iff bounded registered near
  have grows : ∀ {other}, other ∈ system.accepted →
        other ∈ (system.arrive message).accepted := by
    intro other member
    simp only [System.arrive]
    split
    · exact List.mem_cons_of_mem _ member
    · exact member
  refine ⟨invariant.nextId, invariant.held, receiver, ?_, ?_, invariant.frames, ?_⟩
  · intro other member
    simp only [System.arrive] at member
    split at member
    · rcases List.mem_cons.mp member with same | old
      · exact same ▸ registered
      · exact invariant.acceptedLt old
    · exact invariant.acceptedLt member
  · simp only [System.arrive]
    split
    · next isNew => exact List.nodup_cons.mpr ⟨(answer.mp isNew).1, invariant.acceptedNodup⟩
    · exact invariant.acceptedNodup
  · intro block highest member
    obtain ⟨earlier, sound⟩ := invariant.acks member
    exact ⟨earlier, fun other close covered =>
      grows (sound other close covered)⟩

end

/-- Every allowed event preserves the invariant. -/
theorem step {event : Event} (allowed : system.Allowed event) (invariant : system.Invariant) :
    (system.step event).Invariant := by
  obtain ⟨bounded, guarded⟩ := allowed
  cases event with
  | register nowMs => exact invariant.register nowMs
  | poll nowMs capacity => exact invariant.poll nowMs capacity
  | transmit message =>
    simp only [System.step]
    split
    · next registered =>
        refine ⟨invariant.nextId, invariant.held, invariant.receiver, invariant.acceptedLt,
          invariant.acceptedNodup, ?_, ?_⟩
        · intro other member
          rcases List.mem_cons.mp member with same | old
          · cases same
            exact registered
          · exact invariant.frames old
        · intro block highest member
          rcases List.mem_cons.mp member with absurd | old
          · cases absurd
          · exact invariant.acks old
    · exact invariant
  | lose index => exact invariant.shrink_network (List.eraseIdx_subset)
  | duplicate index =>
    simp only [System.step]
    split
    · exact invariant
    next packet found =>
    exact invariant.shrink_network
      (List.cons_subset.mpr ⟨List.mem_of_getElem? found, List.Subset.refl _⟩)
  | emitAck => exact invariant.emitAck (guarded rfl)
  | deliver index nowMs capacity =>
    simp only [System.step]
    split
    · exact invariant
    next packet found =>
    have member := List.mem_of_getElem? found
    have fewer : system.network.eraseIdx index ⊆ system.network := List.eraseIdx_subset
    have shrunk := invariant.shrink_network fewer
    cases packet with
    | frame message =>
      exact shrunk.arrive ⟨bounded.1, fun other inRest =>
          bounded.2 other (fewer inRest)⟩
        (invariant.frames member)
        (bounded.2 _ member)
    | ack block highest => exact shrunk.acknowledge block nowMs capacity

/-- Under the invariant, no allowed event breaks delivery. -/
theorem correct {event : Event} (allowed : system.Allowed event) (invariant : system.Invariant) :
    system.Correct event := by
  obtain ⟨bounded, _⟩ := allowed
  cases event with
  | deliver index nowMs capacity =>
    simp only [Correct]
    split
    · trivial
    · next message found =>
        have member := List.mem_of_getElem? found
        have answer := invariant.accept_iff bounded (invariant.frames member) (bounded.2 _ member)
        refine ⟨fun isNew => (answer.mp isNew).1, ?_⟩
        intro holds unaccepted
        have recent := (invariant.holds_recent holds).2
        refine answer.mpr ⟨unaccepted, ?_⟩
        intro top isMax
        have topLt := invariant.acceptedLt (List.max?_mem isMax)
        omega
    next block highest found =>
    have member := List.mem_of_getElem? found
    obtain ⟨earlier, sound⟩ := invariant.acks member
    rintro message ⟨index, entry, occupied, held⟩ freed
    have same := invariant.held occupied held
    have close : Comparable message highest := by
      refine comparable_of_near same.2.1 earlier ?_ (bounded.2 _ member)
      have recent := same.2.2
      unfold ackWindow at recent
      omega
    refine sound message close ?_
    by_contra uncovered
    refine freed ⟨index, entry, ?_, held⟩
    exact (system.sender.onAck_slot block nowMs capacity).mpr
      ⟨occupied, by simpa [same.1] using uncovered⟩
  | _ => trivial

end Invariant

/--
Exactly-once delivery over any execution in which the counter stays within
half the identifier space and acknowledgements are emitted by a receiver that
has accepted something: no message is accepted twice, a frame of an unaccepted
message still in a slot is accepted, and only accepted messages leave a slot
by acknowledgement.
-/
theorem exactly_once
    {events : List Event}
    (admitted : Execution.Admits step Allowed initial events) :
    (Execution.run step initial events).accepted.Nodup ∧
      Execution.Admits step Correct initial events :=
  ⟨(Execution.invariant_of_admits
      (fun allowed invariant => Invariant.step allowed invariant)
      admitted invariant_initial).acceptedNodup,
    Execution.admits_of_invariant
      (fun allowed invariant => Invariant.step allowed invariant)
      (fun allowed invariant => Invariant.correct allowed invariant)
      admitted invariant_initial⟩

/-- A message lost once, retransmitted, duplicated and acknowledged twice. -/
theorem exactly_once_of_lossy_exchange :
    (Execution.run step initial
        [.register 0, .transmit 0, .lose 0, .poll 200 32,
          .transmit 0, .duplicate 0, .deliver 0 210 32, .emitAck,
          .deliver 1 220 32, .emitAck, .deliver 0 230 32,
          .deliver 0 240 32]).accepted.Nodup ∧
      Execution.Admits step Correct initial
        [.register 0, .transmit 0, .lose 0, .poll 200 32,
          .transmit 0, .duplicate 0, .deliver 0 210 32, .emitAck,
          .deliver 1 220 32, .emitAck, .deliver 0 230 32,
          .deliver 0 240 32] :=
  exactly_once (by decide)

/--
Without the guard on emission the last part fails: a receiver that has
accepted nothing reports identifier zero as its highest, and the sender drops
message zero on the strength of it.
-/
theorem unstarted_ack_frees_unaccepted :
    Execution.Admits step (fun system _ => system.Bounded) initial
        [.register 0, .emitAck, .deliver 0 10 32] ∧
      ¬ Execution.Admits step Correct initial
        [.register 0, .emitAck, .deliver 0 10 32] := by
  refine ⟨by decide, ?_⟩
  rintro ⟨_, _, correct, _⟩
  have freed : (Execution.run step initial
        [.register 0, .emitAck, .deliver 0 10 32]).sender.slots =
        List.replicate maxInFlight none := by
    decide
  have accepted :=
    correct 0
      ⟨0, RetransmitQueue.new.firstTransmission 0, rfl, rfl⟩
      (by
        rintro ⟨index, entry, occupied, _⟩
        have member := List.mem_of_getElem? occupied
        have empty := List.eq_of_mem_replicate (freed ▸ member)
        cases empty)
  cases accepted

end System

end ReliableDelivery

end Fectp
