import Fectp.Error
import Fectp.LittleEndian
import Fectp.SerialNumber
import Fectp.SlidingBitmap

namespace Fectp

/-!
# Selective-repeat reliability

The sender's window of unacknowledged messages, the receiver's window of
identifiers already delivered, and the acknowledgement block that connects
them.  Nothing here reads a clock: every entry point takes the time in
milliseconds from its caller.

Identifiers are 32-bit and wrap.  Times are `u64` milliseconds and the fixed
point congestion window a `u32`, both kept as natural numbers with the
source's saturating operations.
-/

/-- Identifies one reliable message within a session. -/
abbrev MessageId := BitVec 32

/-- Bytes an identifier occupies inside a reliable plaintext. -/
def messageIdLen : Nat := 4

/-- Bytes an acknowledgement block occupies. -/
def ackBlockLen : Nat := 12

/-- How many messages may be unacknowledged at once. -/
def maxInFlight : Nat := 32

/-- Retransmissions attempted before a message is abandoned. -/
def maxRetries : Nat := 5

/-- Messages an acknowledgement can report below its highest. -/
def ackWindow : Nat := 64

/-- The highest message seen, plus a bitmap of the 64 below. -/
structure Ack where
  highest : MessageId
  bitmap : BitVec 64
  deriving Repr, DecidableEq

namespace Ack

/-- The bytes of the block. -/
def bytes (ack : Ack) : Bytes :=
  LittleEndian.encode 4 ack.highest.toNat ++
    LittleEndian.encode 8 ack.bitmap.toNat

/-- Serialises into the front of a buffer of `outLen` bytes. -/
def encode (ack : Ack) (outLen : Nat) : Except CoreError Bytes :=
  if outLen < ackBlockLen then
    .error .bufferTooSmall
  else
    .ok ack.bytes

/-- Parses an acknowledgement block. -/
def decode (input : Bytes) : Except CoreError Ack :=
  if input.length < ackBlockLen then
    .error .messageTooShort
  else
    .ok
      { highest := BitVec.ofNat 32 (LittleEndian.decode (input.take 4))
        bitmap :=
          BitVec.ofNat 64 (LittleEndian.decode ((input.drop 4).take 8)) }

/-- Whether this acknowledgement covers `id`. -/
def covers (ack : Ack) (id : MessageId) : Bool :=
  if id = ack.highest then
    true
  else
    let distance := (ack.highest - id).toNat
    if distance > ackWindow then
      false
    else
      ack.bitmap &&& (1#64 <<< (distance - 1)) != 0#64

end Ack

/-- Whether `id` is later than `than`, the shorter way round the circle. -/
def isNewer (id than : MessageId) : Bool :=
  id != than && (id - than).toNat < 0x80000000

/-- Tracks which message identifiers have already been delivered. -/
structure DedupWindow where
  highest : MessageId
  bitmap : BitVec 64
  started : Bool
  deriving Repr, DecidableEq

namespace DedupWindow

/-- An empty window. -/
def new : DedupWindow where
  highest := 0
  bitmap := 0
  started := false

/-- Records `id` and reports whether it is new. -/
def accept (window : DedupWindow) (id : MessageId) :
    Bool × DedupWindow :=
  if !window.started then
    (true, { window with started := true, highest := id })
  else if isNewer id window.highest then
    let shift := (id - window.highest).toNat
    -- The previous highest becomes the bit at distance `shift`.
    let bitmap :=
      if shift > ackWindow then
        0#64
      else if shift = ackWindow then
        1#64 <<< (ackWindow - 1)
      else
        (window.bitmap <<< shift) ||| (1#64 <<< (shift - 1))
    (true, { window with bitmap := bitmap, highest := id })
  else if id = window.highest then
    (false, window)
  else
    let distance := (window.highest - id).toNat
    if distance > ackWindow then
      (false, window)
    else
      let bit := 1#64 <<< (distance - 1)
      if window.bitmap &&& bit != 0#64 then
        (false, window)
      else
        (true, { window with bitmap := window.bitmap ||| bit })

/-- The acknowledgement describing everything received so far. -/
def toAck (window : DedupWindow) : Ack where
  highest := window.highest
  bitmap := window.bitmap

end DedupWindow

/-- Timeout used before any round trip has been measured. -/
def initialRtoMs : Nat := 200

/-- Floor on the computed timeout. -/
def minRtoMs : Nat := 20

/-- Ceiling on the computed timeout, backoff included. -/
def maxRtoMs : Nat := 5000

/-- Retransmission timeout estimator. -/
structure Rto where
  smoothedMs : Option Nat
  variationMs : Nat
  deriving Repr, DecidableEq

namespace Rto

/-- An estimator with no measurements yet. -/
def new : Rto where
  smoothedMs := none
  variationMs := 0

/-- The current retransmission timeout in milliseconds. -/
def current (rto : Rto) : Nat :=
  match rto.smoothedMs with
  | none =>
      initialRtoMs
  | some srtt =>
      clamp
        (saturatingAdd 32 srtt (saturatingMul 32 rto.variationMs 4))
        minRtoMs maxRtoMs

/-- Folds in a round-trip measurement. -/
def sample (rto : Rto) (rttMs : Nat) : Rto :=
  match rto.smoothedMs with
  | none =>
      { smoothedMs := some rttMs, variationMs := rttMs / 2 }
  | some srtt =>
      let delta := (srtt - rttMs) + (rttMs - srtt)
      let variation := (rto.variationMs * 3 + delta) / 4
      let smoothed := (srtt * 7 + rttMs) / 8
      { smoothedMs := some (smoothed % 2 ^ 32)
        variationMs := variation % 2 ^ 32 }

/-- The timeout of a message already retransmitted `retries` times. -/
def withBackoff (rto : Rto) (retries : Nat) : Nat :=
  let shift := min retries 5
  min (saturatingMul 32 rto.current (2 ^ shift)) maxRtoMs

end Rto

/-- One unacknowledged message. -/
structure InFlight where
  id : MessageId
  deadlineMs : Nat
  sentAtMs : Nat
  retries : Nat
  deriving Repr, DecidableEq

/-- What polling the queue turned up. -/
inductive Due where
  | retransmit (id : MessageId)
  | gaveUp (id : MessageId)
  deriving Repr, DecidableEq

/-- Whether a report asks for a retransmission. -/
def Due.isRetransmit : Due → Bool
  | .retransmit _ =>
      true
  | .gaveUp _ =>
      false

/-- Fixed-point scale for the congestion window. -/
def cwndScale : Nat := 256

/-- Messages the window starts at. -/
def initialCwnd : Nat := 4

/-- Messages the window will not shrink below. -/
def minCwnd : Nat := 2

/-- The sender's window of unacknowledged messages. -/
structure RetransmitQueue where
  slots : List (Option InFlight)
  rto : Rto
  maxRetries : Nat
  nextId : MessageId
  cwnd : Nat
  ssthresh : Nat
  slots_length : slots.length = maxInFlight
  maxRetries_pos : 0 < maxRetries
  deriving Repr, DecidableEq

namespace RetransmitQueue

/-- An empty queue. -/
def new : RetransmitQueue where
  slots := List.replicate maxInFlight none
  rto := Rto.new
  maxRetries := Fectp.maxRetries
  nextId := 0
  cwnd := initialCwnd * cwndScale
  ssthresh := maxInFlight * cwndScale
  slots_length := by
    simp
  maxRetries_pos := by
    decide

/-- Sets the retry budget; zero is raised to one. -/
def setMaxRetries (queue : RetransmitQueue) (attempts : Nat) :
    RetransmitQueue :=
  { queue with
    maxRetries := max attempts 1
    maxRetries_pos := Nat.lt_of_lt_of_le Nat.one_pos (Nat.le_max_right _ _) }

/-- Forgets what was learned about the path, keeping what is in flight. -/
def forgetPath (queue : RetransmitQueue) : RetransmitQueue :=
  { queue with
    rto := Rto.new
    cwnd := initialCwnd * cwndScale
    ssthresh := maxInFlight * cwndScale }

/-- How many messages may be outstanding right now. -/
def window (queue : RetransmitQueue) : Nat :=
  clamp (queue.cwnd / cwndScale) 1 maxInFlight

/-- Widens the window by one acknowledgement's worth. -/
def onDelivery (queue : RetransmitQueue) : RetransmitQueue :=
  let ceiling := maxInFlight * cwndScale
  let cwnd :=
    if queue.cwnd < queue.ssthresh then
      saturatingAdd 32 queue.cwnd cwndScale
    else
      let step := max (cwndScale * cwndScale / max queue.cwnd 1) 1
      saturatingAdd 32 queue.cwnd step
  { queue with cwnd := min cwnd ceiling }

/-- Collapses the window, because something was lost. -/
def onLoss (queue : RetransmitQueue) : RetransmitQueue :=
  let floor := minCwnd * cwndScale
  { queue with
    ssthresh := max (queue.cwnd / 2) floor
    cwnd := floor }

/-- The occupied slots, in slot order. -/
def entries (queue : RetransmitQueue) : List InFlight :=
  queue.slots.filterMap id

/-- Number of messages awaiting acknowledgement. -/
def inFlight (queue : RetransmitQueue) : Nat :=
  queue.slots.countP Option.isSome

/-- The current retransmission timeout estimate. -/
def rtoMs (queue : RetransmitQueue) : Nat :=
  queue.rto.current

/-- The later of two identifiers with the larger key wins, as `max_by_key`. -/
def furtherBehind
    (nextId : MessageId)
    (best : Option MessageId)
    (id : MessageId) :
    Option MessageId :=
  match best with
  | none =>
      some id
  | some other =>
      if (nextId - other).toNat ≤ (nextId - id).toNat then
        some id
      else
        some other

/-- The outstanding identifier the rest have run furthest ahead of. -/
def oldestUnacked (queue : RetransmitQueue) : Option MessageId :=
  (queue.entries.map InFlight.id).foldl (furtherBehind queue.nextId) none

/-- The index of the first free slot; the slot count when none is free. -/
def freeSlot (queue : RetransmitQueue) : Nat :=
  queue.slots.findIdx Option.isNone

/-- Whether the distance bound on identifiers refuses another message. -/
def outOfReach (queue : RetransmitQueue) : Bool :=
  match queue.oldestUnacked with
  | none =>
      false
  | some oldest =>
      (queue.nextId - oldest).toNat ≥ ackWindow

/-- The slot entry of a message registered at `nowMs`. -/
def firstTransmission (queue : RetransmitQueue) (nowMs : Nat) :
    InFlight where
  id := queue.nextId
  deadlineMs := saturatingAdd 64 nowMs queue.rto.current
  sentAtMs := nowMs
  retries := 0

/-- Registers a newly sent message and returns its identifier. -/
def register (queue : RetransmitQueue) (nowMs : Nat) :
    Except CoreError (MessageId × RetransmitQueue) :=
  if queue.outOfReach then
    .error .windowFull
  else if queue.inFlight ≥ queue.window then
    .error .windowFull
  else if queue.freeSlot < queue.slots.length then
    .ok
      (queue.nextId,
        { queue with
          slots :=
            queue.slots.set queue.freeSlot
              (some (queue.firstTransmission nowMs))
          nextId := queue.nextId + 1
          slots_length := by
            simp [queue.slots_length] })
  else
    .error .windowFull

/--
One pass of `on_ack` over the slots: the slots left, the estimator after the
samples taken on the way, and the identifiers freed.
-/
def ackSlots (ack : Ack) (nowMs : Nat) :
    Rto → List (Option InFlight) → List (Option InFlight) × Rto × List MessageId
  | rto, [] =>
      ([], rto, [])
  | rto, none :: rest =>
      let (slots, rto', freed) := ackSlots ack nowMs rto rest
      (none :: slots, rto', freed)
  | rto, some entry :: rest =>
      if !ack.covers entry.id then
        let (slots, rto', freed) := ackSlots ack nowMs rto rest
        (some entry :: slots, rto', freed)
      else
        -- Karn's rule: a retransmitted entry gives no sample.
        let sampled :=
          if entry.retries = 0 then
            rto.sample (min (nowMs - entry.sentAtMs) (maxValue 32))
          else
            rto
        let (slots, rto', freed) := ackSlots ack nowMs sampled rest
        (none :: slots, rto', entry.id :: freed)

/-- An acknowledgement never changes the number of slots. -/
@[simp] theorem ackSlots_length
    (ack : Ack) (nowMs : Nat) (rto : Rto) (slots : List (Option InFlight)) :
    (ackSlots ack nowMs rto slots).1.length = slots.length := by
  induction slots generalizing rto with
  | nil => rfl
  | cons slot rest inductionHypothesis =>
    cases slot with
    | none => simp [ackSlots, inductionHypothesis]
    | some entry =>
      simp only [ackSlots]
      split <;> simp [inductionHypothesis]

/-- Widens the window once for every message of a count. -/
def onDeliveries (queue : RetransmitQueue) : Nat → RetransmitQueue
  | 0 =>
      queue
  | count + 1 =>
      (queue.onDelivery).onDeliveries count

/--
Applies an acknowledgement, returning the newly acknowledged identifiers that
fit the caller's buffer.
-/
def onAck (queue : RetransmitQueue) (ack : Ack) (nowMs capacity : Nat) :
    List MessageId × RetransmitQueue :=
  let pass := ackSlots ack nowMs queue.rto queue.slots
  let freed := pass.2.2
  let cleared : RetransmitQueue :=
    { queue with
      slots := pass.1
      rto := pass.2.1
      slots_length := by
        simp [pass, queue.slots_length] }
  (freed.take capacity, cleared.onDeliveries freed.length)

/--
One pass of `poll` over the slots, reporting at most `room` entries: the slots
left and the reports made.
-/
def pollSlots (budget nowMs : Nat) (rto : Rto) :
    Nat → List (Option InFlight) → List (Option InFlight) × List Due
  | _, [] =>
      ([], [])
  | room, none :: rest =>
      let (slots, due) := pollSlots budget nowMs rto room rest
      (none :: slots, due)
  | room, some entry :: rest =>
      if entry.deadlineMs > nowMs then
        let (slots, due) := pollSlots budget nowMs rto room rest
        (some entry :: slots, due)
      else
        match room with
        | 0 =>
            (some entry :: rest, [])
        | room + 1 =>
            let (slots, due) := pollSlots budget nowMs rto room rest
            if entry.retries ≥ budget then
              (none :: slots, .gaveUp entry.id :: due)
            else
              let retries := entry.retries + 1
              let resent :=
                { entry with
                  retries := retries
                  sentAtMs := nowMs
                  deadlineMs :=
                    saturatingAdd 64 nowMs (rto.withBackoff retries) }
              (some resent :: slots, .retransmit entry.id :: due)

/-- A poll never changes the number of slots. -/
@[simp] theorem pollSlots_length
    (budget nowMs : Nat) (rto : Rto) (room : Nat) (slots : List (Option InFlight)) :
    (pollSlots budget nowMs rto room slots).1.length = slots.length := by
  induction slots generalizing room with
  | nil => rfl
  | cons slot rest inductionHypothesis =>
    cases slot with
    | none => simp [pollSlots, inductionHypothesis]
    | some entry =>
      simp only [pollSlots]
      split
      · simp [inductionHypothesis]
      cases room with
      | zero => simp
      | succ room =>
        simp only
        split <;> simp [inductionHypothesis]

/-- Reports messages whose deadline has passed, at most `capacity` of them. -/
def poll (queue : RetransmitQueue) (nowMs capacity : Nat) :
    List Due × RetransmitQueue :=
  let pass := pollSlots queue.maxRetries nowMs queue.rto capacity queue.slots
  let polled : RetransmitQueue :=
    { queue with
      slots := pass.1
      slots_length := by
        simp [pass, queue.slots_length] }
  if pass.2.any Due.isRetransmit then
    (pass.2, polled.onLoss)
  else
    (pass.2, polled)

/-- The earliest deadline among outstanding messages. -/
def nextDeadlineMs (queue : RetransmitQueue) : Option Nat :=
  (queue.entries.map InFlight.deadlineMs).min?

end RetransmitQueue

end Fectp
