import Fectp.RetransmitAccount

namespace Fectp

/-!
# The congestion window

The window is kept in 256ths of a message.  Whatever is called, it stays between
two messages and thirty-two; an acknowledgement only widens it and a poll only
narrows it; and since a delivery widens it by eight 256ths at least, no loss-free
run of deliveries leaves it short of its ceiling for long.
-/

namespace RetransmitQueue

/-- The least window, in 256ths of a message. -/
def floor : Nat := minCwnd * cwndScale

/-- The greatest window, in 256ths of a message. -/
def ceiling : Nat := maxInFlight * cwndScale

/-- The window and the threshold are in their range. -/
structure Ranged (queue : RetransmitQueue) : Prop where
  floor_le_cwnd : floor ≤ queue.cwnd
  cwnd_le_ceiling : queue.cwnd ≤ ceiling
  floor_le_ssthresh : floor ≤ queue.ssthresh
  ssthresh_le_ceiling : queue.ssthresh ≤ ceiling

/-- How many messages an acknowledgement frees. -/
def freed (queue : RetransmitQueue) (ack : Ack) : Nat :=
  queue.entries.countP (ack.covers ·.id)

/-- How many messages a call delivers. -/
def delivers (queue : RetransmitQueue) : QueueCall → Nat
  | .onAck ack _ _ =>
      queue.freed ack
  | .register _ | .poll _ _ | .forgetPath =>
      0

/-- How many messages so many calls deliver. -/
def deliveries (queue : RetransmitQueue) : List QueueCall → Nat
  | [] =>
      0
  | call :: rest =>
      queue.delivers call + (queue.call call).deliveries rest

/-- A call that finds nothing lost, and keeps what was learned. -/
def lossless (queue : RetransmitQueue) : QueueCall → Prop
  | .poll nowMs room =>
      (queue.poll nowMs room).1.any Due.isRetransmit = false
  | .forgetPath =>
      False
  | .register _ | .onAck _ _ _ =>
      True

/-! ### One signal -/

namespace Ranged

variable {queue : RetransmitQueue}

theorem window_range (ranged : queue.Ranged) :
    minCwnd ≤ queue.window ∧ queue.window ≤ maxInFlight := by
  have low := ranged.floor_le_cwnd
  have high := ranged.cwnd_le_ceiling
  unfold floor minCwnd cwndScale at low
  unfold window clamp minCwnd maxInFlight cwndScale
  omega

theorem new : RetransmitQueue.new.Ranged :=
  ⟨by decide, by decide, by decide, by decide⟩

theorem congr (ranged : queue.Ranged) {after : RetransmitQueue} (sameCwnd : after.cwnd = queue.cwnd)
    (sameThreshold : after.ssthresh = queue.ssthresh) :
    after.Ranged := by
  refine ⟨?_, ?_, ?_, ?_⟩
  · exact sameCwnd ▸ ranged.floor_le_cwnd
  · exact sameCwnd ▸ ranged.cwnd_le_ceiling
  · exact sameThreshold ▸ ranged.floor_le_ssthresh
  · exact sameThreshold ▸ ranged.ssthresh_le_ceiling

theorem onLoss (ranged : queue.Ranged) :
    queue.onLoss.Ranged := by
  have high := ranged.cwnd_le_ceiling
  have bounds : floor ≤ ceiling := by decide
  refine ⟨le_rfl, bounds, Nat.le_max_right _ _, ?_⟩
  exact Nat.max_le.mpr ⟨(Nat.div_le_self _ _).trans high, bounds⟩

/-- Additive growth is never less than eight 256ths: the scale squared over the
ceiling. -/
theorem onDelivery_cwnd (ranged : queue.Ranged) :
    min (queue.cwnd + 8) ceiling ≤ queue.onDelivery.cwnd := by
  have low := ranged.floor_le_cwnd
  have high := ranged.cwnd_le_ceiling
  have step : 8 ≤ cwndScale * cwndScale / max queue.cwnd 1 := by
    refine (Nat.le_div_iff_mul_le (by omega)).mpr ?_
    unfold ceiling maxInFlight cwndScale at high
    unfold cwndScale
    omega
  have fits : ceiling ≤ maxValue 32 := by decide
  have scale : 8 ≤ cwndScale := by decide
  unfold onDelivery saturatingAdd
  dsimp only
  split
  · unfold ceiling at *
    omega
  · unfold ceiling at *
    omega

theorem onDelivery (ranged : queue.Ranged) :
    queue.onDelivery.Ranged := by
  have grows := ranged.onDelivery_cwnd
  have low := ranged.floor_le_cwnd
  have bounds : floor ≤ ceiling := by decide
  refine ⟨?_, Nat.min_le_right _ _, ranged.floor_le_ssthresh, ranged.ssthresh_le_ceiling⟩
  omega

/-- A batch of deliveries widens the window by each of them. -/
theorem onDeliveries (ranged : queue.Ranged) (count : Nat) :
    (queue.onDeliveries count).Ranged ∧ (queue.onDeliveries count).ssthresh = queue.ssthresh ∧
      min (queue.cwnd + 8 * count) ceiling ≤ (queue.onDeliveries count).cwnd := by
  induction count generalizing queue with
  | zero => exact ⟨ranged, rfl, Nat.min_le_left _ _⟩
  | succ count inductionHypothesis =>
    obtain ⟨inRange, threshold, grows⟩ := inductionHypothesis ranged.onDelivery
    have first := ranged.onDelivery_cwnd
    refine ⟨inRange, threshold, ?_⟩
    unfold RetransmitQueue.onDeliveries
    omega

end Ranged

/-- An acknowledgement widens the window by every message it frees. -/
theorem onAck_window (queue : RetransmitQueue) (ack : Ack) (nowMs room : Nat) :
    ∃ cleared : RetransmitQueue, cleared.cwnd = queue.cwnd ∧ cleared.ssthresh = queue.ssthresh ∧
        (queue.onAck ack nowMs room).2 = cleared.onDeliveries (queue.freed ack) := by
  have count : (ackSlots ack nowMs queue.rto queue.slots).2.2.length = queue.freed ack := by
    rw [ackSlots_freed, List.filter_map, List.length_map, freed, List.countP_eq_length_filter]
    rfl
  unfold onAck
  dsimp only
  rw [count]
  refine ⟨_, ?_, ?_, rfl⟩ <;> rfl

variable {queue : RetransmitQueue}

theorem Ranged.onAck (ranged : queue.Ranged) (ack : Ack) (nowMs room : Nat) :
    (queue.onAck ack nowMs room).2.Ranged ∧
      (queue.onAck ack nowMs room).2.ssthresh = queue.ssthresh ∧
      min (queue.cwnd + 8 * queue.freed ack) ceiling ≤ (queue.onAck ack nowMs room).2.cwnd := by
  obtain ⟨cleared, sameCwnd, sameThreshold, isAfter⟩ := queue.onAck_window ack nowMs room
  rw [isAfter, ← sameCwnd, ← sameThreshold]
  exact (ranged.congr sameCwnd sameThreshold).onDeliveries _

/-- An acknowledgement that frees nothing says nothing about the path. -/
theorem onAck_of_freed_zero {ack : Ack} (nothing : queue.freed ack = 0) (nowMs room : Nat) :
    (queue.onAck ack nowMs room).2.cwnd = queue.cwnd := by
  obtain ⟨cleared, sameCwnd, _, isAfter⟩ := queue.onAck_window ack nowMs room
  rw [isAfter, nothing]
  exact sameCwnd

/-- A poll takes a loss where it reports a retransmission, and only there. -/
theorem poll_window (queue : RetransmitQueue) (nowMs room : Nat) :
    (queue.poll nowMs room).2.cwnd = (if (queue.poll nowMs room).1.any Due.isRetransmit then
          queue.onLoss
        else
          queue).cwnd ∧
      (queue.poll nowMs room).2.ssthresh = (if (queue.poll nowMs room).1.any Due.isRetransmit then
          queue.onLoss
        else
          queue).ssthresh := by
  unfold poll
  dsimp only
  split <;> exact ⟨rfl, rfl⟩

theorem register_window (queue : RetransmitQueue) (nowMs : Nat) :
    (queue.call (.register nowMs)).cwnd = queue.cwnd ∧
      (queue.call (.register nowMs)).ssthresh = queue.ssthresh := by
  unfold call register
  split_ifs <;> exact ⟨rfl, rfl⟩

/-! ### Runs of calls -/

theorem Ranged.call (ranged : queue.Ranged) (call : QueueCall) :
    (queue.call call).Ranged := by
  cases call with
  | register nowMs =>
    obtain ⟨sameCwnd, sameThreshold⟩ := queue.register_window nowMs
    exact ranged.congr sameCwnd sameThreshold
  | onAck ack nowMs room => exact (ranged.onAck ack nowMs room).1
  | poll nowMs room =>
    obtain ⟨cwnd, threshold⟩ := queue.poll_window nowMs room
    refine Ranged.congr ?_ cwnd threshold
    split
    · exact ranged.onLoss
    · exact ranged
  | forgetPath => exact Ranged.new.congr rfl rfl

theorem run_ranged (attempts : Nat) (calls : List QueueCall) :
    (Execution.run call (new.setMaxRetries attempts) calls).Ranged :=
  @Execution.invariant_of_step _ _ call Ranged Ranged.call _ _ (Ranged.new.congr rfl rfl)

/-- Where nothing is lost, one call widens the window by what it delivers. -/
theorem Ranged.call_widens
    (ranged : queue.Ranged) {call : QueueCall} (nothingLost : queue.lossless call) :
    min (queue.cwnd + 8 * queue.delivers call) ceiling ≤ (queue.call call).cwnd := by
  cases call with
  | register nowMs =>
    rw [(queue.register_window nowMs).1]
    exact Nat.min_le_left _ _
  | onAck ack nowMs room => exact (ranged.onAck ack nowMs room).2.2
  | poll nowMs room =>
    have kept := (queue.poll_window nowMs room).1
    rw [show _ = false from nothingLost] at kept
    exact (Nat.min_le_left _ _).trans kept.ge
  | forgetPath => cases nothingLost

theorem Ranged.run_widens (ranged : queue.Ranged) {calls : List QueueCall}
    (nothingLost : Execution.Admits RetransmitQueue.call lossless queue calls) :
    min (queue.cwnd + 8 * queue.deliveries calls) ceiling ≤
      (Execution.run RetransmitQueue.call queue calls).cwnd := by
  induction calls generalizing queue with
  | nil => exact Nat.min_le_left _ _
  | cons call rest inductionHypothesis =>
    have first := ranged.call_widens nothingLost.1
    have later := inductionHypothesis (ranged.call call) nothingLost.2
    rw [Execution.run_cons]
    unfold deliveries
    omega

/-- Enough deliveries fill the window from wherever it stood. -/
theorem Ranged.run_fills (ranged : queue.Ranged) {calls : List QueueCall}
    (nothingLost : Execution.Admits RetransmitQueue.call lossless queue calls)
    (enough : 960 ≤ queue.deliveries calls) :
    (Execution.run RetransmitQueue.call queue calls).window = maxInFlight := by
  have widens := ranged.run_widens nothingLost
  have low := ranged.floor_le_cwnd
  unfold floor minCwnd cwndScale at low
  unfold ceiling maxInFlight cwndScale at widens
  unfold window clamp maxInFlight cwndScale
  omega

/-! ### Deliveries to be had -/

theorem deliveries_append (queue : RetransmitQueue) (earlier later : List QueueCall) :
    queue.deliveries (earlier ++ later) =
      queue.deliveries earlier + (Execution.run call queue earlier).deliveries later := by
  induction earlier generalizing queue with
  | nil => exact (Nat.zero_add _).symm
  | cons first rest inductionHypothesis =>
    rw [List.cons_append, deliveries, inductionHypothesis, deliveries,
      Execution.run_cons, Nat.add_assoc]

/-- The acknowledgement of one message by name. -/
def single (id : MessageId) : Ack where
  highest := id
  bitmap := 0

theorem freed_single_pos {entry : InFlight} (member : entry ∈ queue.entries) :
    0 < queue.freed (single entry.id) := by
  refine List.countP_pos_iff.mpr ⟨entry, member, ?_⟩
  simp [Ack.covers, single]

/-- A queue with nothing in flight takes a message. -/
theorem register_of_idle (idle : queue.entries = []) (nowMs : Nat) :
    queue.firstTransmission nowMs ∈ (queue.call (.register nowMs)).entries := by
  have isNone : ∀ slot ∈ queue.slots, slot = none := List.filterMap_eq_nil_iff.mp idle
  have inReach : queue.outOfReach = false := by
    unfold outOfReach oldestUnacked
    rw [idle]
    rfl
  have noneInFlight : queue.inFlight = 0 := by
    refine List.countP_eq_zero.mpr fun slot member => ?_
    simp [isNone slot member]
  have window : ¬queue.inFlight ≥ queue.window := by
    unfold RetransmitQueue.window clamp maxInFlight
    omega
  have free : queue.freeSlot < queue.slots.length := by
    refine List.findIdx_lt_length_of_exists ?_
    have inhabited : 0 < queue.slots.length := by
      rw [queue.slots_length]
      decide
    exact ⟨_, List.getElem_mem inhabited, by rw [isNone _ (List.getElem_mem inhabited)]; rfl⟩
  unfold call register
  dsimp only
  rw [if_neg (by rw [inReach]; decide), if_neg window, if_pos free]
  exact List.mem_filterMap.mpr ⟨_, List.mem_set free _, rfl⟩

/-- From any state a message can be delivered without loss. -/
theorem exists_delivery (queue : RetransmitQueue) :
    ∃ calls, Execution.Admits call lossless queue calls ∧ 0 < queue.deliveries calls := by
  rcases inFlight : queue.entries with _ | ⟨entry, rest⟩
  · have registered := register_of_idle inFlight 0
    refine ⟨[.register 0, .onAck (single queue.nextId) 0 0], ⟨trivial, trivial, trivial⟩, ?_⟩
    have positive := freed_single_pos registered
    exact Nat.lt_of_lt_of_le positive ((Nat.le_add_right _ _).trans (Nat.le_add_left _ _))
  · have member : entry ∈ queue.entries := inFlight ▸ List.mem_cons_self
    refine ⟨[.onAck (single entry.id) 0 0], ⟨trivial, trivial⟩, ?_⟩
    exact Nat.lt_of_lt_of_le (freed_single_pos member) (Nat.le_add_right _ _)

theorem exists_deliveries (queue : RetransmitQueue) (count : Nat) :
    ∃ calls, Execution.Admits call lossless queue calls ∧ count ≤ queue.deliveries calls := by
  induction count with
  | zero => exact ⟨[], trivial, le_rfl⟩
  | succ count inductionHypothesis =>
    obtain ⟨earlier, admitted, delivered⟩ := inductionHypothesis
    obtain ⟨more, alsoAdmitted, another⟩ := exists_delivery (Execution.run call queue earlier)
    refine ⟨earlier ++ more, Execution.admits_append.mpr ⟨admitted, alsoAdmitted⟩, ?_⟩
    rw [deliveries_append]
    omega

theorem window_mono {narrow wide : RetransmitQueue} (ordered : narrow.cwnd ≤ wide.cwnd) :
    narrow.window ≤ wide.window := by
  have scaled := Nat.div_le_div_right ordered (c := cwndScale)
  unfold window clamp
  omega

end RetransmitQueue

open RetransmitQueue in
/--
Whatever was called, the window and the threshold are in their range;
registering leaves them alone, acknowledgements only widen the window, by what
they free, and polls only narrow it, for what they report lost.  From there,
nine hundred and sixty deliveries without a loss bring the window to its
ceiling, and such deliveries can always be had.
-/
theorem window_moves_rightly (attempts : Nat) (calls : List QueueCall) :
    let queue :=
      Execution.run RetransmitQueue.call (.setMaxRetries .new attempts) calls
    (minCwnd * cwndScale ≤ queue.cwnd ∧
        queue.cwnd ≤ maxInFlight * cwndScale ∧
        minCwnd * cwndScale ≤ queue.ssthresh ∧
        queue.ssthresh ≤ maxInFlight * cwndScale) ∧
      (minCwnd ≤ queue.window ∧ queue.window ≤ maxInFlight) ∧
      (∀ nowMs,
        (queue.call (.register nowMs)).cwnd = queue.cwnd ∧
          (queue.call (.register nowMs)).ssthresh = queue.ssthresh) ∧
      (∀ ack nowMs room,
        let after := (queue.onAck ack nowMs room).2
        queue.cwnd ≤ after.cwnd ∧
          queue.window ≤ after.window ∧
          (queue.freed ack = 0 →
            after.cwnd = queue.cwnd ∧ after.ssthresh = queue.ssthresh)) ∧
      (∀ nowMs room,
        let after := (queue.poll nowMs room).2
        after.cwnd ≤ queue.cwnd ∧
          after.window ≤ queue.window ∧
          ((queue.poll nowMs room).1.any Due.isRetransmit = false →
            after.cwnd = queue.cwnd ∧ after.ssthresh = queue.ssthresh)) ∧
      (∀ more,
        Execution.Admits RetransmitQueue.call lossless queue more →
          960 ≤ queue.deliveries more →
            (Execution.run RetransmitQueue.call queue more).window =
              maxInFlight) ∧
      ∀ count,
        ∃ more,
          Execution.Admits RetransmitQueue.call lossless queue more ∧
            count ≤ queue.deliveries more := by
  intro queue
  have ranged : queue.Ranged := run_ranged attempts calls
  refine ⟨⟨ranged.floor_le_cwnd, ranged.cwnd_le_ceiling,
    ranged.floor_le_ssthresh, ranged.ssthresh_le_ceiling⟩,
    ranged.window_range, queue.register_window, ?_, ?_, ?_,
    queue.exists_deliveries⟩
  · intro ack nowMs room
    obtain ⟨_, threshold, grows⟩ := ranged.onAck ack nowMs room
    have wider : queue.cwnd ≤ (queue.onAck ack nowMs room).2.cwnd :=
      (Nat.le_min.mpr ⟨Nat.le_add_right _ _, ranged.cwnd_le_ceiling⟩).trans
        grows
    refine ⟨wider, window_mono wider, ?_⟩
    intro nothing
    exact ⟨onAck_of_freed_zero nothing nowMs room, threshold⟩
  · intro nowMs room
    obtain ⟨cwnd, threshold⟩ := queue.poll_window nowMs room
    have narrower : (queue.poll nowMs room).2.cwnd ≤ queue.cwnd := by
      rw [cwnd]
      split
      · exact ranged.floor_le_cwnd
      · exact le_rfl
    refine ⟨narrower, window_mono narrower, ?_⟩
    intro nothingLost
    rw [nothingLost] at cwnd threshold
    exact ⟨cwnd, threshold⟩
  · intro more nothingLost enough
    exact ranged.run_fills nothingLost enough

end Fectp
