import Mathlib.Data.List.Nodup
import Fectp.Execution
import Fectp.RetransmitSlots

namespace Fectp

open SerialNumber

/-!
# What becomes of every message

Messages are numbered as they are registered.  A log beside the queue keeps what
the queue reports of each, and a message's history is what the log says of it:
so many retransmissions while it waits in its slot, and one last word once it
has left.

Reports name identifiers, and an identifier names the last message it was given
to.
-/

/-- A call on a queue. -/
inductive QueueCall where
  | register (nowMs : Nat)
  | onAck (ack : Ack) (nowMs room : Nat)
  | poll (nowMs room : Nat)
  | forgetPath
  deriving Repr, DecidableEq

/-- The call's buffer holds a report of every slot. -/
def QueueCall.isRoomy : QueueCall → Bool
  | .onAck _ _ room | .poll _ room => maxInFlight ≤ room
  | .register _ | .forgetPath => true

/-- What is said of a message. -/
inductive Outcome where
  | resent
  | acked
  /-- It was acknowledged, and the caller's buffer was full. -/
  | unsaid
  | gaveUp
  deriving Repr, DecidableEq

def Due.outcome : Due → MessageId × Outcome
  | .retransmit id => (id, .resent)
  | .gaveUp id => (id, .gaveUp)

namespace RetransmitQueue

/-- The queue after a call. -/
def call (queue : RetransmitQueue) : QueueCall → RetransmitQueue
  | .register nowMs =>
      match queue.register nowMs with
      | .error _ =>
          queue
      | .ok (_, registered) =>
          registered
  | .onAck ack nowMs room =>
      (queue.onAck ack nowMs room).2
  | .poll nowMs room =>
      (queue.poll nowMs room).2
  | .forgetPath =>
      queue.forgetPath

/-- What a call says, and of which identifiers. -/
def told (queue : RetransmitQueue) : QueueCall → List (MessageId × Outcome)
  | .register _ | .forgetPath =>
      []
  | .onAck ack nowMs room =>
      (queue.onAck ack nowMs room).1.map (·, .acked) ++
        ((queue.onAck ack nowMs maxInFlight).1.drop room).map (·, .unsaid)
  | .poll nowMs room =>
      (queue.poll nowMs room).1.map Due.outcome

/-- How many messages a call registers. -/
def issues (queue : RetransmitQueue) : QueueCall → Nat
  | .register nowMs =>
      match queue.register nowMs with
      | .error _ =>
          0
      | .ok _ =>
          1
  | _ =>
      0

end RetransmitQueue

/-! ### One pass over the slots -/

/-- What a pass makes of one message in flight, and says of it. -/
inductive Turnout (budget : Nat) :
    InFlight → Option InFlight → Option Outcome → Prop where
  | waits {entry : InFlight} :
      Turnout budget entry (some entry) none
  | resent {entry again : InFlight} :
      entry.retries < budget →
      again.id = entry.id →
      again.retries = entry.retries + 1 →
      Turnout budget entry (some again) (some .resent)
  | acked {entry : InFlight} :
      Turnout budget entry none (some .acked)
  | unsaid {entry : InFlight} :
      Turnout budget entry none (some .unsaid)
  | gaveUp {entry : InFlight} :
      budget ≤ entry.retries →
      Turnout budget entry none (some .gaveUp)

/-- A pass over the messages in flight, in slot order. -/
inductive Round (budget : Nat) :
    List InFlight → List InFlight → List (MessageId × Outcome) → Prop where
  | nil :
      Round budget [] [] []
  | cons {entry : InFlight} {left : Option InFlight}
      {said : Option Outcome} {before after : List InFlight}
      {told : List (MessageId × Outcome)} :
      Turnout budget entry left said →
      Round budget before after told →
      Round budget (entry :: before) (left.toList ++ after)
        ((said.map (entry.id, ·)).toList ++ told)

namespace Round

variable {budget : Nat}

theorem refl (entries : List InFlight) : Round budget entries entries [] := by
  induction entries with
  | nil => exact .nil
  | cons entry rest inductionHypothesis => exact .cons .waits inductionHypothesis

variable {after : List InFlight} {told : List (MessageId × Outcome)}

/-- A pass, as the messages with some identifiers see it. -/
theorem filter
    {before : List InFlight} (round : Round budget before after told) (named : MessageId → Bool) :
    Round budget (before.filter (named ·.id)) (after.filter (named ·.id))
      (told.filter (named ·.1)) := by
  induction round with
  | nil => exact .nil
  | @cons entry left said before after told turnout _ inductionHypothesis =>
    rw [List.filter_append, List.filter_append]
    cases isNamed : named entry.id with
    | true =>
      have kept : left.toList.filter (named ·.id) = left.toList := by
        cases turnout <;> simp [*]
      have said' : (said.map (entry.id, ·)).toList.filter (named ·.1) =
            (said.map (entry.id, ·)).toList := by
        cases said <;> simp [isNamed]
      rw [List.filter_cons, if_pos isNamed, kept, said']
      exact .cons turnout inductionHypothesis
    | false =>
      have kept : left.toList.filter (named ·.id) = [] := by
        cases turnout <;> simp [*]
      have said' : (said.map (entry.id, ·)).toList.filter (named ·.1) = [] := by
        cases said <;> simp [isNamed]
      rw [List.filter_cons, if_neg (by simp [isNamed]), kept, said']
      exact inductionHypothesis

theorem told_nil (round : Round budget [] after told) :
    told = [] := by
  cases round
  rfl

/-- What is left was there before, under the same identifier. -/
theorem left {before : List InFlight} (round : Round budget before after told)
    {entry : InFlight} (member : entry ∈ after) :
    ∃ earlier ∈ before, entry.id = earlier.id := by
  induction round with
  | nil => cases member
  | @cons held _ _ _ _ _ turnout _ inductionHypothesis =>
    rcases List.mem_append.mp member with isLeft | member
    · refine ⟨held, List.mem_cons_self, ?_⟩
      cases turnout with
      | waits => rw [List.mem_singleton.mp isLeft]
      | resent _ sameId _ => rw [List.mem_singleton.mp isLeft, sameId]
      | acked | unsaid | gaveUp => cases isLeft
    · obtain ⟨earlier, isEarlier, sameId⟩ := inductionHypothesis member
      exact ⟨earlier, List.mem_cons_of_mem _ isEarlier, sameId⟩

end Round

namespace RetransmitQueue

variable (queue : RetransmitQueue) (ack : Ack) (nowMs room : Nat)

/-- What an acknowledgement makes of the messages in flight. -/
theorem acked_round (budget room : Nat) (held : List InFlight) :
    let freed := (held.map InFlight.id).filter ack.covers
    Round budget held (held.filter (!ack.covers ·.id))
      ((freed.take room).map (·, .acked) ++ (freed.drop room).map (·, .unsaid)) := by
  induction held generalizing room with
  | nil => cases room <;> exact .nil
  | cons entry rest inductionHypothesis =>
    cases covered : ack.covers entry.id with
    | false =>
      have turn := Round.cons (.waits : Turnout budget entry _ _) (inductionHypothesis room)
      simpa [covered] using turn
    | true =>
      cases room with
      | zero =>
        have turn := Round.cons (.unsaid : Turnout budget entry _ _) (inductionHypothesis 0)
        simpa [covered] using turn
      | succ room =>
        have turn := Round.cons (.acked : Turnout budget entry _ _) (inductionHypothesis room)
        simpa [covered] using turn

theorem onAck_entries :
    (queue.onAck ack nowMs room).2.entries = queue.entries.filter (!ack.covers ·.id) := by
  unfold entries
  rw [onAck_slots, List.filterMap_map, List.filter_filterMap]
  refine List.filterMap_congr fun slot _ => ?_
  cases slot <;> rfl

theorem onDeliveries_maxRetries (count : Nat) :
    (queue.onDeliveries count).maxRetries = queue.maxRetries := by
  induction count generalizing queue with
  | zero => rfl
  | succ count inductionHypothesis => exact inductionHypothesis queue.onDelivery

theorem onAck_maxRetries :
    (queue.onAck ack nowMs room).2.maxRetries = queue.maxRetries :=
  onDeliveries_maxRetries _ _

theorem poll_maxRetries :
    (queue.poll nowMs room).2.maxRetries = queue.maxRetries := by
  unfold poll
  dsimp only
  split <;> rfl

theorem onAck_round :
    Round queue.maxRetries queue.entries (queue.onAck ack nowMs room).2.entries
      (queue.told (.onAck ack nowMs room)) := by
  have all : (queue.onAck ack nowMs maxInFlight).1 =
        (queue.entries.map InFlight.id).filter ack.covers := by
    rw [onAck_freed]
    refine List.take_of_length_le ?_
    refine (List.length_filter_le _ _).trans ?_
    rw [List.length_map, entries, ← queue.slots_length]
    exact List.length_filterMap_le _ _
  unfold told
  dsimp only
  rw [all, onAck_freed, onAck_entries]
  exact acked_round ack queue.maxRetries room queue.entries

/-- A poll's pass over the slots, up to where its buffer is full. -/
theorem pollSlots_round
    (budget nowMs : Nat) (rto : Rto) (room : Nat) (slots : List (Option InFlight)) :
    Round budget (slots.filterMap id) ((pollSlots budget nowMs rto room slots).1.filterMap id)
      ((pollSlots budget nowMs rto room slots).2.map Due.outcome) := by
  induction slots generalizing room with
  | nil => exact .nil
  | cons slot rest inductionHypothesis =>
    cases slot with
    | none => exact inductionHypothesis room
    | some entry =>
      simp only [pollSlots]
      split
      · exact .cons .waits (inductionHypothesis room)
      cases room with
      | zero => exact .refl _
      | succ room =>
        dsimp only
        split
        · next spent => exact .cons (.gaveUp spent) (inductionHypothesis room)
        next unspent =>
        exact .cons (.resent (Nat.lt_of_not_le unspent) (by rfl) (by rfl))
          (inductionHypothesis room)

theorem poll_round :
    Round queue.maxRetries queue.entries (queue.poll nowMs room).2.entries
      (queue.told (.poll nowMs room)) := by
  unfold told entries
  dsimp only
  rw [poll_slots, poll_due]
  exact pollSlots_round _ _ _ _ _

/-- The new message joins those in flight. -/
theorem register_entries {queue registered : RetransmitQueue} {nowMs : Nat} {given : MessageId}
    (accepted : queue.register nowMs = .ok (given, registered)) :
    ∃ front back, queue.entries = front ++ back ∧
        registered.entries = front ++ queue.firstTransmission nowMs :: back := by
  obtain ⟨_, _, _, free, _, slots, _, _⟩ := register_ok accepted
  have wasFree : queue.slots[queue.freeSlot] = none :=
    Option.isNone_iff_eq_none.mp (@List.findIdx_getElem _ Option.isNone queue.slots free)
  obtain ⟨front, back, before, _, after⟩ : ∃ front back,
        queue.slots = front ++ queue.slots[queue.freeSlot] :: back ∧ front.length = queue.freeSlot ∧
          queue.slots.set queue.freeSlot (some (queue.firstTransmission nowMs)) =
            front ++ some (queue.firstTransmission nowMs) :: back :=
    List.exists_of_set free
  rw [wasFree] at before
  refine ⟨front.filterMap id, back.filterMap id, ?_, ?_⟩
  · unfold entries
    rw [before, List.filterMap_append]
    rfl
  · unfold entries
    rw [slots, after, List.filterMap_append]
    rfl

end RetransmitQueue

/-! ### The account of one message -/

/--
What has been said of a message, and what is in flight of it: it waits, and was
sent again as often as its slot says; or it has left, acknowledged after at
most so many retransmissions, or given up after exactly so many.
-/
inductive Told (budget : Nat) : List InFlight → List Outcome → Prop where
  | waiting {entry : InFlight} :
      entry.retries ≤ budget →
      Told budget [entry] (List.replicate entry.retries .resent)
  | acknowledged {sent : Nat} {said : Outcome} :
      sent ≤ budget →
      said = .acked ∨ said = .unsaid →
      Told budget [] (List.replicate sent .resent ++ [said])
  | gaveUp :
      Told budget [] (List.replicate budget .resent ++ [.gaveUp])

theorem Told.length_le {budget : Nat} {held : List InFlight} {history : List Outcome}
    (told : Told budget held history) :
    held.length ≤ 1 := by
  cases told with
  | waiting => exact le_rfl
  | acknowledged | gaveUp => exact Nat.zero_le _

/-- The three cases, where nothing went unsaid. -/
theorem Told.known {budget : Nat} {held : List InFlight} {history : List Outcome}
    (told : Told budget held history) (said : Outcome.unsaid ∉ history) :
    (∃ entry, held = [entry] ∧ entry.retries ≤ budget ∧
          history = List.replicate entry.retries .resent) ∨
      (held = [] ∧ ∃ sent ≤ budget, history = List.replicate sent .resent ++ [.acked]) ∨
      (held = [] ∧ history = List.replicate budget .resent ++ [.gaveUp]) := by
  cases told with
  | waiting within => exact Or.inl ⟨_, rfl, within, rfl⟩
  | @acknowledged sent last within isLast =>
    rcases isLast with rfl | rfl
    · exact Or.inr (Or.inl ⟨rfl, sent, within, rfl⟩)
    · exact (said List.mem_concat_self).elim
  | gaveUp => exact Or.inr (Or.inr ⟨rfl, rfl⟩)

theorem Told.round {budget : Nat} {before after : List InFlight} {history : List Outcome}
    {told : List (MessageId × Outcome)} (sofar : Told budget before history)
    (round : Round budget before after told) :
    Told budget after (history ++ told.map Prod.snd) := by
  cases sofar with
  | @waiting entry within =>
    obtain _ | ⟨turnout, rest⟩ := round
    cases rest
    cases turnout with
    | waits => simpa using Told.waiting within
    | @resent again left sameId counted =>
      have said : List.replicate entry.retries .resent ++ [.resent] =
            List.replicate again.retries Outcome.resent := by
        rw [counted, List.replicate_succ']
      refine said ▸ .waiting ?_
      omega
    | acked => exact .acknowledged within (Or.inl rfl)
    | unsaid => exact .acknowledged within (Or.inr rfl)
    | gaveUp spent =>
      rw [Nat.le_antisymm within spent]
      exact .gaveUp
  | acknowledged within said =>
    cases round
    exact List.append_nil _ ▸ .acknowledged within said
  | gaveUp =>
    cases round
    exact List.append_nil _ ▸ .gaveUp

/-- A queue, how many messages it was given, and what it said of each. -/
structure Account where
  queue : RetransmitQueue
  issued : Nat
  log : List (Nat × Outcome)
  deriving Repr, DecidableEq

/-- The message an identifier was last given to, of so many. -/
def named (issued : Nat) (id : MessageId) : Nat :=
  issued - 1 - (serial 32 issued - (id + 1)).toNat

theorem named_serial
    {issued message : Nat} (given : message < issued) (recent : issued - message ≤ 2 ^ 32) :
    named issued (serial 32 message) = message := by
  unfold named
  rw [← serial_succ, toNat_serial_sub given (by omega)]
  omega

namespace Account

def fresh (attempts : Nat) : Account where
  queue := RetransmitQueue.new.setMaxRetries attempts
  issued := 0
  log := []

def step (account : Account) (call : QueueCall) : Account where
  queue := account.queue.call call
  issued := account.issued + account.queue.issues call
  log :=
    account.log ++
      (account.queue.told call).map fun (id, outcome) =>
        (named account.issued id, outcome)

/-- What is in flight of a message. -/
def holding (account : Account) (message : Nat) : List InFlight :=
  account.queue.entries.filter (named account.issued ·.id == message)

/-- What has been said of a message. -/
def history (account : Account) (message : Nat) : List Outcome :=
  (account.log.filter (·.1 == message)).map Prod.snd

/-- What holds of the account at each moment. -/
structure Kept (budget : Nat) (account : Account) : Prop where
  attempts : account.queue.maxRetries = budget
  nextId : account.queue.nextId = serial 32 account.issued
  recent : ∀ entry ∈ account.queue.entries,
      ∃ message,
        message < account.issued ∧
          account.issued - message ≤ ackWindow ∧
          entry.id = serial 32 message
  told : ∀ message < account.issued,
      Told budget (account.holding message) (account.history message)
  unissued : ∀ message, account.issued ≤ message → account.history message = []

theorem kept_fresh (attempts : Nat) :
    (fresh attempts).Kept (max attempts 1) where
  attempts := rfl
  nextId := rfl
  recent := by
    intro entry member
    simp [fresh, RetransmitQueue.setMaxRetries, RetransmitQueue.new,
      RetransmitQueue.entries] at member
  told := by
    intro message given
    cases given
  unissued _ _ := rfl

/-- A registration that is refused changes nothing. -/
theorem step_refused {account : Account} {nowMs : Nat} {error : CoreError}
    (refused : account.queue.register nowMs = .error error) :
    account.step (.register nowMs) = account := by
  unfold step RetransmitQueue.call RetransmitQueue.issues RetransmitQueue.told
  dsimp only
  rw [refused]
  simp

theorem history_step (account : Account) (call : QueueCall) (message : Nat) :
    (account.step call).history message = account.history message ++
        ((account.queue.told call).filter (named account.issued ·.1 == message)).map Prod.snd := by
  unfold history step
  rw [List.filter_append, List.map_append, List.filter_map, List.map_map]
  rfl

namespace Kept

variable {budget : Nat} {account : Account}

section

variable (kept : account.Kept budget)

include kept

/-- The number of a message in flight. -/
theorem named_lt {entry : InFlight} (member : entry ∈ account.queue.entries) :
    named account.issued entry.id < account.issued := by
  obtain ⟨message, given, recent, isSerial⟩ := kept.recent entry member
  rw [isSerial, named_serial given (by unfold ackWindow at recent; omega)]
  exact given

/-- Nothing is in flight of a message that was not registered. -/
theorem holding_unissued {message : Nat} (unissued : account.issued ≤ message) :
    account.holding message = [] := by
  refine List.filter_eq_nil_iff.mpr ?_
  intro entry member isNamed
  have given := kept.named_lt member
  rw [beq_iff_eq.mp isNamed] at given
  omega

/-- A call that passes over the slots and registers nothing. -/
theorem round {call : QueueCall} (issuesNone : account.queue.issues call = 0)
    (round : Round account.queue.maxRetries account.queue.entries
        (account.queue.call call).entries (account.queue.told call))
    (attempts : (account.queue.call call).maxRetries = account.queue.maxRetries)
    (nextId : (account.queue.call call).nextId = account.queue.nextId) :
    (account.step call).Kept budget := by
  have issued : (account.step call).issued = account.issued := by
    unfold step
    rw [issuesNone]
    rfl
  rw [kept.attempts] at round
  have ofMessage (message : Nat) := round.filter (named account.issued · == message)
  refine ⟨attempts.trans kept.attempts, ?_, ?_, ?_, ?_⟩
  · rw [issued]
    exact nextId.trans kept.nextId
  · intro entry member
    obtain ⟨earlier, isEarlier, sameId⟩ := round.left member
    rw [issued, sameId]
    exact kept.recent earlier isEarlier
  · intro message given
    rw [issued] at given
    have said := (kept.told message given).round (ofMessage message)
    rw [history_step]
    unfold holding
    rw [issued]
    exact said
  · intro message unissued
    rw [issued] at unissued
    have nothing := ofMessage message
    rw [show account.queue.entries.filter (named account.issued ·.id == message) = []
      from kept.holding_unissued unissued] at nothing
    rw [history_step, kept.unissued message unissued, nothing.told_nil]
    rfl

/-- A registration adds one message, of which nothing has been said. -/
theorem register {nowMs : Nat} {id : MessageId} {registered : RetransmitQueue}
    (accepted : account.queue.register nowMs = .ok (id, registered)) :
    (account.step (.register nowMs)).Kept budget := by
  obtain ⟨_, inReach, _, _, nextId, _, _, attempts⟩ := RetransmitQueue.register_ok accepted
  obtain ⟨front, back, before, after⟩ := RetransmitQueue.register_entries accepted
  have stepped : account.step (.register nowMs) =
        ⟨registered, account.issued + 1, account.log⟩ := by
    unfold step RetransmitQueue.call RetransmitQueue.issues RetransmitQueue.told
    dsimp only
    rw [accepted]
    simp
  have isNew : (account.queue.firstTransmission nowMs).id = serial 32 account.issued := kept.nextId
  have newName : named (account.issued + 1) (serial 32 account.issued) = account.issued :=
    named_serial (Nat.lt_succ_self _) (by omega)
  -- Those already in flight are still in the window, under the same numbers.
  have older : ∀ entry ∈ front ++ back, ∃ message,
          message < account.issued ∧ account.issued + 1 - message ≤ ackWindow ∧
            entry.id = serial 32 message ∧
            named (account.issued + 1) entry.id = message ∧
            named account.issued entry.id = message := by
    intro entry member
    rw [← before] at member
    obtain ⟨message, given, recent, isSerial⟩ := kept.recent entry member
    have near := RetransmitQueue.distance_lt_of_inReach inReach member
    unfold ackWindow at recent near
    rw [kept.nextId, isSerial, toNat_serial_sub given.le (by omega)] at near
    refine ⟨message, given, by unfold ackWindow; omega, isSerial, ?_, ?_⟩
    · rw [isSerial]
      exact named_serial (by omega) (by omega)
    · rw [isSerial]
      exact named_serial given (by omega)
  have ofOlder {part : List InFlight} (sub : part ⊆ front ++ back)
      (message : Nat) :
      part.filter (named (account.issued + 1) ·.id == message) =
        part.filter (named account.issued ·.id == message) := by
    refine List.filter_congr ?_
    intro entry member
    obtain ⟨_, _, _, _, new, old⟩ := older entry (sub member)
    rw [new, old]
  rw [stepped]
  refine ⟨attempts.trans kept.attempts, ?_, ?_, ?_, ?_⟩
  · rw [nextId, kept.nextId, serial_succ]
  · intro entry member
    rw [after] at member
    rcases List.mem_append.mp member with inFront | inBack
    · obtain ⟨message, given, recent, isSerial, _⟩ :=
        older entry (List.mem_append_left _ inFront)
      exact ⟨message, Nat.lt_succ_of_lt given, recent, isSerial⟩
    rcases List.mem_cons.mp inBack with rfl | inBack
    · refine ⟨account.issued, Nat.lt_succ_self _, ?_, isNew⟩
      rw [Nat.add_sub_cancel_left]
      decide
    · obtain ⟨message, given, recent, isSerial, _⟩ :=
        older entry (List.mem_append_right _ inBack)
      exact ⟨message, Nat.lt_succ_of_lt given, recent, isSerial⟩
  · intro message given
    have held : Account.holding ⟨registered, account.issued + 1, account.log⟩ message =
          front.filter (named account.issued ·.id == message) ++ (if account.issued == message then
              [account.queue.firstTransmission nowMs]
            else []) ++
            back.filter (named account.issued ·.id == message) := by
      unfold holding
      rw [after, List.filter_append, List.filter_cons, isNew, newName,
        ofOlder (List.subset_append_left _ _),
        ofOlder (List.subset_append_right _ _), List.append_assoc]
      split <;> rfl
    have whole : account.holding message = front.filter (named account.issued ·.id == message) ++
            back.filter (named account.issued ·.id == message) := by
      unfold holding
      rw [before, List.filter_append]
    rw [held]
    rcases Nat.lt_succ_iff_lt_or_eq.mp given with given | rfl
    · rw [if_neg (by simpa using Nat.ne_of_gt given), List.append_nil,
        ← whole]
      exact kept.told message given
    rw [kept.holding_unissued le_rfl] at whole
    obtain ⟨noFront, noBack⟩ := List.append_eq_nil_iff.mp whole.symm
    rw [noFront, noBack, if_pos (beq_self_eq_true _),
      show Account.history ⟨registered, _, account.log⟩ account.issued = []
      from kept.unissued account.issued le_rfl]
    exact .waiting (Nat.zero_le _)
  · intro message unissued
    exact kept.unissued message (Nat.le_of_succ_le unissued)

theorem step (call : QueueCall) :
    (account.step call).Kept budget := by
  cases call with
  | register nowMs =>
    cases accepted : account.queue.register nowMs with
    | ok outcome => exact kept.register accepted
    | error error =>
      rw [step_refused accepted]
      exact kept
  | onAck ack nowMs room =>
    exact kept.round rfl (account.queue.onAck_round ack nowMs room)
      (account.queue.onAck_maxRetries ack nowMs room)
      (account.queue.onAck_nextId ack nowMs room)
  | poll nowMs room =>
    exact kept.round rfl (account.queue.poll_round nowMs room)
      (account.queue.poll_maxRetries nowMs room)
      (account.queue.poll_nextId nowMs room)
  | forgetPath => exact kept.round rfl (.refl _) rfl rfl

/-- No two messages in flight share an identifier. -/
theorem distinct :
    (account.queue.entries.map InFlight.id).Nodup := by
  have numbers : ((account.queue.entries.map InFlight.id).map (named account.issued)).Nodup := by
    rw [List.map_map, List.nodup_iff_count_le_one]
    intro message
    rw [List.count, List.countP_map, List.countP_eq_length_filter]
    change (account.holding message).length ≤ 1
    by_cases given : message < account.issued
    · exact (kept.told message given).length_le
    · rw [kept.holding_unissued (Nat.le_of_not_lt given)]
      exact Nat.zero_le _
  exact numbers.of_map _

end

end Kept

theorem run_kept (attempts : Nat) (calls : List QueueCall) :
    (Execution.run step (fresh attempts) calls).Kept (max attempts 1) :=
  @Execution.invariant_of_step _ _ step (Kept (max attempts 1))
    (fun kept call => kept.step call) _ calls (kept_fresh attempts)

/-- A call with room for every report leaves nothing unsaid. -/
theorem told_of_roomy
    (queue : RetransmitQueue) {call : QueueCall} (roomy : call.isRoomy = true) (id : MessageId) :
    (id, .unsaid) ∉ queue.told call := by
  intro member
  cases call with
  | register | forgetPath => cases member
  | onAck ack nowMs room =>
    have fits : (queue.onAck ack nowMs maxInFlight).1.length ≤ room := by
      exact (List.length_take_le _ _).trans (of_decide_eq_true roomy)
    unfold RetransmitQueue.told at member
    dsimp only at member
    rw [List.drop_eq_nil_of_le fits] at member
    simp at member
  | poll nowMs room =>
    obtain ⟨due, _, isDue⟩ := List.mem_map.mp member
    cases due <;> cases isDue

theorem run_said {calls : List QueueCall} (roomy : ∀ call ∈ calls, call.isRoomy = true)
    {account : Account} (said : ∀ message, (message, .unsaid) ∉ account.log) :
    ∀ message, (message, .unsaid) ∉ (Execution.run step account calls).log := by
  induction calls generalizing account with
  | nil => exact said
  | cons call rest inductionHypothesis =>
    refine inductionHypothesis (fun other member => roomy other (List.mem_cons_of_mem _ member)) ?_
    intro message member
    rcases List.mem_append.mp member with earlier | new
    · exact said message earlier
    · obtain ⟨⟨id, outcome⟩, isTold, isSaid⟩ := List.mem_map.mp new
      cases isSaid
      exact told_of_roomy account.queue (roomy call List.mem_cons_self) id isTold

/--
Every message registered waits in one slot, or has left by one acknowledgement
or by being given up, and nothing is said of it after that.  While it waits it
was sent again as often as its slot says, and it is given up only once it was
sent again as often as it may be.  What waits has distinct identifiers, among
the last sixty-four given out; and a registration that is refused changes
nothing.
-/
theorem every_message_is_accounted_for
    (attempts : Nat)
    (calls : List QueueCall)
    (roomy : ∀ call ∈ calls, call.isRoomy = true) :
    let account := Execution.run step (fresh attempts) calls
    let budget := max attempts 1
    (∀ message < account.issued,
        (∃ entry,
            account.holding message = [entry] ∧
              entry.retries ≤ budget ∧
              account.history message =
                List.replicate entry.retries .resent) ∨
          (account.holding message = [] ∧
            ∃ sent ≤ budget,
              account.history message =
                List.replicate sent .resent ++ [.acked]) ∨
          (account.holding message = [] ∧
            account.history message =
              List.replicate budget .resent ++ [.gaveUp])) ∧
      (∀ message, account.issued ≤ message → account.history message = []) ∧
      account.queue.entries.length ≤ maxInFlight ∧
      (account.queue.entries.map InFlight.id).Nodup ∧
      (∀ entry ∈ account.queue.entries,
        ∃ message,
          message < account.issued ∧
            account.issued - message ≤ ackWindow ∧
            entry.id = serial 32 message) ∧
      ∀ nowMs error,
        account.queue.register nowMs = .error error →
          error = .windowFull ∧
            account.step (.register nowMs) = account := by
  intro account budget
  have kept := run_kept attempts calls
  have said : ∀ message, (message, .unsaid) ∉ account.log :=
    run_said roomy (fun _ => List.not_mem_nil)
  refine ⟨?_, kept.unissued, ?_, kept.distinct, kept.recent, ?_⟩
  · intro message given
    refine (kept.told message given).known ?_
    intro isSaid
    obtain ⟨⟨other, _⟩, member, rfl⟩ := List.mem_map.mp isSaid
    exact said other (List.mem_filter.mp member).1
  · refine (List.length_filterMap_le _ _).trans ?_
    exact account.queue.slots_length.le
  · intro nowMs error refused
    exact ⟨RetransmitQueue.register_error refused, step_refused refused⟩

/-- One message is acknowledged, and another is given up after two sendings. -/
def smallCalls : List QueueCall :=
  [.register 0, .register 0, .onAck ⟨0, 0⟩ 50 maxInFlight,
    .poll 1000 maxInFlight, .poll 9000 maxInFlight, .register 9000]

theorem every_message_is_accounted_for_of_small_calls :
    let account := Execution.run step (fresh 1) smallCalls
    account.history 0 = [.acked] ∧
      account.history 1 = [.resent, .gaveUp] ∧
      (account.queue.entries.map InFlight.id).Nodup :=
  ⟨by decide, by decide,
    (every_message_is_accounted_for 1 smallCalls (by decide)).2.2.2.1⟩

end Account

end Fectp
