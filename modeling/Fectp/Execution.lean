import Mathlib.Data.List.Basic
import Mathlib.Data.List.Induction

namespace Fectp

/-!
# Finite executions of a step function

A component is a state together with a total step function.  An execution is
the list of events it was fed, and a side condition on an execution is a
predicate on each state together with the event about to be applied to it.
The rules below carry an invariant from the initial state to every state such
an execution reaches.
-/

namespace Execution

variable {State Event : Type*}

/-- The state reached by applying a finite event list. -/
def run (step : State → Event → State) :
    State → List Event → State
  | state, [] =>
      state
  | state, event :: rest =>
      run step (step state event) rest

/-- Every event of the list is allowed in the state it is applied to. -/
def Admits (step : State → Event → State) (allowed : State → Event → Prop) :
    State → List Event → Prop
  | _, [] =>
      True
  | state, event :: rest =>
      allowed state event ∧ Admits step allowed (step state event) rest

instance decidableAdmits
    (step : State → Event → State)
    (allowed : State → Event → Prop)
    [∀ state event, Decidable (allowed state event)] :
    ∀ state events, Decidable (Admits step allowed state events)
  | _, [] =>
      isTrue trivial
  | state, event :: rest =>
      @instDecidableAnd _ _ inferInstance
        (decidableAdmits step allowed (step state event) rest)

@[simp] theorem run_nil (step : State → Event → State) (state : State) :
    run step state [] = state :=
  rfl

@[simp] theorem run_cons
    (step : State → Event → State) (state : State) (event : Event) (rest : List Event) :
    run step state (event :: rest) = run step (step state event) rest :=
  rfl

/--
What holds initially and survives every allowed event holds of the state an
admitted execution ends in.
-/
theorem invariant_of_admits
    {step : State → Event → State} {allowed : State → Event → Prop} {Invariant : State → Prop}
    (preserved : ∀ {state event},
        allowed state event →
        Invariant state →
        Invariant (step state event))
    {state : State} {events : List Event} (admitted : Admits step allowed state events)
    (initially : Invariant state) :
    Invariant (run step state events) := by
  induction events generalizing state with
  | nil => exact initially
  | cons event rest inductionHypothesis =>
    exact inductionHypothesis admitted.2 (preserved admitted.1 initially)

/--
What an invariant gives of each allowed event holds of every event of an
admitted execution.
-/
theorem admits_of_invariant
    {step : State → Event → State} {allowed Holds : State → Event → Prop} {Invariant : State → Prop}
    (preserved : ∀ {state event},
        allowed state event →
        Invariant state →
        Invariant (step state event))
    (holds : ∀ {state event},
        allowed state event →
        Invariant state →
        Holds state event)
    {state : State} {events : List Event} (admitted : Admits step allowed state events)
    (initially : Invariant state) :
    Admits step Holds state events := by
  induction events generalizing state with
  | nil => trivial
  | cons event rest inductionHypothesis =>
    exact ⟨holds admitted.1 initially,
      inductionHypothesis admitted.2 (preserved admitted.1 initially)⟩

/-- What holds initially and survives every event holds ever after. -/
theorem invariant_of_step {step : State → Event → State} {Invariant : State → Prop}
    (preserved : ∀ {state},
        Invariant state →
        ∀ event, Invariant (step state event))
    {state : State} {events : List Event} (initially : Invariant state) :
    Invariant (run step state events) := by
  induction events generalizing state with
  | nil => exact initially
  | cons event rest inductionHypothesis => exact inductionHypothesis (preserved initially event)

theorem run_append (step : State → Event → State) (state : State) (earlier later : List Event) :
    run step state (earlier ++ later) = run step (run step state earlier) later := by
  induction earlier generalizing state with
  | nil => rfl
  | cons event rest inductionHypothesis => exact inductionHypothesis (step state event)

variable {step : State → Event → State} {state : State}

theorem admits_append {allowed : State → Event → Prop} {earlier later : List Event} :
    Admits step allowed state (earlier ++ later) ↔
      Admits step allowed state earlier ∧ Admits step allowed (run step state earlier) later := by
  induction earlier generalizing state with
  | nil => exact (iff_of_eq (true_and _)).symm
  | cons event rest inductionHypothesis =>
    exact (and_congr Iff.rfl inductionHypothesis).trans and_assoc.symm

/-! ### Executions and their pasts -/

/-- Some event starts it, and from that event on it holds of every event. -/
def Since
    (step : State → Event → State)
    (Starts Holds : State → Event → Prop)
    (state : State)
    (events : List Event) : Prop :=
  ∃ past event later,
    events = past ++ event :: later ∧
      Starts (run step state past) event ∧
      Admits step Holds (run step state past) (event :: later)

section

variable
    {step : State → Event → State}
    {Starts Holds : State → Event → Prop}
    {state : State}
    {events : List Event}
    {event : Event}

theorem since_last
    (starts : Starts (run step state events) event) (holds : Holds (run step state events) event) :
    Since step Starts Holds state (events ++ [event]) :=
  ⟨events, event, [], rfl, starts, holds, trivial⟩

theorem Since.extend
    (since : Since step Starts Holds state events) (holds : Holds (run step state events) event) :
    Since step Starts Holds state (events ++ [event]) := by
  obtain ⟨past, first, later, rfl, starts, holding⟩ := since
  refine ⟨past, first, later ++ [event], ?_, starts, ?_⟩
  · rw [List.append_assoc, List.cons_append]
  · rw [← List.cons_append, admits_append]
    rw [run_append] at holds
    exact ⟨holding, holds, trivial⟩

theorem Since.mono {Starts' : State → Event → Prop}
    (weaker : ∀ state event, Starts state event → Starts' state event)
    (since : Since step Starts Holds state events) :
    Since step Starts' Holds state events := by
  obtain ⟨past, first, later, shape, starts, holding⟩ := since
  exact ⟨past, first, later, shape, weaker _ _ starts, holding⟩

end

/-- What is in a history that goes on was in it, or ends as it does. -/
theorem sublist_concat {earlier events : List Event} {last event : Event}
    (sublist : (earlier ++ [last]).Sublist (events ++ [event])) :
    (earlier ++ [last]).Sublist events ∨ earlier.Sublist events ∧ last = event := by
  obtain ⟨front, back, splits, inEvents, inLast⟩ := List.sublist_append_iff.mp sublist
  rcases List.sublist_singleton.mp inLast with rfl | rfl
  · left
    rwa [splits, List.append_nil]
  right
  obtain ⟨rfl, isLast⟩ := List.append_inj' splits rfl
  cases isLast
  exact ⟨inEvents, rfl⟩

/-- What is to hold of a state given all that led to it. -/
theorem invariant_of_past {Invariant : List Event → State → Prop} (initially : Invariant [] state)
    (preserved : ∀ {past event},
        Invariant past (run step state past) →
        Invariant (past ++ [event]) (step (run step state past) event))
    (events : List Event) :
    Invariant events (run step state events) := by
  induction events using List.reverseRecOn with
  | nil => exact initially
  | append_singleton past event inductionHypothesis =>
    rw [run_append]
    exact preserved inductionHypothesis

/-! ### Executions under a clock -/

/-- What the clock shows after the last event. -/
def reached (time : Event → Nat) : Nat → List Event → Nat
  | clock, [] =>
      clock
  | _, event :: rest =>
      reached time (time event) rest

/-- The clock never runs back. -/
def Ordered (time : Event → Nat) : Nat → List Event → Prop
  | _, [] =>
      True
  | clock, event :: rest =>
      clock ≤ time event ∧ Ordered time (time event) rest

instance decidableOrdered (time : Event → Nat) :
    ∀ clock events, Decidable (Ordered time clock events)
  | _, [] =>
      isTrue trivial
  | _, event :: rest =>
      @instDecidableAnd _ _ inferInstance
        (decidableOrdered time (time event) rest)

theorem ordered_append {time : Event → Nat} {clock : Nat} {earlier later : List Event} :
    Ordered time clock (earlier ++ later) ↔
      Ordered time clock earlier ∧ Ordered time (reached time clock earlier) later := by
  induction earlier generalizing clock with
  | nil => exact (iff_of_eq (true_and _)).symm
  | cons event rest inductionHypothesis =>
    exact (and_congr Iff.rfl inductionHypothesis).trans and_assoc.symm

/--
An invariant that speaks of the clock is carried along by events that come in
order.
-/
theorem invariant_of_ordered
    {time : Event → Nat} {allowed : State → Event → Prop} {Invariant : Nat → State → Prop}
    (preserved : ∀ {clock state event},
        clock ≤ time event →
        allowed state event →
        Invariant clock state →
        Invariant (time event) (step state event))
    {clock : Nat} {events : List Event} (inOrder : Ordered time clock events)
    (admitted : Admits step allowed state events) (initially : Invariant clock state) :
    Invariant (reached time clock events) (run step state events) := by
  induction events generalizing clock state with
  | nil => exact initially
  | cons event rest inductionHypothesis =>
    exact inductionHypothesis inOrder.2 admitted.2 (preserved inOrder.1 admitted.1 initially)

end Execution

end Fectp
