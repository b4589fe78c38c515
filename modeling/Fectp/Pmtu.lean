import Fectp.LittleEndian
import Mathlib.Data.List.Dedup
import Mathlib.Data.List.Sort

namespace Fectp

/-!
# Path MTU discovery

Which frame sizes to try on one session's path, when, and what to conclude.
Instants and durations are milliseconds, and the tokens of a search come from
the caller's random generator.
-/

/-- The frame size every path is assumed to carry. -/
def baseDatagram : Nat := 1200

/-- Sizes worth trying between the base and the ceiling. -/
def ladder : List Nat := [1280, 1400, 1452, 1472]

/-- How many times one probe is sent before its size is given up on. -/
def probeTries : Nat := 3

/-- The least time between tries of one probe. -/
def minProbeInterval : Nat := 250

/-- How long a settled size stands before it is checked again. -/
def researchInterval : Nat := 600000

/-- How long after falling back to the base before searching again. -/
def afterFallback : Nat := 60000

/-- A probe in flight. -/
structure Probe where
  size : Nat
  token : Bytes
  tries : Nat
  last : Nat
  deriving Repr, DecidableEq

/-- A probe to send now. -/
structure ProbeSend where
  size : Nat
  token : Bytes
  deriving Repr, DecidableEq

/-- One session's knowledge of its path's frame size. -/
structure Pmtu where
  /-- The largest frame this session sends. -/
  current : Nat
  /-- The most it may ever be. -/
  cap : Nat
  /-- The search in progress, if one is. -/
  probes : List Probe
  /-- Whether the search is checking `current` itself. -/
  validating : Bool
  /-- When the next search begins, if one is planned. -/
  nextSearch : Option Nat
  deriving Repr, DecidableEq

namespace Pmtu

/-- Forgets the path: back to the base, and search again. -/
def reset (pmtu : Pmtu) (now : Nat) : Pmtu :=
  let current := min baseDatagram pmtu.cap
  { pmtu with
    current := current
    probes := []
    validating := false
    nextSearch := if pmtu.cap > current then some now else none }

/-- Starts at the base, with a search due at once. -/
def new (cap now : Nat) : Pmtu :=
  reset
    { current := baseDatagram
      cap := cap
      probes := []
      validating := false
      nextSearch := none }
    now

/-- How long one try of a probe is given. -/
def interval (retry : Nat) : Nat :=
  max retry minProbeInterval

/-- When something next falls due. -/
def nextDeadline (pmtu : Pmtu) (retry : Nat) : Option Nat :=
  ((pmtu.probes.map (·.last + interval retry)).min?.toList ++
    pmtu.nextSearch.toList).min?

/-- A search has run out of probes. -/
def finish (pmtu : Pmtu) (now : Nat) : Pmtu :=
  { pmtu with
    current :=
      if pmtu.validating then min baseDatagram pmtu.cap else pmtu.current
    validating := false
    nextSearch :=
      if pmtu.cap > baseDatagram then
        some (now + if pmtu.validating then afterFallback else researchInterval)
      else
        none }

/-- The sizes a search starting now asks about. -/
def candidates (pmtu : Pmtu) (validating : Bool) : List Nat :=
  let floor := if validating then pmtu.current - 1 else pmtu.current
  let sizes :=
    (ladder ++ [pmtu.cap] ++
      if validating then [pmtu.current] else []).filter
      fun size => size > floor ∧ size ≤ pmtu.cap
  (sizes.insertionSort (· ≤ ·)).dedup

/-- Starts the search that is due, if one is. -/
def startSearch (pmtu : Pmtu) (now : Nat) (tokens : List Bytes) : Pmtu :=
  if pmtu.probes = [] ∧ pmtu.nextSearch.any (now ≥ ·) then
    let validating : Bool := pmtu.current > baseDatagram
    { pmtu with
      nextSearch := none
      validating := validating
      probes :=
        -- Never sent, so due at once whatever `last` says.
        (pmtu.candidates validating).zipIdx.map fun (size, index) =>
          ⟨size, tokens.getD index [], 0, now⟩ }
  else
    pmtu

/-- What becomes of one probe: kept, kept and sent again, or given up on. -/
def retry (now wait : Nat) (probe : Probe) : Option Probe × Option ProbeSend :=
  if probe.tries > 0 ∧ now < probe.last + wait then
    (some probe, none)
  else if probe.tries ≥ probeTries then
    (none, none)
  else
    (some { probe with tries := probe.tries + 1, last := now },
      some ⟨probe.size, probe.token⟩)

/-- The probes to send now, if any. -/
def due (pmtu : Pmtu) (now retryMs : Nat) (tokens : List Bytes) :
    List ProbeSend × Pmtu :=
  let pmtu := pmtu.startSearch now tokens
  let outcomes := pmtu.probes.map (retry now (interval retryMs))
  let pmtu := { pmtu with probes := outcomes.filterMap Prod.fst }
  let pmtu :=
    if pmtu.probes = [] ∧ pmtu.nextSearch = none then pmtu.finish now
    else pmtu
  (outcomes.filterMap Prod.snd, pmtu)

/-- Takes an answer.  Returns whether the size in use changed. -/
def answered (pmtu : Pmtu) (token : Bytes) (now : Nat) : Bool × Pmtu :=
  match pmtu.probes.find? (·.token == token) with
  | none =>
      (false, pmtu)
  | some probe =>
      let before := pmtu.current
      let pmtu :=
        if probe.size ≥ pmtu.current then
          { pmtu with current := probe.size, validating := false }
        else
          pmtu
      -- Anything no larger is answered by implication.
      let pmtu :=
        { pmtu with probes := pmtu.probes.filter (·.size > probe.size) }
      let pmtu := if pmtu.probes = [] then pmtu.finish now else pmtu
      (pmtu.current != before, pmtu)

/-- Says a frame larger than the base had to be sent again. -/
def suspect (pmtu : Pmtu) (now : Nat) : Pmtu :=
  if pmtu.current > baseDatagram ∧ pmtu.probes = [] then
    { pmtu with nextSearch := some now }
  else
    pmtu

example :
    ((Pmtu.new 1472 0).due 0 50 []).1.map ProbeSend.size =
      [1280, 1400, 1452, 1472] := by
  decide +kernel

/-! ### What is due is done -/

/-- A search in progress has no other planned behind it. -/
def Single (pmtu : Pmtu) : Prop :=
  pmtu.probes ≠ [] → pmtu.nextSearch = none

theorem reset_single (pmtu : Pmtu) (now : Nat) : (pmtu.reset now).Single :=
  fun searching => absurd rfl searching

theorem new_single (cap now : Nat) : (new cap now).Single :=
  reset_single _ now

theorem finish_probes (pmtu : Pmtu) (now : Nat) :
    (pmtu.finish now).probes = pmtu.probes :=
  rfl

variable {pmtu : Pmtu}

theorem suspect_single (single : pmtu.Single) (now : Nat) :
    (pmtu.suspect now).Single := by
  unfold suspect
  split
  · next suspected => exact fun searching => absurd suspected.2 searching
  · exact single

theorem answered_single (single : pmtu.Single) (token : Bytes) (now : Nat) :
    (pmtu.answered token now).2.Single := by
  unfold answered
  split
  · exact single
  next probe found =>
  have searching : pmtu.probes ≠ [] := List.ne_nil_of_mem (List.mem_of_find?_eq_some found)
  have unplanned := single searching
  have updated : (if probe.size ≥ pmtu.current then
          { pmtu with current := probe.size, validating := false }
        else pmtu).nextSearch = none := by
    split
    · exact unplanned
    · exact unplanned
  dsimp only
  generalize (if probe.size ≥ pmtu.current then
        { pmtu with current := probe.size, validating := false }
      else pmtu) = pmtu at updated ⊢
  split
  · next isLast => exact fun searching => absurd isLast searching
  · exact fun _ => updated

/-- A search that is due is started, and one that is not is still to come. -/
theorem startSearch_single (single : pmtu.Single) (now : Nat) (tokens : List Bytes) :
    (pmtu.startSearch now tokens).Single ∧
      ∀ next ∈ (pmtu.startSearch now tokens).nextSearch, now < next := by
  unfold startSearch
  split
  · exact ⟨fun _ => rfl, fun _ isNext => nomatch isNext⟩
  next waits =>
  refine ⟨single, fun next isNext => ?_⟩
  have planned : pmtu.nextSearch = some next := isNext
  have unprobed : pmtu.probes = [] := by
    by_contra searching
    rw [single searching] at planned
    cases planned
  rw [planned, Option.any_some, decide_eq_true_eq] at waits
  exact Nat.lt_of_not_le fun due => waits ⟨unprobed, due⟩

theorem finish_nextSearch {now next : Nat} (planned : (pmtu.finish now).nextSearch = some next) :
    now < next := by
  unfold finish at planned
  dsimp only at planned
  split at planned
  · cases planned
    refine Nat.lt_add_of_pos_right ?_
    split
    · decide
    · decide
  · cases planned

/-- A probe that is kept was sent lately, or is being sent. -/
theorem retry_kept {now wait : Nat} {probe kept : Probe} (waits : 0 < wait)
    (isKept : (retry now wait probe).1 = some kept) :
    now < kept.last + wait := by
  unfold retry at isKept
  split at isKept
  · next recent =>
      cases isKept
      exact recent.2
  split at isKept
  · cases isKept
  · cases isKept
    exact Nat.lt_add_of_pos_right waits

theorem interval_pos (retryMs : Nat) : 0 < interval retryMs :=
  Nat.lt_of_lt_of_le (by decide) (Nat.le_max_right retryMs minProbeInterval)

/-- After what was due is done, there is a while until the next. -/
theorem due_clears (single : pmtu.Single) (now retryMs : Nat) (tokens : List Bytes) :
    (pmtu.due now retryMs tokens).2.Single ∧
      ∀ next ∈ (pmtu.due now retryMs tokens).2.nextDeadline retryMs, now < next := by
  obtain ⟨started, later⟩ := startSearch_single single now tokens
  unfold due
  dsimp only
  generalize pmtu.startSearch now tokens = pmtu at started later
  have kept : ∀ probe ∈ (pmtu.probes.map (retry now (interval retryMs))).filterMap Prod.fst,
        now < probe.last + interval retryMs := by
    intro probe member
    obtain ⟨outcome, inOutcomes, isKept⟩ := List.mem_filterMap.mp member
    obtain ⟨earlier, _, rfl⟩ := List.mem_map.mp inOutcomes
    exact retry_kept (interval_pos retryMs) isKept
  have unprobed : pmtu.probes = [] →
        (pmtu.probes.map (retry now (interval retryMs))).filterMap Prod.fst = [] := by
    intro none
    rw [none]
    rfl
  generalize (pmtu.probes.map (retry now (interval retryMs))).filterMap
    Prod.fst = probes at kept unprobed
  split
  · next ended =>
      refine ⟨fun searching => absurd ended.1 searching, ?_⟩
      intro next isNext
      have isProbes : probes = [] := ended.1
      have member := (List.min?_eq_some_iff.mp isNext).1
      rw [finish_probes] at member
      simp only [isProbes, List.map_nil, List.min?_nil, Option.toList_none,
        List.nil_append, Option.mem_toList] at member
      exact finish_nextSearch member
  next =>
  refine ⟨fun searching => started fun none =>
    searching (unprobed none), ?_⟩
  intro next isNext
  have member := (List.min?_eq_some_iff.mp isNext).1
  rw [List.mem_append, Option.mem_toList, Option.mem_toList] at member
  rcases member with isProbe | isPlanned
  · obtain ⟨probe, isMember, rfl⟩ :=
      List.mem_map.mp (List.min?_eq_some_iff.mp isProbe).1
    exact kept probe isMember
  · exact later next isPlanned

end Pmtu

end Fectp
