import Fectp.Execution
import Fectp.Pmtu

namespace Fectp

/-!
# The path MTU is never guessed

Beside the search a record keeps what was sent and answered: since the path was
last forgotten, by a reset or a fall-back, and since the last search began.  The
probes of a search go in step, so that a search gives them all up at once, and
an answer to any of them comes before that or not at all.
-/

/-- A call on a path's discovery. -/
inductive PmtuCall where
  | due (now retryMs : Nat) (tokens : List Bytes)
  | answered (token : Bytes) (now : Nat)
  | suspect (now : Nat)
  | reset (now : Nat)
  deriving Repr, DecidableEq

/-- The datagram a probe goes out as. -/
def Probe.send (probe : Probe) : ProbeSend where
  size := probe.size
  token := probe.token

namespace Pmtu

/-- A search is due and none is in progress. -/
def begins (pmtu : Pmtu) (now : Nat) : Bool :=
  pmtu.probes = [] ∧ pmtu.nextSearch.any (now ≥ ·)

end Pmtu

/-- A path's discovery, and what was sent and answered. -/
structure Discovery where
  pmtu : Pmtu
  /-- Probes sent since the last reset or fall-back. -/
  sent : List ProbeSend
  /-- Those of them that were answered after they were sent. -/
  proved : List ProbeSend
  /-- Probes sent in the last search begun since a reset. -/
  search : List ProbeSend
  /-- Answers that came since it began. -/
  heard : List Bytes
  deriving Repr, DecidableEq

namespace Discovery

def start (cap now : Nat) : Discovery where
  pmtu := .new cap now
  sent := []
  proved := []
  search := []
  heard := []

def step (discovery : Discovery) : PmtuCall → Discovery
  | .due now retryMs tokens =>
      let sends := (discovery.pmtu.due now retryMs tokens).1
      let pmtu := (discovery.pmtu.due now retryMs tokens).2
      let fellBack := pmtu.current < discovery.pmtu.current
      let begins := discovery.pmtu.begins now
      { pmtu := pmtu
        sent := if fellBack then [] else discovery.sent ++ sends
        proved := if fellBack then [] else discovery.proved
        search := if begins then sends else discovery.search ++ sends
        heard := if begins then [] else discovery.heard }
  | .answered token now =>
      { discovery with
        pmtu := (discovery.pmtu.answered token now).2
        proved := discovery.proved ++ discovery.sent.filter (·.token == token)
        heard := discovery.heard ++ [token] }
  | .suspect now =>
      { discovery with pmtu := discovery.pmtu.suspect now }
  | .reset now =>
      { pmtu := discovery.pmtu.reset now
        sent := []
        proved := []
        search := []
        heard := [] }

/-- How often the search sent a size. -/
def tries (discovery : Discovery) (size : Nat) : Nat :=
  (discovery.search.map ProbeSend.size).count size

/--
The call forgets the path, or ends a search that tried every size, the one in
use among them, as often as any is tried, and heard no answer to it.
-/
def Justified (discovery : Discovery) : PmtuCall → Prop
  | .reset _ =>
      True
  | .due now retryMs tokens =>
      discovery.pmtu.probes ≠ [] ∧
        (discovery.pmtu.due now retryMs tokens).2.probes = [] ∧
        (∃ send ∈ discovery.search, send.size = discovery.pmtu.current) ∧
        ∀ send ∈ discovery.search,
          send.token ∉ discovery.heard ∧ discovery.tries send.size = probeTries
  | .answered _ _ | .suspect _ =>
      False

end Discovery

namespace Pmtu

/-! ### Probes in step -/

/-- The probes were sent as often as each other, and last together. -/
def InStep (tries last : Nat) (probes : List Probe) : Prop :=
  ∀ probe ∈ probes, probe.tries = tries ∧ probe.last = last

/-- A probe as it is after another try. -/
def again (now : Nat) (probe : Probe) : Probe :=
  { probe with tries := probe.tries + 1, last := now }

variable {tries last now : Nat} {probes : List Probe}

/-- Probes in step all wait, are all given up on, or all go out again. -/
theorem InStep.outcomes (inStep : InStep tries last probes) (now wait : Nat) :
    probes.map (retry now wait) = probes.map fun probe =>
        if 0 < tries ∧ now < last + wait then
          (some probe, none)
        else if probeTries ≤ tries then
          (none, none)
        else
          (some (again now probe), some probe.send) := by
  refine List.map_congr_left fun probe member => ?_
  obtain ⟨rfl, rfl⟩ := inStep probe member
  rfl

/-! ### What a search asks about -/

variable {pmtu : Pmtu} {tokens : List Bytes}

theorem mem_candidates {validating : Bool} {size : Nat} :
    size ∈ pmtu.candidates validating ↔ (size ∈ ladder ∨ size = pmtu.cap ∨
          validating = true ∧ size = pmtu.current) ∧
        (if validating then pmtu.current - 1 else pmtu.current) < size ∧
        size ≤ pmtu.cap := by
  cases validating with
  | false => simp [candidates, or_and_right]
  | true => simp [candidates, or_and_right]

theorem candidates_nodup (pmtu : Pmtu) (validating : Bool) :
    (pmtu.candidates validating).Nodup :=
  List.nodup_dedup _

/-- The probes a search begins with, before they are sent. -/
def fresh (pmtu : Pmtu) (now : Nat) (tokens : List Bytes) : List Probe :=
  (pmtu.candidates (pmtu.current > baseDatagram)).zipIdx.map
    fun (size, index) => ⟨size, tokens.getD index [], 0, now⟩

theorem fresh_sizes (pmtu : Pmtu) (now : Nat) (tokens : List Bytes) :
    (pmtu.fresh now tokens).map Probe.size = pmtu.candidates (pmtu.current > baseDatagram) := by
  unfold fresh
  rw [List.map_map]
  exact List.zipIdx_map_fst _ _

theorem fresh_inStep (pmtu : Pmtu) (now : Nat) (tokens : List Bytes) :
    InStep 0 now (pmtu.fresh now tokens) := by
  intro probe member
  obtain ⟨_, _, rfl⟩ := List.mem_map.mp member
  exact ⟨rfl, rfl⟩

/-! ### One call -/

theorem begins_eq_false (searching : pmtu.probes ≠ []) :
    pmtu.begins now = false := by
  simp [begins, searching]

theorem startSearch_of_begins (isBegun : pmtu.begins now = true) :
    pmtu.startSearch now tokens =
      { pmtu with
        nextSearch := none
        validating := pmtu.current > baseDatagram
        probes := pmtu.fresh now tokens } :=
  if_pos (of_decide_eq_true isBegun)

theorem startSearch_of_not_begins (notBegun : pmtu.begins now = false) :
    pmtu.startSearch now tokens = pmtu :=
  if_neg (of_decide_eq_false notBegun)

/-- What is due when a search begins is due of the search that has begun. -/
theorem due_startSearch
    (searching : (pmtu.startSearch now tokens).probes ≠ []) (retryMs : Nat) :
    (pmtu.startSearch now tokens).due now retryMs tokens = pmtu.due now retryMs tokens := by
  unfold due
  rw [startSearch_of_not_begins (begins_eq_false searching)]

theorem due_idle (notBegun : pmtu.begins now = false) (unprobed : pmtu.probes = [])
    (retryMs : Nat) (tokens : List Bytes) :
    pmtu.due now retryMs tokens =
      ([], if pmtu.nextSearch = none then pmtu.finish now else pmtu) := by
  have same : { pmtu with probes := [] } = pmtu := by
    rw [← unprobed]
  simp [due, startSearch_of_not_begins notBegun, unprobed, same]

/-- What is due of a search in progress. -/
theorem due_searching
    (searching : pmtu.probes ≠ []) (inStep : InStep tries last pmtu.probes) (single : pmtu.Single)
    (now retryMs : Nat) (tokens : List Bytes) :
    pmtu.due now retryMs tokens =
      if 0 < tries ∧ now < last + interval retryMs then
        ([], pmtu)
      else if probeTries ≤ tries then
        ([], { pmtu with probes := [] }.finish now)
      else
        (pmtu.probes.map Probe.send, { pmtu with probes := pmtu.probes.map (again now) }) := by
  unfold due
  rw [startSearch_of_not_begins (begins_eq_false searching)]
  dsimp only
  rw [inStep.outcomes]
  split
  · simp [List.filterMap_map, searching]
  split
  · simp [single searching]
  · simp [List.filterMap_map, searching]

end Pmtu

namespace Discovery

/-- What holds of a path's discovery and its record when a round of probes is due. -/
structure Ready (discovery : Discovery) : Prop where
  low : min baseDatagram discovery.pmtu.cap ≤ discovery.pmtu.current
  high : discovery.pmtu.current ≤ discovery.pmtu.cap
  planned : discovery.pmtu.nextSearch ≠ none → baseDatagram < discovery.pmtu.cap
  single : discovery.pmtu.Single
  idle : discovery.pmtu.probes = [] → discovery.pmtu.validating = false
  proof : baseDatagram < discovery.pmtu.current →
      ∃ send ∈ discovery.proved, send.size = discovery.pmtu.current
  distinct : (discovery.pmtu.probes.map Probe.size).Nodup
  rounds : ∃ rounds last,
      rounds ≤ probeTries ∧
        (∀ size, discovery.tries size ≤ rounds) ∧
        Pmtu.InStep rounds last discovery.pmtu.probes ∧
        ∀ probe ∈ discovery.pmtu.probes, discovery.tries probe.size = rounds
  asked : ∀ probe ∈ discovery.pmtu.probes,
      discovery.pmtu.current ≤ probe.size ∧ probe.size ≤ discovery.pmtu.cap
  /-- While the size in use is being checked, nothing was answered. -/
  checking : discovery.pmtu.validating = true →
      baseDatagram < discovery.pmtu.current ∧
        (∃ probe ∈ discovery.pmtu.probes, probe.size = discovery.pmtu.current) ∧
        (∀ probe ∈ discovery.pmtu.probes, probe.token ∉ discovery.heard) ∧
        ∀ send ∈ discovery.search, ∃ probe ∈ discovery.pmtu.probes, probe.send = send

/-- What holds between two calls: every probe under way was sent. -/
structure Sound (discovery : Discovery) : Prop extends discovery.Ready where
  out : ∀ probe ∈ discovery.pmtu.probes,
      probe.send ∈ discovery.search ∧ probe.send ∈ discovery.sent

theorem sound_reset (pmtu : Pmtu) (now : Nat) :
    Sound ⟨pmtu.reset now, [], [], [], []⟩ where
  low := le_rfl
  high := Nat.min_le_right _ _
  planned := by
    intro isPlanned
    by_contra small
    change ¬baseDatagram < pmtu.cap at small
    exact isPlanned (if_neg (by omega))
  single := Pmtu.reset_single pmtu now
  idle _ := rfl
  proof := by
    intro large
    exact (Nat.not_lt_of_le (Nat.min_le_left _ _) large).elim
  distinct := List.nodup_nil
  rounds := ⟨0, 0, Nat.zero_le _, fun _ => le_rfl, nofun, nofun⟩
  asked := nofun
  checking := nofun
  out := nofun

/-- A search that is over with nothing answered, or nothing checked. -/
theorem Ready.give_up {discovery : Discovery} (ready : discovery.Ready) (now : Nat) :
    let after := { discovery.pmtu with probes := [] }.finish now
    Sound
      { discovery with
        pmtu := after
        sent :=
          if after.current < discovery.pmtu.current then []
          else discovery.sent
        proved :=
          if after.current < discovery.pmtu.current then []
          else discovery.proved } := by
  intro after
  obtain ⟨rounds, last, few, counts, _, _⟩ := ready.rounds
  have isCurrent : after.current =
      if discovery.pmtu.validating then min baseDatagram discovery.pmtu.cap
      else discovery.pmtu.current := rfl
  refine
    { low := ?_, high := ?_, planned := ?_, single := nofun
      idle := fun _ => rfl, proof := ?_, distinct := List.nodup_nil
      rounds := ⟨rounds, last, few, counts, nofun, nofun⟩
      asked := nofun, checking := nofun, out := nofun }
  · dsimp only
    rw [isCurrent]
    split
    · exact le_rfl
    · exact ready.low
  · dsimp only
    rw [isCurrent]
    split
    · exact Nat.min_le_right _ _
    · exact ready.high
  · intro isPlanned
    by_contra small
    exact isPlanned (if_neg small)
  · dsimp only
    rw [isCurrent]
    split
    · omega
    · rw [if_neg (Nat.lt_irrefl _)]
      exact ready.proof

/-- A search that ended without a fall-back plans the next. -/
theorem Sound.finish {discovery : Discovery} (sound : discovery.Sound)
    (unprobed : discovery.pmtu.probes = []) (now : Nat) :
    Sound { discovery with pmtu := discovery.pmtu.finish now } := by
  have settled := sound.idle unprobed
  have same : (discovery.pmtu.finish now).current = discovery.pmtu.current := by
    simp [Pmtu.finish, settled]
  have given := sound.toReady.give_up now
  rw [← unprobed] at given
  simpa [same] using given

theorem Sound.suspect {discovery : Discovery} (sound : discovery.Sound) (now : Nat) :
    (discovery.step (.suspect now)).Sound := by
  have single := Pmtu.suspect_single sound.single now
  unfold step
  dsimp only
  unfold Pmtu.suspect at single ⊢
  split at single
  · next suspected =>
      rw [if_pos suspected]
      refine { sound with planned := ?_, single := single }
      intro _
      exact Nat.lt_of_lt_of_le suspected.1 sound.high
  next =>
  rw [if_neg ‹_›]
  exact sound

end Discovery

namespace Pmtu

variable {pmtu : Pmtu} {token : Bytes}

theorem answered_unknown (unknown : pmtu.probes.find? (·.token == token) = none) (now : Nat) :
    (pmtu.answered token now).2 = pmtu := by
  simp [answered, unknown]

/-- The size an answer confirms, and the probes it leaves. -/
def confirmed (pmtu : Pmtu) (size : Nat) : Pmtu :=
  { pmtu with
    current := size
    validating := false
    probes := pmtu.probes.filter (·.size > size) }

theorem answered_known {probe : Probe} (known : pmtu.probes.find? (·.token == token) = some probe)
    (larger : pmtu.current ≤ probe.size) (now : Nat) :
    (pmtu.answered token now).2 = if (pmtu.confirmed probe.size).probes = [] then
        (pmtu.confirmed probe.size).finish now
      else
        pmtu.confirmed probe.size := by
  simp [answered, known, larger, confirmed]

end Pmtu

namespace Discovery

variable {discovery : Discovery}

/-- An answer to no probe under way is only heard. -/
theorem Sound.heard (sound : discovery.Sound) {token : Bytes}
    (unknown : discovery.pmtu.probes.find? (·.token == token) = none) (more : List ProbeSend) :
    Sound
      { discovery with
        proved := discovery.proved ++ more
        heard := discovery.heard ++ [token] } := by
  refine { sound with proof := ?_, checking := ?_ }
  · intro large
    obtain ⟨send, isProved, isSize⟩ := sound.proof large
    exact ⟨send, List.mem_append_left _ isProved, isSize⟩
  · intro validating
    obtain ⟨large, inUse, unheard, among⟩ := sound.checking validating
    refine ⟨large, inUse, fun probe isProbe isHeard => ?_, among⟩
    rcases List.mem_append.mp isHeard with before | now
    · exact unheard probe isProbe before
    · have missed := List.find?_eq_none.mp unknown probe isProbe
      exact missed (beq_iff_eq.mpr (List.mem_singleton.mp now))

/-- An answer to a probe under way confirms its size. -/
theorem Sound.confirmed (sound : discovery.Sound) {token : Bytes} {probe : Probe}
    (isProbe : probe ∈ discovery.pmtu.probes) (isToken : probe.token = token) (heard : List Bytes) :
    Sound
      { discovery with
        pmtu := discovery.pmtu.confirmed probe.size
        proved := discovery.proved ++ discovery.sent.filter (·.token == token)
        heard := heard } := by
  obtain ⟨larger, fits⟩ := sound.asked probe isProbe
  have kept : ∀ other ∈ (discovery.pmtu.confirmed probe.size).probes,
        other ∈ discovery.pmtu.probes ∧ probe.size < other.size := by
    intro other member
    simpa [Pmtu.confirmed] using member
  obtain ⟨rounds, last, few, counts, inStep, tried⟩ := sound.rounds
  refine
    { low := sound.low.trans larger, high := fits
      planned := sound.planned, single := ?_, idle := fun _ => rfl
      proof := fun _ => ⟨probe.send, ?_, rfl⟩, distinct := ?_
      rounds := ⟨rounds, last, few, counts, ?_, ?_⟩, asked := ?_
      checking := nofun, out := ?_ }
  · intro _
    exact sound.single (List.ne_nil_of_mem isProbe)
  · refine List.mem_append_right _ (List.mem_filter.mpr ⟨(sound.out probe isProbe).2, ?_⟩)
    exact beq_iff_eq.mpr isToken
  · exact (List.filter_sublist.map Probe.size).nodup sound.distinct
  · intro other member
    exact inStep other (kept other member).1
  · intro other member
    exact tried other (kept other member).1
  · intro other member
    obtain ⟨before, above⟩ := kept other member
    exact ⟨above.le, (sound.asked other before).2⟩
  · intro other member
    exact sound.out other (kept other member).1

theorem Sound.answered (sound : discovery.Sound) (token : Bytes) (now : Nat) :
    (discovery.step (.answered token now)).Sound := by
  unfold step
  dsimp only
  rcases found : discovery.pmtu.probes.find? (·.token == token) with
    _ | probe
  · rw [Pmtu.answered_unknown found]
    exact sound.heard found _
  have isProbe := List.mem_of_find?_eq_some found
  have isToken : probe.token = token := by
    simpa using List.find?_some found
  have confirmed := sound.confirmed isProbe isToken (discovery.heard ++ [token])
  rw [Pmtu.answered_known found (sound.asked probe isProbe).1]
  split
  · next ended => exact confirmed.finish ended now
  · exact confirmed

variable {now : Nat}

/-- A search that is due has something to ask, the size in use among it. -/
theorem Sound.asks
    (sound : discovery.Sound) (isBegun : discovery.pmtu.begins now = true) (tokens : List Bytes) :
    discovery.pmtu.fresh now tokens ≠ [] := by
  have isPlanned : discovery.pmtu.nextSearch ≠ none := by
    intro unplanned
    simp [Pmtu.begins, unplanned] at isBegun
  have large := sound.planned isPlanned
  have high := sound.high
  have member : discovery.pmtu.cap ∈
        discovery.pmtu.candidates (discovery.pmtu.current > baseDatagram) := by
    refine Pmtu.mem_candidates.mpr ⟨Or.inr (Or.inl rfl), ?_, le_rfl⟩
    simp only [decide_eq_true_eq]
    split <;> omega
  rw [← discovery.pmtu.fresh_sizes now tokens] at member
  intro none
  rw [none] at member
  cases member

/-- One more round of probes of different sizes. -/
theorem count_round {earlier : List ProbeSend} {probes : List Probe}
    (distinct : (probes.map Probe.size).Nodup) {rounds : Nat}
    (counts : ∀ size, (earlier.map ProbeSend.size).count size ≤ rounds) :
    (∀ size, ((earlier ++ probes.map Probe.send).map ProbeSend.size).count size ≤ rounds + 1) ∧
      ∀ probe ∈ probes, (earlier.map ProbeSend.size).count probe.size = rounds →
          ((earlier ++ probes.map Probe.send).map ProbeSend.size).count
              probe.size = rounds + 1 := by
  have split : ∀ size, ((earlier ++ probes.map Probe.send).map ProbeSend.size).count size =
          (earlier.map ProbeSend.size).count size + (probes.map Probe.size).count size := by
    intro size
    simp [Function.comp_def, Probe.send]
  constructor
  · intro size
    rw [split]
    exact Nat.add_le_add (counts size) (List.nodup_iff_count_le_one.mp distinct size)
  · intro probe member tried
    rw [split, tried, List.count_eq_one_of_mem distinct (List.mem_map_of_mem member)]

theorem again_sizes (now : Nat) (probes : List Probe) :
    (probes.map (Pmtu.again now)).map Probe.size = probes.map Probe.size := by
  simp [Function.comp_def, Pmtu.again]

/-- A search that has just begun, before its probes are sent. -/
def begun (discovery : Discovery) (now : Nat) (tokens : List Bytes) : Discovery :=
  { discovery with
    pmtu := discovery.pmtu.startSearch now tokens
    search := []
    heard := [] }

section

variable (sound : discovery.Sound)

include sound

/-- A search that begins is ready for its first round. -/
theorem Sound.begun (isBegun : discovery.pmtu.begins now = true) (tokens : List Bytes) :
    (discovery.begun now tokens).Ready := by
  have asks := sound.asks isBegun tokens
  have inStep := discovery.pmtu.fresh_inStep now tokens
  have sizes := discovery.pmtu.fresh_sizes now tokens
  unfold Discovery.begun
  rw [Pmtu.startSearch_of_begins isBegun]
  generalize discovery.pmtu.fresh now tokens = probes at asks inStep sizes
  have isSize : ∀ size, size ∈ probes.map Probe.size ↔
      size ∈ discovery.pmtu.candidates (discovery.pmtu.current > baseDatagram) := by
    intro size
    rw [sizes]
  refine
    { low := sound.low, high := sound.high, planned := nofun
      single := fun _ => rfl, idle := fun unprobed => (asks unprobed).elim
      proof := sound.proof, distinct := ?_
      rounds := ⟨0, now, Nat.zero_le _, fun _ => le_rfl, inStep, fun _ _ => rfl⟩
      asked := ?_, checking := ?_ }
  · dsimp only
    rw [sizes]
    exact discovery.pmtu.candidates_nodup _
  · intro probe isProbe
    obtain ⟨_, above, below⟩ :=
      Pmtu.mem_candidates.mp ((isSize probe.size).mp (List.mem_map_of_mem isProbe))
    refine ⟨?_, below⟩
    dsimp only
    split at above <;> omega
  · intro validating
    have large : baseDatagram < discovery.pmtu.current := of_decide_eq_true validating
    refine ⟨large, ?_, fun _ _ => List.not_mem_nil, nofun⟩
    refine List.mem_map.mp ((isSize _).mpr (Pmtu.mem_candidates.mpr ⟨?_, ?_, sound.high⟩))
    · exact Or.inr (Or.inr ⟨validating, rfl⟩)
    · rw [if_pos validating]
      dsimp only
      omega

/-- The call that begins a search is the first call on it. -/
theorem Sound.step_begun
    (isBegun : discovery.pmtu.begins now = true) (retryMs : Nat) (tokens : List Bytes) :
    (discovery.begun now tokens).pmtu.probes ≠ [] ∧
      (discovery.begun now tokens).step (.due now retryMs tokens) =
        discovery.step (.due now retryMs tokens) := by
  have isStarted := @Pmtu.startSearch_of_begins now discovery.pmtu tokens isBegun
  have searching : (discovery.pmtu.startSearch now tokens).probes ≠ [] := by
    rw [isStarted]
    exact sound.asks isBegun tokens
  refine ⟨searching, ?_⟩
  unfold Discovery.begun step
  dsimp only
  rw [Pmtu.due_startSearch searching, Pmtu.begins_eq_false searching, isBegun, isStarted]
  rfl

end

section

variable (ready : discovery.Ready)

include ready

/-- Another round of the probes of a search. -/
theorem Ready.resend {rounds last : Nat} (unspent : rounds < probeTries)
    (counts : ∀ size, discovery.tries size ≤ rounds)
    (inStep : Pmtu.InStep rounds last discovery.pmtu.probes)
    (tried : ∀ probe ∈ discovery.pmtu.probes, discovery.tries probe.size = rounds)
    (searching : discovery.pmtu.probes ≠ []) :
    Sound { discovery with
        pmtu :=
          { discovery.pmtu with
            probes := discovery.pmtu.probes.map (Pmtu.again now) }
        sent := discovery.sent ++ discovery.pmtu.probes.map Probe.send
        search :=
          discovery.search ++ discovery.pmtu.probes.map Probe.send } := by
  obtain ⟨few, once⟩ := count_round ready.distinct counts
  refine
    { low := ready.low, high := ready.high, planned := ready.planned
      single := fun _ => ready.single searching, idle := ?_
      proof := ready.proof, distinct := ?_
      rounds := ⟨rounds + 1, now, unspent, few, ?_, ?_⟩
      asked := ?_, checking := ?_, out := ?_ }
  · intro unprobed
    exact (searching (List.map_eq_nil_iff.mp unprobed)).elim
  · dsimp only
    rw [again_sizes]
    exact ready.distinct
  · intro _ member
    obtain ⟨probe, isProbe, rfl⟩ := List.mem_map.mp member
    exact ⟨congrArg (· + 1) (inStep probe isProbe).1, rfl⟩
  · intro _ member
    obtain ⟨probe, isProbe, rfl⟩ := List.mem_map.mp member
    exact once probe isProbe (tried probe isProbe)
  · intro _ member
    obtain ⟨probe, isProbe, rfl⟩ := List.mem_map.mp member
    exact ready.asked probe isProbe
  · intro validating
    obtain ⟨large, ⟨inUse, isProbe, isCurrent⟩, unheard, among⟩ := ready.checking validating
    refine ⟨large, ⟨Pmtu.again now inUse, List.mem_map_of_mem isProbe, isCurrent⟩, ?_, ?_⟩
    · intro _ member
      obtain ⟨probe, isProbe, rfl⟩ := List.mem_map.mp member
      exact unheard probe isProbe
    · intro send member
      obtain ⟨probe, isProbe, rfl⟩ : ∃ probe ∈ discovery.pmtu.probes, probe.send = send :=
        (List.mem_append.mp member).elim (among send) List.mem_map.mp
      exact ⟨Pmtu.again now probe, List.mem_map_of_mem isProbe, rfl⟩
  · intro _ member
    obtain ⟨probe, isProbe, rfl⟩ := List.mem_map.mp member
    have isSent : probe.send ∈ discovery.pmtu.probes.map Probe.send := List.mem_map_of_mem isProbe
    exact ⟨List.mem_append_right _ isSent, List.mem_append_right _ isSent⟩

/-- What a call to `due` does while a search is in progress. -/
theorem Ready.search_due
    (sound : discovery.Sound ∨ discovery.search = []) (searching : discovery.pmtu.probes ≠ [])
    (now retryMs : Nat) (tokens : List Bytes) :
    (discovery.step (.due now retryMs tokens)).Sound ∧
      ((discovery.step (.due now retryMs tokens)).pmtu.current < discovery.pmtu.current →
        discovery.Justified (.due now retryMs tokens)) := by
  obtain ⟨rounds, last, few, counts, inStep, tried⟩ := ready.rounds
  have ofSent (some : 0 < rounds) : discovery.Sound := by
    refine sound.resolve_right fun unsent => ?_
    obtain ⟨first, isFirst⟩ := List.exists_mem_of_ne_nil _ searching
    have isZero := tried first isFirst
    rw [tries, unsent] at isZero
    exact Nat.ne_of_lt some isZero
  unfold step Justified
  dsimp only
  rw [Pmtu.due_searching searching inStep ready.single, Pmtu.begins_eq_false searching]
  split
  · next early =>
      simp only [Nat.lt_irrefl, if_false, Bool.false_eq_true, List.append_nil,
        false_implies, and_true]
      exact ofSent early.1
  split
  · next spent =>
      have sound := ofSent (Nat.lt_of_lt_of_le (by decide) spent)
      simp only [if_false, Bool.false_eq_true, List.append_nil]
      refine ⟨ready.give_up now, fun fallen => ?_⟩
      have validating : discovery.pmtu.validating = true := by
        by_contra settled
        have same : ({ discovery.pmtu with probes := [] }.finish now).current =
            discovery.pmtu.current := if_neg settled
        exact (Nat.lt_irrefl _ (same ▸ fallen)).elim
      obtain ⟨_, ⟨inUse, isProbe, isCurrent⟩, unheard, among⟩ := ready.checking validating
      refine ⟨searching, rfl, ⟨inUse.send, (sound.out inUse isProbe).1, isCurrent⟩, ?_⟩
      intro send inSearch
      obtain ⟨probe, isMember, rfl⟩ := among send inSearch
      exact ⟨unheard probe isMember, (tried probe isMember).trans (Nat.le_antisymm few spent)⟩
  next unspent =>
  simp only [Nat.lt_irrefl, if_false, Bool.false_eq_true, false_implies, and_true]
  exact ready.resend (Nat.lt_of_not_le unspent) counts inStep tried searching

end

section

variable (sound : discovery.Sound)

include sound

/-- What a call to `due` does. -/
theorem Sound.due (now retryMs : Nat) (tokens : List Bytes) :
    (discovery.step (.due now retryMs tokens)).Sound ∧
      ((discovery.step (.due now retryMs tokens)).pmtu.current < discovery.pmtu.current →
        discovery.Justified (.due now retryMs tokens)) := by
  by_cases unprobed : discovery.pmtu.probes = []
  · cases isBegun : discovery.pmtu.begins now with
    | true =>
      obtain ⟨searching, same⟩ := sound.step_begun isBegun retryMs tokens
      obtain ⟨kept, reason⟩ :=
        (sound.begun isBegun tokens).search_due (Or.inr rfl) searching now retryMs tokens
      rw [same] at kept reason
      refine ⟨kept, fun fallen => ?_⟩
      have current : (discovery.begun now tokens).pmtu.current = discovery.pmtu.current := by
        unfold Discovery.begun
        rw [Pmtu.startSearch_of_begins isBegun]
      obtain ⟨_, _, ⟨_, ⟨⟩, _⟩, _⟩ := reason (current ▸ fallen)
    | false =>
      have isAfter := Pmtu.due_idle isBegun unprobed retryMs tokens
      have same : (discovery.pmtu.due now retryMs tokens).2.current =
            discovery.pmtu.current := by
        rw [isAfter]
        split
        · simp [Pmtu.finish, sound.idle unprobed]
        · rfl
      unfold step
      dsimp only
      rw [same, isBegun]
      simp only [Nat.lt_irrefl, if_false, Bool.false_eq_true, isAfter, List.append_nil,
        false_implies, and_true]
      split
      · exact sound.finish unprobed now
      · exact sound
  · exact sound.toReady.search_due (Or.inl sound) unprobed now retryMs tokens

theorem Sound.step (call : PmtuCall) :
    (discovery.step call).Sound := by
  cases call with
  | due now retryMs tokens => exact (sound.due now retryMs tokens).1
  | answered token now => exact sound.answered token now
  | suspect now => exact sound.suspect now
  | reset now => exact sound_reset discovery.pmtu now

/-- The size in use falls only for a reason. -/
theorem Sound.justified
    {call : PmtuCall} (fallen : (discovery.step call).pmtu.current < discovery.pmtu.current) :
    discovery.Justified call := by
  cases call with
  | due now retryMs tokens => exact (sound.due now retryMs tokens).2 fallen
  | answered token now =>
    change (discovery.pmtu.answered token now).2.current < _ at fallen
    rcases found : discovery.pmtu.probes.find? (·.token == token) with
      _ | probe
    · rw [Pmtu.answered_unknown found] at fallen
      exact (Nat.lt_irrefl _ fallen).elim
    have isProbe := List.mem_of_find?_eq_some found
    have larger := (sound.asked probe isProbe).1
    have same : (discovery.pmtu.answered token now).2.current = probe.size := by
      rw [Pmtu.answered_known found larger]
      split
      · rfl
      · rfl
    rw [same] at fallen
    exact (Nat.not_lt_of_le larger fallen).elim
  | suspect now =>
    have same : (discovery.pmtu.suspect now).current =
          discovery.pmtu.current := by
      unfold Pmtu.suspect
      split
      · rfl
      · rfl
    change (discovery.pmtu.suspect now).current < _ at fallen
    rw [same] at fallen
    exact (Nat.lt_irrefl _ fallen).elim
  | reset now => trivial

end

theorem step_cap (discovery : Discovery) (call : PmtuCall) :
    (discovery.step call).pmtu.cap = discovery.pmtu.cap := by
  have startCap : ∀ now tokens,
        (discovery.pmtu.startSearch now tokens).cap = discovery.pmtu.cap := by
    intro now tokens
    simp only [Pmtu.startSearch]
    split <;> rfl
  cases call with
  | due now retryMs tokens =>
    rw [← startCap now tokens]
    simp only [step, Pmtu.due]
    split <;> rfl
  | answered token now =>
    simp only [step, Pmtu.answered]
    repeat' split
    all_goals rfl
  | suspect now =>
    simp only [step, Pmtu.suspect]
    split <;> rfl
  | reset now => rfl

theorem run_cap (cap now : Nat) (calls : List PmtuCall) :
    (Execution.run step (start cap now) calls).pmtu.cap = cap :=
  @Execution.invariant_of_step _ _ step (·.pmtu.cap = cap)
    (fun {_} same call => (step_cap _ call).trans same) _ _ rfl

theorem run_sound (cap now : Nat) (calls : List PmtuCall) :
    (Execution.run step (start cap now) calls).Sound :=
  @Execution.invariant_of_step _ _ step Sound Sound.step _ _ (sound_reset _ now)

/--
Whatever is called, the size in use is between the base and the cap; above the
base, a probe of that size was sent and answered since the path was last
forgotten; no search sends a size more often than it may; and the next call makes
the size smaller only if it forgets the path, or ends a search in which every
size, the one in use too, was tried to the end and nothing was answered.
-/
theorem never_guessed (cap now : Nat) (calls : List PmtuCall) :
    let discovery := Execution.run step (start cap now) calls
    min baseDatagram cap ≤ discovery.pmtu.current ∧
      discovery.pmtu.current ≤ cap ∧
      (baseDatagram < discovery.pmtu.current →
        ∃ send ∈ discovery.proved,
          send.size = discovery.pmtu.current) ∧
      (∀ size, discovery.tries size ≤ probeTries) ∧
      ∀ call,
        (discovery.step call).pmtu.current < discovery.pmtu.current →
          discovery.Justified call := by
  intro discovery
  have sound : discovery.Sound := run_sound cap now calls
  have isCap : discovery.pmtu.cap = cap := run_cap cap now calls
  obtain ⟨rounds, _, few, counts, _, _⟩ := sound.rounds
  refine ⟨isCap ▸ sound.low, isCap ▸ sound.high, sound.proof,
    fun size => (counts size).trans few, fun _ => sound.justified⟩

end Discovery

end Fectp
