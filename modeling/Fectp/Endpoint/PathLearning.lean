import Fectp.Endpoint.Resumption

namespace Fectp

/-!
# What a reply teaches about its path

A reply to a handshake is timed before it is read.  One that does not
authenticate ends the handshake, and what its time of arrival says about the
path is kept all the same.
-/

/-- What is held of a path once a reply to a handshake has come. -/
def Outbound.lesson (outbound : Outbound) (nowMs : Nat) (path : Path) : Path :=
  if outbound.attempts = 1 then
    { rto :=
        some ((path.rto.getD .new).sample
          (min (nowMs - outbound.firstSent) (maxValue 32)))
      floor := none }
  else
    { path with
      floor :=
        if path.rto.any (nowMs - outbound.lastSent ≤ ·.current) then
          none
        else
          some (min ((nowMs - outbound.firstSent) * 2) maxRtoMs) }

/--
What is held of a path already says what a reply at this time does.  After one
attempt no floor is set, and the round trip lies within the rounding of the
estimate and its variation.  After more, the floor is the one the reply sets.
-/
structure Path.Foresees (path : Path) (outbound : Outbound) (nowMs : Nat) :
    Prop where
  once :
    outbound.attempts = 1 →
      path.floor = none ∧
        ∃ smoothed variation,
          path.rto = some ⟨some smoothed, variation⟩ ∧
            let roundTrip := min (nowMs - outbound.firstSent) (maxValue 32)
            smoothed ≤ roundTrip ∧
              roundTrip < smoothed + 8 ∧
              variation ≤ roundTrip - smoothed ∧
              roundTrip - smoothed < variation + 4
  again :
    outbound.attempts ≠ 1 →
      path.floor =
        if path.rto.any (nowMs - outbound.lastSent ≤ ·.current) then
          none
        else
          some (min ((nowMs - outbound.firstSent) * 2) maxRtoMs)

/-- An estimate stays as it is if the sample is within its rounding. -/
theorem Rto.sample_eq_iff
    {rto : Rto}
    {rttMs : Nat}
    (isWord : rttMs ≤ maxValue 32) :
    rto.sample rttMs = rto ↔
      ∃ smoothed variation,
        rto = ⟨some smoothed, variation⟩ ∧
          smoothed ≤ rttMs ∧
          rttMs < smoothed + 8 ∧
          variation ≤ rttMs - smoothed ∧
          rttMs - smoothed < variation + 4 := by
  obtain ⟨_ | smoothed, variation⟩ := rto
  · simp [sample]
  unfold maxValue at isWord
  simp only [sample, mk.injEq, Option.some.injEq, exists_and_left,
    exists_eq_left', and_assoc]
  omega

/-- A path is left as it is exactly if it foresees the reply. -/
theorem Outbound.lesson_eq_iff
    (outbound : Outbound)
    (nowMs : Nat)
    (path : Path) :
    outbound.lesson nowMs path = path ↔ path.Foresees outbound nowMs := by
  unfold lesson
  by_cases isOnce : outbound.attempts = 1
  · have isWord := Nat.min_le_right (nowMs - outbound.firstSent) (maxValue 32)
    have teaches : path.Foresees outbound nowMs ↔ _ :=
      ⟨fun foresees => foresees.once isOnce, fun once => ⟨fun _ => once, (absurd isOnce ·)⟩⟩
    rw [if_pos isOnce, teaches]
    obtain ⟨_ | rto, floor⟩ := path
    · -- The first sample of an unmeasured path never leaves it as it was.
      simp
    · simp only [Option.getD_some, Path.mk.injEq, Option.some.injEq, Rto.sample_eq_iff isWord]
      rw [and_comm, eq_comm]
  · have teaches : path.Foresees outbound nowMs ↔ _ :=
      ⟨fun foresees => foresees.again isOnce, fun again => ⟨(absurd · isOnce), fun _ => again⟩⟩
    rw [if_neg isOnce, teaches]
    obtain ⟨rto, floor⟩ := path
    simp only [Path.mk.injEq, true_and]
    exact eq_comm

namespace Endpoint

variable {ω : Type*}

/-- The handshake under way that a reply is taken for, if there is one. -/
def awaited
    (env : Env ω)
    (endpoint : Endpoint ω)
    (addr : SocketAddr)
    (sessionId : BitVec 32) :
    Option (PeerId × Outbound) :=
  ((env.walk.order endpoint.outbound.keys).filterMap fun id =>
    (endpoint.outbound.lookup id).map (id, ·)).find? fun (_, outbound) =>
      outbound.addr == addr && outbound.sessionId == sessionId

/-- A path is left alone if it is in the table, and does not change. -/
theorem pathMut_paths_iff (endpoint : Endpoint ω) (addr : SocketAddr) (change : Path → Path) :
    (endpoint.pathMut addr change).paths = endpoint.paths ↔
      (∃ path, (addr, path) ∈ endpoint.paths) ∧
        ∀ path, (addr, path) ∈ endpoint.paths → change path = path := by
  unfold pathMut
  dsimp only
  by_cases known : ∃ path, (addr, path) ∈ endpoint.paths
  · have isKnown : (endpoint.paths.any (·.1 == addr)) = true := by
      obtain ⟨path, member⟩ := known
      exact List.any_eq_true.mpr ⟨_, member, beq_self_eq_true addr⟩
    rw [if_pos isKnown, and_iff_right known]
    nth_rewrite 2 [← List.map_id endpoint.paths]
    rw [List.map_inj_left]
    constructor
    · intro same path member
      have isSame := same (addr, path) member
      rw [beq_self_eq_true, if_pos rfl] at isSame
      exact congrArg Prod.snd isSame
    · rintro same ⟨other, path⟩ member
      split
      · next isAddr =>
          rw [beq_iff_eq] at isAddr
          subst isAddr
          rw [same path member]
          rfl
      · rfl
  · have isUnknown : ¬ (endpoint.paths.any (·.1 == addr)) = true := by
      intro isKnown
      obtain ⟨⟨other, path⟩, member, isAddr⟩ := List.any_eq_true.mp isKnown
      exact known ⟨path, beq_iff_eq.mp isAddr ▸ member⟩
    rw [if_neg isUnknown]
    refine iff_of_false (fun same => known ⟨change ⟨none, none⟩, ?_⟩) fun holds => known holds.1
    rw [← same]
    refine List.mem_map.mpr ⟨(addr, ⟨none, none⟩), ?_, ?_⟩
    · split <;> exact List.mem_append_right _ (List.mem_singleton.mpr rfl)
    · rw [beq_self_eq_true, if_pos rfl]

/-- A reply's time is noted before the reply is read. -/
theorem learned_eq (endpoint : Endpoint ω) (outbound : Outbound) (nowMs : Nat) :
    (if outbound.attempts = 1 then
        endpoint.measurePath outbound.addr (nowMs - outbound.firstSent)
      else
        endpoint.learnFromResent outbound.addr (nowMs - outbound.firstSent)
          (nowMs - outbound.lastSent)) =
      endpoint.pathMut outbound.addr (outbound.lesson nowMs) := by
  unfold measurePath learnFromResent Outbound.lesson
  split
  · rfl
  · congr 1
    funext path
    split <;> rfl

theorem completeOutbound_unmatched
    {env : Env ω} {endpoint : Endpoint ω} {addr : SocketAddr} {sessionId : BitVec 32}
    (unmatched : awaited env endpoint addr sessionId = none) (nowMs : Nat) :
    completeOutbound env endpoint addr sessionId nowMs = (none, endpoint) := by
  unfold awaited at unmatched
  unfold completeOutbound
  dsimp only
  rw [unmatched]

theorem completeOutbound_refused {env : Env ω} {endpoint : Endpoint ω} {addr : SocketAddr}
    {sessionId : BitVec 32} {peerId : PeerId} {outbound : Outbound}
    (matched : awaited env endpoint addr sessionId = some (peerId, outbound))
    (fails : (env.noise.readResponse outbound.handshake endpoint.rx).toOption = none)
    (nowMs : Nat) :
    (completeOutbound env endpoint addr sessionId nowMs).2.paths =
      (endpoint.pathMut outbound.addr (outbound.lesson nowMs)).paths := by
  unfold awaited at matched
  unfold completeOutbound
  dsimp only
  rw [matched]
  dsimp only
  rw [learned_eq]
  cases reads : env.noise.readResponse outbound.handshake endpoint.rx with
  | error _ =>
    have sameRx : (({ endpoint with
            outbound := endpoint.outbound.erase peerId } :
          Endpoint ω).pathMut outbound.addr (outbound.lesson nowMs)).rx =
          endpoint.rx :=
      rfl
    rw [sameRx, reads]
    rfl
  | ok completed =>
    rw [reads] at fails
    cases fails

/-- A reply is matched with a handshake under way. -/
theorem dispatch_reply
    (env : Env ω) (endpoint : Endpoint ω) {datagram : Incoming} (closes : datagram.Closes) :
    (dispatch env endpoint datagram.bytes datagram.addr datagram.random datagram.nowMs).2 =
      (completeOutbound env { endpoint with rx := datagram.bytes }
        datagram.addr datagram.header.sessionId datagram.nowMs).2 := by
  unfold dispatch
  rw [if_neg datagram.isFrame, datagram.decoded]
  dsimp only
  rcases closes with isType | isType
  · rw [isType]
  · rw [isType]

/--
A reply that does not authenticate leaves what is held of paths as it was, and
with it every resend schedule, exactly if it is taken for no handshake, or for
one whose address has an entry that foresees its time of arrival.
-/
theorem forged_reply_teaches_nothing_iff
    (env : Env ω)
    (endpoint : Endpoint ω)
    (datagram : Incoming)
    (closes : datagram.Closes)
    (unauthenticated :
      ∀ peerId outbound,
        awaited env endpoint datagram.addr datagram.header.sessionId =
          some (peerId, outbound) →
        (env.noise.readResponse outbound.handshake
          datagram.bytes).toOption = none) :
    let after :=
      (dispatch env endpoint datagram.bytes datagram.addr datagram.random
        datagram.nowMs).2
    (after.paths = endpoint.paths ↔
        ∀ peerId outbound,
          awaited env endpoint datagram.addr datagram.header.sessionId =
            some (peerId, outbound) →
          (∃ path, (outbound.addr, path) ∈ endpoint.paths) ∧
            ∀ path,
              (outbound.addr, path) ∈ endpoint.paths →
              path.Foresees outbound datagram.nowMs) ∧
      (after.paths = endpoint.paths →
        ∀ addr attempts,
          after.handshakeDelay addr attempts =
            endpoint.handshakeDelay addr attempts) := by
  intro after
  refine ⟨?_, fun same addr attempts => ?_⟩
  · have isAfter := dispatch_reply env endpoint closes
    cases matched :
        awaited env endpoint datagram.addr datagram.header.sessionId with
    | none =>
        have unmatched :
            awaited env { endpoint with rx := datagram.bytes } datagram.addr
              datagram.header.sessionId = none :=
          matched
        rw [completeOutbound_unmatched unmatched] at isAfter
        refine iff_of_true ?_ nofun
        unfold after
        rw [isAfter]
    | some started =>
        obtain ⟨peerId, outbound⟩ := started
        have learns : after.paths =
              (endpoint.pathMut outbound.addr
                (outbound.lesson datagram.nowMs)).paths := by
          unfold after
          rw [isAfter]
          exact @completeOutbound_refused _ env
            { endpoint with rx := datagram.bytes } _ _ _ _ matched
            (unauthenticated peerId outbound matched) datagram.nowMs
        rw [learns, pathMut_paths_iff]
        simp only [Outbound.lesson_eq_iff]
        constructor
        · rintro known _ _ ⟨⟩
          exact known
        · intro known
          exact known peerId outbound rfl
  · unfold handshakeDelay
    rw [same]

/-- A handshake that takes no reply. -/
def deafEnv : Env Unit :=
  { smallEnv with
    noise :=
      { smallNoise with
        readResponse := fun _ _ => .error .handshake
        readResponse_sessionId := nofun } }

/-- A reply with an identifier, from a host. -/
def smallReply (number : Nat) : Incoming where
  bytes := smallOpening .handshakeResponse 5 []
  header := ⟨.handshakeResponse, 0, 5, 0⟩
  addr := host number
  random := []
  nowMs := 10
  decoded := by decide +kernel

/-- A handshake whose opening frame has gone out twice. -/
def smallResent : Outbound where
  handshake := .full []
  peerKey := none
  addr := host 1
  sessionId := 5
  frame := []
  nextAttempt := 1000
  attempts := 2
  firstSent := 0
  lastSent := 5

/-- An endpoint that has had to wait as long before. -/
def smallPatient : Endpoint Unit :=
  { smallServer with
    outbound := (∅ : Table PeerId Outbound).insert 0 smallResent
    paths := [(host 1, ⟨none, some 20⟩)] }

theorem forged_reply_teaches_nothing_of_small_wait :
    (dispatch deafEnv smallPatient (smallReply 1).bytes (host 1) []
      10).2.paths = smallPatient.paths := by
  have isAwaited :
      awaited deafEnv smallPatient (host 1) 5 = some (0, smallResent) := by
    rfl
  refine (forged_reply_teaches_nothing_iff deafEnv smallPatient (smallReply 1)
    (Or.inl rfl) (fun _ _ _ => rfl)).1.mpr ?_
  intro peerId outbound matched
  cases isAwaited.symm.trans matched
  refine ⟨⟨_, List.mem_singleton.mpr rfl⟩, ?_⟩
  intro path member
  cases List.mem_singleton.mp member
  exact ⟨nofun, fun _ => rfl⟩

/-- An endpoint that has just begun a handshake. -/
def smallBegun : Endpoint Unit :=
  (connectAndSend deafEnv smallServer (host 1) (some []) [] 5 [] 0).2

/-- A reply that does not authenticate ends the handshake, and shortens the
first wait of the next one. -/
theorem forged_reply_sets_schedule :
    let dispatched :=
      dispatch deafEnv smallBegun (smallReply 1).bytes (host 1) [] 10
    dispatched.1 = .ok (some (.connectFailed 0)) ∧
      smallBegun.paths = [] ∧
      dispatched.2.paths.length = 1 ∧
      smallBegun.handshakeDelay (host 1) 1 = 250 ∧
      dispatched.2.handshakeDelay (host 1) 1 = 30 := by
  decide +kernel

end Endpoint

end Fectp
