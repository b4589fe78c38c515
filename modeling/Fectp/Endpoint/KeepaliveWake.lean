import Fectp.Endpoint.Forgery
import Fectp.Endpoint.Index
import Fectp.Endpoint.TimerPass

namespace Fectp

/-!
# Waking for a keep-alive nobody sends

The time-driven pass clears what was due, except for a session that has not
spoken: the wake counts its keep-alive, and the pass does not send it.
-/

namespace Endpoint

variable {ω : Type*}

/-- Keep-alives take time, and no path has two searches. -/
structure Paced
    (keepalive : Option Nat)
    (peers : Table PeerId PeerEntry) :
    Prop where
  keepalive : ∀ every ∈ keepalive, 0 < every
  single : ∀ id entry, peers.lookup id = some entry → entry.Single

/-- The same of an endpoint. -/
abbrev Timed (endpoint : Endpoint ω) : Prop :=
  Paced endpoint.keepalive endpoint.peers

namespace Paced

variable {keepalive : Option Nat} {peers : Table PeerId PeerEntry}

theorem insert
    {entry : PeerEntry} (paced : Paced keepalive peers) (single : entry.Single) (peerId : PeerId) :
    Paced keepalive (peers.insert peerId entry) where
  keepalive := paced.keepalive
  single := by
    intro id held found
    by_cases isPeer : id = peerId
    · subst isPeer
      rw [AList.lookup_insert] at found
      cases found
      exact single
    · rw [AList.lookup_insert_ne isPeer] at found
      exact paced.single id held found

theorem update {change : PeerEntry → PeerEntry} (paced : Paced keepalive peers)
    (single : ∀ entry, entry.Single → (change entry).Single) (peerId : PeerId) :
    Paced keepalive (Table.update peers peerId change) := by
  unfold Table.update
  split
  · next entry found => exact paced.insert (single entry (paced.single peerId entry found)) _
  · exact paced

theorem erase (paced : Paced keepalive peers) (peerId : PeerId) :
    Paced keepalive (peers.erase peerId) where
  keepalive := paced.keepalive
  single := by
    intro id entry found
    by_cases isPeer : id = peerId
    · subst isPeer
      rw [AList.lookup_erase] at found
      cases found
    · rw [AList.lookup_erase_ne isPeer] at found
      exact paced.single id entry found

end Paced

variable {env : Env ω} {endpoint : Endpoint ω} {nowMs : Nat}

/-! ### Sessions come and go -/

theorem unfileSession_timed (timed : endpoint.Timed) (sessionId : BitVec 32) (peerId : PeerId) :
    (endpoint.unfileSession sessionId peerId).Timed := by
  unfold unfileSession
  split
  · exact timed
  · exact timed

theorem removePeer_timed (timed : endpoint.Timed) (peerId : PeerId) (entry : PeerEntry) :
    (endpoint.removePeer peerId entry).Timed := by
  exact unfileSession_timed (timed.erase peerId) _ _

theorem makeRoom_timed (timed : endpoint.Timed) :
    (makeRoom env endpoint).Timed := by
  unfold makeRoom
  split
  · exact timed
  · split
    · exact timed
    · exact removePeer_timed timed _ _

theorem newEntry_single (env : Env ω) (nowMs : Nat) (endpoint : Endpoint ω) (link : Session)
    (addr : SocketAddr) (pmtu : Pmtu)
    (isPmtu : (newEntry env endpoint link addr nowMs).pmtu = some pmtu) :
    pmtu.Single := by
  unfold newEntry at isPmtu
  dsimp only at isPmtu
  split at isPmtu
  · cases isPmtu
    exact Pmtu.new_single _ nowMs
  · cases isPmtu

section

variable (timed : endpoint.Timed)

include timed

theorem file_timed (peerId : PeerId) (link : Session) (addr : SocketAddr) :
    (file env endpoint peerId link addr nowMs).Timed := by
  have roomy : (makeRoom env endpoint).Timed := makeRoom_timed timed
  have fresh := newEntry_single env nowMs endpoint link addr
  unfold file rescanWake displace
  dsimp only
  split
  · exact roomy.insert fresh peerId
  · next previous _ =>
      exact (unfileSession_timed (roomy.erase previous) link.sessionId previous).insert fresh peerId

theorem answer_timed
    (addr : SocketAddr) (resumed : Bool) (responded : Except Error (Session × Bytes × Bytes)) :
    (answer env endpoint addr resumed responded nowMs).2.Timed := by
  rcases answer_cases env endpoint addr resumed responded nowMs with
    ⟨same, _⟩ | ⟨link, _, reply, socket, _, ⟨_, _, same⟩ | ⟨_, filed⟩⟩
  · rw [same]
    exact timed
  · rw [same]
    exact timed
  rw [filed]
  refine Paced.update ?_ ?_ endpoint.nextId
  · refine file_timed ?_ endpoint.nextId link addr
    exact timed
  · exact fun _ single => single

theorem completeOutbound_timed (addr : SocketAddr) (sessionId : BitVec 32) :
    (completeOutbound env endpoint addr sessionId nowMs).2.Timed := by
  rcases completeOutbound_cases env endpoint addr sessionId nowMs with
    same | ⟨peerId, outbound, paths, _, _, _, same | ⟨link, _, _, filed⟩⟩
  · rw [same]
    exact timed
  · rw [same]
    exact timed
  rw [filed]
  refine file_timed ?_ peerId link outbound.addr
  unfold ticketed closed
  exact timed

theorem giveWay_timed (displaced : Option PeerId) :
    (endpoint.giveWay displaced).Timed := by
  unfold giveWay
  split
  · exact timed
  · next lost entry _ => exact unfileSession_timed (timed.erase lost) entry.sessionId lost

/-! ### Sessions are served -/

/-- One entry changes, and its path is still searched once at a time. -/
theorem touched_timed {Effect : PeerEntry × ω → PeerEntry × ω → Prop} {peerId : PeerId}
    {after : Endpoint ω} (touched : Touched Effect peerId endpoint after)
    (keeps : ∀ {held now},
        Effect (held, endpoint.socket) (now, after.socket) →
        held.Single →
        now.Single) :
    after.Timed where
  keepalive := by
    rw [show after.keepalive = endpoint.keepalive from congrArg (·.2.2.2.2.2.1) touched.outside]
    exact timed.keepalive
  single := by
    intro id entry found
    by_cases isPeer : id = peerId
    · subst isPeer
      rcases touched.entry with
        ⟨_, absent, _⟩ | ⟨held, now, isHeld, isNow, takes⟩
      · rw [found] at absent
        cases absent
      · rw [found] at isNow
        cases isNow
        exact keeps takes (timed.single id held isHeld)
    · rw [touched.others id isPeer] at found
      exact timed.single id entry found

theorem served_timed
    {peerId : PeerId} {after : Endpoint ω} (served : Served env nowMs peerId endpoint after) :
    after.Timed :=
  touched_timed timed served.toTouched fun takes => takes.1.single

theorem settleProbe_timed (peerId : PeerId) (addr : SocketAddr) (token : Bytes) :
    (endpoint.settleProbe peerId addr token nowMs).2.Timed := by
  unfold settleProbe displace
  split
  · exact timed
  next entry found =>
  split
  · refine giveWay_timed (Paced.insert timed ?_ peerId) _
    intro pmtu isPmtu
    obtain ⟨held, _, rfl⟩ := Option.map_eq_some_iff.mp isPmtu
    exact held.reset_single nowMs
  · exact timed

theorem lose_timed (peerId : PeerId) :
    (endpoint.lose peerId).Timed := by
  unfold lose
  split
  · exact timed
  · exact removePeer_timed timed ..

/-! ### Every atom -/

theorem connectAndSend_timed (addr : SocketAddr) (peerPublic : Option Bytes) (zeroRtt : Bytes)
    (sessionId : BitVec 32) (random : Bytes) :
    (connectAndSend env endpoint addr peerPublic zeroRtt sessionId random nowMs).2.Timed := by
  rcases connectAndSend_cases env endpoint addr peerPublic zeroRtt sessionId random nowMs with
    same | ⟨_, _, _, ⟨_, _, same⟩ | ⟨_, same⟩⟩
  all_goals
    rw [same]
    exact timed

theorem disconnect_timed (peerId : PeerId) :
    (endpoint.disconnect peerId).2.Timed := by
  unfold disconnect
  split
  · exact timed
  · split
    · exact timed
    · exact removePeer_timed timed ..

theorem resendOpening_timed (peerId : PeerId) :
    (resendOpening env nowMs peerId endpoint).2.Timed := by
  unfold resendOpening
  split
  · exact timed
  split
  · exact timed
  · dsimp only
    split
    · exact timed
    · exact timed

theorem repeatHandshake_timed (addr : SocketAddr) (sessionId : BitVec 32) :
    (repeatHandshake env endpoint addr sessionId nowMs).2.Timed := by
  cases routed : endpoint.routes.lookup (addr, sessionId) with
  | none =>
    rw [repeatHandshake_unrouted env routed]
    exact timed
  | some peerId =>
    refine touched_timed timed (repeatHandshake_visited env routed nowMs).toTouched ?_
    intro held now repeats
    generalize (repeatHandshake ..).2.socket = socket at repeats
    cases repeats <;> exact id

theorem setMaxRetries_timed (attempts : Nat) :
    (endpoint.setMaxRetries attempts).Timed := by
  have folds : ∀ (ids : List PeerId) (peers : Table PeerId PeerEntry),
        Paced endpoint.keepalive peers →
        Paced endpoint.keepalive (ids.foldl (fun peers id =>
              Table.update peers id fun entry =>
                { entry with
                  peer :=
                    { entry.peer with
                      retransmit := entry.peer.retransmit.setMaxRetries (max attempts 1) } })
            peers) := by
    intro ids
    induction ids with
    | nil => exact fun _ paced => paced
    | cons id rest inductionHypothesis =>
      intro peers paced
      refine inductionHypothesis _ (paced.update ?_ id)
      exact fun _ single => single
  exact folds endpoint.peers.keys endpoint.peers timed

theorem apply_timed (setting : Setting) :
    (Endpoint.apply env endpoint setting nowMs).2.Timed := by
  cases setting with
  | keepalive every =>
    refine ⟨fun interval isInterval => ?_, timed.single⟩
    obtain ⟨asked, _, rfl⟩ := Option.map_eq_some_iff.mp isInterval
    exact Nat.lt_of_lt_of_le (by decide) (Nat.le_max_right ..)
  | maxRetries attempts => exact setMaxRetries_timed timed attempts
  | handshakeReply payload =>
    unfold Endpoint.apply setHandshakeReply
    dsimp only
    split
    · exact timed
    · exact timed
  | _ => exact timed

end

variable {before after : Endpoint ω}

theorem FrameAtom.timed
    {datagram : Incoming} (timed : before.Timed) (atom : FrameAtom env datagram before after) :
    after.Timed := by
  cases atom with
  | completed _ => exact completeOutbound_timed timed ..
  | opening _ opens =>
    cases opens with
    | note same =>
      rw [Timed, same.keepalive, same.peers]
      exact timed
    | repeated => exact repeatHandshake_timed timed ..
    | filed _ _ => exact answer_timed timed ..
  | session works =>
    cases works with
    | budget => exact served_timed timed (mayTryUnknownAddress_served env before)
    | tried found _ ingests => exact served_timed timed (ingested_served found ingests)
    | heard found _ _ _ =>
      refine touched_timed timed (heard_visited found _ _ _).toTouched ?_
      rintro _ _ ⟨_, hears⟩
      rw [(Prod.mk.inj hears).1]
      exact id
    | replied _ heard =>
      obtain ⟨entry, found⟩ := heard.found
      refine touched_timed timed (sendToPeer_visited env found _ _ _).toTouched ?_
      rintro _ _ ⟨_, rfl⟩
      exact id
    | answered => exact served_timed timed (answered_served env _ before)
    | challenged _ _ =>
      refine touched_timed timed (startProbe_visited env before _ _ _ _).toTouched ?_
      intro held now challenges
      generalize (startProbe ..).2.socket = socket at challenges
      cases challenges <;> exact id
    | moved _ _ => exact settleProbe_timed timed ..

theorem Atom.timed {moment : Moment} (timed : before.Timed) (atom : Atom env moment before after) :
    after.Timed := by
  cases atom with
  | note same =>
    rw [Timed, same.keepalive, same.peers]
    exact timed
  | popped _ => exact timed
  | rescanned => exact timed
  | frame _ _ works => exact works.timed timed
  | connected _ => exact connectAndSend_timed timed ..
  | disconnected _ => exact disconnect_timed timed _
  | set _ => exact apply_timed timed _
  | sent _ => exact served_timed timed (send_served _ _ before)
  | sentOne _ found => exact served_timed timed (sendOneReliable_served found _ _)
  | queued _ found => exact served_timed timed (queued_served env moment.nowMs found _ _)
  | fed => exact served_timed timed (driveQueueOf_served before)
  | resent => exact served_timed timed (driveRetransmitsOf_served before)
  | reopened => exact resendOpening_timed timed _
  | lost _ => exact lose_timed timed _
  | keptAlive _ _ _ => exact served_timed timed (keepAliveOf_served _ before)
  | probed _ => exact served_timed timed (drivePmtuOf_served _ before)

theorem Driver.run_timed (env : Env ω) (mode : Mode) (socket : ω) (moments : List Moment) :
    (Execution.run (Driver.next env)
      (Driver.new (Endpoint.new env mode socket)) moments).endpoint.Timed := by
  refine Driver.run_invariant Timed (fun timed atom => atom.timed timed) moments ?_
  refine ⟨fun _ isEvery => (nomatch isEvery), fun id _ found => ?_⟩
  cases (AList.lookup_empty id).symm.trans found

/-! ### What is left to wake for -/

/--
Every session that has not spoken and has not been sent to for a keep-alive's
interval is one this pass releases or resends to.
-/
def Attended (endpoint : Endpoint ω) (nowMs : Nat) : Prop :=
  ∀ every ∈ endpoint.keepalive,
    ∀ entry ∈ endpoint.peers.values,
      entry.spoke = false →
      entry.lastSent + every ≤ nowMs →
      silent endpoint.peerTimeout nowMs entry.lastHeard = true ∨
        entry.peer.toOutbox.resends nowMs = true

instance (endpoint : Endpoint ω) (nowMs : Nat) :
    Decidable (endpoint.Attended nowMs) :=
  inferInstanceAs (Decidable (∀ every ∈ endpoint.keepalive, _))

theorem PassedTimers.clear_iff {nowMs : Nat} (inTime : nowMs < maxValue 64) (timed : before.Timed)
    (passed : PassedTimers nowMs before.summary after.summary) :
    (∀ moment, after.summary.Due nowMs moment → nowMs < moment) ↔ before.Attended nowMs := by
  have held : ∀ {id standing},
        after.summary.peers id = some standing →
        ∃ entry, before.peers.lookup id = some entry ∧
            silent before.peerTimeout nowMs entry.lastHeard = false ∧
            Serviced before.keepalive nowMs entry.standing standing := by
    intro id standing found
    have related := passed.peers id
    rw [found] at related
    generalize isFirst : Option.filter _ _ = first at related
    cases related with
    | some services =>
      obtain ⟨isHeld, heard⟩ := Option.filter_eq_some_iff.mp isFirst
      obtain ⟨entry, isEntry, rfl⟩ := Option.map_eq_some_iff.mp isHeld
      rw [Bool.not_eq_true'] at heard
      exact ⟨entry, isEntry, heard, services⟩
  refine ⟨?_, ?_⟩
  · intro clear every isEvery entry member unspoken overdue
    obtain ⟨id, found⟩ := Table.mem_values.mp member
    by_contra unattended
    rw [not_or, Bool.not_eq_true, Bool.not_eq_true] at unattended
    have related := passed.peers id
    rw [summary_peers found, Option.filter_some] at related
    have heard : silent before.summary.peerTimeout nowMs entry.standing.lastHeard = false :=
      unattended.1
    rw [heard] at related
    obtain ⟨standing, foundAfter, services⟩ := rel_eq_some related
    have unsent := services.unspoken unspoken
    have idle : entry.standing.outbox.resends nowMs = false := unattended.2
    rw [idle] at unsent
    have due := clear _ (.keepalive foundAfter (passed.keepalive.trans isEvery))
    rw [unsent, if_neg Bool.false_ne_true] at due
    have isStamp : entry.standing.lastSent = entry.lastSent := rfl
    omega
  · intro attended moment due
    cases due with
    | @retransmit id standing deadline found isNext =>
      obtain ⟨entry, _, _, services⟩ := held found
      rw [services.retransmit] at isNext
      have := RetransmitQueue.poll_clears inTime isNext
      omega
    | @handshake id moment found => exact passed.outbound id moment found
    | @pmtu id standing moment found isNext =>
      obtain ⟨entry, isEntry, _, services⟩ := held found
      exact services.pmtu (timed.single id entry isEntry) moment isNext
    | @keepalive id standing every found isEvery =>
      obtain ⟨entry, isEntry, heard, services⟩ := held found
      rw [passed.keepalive] at isEvery
      have positive := timed.keepalive every isEvery
      suffices nowMs < standing.lastSent + every by omega
      cases spoke : entry.spoke with
      | true => exact services.spoken spoke every isEvery positive
      | false =>
        rw [services.unspoken spoke]
        split
        · omega
        next idle =>
        by_contra overdue
        rcases attended every isEvery entry (Table.mem_values.mpr ⟨id, isEntry⟩) spoke
            (Nat.le_of_not_lt overdue) with
          isSilent | resends
        · rw [heard] at isSilent
          cases isSilent
        · exact idle resends
    | @liveness id standing limit found isLimit =>
      obtain ⟨entry, _, heard, services⟩ := held found
      rw [passed.peerTimeout] at isLimit
      have isTimeout : before.peerTimeout = some limit := isLimit
      rw [silent, isTimeout, Option.any_some, decide_eq_false_iff_not] at heard
      have isHeard : standing.lastHeard = entry.lastHeard := services.lastHeard
      omega

/--
After a pass over the timers that runs to its end, nothing is due at once,
exactly where every session that was to be kept alive and has not spoken was
attended to otherwise.
-/
theorem timers_clear_iff
    {env : Env ω}
    {driver : Driver ω}
    (reachable : driver.Reachable env)
    (walk : Walk)
    {nowMs : Nat}
    (inTime : nowMs < maxValue 64)
    {keepaliveTokens : PeerId → Bytes}
    {probeTokens : PeerId → List Bytes}
    {after : Endpoint ω}
    (passes :
      driveTimers { env with walk := walk } driver.endpoint nowMs
          keepaliveTokens probeTokens =
        (.ok none, after)) :
    (∀ deadline,
        after.earliestDeadline nowMs = some deadline →
        nowMs < deadline) ↔
      driver.endpoint.Attended nowMs := by
  obtain ⟨mode, socket, history, rfl⟩ := reachable
  rw [← (driveTimers_passed passes).clear_iff inTime
    (Driver.run_timed env mode socket history)]
  refine ⟨?_, ?_⟩
  · intro clear moment due
    obtain ⟨deadline, isEarliest, early⟩ := earliestDeadline_inTime due
    exact Nat.lt_of_lt_of_le (clear deadline isEarliest) early
  · intro clear deadline isEarliest
    exact clear deadline (due_of_earliestDeadline isEarliest)

/-- A session is accepted, and is to be kept alive. -/
def smallStranger : List Moment :=
  smallPass 0 (smallOpening .handshakeInit 5 [7]) (host 1) [] ++
    [smallMoment 1 (.set (.keepalive (some 100)))]

def smallServing (moments : List Moment) : Driver Unit :=
  Execution.run (Driver.next smallEnv)
    (Driver.new (Endpoint.new smallEnv (.publicKey []) ())) moments

theorem timers_clear_iff_of_small_speaker :
    let spoken :=
      smallServing (smallStranger ++ smallPass 2 (smallWord 5 [7]) (host 1) [])
    let passed :=
      driveTimers smallEnv spoken.endpoint 200 (fun _ => []) fun _ => []
    passed.2.earliestDeadline 200 = some 300 ∧
      ∀ deadline,
        passed.2.earliestDeadline 200 = some deadline → 200 < deadline := by
  intro spoken passed
  have reachable : spoken.Reachable smallEnv := ⟨.publicKey [], (), _, rfl⟩
  have passes : passed.1 = .ok none := by
    decide +kernel
  refine ⟨by decide +kernel, ?_⟩
  exact (timers_clear_iff reachable smallEnv.walk (by decide)
    (Prod.ext passes rfl)).mpr (by decide +kernel)

/-- A session that has not spoken is due, is not sent to, and stays due. -/
theorem unspoken_session_stays_due :
    let stranger := smallServing smallStranger
    let passed :=
      driveTimers smallEnv stranger.endpoint 200 (fun _ => []) fun _ => []
    passed.1 = .ok none ∧ passed.2.earliestDeadline 200 = some 200 := by
  decide +kernel

end Endpoint

end Fectp
