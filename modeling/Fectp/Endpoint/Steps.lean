import Fectp.Endpoint.Atoms
import Fectp.Endpoint.Poll

namespace Fectp

/-!
# The steps of an endpoint's caller, taken apart

Every step of the driver comes down to visits of single peers, to single
datagrams' atoms and to the plain calls.  An invariant of an endpoint is proved
atom by atom, and holds along every run.
-/

namespace Endpoint

variable {ω : Type*}

open Relation (ReflTransGen)

/-- What a step of the driver is made of. -/
inductive Atom (env : Env ω) (moment : Moment) :
    Endpoint ω → Endpoint ω → Prop where
  | note {before after : Endpoint ω} :
      before.SameTables after →
      Atom env moment before after
  | popped {endpoint : Endpoint ω} {event : Event} {rest : List Event} :
      endpoint.events = event :: rest →
      Atom env moment endpoint { endpoint with events := rest }
  | rescanned {endpoint : Endpoint ω} :
      Atom env moment endpoint (endpoint.rescanWake moment.nowMs)
  | frame {before after : Endpoint ω} {datagram : Incoming} :
      moment.action =
        .receive (.datagram datagram.bytes datagram.addr datagram.random) →
      moment.nowMs = datagram.nowMs →
      FrameAtom env datagram before after →
      Atom env moment before after
  | connected {endpoint : Endpoint ω} {addr : SocketAddr}
      {peerPublic : Option Bytes} {zeroRtt : Bytes} {sessionId : BitVec 32}
      {random : Bytes} :
      moment.action = .connect addr peerPublic zeroRtt sessionId random →
      Atom env moment endpoint
        (connectAndSend env endpoint addr peerPublic zeroRtt sessionId
          random moment.nowMs).2
  | disconnected {endpoint : Endpoint ω} {peerId : PeerId} :
      moment.action = .disconnect peerId →
      Atom env moment endpoint (endpoint.disconnect peerId).2
  | set {endpoint : Endpoint ω} {setting : Setting} :
      moment.action = .set setting →
      Atom env moment endpoint
        (Endpoint.apply env endpoint setting moment.nowMs).2
  | sent {endpoint : Endpoint ω} {peerId : PeerId} {data : Bytes}
      {payloadType : PayloadType} :
      moment.action = .send peerId data payloadType →
      Atom env moment endpoint
        (Endpoint.send env endpoint peerId data payloadType moment.nowMs).2
  | sentOne {endpoint : Endpoint ω} {peerId : PeerId} {entry : PeerEntry}
      {data : Bytes} {payloadType : PayloadType} :
      moment.action = .sendReliable peerId data payloadType →
      endpoint.peers.lookup peerId = some entry →
      Atom env moment endpoint
        (Endpoint.sendOneReliable env endpoint peerId entry data payloadType
          moment.nowMs).2
  | queued {endpoint : Endpoint ω} {peerId : PeerId} {entry : PeerEntry}
      {data : Bytes} {payloadType : PayloadType} :
      moment.action = .sendReliable peerId data payloadType →
      endpoint.peers.lookup peerId = some entry →
      Atom env moment endpoint
        (endpoint.putEntry peerId
          { entry with
            peer :=
              (entry.peer.queueMessage data payloadType
                entry.datagramLimit).2 })
  | fed {endpoint : Endpoint ω} {peerId : PeerId} :
      Atom env moment endpoint (driveQueueOf env moment.nowMs peerId endpoint).2
  | resent {endpoint : Endpoint ω} {peerId : PeerId} :
      Atom env moment endpoint
        (driveRetransmitsOf env moment.nowMs peerId endpoint).2
  | reopened {endpoint : Endpoint ω} {peerId : PeerId} :
      Atom env moment endpoint
        (resendOpening env moment.nowMs peerId endpoint).2
  | lost {endpoint : Endpoint ω} {peerId : PeerId} {limit : Nat} :
      endpoint.peerTimeout = some limit →
      Atom env moment endpoint (endpoint.lose peerId)
  | keptAlive {endpoint : Endpoint ω} {peerId : PeerId} {entry : PeerEntry}
      {keepaliveTokens : PeerId → Bytes}
      {probeTokens : PeerId → List Bytes} :
      moment.action = .timers keepaliveTokens probeTokens →
      endpoint.peers.lookup peerId = some entry →
      entry.spoke = true →
      Atom env moment endpoint
        (keepAliveOf env moment.nowMs keepaliveTokens peerId endpoint).2
  | probed {endpoint : Endpoint ω} {peerId : PeerId}
      {keepaliveTokens : PeerId → Bytes}
      {probeTokens : PeerId → List Bytes} :
      moment.action = .timers keepaliveTokens probeTokens →
      Atom env moment endpoint
        (drivePmtuOf env moment.nowMs probeTokens endpoint peerId)

/-- Some step of an endpoint, whatever brings it about. -/
def Stirs (before after : Endpoint ω) : Prop :=
  ∃ env moment, Atom env moment before after

variable {env : Env ω} {moment : Moment}

/-- What every visit of a loop comes down to, the loop comes down to. -/
theorem Atom.forEach {visit : PeerId → Endpoint ω → Except Error Unit × Endpoint ω}
    (visited : ∀ peerId endpoint, ReflTransGen (Atom env moment) endpoint (visit peerId endpoint).2)
    (ids : List PeerId) (endpoint : Endpoint ω) :
    ReflTransGen (Atom env moment) endpoint (Fectp.forEach visit ids endpoint).2 := by
  apply forEach_invariant (ReflTransGen (Atom env moment) endpoint)
  · intro peerId between _ reached
    exact reached.trans (visited peerId between)
  · exact .refl

variable (endpoint : Endpoint ω) {keepaliveTokens : PeerId → Bytes}
  {probeTokens : PeerId → List Bytes}

theorem driveQueues_atoms :
    ReflTransGen (Atom env moment) endpoint (driveQueues env endpoint moment.nowMs).2 := by
  have visits : ReflTransGen (Atom env moment) endpoint
        (Fectp.forEach (driveQueueOf env moment.nowMs)
          (env.walk.order endpoint.peers.keys) endpoint).2 :=
    Atom.forEach (fun _ _ => .single .fed) _ endpoint
  unfold driveQueues
  split
  · next walked =>
      rw [walked] at visits
      exact visits
  next walked =>
  rw [walked] at visits
  refine .tail visits (.note ?_)
  exact ⟨rfl, rfl, rfl, rfl, rfl, rfl, rfl, rfl, rfl, rfl, rfl, rfl, rfl⟩

theorem feedQueues_atoms :
    ReflTransGen (Atom env moment) endpoint (feedQueues env endpoint moment.nowMs).2 := by
  unfold feedQueues
  split
  · exact endpoint.driveQueues_atoms
  · exact .refl

theorem sendReliable_atoms
    {endpoint : Endpoint ω} {peerId : PeerId} {data : Bytes} {payloadType : PayloadType}
    (isAction : moment.action = .sendReliable peerId data payloadType) :
    ReflTransGen (Atom env moment) endpoint
      (Endpoint.sendReliable env endpoint peerId data payloadType moment.nowMs).2 := by
  unfold Endpoint.sendReliable
  split
  · exact .refl
  next entry found =>
  split
  · exact .single (.sentOne isAction found)
  have queues : Atom env moment endpoint
        (endpoint.putEntry peerId { entry with
            peer :=
              (entry.peer.queueMessage data payloadType entry.datagramLimit).2 }) :=
    .queued isAction found
  dsimp only
  generalize endpoint.putEntry peerId _ = between at queues ⊢
  split
  · exact .single queues
  have counts : Atom env moment between between.noteQueued :=
    .note ⟨rfl, rfl, rfl, rfl, rfl, rfl, rfl, rfl, rfl, rfl, rfl, rfl, rfl⟩
  have drives : ReflTransGen (Atom env moment) between.noteQueued
        (driveQueues env between.noteQueued moment.nowMs).2 :=
    driveQueues_atoms between.noteQueued
  split
  · next driven =>
      rw [driven] at drives
      exact .head queues (.head counts drives)
  next driven =>
  rw [driven] at drives
  exact .tail (.head queues (.head counts drives)) .rescanned

/-! ### The time-driven work -/

theorem driveRetransmits_atoms :
    ReflTransGen (Atom env moment) endpoint (driveRetransmits env endpoint moment.nowMs).2 :=
  Atom.forEach (fun _ _ => .single .resent) _ endpoint

theorem resendOpenings_atoms (ids : List PeerId) (endpoint : Endpoint ω) :
    ReflTransGen (Atom env moment) endpoint (resendOpenings env moment.nowMs ids endpoint).2 := by
  induction ids generalizing endpoint with
  | nil => exact .refl
  | cons peerId rest inductionHypothesis =>
    have resends : Atom env moment endpoint (resendOpening env moment.nowMs peerId endpoint).2 :=
      .reopened
    unfold resendOpenings
    split
    · next resent =>
        rw [resent] at resends
        exact .head resends (inductionHypothesis _)
    · exact .single resends

/-- Losing a peer changes no setting. -/
theorem lose_peerTimeout (peerId : PeerId) :
    (endpoint.lose peerId).peerTimeout = endpoint.peerTimeout := by
  unfold lose removePeer unfileSession
  dsimp only
  split
  · rfl
  · split
    · rfl
    · rfl

theorem driveLiveness_atoms :
    ReflTransGen (Atom env moment) endpoint (driveLiveness env endpoint moment.nowMs) := by
  unfold driveLiveness
  split
  · exact .refl
  next limit isLimit =>
  generalize List.filter _ _ = lost
  induction lost generalizing endpoint with
  | nil => exact .refl
  | cons peerId rest inductionHypothesis =>
    refine .head (.lost isLimit) (inductionHypothesis _ ?_)
    rw [lose_peerTimeout, isLimit]

/-- A keep-alive changes nobody's standing. -/
theorem keepAliveOf_spoke (env : Env ω) (nowMs : Nat) (tokens : PeerId → Bytes) (peerId : PeerId)
    (endpoint : Endpoint ω) (other : PeerId) :
    ((keepAliveOf env nowMs tokens peerId endpoint).2.peers.lookup other).map PeerEntry.spoke =
      (endpoint.peers.lookup other).map PeerEntry.spoke := by
  have sends : ∀ (endpoint : Endpoint ω) (frame : Bytes) (addr : SocketAddr),
        ((sendToPeer env endpoint peerId frame addr nowMs).2.peers.lookup
            other).map PeerEntry.spoke =
          (endpoint.peers.lookup other).map PeerEntry.spoke := by
    intro endpoint frame addr
    unfold sendToPeer
    dsimp only
    split
    · rfl
    rw [Table.lookup_update]
    split
    · next same =>
        rw [same, Option.map_map]
        rfl
    · rfl
  unfold keepAliveOf
  split
  · rfl
  next entry found =>
  have puts : ∀ after : PeerEntry, after.spoke = entry.spoke →
        ((endpoint.putEntry peerId after).peers.lookup other).map PeerEntry.spoke =
          (endpoint.peers.lookup other).map PeerEntry.spoke := by
    intro after same
    by_cases isPeer : other = peerId
    · subst isPeer
      rw [putEntry, AList.lookup_insert, found, Option.map_some, Option.map_some, same]
    · rw [putEntry, AList.lookup_insert_ne isPeer]
  dsimp only
  split
  · exact puts _ rfl
  · rw [sends]
    exact puts _ rfl

section

variable (isAction : moment.action = .timers keepaliveTokens probeTokens)
    (endpoint : Endpoint ω)

include isAction

theorem driveKeepalives_atoms :
    ReflTransGen (Atom env moment) endpoint
      (driveKeepalives env endpoint moment.nowMs keepaliveTokens).2 := by
  unfold driveKeepalives
  split
  · exact .refl
  next every _ =>
  -- Who is due is settled before the first visit, so each visit needs
  -- that the ones before it leave the others' standing alone.
  refine (forEach_invariant (fun between : Endpoint ω =>
      ReflTransGen (Atom env moment) endpoint between ∧ ∀ id,
          (between.peers.lookup id).map PeerEntry.spoke =
            (endpoint.peers.lookup id).map PeerEntry.spoke)
    ?_ ⟨.refl, fun _ => rfl⟩).1
  rintro peerId between member ⟨reached, same⟩
  refine ⟨?_, fun id => ?_⟩
  · obtain ⟨entry, found, due⟩ :=
      (Option.any_eq_true _ _).mp (List.mem_filter.mp member).2
    have spoken := (Bool.and_eq_true_iff.mp due).1
    have standing := same peerId
    rw [found, Option.map_some, spoken] at standing
    obtain ⟨now, foundNow, spokenNow⟩ := Option.map_eq_some_iff.mp standing
    exact .tail reached (.keptAlive isAction foundNow spokenNow)
  · rw [keepAliveOf_spoke]
    exact same id

theorem drivePmtu_atoms :
    ReflTransGen (Atom env moment) endpoint (drivePmtu env endpoint moment.nowMs probeTokens) := by
  unfold drivePmtu
  generalize env.walk.order endpoint.peers.keys = ids
  induction ids generalizing endpoint with
  | nil => exact .refl
  | cons peerId rest inductionHypothesis => exact .head (.probed isAction) (inductionHypothesis _)

theorem driveTimers_atoms :
    ReflTransGen (Atom env moment) endpoint
      (driveTimers env endpoint moment.nowMs keepaliveTokens probeTokens).2 := by
  have resends : ReflTransGen (Atom env moment) endpoint
        (driveRetransmits env endpoint moment.nowMs).2 :=
    endpoint.driveRetransmits_atoms
  unfold driveTimers
  split
  · next resent =>
      rw [resent] at resends
      exact resends
  next afterResends resent =>
  rw [resent] at resends
  have reopens : ReflTransGen (Atom env moment) afterResends
        (driveHandshakes env afterResends moment.nowMs).2 :=
    resendOpenings_atoms _ afterResends
  split
  · next afterOpenings reopened =>
      rw [reopened] at reopens
      have alive : ReflTransGen (Atom env moment) afterOpenings
            (driveLiveness env afterOpenings moment.nowMs) :=
        afterOpenings.driveLiveness_atoms
      generalize driveLiveness env afterOpenings moment.nowMs = afterLiveness at alive ⊢
      have keeps : ReflTransGen (Atom env moment) afterLiveness
            (driveKeepalives env afterLiveness moment.nowMs keepaliveTokens).2 :=
        driveKeepalives_atoms isAction afterLiveness
      have upToHere := (resends.trans reopens).trans alive
      dsimp only
      split
      · next kept =>
          rw [kept] at keeps
          exact upToHere.trans keeps
      next afterKeepalives kept =>
      rw [kept] at keeps
      have probes : ReflTransGen (Atom env moment) afterKeepalives
            (drivePmtu env afterKeepalives moment.nowMs probeTokens) :=
        drivePmtu_atoms isAction afterKeepalives
      exact .tail ((upToHere.trans keeps).trans probes) .rescanned
  · exact resends.trans reopens

end

/-! ### Whole steps -/

theorem take_atoms
    {receipt : Receipt} (isAction : moment.action = .receive receipt) (endpoint : Endpoint ω) :
    ReflTransGen (Atom env moment) endpoint (take env endpoint receipt moment.nowMs).2 := by
  unfold take
  split
  · exact .refl
  · exact .refl
  · exact .refl
  next bytes addr random =>
  have reads : Atom env moment endpoint { endpoint with rx := bytes } :=
    .note ⟨rfl, rfl, rfl, rfl, rfl, rfl, rfl, rfl, rfl, rfl, rfl, rfl, rfl⟩
  cases decoded : Header.decode bytes with
  | error error =>
    rw [dispatch_undecoded decoded]
    exact .single reads
  | ok header =>
    let datagram : Incoming := ⟨bytes, header, addr, random, moment.nowMs, decoded⟩
    have works : ReflTransGen (FrameAtom env datagram) { endpoint with rx := bytes }
          (dispatch env endpoint bytes addr random moment.nowMs).2 :=
      dispatch_atoms endpoint datagram
    refine .head reads (works.lift id fun _ _ atom => ?_)
    exact .frame isAction rfl atom

/-- Every step of the driver is worked through atom by atom. -/
theorem Driver.next_atoms (env : Env ω) (driver : Driver ω) (moment : Moment) :
    ReflTransGen (Atom { env with walk := moment.walk } moment)
      driver.endpoint (driver.next env moment).endpoint := by
  obtain ⟨endpoint, call⟩ := driver
  obtain ⟨nowMs, walk, action⟩ := moment
  unfold Driver.next Driver.step
  dsimp only
  generalize { env with walk := walk } = env
  split
  · exact .single (.connected rfl)
  · exact .single (.disconnected rfl)
  · exact .single (.sent rfl)
  · exact sendReliable_atoms rfl
  · exact .single (.set rfl)
  · split
    · next isEvents => exact .single (.popped isEvents)
    · exact .refl
  · split
    · next keepaliveTokens probeTokens _ =>
        have drives : ReflTransGen (Atom env ⟨nowMs, walk, .timers keepaliveTokens probeTokens⟩)
              endpoint
              (driveTimers env endpoint nowMs keepaliveTokens probeTokens).2 :=
          driveTimers_atoms rfl endpoint
        split
        · next driven =>
            rw [driven] at drives
            exact drives
        · next driven =>
            rw [driven] at drives
            exact drives
        next driven =>
        rw [driven] at drives
        exact drives
    · exact .refl
  · have feeds : ReflTransGen (Atom env ⟨nowMs, walk, .queues⟩) endpoint
          (feedQueues env endpoint nowMs).2 :=
      endpoint.feedQueues_atoms
    split
    · next fed =>
        rw [fed] at feeds
        exact feeds
    next fed =>
    rw [fed] at feeds
    split
    · next isEvents => exact .tail feeds (.popped isEvents)
    · exact feeds
  · next receipt =>
      have takes : ReflTransGen (Atom env ⟨nowMs, walk, .receive receipt⟩) endpoint
            (take env endpoint receipt nowMs).2 :=
        take_atoms rfl endpoint
      split
      · next took =>
          rw [took] at takes
          exact takes
      · next took =>
          rw [took] at takes
          exact takes
      next took =>
      rw [took] at takes
      split
      · exact takes
      · exact takes
  · exact .refl

/-- A read is taken in, unless the driver is not reading. -/
theorem Driver.next_receive (env : Env ω) (driver : Driver ω) {moment : Moment} {receipt : Receipt}
    (isAction : moment.action = .receive receipt) :
    (driver.next env moment).endpoint = driver.endpoint ∨ (driver.next env moment).endpoint =
        (take { env with walk := moment.walk } driver.endpoint receipt moment.nowMs).2 := by
  obtain ⟨endpoint, call⟩ := driver
  obtain ⟨nowMs, walk, action⟩ := moment
  subst isAction
  unfold Driver.next Driver.step
  cases call with
  | reading deadline wait =>
    right
    dsimp only
    split
    · next took => rw [took]
    · next took => rw [took]
    next took =>
    rw [took]
    split
    · rfl
    · rfl
  | _ => exact Or.inl rfl

/-- What every atom of a step preserves, the step preserves. -/
theorem Driver.next_invariant
    {env : Env ω} {driver : Driver ω} {moment : Moment} (Invariant : Endpoint ω → Prop)
    (preserved : ∀ {before after},
        Invariant before →
        Atom { env with walk := moment.walk } moment before after →
        Invariant after)
    (initially : Invariant driver.endpoint) :
    Invariant (driver.next env moment).endpoint := by
  have steps := driver.next_atoms env moment
  generalize (driver.next env moment).endpoint = after at steps ⊢
  induction steps with
  | refl => exact initially
  | tail _ atom inductionHypothesis => exact preserved inductionHypothesis atom

/-- What every atom preserves holds along every run. -/
theorem Driver.run_invariant {env : Env ω} (Invariant : Endpoint ω → Prop)
    (preserved : ∀ {moment before after},
        Invariant before →
        Atom { env with walk := moment.walk } moment before after →
        Invariant after)
    {driver : Driver ω} (moments : List Moment) (initially : Invariant driver.endpoint) :
    Invariant (Execution.run (Driver.next env) driver moments).endpoint := by
  induction moments generalizing driver with
  | nil => exact initially
  | cons moment rest inductionHypothesis =>
    exact inductionHypothesis (Driver.next_invariant Invariant preserved initially)

end Endpoint

end Fectp
