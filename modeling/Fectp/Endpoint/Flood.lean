import Fectp.Endpoint.Forgery

namespace Fectp

/-!
# A flood of handshakes

Anyone may open a session, and a full table drops one for each.  Those that
have never spoken go first, and a session just opened has not, so a flood costs
at most one of those that have.
-/

namespace Endpoint

variable {ω : Type*}

open Relation (ReflTransGen)

/-- A session on file that something authenticated has arrived on. -/
def Spoken (endpoint : Endpoint ω) (peerId : PeerId) : Prop :=
  (endpoint.peers.lookup peerId).map PeerEntry.spoke = some true

/-- There is a place in the table, or one that costs no speaker. -/
def Roomy (endpoint : Endpoint ω) : Prop :=
  endpoint.peers.keys.length < endpoint.maxPeers ∨
    ∃ peerId, (endpoint.peers.lookup peerId).map PeerEntry.spoke = some false

/--
What a flood that started at one state has come to: nobody has begun to speak,
and at most one speaker is gone, which leaves one who is not.
-/
structure Flooded (start current : Endpoint ω) : Prop where
  consistent : current.registry.Consistent
  maxPeers : current.maxPeers = start.maxPeers
  peerTimeout : current.peerTimeout = none
  unstarted : ∀ peerId, current.outbound.lookup peerId = none
  spared : ((∀ peerId, start.Spoken peerId → current.Spoken peerId) ∧
        (start.Roomy → current.Roomy)) ∨
      ¬ start.Roomy ∧
        current.Roomy ∧
        ∃ lost,
          ∀ peerId,
            start.Spoken peerId →
            peerId ≠ lost →
            current.Spoken peerId

/-- A change of the endpoint that does not show here. -/
structure SameStanding (before after : Endpoint ω) : Prop where
  maxPeers : after.maxPeers = before.maxPeers
  peerTimeout : after.peerTimeout = before.peerTimeout
  outbound : after.outbound = before.outbound
  spoke : ∀ peerId,
      (after.peers.lookup peerId).map PeerEntry.spoke =
        (before.peers.lookup peerId).map PeerEntry.spoke

variable {before after start endpoint : Endpoint ω} {env : Env ω}
  {nowMs : Nat} {peerId : PeerId} {addr : SocketAddr}

theorem SameStanding.roomy (same : before.SameStanding after) (roomy : before.Roomy) :
    after.Roomy := by
  have sameLength : after.peers.keys.length = before.peers.keys.length := by
    apply Table.keys_length_of_lookup
    intro peerId
    have standing := congrArg Option.isSome (same.spoke peerId)
    rwa [Option.isSome_map, Option.isSome_map] at standing
  unfold Roomy
  rw [sameLength, same.maxPeers]
  refine roomy.imp_right ?_
  rintro ⟨peerId, unspoken⟩
  exact ⟨peerId, (same.spoke peerId).trans unspoken⟩

theorem Flooded.same (flooded : Flooded start before) (same : before.SameStanding after)
    (consistent : after.registry.Consistent) :
    Flooded start after where
  consistent := consistent
  maxPeers := same.maxPeers.trans flooded.maxPeers
  peerTimeout := same.peerTimeout.trans flooded.peerTimeout
  unstarted := by
    intro peerId
    rw [same.outbound]
    exact flooded.unstarted peerId
  spared := by
    have stays : ∀ peerId, before.Spoken peerId → after.Spoken peerId :=
      fun peerId spoken => (same.spoke peerId).trans spoken
    rcases flooded.spared with ⟨kept, roomy⟩ | ⟨full, roomy, lost, kept⟩
    · exact Or.inl ⟨fun peerId spoken => stays peerId (kept peerId spoken),
        fun startRoomy => same.roomy (roomy startRoomy)⟩
    · exact Or.inr ⟨full, same.roomy roomy, lost,
        fun peerId spoken isOther =>
          stays peerId (kept peerId spoken isOther)⟩

theorem SameTables.standing (same : before.SameTables after) :
    before.SameStanding after where
  maxPeers := same.maxPeers
  peerTimeout := same.peerTimeout
  outbound := same.outbound
  spoke := fun _ => by rw [same.peers]

theorem Visited.standing
    {Effect : PeerEntry × ω → PeerEntry × ω → Prop} (visited : Visited Effect peerId before after)
    (keeps : ∀ {held now},
        Effect (held, before.socket) (now, after.socket) →
        now.spoke = held.spoke) :
    before.SameStanding after where
  maxPeers := congrArg (·.2.2.1) visited.outside
  peerTimeout := congrArg (·.2.2.2.1) visited.outside
  outbound := visited.outbound
  spoke := visited.map_lookup keeps

theorem Served.standing (served : Served env nowMs peerId before after) :
    before.SameStanding after :=
  Visited.standing served fun takes => takes.1.spoke

theorem Untouched.standing {spent : List PeerId} (untouched : before.Untouched spent after) :
    before.SameStanding after where
  maxPeers := by rw [untouched.rest]
  peerTimeout := by rw [untouched.rest]
  outbound := by rw [untouched.rest]
  spoke := by
    intro id
    rcases untouched.peers id with same | ⟨_, entry, _, _, found, after⟩
    · rw [same]
    · rw [found, after]
      rfl

theorem Untouched.registry {spent : List PeerId} (untouched : before.Untouched spent after) :
    after.registry = before.registry := by
  have samePlaces : (fun id => (after.peers.lookup id).map PeerEntry.place) =
        fun id => (before.peers.lookup id).map PeerEntry.place := by
    funext id
    rcases untouched.peers id with same | ⟨_, entry, _, _, found, after⟩
    · rw [same]
    · rw [found, after]
      rfl
  unfold Endpoint.registry
  rw [samePlaces, untouched.rest]

theorem repeatHandshake_standing (env : Env ω) (endpoint : Endpoint ω) (addr : SocketAddr)
    (sessionId : BitVec 32) (nowMs : Nat) :
    endpoint.SameStanding (repeatHandshake env endpoint addr sessionId nowMs).2 := by
  cases routed : endpoint.routes.lookup (addr, sessionId) with
  | none =>
    rw [repeatHandshake_unrouted env routed]
    exact ⟨rfl, rfl, rfl, fun _ => rfl⟩
  | some repeatedId =>
    refine (repeatHandshake_visited env routed nowMs).standing ?_
    intro held now repeats
    generalize (repeatHandshake ..).2.socket = socket at repeats
    cases repeats <;> rfl

/-! ### Filing -/

/-- How everyone stands once a session is filed in a vacant place. -/
theorem file_spoke {link : Session} {reply : Bytes}
    (vacant : (makeRoom env endpoint).routes.lookup (addr, link.sessionId) = none)
    (other : PeerId) :
    (((file env endpoint peerId link addr nowMs).remembered peerId
        reply).peers.lookup other).map PeerEntry.spoke =
      if other = peerId then some false
      else ((makeRoom env endpoint).peers.lookup other).map
        PeerEntry.spoke := by
  obtain ⟨peers, routes, bySession, nextWake, files, which⟩ :=
    file_eq env endpoint peerId link addr nowMs
  have isPeers : peers = (makeRoom env endpoint).peers := by
    rcases which with ⟨_, isPeers⟩ | ⟨previous, taken, _⟩
    · exact isPeers
    · rw [vacant] at taken
      cases taken
  rw [files, remembered, Table.lookup_update]
  split
  · next isPeer =>
      rw [AList.lookup_insert]
      rfl
  · next isOther => rw [AList.lookup_insert_ne isOther, isPeers]

theorem makeRoom_vacant
    {place : SocketAddr × BitVec 32} (vacant : endpoint.routes.lookup place = none) :
    (makeRoom env endpoint).routes.lookup place = none := by
  rcases makeRoom_cases env endpoint with
    same | ⟨_, _, entry, _, _, removes⟩
  · rw [same]
    exact vacant
  rw [removes]
  by_cases isPlace : place = entry.place
  · rw [isPlace, AList.lookup_erase]
  · rw [AList.lookup_erase_ne isPlace]
    exact vacant

/-- Whom making room costs: nobody, one who never spoke, or a speaker. -/
theorem makeRoom_spares (env : Env ω) (endpoint : Endpoint ω) :
    (∀ peerId, endpoint.Spoken peerId →
        ((makeRoom env endpoint).peers.lookup peerId).map PeerEntry.spoke = some true) ∨
      ¬ endpoint.Roomy ∧ ∃ lost, ∀ peerId, endpoint.Spoken peerId → peerId ≠ lost →
            ((makeRoom env endpoint).peers.lookup peerId).map PeerEntry.spoke = some true := by
  rcases makeRoom_cases env endpoint with
    same | ⟨full, chosen, entry, _, isVictim, removes⟩
  · rw [same]
    exact Or.inl fun _ spoken => spoken
  have stays : ∀ peerId,
        endpoint.Spoken peerId →
        peerId ≠ chosen →
        ((makeRoom env endpoint).peers.lookup peerId).map PeerEntry.spoke = some true := by
    intro peerId spoken isOther
    rw [removes]
    rw [AList.lookup_erase_ne isOther]
    exact spoken
  obtain ⟨found, leads⟩ := victim_some isVictim
  cases hasSpoken : entry.spoke with
  | false =>
    refine Or.inl fun peerId spoken => stays peerId spoken ?_
    rintro rfl
    rw [Spoken, found, Option.map_some, hasSpoken] at spoken
    cases spoken
  | true =>
    refine Or.inr ⟨?_, chosen, stays⟩
    rintro (room | ⟨peerId, unspoken⟩)
    · exact full room
    · obtain ⟨held, foundHeld, isUnspoken⟩ :=
        Option.map_eq_some_iff.mp unspoken
      have leading := leads peerId held foundHeld
      rw [PeerEntry.rank, PeerEntry.rank, hasSpoken, isUnspoken,
        Prod.Lex.toLex_le_toLex] at leading
      simp at leading
      exact absurd leading (by decide)

/-- One more session, which has not spoken, costs a speaker at most once. -/
theorem Flooded.files {link : Session} {reply : Bytes} (flooded : Flooded start before)
    (vacant : before.routes.lookup (addr, link.sessionId) = none)
    (fresh : before.peers.lookup peerId = none)
    (isAfter : after = (file env before peerId link addr nowMs).remembered peerId reply)
    (consistent : after.registry.Consistent) :
    Flooded start after := by
  have standing : ∀ other, (after.peers.lookup other).map PeerEntry.spoke =
          if other = peerId then some false
          else ((makeRoom env before).peers.lookup other).map
            PeerEntry.spoke := by
    rw [isAfter]
    exact file_spoke (makeRoom_vacant vacant)
  have stays : ∀ other, before.Spoken other →
        ((makeRoom env before).peers.lookup other).map PeerEntry.spoke = some true →
        after.Spoken other := by
    intro other spoken kept
    have isOther : other ≠ peerId := by
      rintro rfl
      rw [Spoken, fresh] at spoken
      cases spoken
    rw [Spoken, standing, if_neg isOther]
    exact kept
  have roomy : after.Roomy := Or.inr ⟨peerId, by rw [standing, if_pos rfl]⟩
  obtain ⟨peers, routes, bySession, nextWake, files, _⟩ := file_eq env before peerId link addr nowMs
  rw [files] at isAfter
  refine ⟨consistent, ?_, ?_, ?_, ?_⟩
  · rw [isAfter]
    exact flooded.maxPeers
  · rw [isAfter]
    exact flooded.peerTimeout
  · rw [isAfter]
    exact flooded.unstarted
  · rcases flooded.spared with ⟨kept, wasRoomy⟩ | ⟨full, wasRoomy, lost, kept⟩
    · rcases makeRoom_spares env before with spares | ⟨tight, lost, spares⟩
      · refine Or.inl ⟨fun other spoken => ?_, fun _ => roomy⟩
        exact stays other (kept other spoken) (spares other (kept other spoken))
      · refine Or.inr ⟨fun startRoomy => tight (wasRoomy startRoomy), roomy,
          lost, fun other spoken isOther => ?_⟩
        exact stays other (kept other spoken) (spares other (kept other spoken) isOther)
    · rcases makeRoom_spares env before with spares | ⟨tight, _⟩
      · refine Or.inr ⟨full, roomy, lost, fun other spoken isOther => ?_⟩
        exact stays other (kept other spoken isOther) (spares other (kept other spoken isOther))
      · exact absurd wasRoomy tight

/-! ### Every step of a flood -/

/-- An opening frame is answered, or repeated, or ignored. -/
theorem Flooded.opening {datagram : Incoming} (flooded : Flooded start before)
    (atom : OpeningAtom env datagram before after) :
    Flooded start after := by
  have consistent : after.registry.Consistent :=
    flooded.consistent.moves (atom.moves flooded.consistent)
  cases atom with
  | note same => exact flooded.same same.standing consistent
  | repeated => exact flooded.same (repeatHandshake_standing env before _ _ _) consistent
  | @filed resumed responded unknown identified =>
    rcases answer_cases env before datagram.addr resumed responded datagram.nowMs with
      ⟨same, _⟩ | ⟨link, zeroRtt, reply, socket, isResponse, ⟨_, _, same⟩ | ⟨_, same⟩⟩
    · rw [same]
      exact flooded
    · rw [same] at consistent ⊢
      exact flooded.same ⟨rfl, rfl, rfl, fun _ => rfl⟩ consistent
    have vacant : before.routes.lookup (datagram.addr, link.sessionId) = none := by
      rw [identified isResponse]
      by_contra taken
      obtain ⟨previous, routed⟩ := Option.ne_none_iff_exists'.mp taken
      have placed := (flooded.consistent.routed _ _).mp routed
      obtain ⟨entry, found, _⟩ := registry_place_iff.mp placed
      rw [unknown previous routed] at found
      cases found
    have fresh : before.peers.lookup before.nextId = none :=
      Option.map_eq_none_iff.mp (flooded.consistent.unissued (Nat.le_refl _)).1
    have grown : Flooded start (issued env before link socket datagram.nowMs) := by
      refine flooded.same ⟨rfl, rfl, rfl, fun _ => rfl⟩ ?_
      exact flooded.consistent.handles flooded.consistent.apart (fun handle isPending =>
          Nat.lt_succ_of_lt (flooded.consistent.issued handle (Or.inl isPending)))
        (Nat.le_succ _)
    exact grown.files vacant fresh same consistent

/--
No connection is started or closed, no setting changed, and no datagram opens on
a session it is tried against.
-/
def quiet (env : Env ω) (driver : Driver ω) (moment : Moment) : Bool :=
  match moment.action with
  | .connect _ _ _ _ _ | .disconnect _ | .set _ =>
      false
  | .receive (.datagram bytes addr random) =>
      match Header.decode bytes with
      | .error _ =>
          true
      | .ok header =>
          !Session.carriesTransport header.frameType ||
            decide
              (Unopened env
                (attempts env { driver.endpoint with rx := bytes } addr
                  header.sessionId random moment.nowMs))
  | _ =>
      true

/-- How a table is walked plays no part in what a frame is tried against. -/
theorem attempts_walk (env : Env ω) (walk : Walk) (endpoint : Endpoint ω) (addr : SocketAddr)
    (sessionId : BitVec 32) (random : Bytes) (nowMs : Nat) :
    attempts { env with walk := walk } endpoint addr sessionId random nowMs =
      attempts env endpoint addr sessionId random nowMs := by
  have same : ∀ left position (endpoint : Endpoint ω),
        candidates { env with walk := walk } addr sessionId random nowMs
            left position endpoint =
          candidates env addr sessionId random nowMs left position
            endpoint := by
    intro left
    induction left with
    | zero =>
      intro position endpoint
      rfl
    | succ left inductionHypothesis =>
      intro position endpoint
      simp only [candidates, inductionHypothesis]
      rfl
  unfold attempts offers
  rw [same]

theorem Flooded.dispatch {bytes : Bytes} {random : Bytes} (flooded : Flooded start before)
    (unopened : ∀ header, Header.decode bytes = .ok header →
        Session.carriesTransport header.frameType = true →
        Unopened env
          (attempts env { before with rx := bytes } addr header.sessionId random nowMs)) :
    Flooded start (Endpoint.dispatch env before bytes addr random nowMs).2 := by
  have reads : Flooded start { before with rx := bytes } :=
    flooded.same ⟨rfl, rfl, rfl, fun _ => rfl⟩ flooded.consistent
  cases decoded : Header.decode bytes with
  | error error =>
    rw [dispatch_undecoded decoded]
    exact reads
  | ok header =>
    let datagram : Incoming := ⟨bytes, header, addr, random, nowMs, decoded⟩
    have atoms : ReflTransGen (OpeningAtom env datagram) { before with rx := bytes }
          (acceptHandshake env { before with rx := bytes } header addr random nowMs).2 :=
      acceptHandshake_atoms rfl
    rcases dispatch_cases env before datagram with
      same | ⟨_, same⟩ | ⟨_, same⟩ | ⟨transport, same⟩
    · rw [same]
      exact reads
    · rw [same]
      generalize (acceptHandshake env { before with rx := bytes } header addr
          random nowMs).2 = after at atoms ⊢
      induction atoms with
      | refl => exact reads
      | tail _ atom inductionHypothesis => exact inductionHypothesis.opening atom
    · rw [same]
      rcases completeOutbound_cases env { before with rx := bytes } addr
          header.sessionId nowMs with
        unchanged | ⟨peerId, outbound, _, started, _⟩
      · rw [unchanged]
        exact reads
      · rw [flooded.unstarted peerId] at started
        cases started
    · obtain ⟨_, untouched⟩ : (route env { before with rx := bytes } addr header.sessionId
              random nowMs).1 = .ok none ∧ _ :=
        route_unopened (unopened header decoded transport)
      rw [same]
      refine reads.same untouched.standing ?_
      rw [untouched.registry]
      exact reads.consistent

theorem Flooded.step {driver : Driver ω} {moment : Moment} (flooded : Flooded start driver.endpoint)
    (isQuiet : quiet env driver moment = true) :
    Flooded start (driver.next env moment).endpoint := by
  by_cases receives : ∃ receipt, moment.action = .receive receipt
  · obtain ⟨receipt, isAction⟩ := receives
    rcases driver.next_receive env isAction with same | same
    · rw [same]
      exact flooded
    rw [same]
    cases receipt with
    | datagram bytes addr random =>
      refine flooded.dispatch fun header decoded transport => ?_
      unfold quiet at isQuiet
      rw [isAction] at isQuiet
      dsimp only at isQuiet
      rw [decoded] at isQuiet
      dsimp only at isQuiet
      rw [transport, Bool.not_true, Bool.false_or, decide_eq_true_eq] at isQuiet
      rw [attempts_walk]
      exact isQuiet
    | _ => exact flooded
  · refine Driver.next_invariant (Flooded start) ?_ flooded
    intro before after flooded atom
    have consistent : after.registry.Consistent :=
      flooded.consistent.moves (atom.moves flooded.consistent)
    have calm : ∀ {action},
          moment.action = action →
          quiet env driver ⟨moment.nowMs, moment.walk, action⟩ = true := by
      rintro action rfl
      exact isQuiet
    cases atom with
    | note same => exact flooded.same same.standing consistent
    | popped => exact flooded.same ⟨rfl, rfl, rfl, fun _ => rfl⟩ consistent
    | rescanned => exact flooded.same ⟨rfl, rfl, rfl, fun _ => rfl⟩ consistent
    | frame isAction => exact absurd ⟨_, isAction⟩ receives
    | connected isAction => exact absurd (calm isAction) Bool.false_ne_true
    | disconnected isAction => exact absurd (calm isAction) Bool.false_ne_true
    | set isAction => exact absurd (calm isAction) Bool.false_ne_true
    | sent => exact flooded.same (send_served _ _ before).standing consistent
    | sentOne _ found => exact flooded.same (sendOneReliable_served found _ _).standing consistent
    | queued _ found =>
      exact flooded.same (queued_served env moment.nowMs found _ _).standing consistent
    | fed => exact flooded.same (driveQueueOf_served before).standing consistent
    | resent => exact flooded.same (driveRetransmitsOf_served before).standing consistent
    | @reopened peerId =>
      rw [resendOpening, flooded.unstarted peerId]
      exact flooded
    | lost isLimit =>
      rw [flooded.peerTimeout] at isLimit
      cases isLimit
    | keptAlive => exact flooded.same (keepAliveOf_served _ before).standing consistent
    | probed => exact flooded.same (drivePmtuOf_served _ before).standing consistent

theorem Flooded.run
    {driver : Driver ω} {moments : List Moment} (flooded : Flooded start driver.endpoint)
    (isQuiet : Execution.Admits (Driver.next env)
        (fun driver moment => quiet env driver moment = true) driver
        moments) :
    Flooded start (Execution.run (Driver.next env) driver moments).endpoint := by
  induction moments generalizing driver with
  | nil => exact flooded
  | cons moment rest inductionHypothesis =>
    exact inductionHypothesis (flooded.step isQuiet.1) isQuiet.2

/-! ### Repeats -/

/-- Sessions, routes and tickets are as they were. -/
structure SameButHeldReplies (before after : Endpoint ω) : Prop where
  routes : after.routes = before.routes
  bySession : after.bySession = before.bySession
  tickets : after.tickets = before.tickets
  /-- How often an answer may still go out is all that shows. -/
  peers : ∀ peerId,
      after.peers.lookup peerId = before.peers.lookup peerId ∨
        ∃ entry held,
          before.peers.lookup peerId = some entry ∧
            after.peers.lookup peerId =
              some { entry with handshakeReply := held }

theorem repeatHandshake_held (env : Env ω) (endpoint : Endpoint ω) (addr : SocketAddr)
    (sessionId : BitVec 32) (nowMs : Nat) :
    endpoint.SameButHeldReplies (repeatHandshake env endpoint addr sessionId nowMs).2 := by
  unfold repeatHandshake
  split
  · exact ⟨rfl, rfl, rfl, fun _ => Or.inl rfl⟩
  next peerId entry onFile =>
  split
  · exact ⟨rfl, rfl, rfl, fun _ => Or.inl rfl⟩
  split
  · exact ⟨rfl, rfl, rfl, fun _ => Or.inl rfl⟩
  · refine ⟨rfl, rfl, rfl, fun id => ?_⟩
    rw [Table.lookup_update]
    split
    · next isPeer =>
        cases found : endpoint.peers.lookup peerId with
        | none => exact Or.inl (by rw [isPeer, found, Option.map_none])
        | some held => exact Or.inr ⟨held, _, by rw [isPeer, found], rfl⟩
    · exact Or.inl rfl

/-- An opening frame for a session on file changes no session. -/
theorem dispatch_repeat (env : Env ω) {datagram : Incoming} {entry : PeerEntry}
    (consistent : endpoint.registry.Consistent) (opens : datagram.Opens)
    (found : endpoint.peers.lookup peerId = some entry)
    (onFile : entry.place = (datagram.addr, datagram.header.sessionId)) :
    endpoint.SameButHeldReplies (Endpoint.dispatch env endpoint datagram.bytes datagram.addr
        datagram.random datagram.nowMs).2 := by
  have repeats :=
    repeatHandshake_held env { endpoint with rx := datagram.bytes }
      datagram.addr datagram.header.sessionId datagram.nowMs
  rcases dispatch_cases env endpoint datagram with
    same | ⟨_, same⟩ | ⟨closes, _⟩ | ⟨transport, _⟩
  · rw [same]
    exact ⟨rfl, rfl, rfl, fun _ => Or.inl rfl⟩
  · rw [same]
    have isRepeat : (acceptHandshake env { endpoint with rx := datagram.bytes }
            datagram.header datagram.addr datagram.random
            datagram.nowMs).2 =
          (repeatHandshake env { endpoint with rx := datagram.bytes }
            datagram.addr datagram.header.sessionId datagram.nowMs).2 := by
      unfold acceptHandshake
      split
      · next repeated => rw [repeated]
      · next repeated => rw [repeated]
      next repeated =>
      have routed : endpoint.routes.lookup (datagram.addr, datagram.header.sessionId) =
            some peerId := by
        refine (consistent.routed _ _).mpr ?_
        rw [registry_place found, onFile]
      have unknown := (repeatHandshake_false repeated).2 peerId routed
      rw [found] at unknown
      cases unknown
    rw [isRepeat]
    exact ⟨repeats.routes, repeats.bySession, repeats.tickets, repeats.peers⟩
  · rcases opens with isType | isType <;> rcases closes with isOther | isOther
    all_goals
      rw [isType] at isOther
      cases isOther
  · rcases opens with isType | isType
    all_goals
      rw [isType] at transport
      cases transport

/--
A flood of handshakes costs at most one session that has spoken, and none if
there was room or one that had not; an opening frame from where a session is
already on file costs nothing.
-/
theorem flood_spares_speakers
    (env : Env ω)
    {start final : Driver ω}
    {moments : List Moment}
    (reachable : start.Reachable env)
    (noTimeout : start.endpoint.peerTimeout = none)
    (unstarted : ∀ peerId, start.endpoint.outbound.lookup peerId = none)
    (isQuiet :
      Execution.Admits (Driver.next env)
        (fun driver moment => quiet env driver moment = true) start moments)
    (isFinal : final = Execution.run (Driver.next env) start moments) :
    (∀ first second,
        start.endpoint.Spoken first →
        final.endpoint.peers.lookup first = none →
        start.endpoint.Spoken second →
        final.endpoint.peers.lookup second = none →
        first = second) ∧
      (start.endpoint.Roomy →
        ∀ peerId,
          start.endpoint.Spoken peerId →
          final.endpoint.peers.lookup peerId ≠ none) ∧
      ∀ (datagram : Incoming) (peerId : PeerId) (entry : PeerEntry),
        datagram.Opens →
        final.endpoint.peers.lookup peerId = some entry →
        entry.addr = datagram.addr →
        entry.sessionId = datagram.header.sessionId →
        final.endpoint.SameButHeldReplies
          (dispatch env final.endpoint datagram.bytes datagram.addr
            datagram.random datagram.nowMs).2 := by
  subst isFinal
  have initially : Flooded start.endpoint start.endpoint :=
    ⟨reachable.consistent, rfl, noTimeout, unstarted,
      Or.inl ⟨fun _ spoken => spoken, id⟩⟩
  have flooded := initially.run isQuiet
  generalize Execution.run (Driver.next env) start moments = final at flooded ⊢
  have present : ∀ {peerId},
        final.endpoint.Spoken peerId →
        final.endpoint.peers.lookup peerId ≠ none := by
    intro peerId spoken absent
    rw [Spoken, absent] at spoken
    cases spoken
  refine ⟨?_, ?_, ?_⟩
  · intro first second spokeFirst goneFirst spokeSecond goneSecond
    rcases flooded.spared with ⟨kept, _⟩ | ⟨_, _, lost, kept⟩
    · exact absurd goneFirst (present (kept first spokeFirst))
    have isFirst : first = lost := by
      by_contra isOther
      exact present (kept first spokeFirst isOther) goneFirst
    have isSecond : second = lost := by
      by_contra isOther
      exact present (kept second spokeSecond isOther) goneSecond
    exact isFirst.trans isSecond.symm
  · intro roomy peerId spoken
    rcases flooded.spared with ⟨kept, _⟩ | ⟨full, _⟩
    · exact present (kept peerId spoken)
    · exact absurd roomy full
  · intro datagram peerId entry opens found isAddr isSession
    refine dispatch_repeat env flooded.consistent opens found ?_
    rw [PeerEntry.place, isAddr, isSession]

/-- A server with room for two, one of whom has spoken. -/
def smallSpeaker : List Moment :=
  smallMoment 0 (.set (.maxPeers 2)) ::
    smallPass 1 (smallOpening .handshakeInit 5 [7]) (host 1) [] ++
    smallPass 2 (smallWord 5 [7]) (host 1) []

/-- Three strangers, and one of them again. -/
def smallFlood : List Moment :=
  smallPass 3 (smallOpening .handshakeInit 6 [8]) (host 2) [] ++
    smallPass 4 (smallOpening .handshakeInit 6 [9]) (host 3) [] ++
    smallPass 5 (smallOpening .handshakeInit 6 [9]) (host 3) [] ++
    smallPass 6 (smallOpening .handshakeInit 8 []) (host 4) []

def smallFull : Driver Unit :=
  Execution.run (Driver.next smallEnv)
    (Driver.new (Endpoint.new smallEnv (.publicKey []) ())) smallSpeaker

def smallFlooded : Driver Unit :=
  Execution.run (Driver.next smallEnv) smallFull smallFlood

theorem flood_spares_speakers_of_small_flood :
    smallFull.endpoint.Spoken 0 ∧
      smallFlooded.endpoint.peers.lookup 0 ≠ none ∧
      smallFlooded.endpoint.peers.keys = [3, 0] := by
  have noneStarted : smallFull.endpoint.outbound.keys = [] := by
    decide +kernel
  have unstarted :
      ∀ peerId, smallFull.endpoint.outbound.lookup peerId = none := by
    intro peerId
    refine AList.lookup_eq_none.mpr ?_
    change peerId ∉ smallFull.endpoint.outbound.keys
    exact List.not_mem_nil
  have spoken : smallFull.endpoint.Spoken 0 := by
    unfold Spoken
    decide +kernel
  have roomy : smallFull.endpoint.Roomy := Or.inl (by decide +kernel)
  have spares :=
    @flood_spares_speakers _ smallEnv smallFull smallFlooded smallFlood
      ⟨.publicKey [], (), smallSpeaker, rfl⟩ (by decide +kernel) unstarted
      (by decide +kernel) rfl
  exact ⟨spoken, spares.2.1 roomy 0 spoken, by decide +kernel⟩

end Endpoint

end Fectp
