import Fectp.Endpoint.Turns

namespace Fectp

/-!
# Every step as turns of one handle

The frames that reach a session from an address it is not filed under are
listed as they are offered, so that a condition on a run can speak of them.
With that, every step of the driver is a run of turns for each handle.
-/

open Relation (ReflTransGen)

variable {ω : Type*}

namespace Endpoint

variable {env : Env ω} {moment : Moment} {start : View}
  {Offered : View → Ingested → Prop}

/-! ### Frames of sessions -/

variable {entry : PeerEntry} {endpoint : Endpoint (ω × Journal)}
  {datagram : Incoming} {receipt : Receipt} {driver : Driver (ω × Journal)}

theorem heard_view (endpoint : Endpoint (ω × Journal)) {heardId : PeerId}
    (found : endpoint.peers.lookup heardId = some entry) (peer : Peer)
    (buffer : Bytes) (nowMs : Nat) (peerId : PeerId) :
    (endpoint.heard heardId entry peer buffer nowMs).view peerId = { endpoint.view peerId with
        entry :=
          if peerId = heardId then some (entry.hearing peer nowMs)
          else (endpoint.view peerId).entry } := by
  have hears := heard_visited found peer buffer nowMs
  have isSocket : (endpoint.heard heardId entry peer buffer nowMs).socket =
        endpoint.socket := by
    unfold heard
    dsimp only
    split <;> rfl
  have isEntry : (endpoint.heard heardId entry peer buffer nowMs).peers.lookup peerId =
        if peerId = heardId then some (entry.hearing peer nowMs)
        else endpoint.peers.lookup peerId := by
    split
    · next isHeard =>
        rw [isHeard, lookup_heard]
        rfl
    · next isOther => exact hears.others peerId isOther
  unfold view
  rw [isEntry, isSocket, hears.outbound, hears.nextId, hears.size]

/-- A session heard from has spoken, and serving it is nothing to hide. -/
theorem Served.spoken_turns {before after : Endpoint (ω × Journal)} {servedId : PeerId}
    (served : Served env.recorded moment.nowMs servedId before after)
    (found : before.peers.lookup servedId = some entry)
    (spoke : entry.spoke = true) (peerId : PeerId) :
    Turns env moment start Offered peerId before after := by
  refine served.turns ?_ peerId
  intro held now isHeld _ silent
  rw [found] at isHeld
  cases isHeld
  rw [spoke] at silent
  cases silent

/-- A session a frame was tried on, without an outcome. -/
theorem tried_turns {triedId : PeerId} {result : Except Error Ingested} {reply buffer : Bytes}
    {peer : Peer} (found : endpoint.peers.lookup triedId = some entry)
    (ingests : entry.peer.ingest env.suite endpoint.rx moment.nowMs endpoint.size =
        (result, reply, buffer, peer))
    (peerId : PeerId) :
    Turns env moment start Offered peerId endpoint
      (endpoint.ingested triedId entry peer buffer) := by
  have served : Served env.recorded moment.nowMs triedId endpoint
        (endpoint.ingested triedId entry peer buffer) :=
    ingested_served found ingests
  refine served.turns ?_ peerId
  intro held now isHeld isNow _ idle _
  rw [found] at isHeld
  cases isHeld
  have stays := Peer.ingest_idle env.suite idle endpoint.rx moment.nowMs endpoint.size
  rw [ingests] at stays
  rw [show now = _ from Option.some.inj (isNow.symm.trans (AList.lookup_insert _))]
  exact ⟨stays, rfl⟩

section Frames

variable {endpoint : Endpoint (ω × Journal)} {datagram : Incoming}

variable {heardId : PeerId} {entry : PeerEntry}

theorem settleEstablished_turns
    (consistent : endpoint.registry.Consistent) (routed : datagram.Routed endpoint heardId)
    (found : endpoint.peers.lookup heardId = some entry)
    (spoke : entry.spoke = true) (ingested : Ingested) (reply : Bytes) (peerId : PeerId) :
    Turns env moment start Offered peerId endpoint
      (settleEstablished env.recorded endpoint heardId datagram.addr ingested
        reply moment.nowMs).2 := by
  obtain ⟨isAddr, _⟩ := place_of_routed consistent routed found
  have sends : Served env.recorded moment.nowMs heardId endpoint
        (sendToPeer env.recorded endpoint heardId reply datagram.addr moment.nowMs).2 :=
    sendToPeer_served found isAddr reply
  have replies : ∃ now, (if reply.isEmpty then ((.ok (), endpoint) : Except Error Unit × _) else
              sendToPeer env.recorded endpoint heardId reply datagram.addr
                moment.nowMs).2.peers.lookup heardId = some now ∧
          now.spoke = true ∧
          Turns env moment start Offered peerId endpoint (if reply.isEmpty then
                ((.ok (), endpoint) : Except Error Unit × _)
              else
                sendToPeer env.recorded endpoint heardId reply datagram.addr moment.nowMs).2 := by
    split
    · exact ⟨entry, found, spoke, .refl⟩
    · obtain ⟨now, foundNow, alike, _⟩ := sends.found found
      refine ⟨now, foundNow, alike.spoke.trans spoke, ?_⟩
      exact sends.spoken_turns found spoke peerId
  obtain ⟨now, foundNow, spokeNow, turns⟩ := replies
  unfold settleEstablished
  generalize (if reply.isEmpty then ((.ok (), endpoint) : Except Error Unit × _) else
        sendToPeer env.recorded endpoint heardId reply datagram.addr
          moment.nowMs) = replied at foundNow turns ⊢
  obtain ⟨error | _, after⟩ := replied
  · exact turns
  dsimp only
  split
  · next token =>
      refine turns.trans ?_
      have answers : Served env.recorded moment.nowMs heardId after
            (after.answered heardId token moment.nowMs) :=
        answered_served env.recorded token after
      exact answers.spoken_turns foundNow spokeNow peerId
  · exact turns

/-- A frame from the address on file. -/
theorem deliver_established_turns
    (consistent : endpoint.registry.Consistent) (carries : moment.Carries)
    {routedId : PeerId} (routed : datagram.Routed endpoint routedId)
    (random : Bytes) (peerId : PeerId) :
    Turns env moment start Offered peerId endpoint
      (deliver env.recorded endpoint routedId datagram.addr true random moment.nowMs).2 := by
  unfold deliver
  split
  · exact .refl
  next entry found =>
  split
  · next ingests => exact tried_turns found ingests peerId
  · next ingests => exact tried_turns found ingests peerId
  next ingested reply buffer peer accepted ingests =>
  have later := entry.peer.ingest_later env.suite endpoint.rx moment.nowMs endpoint.size
  rw [show entry.peer.ingest env.suite endpoint.rx moment.nowMs
    endpoint.size = _ from ingests] at later
  have hears : Turns env moment start Offered peerId endpoint
        (endpoint.heard routedId entry peer buffer moment.nowMs) := by
    rw [Turns, heard_view endpoint found]
    split
    · next isHeard => exact .single (.heard carries (isHeard ▸ found) later)
    · exact .refl
  have sameRegistry := heard_registry endpoint routedId moment.nowMs found peer buffer
  have isRouted : datagram.Routed
        (endpoint.heard routedId entry peer buffer moment.nowMs)
        routedId := by
    unfold Incoming.Routed
    rw [(heard_tables ..).1]
    exact routed
  refine hears.trans ?_
  exact settleEstablished_turns (sameRegistry ▸ consistent) isRouted
    (lookup_heard ..) rfl ingested reply peerId

/-- A session on the shortlist is filed somewhere else. -/
theorem addr_of_shortlisted (consistent : endpoint.registry.Consistent) {listedId : PeerId}
    (shortlisted : datagram.Shortlisted endpoint listedId)
    (found : endpoint.peers.lookup listedId = some entry) :
    entry.addr ≠ datagram.addr := by
  intro isAddr
  have isSession := sessionId_of_shortlisted consistent shortlisted found
  have isRouted := (consistent.routed entry.place listedId).mpr (registry_place found)
  unfold PeerEntry.place at isRouted
  rw [isAddr, isSession] at isRouted
  have unrouted := shortlisted.1
  rw [show endpoint.routes.lookup _ = _ from isRouted] at unrouted
  cases unrouted

/-- What a challenge writes in the journal. -/
theorem Challenges.journal {challengedId : PeerId} {addr : SocketAddr} {random : Bytes}
    {nowMs size : Nat} {before after : PeerEntry × ω × Journal}
    (challenges : Challenges env.recorded challengedId addr random nowMs size before after) :
    ∃ items, after.2.2 = before.2.2 ++ items ∧ ∀ item ∈ items, item.1.peer = challengedId := by
  cases challenges with
  | spared => exact ⟨[], (List.append_nil _).symm, nofun⟩
  | failed => exact ⟨[], (List.append_nil _).symm, nofun⟩
  | sent =>
    refine ⟨_, env.recorded_sendTo _ _, ?_⟩
    simp

section

variable (consistent : endpoint.registry.Consistent) (carries : moment.Carries)
    (isAction : moment.action = .receive (.datagram datagram.bytes datagram.addr
    datagram.random))

include consistent carries isAction

/-- The address a frame came from is challenged. -/
theorem challenged_turns (shortlisted : datagram.Shortlisted endpoint heardId)
    (found : endpoint.peers.lookup heardId = some entry) {peer : Peer}
    (later : Session.Later env.suite.aead entry.peer.session peer.session)
    (buffer : Bytes) {ingested : Ingested}
    (unvalidated : ∀ token, ingested ≠ .pathValidated token) (peerId : PeerId)
    (offered : peerId = heardId → Offered (endpoint.view heardId) ingested) :
    Turns env moment start Offered peerId endpoint (startProbe env.recorded
        (endpoint.heard heardId entry peer buffer moment.nowMs) heardId
        datagram.addr datagram.random moment.nowMs).2 := by
  have elsewhere := addr_of_shortlisted consistent shortlisted found
  have isView := endpoint.heard_view found peer buffer moment.nowMs peerId
  have isSize : (endpoint.heard heardId entry peer buffer moment.nowMs).size =
      (endpoint.view peerId).size :=
    (heard_visited found peer buffer moment.nowMs).size
  have isHeld := endpoint.lookup_heard heardId entry peer buffer moment.nowMs
  generalize endpoint.heard heardId entry peer buffer moment.nowMs = heard at isView isSize isHeld ⊢
  rcases (startProbe_visited env.recorded heard heardId datagram.addr
      datagram.random moment.nowMs).view Challenges.journal peerId with
    same | ⟨rfl, held, now, items, isFound, _, challenges, isJournal, isAfter⟩
  · rw [Turns, same, isView]
    split
    · next isHeard => exact .single (.heard carries (isHeard ▸ found) later)
    · exact .refl
  · rw [isHeld] at isFound
    cases isFound
    rw [Turns, isAfter, isView]
    generalize (startProbe env.recorded heard peerId datagram.addr datagram.random
        moment.nowMs).2.socket = socket at challenges isJournal
    rw [isSize] at challenges
    have offered := offered rfl
    cases challenges with
    | spared =>
      rw [List.self_eq_append_right.mp isJournal, List.append_nil]
      exact .single (.heard carries found later)
    | failed isNext seals =>
      rw [List.self_eq_append_right.mp isJournal, List.append_nil]
      exact .single
        (.unsealed carries isAction found elsewhere offered unvalidated later isNext seals)
    | sent isNext seals =>
      rw [← List.append_cancel_left isJournal]
      exact .single
        (.challenged carries isAction found elsewhere offered unvalidated later isNext seals)

/-- The address a frame came from may have proved itself. -/
theorem moved_turns
    (isNow : moment.nowMs = datagram.nowMs) (shortlisted : datagram.Shortlisted endpoint heardId)
    (found : endpoint.peers.lookup heardId = some entry) {peer : Peer}
    (later : Session.Later env.suite.aead entry.peer.session peer.session)
    (buffer token : Bytes) (peerId : PeerId)
    (offered : peerId = heardId → Offered (endpoint.view heardId) (.pathValidated token)) :
    Turns env moment start Offered peerId endpoint ((endpoint.heard heardId entry peer buffer
          moment.nowMs).settleProbe heardId datagram.addr token
        moment.nowMs).2 := by
  have elsewhere := addr_of_shortlisted consistent shortlisted found
  have isView := endpoint.heard_view found peer buffer moment.nowMs peerId
  have isHeld := endpoint.lookup_heard heardId entry peer buffer moment.nowMs
  have sameRegistry := heard_registry endpoint heardId moment.nowMs found peer buffer
  have stillListed : datagram.Shortlisted
        (endpoint.heard heardId entry peer buffer moment.nowMs)
        heardId := by
    unfold Incoming.Shortlisted
    rw [(heard_tables ..).1, (heard_tables ..).2]
    exact shortlisted
  generalize endpoint.heard heardId entry peer buffer moment.nowMs = heard
    at isView isHeld sameRegistry stillListed ⊢
  have settles := settleProbe_visited (sameRegistry ▸ consistent) stillListed token
  rw [← isNow] at settles
  have unnoted : ∀ {held now},
        Moves datagram.addr token moment.nowMs (held, heard.socket)
          (now, (heard.settleProbe heardId datagram.addr token moment.nowMs).2.socket) →
        ∃ items, (heard.settleProbe heardId datagram.addr token
              moment.nowMs).2.socket.2 = heard.socket.2 ++ items ∧
            ∀ item ∈ items, item.1.peer = heardId := by
    intro held now moves
    have same := moves.1
    dsimp only at same
    exact ⟨[], by rw [same, List.append_nil], nofun⟩
  rcases settles.view unnoted peerId with
    same | ⟨rfl, held, now, items, isFound, _, moves, isJournal, isAfter⟩
  · rw [Turns, same, isView]
    split
    · next isHeard => exact .single (.heard carries (isHeard ▸ found) later)
    · exact .refl
  · rw [isHeld] at isFound
    cases isFound
    obtain ⟨sameSocket, stays | ⟨isMoved, probe, isProbe, isAddr, rfl⟩⟩ := moves
    all_goals
      dsimp only at sameSocket
      rw [sameSocket] at isJournal
      rw [Turns, isAfter, isView, List.self_eq_append_right.mp isJournal, List.append_nil]
    · dsimp only at stays
      rw [stays]
      exact .single (.heard carries found later)
    · dsimp only at isMoved
      rw [isMoved]
      exact .single (.moved carries isAction found elsewhere (offered rfl) isProbe isAddr later)

/-- A frame from an address the session is not filed under. -/
theorem deliver_unproved_turns (isNow : moment.nowMs = datagram.nowMs) {listedId : PeerId}
    (shortlisted : datagram.Shortlisted endpoint listedId) (peerId : PeerId)
    (offered : ∀ {entry ingested},
        peerId = listedId →
        endpoint.peers.lookup listedId = some entry →
        (entry.peer.ingest env.suite endpoint.rx moment.nowMs endpoint.size).1 = .ok ingested →
        ingested ≠ .rejected →
        Offered (endpoint.view listedId) ingested) :
    Turns env moment start Offered peerId endpoint
      (deliver env.recorded endpoint listedId datagram.addr false
        datagram.random moment.nowMs).2 := by
  unfold deliver
  split
  · exact .refl
  next entry found =>
  have offered : ∀ {result reply buffer peer},
        entry.peer.ingest env.suite endpoint.rx moment.nowMs
            endpoint.size = (.ok result, reply, buffer, peer) →
        result ≠ .rejected →
        peerId = listedId →
        Offered (endpoint.view listedId) result :=
    fun ingests accepted isPeer =>
      offered isPeer found (congrArg Prod.fst ingests) accepted
  split
  · next ingests => exact tried_turns found ingests peerId
  · next ingests => exact tried_turns found ingests peerId
  next ingested reply buffer peer accepted ingests =>
  have later := entry.peer.ingest_later env.suite endpoint.rx moment.nowMs endpoint.size
  rw [show entry.peer.ingest env.suite endpoint.rx moment.nowMs
    endpoint.size = _ from ingests] at later
  have offered := offered ingests accepted
  rw [if_neg Bool.false_ne_true]
  unfold settleUnproved
  split
  · next token =>
      exact moved_turns consistent carries isAction isNow shortlisted
        found later buffer token peerId offered
  next unvalidated =>
  have challenges : Turns env moment start Offered peerId endpoint
        (startProbe env.recorded (endpoint.heard listedId entry peer buffer
            moment.nowMs) listedId datagram.addr
          datagram.random moment.nowMs).2 :=
    challenged_turns consistent carries isAction shortlisted
      found later buffer unvalidated peerId offered
  split
  · next started =>
      rw [started] at challenges
      exact challenges
  next started =>
  rw [started] at challenges
  exact challenges

end

end Frames

/-! ### Frames offered to sessions filed elsewhere -/

/-- The frames a step offers to sessions that are filed elsewhere. -/
def Driver.offers (env : Env ω) (driver : Driver ω) (moment : Moment) :
    List (Visit ω) :=
  match driver.call, moment.action with
  | .reading _ _, .receive (.datagram bytes addr random) =>
      match Header.decode bytes with
      | .error _ =>
          []
      | .ok header =>
          if Session.carriesTransport header.frameType ∧
              driver.endpoint.routes.lookup (addr, header.sessionId) = none then
            Endpoint.offers { env with walk := moment.walk } addr
              header.sessionId random moment.nowMs
              { driver.endpoint with rx := bytes }
          else
            []
  | _, _ =>
      []

/-- A frame offered to a session opens on it. -/
def Driver.Opens
    (env : Env ω)
    (driver : Driver (ω × Journal))
    (moment : Moment)
    (peerId : PeerId)
    (view : View)
    (ingested : Ingested) :
    Prop :=
  ∃ offer ∈ driver.offers env.recorded moment,
    offer.peerId = peerId ∧
      offer.asked.view peerId = view ∧
      ∃ entry,
        offer.asked.peers.lookup peerId = some entry ∧
          (entry.peer.ingest env.suite offer.asked.rx moment.nowMs
            offer.asked.size).1 = .ok ingested ∧
          ingested ≠ .rejected

theorem budget_turns (endpoint : Endpoint (ω × Journal)) (askedId peerId : PeerId) :
    Turns env moment start Offered peerId endpoint
      (endpoint.mayTryUnknownAddress askedId moment.nowMs).2 := by
  have asks : Served env.recorded moment.nowMs askedId endpoint
        (endpoint.mayTryUnknownAddress askedId moment.nowMs).2 :=
    mayTryUnknownAddress_served env.recorded endpoint
  refine asks.turns ?_ peerId
  intro held now found foundAfter _ idle _
  unfold mayTryUnknownAddress at foundAfter ⊢
  rw [found] at foundAfter ⊢
  rw [show now = _ from Option.some.inj (foundAfter.symm.trans (AList.lookup_insert _))]
  exact ⟨idle, rfl⟩

theorem Tries.turns {position : Nat} {visits : List (Visit (ω × Journal))}
    {outcome : Except Error (Option Event) × Endpoint (ω × Journal)}
    (tries : Tries env.recorded datagram.addr datagram.header.sessionId datagram.random
      moment.nowMs position endpoint visits outcome)
    (carries : moment.Carries)
    (isAction : moment.action = .receive (.datagram datagram.bytes datagram.addr datagram.random))
    (isNow : moment.nowMs = datagram.nowMs) (peerId : PeerId)
    (consistent : endpoint.registry.Consistent) (stray : datagram.Stray endpoint)
    (offered : ∀ visit ∈ visits, visit.allowed = true →
        ∀ {entry ingested},
          visit.peerId = peerId →
          visit.asked.peers.lookup peerId = some entry →
          (entry.peer.ingest env.suite visit.asked.rx moment.nowMs visit.asked.size).1 =
            .ok ingested →
          ingested ≠ .rejected →
          Offered (visit.asked.view peerId) ingested) :
    Turns env moment start Offered peerId endpoint outcome.2 := by
  have budget : ∀ {endpoint asked : Endpoint (ω × Journal)} {askedId allowed},
        endpoint.mayTryUnknownAddress askedId moment.nowMs = (allowed, asked) →
        Turns env moment start Offered peerId endpoint asked ∧
          asked.registry = endpoint.registry := by
    intro endpoint asked askedId allowed asks
    rw [show asked = _ from (congrArg Prod.snd asks).symm]
    exact ⟨endpoint.budget_turns askedId peerId,
      (mayTryUnknownAddress_served env.recorded endpoint).registry⟩
  induction tries with
  | ended => exact .refl
  | declines listed asks _ inductionHypothesis =>
    rw [List.forall_mem_cons] at offered
    obtain ⟨turns, same⟩ := budget asks
    exact turns.trans
      (inductionHypothesis (same ▸ consistent) (stray.asked listed asks).1 offered.2)
  | settles listed asks =>
    obtain ⟨turns, same⟩ := budget asks
    refine turns.trans (deliver_unproved_turns (same ▸ consistent) carries isAction
      isNow (stray.asked listed asks).2 peerId ?_)
    rintro entry ingested rfl
    exact offered _ List.mem_cons_self rfl rfl
  | @passes _ _ asked _ listedId _ _ listed asks delivers _ inductionHypothesis =>
    rw [List.forall_mem_cons] at offered
    obtain ⟨turns, same⟩ := budget asks
    obtain ⟨stray, shortlisted⟩ := stray.asked listed asks
    have atoms := @deliver_atoms _ env.recorded datagram _ _ false stray.front shortlisted
    have stays := consistent_of_sessionAtoms (same ▸ consistent) atoms
    have delivered : Turns env moment start Offered peerId asked
          (deliver env.recorded asked listedId datagram.addr false datagram.random
            moment.nowMs).2 := by
      refine deliver_unproved_turns (same ▸ consistent) carries isAction isNow shortlisted
        peerId ?_
      rintro entry ingested rfl
      exact offered.1 rfl rfl
    rw [← isNow, delivers] at stays
    rw [delivers] at delivered
    exact (turns.trans delivered).trans
      (inductionHypothesis stays (stray.same (deliver_none delivers)) offered.2)

/-! ### Whole steps -/

section

variable (isAction : moment.action = .receive receipt) (uncarried : ¬
    moment.Carries) (endpoint : Endpoint (ω × Journal)) (addr : SocketAddr)
    (random : Bytes) (nowMs : Nat) (peerId : PeerId)

include isAction uncarried

theorem acceptFull_turns :
    Turns env moment start Offered peerId endpoint
      (acceptFull env.recorded endpoint addr random nowMs).2 := by
  unfold acceptFull
  split
  · exact .refl
  · exact answer_turns isAction uncarried endpoint _ _ _ _ peerId

theorem acceptResumed_turns :
    Turns env moment start Offered peerId endpoint
      (acceptResumed env.recorded endpoint addr random nowMs).2 := by
  -- A ticket spent shows in no handle's share.
  have answers : ∀ tickets responded, Turns env moment start Offered peerId endpoint
          (answer env.recorded { endpoint with tickets := tickets } addr true responded nowMs).2 :=
    fun tickets _ =>
      answer_turns isAction uncarried { endpoint with tickets := tickets } _ _ _ _ peerId
  unfold acceptResumed
  split
  · exact .refl
  dsimp only
  split
  · exact .refl
  · exact answers _ _

end

theorem acceptHandshake_turns
    (consistent : endpoint.registry.Consistent) (uncarried : ¬ moment.Carries)
    (isAction : moment.action = .receive (.datagram datagram.bytes datagram.addr datagram.random))
    (isNow : moment.nowMs = datagram.nowMs) (opens : datagram.Opens) (peerId : PeerId)
    (isStart : endpoint.view peerId = start) :
    Turns env moment start Offered peerId endpoint
      (acceptHandshake env.recorded endpoint datagram.header datagram.addr
        datagram.random datagram.nowMs).2 := by
  have repeats : Turns env moment start Offered peerId endpoint
        (repeatHandshake env.recorded endpoint datagram.addr
          datagram.header.sessionId datagram.nowMs).2 :=
    repeated_turns consistent isAction isNow opens peerId isStart
  unfold acceptHandshake
  split
  · next isRepeat =>
      rw [isRepeat] at repeats
      exact repeats
  · next isRepeat =>
      rw [isRepeat] at repeats
      exact repeats
  next same isRepeat =>
  obtain ⟨isSame, _⟩ := repeatHandshake_false isRepeat
  rw [isSame]
  split
  · next mayNot =>
      rw [← congrArg Prod.snd mayNot]
      exact .refl
  next after may =>
  have isAfter : (endpoint.mayAnswerHandshake datagram.nowMs).2 = after :=
    congrArg Prod.snd may
  have sameView : after.view peerId = endpoint.view peerId := by
    rw [← isAfter]
    rfl
  rw [Turns, ← sameView]
  split
  · exact acceptFull_turns isAction uncarried after _ _ _ peerId
  · exact acceptResumed_turns isAction uncarried after _ _ _ peerId
  · exact .refl

/-- Only frames that sessions carry are frames that sessions carry. -/
theorem Moment.carries_iff
    (isAction : moment.action = .receive (.datagram datagram.bytes datagram.addr datagram.random)) :
    moment.Carries ↔ Session.carriesTransport datagram.header.frameType = true := by
  constructor
  · rintro ⟨bytes, addr, random, header, isSame, decoded, carried⟩
    rw [isAction] at isSame
    cases isSame
    rw [datagram.decoded] at decoded
    cases decoded
    exact carried
  · intro carried
    exact ⟨_, _, _, _, isAction, datagram.decoded, carried⟩

/-- What a datagram does to a handle. -/
theorem dispatch_turns {endpoint : Endpoint (ω × Journal)}
    (consistent : endpoint.registry.Consistent) {datagram : Incoming}
    (isAction : moment.action = .receive (.datagram datagram.bytes datagram.addr datagram.random))
    (isNow : moment.nowMs = datagram.nowMs) (peerId : PeerId)
    (isStart : endpoint.view peerId = start)
    (offered : Session.carriesTransport datagram.header.frameType = true →
      endpoint.routes.lookup (datagram.addr, datagram.header.sessionId) = none →
      ∀ offer ∈ offers env.recorded datagram.addr datagram.header.sessionId
            datagram.random moment.nowMs { endpoint with rx := datagram.bytes },
        ∀ {entry ingested},
          offer.peerId = peerId →
          offer.asked.peers.lookup peerId = some entry →
          (entry.peer.ingest env.suite offer.asked.rx moment.nowMs offer.asked.size).1 =
            .ok ingested →
          ingested ≠ .rejected →
          Offered (offer.asked.view peerId) ingested) :
    Turns env moment start Offered peerId endpoint
      (dispatch env.recorded endpoint datagram.bytes datagram.addr
        datagram.random datagram.nowMs).2 := by
  let read := { endpoint with rx := datagram.bytes }
  have isRead : read.view peerId = endpoint.view peerId := rfl
  have isCarried := Moment.carries_iff isAction
  rw [Turns, ← isRead]
  rcases dispatch_cases env.recorded endpoint datagram with
    same | ⟨opens, same⟩ | ⟨closes, same⟩ | ⟨carried, same⟩
  · rw [same]
  · have uncarried : ¬ moment.Carries := by
      rw [isCarried]
      rcases opens with isType | isType
      · rw [isType]
        exact Bool.false_ne_true
      · rw [isType]
        exact Bool.false_ne_true
    rw [same]
    have isConsistent : read.registry.Consistent := consistent
    exact acceptHandshake_turns isConsistent uncarried isAction isNow opens peerId isStart
  · have uncarried : ¬ moment.Carries := by
      rw [isCarried]
      rcases closes with isType | isType
      · rw [isType]
        exact Bool.false_ne_true
      · rw [isType]
        exact Bool.false_ne_true
    rw [same]
    exact completed_turns isAction uncarried _ _ _ _ peerId
  · rw [same, ← isNow]
    unfold route
    split
    · next routedId routed =>
        have isConsistent : read.registry.Consistent := consistent
        exact deliver_established_turns isConsistent
          (isCarried.mpr carried) routed datagram.random peerId
    next unrouted =>
    refine (candidates_tries env.recorded _ _ _ _ _ _ read).turns (isCarried.mpr carried)
      isAction isNow peerId consistent ⟨rfl, unrouted⟩ ?_
    intro visit member isAllowed
    exact offered carried unrouted visit (List.mem_filter.mpr ⟨member, isAllowed⟩)

/-- Calls and work that is due. -/
theorem Atom.turns {before after : Endpoint (ω × Journal)}
    (notReceived : ∀ receipt, moment.action ≠ .receive receipt)
    (atom : Atom env.recorded moment before after) (peerId : PeerId) :
    Turns env moment start Offered peerId before after := by
  have uncarried : ¬ moment.Carries := by
    rintro ⟨bytes, addr, random, _, isAction, _⟩
    exact notReceived _ isAction
  cases atom with
  | note same => rw [Turns, same.view]
  | popped => exact .refl
  | rescanned => exact .refl
  | frame isAction => exact absurd isAction (notReceived _)
  | connected => exact before.connected_turns peerId notReceived _ _ _ _ _ _
  | disconnected => exact before.disconnected_turns peerId uncarried _
  | set => exact before.set_turns _ _ peerId
  | sent isAction =>
    exact Served.asked_turns (send_served _ _ before) (by simp [Moment.asks, isAction]) peerId
  | sentOne isAction found =>
    exact Served.asked_turns (sendOneReliable_served found _ _)
      (by simp [Moment.asks, isAction]) peerId
  | queued isAction found =>
    exact Served.asked_turns (queued_served env.recorded _ found _ _)
      (by simp [Moment.asks, isAction]) peerId
  | fed => exact before.fed_turns _ peerId
  | resent => exact before.resent_turns _ peerId
  | reopened => exact before.reopened_turns peerId _ _
  | lost => exact before.lost_turns peerId uncarried _
  | keptAlive _ found spoke => exact keptAlive_turns found spoke _ peerId
  | probed => exact before.probed_turns _ _ peerId

/-- A read is not taken in while the socket is not being read. -/
theorem Driver.next_unread (env : Env ω) {driver : Driver ω} {moment : Moment}
    (isAction : moment.action = .receive receipt)
    (notReading : ∀ deadline wait, driver.call ≠ .reading deadline wait) :
    (driver.next env moment).endpoint = driver.endpoint := by
  obtain ⟨endpoint, call⟩ := driver
  obtain ⟨nowMs, walk, action⟩ := moment
  subst isAction
  cases call with
  | reading deadline wait => exact absurd rfl (notReading deadline wait)
  | _ => rfl

theorem received_turns (env : Env ω) {moment : Moment} {bytes random : Bytes} {addr : SocketAddr}
    (consistent : driver.endpoint.registry.Consistent)
    (reading : ∃ deadline wait, driver.call = .reading deadline wait)
    (isAction : moment.action = .receive (.datagram bytes addr random)) (peerId : PeerId) :
    ReflTransGen (Turn env.suite.aead moment (driver.endpoint.view peerId)
        (driver.Opens env moment peerId) peerId)
      (driver.endpoint.view peerId)
      ((take { env.recorded with walk := moment.walk } driver.endpoint
        (.datagram bytes addr random) moment.nowMs).2.view peerId) := by
  unfold take
  dsimp only
  cases decoded : Header.decode bytes with
  | error error =>
    rw [dispatch_undecoded decoded]
    exact .refl
  | ok header =>
    let datagram : Incoming := ⟨bytes, header, addr, random, moment.nowMs, decoded⟩
    have turns :=
      @dispatch_turns ω { env with walk := moment.walk } moment
        (driver.endpoint.view peerId) (driver.Opens env moment peerId)
        driver.endpoint consistent datagram isAction rfl peerId rfl
    refine turns ?_
    intro carried unrouted offer member entry ingested isPeer found opens accepted
    refine ⟨offer, ?_, isPeer, rfl, entry, found, opens, accepted⟩
    obtain ⟨deadline, wait, isCall⟩ := reading
    unfold Driver.offers
    rw [isCall, isAction]
    dsimp only
    rw [decoded]
    dsimp only
    rw [if_pos ⟨carried, unrouted⟩]
    exact member

/-- Every step of the driver is a run of turns for each handle. -/
theorem Driver.next_turns (env : Env ω) (consistent : driver.endpoint.registry.Consistent)
    (moment : Moment) (peerId : PeerId) :
    ReflTransGen (Turn env.suite.aead moment (driver.endpoint.view peerId)
        (driver.Opens env moment peerId) peerId)
      (driver.endpoint.view peerId)
      ((driver.next env.recorded moment).endpoint.view peerId) := by
  by_cases received : ∃ receipt, moment.action = .receive receipt
  · obtain ⟨receipt, isAction⟩ := received
    by_cases reading :
        ∃ deadline wait, driver.call = .reading deadline wait
    · rcases driver.next_receive env.recorded isAction with same | takes
      · rw [same]
      · rw [takes]
        cases receipt with
        | datagram bytes addr random => exact received_turns env consistent reading isAction peerId
        | _ => exact .refl
    · have unread :=
        Driver.next_unread env.recorded isAction
          fun deadline wait isCall => reading ⟨deadline, wait, isCall⟩
      rw [unread]
  · have notReceived : ∀ receipt, moment.action ≠ .receive receipt :=
      fun receipt isAction => received ⟨receipt, isAction⟩
    have atoms := driver.next_atoms env.recorded moment
    generalize (driver.next env.recorded moment).endpoint = after at atoms ⊢
    induction atoms with
    | refl => exact .refl
    | tail _ atom inductionHypothesis =>
      have turns :=
        @Atom.turns ω { env with walk := moment.walk } moment
          (driver.endpoint.view peerId) (driver.Opens env moment peerId)
          _ _ notReceived atom peerId
      exact inductionHypothesis.trans turns

/-- What every turn of a step preserves, the step preserves. -/
theorem Driver.next_view {env : Env ω} (consistent : driver.endpoint.registry.Consistent)
    {moment : Moment} {peerId : PeerId} (Invariant : View → Prop)
    (preserved : ∀ {before after},
        Turn env.suite.aead moment (driver.endpoint.view peerId)
          (driver.Opens env moment peerId) peerId before after →
        Invariant before →
        Invariant after)
    (initially : Invariant (driver.endpoint.view peerId)) :
    Invariant ((driver.next env.recorded moment).endpoint.view peerId) := by
  have turns := Driver.next_turns env consistent moment peerId
  generalize (driver.next env.recorded moment).endpoint.view peerId = after at turns ⊢
  induction turns with
  | refl => exact initially
  | tail _ turn inductionHypothesis => exact preserved turn inductionHypothesis

theorem Driver.next_consistent (env : Env ω) {driver : Driver ω}
    (consistent : driver.endpoint.registry.Consistent) (moment : Moment) :
    (driver.next env moment).endpoint.registry.Consistent :=
  Driver.next_invariant (fun endpoint => endpoint.registry.Consistent)
    (fun consistent atom => consistent.moves (atom.moves consistent))
    consistent

/-- A state an endpoint gets to from the start, with its journal. -/
def Driver.Recorded (env : Env ω) (driver : Driver (ω × Journal)) : Prop :=
  ∃ mode socket history,
    driver =
      Execution.run (Driver.next env.recorded)
        (Driver.new (Endpoint.new env.recorded mode (socket, []))) history

/--
What holds of a handle nothing has happened to and survives every turn holds of
it in every state reached.
-/
theorem Driver.Recorded.view_invariant
    {env : Env ω} (recorded : driver.Recorded env) (peerId : PeerId) (Invariant : View → Prop)
    (initially : ∀ size, Invariant ⟨none, false, false, size, []⟩)
    (preserved : ∀ {moment start Offered before after},
        Turn env.suite.aead moment start Offered peerId before after →
        Invariant before →
        Invariant after) :
    driver.endpoint.registry.Consistent ∧ Invariant (driver.endpoint.view peerId) := by
  obtain ⟨mode, socket, history, rfl⟩ := recorded
  generalize isFirst :
    Driver.new (Endpoint.new env.recorded mode (socket, [])) = first
  have starts : first.endpoint.registry.Consistent ∧ Invariant (first.endpoint.view peerId) := by
    subst isFirst
    exact ⟨new_consistent env.recorded mode (socket, []), initially _⟩
  clear isFirst
  induction history generalizing first with
  | nil => exact starts
  | cons moment rest inductionHypothesis =>
    exact inductionHypothesis _ ⟨Driver.next_consistent env.recorded starts.1 moment,
        Driver.next_view starts.1 Invariant preserved starts.2⟩

end Endpoint

end Fectp
