import Fectp.Endpoint.Journal

namespace Fectp

/-!
# Calls, timers and handshakes as turns of one handle

What the caller asks for and what falls due are each a turn of the handle they
are about.  So are the handshakes answered and completed, which may also make
another handle's session leave.
-/

open Relation (ReflTransGen)

variable {ω : Type*}

namespace Outbox

/-- With nothing to send again, nothing is. -/
theorem Idle.resends (emit : ω → Outgoing → Except Error Unit × ω) (due : List Due)
    {outbox : Outbox} (idle : outbox.Idle) (world : ω) :
    (resend emit due outbox world).2.1.Idle ∧ (resend emit due outbox world).2.2 = world := by
  induction due generalizing outbox with
  | nil => exact ⟨idle, rfl⟩
  | cons item rest inductionHypothesis =>
    cases item with
    | retransmit id =>
      unfold resend
      rw [idle.pending]
      exact inductionHypothesis idle
    | gaveUp id =>
      refine inductionHypothesis ⟨idle.queue, ?_⟩
      rw [giveUp, idle.pending]
      rfl

theorem Idle.drives (emit : ω → Outgoing → Except Error Unit × ω) {outbox : Outbox}
    (idle : outbox.Idle) (nowMs : Nat) (world : ω) :
    (outbox.driveQueue emit nowMs world).2.1.Idle ∧
      (outbox.driveQueue emit nowMs world).2.2 = world := by
  unfold driveQueue
  rw [idle.queue]
  exact ⟨⟨rfl, idle.pending⟩, rfl⟩

theorem Idle.acknowledged {outbox : Outbox} (idle : outbox.Idle) (ack : Ack) (nowMs : Nat) :
    (outbox.applyAck ack nowMs).Idle := by
  refine ⟨idle.queue, ?_⟩
  unfold applyAck
  dsimp only
  rw [idle.pending, List.filter_nil]

end Outbox

theorem Peer.ingest_idle
    (suite : Suite) {peer : Peer} (idle : peer.Idle) (frame : Bytes) (nowMs ackLen : Nat) :
    (peer.ingest suite frame nowMs ackLen).2.2.2.Idle := by
  rcases peer.ingest_outbox suite frame nowMs ackLen with
    same | ⟨_, ack, _, _, acknowledged⟩
  · rw [same]
    exact idle
  · rw [acknowledged]
    exact Outbox.Idle.acknowledged idle ack nowMs

namespace Endpoint

variable {env : Env ω} {moment : Moment} {start : View}
  {Offered : View → Ingested → Prop}

/-! ### Work that is due, and calls -/

variable (endpoint : Endpoint (ω × Journal))

theorem fed_turns (fedId peerId : PeerId) :
    Turns env moment start Offered peerId endpoint
      (driveQueueOf env.recorded moment.nowMs fedId endpoint).2 := by
  refine Served.turns (driveQueueOf_served endpoint) ?_ peerId
  intro held now found foundAfter _ idle _
  have drives :=
    Outbox.Idle.drives
      (Sealing.emit env.suite endpoint.size
        (sendStamped env.recorded endpoint fedId held.addr moment.nowMs))
      idle moment.nowMs
      (held.peer.toSealing, endpoint.socket, held.lastSent)
  rw [driveQueueOf_eq env.recorded found] at foundAfter ⊢
  rw [show now = _ from Option.some.inj (foundAfter.symm.trans (AList.lookup_insert _))]
  exact ⟨drives.1, congrArg (·.2.1) drives.2⟩

theorem resent_turns (resentId peerId : PeerId) :
    Turns env moment start Offered peerId endpoint
      (driveRetransmitsOf env.recorded moment.nowMs resentId endpoint).2 := by
  refine Served.turns (driveRetransmitsOf_served endpoint) ?_ peerId
  intro held now found foundAfter _ idle _
  have drives :=
    Outbox.Idle.resends (Sealing.emit env.recorded.suite endpoint.size
        (sendWatched env.recorded endpoint resentId held.addr moment.nowMs))
      (held.peer.retransmit.poll moment.nowMs maxInFlight).1
      (show Outbox.Idle
          { held.peer.toOutbox with
            retransmit := (held.peer.retransmit.poll moment.nowMs maxInFlight).2 }
        from ⟨idle.queue, idle.pending⟩)
      (held.peer.toSealing, (endpoint.socket, held.lastSent), false)
  revert foundAfter
  unfold driveRetransmitsOf Peer.driveRetransmits Outbox.driveRetransmits
  rw [found]
  dsimp only
  generalize Outbox.resend _ _ _ _ = driven at drives ⊢
  obtain ⟨result, outbox, world⟩ := driven
  obtain ⟨idleAfter, rfl⟩ := drives
  cases result with
  | error error =>
    intro foundAfter
    rw [show now = _ from Option.some.inj (foundAfter.symm.trans (AList.lookup_insert _))]
    exact ⟨idleAfter, rfl⟩
  | ok done =>
    intro foundAfter
    rw [show now = _ from Option.some.inj (foundAfter.symm.trans (AList.lookup_insert _))]
    exact ⟨⟨idleAfter.queue, idleAfter.pending⟩, rfl⟩

theorem keptAlive_turns {endpoint : Endpoint (ω × Journal)} {keptId : PeerId} {entry : PeerEntry}
    (found : endpoint.peers.lookup keptId = some entry)
    (spoke : entry.spoke = true) (tokens : PeerId → Bytes) (peerId : PeerId) :
    Turns env moment start Offered peerId endpoint
      (keepAliveOf env.recorded moment.nowMs tokens keptId endpoint).2 := by
  refine Served.turns (keepAliveOf_served tokens endpoint) ?_ peerId
  intro held now isHeld _ silent
  rw [found] at isHeld
  cases isHeld
  rw [spoke] at silent
  cases silent

theorem probed_turns (tokens : PeerId → List Bytes) (probedId peerId : PeerId) :
    Turns env moment start Offered peerId endpoint
      (drivePmtuOf env.recorded moment.nowMs tokens endpoint probedId) := by
  refine Served.turns (drivePmtuOf_served tokens endpoint) ?_ peerId
  intro held now found foundAfter silent idle _
  have unchanged : drivePmtuOf env.recorded moment.nowMs tokens endpoint probedId =
        endpoint := by
    unfold drivePmtuOf
    rw [found]
    dsimp only
    split
    · rfl
    · rw [silent]
      rfl
  rw [unchanged] at foundAfter ⊢
  rw [found] at foundAfter
  cases foundAfter
  exact ⟨idle, rfl⟩

/-- What the caller asks to be sent is asked for. -/
theorem Served.asked_turns {before after : Endpoint (ω × Journal)} {askedId : PeerId}
    (served : Served env.recorded moment.nowMs askedId before after)
    (asks : moment.asks askedId = true) (peerId : PeerId) :
    Turns env moment start Offered peerId before after := by
  refine served.turns ?_ peerId
  intro held now _ _ _ _ unasked
  rw [asks] at unasked
  cases unasked

theorem set_turns (setting : Setting) (nowMs : Nat) (peerId : PeerId) :
    Turns env moment start Offered peerId endpoint
      (Endpoint.apply env.recorded endpoint setting nowMs).2 := by
  cases setting with
  | maxRetries attempts =>
    have others : (endpoint.setMaxRetries attempts).view peerId = { endpoint.view peerId with
            entry :=
              (endpoint.peers.lookup peerId).map fun entry =>
                { entry with
                  peer :=
                    { entry.peer with
                      retransmit :=
                        entry.peer.retransmit.setMaxRetries (max attempts 1) } } } := by
      unfold Endpoint.view
      rw [setMaxRetries_lookup]
      rfl
    unfold Endpoint.apply
    rw [Turns, others]
    cases found : endpoint.peers.lookup peerId with
    | none =>
      rw [Option.map_none, ← found]
      exact .refl
    | some held =>
      have serves : Turn env.suite.aead moment start Offered peerId (endpoint.view peerId)
            { endpoint.view peerId with
              entry :=
                some { held with
                    peer :=
                      { held.peer with
                        retransmit := held.peer.retransmit.setMaxRetries (max attempts 1) } }
              journal := (endpoint.view peerId).journal ++ [] } :=
        .served found ⟨rfl, rfl, rfl, rfl, rfl, rfl, id⟩ .refl (List.forall_mem_nil _)
          fun _ idle _ => ⟨⟨idle.queue, idle.pending⟩, rfl⟩
      rw [List.append_nil] at serves
      exact .single serves
  | handshakeReply payload =>
    unfold Endpoint.apply setHandshakeReply
    dsimp only
    split
    · exact .refl
    · exact .refl
  | _ => exact .refl

/-! ### Handles given out and taken back -/

/-- One more datagram shows in the share of the handle it is for. -/
theorem filter_noted (journal : Journal) (item : Sending × Bool) (peerId : PeerId) :
    (journal ++ [item]).filter (·.1.peer == peerId) =
      journal.filter (·.1.peer == peerId) ++ if item.1.peer = peerId then [item] else [] := by
  by_cases isPeer : item.1.peer = peerId
  · simp [isPeer]
  · simp [isPeer]

/-- A datagram that is reported as not sent was not taken. -/
theorem sendDatagram_journal (env : Env ω) (socket : ω × Journal) (sending : Sending) :
    ∃ taken, (sendDatagram env.recorded socket sending).2.2 = socket.2 ++ [(sending, taken)] ∧
        ((sendDatagram env.recorded socket sending).1 ≠ .ok () → taken = false) := by
  refine ⟨(env.recorded.sendTo socket sending).1.isOk, ?_, ?_⟩
  · rw [sendDatagram_socket, env.recorded_sendTo]
  · intro fails
    rcases result : sendDatagram env.recorded socket sending with
      ⟨error | _, after⟩
    · have notOk := sendDatagram_error env.recorded result
      cases outcome : (env.recorded.sendTo socket sending).1 with
      | error _ => rfl
      | ok done => exact absurd outcome notOk
    · rw [result] at fails
      exact absurd rfl fails

section Handles

variable (endpoint : Endpoint (ω × Journal)) (peerId : PeerId)

/-- A datagram for the next handle that is not taken. -/
theorem refused_turns
    {frame : Bytes} {addr : SocketAddr} {nowMs : Nat} {error : Error} {socket : ω × Journal}
    (fails : sendDatagram env.recorded endpoint.socket ⟨frame, addr, endpoint.nextId, none, nowMs⟩ =
        (.error error, socket)) :
    Turns env moment start Offered peerId endpoint { endpoint with socket := socket } := by
  obtain ⟨taken, isJournal, untaken⟩ :=
    sendDatagram_journal env endpoint.socket ⟨frame, addr, endpoint.nextId, none, nowMs⟩
  rw [fails] at isJournal untaken
  rw [untaken nofun] at isJournal
  unfold Turns view
  rw [isJournal, filter_noted]
  split
  · next isPeer =>
      have unissued : decide (peerId < endpoint.nextId) = false :=
        decide_eq_false fun less => absurd isPeer (Nat.ne_of_gt less)
      exact .single (.refused unissued rfl)
  · rw [List.append_nil]

theorem connected_turns (notReceived : ∀ receipt, moment.action ≠ .receive receipt)
    (addr : SocketAddr) (peerPublic : Option Bytes) (zeroRtt : Bytes)
    (sessionId : BitVec 32) (random : Bytes) (nowMs : Nat) :
    Turns env moment start Offered peerId endpoint
      (connectAndSend env.recorded endpoint addr peerPublic zeroRtt sessionId random nowMs).2 := by
  rcases connectAndSend_cases env.recorded endpoint addr peerPublic zeroRtt
      sessionId random nowMs with
    same | ⟨handshake, frame, socket, ⟨error, fails, same⟩ | ⟨sends, same⟩⟩
  · rw [same]
  · rw [same]
    exact endpoint.refused_turns peerId fails
  obtain ⟨taken, isJournal, -⟩ :=
    sendDatagram_journal env endpoint.socket ⟨frame, addr, endpoint.nextId, none, nowMs⟩
  rw [sends] at isJournal
  rw [same]
  unfold Turns started view
  rw [isJournal, filter_noted]
  by_cases isNext : peerId = endpoint.nextId
  · subst isNext
    rw [AList.lookup_insert, if_pos rfl, decide_eq_true (Nat.lt_succ_self _)]
    exact .single (.connected notReceived (decide_eq_false (Nat.lt_irrefl _)) rfl)
  have sameIssued : decide (peerId < endpoint.nextId + 1) =
        decide (peerId < endpoint.nextId) := by
    rw [decide_eq_decide, Nat.lt_succ_iff]
    exact ⟨fun le => Nat.lt_of_le_of_ne le isNext, Nat.le_of_lt⟩
  rw [AList.lookup_insert_ne isNext, if_neg (Ne.symm isNext), List.append_nil, sameIssued]

/-- A handshake started here is over. -/
theorem closed_turns {closedId : PeerId} {outbound : Outbound}
    (found : endpoint.outbound.lookup closedId = some outbound) :
    Turns env moment start Offered peerId endpoint
      { endpoint with outbound := endpoint.outbound.erase closedId } := by
  unfold Turns view
  by_cases isClosed : peerId = closedId
  · subst isClosed
    rw [AList.lookup_erase]
    refine .single (.closed ?_)
    rw [found]
    rfl
  · rw [AList.lookup_erase_ne isClosed]

theorem reopened_turns (reopenedId : PeerId) (nowMs : Nat) :
    Turns env moment start Offered peerId endpoint
      (resendOpening env.recorded nowMs reopenedId endpoint).2 := by
  unfold resendOpening
  split
  · exact .refl
  next outbound found =>
  split
  · exact endpoint.closed_turns peerId found
  dsimp only
  obtain ⟨taken, isJournal, -⟩ :=
    sendDatagram_journal env endpoint.socket
      ⟨outbound.frame, outbound.addr, reopenedId, none, nowMs⟩
  generalize sendDatagram env.recorded endpoint.socket _ = sent at isJournal ⊢
  have resends : ∀ again : Outbound, Turns env moment start Offered peerId endpoint
          { endpoint with
              outbound := endpoint.outbound.insert reopenedId again
              socket := sent.2 } := by
    intro again
    unfold Turns view
    rw [isJournal, filter_noted]
    by_cases isReopened : peerId = reopenedId
    · subst isReopened
      rw [AList.lookup_insert, if_pos rfl, found]
      exact .single (.reopened rfl rfl)
    · rw [AList.lookup_insert_ne isReopened, if_neg (Ne.symm isReopened), List.append_nil]
  obtain ⟨error | _, socket⟩ := sent
  · exact resends _
  · exact resends _

/-- A session taken off the table is gone. -/
theorem erased_turns
    (uncarried : ¬ moment.Carries) {erasedId : PeerId} {after : Endpoint (ω × Journal)}
    (isPeers : after.peers = endpoint.peers.erase erasedId)
    (outbound : after.outbound = endpoint.outbound) (nextId : after.nextId = endpoint.nextId)
    (size : after.size = endpoint.size) (socket : after.socket = endpoint.socket) :
    Turns env moment start Offered peerId endpoint after := by
  by_cases isErased : peerId = erasedId
  · have isGone : after.view peerId = { endpoint.view peerId with entry := none } := by
      unfold view
      rw [isPeers, outbound, nextId, size, socket, isErased, AList.lookup_erase]
    rw [Turns, isGone]
    exact .single (.gone uncarried)
  · rw [Turns, view_congr (by rw [isPeers, AList.lookup_erase_ne isErased])
      (by rw [outbound]) nextId size socket]

theorem removed_turns (uncarried : ¬ moment.Carries) (removedId : PeerId) (entry : PeerEntry) :
    Turns env moment start Offered peerId endpoint (endpoint.removePeer removedId entry) := by
  obtain ⟨bySession, removes⟩ := endpoint.removePeer_eq removedId entry
  rw [removes]
  exact endpoint.erased_turns peerId uncarried rfl rfl rfl rfl rfl

theorem disconnected_turns (uncarried : ¬ moment.Carries) (removedId : PeerId) :
    Turns env moment start Offered peerId endpoint (endpoint.disconnect removedId).2 := by
  unfold disconnect
  split
  · next isPending =>
      obtain ⟨outbound, found⟩ := Option.isSome_iff_exists.mp isPending
      exact endpoint.closed_turns peerId found
  · split
    · exact .refl
    · exact endpoint.removed_turns peerId uncarried removedId _

theorem lost_turns (uncarried : ¬ moment.Carries) (lostId : PeerId) :
    Turns env moment start Offered peerId endpoint (endpoint.lose lostId) := by
  unfold lose
  split
  · exact .refl
  · exact endpoint.removed_turns peerId uncarried lostId _

end Handles

/-! ### Handshakes answered and completed -/

theorem newEntry_unused
    (env : Env ω) (endpoint : Endpoint ω) (link : Session) (addr : SocketAddr) (nowMs : Nat) :
    (newEntry env endpoint link addr nowMs).Unused :=
  ⟨rfl, rfl, rfl, rfl⟩

/-- Whoever is not being filed stays, or has made room. -/
theorem file_lookup_ne (env : Env ω) (endpoint : Endpoint ω) {peerId filedId : PeerId}
    (isOther : peerId ≠ filedId) (link : Session) (addr : SocketAddr) (nowMs : Nat) :
    (file env endpoint filedId link addr nowMs).peers.lookup peerId = endpoint.peers.lookup peerId ∨
      (file env endpoint filedId link addr nowMs).peers.lookup peerId =
        none := by
  have erased : ∀ (peers : Table PeerId PeerEntry) (erasedId : PeerId),
        (peers.erase erasedId).lookup peerId = peers.lookup peerId ∨
          (peers.erase erasedId).lookup peerId = none := by
    intro peers erasedId
    by_cases isErased : peerId = erasedId
    · exact Or.inr (isErased ▸ AList.lookup_erase _ _)
    · exact Or.inl (AList.lookup_erase_ne isErased)
  have room : (makeRoom env endpoint).peers.lookup peerId = endpoint.peers.lookup peerId ∨
        (makeRoom env endpoint).peers.lookup peerId = none := by
    rcases makeRoom_cases env endpoint with
      same | ⟨_, victimId, _, _, _, removes⟩
    · rw [same]
      exact Or.inl rfl
    · rw [removes]
      exact erased endpoint.peers victimId
  obtain ⟨peers, routes, bySession, nextWake, files, isPeers⟩ :=
    file_eq env endpoint filedId link addr nowMs
  rw [files]
  rw [AList.lookup_insert_ne isOther]
  rcases isPeers with ⟨_, rfl⟩ | ⟨previous, _, rfl⟩
  · exact room
  rcases erased (makeRoom env endpoint).peers previous with kept | leaves
  · rw [kept]
    exact room
  · exact Or.inr leaves

theorem file_turns (uncarried : ¬ moment.Carries) (endpoint : Endpoint (ω × Journal))
    {peerId filedId : PeerId} (isOther : peerId ≠ filedId) (link : Session)
    (addr : SocketAddr) (nowMs : Nat) :
    Turns env moment start Offered peerId endpoint
      (file env.recorded endpoint filedId link addr nowMs) := by
  have kept := file_lookup_ne env.recorded endpoint isOther link addr nowMs
  obtain ⟨peers, routes, bySession, nextWake, files, -⟩ :=
    file_eq env.recorded endpoint filedId link addr nowMs
  rw [files] at kept ⊢
  rcases kept with stays | leaves
  · rw [Turns, view_congr stays rfl rfl rfl rfl]
  · unfold Turns view
    rw [leaves]
    exact .single (.gone uncarried)

theorem file_view (filedId : PeerId) (link : Session) (addr : SocketAddr) (nowMs : Nat) :
    (file env.recorded endpoint filedId link addr nowMs).view filedId =
      { endpoint.view filedId with
        entry := some (newEntry env.recorded endpoint link addr nowMs) } := by
  obtain ⟨peers, routes, bySession, nextWake, files, -⟩ :=
    file_eq env.recorded endpoint filedId link addr nowMs
  rw [files]
  unfold view
  rw [AList.lookup_insert]

theorem remembered_view (rememberedId : PeerId) (reply : Bytes) (peerId : PeerId) :
    (endpoint.remembered rememberedId reply).view peerId = { endpoint.view peerId with
        entry :=
          if peerId = rememberedId then
            (endpoint.view peerId).entry.map fun entry =>
              { entry with
                handshakeReply := some (reply, handshakeReplies) }
          else
            (endpoint.view peerId).entry } := by
  unfold remembered view
  rw [Table.lookup_update]
  split
  · next isPeer => rw [isPeer]
  · rfl

theorem answer_turns {receipt : Receipt} (isAction : moment.action = .receive receipt)
    (uncarried : ¬ moment.Carries) (endpoint : Endpoint (ω × Journal))
    (addr : SocketAddr) (resumed : Bool)
    (responded : Except Error (Session × Bytes × Bytes)) (nowMs : Nat) (peerId : PeerId) :
    Turns env moment start Offered peerId endpoint
      (answer env.recorded endpoint addr resumed responded nowMs).2 := by
  rcases answer_cases env.recorded endpoint addr resumed responded nowMs with
    ⟨same, _⟩ | ⟨link, zeroRtt, reply, socket, _, ⟨error, fails, same⟩ | ⟨sends, same⟩⟩
  · rw [same]
  · rw [same]
    exact endpoint.refused_turns peerId fails
  obtain ⟨taken, isJournal, -⟩ :=
    sendDatagram_journal env endpoint.socket ⟨reply, addr, endpoint.nextId, none, nowMs⟩
  rw [sends] at isJournal
  rw [Turns, same, remembered_view]
  by_cases isNext : peerId = endpoint.nextId
  · subst isNext
    rw [if_pos rfl, file_view]
    unfold view issued
    rw [isJournal, filter_noted, if_pos rfl, decide_eq_true (Nat.lt_succ_self _), Option.map_some]
    refine .single (.filed isAction uncarried ?_ ?_ rfl rfl)
    · exact decide_eq_false (Nat.lt_irrefl _)
    · exact ⟨rfl, rfl, rfl, rfl⟩
  · have sameIssued : (issued env.recorded endpoint link socket nowMs).view peerId =
          endpoint.view peerId := by
      have sameFlag : decide (peerId < endpoint.nextId + 1) =
            decide (peerId < endpoint.nextId) := by
        rw [decide_eq_decide, Nat.lt_succ_iff]
        exact ⟨fun le => Nat.lt_of_le_of_ne le isNext, Nat.le_of_lt⟩
      unfold view issued
      rw [isJournal, filter_noted, if_neg (Ne.symm isNext), List.append_nil, sameFlag]
    rw [if_neg isNext, ← sameIssued]
    exact file_turns uncarried _ isNext link addr nowMs

theorem completed_turns {receipt : Receipt} (isAction : moment.action = .receive receipt)
    (uncarried : ¬ moment.Carries) (endpoint : Endpoint (ω × Journal))
    (addr : SocketAddr) (sessionId : BitVec 32) (nowMs : Nat) (peerId : PeerId) :
    Turns env moment start Offered peerId endpoint
      (completeOutbound env.recorded endpoint addr sessionId nowMs).2 := by
  rcases completeOutbound_cases env.recorded endpoint addr sessionId nowMs with
    same | ⟨closedId, outbound, paths, found, _, _, closes⟩
  · rw [same]
  have closed : Turns env moment start Offered peerId endpoint
        (endpoint.closed closedId paths) :=
    endpoint.closed_turns peerId found
  rcases closes with same | ⟨link, reply, _, same⟩
  · rw [same]
    exact closed
  rw [same]
  by_cases isClosed : peerId = closedId
  · subst isClosed
    rw [Turns, file_view]
    unfold view ticketed Endpoint.closed
    rw [AList.lookup_erase]
    refine .single (.completed isAction uncarried ?_ (newEntry_unused ..))
    rw [found]
    rfl
  · have sameView : (ticketed env.recorded (endpoint.closed closedId paths) link
            nowMs).view peerId =
          (endpoint.closed closedId paths).view peerId := by
      unfold view ticketed
      rfl
    rw [Turns, ← sameView] at closed
    refine closed.trans ?_
    exact file_turns uncarried _ isClosed link outbound.addr nowMs

/-- An opening frame, that a session on file may have been opened by. -/
theorem repeated_turns {endpoint : Endpoint (ω × Journal)}
    (consistent : endpoint.registry.Consistent) {datagram : Incoming}
    (isAction : moment.action = .receive (.datagram datagram.bytes datagram.addr datagram.random))
    (isNow : moment.nowMs = datagram.nowMs) (opens : datagram.Opens) (peerId : PeerId)
    (isStart : endpoint.view peerId = start) :
    Turns env moment start Offered peerId endpoint
      (repeatHandshake env.recorded endpoint datagram.addr
        datagram.header.sessionId datagram.nowMs).2 := by
  rw [← isNow]
  cases routed :
      endpoint.routes.lookup (datagram.addr, datagram.header.sessionId) with
  | none => rw [repeatHandshake_unrouted env.recorded routed]
  | some repeatedId =>
    have noted : ∀ {before after : PeerEntry × ω × Journal},
          Repeats env.recorded repeatedId datagram.addr moment.nowMs before after →
          ∃ items, after.2.2 = before.2.2 ++ items ∧ ∀ item ∈ items, item.1.peer = repeatedId := by
      intro before after repeats
      cases repeats with
      | dropped => exact ⟨[], (List.append_nil _).symm, nofun⟩
      | failed _ _ =>
        refine ⟨_, env.recorded_sendTo _ _, ?_⟩
        simp
      | sent _ =>
        refine ⟨_, env.recorded_sendTo _ _, ?_⟩
        simp
    rcases (repeatHandshake_visited env.recorded routed moment.nowMs).view
        (fun repeats => noted repeats) peerId with
      same | ⟨isPeer, held, now, items, found, _, repeats, isJournal, isView⟩
    · rw [Turns, same]
    rw [Turns, isView]
    obtain ⟨isAddr, isSession⟩ := place_of_routed consistent (isPeer ▸ routed) found
    rw [← isPeer] at repeats
    generalize (repeatHandshake env.recorded endpoint datagram.addr
        datagram.header.sessionId moment.nowMs).2.socket = socket
      at repeats isJournal
    generalize isBefore : endpoint.socket = before at repeats isJournal
    cases repeats with
    | dropped =>
      rw [List.self_eq_append_right.mp isJournal, List.append_nil, ← found]
      exact .refl
    | @failed _ _ reply left isHeld notOk =>
      have untaken : (env.recorded.sendTo before
            ⟨reply, datagram.addr, peerId, some held.addr, moment.nowMs⟩).1.isOk = false := by
        cases outcome :
            (env.recorded.sendTo before
              ⟨reply, datagram.addr, peerId, some held.addr, moment.nowMs⟩).1 with
        | error _ => rfl
        | ok done => exact absurd outcome notOk
      rw [env.recorded_sendTo, untaken] at isJournal
      rw [← List.append_cancel_left isJournal, ← isAddr, ← found]
      exact .single (.unrepeated found isHeld)
    | @sent _ _ reply left isHeld =>
      rw [← List.append_cancel_left isJournal, ← isAddr]
      rw [← isAddr] at isAction
      exact .single (.repeated isAction datagram.decoded opens isSession isStart found isHeld)

end Endpoint

end Fectp
