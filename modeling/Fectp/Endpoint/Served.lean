import Fectp.Endpoint.Steps

namespace Fectp

/-!
# Serving a peer where it is

Most of what an endpoint does for a peer leaves the session where it is filed
and how it stands.  Frames are sealed and opened on it, and datagrams go to the
address on file.  This is said once for every function that does no more.
-/

open Relation (ReflTransGen)

namespace Session

/-- A frame is sealed, or one is tried. -/
inductive Advance (aead : Aead) : Session → Session → Prop where
  | seals {session : Session} (parts : FrameParts) (padding : Padding)
      (outLen : Nat) :
      Advance aead session (session.sealFramePadded aead parts padding outLen).2
  | tries {session : Session} (frame : Bytes) :
      Advance aead session (session.openFrame aead frame).2.2

/-- A later state of the same session. -/
abbrev Later (aead : Aead) : Session → Session → Prop :=
  ReflTransGen (Advance aead)

/-- The same session with more frames sealed on it, and none tried. -/
abbrev Sealed (aead : Aead) : Session → Session → Prop :=
  ReflTransGen fun before after =>
    ∃ parts padding outLen,
      after = (before.sealFramePadded aead parts padding outLen).2

theorem Sealed.later {aead : Aead} {before after : Session} (sealed : Sealed aead before after) :
    Later aead before after := by
  refine sealed.lift id ?_
  rintro between _ ⟨parts, padding, outLen, rfl⟩
  exact .seals parts padding outLen

theorem Sealed.replay {aead : Aead} {before after : Session} (sealed : Sealed aead before after) :
    after.replay = before.replay := by
  induction sealed with
  | refl => rfl
  | tail _ seals inductionHypothesis =>
    obtain ⟨parts, padding, outLen, rfl⟩ := seals
    exact (sealFramePadded_receiving aead _ parts padding
      outLen).receiving.1.trans inductionHypothesis

variable (aead : Aead) (session : Session)

theorem sealAck_sealed (ack : Ack) (outLen : Nat) :
    Sealed aead session (session.sealAck aead ack outLen).2 := by
  unfold sealAck
  split
  · exact .refl
  · exact .single ⟨_, _, _, rfl⟩

theorem sealPathProbe_later (token : Bytes) (frameLen outLen : Nat) :
    Later aead session (session.sealPathProbe aead token frameLen outLen).2 := by
  unfold sealPathProbe
  split
  · exact .refl
  · exact .single (.seals _ _ _)

end Session

variable (suite : Suite)

theorem Sealing.sealPayload_later (sealing : Sealing) (outgoing : Outgoing) (txLen : Nat) :
    Session.Later suite.aead sealing.session
      (sealing.sealPayload suite outgoing txLen).2.session := by
  unfold sealPayload planPayload
  dsimp only
  cases plan outgoing _ _ with
  | error error => exact .refl
  | ok parts =>
    dsimp only
    have seals : Session.Advance suite.aead sealing.session
          (sealing.session.sealFrame suite.aead parts txLen).2 :=
      .seals _ _ _
    split
    · next sealed =>
        rw [sealed] at seals
        exact .single seals
    next sealed =>
    rw [sealed] at seals
    exact .single seals

/-- Once a frame has been tried, answers are sealed at most. -/
theorem Peer.ingest_sealed (peer : Peer) (frame : Bytes) (nowMs ackLen : Nat) :
    Session.Sealed suite.aead (peer.session.openFrame suite.aead frame).2.2
      (peer.ingest suite frame nowMs ackLen).2.2.2.session := by
  have unfragmented : ∀ (peer : Peer) (opened : Opened) (body : Bytes),
        (peer.ingestNew suite opened body).2.session = peer.session := by
    intro peer opened body
    unfold ingestNew
    dsimp only
    split
    · rfl
    · split
      · rfl
      · split <;> rfl
  unfold ingest
  split
  · next opens => rw [opens]
  next opened buffer session opens =>
  rw [opens]
  unfold ingestOpened
  dsimp only
  split
  · split
    · exact .refl
    · have seals : Session.Sealed suite.aead session
            (session.sealPathResponse suite.aead
              ((buffer.drop headerLen).take opened.len) ackLen).2 :=
        .single ⟨_, _, _, rfl⟩
      split
      · next sealed =>
          rw [sealed] at seals
          exact seals
      next sealed =>
      rw [sealed] at seals
      exact seals
  · split
    · exact .refl
    · exact .refl
  · split
    · exact .refl
    · exact .refl
  · split
    · rw [unfragmented]
    next id _ =>
    have seals := session.sealAck_sealed suite.aead (peer.dedup.accept id).2.toAck ackLen
    split
    · next sealed =>
        rw [sealed] at seals
        exact seals
    next sealed =>
    rw [sealed] at seals
    split
    · exact seals
    · rw [unfragmented]
      exact seals

theorem Peer.ingest_later (peer : Peer) (frame : Bytes) (nowMs ackLen : Nat) :
    Session.Later suite.aead peer.session (peer.ingest suite frame nowMs ackLen).2.2.2.session :=
  .head (.tries frame) (peer.ingest_sealed suite frame nowMs ackLen).later

variable {ω : Type*}

/-- A socket has been used for nothing but such datagrams. -/
inductive Env.Sends (env : Env ω) (Sent : Sending → Prop) :
    ω → ω → Prop where
  | none {socket : ω} :
      Env.Sends env Sent socket socket
  | more {before between : ω} {sending : Sending} :
      Env.Sends env Sent before between →
      Sent sending →
      Env.Sends env Sent before (env.sendTo between sending).2

namespace Env.Sends

variable {env : Env ω} {Sent : Sending → Prop} {first second third : ω}

theorem trans (earlier : env.Sends Sent first second) (later : env.Sends Sent second third) :
    env.Sends Sent first third := by
  induction later with
  | none => exact earlier
  | more _ sent inductionHypothesis => exact .more inductionHypothesis sent

/-- Whatever becomes of it, one datagram is tried. -/
theorem datagram {socket : ω} {sending : Sending} (sent : Sent sending) :
    env.Sends Sent socket (Endpoint.sendDatagram env socket sending).2 := by
  have tries : env.Sends Sent socket (env.sendTo socket sending).2 := .more .none sent
  unfold Endpoint.sendDatagram
  split
  all_goals
    next outcome =>
      rw [outcome] at tries
      exact tries

end Env.Sends

/-- A datagram for a peer, to the address it is filed under. -/
def Sending.ToPeer
    (sending : Sending)
    (peerId : PeerId)
    (addr : SocketAddr)
    (nowMs : Nat) :
    Prop :=
  sending.peer = peerId ∧
    sending.addr = addr ∧
    sending.filed = some addr ∧
    sending.sentMs = nowMs

/-- A path that is searched is searched once at a time. -/
def PeerEntry.Single (entry : PeerEntry) : Prop :=
  ∀ pmtu ∈ entry.pmtu, pmtu.Single

/-- The two are filed alike and stand alike. -/
structure PeerEntry.Alike (before after : PeerEntry) : Prop where
  addr : after.addr = before.addr
  sessionId : after.sessionId = before.sessionId
  filed : after.filed = before.filed
  handshakeReply : after.handshakeReply = before.handshakeReply
  probe : after.probe = before.probe
  spoke : after.spoke = before.spoke
  single : before.Single → after.Single

theorem PeerEntry.Alike.trans
    {first second third : PeerEntry} (earlier : first.Alike second) (later : second.Alike third) :
    first.Alike third where
  addr := later.addr.trans earlier.addr
  sessionId := later.sessionId.trans earlier.sessionId
  filed := later.filed.trans earlier.filed
  handshakeReply := later.handshakeReply.trans earlier.handshakeReply
  probe := later.probe.trans earlier.probe
  spoke := later.spoke.trans earlier.spoke
  single := later.single ∘ earlier.single

/-- The event is neither a failed handshake nor a member discovered. -/
def Event.isPlain : Event → Bool
  | .connectFailed _ | .peerDiscovered _ _ => false
  | _ => true

/-- None but plain events are queued. -/
def Event.Plainly (before after : List Event) : Prop :=
  (after.filter (!·.isPlain)).Sublist (before.filter (!·.isPlain))

theorem Event.plainly_append (before : List Event) {queued : List Event}
    (plain : ∀ event ∈ queued, event.isPlain = true) :
    Event.Plainly before (before ++ queued) := by
  have none : queued.filter (!·.isPlain) = [] := by
    simpa using plain
  unfold Plainly
  rw [List.filter_append, none, List.append_nil]

/-- An event that is no plain one was queued before. -/
theorem Event.Plainly.mem {before after : List Event} {event : Event}
    (plainly : Plainly before after) (member : event ∈ after) (rare : event.isPlain = false) :
    event ∈ before := by
  have isRare : event ∈ after.filter (!·.isPlain) :=
    List.mem_filter.mpr ⟨member, by rw [rare]; rfl⟩
  exact (List.mem_filter.mp (List.Sublist.mem isRare plainly)).1

namespace Endpoint

/-- What serving a session does to it and to the socket. -/
def ServedEntry
    (env : Env ω)
    (nowMs : Nat)
    (peerId : PeerId)
    (before after : PeerEntry × ω) :
    Prop :=
  before.1.Alike after.1 ∧
    Session.Later env.suite.aead before.1.peer.session after.1.peer.session ∧
    env.Sends (fun sending => sending.ToPeer peerId before.1.addr nowMs)
      before.2 after.2

/-- What of an endpoint is no session and no index of them. -/
def outside (endpoint : Endpoint ω) :
    Table PeerId Outbound × PeerId × Nat × Option Nat × Nat × Option Nat ×
      Mode :=
  (endpoint.outbound, endpoint.nextId, endpoint.maxPeers,
    endpoint.peerTimeout, endpoint.size, endpoint.keepalive, endpoint.mode)

/-- One entry, if it is on file, has changed in some way, and no other. -/
structure Touched
    (Effect : PeerEntry × ω → PeerEntry × ω → Prop)
    (peerId : PeerId)
    (before after : Endpoint ω) :
    Prop where
  outside : after.outside = before.outside
  events : Event.Plainly before.events after.events
  others : ∀ id,
      id ≠ peerId →
      after.peers.lookup id = before.peers.lookup id
  entry : (before.peers.lookup peerId = none ∧
        after.peers.lookup peerId = none ∧
        after.socket = before.socket) ∨
      ∃ held now,
        before.peers.lookup peerId = some held ∧
          after.peers.lookup peerId = some now ∧
          Effect (held, before.socket) (now, after.socket)

/-- It stays where it is filed. -/
structure Visited
    (Effect : PeerEntry × ω → PeerEntry × ω → Prop)
    (peerId : PeerId)
    (before after : Endpoint ω) :
    Prop
    extends Touched Effect peerId before after where
  routes : after.routes = before.routes
  bySession : after.bySession = before.bySession

/-- One peer, if it is on file, has been served and nobody else touched. -/
abbrev Served (env : Env ω) (nowMs : Nat) (peerId : PeerId) :
    Endpoint ω → Endpoint ω → Prop :=
  Visited (ServedEntry env nowMs peerId) peerId

variable {env : Env ω} {nowMs : Nat} {peerId : PeerId}

/-- Its session is used, and the stamp of the last datagram may change. -/
theorem ServedEntry.used {entry : PeerEntry} {peer : Peer} {lastSent : Nat} {socket after : ω}
    (later : Session.Later env.suite.aead entry.peer.session peer.session)
    (sends : env.Sends (fun sending => sending.ToPeer peerId entry.addr nowMs) socket after) :
    ServedEntry env nowMs peerId (entry, socket)
      ({ entry with peer := peer, lastSent := lastSent }, after) :=
  ⟨⟨rfl, rfl, rfl, rfl, rfl, rfl, id⟩, later, sends⟩

theorem ServedEntry.refl (state : PeerEntry × ω) :
    ServedEntry env nowMs peerId state state :=
  .used .refl .none

theorem ServedEntry.trans
    {first second third : PeerEntry × ω} (earlier : ServedEntry env nowMs peerId first second)
    (later : ServedEntry env nowMs peerId second third) :
    ServedEntry env nowMs peerId first third := by
  obtain ⟨alike, advances, sends⟩ := earlier
  obtain ⟨alikeAgain, advancesAgain, sendsAgain⟩ := later
  rw [alike.addr] at sendsAgain
  exact ⟨alike.trans alikeAgain, advances.trans advancesAgain, sends.trans sendsAgain⟩

section

variable {Effect : PeerEntry × ω → PeerEntry × ω → Prop}
  {before after endpoint : Endpoint ω} {held now : PeerEntry}

namespace Touched

section

variable (touched : Touched Effect peerId before after)

include touched

theorem outbound : after.outbound = before.outbound :=
  congrArg (·.1) touched.outside

theorem nextId : after.nextId = before.nextId :=
  congrArg (·.2.1) touched.outside

theorem size : after.size = before.size :=
  congrArg (·.2.2.2.2.1) touched.outside

/-- Whoever is on file before a visit is on file after it. -/
theorem found (found : before.peers.lookup peerId = some held) :
    ∃ now,
      after.peers.lookup peerId = some now ∧ Effect (held, before.socket) (now, after.socket) := by
  rcases touched.entry with
    ⟨absent, _⟩ | ⟨heldThere, now, foundThere, foundNow, takes⟩
  · rw [found] at absent
    cases absent
  · rw [found] at foundThere
    cases foundThere
    exact ⟨now, foundNow, takes⟩

/-- What the effect leaves alone of an entry is left alone everywhere. -/
theorem map_lookup {α : Type*} {part : PeerEntry → α}
    (keeps : ∀ {held now},
        Effect (held, before.socket) (now, after.socket) →
        part now = part held)
    (id : PeerId) :
    (after.peers.lookup id).map part = (before.peers.lookup id).map part := by
  by_cases isPeer : id = peerId
  · subst isPeer
    rcases touched.entry with
      ⟨absent, absentAfter, _⟩ | ⟨held, now, found, foundAfter, takes⟩
    · rw [absent, absentAfter]
    · rw [found, foundAfter, Option.map_some, Option.map_some, keeps takes]
  · rw [touched.others id isPeer]

end

/-- A new entry in place of the one held. -/
theorem put (found : before.peers.lookup peerId = some held)
    (isPeers : after.peers = before.peers.insert peerId now)
    (takes : Effect (held, before.socket) (now, after.socket))
    (outside : after.outside = before.outside)
    (events : Event.Plainly before.events after.events) :
    Touched Effect peerId before after where
  outside := outside
  events := events
  others := by
    intro id isOther
    rw [isPeers, AList.lookup_insert_ne isOther]
  entry := by
    refine Or.inr ⟨held, now, found, ?_, takes⟩
    rw [isPeers, AList.lookup_insert]

end Touched

namespace Visited

theorem absent (absent : endpoint.peers.lookup peerId = none) :
    Visited Effect peerId endpoint endpoint :=
  ⟨⟨rfl, .refl _, fun _ _ => rfl, Or.inl ⟨absent, absent, rfl⟩⟩, rfl, rfl⟩

/-- The entry stays, whatever becomes of the socket. -/
theorem kept {socket : ω} (found : endpoint.peers.lookup peerId = some held)
    (takes : Effect (held, endpoint.socket) (held, socket)) :
    Visited Effect peerId endpoint { endpoint with socket := socket } :=
  ⟨⟨rfl, .refl _, fun _ _ => rfl, Or.inr ⟨held, held, found, found, takes⟩⟩, rfl, rfl⟩

/-- A new entry in place of the one held, and nothing to report. -/
theorem put (found : before.peers.lookup peerId = some held)
    (isPeers : after.peers = before.peers.insert peerId now)
    (takes : Effect (held, before.socket) (now, after.socket))
    (outside : after.outside = before.outside) (events : after.events = before.events)
    (routes : after.routes = before.routes) (bySession : after.bySession = before.bySession) :
    Visited Effect peerId before after :=
  ⟨.put found isPeers takes outside (events ▸ .refl _), routes, bySession⟩

end Visited

end

namespace Served

theorem refl (endpoint : Endpoint ω) :
    Served env nowMs peerId endpoint endpoint := by
  cases found : endpoint.peers.lookup peerId with
  | none => exact .absent found
  | some held => exact .kept found (.refl _)

theorem trans {first second third : Endpoint ω} (earlier : Served env nowMs peerId first second)
    (later : Served env nowMs peerId second third) :
    Served env nowMs peerId first third where
  outside := later.outside.trans earlier.outside
  events := later.events.trans earlier.events
  routes := later.routes.trans earlier.routes
  bySession := later.bySession.trans earlier.bySession
  others := fun id isOther =>
    (later.others id isOther).trans (earlier.others id isOther)
  entry := by
    rcases earlier.entry with
      ⟨absent, absentThen, unsent⟩ | ⟨held, between, found, foundThen, serves⟩
    · rcases later.entry with
        ⟨_, absentLast, unsentAgain⟩ | ⟨_, _, foundThen, _⟩
      · exact Or.inl ⟨absent, absentLast, unsentAgain.trans unsent⟩
      · rw [absentThen] at foundThen
        cases foundThen
    · obtain ⟨now, foundLast, servesAgain⟩ := later.found foundThen
      exact Or.inr ⟨held, now, found, foundLast, serves.trans servesAgain⟩

end Served

variable (endpoint : Endpoint ω) {entry : PeerEntry}

theorem lookup_putEntry (peerId : PeerId) (entry : PeerEntry) :
    (endpoint.putEntry peerId entry).peers.lookup peerId = some entry :=
  AList.lookup_insert endpoint.peers

/-! ### Sealing and sending -/

/-- A payload sealed and handed to a closure advances its session. -/
theorem emit_serves
    {σ : Type*} {suite : Suite} {send : σ → Bytes → Except Error Unit × σ} (Reached : σ → Prop)
    (sent : ∀ {world frame},
        Reached world →
        Reached (send world frame).2)
    {session : Session} {size : Nat} {outgoing : Outgoing} {world : Sealing × σ}
    (so : Session.Later suite.aead session world.1.session ∧ Reached world.2) :
    Session.Later suite.aead session (Sealing.emit suite size send world outgoing).2.1.session ∧
      Reached (Sealing.emit suite size send world outgoing).2.2 := by
  have seals := world.1.sealPayload_later suite outgoing size
  unfold Sealing.emit
  split
  · next sealed =>
      rw [sealed] at seals
      exact ⟨so.1.trans seals, so.2⟩
  next sealed =>
  rw [sealed] at seals
  exact ⟨so.1.trans seals, sent so.2⟩

theorem sendStamped_sends
    {endpoint : Endpoint ω} {addr : SocketAddr} {start : ω} {world : ω × Nat} {frame : Bytes}
    (filed : (endpoint.peers.lookup peerId).map PeerEntry.addr = some addr)
    (so : env.Sends (fun sending => sending.ToPeer peerId addr nowMs) start world.1) :
    env.Sends (fun sending => sending.ToPeer peerId addr nowMs) start
      (sendStamped env endpoint peerId addr nowMs world frame).2.1 := by
  have sends : env.Sends (fun sending => sending.ToPeer peerId addr nowMs) world.1
        (sendDatagram env world.1 ⟨frame, addr, peerId, some addr, nowMs⟩).2 :=
    .datagram ⟨rfl, rfl, rfl, rfl⟩
  unfold sendStamped
  dsimp only
  rw [filed]
  split
  · next sent =>
      rw [sent] at sends
      exact so.trans sends
  next sent =>
  rw [sent] at sends
  exact so.trans sends

theorem sendToPeer_served
    {endpoint : Endpoint ω} {addr : SocketAddr} (found : endpoint.peers.lookup peerId = some entry)
    (isAddr : entry.addr = addr) (frame : Bytes) :
    Served env nowMs peerId endpoint (sendToPeer env endpoint peerId frame addr nowMs).2 := by
  subst isAddr
  have sends : env.Sends (fun sending => sending.ToPeer peerId entry.addr nowMs) endpoint.socket
        (sendDatagram env endpoint.socket ⟨frame, entry.addr, peerId, some entry.addr, nowMs⟩).2 :=
    .datagram ⟨rfl, rfl, rfl, rfl⟩
  unfold sendToPeer
  rw [found, Option.map_some]
  dsimp only
  split
  · next sent =>
      rw [sent] at sends
      exact .kept found (.used .refl sends)
  next sent =>
  rw [sent] at sends
  have isPeers : endpoint.peers.update peerId (fun entry => { entry with lastSent := nowMs }) =
        endpoint.peers.insert peerId { entry with lastSent := nowMs } := by
    rw [Table.update, found]
  exact .put found isPeers (.used .refl sends) rfl rfl rfl rfl

/-- A frame is sealed on the session and sent where it is filed. -/
theorem sealed_served
    {endpoint : Endpoint ω} {peer : Peer} (found : endpoint.peers.lookup peerId = some entry)
    (later : Session.Later env.suite.aead entry.peer.session peer.session) :
    Served env nowMs peerId endpoint (endpoint.putEntry peerId { entry with peer := peer }) :=
  .put found rfl (.used later .none) rfl rfl rfl rfl

theorem keepAliveOf_served (tokens : PeerId → Bytes) (endpoint : Endpoint ω) :
    Served env nowMs peerId endpoint (keepAliveOf env nowMs tokens peerId endpoint).2 := by
  unfold keepAliveOf
  split
  · exact .refl endpoint
  next entry found =>
  have seals : Session.Advance env.suite.aead entry.peer.session
        (entry.peer.session.sealPathChallenge env.suite.aead (tokens peerId) endpoint.size).2 :=
    .seals _ _ _
  dsimp only
  generalize entry.peer.session.sealPathChallenge env.suite.aead
      (tokens peerId) endpoint.size = sealed at seals ⊢
  have puts : Served env nowMs peerId endpoint (endpoint.putEntry peerId
          { entry with
            peer := { entry.peer with session := sealed.2 } }) :=
    sealed_served found (.single seals)
  split
  · exact puts
  · exact puts.trans (sendToPeer_served (endpoint.lookup_putEntry peerId _) rfl _)

theorem send_served (data : Bytes) (payloadType : PayloadType) (endpoint : Endpoint ω) :
    Served env nowMs peerId endpoint
      (Endpoint.send env endpoint peerId data payloadType nowMs).2 := by
  unfold Endpoint.send
  split
  · exact .refl endpoint
  next entry found =>
  dsimp only
  have seals :=
    entry.peer.toSealing.sealPayload_later env.suite
      ⟨data, payloadType, none, none, entry.datagramLimit⟩
      endpoint.size
  generalize entry.peer.toSealing.sealPayload env.suite
      ⟨data, payloadType, none, none, entry.datagramLimit⟩
      endpoint.size = sealed at seals ⊢
  have puts : Served env nowMs peerId endpoint (endpoint.putEntry peerId
          { entry with
            peer := { entry.peer with toSealing := sealed.2 } }) :=
    sealed_served found seals
  split
  · exact puts
  · exact puts.trans (sendToPeer_served (endpoint.lookup_putEntry peerId _) rfl _)

theorem sendOneReliable_served
    {endpoint : Endpoint ω} (found : endpoint.peers.lookup peerId = some entry)
    (data : Bytes) (payloadType : PayloadType) :
    Served env nowMs peerId endpoint
      (Endpoint.sendOneReliable env endpoint peerId entry data payloadType nowMs).2 := by
  unfold Endpoint.sendOneReliable
  split
  · exact .refl endpoint
  split
  · exact .refl endpoint
  next id retransmit _ =>
  dsimp only
  generalize isPending :
    (⟨id, payloadType, data, none, entry.datagramLimit⟩ : Pending) = pending
  have emits : Session.Later env.suite.aead entry.peer.session
          (Sealing.emit env.suite endpoint.size (sendStamped env endpoint peerId entry.addr nowMs)
            (entry.peer.toSealing, endpoint.socket, entry.lastSent)
            pending.outgoing).2.1.session ∧
        env.Sends (fun sending => sending.ToPeer peerId entry.addr nowMs) endpoint.socket
          (Sealing.emit env.suite endpoint.size (sendStamped env endpoint peerId entry.addr nowMs)
            (entry.peer.toSealing, endpoint.socket, entry.lastSent)
            pending.outgoing).2.2.1 :=
    emit_serves (fun world : ω × Nat =>
        env.Sends (fun sending => sending.ToPeer peerId entry.addr nowMs)
          endpoint.socket world.1)
      (sendStamped_sends (congrArg _ found)) ⟨.refl, .none⟩
  split
  · next emitted =>
      rw [emitted] at emits
      exact .put found rfl (.used emits.1 emits.2) rfl rfl rfl rfl
  next emitted =>
  rw [emitted] at emits
  split
  · exact .put found rfl (.used emits.1 emits.2) rfl rfl rfl rfl
  · exact .put found rfl (.used emits.1 emits.2) rfl rfl rfl rfl

theorem queued_served (env : Env ω) (nowMs : Nat) {endpoint : Endpoint ω}
    (found : endpoint.peers.lookup peerId = some entry) (data : Bytes) (payloadType : PayloadType) :
    Served env nowMs peerId endpoint (endpoint.putEntry peerId { entry with
          peer :=
            (entry.peer.queueMessage data payloadType entry.datagramLimit).2 }) := by
  refine sealed_served found ?_
  rcases queues :
      entry.peer.queueMessage data payloadType entry.datagramLimit with
    ⟨result, after⟩
  rcases Peer.queueMessage_cases queues with
    ⟨_, same⟩ | ⟨_, job, _, same⟩
  · rw [same]
  · rw [same]

theorem driveQueueOf_served :
    Served env nowMs peerId endpoint (driveQueueOf env nowMs peerId endpoint).2 := by
  cases found : endpoint.peers.lookup peerId with
  | none =>
    rw [driveQueueOf, found]
    exact .refl endpoint
  | some entry =>
    let Reached (world : ω × Nat) : Prop :=
      env.Sends (fun sending => sending.ToPeer peerId entry.addr nowMs) endpoint.socket world.1
    have unsent : Reached (endpoint.socket, entry.lastSent) := .none
    have drives :=
      Outbox.driveQueue_world
        (Sealing.emit env.suite endpoint.size (sendStamped env endpoint peerId entry.addr nowMs))
        (fun world : Sealing × ω × Nat =>
          Session.Later env.suite.aead entry.peer.session world.1.session ∧ Reached world.2)
        (fun _ _ so =>
          emit_serves Reached (sendStamped_sends (congrArg _ found)) so)
        entry.peer.toOutbox nowMs
        (entry.peer.toSealing, endpoint.socket, entry.lastSent)
        ⟨.refl, unsent⟩
    rw [driveQueueOf_eq env found]
    refine ⟨.put found rfl (.used drives.1 drives.2) rfl ?_, rfl, rfl⟩
    refine Event.plainly_append _ fun event isNew => ?_
    unfold finishing at isNew
    split at isNew
    · rw [List.mem_singleton.mp isNew]
      rfl
    · cases isNew

theorem driveRetransmitsOf_served :
    Served env nowMs peerId endpoint (driveRetransmitsOf env nowMs peerId endpoint).2 := by
  unfold driveRetransmitsOf
  split
  · exact .refl endpoint
  next entry found =>
  let Reached (world : (ω × Nat) × Bool) : Prop :=
    env.Sends (fun sending => sending.ToPeer peerId entry.addr nowMs) endpoint.socket world.1.1
  have unsent : Reached ((endpoint.socket, entry.lastSent), false) := .none
  have drives :=
    Outbox.driveRetransmits_world
      (Sealing.emit env.suite endpoint.size (sendWatched env endpoint peerId entry.addr nowMs))
      (fun world : Sealing × (ω × Nat) × Bool =>
        Session.Later env.suite.aead entry.peer.session world.1.session ∧ Reached world.2)
      (fun _ _ so =>
        emit_serves Reached (fun sent => sendStamped_sends (congrArg _ found) sent) so)
      entry.peer.toOutbox nowMs
      (entry.peer.toSealing, (endpoint.socket, entry.lastSent), false)
      ⟨.refl, unsent⟩
  dsimp only
  split
  · exact .put found rfl (.used drives.1 drives.2) rfl rfl rfl rfl
  refine ⟨.put found rfl
    ⟨⟨rfl, rfl, rfl, rfl, rfl, rfl, ?_⟩, drives.1, drives.2⟩ rfl ?_,
    rfl, rfl⟩
  · unfold PeerEntry.Single
    intro single
    split
    · simpa using fun pmtu isPmtu =>
        Pmtu.suspect_single (single pmtu isPmtu) nowMs
    · exact single
  refine Event.plainly_append _ fun event isNew => ?_
  rw [List.eq_of_mem_replicate isNew]
  rfl

theorem sendProbe_serves (size : Nat) (state : PeerEntry × ω) (probe : ProbeSend) :
    ServedEntry env nowMs peerId state (sendProbe env peerId nowMs size state probe) := by
  obtain ⟨entry, socket⟩ := state
  have seals := entry.peer.session.sealPathProbe_later env.suite.aead probe.token probe.size size
  unfold sendProbe
  dsimp only
  split
  · next sealed =>
      rw [sealed] at seals
      exact .used seals .none
  next frame session sealed =>
  rw [sealed] at seals
  have sends : env.Sends (fun sending => sending.ToPeer peerId entry.addr nowMs) socket
        (env.sendTo socket ⟨frame, entry.addr, peerId, some entry.addr, nowMs⟩).2 :=
    .more .none ⟨rfl, rfl, rfl, rfl⟩
  split
  · next sent =>
      rw [sent] at sends
      exact .used seals sends
  next sent =>
  rw [sent] at sends
  exact .used seals sends

theorem sendProbes_serves (size : Nat) (probes : List ProbeSend) (state : PeerEntry × ω) :
    ServedEntry env nowMs peerId state (probes.foldl (sendProbe env peerId nowMs size) state) := by
  induction probes generalizing state with
  | nil => exact .refl state
  | cons probe rest inductionHypothesis =>
    exact (sendProbe_serves size state probe).trans (inductionHypothesis _)

theorem drivePmtuOf_served (tokens : PeerId → List Bytes) (endpoint : Endpoint ω) :
    Served env nowMs peerId endpoint (drivePmtuOf env nowMs tokens endpoint peerId) := by
  unfold drivePmtuOf
  split
  · exact .refl endpoint
  next entry found =>
  split
  · exact .refl endpoint
  · next pmtu isPmtu =>
    split
    · refine .put found rfl (ServedEntry.trans ?_
        (sendProbes_serves endpoint.size _ _)) rfl rfl rfl rfl
      refine ⟨⟨rfl, rfl, rfl, rfl, rfl, rfl, ?_⟩, .refl, .none⟩
      rintro single _ ⟨⟩
      exact (Pmtu.due_clears (single pmtu isPmtu) nowMs _ _).1
    · exact .refl endpoint

theorem answered_served (env : Env ω) (token : Bytes) (endpoint : Endpoint ω) :
    Served env nowMs peerId endpoint (endpoint.answered peerId token nowMs) := by
  unfold answered Table.update
  split
  · next entry found =>
      refine .put found rfl ?_ rfl rfl rfl rfl
      dsimp only
      split
      · exact .refl _
      next pmtu isPmtu =>
      refine ⟨⟨rfl, rfl, rfl, rfl, rfl, rfl, ?_⟩, .refl, .none⟩
      rintro single _ ⟨⟩
      exact Pmtu.answered_single (single pmtu isPmtu) token nowMs
  · exact .refl endpoint

theorem mayTryUnknownAddress_served (env : Env ω) (endpoint : Endpoint ω) :
    Served env nowMs peerId endpoint (endpoint.mayTryUnknownAddress peerId nowMs).2 := by
  unfold mayTryUnknownAddress
  split
  · exact .refl endpoint
  · next entry found =>
      exact .put found rfl ⟨⟨rfl, rfl, rfl, rfl, rfl, rfl, id⟩, .refl, .none⟩ rfl rfl rfl rfl

theorem ingested_served
    {endpoint : Endpoint ω} {result : Except Error Ingested} {reply buffer : Bytes} {peer : Peer}
    (found : endpoint.peers.lookup peerId = some entry)
    (ingests : entry.peer.ingest env.suite endpoint.rx nowMs endpoint.size =
        (result, reply, buffer, peer)) :
    Served env nowMs peerId endpoint (endpoint.ingested peerId entry peer buffer) := by
  have later := entry.peer.ingest_later env.suite endpoint.rx nowMs endpoint.size
  rw [ingests] at later
  exact .put found rfl (.used later .none) rfl rfl rfl rfl

end Endpoint

end Fectp
