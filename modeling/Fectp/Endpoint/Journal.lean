import Fectp.Endpoint.Index

namespace Fectp

/-!
# What becomes of one handle

A socket is given a journal, which notes every datagram handed to it and
whether it was taken.  One handle's share of an endpoint is its entry, its
place among the handshakes under way and its datagrams.  Every way that share
can change is listed here once.
-/

open Relation (ReflTransGen)

/-- Datagrams handed to a socket, and whether it took them. -/
abbrev Journal := List (Sending × Bool)

variable {ω : Type*}

/-- The same socket, with a journal. -/
def Env.recorded (env : Env ω) : Env (ω × Journal) where
  suite := env.suite
  noise := env.noise
  sendTo world sending :=
    let (result, socket) := env.sendTo world.1 sending
    (result, socket, world.2 ++ [(sending, result.isOk)])
  maxDatagram := env.maxDatagram
  discovery := env.discovery
  walk := env.walk

theorem Env.recorded_sendTo (env : Env ω) (world : ω × Journal) (sending : Sending) :
    (env.recorded.sendTo world sending).2.2 =
      world.2 ++ [(sending, (env.recorded.sendTo world sending).1.isOk)] :=
  rfl

/-- What a socket is used for is what its journal gains. -/
theorem Env.Sends.journal {env : Env ω} {Sent : Sending → Prop} {before after : ω × Journal}
    (sends : env.recorded.Sends Sent before after) :
    ∃ items, after.2 = before.2 ++ items ∧ ∀ item ∈ items, Sent item.1 := by
  induction sends with
  | none => exact ⟨[], (List.append_nil _).symm, nofun⟩
  | @more between sending _ sent inductionHypothesis =>
    obtain ⟨items, isJournal, allSent⟩ := inductionHypothesis
    refine ⟨items ++ [(sending, (env.recorded.sendTo between sending).1.isOk)], ?_, ?_⟩
    · rw [env.recorded_sendTo, isJournal, List.append_assoc]
    · intro item member
      rcases List.mem_append.mp member with old | isNew
      · exact allSent item old
      · rw [List.mem_singleton.mp isNew]
        exact sent

/-- Nothing waits to be sent, nor to be sent again. -/
structure Outbox.Idle (outbox : Outbox) : Prop where
  queue : outbox.queue = []
  pending : outbox.pending = []

/-- An entry whose session has just been heard from. -/
def PeerEntry.hearing (entry : PeerEntry) (peer : Peer) (nowMs : Nat) :
    PeerEntry :=
  { entry with
    peer := peer
    spoke := true
    lastHeard := nowMs
    handshakeReply := none }

/-- An entry nothing has happened to. -/
structure PeerEntry.Unused (entry : PeerEntry) : Prop where
  probe : entry.probe = none
  spoke : entry.spoke = false
  idle : entry.peer.Idle

namespace Endpoint

/-- The caller asks for something to be sent to a peer. -/
def Moment.asks (moment : Moment) (peerId : PeerId) : Bool :=
  match moment.action with
  | .send peer _ _ | .sendReliable peer _ _ =>
      peer == peerId
  | _ =>
      false

/-- A frame that sessions carry arrives. -/
def Moment.Carries (moment : Moment) : Prop :=
  ∃ bytes addr random header,
    moment.action = .receive (.datagram bytes addr random) ∧
      Header.decode bytes = .ok header ∧
      Session.carriesTransport header.frameType = true

/-- One handle's share of an endpoint. -/
structure View where
  entry : Option PeerEntry
  /-- A handshake started here is under way. -/
  pending : Bool
  issued : Bool
  size : Nat
  journal : Journal

def view (endpoint : Endpoint (ω × Journal)) (peerId : PeerId) : View where
  entry := endpoint.peers.lookup peerId
  pending := (endpoint.outbound.lookup peerId).isSome
  issued := decide (peerId < endpoint.nextId)
  size := endpoint.size
  journal := endpoint.socket.2.filter (·.1.peer == peerId)

/--
What can happen to a handle in a step that finds its share at `start`.
`Offered` tells which frames from elsewhere open on its session, and in which
state of its share they do.
-/
inductive Turn
    (aead : Aead)
    (moment : Moment)
    (start : View)
    (Offered : View → Ingested → Prop)
    (peerId : PeerId) :
    View → View → Prop where
  /-- The session is used where it is filed. -/
  | served {view : View} {held now : PeerEntry} {items : Journal} :
      view.entry = some held →
      held.Alike now →
      Session.Later aead held.peer.session now.peer.session →
      (∀ item ∈ items, item.1.ToPeer peerId held.addr moment.nowMs) →
      (held.spoke = false →
        held.peer.Idle →
        moment.asks peerId = false →
        now.peer.Idle ∧ items = []) →
      Turn aead moment start Offered peerId view
        { view with
          entry := some now
          journal := view.journal ++ items }
  | heard {view : View} {held : PeerEntry} {peer : Peer} :
      moment.Carries →
      view.entry = some held →
      Session.Later aead held.peer.session peer.session →
      Turn aead moment start Offered peerId view
        { view with entry := some (held.hearing peer moment.nowMs) }
  /-- An address is to be challenged, and the challenge cannot be sealed. -/
  | unsealed {view : View} {held : PeerEntry} {ingested : Ingested}
      {bytes random : Bytes} {addr : SocketAddr} {peer : Peer}
      {probe : AddressProbe} {error : CoreError} {session : Session} :
      moment.Carries →
      moment.action = .receive (.datagram bytes addr random) →
      view.entry = some held →
      held.addr ≠ addr →
      Offered view ingested →
      (∀ token, ingested ≠ .pathValidated token) →
      Session.Later aead held.peer.session peer.session →
      NextProbe held.probe addr random moment.nowMs probe →
      peer.session.sealPathChallenge aead probe.token view.size =
        (.error error, session) →
      Turn aead moment start Offered peerId view
        { view with
          entry :=
            some
              { held.hearing { peer with session := session }
                  moment.nowMs with
                probe := some probe } }
  /-- An address is challenged. -/
  | challenged {view : View} {held : PeerEntry} {ingested : Ingested}
      {bytes random : Bytes} {addr : SocketAddr} {peer : Peer}
      {probe : AddressProbe} {frame : Bytes} {session : Session}
      {lastSent : Nat} {taken : Bool} :
      moment.Carries →
      moment.action = .receive (.datagram bytes addr random) →
      view.entry = some held →
      held.addr ≠ addr →
      Offered view ingested →
      (∀ token, ingested ≠ .pathValidated token) →
      Session.Later aead held.peer.session peer.session →
      NextProbe held.probe addr random moment.nowMs probe →
      peer.session.sealPathChallenge aead probe.token view.size =
        (.ok frame, session) →
      Turn aead moment start Offered peerId view
        { view with
          entry :=
            some
              { held.hearing { peer with session := session }
                  moment.nowMs with
                probe :=
                  some
                    { probe with
                      sent := probe.sent + 1
                      last := moment.nowMs }
                lastSent := lastSent }
          journal :=
            view.journal ++
              [(⟨frame, addr, peerId, some held.addr, moment.nowMs⟩, taken)] }
  | moved {view : View} {held : PeerEntry} {bytes random : Bytes}
      {addr : SocketAddr} {peer : Peer} {probe : AddressProbe} :
      moment.Carries →
      moment.action = .receive (.datagram bytes addr random) →
      view.entry = some held →
      held.addr ≠ addr →
      Offered view (.pathValidated probe.token) →
      held.probe = some probe →
      probe.addr = addr →
      Session.Later aead held.peer.session peer.session →
      Turn aead moment start Offered peerId view
        { view with
          entry :=
            some
              (Endpoint.moved (held.hearing peer moment.nowMs) addr
                moment.nowMs) }
  /-- An opening frame is seen again; its response is not taken. -/
  | unrepeated {view : View} {held : PeerEntry} {reply : Bytes}
      {left : Nat} :
      view.entry = some held →
      held.handshakeReply = some (reply, left) →
      Turn aead moment start Offered peerId view
        { view with
          journal :=
            view.journal ++
              [(⟨reply, held.addr, peerId, some held.addr, moment.nowMs⟩,
                false)] }
  /-- An opening frame is seen again, and answered as before. -/
  | repeated {view : View} {held : PeerEntry} {bytes random : Bytes}
      {header : Header} {reply : Bytes} {left : Nat} {taken : Bool} :
      moment.action = .receive (.datagram bytes held.addr random) →
      Header.decode bytes = .ok header →
      header.frameType = .handshakeInit ∨ header.frameType = .resumeInit →
      held.sessionId = header.sessionId →
      view = start →
      view.entry = some held →
      held.handshakeReply = some (reply, left) →
      Turn aead moment start Offered peerId view
        { view with
          entry :=
            some
              { held with
                handshakeReply :=
                  if left = 0 then none else some (reply, left - 1) }
          journal :=
            view.journal ++
              [(⟨reply, held.addr, peerId, some held.addr, moment.nowMs⟩,
                taken)] }
  | gone {view : View} :
      ¬ moment.Carries →
      Turn aead moment start Offered peerId view { view with entry := none }
  /-- A session is accepted, and its response kept. -/
  | filed {view : View} {entry : PeerEntry} {sending : Sending}
      {taken : Bool} {receipt : Receipt} :
      moment.action = .receive receipt →
      ¬ moment.Carries →
      view.issued = false →
      entry.Unused →
      entry.handshakeReply = some (sending.frame, handshakeReplies) →
      sending.filed = none →
      Turn aead moment start Offered peerId view
        { view with
          entry := some entry
          issued := true
          journal := view.journal ++ [(sending, taken)] }
  /-- The first datagram for a handle is not taken, and it is not given out. -/
  | refused {view : View} {sending : Sending} :
      view.issued = false →
      sending.filed = none →
      Turn aead moment start Offered peerId view
        { view with journal := view.journal ++ [(sending, false)] }
  | connected {view : View} {sending : Sending} {taken : Bool} :
      (∀ receipt, moment.action ≠ .receive receipt) →
      view.issued = false →
      sending.filed = none →
      Turn aead moment start Offered peerId view
        { view with
          pending := true
          issued := true
          journal := view.journal ++ [(sending, taken)] }
  | reopened {view : View} {sending : Sending} {taken : Bool} :
      view.pending = true →
      sending.filed = none →
      Turn aead moment start Offered peerId view
        { view with journal := view.journal ++ [(sending, taken)] }
  | closed {view : View} :
      view.pending = true →
      Turn aead moment start Offered peerId view { view with pending := false }
  /-- A handshake started here is over, and has given a session. -/
  | completed {view : View} {entry : PeerEntry} {receipt : Receipt} :
      moment.action = .receive receipt →
      ¬ moment.Carries →
      view.pending = true →
      entry.Unused →
      Turn aead moment start Offered peerId view
        { view with pending := false, entry := some entry }

/-- What happens to one handle from one state to another is a run of turns. -/
abbrev Turns
    (env : Env ω)
    (moment : Moment)
    (start : View)
    (Offered : View → Ingested → Prop)
    (peerId : PeerId)
    (before after : Endpoint (ω × Journal)) :
    Prop :=
  ReflTransGen (Turn env.suite.aead moment start Offered peerId)
    (before.view peerId) (after.view peerId)

variable {env : Env ω} {before after : Endpoint (ω × Journal)}

theorem view_congr
    {peerId : PeerId} (entry : after.peers.lookup peerId = before.peers.lookup peerId)
    (outbound : after.outbound.lookup peerId = before.outbound.lookup peerId)
    (nextId : after.nextId = before.nextId) (size : after.size = before.size)
    (socket : after.socket = before.socket) :
    after.view peerId = before.view peerId := by
  unfold view
  rw [entry, outbound, nextId, size, socket]

theorem SameTables.view (same : before.SameTables after) (peerId : PeerId) :
    after.view peerId = before.view peerId :=
  view_congr (by rw [same.peers]) (by rw [same.outbound]) same.nextId same.size same.socket

/-- A visit shows in the share of the one visited, and in no other. -/
theorem Touched.view {Effect :
      PeerEntry × ω × Journal → PeerEntry × ω × Journal → Prop}
    {visitedId : PeerId}
    (visited : Touched Effect visitedId before after)
    (noted : ∀ {held now},
        Effect (held, before.socket) (now, after.socket) →
        ∃ items,
          after.socket.2 = before.socket.2 ++ items ∧ ∀ item ∈ items, item.1.peer = visitedId)
    (peerId : PeerId) :
    after.view peerId = before.view peerId ∨ peerId = visitedId ∧
        ∃ held now items, before.peers.lookup peerId = some held ∧
            after.peers.lookup peerId = some now ∧
            Effect (held, before.socket) (now, after.socket) ∧
            after.socket.2 = before.socket.2 ++ items ∧
            after.view peerId =
              { before.view peerId with
                entry := some now
                journal := (before.view peerId).journal ++ items } := by
  rcases visited.entry with
    ⟨absent, absentAfter, unused⟩ | ⟨held, now, found, foundAfter, takes⟩
  · refine Or.inl (view_congr ?_ ?_ visited.nextId visited.size unused)
    · by_cases isVisited : peerId = visitedId
      · rw [isVisited, absent, absentAfter]
      · exact visited.others peerId isVisited
    · rw [visited.outbound]
  · obtain ⟨items, isJournal, allVisited⟩ := noted takes
    by_cases isVisited : peerId = visitedId
    · subst isVisited
      have all : items.filter (·.1.peer == peerId) = items := by
        refine List.filter_eq_self.mpr fun item member => ?_
        exact beq_iff_eq.mpr (allVisited item member)
      refine Or.inr ⟨rfl, held, now, items, found, foundAfter, takes, isJournal, ?_⟩
      unfold Endpoint.view
      rw [foundAfter, visited.outbound, visited.nextId, visited.size,
        isJournal, List.filter_append, all]
    · have none : items.filter (·.1.peer == peerId) = [] := by
        refine List.filter_eq_nil_iff.mpr fun item member => ?_
        rw [allVisited item member, beq_iff_eq]
        exact Ne.symm isVisited
      left
      unfold Endpoint.view
      rw [visited.others peerId isVisited, visited.outbound, visited.nextId,
        visited.size, isJournal, List.filter_append, none, List.append_nil]

/-- Serving a peer is a turn for it, and nothing to the others. -/
theorem Served.turns
    {moment : Moment} {start : View} {Offered : View → Ingested → Prop} {servedId : PeerId}
    (served : Served env.recorded moment.nowMs servedId before after)
    (quiet : ∀ {held now},
        before.peers.lookup servedId = some held →
        after.peers.lookup servedId = some now →
        held.spoke = false →
        held.peer.Idle →
        moment.asks servedId = false →
        now.peer.Idle ∧ after.socket = before.socket)
    (peerId : PeerId) :
    Turns env moment start Offered peerId before after := by
  have noted : ∀ {held now},
        ServedEntry env.recorded moment.nowMs servedId (held, before.socket) (now, after.socket) →
        ∃ items,
          after.socket.2 = before.socket.2 ++ items ∧ ∀ item ∈ items, item.1.peer = servedId := by
    rintro held now ⟨_, _, sends⟩
    obtain ⟨items, isJournal, toPeer⟩ := sends.journal
    exact ⟨items, isJournal, fun item member => (toPeer item member).1⟩
  rcases served.view noted peerId with
    same | ⟨rfl, held, now, items, found, foundAfter, ⟨alike, later, sends⟩, isJournal, isView⟩
  · rw [Turns, same]
  rw [Turns, isView]
  obtain ⟨sent, isSent, toPeer⟩ := sends.journal
  have sameItems : items = sent := List.append_cancel_left (isJournal.symm.trans isSent)
  subst sameItems
  refine .single (.served found alike later toPeer ?_)
  intro silent idle unasked
  obtain ⟨idleNow, unused⟩ := quiet found foundAfter silent idle unasked
  rw [unused] at isJournal
  exact ⟨idleNow, List.self_eq_append_right.mp isJournal⟩

end Endpoint

end Fectp
