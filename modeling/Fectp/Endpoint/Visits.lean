import Fectp.Endpoint.Served

namespace Fectp

/-!
# What is done about one session

A frame that opens, a challenge, a move and a repeated response each change
one entry and use the socket at most once.  Each is said once as a relation
between what is held of the peer and the socket before and after.
-/

namespace Endpoint

variable {ω : Type*}

variable {nowMs : Nat} {peerId : PeerId} {before after endpoint : Endpoint ω}

variable (env : Env ω)

/-! ### Hearing -/

/-- A session has been heard from. -/
def Hears (nowMs : Nat) (before after : PeerEntry × ω) : Prop :=
  ∃ peer,
    after =
      ({ before.1 with
          peer := peer
          spoke := true
          lastHeard := nowMs
          handshakeReply := none },
        before.2)

theorem heard_visited {entry : PeerEntry} (found : endpoint.peers.lookup peerId = some entry)
    (peer : Peer) (buffer : Bytes) (nowMs : Nat) :
    Visited (Hears nowMs) peerId endpoint (endpoint.heard peerId entry peer buffer nowMs) := by
  unfold heard
  dsimp only
  split
  · exact .put found rfl ⟨peer, rfl⟩ rfl rfl rfl rfl
  · exact .put found rfl ⟨peer, rfl⟩ rfl rfl rfl rfl

/-- A session heard from is on file. -/
theorem lookup_heard (endpoint : Endpoint ω) (peerId : PeerId) (entry : PeerEntry) (peer : Peer)
    (buffer : Bytes) (nowMs : Nat) :
    (endpoint.heard peerId entry peer buffer nowMs).peers.lookup peerId = some
        { entry with
          peer := peer
          spoke := true
          lastHeard := nowMs
          handshakeReply := none } := by
  unfold heard
  dsimp only
  split
  · exact AList.lookup_insert endpoint.peers
  · exact AList.lookup_insert endpoint.peers

/-! ### Sending one datagram -/

theorem sendDatagram_socket (socket : ω) (sending : Sending) :
    (sendDatagram env socket sending).2 = (env.sendTo socket sending).2 := by
  unfold sendDatagram
  split
  all_goals
    next outcome => rw [outcome]

/-- The peer is stamped if the datagram went. -/
theorem sendToPeer_put (endpoint : Endpoint ω) (peerId : PeerId) (entry : PeerEntry)
    (frame : Bytes) (addr : SocketAddr) (nowMs : Nat) :
    ∃ lastSent, (sendToPeer env (endpoint.putEntry peerId entry) peerId frame addr nowMs).2 =
        { endpoint.putEntry peerId { entry with lastSent := lastSent } with
          socket :=
            (env.sendTo endpoint.socket ⟨frame, addr, peerId, some entry.addr, nowMs⟩).2 } := by
  have sends :=
    sendDatagram_socket env endpoint.socket ⟨frame, addr, peerId, some entry.addr, nowMs⟩
  unfold sendToPeer
  rw [lookup_putEntry, Option.map_some]
  dsimp only [putEntry]
  split
  · next sent =>
      rw [sent] at sends
      exact ⟨entry.lastSent, by rw [← sends]⟩
  next sent =>
  rw [sent] at sends
  refine ⟨nowMs, ?_⟩
  rw [← sends, Table.update, AList.lookup_insert]
  dsimp only
  rw [AList.insert_insert]

/-- Whatever it is sent and wherever to, a peer is stamped at most. -/
theorem sendToPeer_visited {entry : PeerEntry} (found : endpoint.peers.lookup peerId = some entry)
    (frame : Bytes) (addr : SocketAddr) (nowMs : Nat) :
    Visited (fun before after =>
        ∃ lastSent, after.1 = { before.1 with lastSent := lastSent })
      peerId endpoint
      (sendToPeer env endpoint peerId frame addr nowMs).2 := by
  unfold sendToPeer
  dsimp only
  split
  · exact .kept found ⟨_, rfl⟩
  · refine .put found ?_ ⟨nowMs, rfl⟩ rfl rfl rfl rfl
    rw [Table.update, found]

theorem HeardFrom.found {env : Env ω} {datagram : Incoming} {ingested : Ingested}
    (heard : HeardFrom env datagram endpoint peerId ingested) :
    ∃ entry, endpoint.peers.lookup peerId = some entry := by
  obtain ⟨_, _, _, _, _, _, _, _, rfl⟩ := heard
  exact ⟨_, lookup_heard ..⟩

/-! ### Challenges -/

/-- The probe a challenge goes on with, given the one held. -/
def NextProbe
    (held : Option AddressProbe)
    (addr : SocketAddr)
    (random : Bytes)
    (nowMs : Nat)
    (probe : AddressProbe) :
    Prop :=
  (probe = ⟨addr, random, 0, nowMs, nowMs⟩ ∧
      ∀ old,
        held = some old →
        old.addr = addr →
        probeTimeout < nowMs - old.started) ∨
    held = some probe ∧
      probe.addr = addr ∧
      nowMs - probe.started ≤ probeTimeout ∧
      probe.sent < pathProbes

theorem NextProbe.addr {held : Option AddressProbe} {addr : SocketAddr} {random : Bytes}
    {probe : AddressProbe} (isNext : NextProbe held addr random nowMs probe) :
    probe.addr = addr := by
  rcases isNext with ⟨isFresh, _⟩ | ⟨_, isAddr, _⟩
  · rw [isFresh]
  · exact isAddr

/-- What `startProbe` settles on: a probe to go on with, or none. -/
def chosenProbe
    (held : Option AddressProbe)
    (addr : SocketAddr)
    (random : Bytes)
    (nowMs : Nat) :
    Option AddressProbe :=
  match held.filter (·.addr == addr) with
  | none =>
      some ⟨addr, random, 0, nowMs, nowMs⟩
  | some probe =>
      if nowMs - probe.started > probeTimeout then
        some ⟨addr, random, 0, nowMs, nowMs⟩
      else if probe.sent ≥ pathProbes ∨
          nowMs - probe.last < probeInterval then
        none
      else
        some probe

theorem chosenProbe_cases
    (held : Option AddressProbe) (addr : SocketAddr) (random : Bytes) (nowMs : Nat) :
    (∃ probe, chosenProbe held addr random nowMs = none ∧ held = some probe ∧ probe.addr = addr) ∨
      ∃ probe, chosenProbe held addr random nowMs = some probe ∧
          NextProbe held addr random nowMs probe := by
  unfold chosenProbe
  cases isHeld : held.filter (·.addr == addr) with
  | none =>
    refine Or.inr ⟨_, rfl, Or.inl ⟨rfl, fun old isOld isAddr => ?_⟩⟩
    rw [isOld, Option.filter_some_pos (by rw [isAddr]; exact beq_self_eq_true _)] at isHeld
    cases isHeld
  | some probe =>
    obtain ⟨isProbe, sameAddr⟩ := Option.filter_eq_some_iff.mp isHeld
    have isAddr : probe.addr = addr := beq_iff_eq.mp sameAddr
    dsimp only
    split
    · next late =>
        refine Or.inr ⟨_, rfl, Or.inl ⟨rfl, fun old isOld _ => ?_⟩⟩
        rw [isProbe] at isOld
        cases isOld
        exact late
    next inTime =>
    split
    · exact Or.inl ⟨probe, rfl, isProbe, isAddr⟩
    next worth =>
    refine Or.inr ⟨probe, rfl, Or.inr ⟨isProbe, isAddr, ?_, ?_⟩⟩
    · exact Nat.not_lt.mp inTime
    · exact Nat.not_le.mp fun enough => worth (Or.inl enough)

/-- An address is asked to prove itself, or has been asked enough. -/
inductive Challenges
    (peerId : PeerId)
    (addr : SocketAddr)
    (random : Bytes)
    (nowMs size : Nat) :
    PeerEntry × ω → PeerEntry × ω → Prop where
  | spared {entry : PeerEntry} {socket : ω} {probe : AddressProbe} :
      entry.probe = some probe →
      probe.addr = addr →
      Challenges peerId addr random nowMs size (entry, socket) (entry, socket)
  | failed {entry : PeerEntry} {socket : ω} {probe : AddressProbe}
      {error : CoreError} {session : Session} :
      NextProbe entry.probe addr random nowMs probe →
      entry.peer.session.sealPathChallenge env.suite.aead probe.token size =
        (.error error, session) →
      Challenges peerId addr random nowMs size (entry, socket)
        ({ entry with
            peer := { entry.peer with session := session }
            probe := some probe },
          socket)
  | sent {entry : PeerEntry} {socket : ω} {probe : AddressProbe}
      {frame : Bytes} {session : Session} {lastSent : Nat} :
      NextProbe entry.probe addr random nowMs probe →
      entry.peer.session.sealPathChallenge env.suite.aead probe.token size =
        (.ok frame, session) →
      Challenges peerId addr random nowMs size (entry, socket)
        ({ entry with
            peer := { entry.peer with session := session }
            probe := some { probe with sent := probe.sent + 1, last := nowMs }
            lastSent := lastSent },
          (env.sendTo socket ⟨frame, addr, peerId, some entry.addr, nowMs⟩).2)

/-- A challenge seals at most one frame. -/
theorem Challenges.session
    {env : Env ω} {addr : SocketAddr} {random : Bytes} {size : Nat} {before after : PeerEntry × ω}
    (challenges : Challenges env peerId addr random nowMs size before after) :
    Session.Sealed env.suite.aead before.1.peer.session
      after.1.peer.session := by
  cases challenges with
  | spared => exact .refl
  | failed _ seals => exact .single ⟨_, _, _, (congrArg Prod.snd seals).symm⟩
  | sent _ seals => exact .single ⟨_, _, _, (congrArg Prod.snd seals).symm⟩

/-- The probe is settled on first, and then sealed and sent. -/
theorem startProbe_eq {entry : PeerEntry} (found : endpoint.peers.lookup peerId = some entry)
    (addr : SocketAddr) (random : Bytes) (nowMs : Nat) :
    startProbe env endpoint peerId addr random nowMs =
      match chosenProbe entry.probe addr random nowMs with
      | none => (.ok (), endpoint)
      | some probe =>
        let (result, session) :=
          entry.peer.session.sealPathChallenge env.suite.aead probe.token endpoint.size
        let entry := { entry with peer := { entry.peer with session := session } }
        match result with
        | .error error =>
          (.error (.protocol error), endpoint.putEntry peerId { entry with probe := some probe })
        | .ok frame =>
          let probe := { probe with sent := probe.sent + 1, last := nowMs }
          sendToPeer env (endpoint.putEntry peerId { entry with probe := some probe })
            peerId frame addr nowMs := by
  rw [startProbe, found]
  rfl

theorem startProbe_visited
    (endpoint : Endpoint ω) (peerId : PeerId) (addr : SocketAddr) (random : Bytes) (nowMs : Nat) :
    Visited (Challenges env peerId addr random nowMs endpoint.size) peerId
      endpoint (startProbe env endpoint peerId addr random nowMs).2 := by
  cases found : endpoint.peers.lookup peerId with
  | none =>
    rw [startProbe, found]
    exact .absent found
  | some entry =>
    rw [startProbe_eq env found]
    rcases chosenProbe_cases entry.probe addr random nowMs with
      ⟨probe, isNone, isProbe, isAddr⟩ | ⟨probe, isSome, isNext⟩
    · rw [isNone]
      exact .kept found (.spared isProbe isAddr)
    rw [isSome]
    dsimp only
    split
    · next sealed => exact .put found rfl (.failed isNext (Prod.ext sealed rfl)) rfl rfl rfl rfl
    next frame sealed =>
    obtain ⟨lastSent, sends⟩ := sendToPeer_put env endpoint peerId _ frame addr nowMs
    rw [sends]
    exact .put found rfl (.sent isNext (Prod.ext sealed rfl)) rfl rfl rfl rfl

/-! ### Repeated responses -/

/-- A handshake's response is sent again, if it is still held. -/
inductive Repeats
    (peerId : PeerId)
    (addr : SocketAddr)
    (nowMs : Nat) :
    PeerEntry × ω → PeerEntry × ω → Prop where
  | dropped {entry : PeerEntry} {socket : ω} :
      entry.handshakeReply = none →
      Repeats peerId addr nowMs (entry, socket) (entry, socket)
  | failed {entry : PeerEntry} {socket : ω} {reply : Bytes} {left : Nat} :
      entry.handshakeReply = some (reply, left) →
      (env.sendTo socket
          ⟨reply, addr, peerId, some entry.addr, nowMs⟩).1 ≠ .ok () →
      Repeats peerId addr nowMs (entry, socket)
        (entry,
          (env.sendTo socket ⟨reply, addr, peerId, some entry.addr, nowMs⟩).2)
  | sent {entry : PeerEntry} {socket : ω} {reply : Bytes} {left : Nat} :
      entry.handshakeReply = some (reply, left) →
      Repeats peerId addr nowMs (entry, socket)
        ({ entry with
            handshakeReply :=
              if left = 0 then none else some (reply, left - 1) },
          (env.sendTo socket ⟨reply, addr, peerId, some entry.addr, nowMs⟩).2)

/-- A datagram the socket took is not reported as failed. -/
theorem sendDatagram_error {socket after : ω} {sending : Sending} {error : Error}
    (fails : sendDatagram env socket sending = (.error error, after)) :
    (env.sendTo socket sending).1 ≠ .ok () := by
  unfold sendDatagram at fails
  split at fails
  · cases fails
  · cases fails
  · cases fails
  next outcome =>
  rw [outcome]
  simp

theorem repeatHandshake_visited {addr : SocketAddr} {sessionId : BitVec 32}
    (routed : endpoint.routes.lookup (addr, sessionId) = some peerId) (nowMs : Nat) :
    Visited (Repeats env peerId addr nowMs) peerId endpoint
      (repeatHandshake env endpoint addr sessionId nowMs).2 := by
  unfold repeatHandshake
  rw [routed, Option.bind_some]
  cases found : endpoint.peers.lookup peerId with
  | none => exact .absent found
  | some entry =>
    rw [Option.map_some]
    dsimp only
    split
    · next isDropped => exact .kept found (.dropped isDropped)
    next reply left isHeld =>
    have sends :=
      sendDatagram_socket env endpoint.socket ⟨reply, addr, peerId, some entry.addr, nowMs⟩
    split
    · next sent =>
        rw [sent] at sends
        subst sends
        exact .kept found (.failed isHeld (sendDatagram_error env sent))
    next sent =>
    rw [sent] at sends
    subst sends
    refine .put found ?_ (.sent isHeld) rfl rfl rfl rfl
    rw [Table.update, found]

theorem repeatHandshake_unrouted {addr : SocketAddr} {sessionId : BitVec 32}
    (unrouted : endpoint.routes.lookup (addr, sessionId) = none) (nowMs : Nat) :
    repeatHandshake env endpoint addr sessionId nowMs = (.ok false, endpoint) := by
  rw [repeatHandshake, unrouted, Option.bind_none]

end Endpoint

end Fectp
