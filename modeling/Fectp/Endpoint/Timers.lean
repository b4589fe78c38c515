import Fectp.Endpoint.Handshakes

namespace Fectp

/-!
# Work that falls due

Walks over the peer table: the queues, the retransmissions, the opening frames,
the peers gone silent, the keep-alives and the probes.
-/

namespace Endpoint

variable {ω : Type*} (env : Env ω)

/-- One peer's queue, fed into whatever send window it has free. -/
def driveQueueOf (nowMs : Nat) (peerId : PeerId) (endpoint : Endpoint ω) :
    Except Error Unit × Endpoint ω :=
  match endpoint.peers.lookup peerId with
  | none =>
      (.ok (), endpoint)
  | some entry =>
      let (result, peer, socket, stamp) :=
        entry.peer.driveQueue env.suite nowMs endpoint.size
          (sendStamped env endpoint peerId entry.addr nowMs)
          (endpoint.socket, entry.lastSent)
      let entry := { entry with peer := peer, lastSent := stamp }
      let endpoint := { endpoint.putEntry peerId entry with socket := socket }
      match result with
      | .error error =>
          (.error error, endpoint)
      | .ok none =>
          (.ok (), endpoint)
      | .ok (some finished) =>
          (.ok (),
            { endpoint with
              events := endpoint.events ++ [.sent peerId finished.delivered] })

/-- The report of a message a pass over a peer's queue finished. -/
def finishing (peerId : PeerId) :
    Except Error (Option Finished) → List Event
  | .ok (some finished) =>
      [.sent peerId finished.delivered]
  | _ =>
      []

/-- All that a visit to one peer's queue does. -/
theorem driveQueueOf_eq {nowMs : Nat} {peerId : PeerId} {endpoint : Endpoint ω} {entry : PeerEntry}
    (found : endpoint.peers.lookup peerId = some entry) :
    let driven :=
      entry.peer.toOutbox.driveQueue
        (Sealing.emit env.suite endpoint.size (sendStamped env endpoint peerId entry.addr nowMs))
        nowMs (entry.peer.toSealing, endpoint.socket, entry.lastSent)
    let peer := { entry.peer with toSealing := driven.2.2.1, toOutbox := driven.2.1 }
    driveQueueOf env nowMs peerId endpoint = (driven.1.map fun _ => (), { endpoint.putEntry peerId
            { entry with peer := peer, lastSent := driven.2.2.2.2 } with
          socket := driven.2.2.2.1
          events := endpoint.events ++ finishing peerId driven.1 }) := by
  unfold driveQueueOf
  rw [found]
  unfold Peer.driveQueue
  dsimp only
  generalize entry.peer.toOutbox.driveQueue _ nowMs _ = driven
  obtain ⟨error | none | finished, outbox, sealing, socket, stamp⟩ := driven
  · simp [finishing, Except.map, putEntry]
  · simp [finishing, Except.map, putEntry]
  · simp [finishing, Except.map, putEntry]

theorem driveQueueOf_size (endpoint : Endpoint ω) (nowMs : Nat) (peerId : PeerId) :
    (driveQueueOf env nowMs peerId endpoint).2.size = endpoint.size := by
  cases found : endpoint.peers.lookup peerId with
  | none =>
    unfold driveQueueOf
    rw [found]
  | some entry =>
    rw [driveQueueOf_eq env found]
    rfl

/-- Feeds every peer's queue, and counts those that still hold one. -/
def driveQueues (endpoint : Endpoint ω) (nowMs : Nat) :
    Except Error Unit × Endpoint ω :=
  match forEach (driveQueueOf env nowMs) (env.walk.order endpoint.peers.keys)
      endpoint with
  | (.error error, endpoint) =>
      (.error error, endpoint)
  | (.ok (), endpoint) =>
      (.ok (),
        { endpoint with
          queueing := endpoint.peers.values.countP (!·.peer.queue.isEmpty) })

/-- One peer's retransmissions, and a report of what no queue waits for. -/
def driveRetransmitsOf (nowMs : Nat) (peerId : PeerId) (endpoint : Endpoint ω) :
    Except Error Unit × Endpoint ω :=
  match endpoint.peers.lookup peerId with
  | none =>
      (.ok (), endpoint)
  | some entry =>
      let (result, peer, (socket, stamp), large) :=
        entry.peer.driveRetransmits env.suite nowMs endpoint.size
          (sendWatched env endpoint peerId entry.addr nowMs)
          ((endpoint.socket, entry.lastSent), false)
      match result with
      | .error error =>
          let entry := { entry with peer := peer, lastSent := stamp }
          (.error error,
            { endpoint.putEntry peerId entry with socket := socket })
      | .ok () =>
          let entry :=
            { entry with
              peer := { peer with abandonedUnqueued := 0 }
              lastSent := stamp
              pmtu :=
                if large then entry.pmtu.map (·.suspect nowMs)
                else entry.pmtu }
          (.ok (),
            { endpoint.putEntry peerId entry with
              socket := socket
              events :=
                endpoint.events ++
                  List.replicate peer.abandonedUnqueued (.sent peerId false) })

/-- Resends whatever has timed out, for every peer. -/
def driveRetransmits (endpoint : Endpoint ω) (nowMs : Nat) :
    Except Error Unit × Endpoint ω :=
  forEach (driveRetransmitsOf env nowMs) (env.walk.order endpoint.peers.keys)
    endpoint

/-- Resends one unanswered opening frame, or abandons it. -/
def resendOpening (nowMs : Nat) (peerId : PeerId) (endpoint : Endpoint ω) :
    Except Error (Option Event) × Endpoint ω :=
  match endpoint.outbound.lookup peerId with
  | none =>
      (.ok none, endpoint)
  | some outbound =>
      if outbound.attempts ≥ endpoint.handshakeAttempts ∧
          nowMs - outbound.firstSent ≥
            handshakeTime endpoint.handshakeAttempts then
        (.ok (some (.connectFailed peerId)),
          { endpoint with outbound := endpoint.outbound.erase peerId })
      else
        let attempts := saturatingAdd 8 outbound.attempts 1
        let nextAttempt :=
          nowMs + endpoint.handshakeDelay outbound.addr attempts
        let endpoint :=
          { endpoint with
            outbound :=
              endpoint.outbound.insert peerId
                { outbound with
                  attempts := attempts
                  nextAttempt := nextAttempt
                  lastSent := nowMs } }
        match sendDatagram env endpoint.socket
            ⟨outbound.frame, outbound.addr, peerId, none, nowMs⟩ with
        | (.error error, socket) =>
            (.error error, { endpoint with socket := socket })
        | (.ok (), socket) =>
            (.ok none, { endpoint with socket := socket })

/-- Works through the opening frames due, up to one that is abandoned. -/
def resendOpenings (nowMs : Nat) :
    List PeerId → Endpoint ω → Except Error (Option Event) × Endpoint ω
  | [], endpoint =>
      (.ok none, endpoint)
  | peerId :: rest, endpoint =>
      match resendOpening env nowMs peerId endpoint with
      | (.ok none, endpoint) =>
          resendOpenings nowMs rest endpoint
      | outcome =>
          outcome

/-- Resends unanswered opening frames, and abandons the hopeless ones. -/
def driveHandshakes (endpoint : Endpoint ω) (nowMs : Nat) :
    Except Error (Option Event) × Endpoint ω :=
  resendOpenings env nowMs
    ((env.walk.order endpoint.outbound.keys).filter fun id =>
      (endpoint.outbound.lookup id).any (·.nextAttempt ≤ nowMs))
    endpoint

/-- Releases one peer and reports it. -/
def lose (endpoint : Endpoint ω) (peerId : PeerId) : Endpoint ω :=
  match endpoint.peers.lookup peerId with
  | none =>
      endpoint
  | some entry =>
      let endpoint := endpoint.removePeer peerId entry
      { endpoint with events := endpoint.events ++ [.peerLost peerId] }

/-- Releases peers nothing has been heard from inside the timeout. -/
def driveLiveness (endpoint : Endpoint ω) (nowMs : Nat) : Endpoint ω :=
  match endpoint.peerTimeout with
  | none =>
      endpoint
  | some limit =>
      let lost :=
        (env.walk.order endpoint.peers.keys).filter fun id =>
          (endpoint.peers.lookup id).any (nowMs - ·.lastHeard ≥ limit)
      lost.foldl lose endpoint

/-- Sends one peer a keep-alive. -/
def keepAliveOf
    (nowMs : Nat)
    (tokens : PeerId → Bytes)
    (peerId : PeerId)
    (endpoint : Endpoint ω) :
    Except Error Unit × Endpoint ω :=
  match endpoint.peers.lookup peerId with
  | none =>
      (.ok (), endpoint)
  | some entry =>
      let (result, session) :=
        entry.peer.session.sealPathChallenge env.suite.aead (tokens peerId)
          endpoint.size
      let entry := { entry with peer := { entry.peer with session := session } }
      let endpoint := endpoint.putEntry peerId entry
      match result with
      | .error error =>
          (.error (.protocol error), endpoint)
      | .ok frame =>
          sendToPeer env endpoint peerId frame entry.addr nowMs

/-- Sends a keep-alive to every peer that has not been sent to recently. -/
def driveKeepalives
    (endpoint : Endpoint ω)
    (nowMs : Nat)
    (tokens : PeerId → Bytes) :
    Except Error Unit × Endpoint ω :=
  match endpoint.keepalive with
  | none =>
      (.ok (), endpoint)
  | some every =>
      forEach (keepAliveOf env nowMs tokens)
        ((env.walk.order endpoint.peers.keys).filter fun id =>
          (endpoint.peers.lookup id).any fun entry =>
            entry.spoke && nowMs - entry.lastSent ≥ every)
        endpoint

/-- Sends one probe; one that cannot be sent goes unanswered. -/
def sendProbe
    (peerId : PeerId)
    (nowMs size : Nat)
    (state : PeerEntry × ω)
    (probe : ProbeSend) :
    PeerEntry × ω :=
  let (entry, socket) := state
  match entry.peer.session.sealPathProbe env.suite.aead probe.token
      probe.size size with
  | (.error _, session) =>
      ({ entry with peer := { entry.peer with session := session } }, socket)
  | (.ok frame, session) =>
      let entry := { entry with peer := { entry.peer with session := session } }
      match env.sendTo socket
          ⟨frame, entry.addr, peerId, some entry.addr, nowMs⟩ with
      | (.ok (), socket) =>
          ({ entry with lastSent := nowMs }, socket)
      | (.error _, socket) =>
          (entry, socket)

/-- Sends whatever probes are due to one peer. -/
def drivePmtuOf
    (nowMs : Nat)
    (tokens : PeerId → List Bytes)
    (endpoint : Endpoint ω)
    (peerId : PeerId) :
    Endpoint ω :=
  match endpoint.peers.lookup peerId with
  | none =>
      endpoint
  | some entry =>
      match entry.pmtu with
      | none =>
          endpoint
      | some pmtu =>
          if entry.spoke then
            let (probes, pmtu) :=
              pmtu.due nowMs entry.peer.retransmit.rtoMs (tokens peerId)
            let (entry, socket) :=
              probes.foldl (sendProbe env peerId nowMs endpoint.size)
                ({ entry with
                   pmtu := some pmtu
                   datagramLimit := pmtu.current }, endpoint.socket)
            { endpoint.putEntry peerId entry with socket := socket }
          else
            endpoint

/-- Sends whatever path MTU probes are due, to peers that have spoken. -/
def drivePmtu
    (endpoint : Endpoint ω)
    (nowMs : Nat)
    (tokens : PeerId → List Bytes) :
    Endpoint ω :=
  (env.walk.order endpoint.peers.keys).foldl (drivePmtuOf env nowMs tokens)
    endpoint

end Endpoint

end Fectp
