import Fectp.Endpoint.Timers

namespace Fectp

/-!
# What the application calls
-/

namespace Endpoint

variable {ω : Type*} (env : Env ω)

/-- Sends one frame to one peer, unreliably. -/
def send
    (endpoint : Endpoint ω)
    (peerId : PeerId)
    (data : Bytes)
    (payloadType : PayloadType)
    (nowMs : Nat) :
    Except Error Unit × Endpoint ω :=
  match endpoint.peers.lookup peerId with
  | none =>
      (.error .unknownPeer, endpoint)
  | some entry =>
      let (result, sealing) :=
        entry.peer.toSealing.sealPayload env.suite
          ⟨data, payloadType, none, none, entry.datagramLimit⟩ endpoint.size
      let entry :=
        { entry with peer := { entry.peer with toSealing := sealing } }
      let endpoint := endpoint.putEntry peerId entry
      match result with
      | .error error =>
          (.error error, endpoint)
      | .ok frame =>
          sendToPeer env endpoint peerId frame entry.addr nowMs

/-- Sends a reliable message that fits in one frame. -/
def sendOneReliable
    (endpoint : Endpoint ω)
    (peerId : PeerId)
    (entry : PeerEntry)
    (data : Bytes)
    (payloadType : PayloadType)
    (nowMs : Nat) :
    Except Error Unit × Endpoint ω :=
  if !entry.peer.session.peerCaps.supportsReliable then
    (.error .reliabilityUnsupported, endpoint)
  else
    match entry.peer.retransmit.register nowMs with
    | .error error =>
        (.error (.protocol error), endpoint)
    | .ok (id, retransmit) =>
        let pending : Pending :=
          ⟨id, payloadType, data, none, entry.datagramLimit⟩
        let peer := { entry.peer with retransmit := retransmit }
        match Sealing.emit env.suite endpoint.size
            (sendStamped env endpoint peerId entry.addr nowMs)
            (peer.toSealing, endpoint.socket, entry.lastSent)
            pending.outgoing with
        | (.error error, sealing, socket, stamp) =>
            let entry :=
              { entry with
                peer := { peer with toSealing := sealing }
                lastSent := stamp }
            (.error error,
              { endpoint.putEntry peerId entry with socket := socket })
        | (.ok (), sealing, socket, stamp) =>
            let peer :=
              { peer with
                toSealing := sealing
                pending := peer.pending ++ [pending] }
            let entry := { entry with peer := peer, lastSent := stamp }
            let endpoint :=
              { endpoint.putEntry peerId entry with socket := socket }
            (.ok (),
              match peer.retransmit.nextDeadlineMs with
              | none =>
                  endpoint
              | some deadline =>
                  endpoint.wakeAt (max nowMs deadline))

/-- One more message is queued. -/
def noteQueued (endpoint : Endpoint ω) : Endpoint ω :=
  { endpoint with queueing := endpoint.queueing + 1 }

/-- Sends data to one peer, retransmitting until acknowledged. -/
def sendReliable
    (endpoint : Endpoint ω)
    (peerId : PeerId)
    (data : Bytes)
    (payloadType : PayloadType)
    (nowMs : Nat) :
    Except Error Unit × Endpoint ω :=
  match endpoint.peers.lookup peerId with
  | none =>
      (.error .unknownPeer, endpoint)
  | some entry =>
      if data.length ≤
          entry.peer.payloadRoom entry.datagramLimit true false then
        sendOneReliable env endpoint peerId entry data payloadType nowMs
      else
        let (result, peer) :=
          entry.peer.queueMessage data payloadType entry.datagramLimit
        let endpoint := endpoint.putEntry peerId { entry with peer := peer }
        match result with
        | .error error =>
            (.error error, endpoint)
        | .ok () =>
            match driveQueues env endpoint.noteQueued nowMs with
            | (.error error, endpoint) =>
                (.error error, endpoint)
            | (.ok (), endpoint) =>
                (.ok (), endpoint.rescanWake nowMs)

def setPeerTimeout (endpoint : Endpoint ω) (within : Option Nat) (nowMs : Nat) :
    Endpoint ω :=
  rescanWake
    { endpoint with peerTimeout := within.map (max · minPeerTimeout) } nowMs

def setKeepalive (endpoint : Endpoint ω) (every : Option Nat) (nowMs : Nat) :
    Endpoint ω :=
  rescanWake { endpoint with keepalive := every.map (max · minKeepalive) } nowMs

/-- Sets the retry budget of every peer, here and still to arrive. -/
def setMaxRetries (endpoint : Endpoint ω) (attempts : Nat) : Endpoint ω :=
  let attempts := max attempts 1
  { endpoint with
    maxRetries := attempts
    peers :=
      endpoint.peers.keys.foldl
        (fun peers id =>
          peers.update id fun entry =>
            { entry with
              peer :=
                { entry.peer with
                  retransmit :=
                    entry.peer.retransmit.setMaxRetries attempts } })
        endpoint.peers }

def setMaxPeers (endpoint : Endpoint ω) (limit : Nat) : Endpoint ω :=
  { endpoint with maxPeers := max limit 1 }

def setHandshakeAttempts (endpoint : Endpoint ω) (attempts : Nat) :
    Endpoint ω :=
  { endpoint with handshakeAttempts := max attempts 1 }

def setMaxMigrationAttemptsPerPeer (endpoint : Endpoint ω) (rate : Nat) :
    Endpoint ω :=
  { endpoint with migrationRate := rate }

def setMaxHandshakesPerSecond (endpoint : Endpoint ω) (perSecond : Nat) :
    Endpoint ω :=
  let rate := max perSecond 1
  { endpoint with
    handshakeRate := rate
    handshakeBudget :=
      min endpoint.handshakeBudget (FloatFormat.single.ofNat rate) }

def setTicketLifetime (endpoint : Endpoint ω) (lifetime : Nat) :
    Endpoint ω :=
  { endpoint with tickets := endpoint.tickets.setLifetime lifetime }

/-- Sets the payload every handshake response carries. -/
def setHandshakeReply (endpoint : Endpoint ω) (payload : Bytes) :
    Except Error Unit × Endpoint ω :=
  let overhead := max responderOverhead resumeResponderOverhead
  if payload.length + overhead > min env.maxDatagram baseDatagram then
    (.error (.protocol .payloadTooLarge), endpoint)
  else
    (.ok (), { endpoint with handshakeReply := payload })

/-! ### The loop under `poll` -/

/-- The time-driven work, which runs when it is due. -/
def driveTimers
    (endpoint : Endpoint ω)
    (nowMs : Nat)
    (keepaliveTokens : PeerId → Bytes)
    (probeTokens : PeerId → List Bytes) :
    Except Error (Option Event) × Endpoint ω :=
  match driveRetransmits env endpoint nowMs with
  | (.error error, endpoint) =>
      (.error error, endpoint)
  | (.ok (), endpoint) =>
      match driveHandshakes env endpoint nowMs with
      | (.ok none, endpoint) =>
          let endpoint := driveLiveness env endpoint nowMs
          match driveKeepalives env endpoint nowMs keepaliveTokens with
          | (.error error, endpoint) =>
              (.error error, endpoint)
          | (.ok (), endpoint) =>
              let endpoint := drivePmtu env endpoint nowMs probeTokens
              (.ok none, endpoint.rescanWake nowMs)
      | outcome =>
          outcome

/-- The queues, which move when an acknowledgement frees window space. -/
def feedQueues (endpoint : Endpoint ω) (nowMs : Nat) :
    Except Error Unit × Endpoint ω :=
  if endpoint.queueing > 0 then driveQueues env endpoint nowMs
  else (.ok (), endpoint)

/-- How long to read the socket for. -/
def wait (endpoint : Endpoint ω) (deadline : Option Nat) (nowMs : Nat) :
    Option Nat :=
  -- A zero timeout would mean blocking for ever.
  (((deadline.map (· - nowMs)).toList ++
    (endpoint.nextWake.map (· - nowMs)).toList).min?).map (max · 1)

end Endpoint

end Fectp
