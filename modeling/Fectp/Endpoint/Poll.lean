import Fectp.Endpoint.Calls
import Fectp.Endpoint.Frames

namespace Fectp

/-!
# The caller of an endpoint

One thread makes one call at a time.  `poll` goes round a loop: time-driven
work if it is due, then the queues, then a read of the socket, each a step of
its own with its own reading of the clock.
-/

namespace Endpoint

/-- Where the one thread is. -/
inductive Call where
  | idle
  /-- In `poll`, before the time-driven work. -/
  | polling (deadline : Option Nat)
  /-- In `poll`, before the queues. -/
  | feeding (deadline : Option Nat)
  /-- In `poll`, reading the socket for at most so long. -/
  | reading (deadline wait : Option Nat)
  deriving Repr, DecidableEq

/-- What a read of the socket came back with. -/
inductive Receipt where
  | timedOut
  | staleUnreachable
  | failed
  | datagram (bytes : Bytes) (addr : SocketAddr) (random : Bytes)
  deriving Repr, DecidableEq

/-- A setting the caller may change. -/
inductive Setting where
  | peerTimeout (within : Option Nat)
  | keepalive (every : Option Nat)
  | maxRetries (attempts : Nat)
  | maxPeers (limit : Nat)
  | handshakeAttempts (attempts : Nat)
  | maxMigrationAttemptsPerPeer (rate : Nat)
  | maxHandshakesPerSecond (perSecond : Nat)
  | ticketLifetime (lifetime : Nat)
  | handshakeReply (payload : Bytes)
  deriving Repr, DecidableEq

/-- A call is made, or a step of the one in progress is taken. -/
inductive Action where
  | connect
      (addr : SocketAddr) (peerPublic : Option Bytes) (zeroRtt : Bytes)
      (sessionId : BitVec 32) (random : Bytes)
  | disconnect (peer : PeerId)
  | send (peer : PeerId) (data : Bytes) (payloadType : PayloadType)
  | sendReliable (peer : PeerId) (data : Bytes) (payloadType : PayloadType)
  | set (setting : Setting)
  | poll (timeout : Option Nat)
  | timers
      (keepaliveTokens : PeerId → Bytes)
      (probeTokens : PeerId → List Bytes)
  | queues
  | receive (receipt : Receipt)

/-- An action, what the clock says, and how tables are walked. -/
structure Moment where
  nowMs : Nat
  walk : Walk
  action : Action

/-- What a call comes back with. -/
inductive Reply where
  | connecting (result : Except Error PeerId)
  | disconnected (known : Bool)
  | sent (result : Except Error Unit)
  | sentReliable (result : Except Error Unit)
  | set (result : Except Error Unit)
  | polled (result : Except Error Event)
  deriving DecidableEq

/-- An endpoint and its caller. -/
structure Driver (ω : Type*) where
  endpoint : Endpoint ω
  call : Call

variable {ω : Type*} (env : Env ω)

/-- Applies a setting. -/
def apply (endpoint : Endpoint ω) (setting : Setting) (nowMs : Nat) :
    Except Error Unit × Endpoint ω :=
  match setting with
  | .peerTimeout within =>
      (.ok (), endpoint.setPeerTimeout within nowMs)
  | .keepalive every =>
      (.ok (), endpoint.setKeepalive every nowMs)
  | .maxRetries attempts =>
      (.ok (), endpoint.setMaxRetries attempts)
  | .maxPeers limit =>
      (.ok (), endpoint.setMaxPeers limit)
  | .handshakeAttempts attempts =>
      (.ok (), endpoint.setHandshakeAttempts attempts)
  | .maxMigrationAttemptsPerPeer rate =>
      (.ok (), endpoint.setMaxMigrationAttemptsPerPeer rate)
  | .maxHandshakesPerSecond perSecond =>
      (.ok (), endpoint.setMaxHandshakesPerSecond perSecond)
  | .ticketLifetime lifetime =>
      (.ok (), endpoint.setTicketLifetime lifetime)
  | .handshakeReply payload =>
      setHandshakeReply env endpoint payload

/-- Applies what was read. -/
def take (endpoint : Endpoint ω) (receipt : Receipt) (nowMs : Nat) :
    Except Error (Option Event) × Endpoint ω :=
  match receipt with
  | .timedOut | .staleUnreachable =>
      (.ok none, endpoint)
  | .failed =>
      (.error .io, endpoint)
  | .datagram bytes addr random =>
      dispatch env endpoint bytes addr random nowMs

namespace Driver

def new (endpoint : Endpoint ω) : Driver ω where
  endpoint := endpoint
  call := .idle

/-- One step; an action that does not fit the call in progress is ignored. -/
def step (driver : Driver ω) (moment : Moment) :
    Option Reply × Driver ω :=
  let env := { env with walk := moment.walk }
  let endpoint := driver.endpoint
  let nowMs := moment.nowMs
  match driver.call, moment.action with
  | .idle, .connect addr peerPublic zeroRtt sessionId random =>
      let (result, endpoint) :=
        connectAndSend env endpoint addr peerPublic zeroRtt sessionId random
          nowMs
      (some (.connecting result), ⟨endpoint, .idle⟩)
  | .idle, .disconnect peer =>
      let (known, endpoint) := endpoint.disconnect peer
      (some (.disconnected known), ⟨endpoint, .idle⟩)
  | .idle, .send peer data payloadType =>
      let (result, endpoint) :=
        Endpoint.send env endpoint peer data payloadType nowMs
      (some (.sent result), ⟨endpoint, .idle⟩)
  | .idle, .sendReliable peer data payloadType =>
      let (result, endpoint) :=
        Endpoint.sendReliable env endpoint peer data payloadType nowMs
      (some (.sentReliable result), ⟨endpoint, .idle⟩)
  | .idle, .set setting =>
      let (result, endpoint) := Endpoint.apply env endpoint setting nowMs
      (some (.set result), ⟨endpoint, .idle⟩)
  | .idle, .poll timeout =>
      match endpoint.events with
      | event :: rest =>
          (some (.polled (.ok event)),
            ⟨{ endpoint with events := rest }, .idle⟩)
      | [] =>
          (none, ⟨endpoint, .polling (timeout.map (nowMs + ·))⟩)
  | .polling deadline, .timers keepaliveTokens probeTokens =>
      if endpoint.nextWake.any (nowMs ≥ ·) then
        match driveTimers env endpoint nowMs keepaliveTokens probeTokens with
        | (.error error, endpoint) =>
            (some (.polled (.error error)), ⟨endpoint, .idle⟩)
        | (.ok (some event), endpoint) =>
            (some (.polled (.ok event)), ⟨endpoint, .idle⟩)
        | (.ok none, endpoint) =>
            (none, ⟨endpoint, .feeding deadline⟩)
      else
        (none, ⟨endpoint, .feeding deadline⟩)
  | .feeding deadline, .queues =>
      match feedQueues env endpoint nowMs with
      | (.error error, endpoint) =>
          (some (.polled (.error error)), ⟨endpoint, .idle⟩)
      | (.ok (), endpoint) =>
          match endpoint.events with
          | event :: rest =>
              (some (.polled (.ok event)),
                ⟨{ endpoint with events := rest }, .idle⟩)
          | [] =>
              (none,
                ⟨endpoint, .reading deadline (endpoint.wait deadline nowMs)⟩)
  | .reading deadline _, .receive receipt =>
      match take env endpoint receipt nowMs with
      | (.error error, endpoint) =>
          (some (.polled (.error error)), ⟨endpoint, .idle⟩)
      | (.ok (some event), endpoint) =>
          (some (.polled (.ok event)), ⟨endpoint, .idle⟩)
      | (.ok none, endpoint) =>
          if deadline.any (nowMs ≥ ·) then
            (some (.polled (.ok .idle)), ⟨endpoint, .idle⟩)
          else
            (none, ⟨endpoint, .polling deadline⟩)
  | _, _ =>
      (none, driver)

/-- The state a step leaves. -/
def next (driver : Driver ω) (moment : Moment) : Driver ω :=
  (driver.step env moment).2

end Driver

end Endpoint

end Fectp
