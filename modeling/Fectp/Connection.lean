import Fectp.Execution
import Fectp.Pipeline
import Fectp.Pmtu

namespace Fectp

/-!
# A client connection

One peer, one socket and one caller.  A call that waits is a loop whose passes
are events of their own: `recv` and `flush` are entered, and each pass then
drives the queue and the retransmissions, works out how long to sleep, reads
at most one datagram and applies it.

Every reading of the clock is an input, in milliseconds since the connection
was made, as are the datagrams read and the random tokens.  Sending is a
closure over the caller's world.
-/

/-- Why the socket refused a datagram. -/
inductive SendFailure where
  /-- Larger than the path, as the system knows it, will take. -/
  | tooLong
  /-- An earlier datagram found nobody listening. -/
  | staleUnreachable
  | other
  deriving Repr, DecidableEq

section Sending

variable {ω : Type*}
  (send : ω → Bytes → Except SendFailure Unit × ω)

/-- A plain send: any refusal is the caller's error. -/
def sendPlain (socket : ω) (frame : Bytes) : Except Error Unit × ω :=
  match send socket frame with
  | (.ok (), socket) =>
      (.ok (), socket)
  | (.error _, socket) =>
      (.error .io, socket)

/-- Sends one frame of a reliable message; one too large counts as lost. -/
def sendFrame (socket : ω) (frame : Bytes) : Except Error Unit × ω :=
  match send socket frame with
  | (.ok (), socket) | (.error .tooLong, socket) =>
      (.ok (), socket)
  | (.error .staleUnreachable, socket) | (.error .other, socket) =>
      (.error .io, socket)

/-- Sends a frame and stamps the time if it went. -/
def sendStamped (nowMs : Nat) (world : ω × Nat) (frame : Bytes) :
    Except Error Unit × ω × Nat :=
  match sendFrame send world.1 frame with
  | (.ok (), socket) =>
      (.ok (), socket, nowMs)
  | (.error error, socket) =>
      (.error error, socket, world.2)

/-- The same, remembering whether a frame larger than the base was tried. -/
def sendWatched (nowMs : Nat) (world : (ω × Nat) × Bool) (frame : Bytes) :
    Except Error Unit × (ω × Nat) × Bool :=
  let large := world.2 || frame.length > baseDatagram
  match sendStamped send nowMs world.1 frame with
  | (result, sent) =>
      (result, sent, large)

end Sending

/-- The connection's own state: everything but the socket. -/
structure Core where
  peer : Peer
  /-- The largest datagram the transport takes, and the length of `tx`. -/
  size : Nat
  /-- Data frames read while waiting for acknowledgements. -/
  inbox : List Bytes
  readTimeout : Option Nat
  keepalive : Option Nat
  lastSentMs : Nat
  pmtu : Option Pmtu
  /-- Whether anything authenticated has arrived since the handshake. -/
  spoke : Bool
  deriving Repr, DecidableEq

/-- What a blocking read came back with. -/
inductive Reading where
  | timedOut
  | failed
  | datagram (bytes : Bytes)
  deriving Repr, DecidableEq

/-- The clock readings and other inputs of one pass. -/
structure Pass where
  /-- When the queue is driven. -/
  queueMs : Nat
  /-- When the retransmissions are. -/
  retransmitMs : Nat
  /-- When the wait is worked out. -/
  waitMs : Nat
  /-- When the read has returned. -/
  ingestMs : Nat
  keepaliveToken : Bytes
  probeTokens : List Bytes
  reading : Reading
  deriving Repr, DecidableEq

/-- How a pass stands once it has done what was due. -/
inductive Waiting where
  /-- A flush with nothing left to wait for. -/
  | finished
  /-- Reading the socket, for at most this long. -/
  | blocks (timeout : Option Nat)
  deriving Repr, DecidableEq

namespace Core

variable {ω : Type*}

/-- A fresh connection, with discovery on or off. -/
def new (session : Session) (size : Nat) (discovery : Bool) : Core where
  peer := Peer.new session
  size := size
  inbox := []
  readTimeout := none
  keepalive := none
  lastSentMs := 0
  pmtu :=
    let cap := min session.peerCaps.maxFrameSize size
    if discovery ∧ session.peerCaps.supportsPmtuProbe ∧
        cap > baseDatagram then
      some (Pmtu.new cap 0)
    else
      none
  spoke := false

/-- The largest datagram to send now. -/
def limit (core : Core) : Nat :=
  core.pmtu.elim core.size Pmtu.current

/-- How long to wait for a probe's answer before asking again. -/
def probeRetry (core : Core) : Nat :=
  core.peer.retransmit.rtoMs

/-- When the next keep-alive is due, if any. -/
def keepaliveDueMs (core : Core) : Option Nat :=
  core.keepalive.map (saturatingAdd 64 core.lastSentMs ·)

/-- How long until a probe is next due, if one will be. -/
def pmtuDueIn (core : Core) (nowMs : Nat) : Option Nat :=
  if !core.spoke then
    none
  else
    (core.pmtu.bind (·.nextDeadline core.probeRetry)).map (· - nowMs)

section Calls

variable (suite : Suite)
  (send : ω → Bytes → Except SendFailure Unit × ω)

/-- Hands a sealed frame to the socket, remembering when. -/
def transmit (core : Core) (frame : Bytes) (nowMs : Nat) (socket : ω) :
    Except Error Unit × Core × ω :=
  match sendPlain send socket frame with
  | (.error error, socket) =>
      (.error error, core, socket)
  | (.ok (), socket) =>
      (.ok (), { core with lastSentMs := nowMs }, socket)

/-- Seals a payload and hands it to the socket. -/
def sealAndTransmit
    (core : Core)
    (outgoing : Outgoing)
    (nowMs : Nat)
    (socket : ω) :
    Except Error Unit × Core × ω :=
  let sealing := core.peer.toSealing
  match sealing.sealPayload suite outgoing core.size with
  | (.error error, sealing) =>
      (.error error,
        { core with peer := { core.peer with toSealing := sealing } },
        socket)
  | (.ok frame, sealing) =>
      transmit send
        { core with peer := { core.peer with toSealing := sealing } }
        frame nowMs socket

/-- Sends `data` as one unreliable datagram. -/
def sendOne
    (core : Core)
    (data : Bytes)
    (payloadType : PayloadType)
    (nowMs : Nat)
    (socket : ω) :
    Except Error Unit × Core × ω :=
  core.sealAndTransmit suite send ⟨data, payloadType, none, none, core.limit⟩
    nowMs socket

/-- Sends one reliable frame, for a payload that fits in one. -/
def sendOneReliable
    (core : Core)
    (data : Bytes)
    (payloadType : PayloadType)
    (nowMs : Nat)
    (socket : ω) :
    Except Error Unit × Core × ω :=
  if !core.peer.session.peerCaps.supportsReliable then
    (.error .reliabilityUnsupported, core, socket)
  else
    match core.peer.retransmit.register nowMs with
    | .error error =>
        (.error (.protocol error), core, socket)
    | .ok (id, retransmit) =>
        let core :=
          { core with peer := { core.peer with retransmit := retransmit } }
        let pending : Pending := ⟨id, payloadType, data, none, core.limit⟩
        match core.sealAndTransmit suite send pending.outgoing nowMs socket with
        | (.error error, core, socket) =>
            (.error error, core, socket)
        | (.ok (), core, socket) =>
            (.ok (),
              { core with
                peer :=
                  { core.peer with
                    pending := core.peer.pending ++ [pending] } },
              socket)

/-- Feeds whatever is queued into the free part of the send window. -/
def driveQueue (core : Core) (nowMs : Nat) (socket : ω) :
    Except Error Unit × Core × ω :=
  let (result, peer, socket, stamp) :=
    core.peer.driveQueue suite nowMs core.size (sendStamped send nowMs)
      (socket, core.lastSentMs)
  (result.map fun _ => (),
    { core with peer := peer, lastSentMs := stamp }, socket)

/-- Sends `data` reliably, splitting it if one frame does not hold it. -/
def sendReliable
    (core : Core)
    (data : Bytes)
    (payloadType : PayloadType)
    (nowMs : Nat)
    (socket : ω) :
    Except Error Unit × Core × ω :=
  if data.length ≤ core.peer.payloadRoom core.limit true false then
    core.sendOneReliable suite send data payloadType nowMs socket
  else
    match core.peer.queueMessage data payloadType core.limit with
    | (.error error, peer) =>
        (.error error, { core with peer := peer }, socket)
    | (.ok (), peer) =>
        ({ core with peer := peer } : Core).driveQueue suite send nowMs socket

/-- Resends what has timed out and drops what has run out of retries. -/
def driveRetransmits (core : Core) (nowMs : Nat) (socket : ω) :
    Except Error Unit × Core × ω :=
  let (result, peer, (socket, stamp), large) :=
    core.peer.driveRetransmits suite nowMs core.size
      (sendWatched send nowMs) ((socket, core.lastSentMs), false)
  let core := { core with peer := peer, lastSentMs := stamp }
  match result with
  | .error error =>
      (.error error, core, socket)
  | .ok () =>
      (.ok (),
        if large then
          { core with pmtu := core.pmtu.map (·.suspect nowMs) }
        else
          core,
        socket)

/-- Sends a frame whose only purpose is to have been sent. -/
def sendKeepalive (core : Core) (token : Bytes) (nowMs : Nat) (socket : ω) :
    Except Error Unit × Core × ω :=
  match core.peer.session.sealPathChallenge suite.aead token core.size with
  | (.error error, session) =>
      (.error (.protocol error),
        { core with peer := { core.peer with session := session } },
        socket)
  | (.ok frame, session) =>
      transmit send
        { core with peer := { core.peer with session := session } }
        frame nowMs socket

/-- Sends a keep-alive if it has been too long since anything was said. -/
def keepAlive (core : Core) (token : Bytes) (nowMs : Nat) (socket : ω) :
    Except Error Unit × Core × ω :=
  if core.keepaliveDueMs.any (nowMs ≥ ·) then
    core.sendKeepalive suite send token nowMs socket
  else
    (.ok (), core, socket)

/-- Sends one probe; one that cannot be sent goes unanswered. -/
def sendProbe (nowMs : Nat) (state : Core × ω) (probe : ProbeSend) :
    Core × ω :=
  let (core, socket) := state
  match core.peer.session.sealPathProbe suite.aead probe.token probe.size
      core.size with
  | (.error _, session) =>
      ({ core with peer := { core.peer with session := session } }, socket)
  | (.ok frame, session) =>
      let core := { core with peer := { core.peer with session := session } }
      match send socket frame with
      | (.ok (), socket) =>
          ({ core with lastSentMs := nowMs }, socket)
      | (.error _, socket) =>
          (core, socket)

/-- Sends whatever path MTU probes are due. -/
def drivePmtu (core : Core) (tokens : List Bytes) (nowMs : Nat) (socket : ω) :
    Core × ω :=
  if !core.spoke then
    (core, socket)
  else
    match core.pmtu with
    | none =>
        (core, socket)
    | some pmtu =>
        let (probes, pmtu) := pmtu.due nowMs core.probeRetry tokens
        probes.foldl (sendProbe suite send nowMs)
          ({ core with pmtu := some pmtu }, socket)

/-- The earliest of the four things worth waking for. -/
def wait (core : Core) (deadline : Option Nat) (nowMs : Nat) : Option Nat :=
  ((core.peer.retransmit.nextDeadlineMs.map (· - nowMs)).toList ++
    (deadline.map (· - nowMs)).toList ++
    (core.keepaliveDueMs.map (· - nowMs)).toList ++
    (core.pmtuDueIn nowMs).toList).min?

/-- Nothing is in flight and nothing is queued. -/
def drained (core : Core) : Bool :=
  core.peer.retransmit.inFlight == 0 && core.peer.queue.isEmpty

/-- A pass up to the read: what is due is done, and the wait worked out. -/
def prepare
    (core : Core)
    (deadline : Option Nat)
    (flushing : Bool)
    (pass : Pass)
    (socket : ω) :
    Except Error Waiting × Core × ω :=
  match core.driveQueue suite send pass.queueMs socket with
  | (.error error, core, socket) =>
      (.error error, core, socket)
  | (.ok (), core, socket) =>
      match core.driveRetransmits suite send pass.retransmitMs socket with
      | (.error error, core, socket) =>
          (.error error, core, socket)
      | (.ok (), core, socket) =>
          if flushing && core.drained then
            (.ok .finished, core, socket)
          else
            match core.keepAlive suite send pass.keepaliveToken pass.waitMs
                socket with
            | (.error error, core, socket) =>
                (.error error, core, socket)
            | (.ok (), core, socket) =>
                let (core, socket) :=
                  core.drivePmtu suite send pass.probeTokens pass.waitMs socket
                -- A zero timeout would mean blocking for ever.
                (.ok (.blocks
                    ((core.wait deadline pass.waitMs).map (max · 1))),
                  core, socket)

/-- What the caller of a pass is given: `outLen` is its buffer, if any. -/
def hand
    (core : Core)
    (outLen : Option Nat)
    (body : Bytes)
    (ingested : Ingested) :
    Except Error (Option Bytes) × Core :=
  match ingested, outLen with
  | .rejected, _ | .nothing, _ | .pathValidated _, _ =>
      (.ok none, core)
  | .message whole, some outLen =>
      if outLen < whole.length then
        (.error (.payloadTooLarge whole.length outLen), core)
      else
        (.ok (some whole), core)
  | .message whole, none =>
      (.ok none, { core with inbox := core.inbox ++ [whole] })
  | .data _ compressed, some outLen =>
      ((Peer.deliverInto suite.codec body compressed outLen).map some, core)
  | .data _ compressed, none =>
      match Peer.deliver suite.codec body compressed with
      | .error error =>
          (.error error, core)
      | .ok data =>
          (.ok none, { core with inbox := core.inbox ++ [data] })

/-- Applies one datagram. -/
def apply
    (core : Core)
    (outLen : Option Nat)
    (frame : Bytes)
    (nowMs : Nat)
    (socket : ω) :
    Except Error (Option Bytes) × Core × ω :=
  match core.peer.ingest suite frame nowMs core.size with
  | (.error error, _, _, peer) =>
      (.error error, { core with peer := peer }, socket)
  | (.ok ingested, reply, buffer, peer) =>
      let core := { core with peer := peer }
      let (sent, socket) : Except Error Unit × ω :=
        if reply.isEmpty then (.ok (), socket)
        else sendPlain send socket reply
      match sent with
      | .error error =>
          (.error error, core, socket)
      | .ok () =>
          let core :=
            { core with
              spoke := core.spoke || ingested != Ingested.rejected
              pmtu :=
                match ingested with
                | .pathValidated token =>
                    core.pmtu.map fun pmtu =>
                      (Pmtu.answered pmtu token nowMs).2
                | _ =>
                    core.pmtu }
          let len :=
            match ingested with
            | .data len _ =>
                len
            | _ =>
                0
          let (result, core) :=
            core.hand suite outLen ((buffer.drop headerLen).take len) ingested
          (result, core, socket)

/-- Reads one datagram and applies it, driving retransmission on the way. -/
def pump
    (core : Core)
    (deadline : Option Nat)
    (outLen : Option Nat)
    (pass : Pass)
    (socket : ω) :
    Except Error (Option Bytes) × Core × ω :=
  match core.prepare suite send deadline outLen.isNone pass socket with
  | (.error error, core, socket) =>
      (.error error, core, socket)
  | (.ok .finished, core, socket) =>
      (.ok none, core, socket)
  | (.ok (.blocks _), core, socket) =>
      match pass.reading with
      | .timedOut =>
          (.ok none, core, socket)
      | .failed =>
          (.error .io, core, socket)
      | .datagram bytes =>
          core.apply suite send outLen bytes pass.ingestMs socket

/--
A pass of `flush` up to its pumping: the queue is driven and the loop's two
exits are tried.
-/
def tryFlush (core : Core) (deadline driveMs checkMs : Nat) (socket : ω) :
    Option (Except Error Unit) × Core × ω :=
  match core.driveQueue suite send driveMs socket with
  | (.error error, core, socket) =>
      (some (.error error), core, socket)
  | (.ok (), core, socket) =>
      if core.drained then
        if core.peer.abandonedCount > 0 then
          (some (.error (.unacknowledged core.peer.abandonedCount)), core,
            socket)
        else
          (some (.ok ()), core, socket)
      else if checkMs ≥ deadline then
        (some (.error (.unacknowledged
            (core.peer.retransmit.inFlight + core.peer.abandonedCount))),
          core, socket)
      else
        (none, core, socket)

end Calls

/-! ### What the calls do to the outbox -/

section Outbox

variable (suite : Suite)
  (send : ω → Bytes → Except SendFailure Unit × ω)

variable (core : Core) {socket : ω}

/-- A keep-alive changes nothing of the outbox. -/
theorem keepAlive_outbox (token : Bytes) (nowMs : Nat) (socket : ω) :
    (core.keepAlive suite send token nowMs socket).2.1.peer.toOutbox =
      core.peer.toOutbox := by
  unfold keepAlive
  split
  · unfold sendKeepalive
    split
    · rfl
    · unfold transmit
      split <;> rfl
  · rfl

/-- Nor do probes. -/
theorem drivePmtu_outbox (tokens : List Bytes) (nowMs : Nat) (socket : ω) :
    (core.drivePmtu suite send tokens nowMs socket).1.peer.toOutbox =
      core.peer.toOutbox := by
  have folded : ∀ (probes : List ProbeSend) (state : Core × ω),
        (probes.foldl (sendProbe suite send nowMs)
            state).1.peer.toOutbox =
          state.1.peer.toOutbox := by
    intro probes
    induction probes with
    | nil =>
      intro state
      rfl
    | cons probe rest inductionHypothesis =>
      intro state
      rw [List.foldl_cons, inductionHypothesis]
      unfold sendProbe
      dsimp only
      split
      · rfl
      · split <;> rfl
  unfold drivePmtu
  split
  · rfl
  · split
    · rfl
    · exact folded _ _

theorem driveRetransmits_outbox (nowMs : Nat) (socket : ω) :
    (core.driveRetransmits suite send nowMs socket).2.1.peer.toOutbox =
      (core.peer.toOutbox.driveRetransmits
        (Sealing.emit suite core.size (sendWatched send nowMs)) nowMs
        (core.peer.toSealing, (socket, core.lastSentMs), false)).2.1 := by
  unfold driveRetransmits
  dsimp only
  split
  · rfl
  · split <;> rfl

/-- A pass up to its read drives the queue, and then what is in flight. -/
theorem prepare_outbox (deadline : Option Nat) (flushing : Bool) (pass : Pass) (socket : ω) :
    (core.prepare suite send deadline flushing pass socket).2.1.peer.toOutbox =
      match core.driveQueue suite send pass.queueMs socket with
      | (.error _, driven, _) => driven.peer.toOutbox
      | (.ok (), driven, between) =>
        (driven.driveRetransmits suite send pass.retransmitMs between).2.1.peer.toOutbox := by
  unfold prepare
  rcases core.driveQueue suite send pass.queueMs socket with
    ⟨error | _, driven, between⟩
  · rfl
  rcases resends :
      driven.driveRetransmits suite send pass.retransmitMs between with
    ⟨error | _, resent, between'⟩
  · simp only [resends]
  · simp only [resends]
    split
    · rfl
    have spoken :=
      resent.keepAlive_outbox suite send pass.keepaliveToken pass.waitMs between'
    split
    · next keeps =>
        rw [keeps] at spoken
        exact spoken
    next kept between'' keeps =>
    rw [keeps] at spoken
    exact (kept.drivePmtu_outbox suite send _ _ _).trans spoken

/-- A datagram applied changes the outbox as an acknowledgement, if at all. -/
theorem apply_outbox (outLen : Option Nat) (frame : Bytes) (nowMs : Nat) (socket : ω) :
    (core.apply suite send outLen frame nowMs socket).2.1.peer.toOutbox = core.peer.toOutbox ∨
      ∃ ack, (core.apply suite send outLen frame nowMs socket).2.1.peer.toOutbox =
          core.peer.toOutbox.applyAck ack nowMs := by
  have ingested :=
    (core.peer.ingest_outbox suite frame nowMs core.size).imp id
      fun ⟨_, ack, _, _, applied⟩ => Exists.intro ack applied
  unfold apply
  split
  · next ingests =>
      rw [ingests] at ingested
      exact ingested
  next kind reply buffer peer ingests =>
  rw [ingests] at ingested
  dsimp only
  split
  · exact ingested
  have handed : ∀ (core : Core) (body : Bytes),
        (core.hand suite outLen body kind).2.peer = core.peer := by
    intro core body
    unfold hand
    split <;> try rfl
    · split <;> rfl
    · split <;> rfl
  simp only [handed]
  exact ingested

/-- Reading a datagram changes no more than applying it does. -/
theorem pump_outbox (deadline : Option Nat) (outLen : Option Nat) (pass : Pass) (socket : ω) :
    let prepared := (core.prepare suite send deadline outLen.isNone pass socket).2.1
    let pumped := (core.pump suite send deadline outLen pass socket).2.1
    pumped.peer.toOutbox = prepared.peer.toOutbox ∨
      ∃ ack, pumped.peer.toOutbox = prepared.peer.toOutbox.applyAck ack pass.ingestMs := by
  unfold pump
  rcases core.prepare suite send deadline outLen.isNone pass socket with
    ⟨error | waiting, prepared, between⟩
  · exact Or.inl rfl
  cases waiting with
  | finished => exact Or.inl rfl
  | blocks timeout =>
    cases pass.reading with
    | timedOut => exact Or.inl rfl
    | failed => exact Or.inl rfl
    | datagram bytes => exact prepared.apply_outbox suite send outLen bytes pass.ingestMs between

/-- A pass that did not fail drove the queue and the retransmissions. -/
theorem prepare_ok {core : Core} {deadline : Option Nat} {flushing : Bool} {pass : Pass}
    (succeeded : (core.prepare suite send deadline flushing pass socket).1.isOk = true) :
    ∃ driven between, core.driveQueue suite send pass.queueMs socket = (.ok (), driven, between) ∧
        (driven.driveRetransmits suite send pass.retransmitMs between).1 = .ok () := by
  unfold prepare at succeeded
  rcases drives : core.driveQueue suite send pass.queueMs socket with
    ⟨error | _, driven, between⟩
  · rw [drives] at succeeded
    cases succeeded
  rw [drives] at succeeded
  refine ⟨driven, between, rfl, ?_⟩
  rcases resends :
      driven.driveRetransmits suite send pass.retransmitMs between with
    ⟨error | _, resent, between'⟩
  · simp only [resends] at succeeded
    cases succeeded
  · rfl

theorem pump_ok {core : Core} {deadline : Option Nat} {outLen : Option Nat} {pass : Pass}
    (succeeded : (core.pump suite send deadline outLen pass socket).1.isOk = true) :
    (core.prepare suite send deadline outLen.isNone pass socket).1.isOk =
      true := by
  unfold pump at succeeded
  split at succeeded
  · cases succeeded
  · next prepared =>
      rw [prepared]
      rfl
  next prepared =>
  rw [prepared]
  rfl

theorem driveRetransmits_result (nowMs : Nat) (socket : ω) :
    (core.driveRetransmits suite send nowMs socket).1 = (core.peer.toOutbox.driveRetransmits
        (Sealing.emit suite core.size (sendWatched send nowMs)) nowMs
        (core.peer.toSealing, (socket, core.lastSentMs), false)).1 := by
  unfold driveRetransmits
  dsimp only
  split
  · next failed => exact failed.symm
  · next succeeded => exact succeeded.symm

theorem sealAndTransmit_outbox (outgoing : Outgoing) (nowMs : Nat) (socket : ω) :
    (core.sealAndTransmit suite send outgoing nowMs
        socket).2.1.peer.toOutbox = core.peer.toOutbox := by
  unfold sealAndTransmit
  dsimp only
  split
  · rfl
  · unfold transmit
    split <;> rfl

/--
A message of one frame is refused with nothing changed, or registered; and
once registered it is kept to be resent only if it went out.
-/
theorem sendOneReliable_cases {core after : Core} {data : Bytes} {payloadType : PayloadType}
    {nowMs : Nat} {socket' : ω} {result : Except Error Unit}
    (sends : core.sendOneReliable suite send data payloadType nowMs socket =
        (result, after, socket')) :
    ((core.peer.session.peerCaps.supportsReliable = false ∨
          (core.peer.retransmit.register nowMs).isOk = false) ∧
        after.peer.toOutbox = core.peer.toOutbox) ∨
      ∃ id retransmit, core.peer.session.peerCaps.supportsReliable = true ∧
          core.peer.retransmit.register nowMs = .ok (id, retransmit) ∧
          ((result.isOk = false ∧
              after.peer.toOutbox = { core.peer.toOutbox with retransmit := retransmit }) ∨
            (result.isOk = true ∧ after.peer.toOutbox =
                { core.peer.toOutbox with
                  retransmit := retransmit
                  pending :=
                    core.peer.pending ++ [⟨id, payloadType, data, none, core.limit⟩] })) := by
  unfold sendOneReliable at sends
  split at sends
  · next unsupported =>
      cases sends
      exact Or.inl ⟨Or.inl (Bool.not_eq_true' _ ▸ unsupported), rfl⟩
  · next supported =>
    rw [Bool.not_eq_true', Bool.not_eq_false] at supported
    split at sends
    · next refused =>
        cases sends
        rw [refused]
        exact Or.inl ⟨Or.inr rfl, rfl⟩
    next id retransmit registered =>
    refine Or.inr ⟨id, retransmit, supported, registered, ?_⟩
    dsimp only at sends
    split at sends
    · next failed =>
        cases sends
        have unchanged :=
          (congrArg (·.2.1.peer.toOutbox) failed).symm.trans
            (sealAndTransmit_outbox suite send _ _ _ _)
        exact Or.inl ⟨rfl, unchanged⟩
    next sent _ went =>
    cases sends
    have unchanged : sent.peer.toOutbox = _ :=
      (congrArg (·.2.1.peer.toOutbox) went).symm.trans
        (sealAndTransmit_outbox suite send _ _ _ _)
    refine Or.inr ⟨rfl, ?_⟩
    simp only [unchanged]
    rfl

/-- How the first half of a pass of `flush` may come out. -/
theorem tryFlush_cases {core after : Core} {deadline driveMs checkMs : Nat} {socket' : ω}
    {verdict : Option (Except Error Unit)}
    (tries : core.tryFlush suite send deadline driveMs checkMs socket = (verdict, after, socket')) :
    (∃ error, verdict = some (.error error) ∧
          core.driveQueue suite send driveMs socket = (.error error, after, socket')) ∨
      core.driveQueue suite send driveMs socket = (.ok (), after, socket') ∧ (verdict = none ∨
          (∃ count, verdict = some (.error (.unacknowledged count))) ∨
          (verdict = some (.ok ()) ∧ after.drained = true ∧ after.peer.abandonedCount = 0)) := by
  unfold tryFlush at tries
  split at tries
  · next drives =>
      cases tries
      exact Or.inl ⟨_, rfl, drives⟩
  next drives =>
  split at tries
  · next drained =>
      split at tries
      · cases tries
        exact Or.inr ⟨drives, Or.inr (Or.inl ⟨_, rfl⟩)⟩
      next uncounted =>
      cases tries
      exact Or.inr ⟨drives, Or.inr (Or.inr
        ⟨rfl, drained, Nat.eq_zero_of_not_pos uncounted⟩)⟩
  · split at tries
    · cases tries
      exact Or.inr ⟨drives, Or.inr (Or.inl ⟨_, rfl⟩)⟩
    · cases tries
      exact Or.inr ⟨drives, Or.inl rfl⟩

end Outbox

end Core

/-- The call the one thread is in. -/
inductive Call where
  | idle
  | receiving (deadline : Option Nat) (outLen : Nat)
  | flushing (deadline : Nat)
  deriving Repr, DecidableEq

/-- What a call comes back with. -/
inductive Reply where
  | sent (result : Except Error Unit)
  | sentReliable (result : Except Error Unit)
  | received (result : Except Error Bytes)
  | flushed (result : Except Error Unit)
  deriving DecidableEq

/-- A connection, its socket and the call in progress. -/
structure Connection (ω : Type*) where
  core : Core
  socket : ω
  call : Call

namespace Connection

variable {ω : Type*}

/-- A call is made, or a pass of the one in progress is run. -/
inductive Event where
  | send (data : Bytes) (payloadType : PayloadType) (nowMs : Nat)
  | sendReliable (data : Bytes) (payloadType : PayloadType) (nowMs : Nat)
  | recv (outLen nowMs : Nat)
  | flush (timeout nowMs : Nat)
  /-- A pass of `recv`, and when it looks at its own deadline. -/
  | receivePass (pass : Pass) (checkMs : Nat)
  /-- A pass of `flush`, which drives the queue and looks first. -/
  | flushPass (driveMs checkMs : Nat) (pass : Pass)
  deriving Repr, DecidableEq

def new (core : Core) (socket : ω) : Connection ω where
  core := core
  socket := socket
  call := .idle

section Step

variable (suite : Suite)
  (send : ω → Bytes → Except SendFailure Unit × ω)

/-- One event; an event that does not fit the call in progress is ignored. -/
def step (connection : Connection ω) (event : Event) :
    Option Reply × Connection ω :=
  match connection.call, event with
  | .idle, .send data payloadType nowMs =>
      let (result, core, socket) :=
        connection.core.sendOne suite send data payloadType nowMs
          connection.socket
      (some (.sent result), ⟨core, socket, .idle⟩)
  | .idle, .sendReliable data payloadType nowMs =>
      let (result, core, socket) :=
        connection.core.sendReliable suite send data payloadType nowMs
          connection.socket
      (some (.sentReliable result), ⟨core, socket, .idle⟩)
  | .idle, .recv outLen nowMs =>
      match connection.core.inbox with
      | message :: rest =>
          (some (.received
              (Peer.deliverInto suite.codec message false outLen)),
            { connection with
              core := { connection.core with inbox := rest } })
      | [] =>
          (none,
            { connection with
              call :=
                .receiving (connection.core.readTimeout.map (nowMs + ·))
                  outLen })
  | .idle, .flush timeout nowMs =>
      let peer := { connection.core.peer with abandonedCount := 0 }
      (none,
        { connection with
          core := { connection.core with peer := peer }
          call := .flushing (nowMs + timeout) })
  | .receiving deadline outLen, .receivePass pass checkMs =>
      match connection.core.pump suite send deadline (some outLen) pass
          connection.socket with
      | (.error error, core, socket) =>
          (some (.received (.error error)), ⟨core, socket, .idle⟩)
      | (.ok (some data), core, socket) =>
          (some (.received (.ok data)), ⟨core, socket, .idle⟩)
      | (.ok none, core, socket) =>
          if deadline.any (checkMs ≥ ·) then
            (some (.received (.error .io)), ⟨core, socket, .idle⟩)
          else
            (none, ⟨core, socket, connection.call⟩)
  | .flushing deadline, .flushPass driveMs checkMs pass =>
      match connection.core.tryFlush suite send deadline driveMs checkMs
          connection.socket with
      | (some result, core, socket) =>
          (some (.flushed result), ⟨core, socket, .idle⟩)
      | (none, core, socket) =>
          match core.pump suite send (some deadline) none pass socket with
          | (.error error, core, socket) =>
              (some (.flushed (.error error)), ⟨core, socket, .idle⟩)
          | (.ok _, core, socket) =>
              (none, ⟨core, socket, connection.call⟩)
  | _, _ =>
      (none, connection)

/-- The state an event leaves. -/
def next (connection : Connection ω) (event : Event) : Connection ω :=
  (connection.step suite send event).2

end Step

end Connection

end Fectp
