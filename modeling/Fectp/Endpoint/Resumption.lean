import Fectp.Endpoint.Forgery

namespace Fectp

/-!
# What a refused resumption costs

A resumption request names its ticket in the clear, and the ticket is taken
out of the store before the request is checked against it.
-/

namespace Endpoint

variable {ω : Type*}

/-- What decodes as a frame is not taken for anything else. -/
theorem Incoming.isFrame (datagram : Incoming) :
    datagram.bytes.head? ≠ some notAFrame := by
  intro isOther
  have decoded := datagram.decoded
  unfold Header.decode at decoded
  split at decoded
  · cases decoded
  split at decoded
  · cases decoded
  next isVersion =>
  rw [List.getD_eq_getElem?_getD, ← List.head?_eq_getElem?, isOther] at isVersion
  exact isVersion (by decide)

/-- Nothing is on file for an opening frame. -/
def Incoming.IsNew (datagram : Incoming) (endpoint : Endpoint ω) : Prop :=
  (endpoint.routes.lookup (datagram.addr, datagram.header.sessionId)).bind
      endpoint.peers.lookup =
    none

variable (env : Env ω) {key : Bytes}

theorem repeatHandshake_new
    {endpoint : Endpoint ω} {datagram : Incoming} (isNew : datagram.IsNew endpoint) :
    repeatHandshake env endpoint datagram.addr datagram.header.sessionId datagram.nowMs =
      (.ok false, endpoint) := by
  unfold Incoming.IsNew at isNew
  unfold repeatHandshake
  cases routed :
      endpoint.routes.lookup (datagram.addr, datagram.header.sessionId) with
  | none => rfl
  | some peerId =>
    rw [routed, Option.bind_some] at isNew
    rw [Option.bind_some, isNew]
    rfl

/-- A resumption request that is new and within the budget is looked at. -/
theorem dispatch_resumption {endpoint : Endpoint ω} {datagram : Incoming}
    (isResume : datagram.header.frameType = .resumeInit) (isNew : datagram.IsNew endpoint)
    (may : (endpoint.mayAnswerHandshake datagram.nowMs).1 = true) :
    dispatch env endpoint datagram.bytes datagram.addr datagram.random datagram.nowMs =
      accepted (acceptResumed env
          { (endpoint.mayAnswerHandshake datagram.nowMs).2 with
            rx := datagram.bytes }
          datagram.addr datagram.random datagram.nowMs) := by
  have isNewThere : datagram.IsNew { endpoint with rx := datagram.bytes } := isNew
  unfold dispatch
  rw [if_neg datagram.isFrame, datagram.decoded]
  dsimp only
  rw [isResume]
  unfold acceptHandshake
  rw [repeatHandshake_new env isNewThere]
  unfold mayAnswerHandshake at may ⊢
  dsimp only at may ⊢
  rw [may]
  rw [isResume]

/-- Whether the request being looked at passes under a good ticket. -/
def authenticates
    (env : Env ω)
    (endpoint : Endpoint ω)
    (random : Bytes)
    (nowMs : Nat) :
    Bool :=
  match ticketId endpoint.rx with
  | .error _ =>
      false
  | .ok id =>
      (endpoint.tickets.take id nowMs).1.any fun (ticket, remoteStatic) =>
        (env.noise.respondResumed ticket remoteStatic endpoint.rx
          endpoint.handshakeReply random).isOk

/-- A request refused under the ticket it names costs only that ticket. -/
theorem acceptResumed_refused
    (endpoint : Endpoint ω) (isMode : endpoint.mode = .publicKey key) {random : Bytes} {nowMs : Nat}
    (refused : authenticates env endpoint random nowMs = false) (addr : SocketAddr) :
    (acceptResumed env endpoint addr random nowMs).2 = { endpoint with
        tickets :=
          match ticketId endpoint.rx with
          | .error _ => endpoint.tickets
          | .ok id => (endpoint.tickets.take id nowMs).2 } := by
  unfold authenticates at refused
  unfold acceptResumed
  generalize ticketId endpoint.rx = named at refused ⊢
  cases named with
  | error error => rfl
  | ok id =>
    simp only [isMode] at refused ⊢
    generalize endpoint.tickets.take id nowMs = taken at refused ⊢
    obtain ⟨found, tickets⟩ := taken
    cases found with
    | none => rfl
    | some pair =>
      dsimp only [Option.any_some] at refused ⊢
      generalize env.noise.respondResumed _ _ _ _ _ = responded at refused ⊢
      cases responded with
      | error error => rfl
      | ok session => cases refused

/-- Whether a request is accepted, and as what. -/
theorem acceptResumed_fst (endpoint : Endpoint ω) (isMode : endpoint.mode = .publicKey key)
    (addr : SocketAddr) (random : Bytes) (nowMs : Nat) :
    (acceptResumed env endpoint addr random nowMs).1 = match ticketId endpoint.rx with
      | .error error => .error (.protocol error)
      | .ok id =>
        match (endpoint.tickets.take id nowMs).1 with
        | none => .error .unknownTicket
        | some (ticket, remoteStatic) =>
          (answer env endpoint addr true (env.noise.respondResumed ticket remoteStatic endpoint.rx
              endpoint.handshakeReply random)
            nowMs).1 := by
  unfold acceptResumed
  cases ticketId endpoint.rx with
  | error error => rfl
  | ok id =>
    simp only [isMode]
    generalize endpoint.tickets.take id nowMs = taken
    obtain ⟨found, tickets⟩ := taken
    cases found with
    | none => rfl
    | some pair =>
      unfold answer
      dsimp only
      split
      · rfl
      · split <;> rfl

theorem answer_fst {first second : Endpoint ω} (socket : second.socket = first.socket)
    (nextId : second.nextId = first.nextId) (addr : SocketAddr)
    (resumed : Bool) (responded : Except Error (Session × Bytes × Bytes)) (nowMs : Nat) :
    (answer env second addr resumed responded nowMs).1 =
      (answer env first addr resumed responded nowMs).1 := by
  unfold answer register registerAs
  rw [socket, nextId]
  split
  · rfl
  · split <;> rfl

/-- From some time on the two honour the same tickets, request by request. -/
structure HonourAlike
    (env : Env ω)
    (nowMs : Nat)
    (before after : Endpoint ω) :
    Prop where
  redeemable : ∀ id laterMs,
      nowMs ≤ laterMs →
      (after.tickets.take id laterMs).1 = (before.tickets.take id laterMs).1
  accepted : ∀ request addr random laterMs,
      nowMs ≤ laterMs →
      (acceptResumed env { after with rx := request } addr random
          laterMs).1 =
        (acceptResumed env { before with rx := request } addr random laterMs).1

/-- Requests are honoured by the tickets held. -/
theorem honourAlike_of_redeemable {nowMs : Nat} {before after : Endpoint ω}
    (isMode : before.mode = .publicKey key) (mode : after.mode = before.mode)
    (socket : after.socket = before.socket) (nextId : after.nextId = before.nextId)
    (handshakeReply : after.handshakeReply = before.handshakeReply)
    (redeemable : ∀ id laterMs, nowMs ≤ laterMs →
        (after.tickets.take id laterMs).1 = (before.tickets.take id laterMs).1) :
    HonourAlike env nowMs before after where
  redeemable := redeemable
  accepted := by
    intro request addr random laterMs later
    rw [acceptResumed_fst env { after with rx := request }
        (mode.trans isMode),
      acceptResumed_fst env { before with rx := request } isMode]
    cases ticketId request with
    | error error => rfl
    | ok id =>
      dsimp only
      rw [redeemable id laterMs later, handshakeReply]
      cases (before.tickets.take id laterMs).1 with
      | none => rfl
      | some pair =>
        refine answer_fst env ?_ ?_ _ _ _ _
        · exact socket
        · exact nextId

/--
A resumption request that fails under the ticket it names leaves the tickets
as they were exactly if it names none that is good.
-/
theorem refused_resumption_spares_iff
    (env : Env ω)
    (endpoint : Endpoint ω)
    (datagram : Incoming)
    (key : Bytes)
    (isMode : endpoint.mode = .publicKey key)
    (isResume : datagram.header.frameType = .resumeInit)
    (isNew : datagram.IsNew endpoint)
    (may : (endpoint.mayAnswerHandshake datagram.nowMs).1 = true)
    (refused :
      authenticates env { endpoint with rx := datagram.bytes }
          datagram.random datagram.nowMs =
        false) :
    HonourAlike env datagram.nowMs endpoint
        (dispatch env endpoint datagram.bytes datagram.addr datagram.random
          datagram.nowMs).2 ↔
      ∀ id,
        ticketId datagram.bytes = .ok id →
        (endpoint.tickets.take id datagram.nowMs).1 = none := by
  rw [dispatch_resumption env isResume isNew may]
  dsimp only [accepted]
  rw [acceptResumed_refused env
    { (endpoint.mayAnswerHandshake datagram.nowMs).2 with
      rx := datagram.bytes }
    isMode refused]
  constructor
  · intro alike id named
    have redeemable := alike.redeemable
    rw [named] at redeemable
    exact (endpoint.tickets.take_spares_iff id datagram.nowMs).mp redeemable
  · intro unnamed
    refine honourAlike_of_redeemable env isMode rfl rfl rfl rfl ?_
    cases named : ticketId datagram.bytes with
    | error error =>
        exact fun _ _ _ => rfl
    | ok id =>
        exact (endpoint.tickets.take_spares_iff id datagram.nowMs).mpr
          (unnamed id named)

/-- A session's secret, which names the ticket it earns and keys it. -/
def smallSecret : Bytes :=
  List.replicate 8 1 ++ [7]

/-- A resumption request naming that ticket, under some key. -/
def smallRequest (sessionId : BitVec 32) (key : UInt8) : Bytes :=
  smallOpening .resumeInit sessionId (smallSecret.take 8 ++ [key])

/-- A server that has issued a ticket. -/
def smallIssuer : Endpoint Unit :=
  (dispatch smallEnv smallServer
    (smallOpening .handshakeInit 5 smallSecret) (host 1) [] 10).2

/--
Somebody who has seen a ticket's name sends a request under a wrong key.  It
is refused, and so is the holder's own afterwards, which would have been
accepted before.
-/
theorem refused_request_spends_ticket :
    let forged :=
      dispatch smallEnv smallIssuer (smallRequest 6 9) (host 2) [] 20
    let refused := dispatch smallEnv forged.2 (smallRequest 7 7) (host 1) [] 30
    let accepted :=
      dispatch smallEnv smallIssuer (smallRequest 7 7) (host 1) [] 30
    forged.1 = .ok none ∧
      (smallIssuer.tickets.take (smallSecret.take 8) 20).1.isSome = true ∧
      (forged.2.tickets.take (smallSecret.take 8) 20).1 = none ∧
      refused.1 = .ok none ∧
      accepted.1 = .ok (some (.connected 1 [] true false)) := by
  decide +kernel

/-- The request above is one that is looked at and refused. -/
theorem refused_resumption_spares_iff_of_small_request :
    ¬ HonourAlike smallEnv 20 smallIssuer
        (dispatch smallEnv smallIssuer (smallRequest 6 9) (host 2) []
          20).2 := by
  have named : ticketId (smallRequest 6 9) = .ok (smallSecret.take 8) := by
    decide +kernel
  have good : (smallIssuer.tickets.take (smallSecret.take 8) 20).1 ≠ none := by
    decide +kernel
  have spares :=
    refused_resumption_spares_iff smallEnv smallIssuer
      ⟨smallRequest 6 9, ⟨.resumeInit, 0, 6, 0⟩, host 2, [], 20,
        by decide +kernel⟩
      [] (by decide +kernel) rfl (by unfold Incoming.IsNew; decide +kernel)
      (by decide +kernel) (by decide +kernel)
  exact fun alike => good (spares.mp alike _ named)

end Endpoint

end Fectp
