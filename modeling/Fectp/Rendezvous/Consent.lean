import Fectp.Endpoint.Forgery
import Fectp.Execution
import Fectp.Rendezvous.Steps

namespace Fectp

/-!
# Both must ask

Consent is kept by key, with the time it was given, while sessions come and go
under the keys.  Every request on the books was made by a session registered
under its key, and its pair has not been introduced since; every introduction
on the books was made.
-/

namespace Rendezvous

variable {ω : Type*} (env : Env ω)

/-- A rendezvous after a run. -/
def serving (key : Key) (socket : ω) (moments : List Moment) : Rendezvous ω :=
  Execution.run (next env) (bind env key socket) moments

/-- The request to be introduced a step takes, if it takes one. -/
def request? (rendezvous : Rendezvous ω) (moment : Moment) :
    Option (PeerId × Key × Key) :=
  match event? env rendezvous moment with
  | some (.message peer data) =>
      match Control.decode data, rendezvous.clients.lookup peer with
      | some (.introduce target), some client =>
          some (peer, client.key, target)
      | _, _ =>
          none
  | _ =>
      none

/-- In this step a session registered under a key asks for another key. -/
def AsksFor
    (rendezvous : Rendezvous ω)
    (moment : Moment)
    (asker target : Key) : Prop :=
  ∃ peer, request? env rendezvous moment = some (peer, asker, target)

/-- In this step two keys are introduced to one another. -/
def Introduces
    (rendezvous : Rendezvous ω)
    (moment : Moment)
    (first second : Key) : Prop :=
  let keys := (next env rendezvous moment).introductions.map Prod.snd
  keys = [first, second] ∨ keys = [second, first]

/-- What the books say of the past. -/
structure Accounts
    (start : Rendezvous ω)
    (past : List Moment)
    (rendezvous : Rendezvous ω) :
    Prop where
  listed : rendezvous.Listed
  asked : ∀ {asker target since},
      rendezvous.asked.lookup (asker, target) = some since →
      Execution.Since (next env)
        (fun rendezvous moment =>
          AsksFor env rendezvous moment asker target ∧ moment.nowMs = since)
        (fun rendezvous moment =>
          ¬ Introduces env rendezvous moment asker target)
        start past
  introduced : ∀ {first second since},
      rendezvous.introduced.lookup (first, second) = some since →
      Execution.Since (next env)
        (fun rendezvous moment =>
          Introduces env rendezvous moment first second ∧ moment.nowMs = since)
        (fun _ _ => True)
        start past

variable {env}

variable {rendezvous start : Rendezvous ω} {moment : Moment}
  {past : List Moment}

theorem request_of_takes {event : Event} {peer : PeerId} {client : Client} {target : Key}
    (happens : event? env rendezvous moment = some event)
    (takes : Takes { rendezvous with record := [] } event peer client (.introduce target)) :
    request? env rendezvous moment = some (peer, client.key, target) := by
  obtain ⟨data, rfl, decodes, isClient⟩ := takes
  unfold request?
  rw [happens]
  dsimp only
  rw [decodes, isClient]

theorem Introduces.symm
    {first second : Key} (introduces : Introduces env rendezvous moment first second) :
    Introduces env rendezvous moment second first :=
  Or.symm introduces

/-- With nothing given out, nobody is introduced. -/
theorem not_introduces
    (nothing : (next env rendezvous moment).introductions = []) (first second : Key) :
    ¬ Introduces env rendezvous moment first second := by
  unfold Introduces
  rw [nothing]
  rintro (same | same) <;> cases same

/-- Accounts go on if what is new on the books is from this step. -/
theorem Accounts.extend (reached : Execution.run (next env) start past = rendezvous)
    (accounts : Accounts env start past rendezvous) (listed : (next env rendezvous moment).Listed)
    (asked : ∀ {asker target since},
        (next env rendezvous moment).asked.lookup (asker, target) = some since →
        ¬ Introduces env rendezvous moment asker target ∧
          (AsksFor env rendezvous moment asker target ∧ moment.nowMs = since ∨
            rendezvous.asked.lookup (asker, target) = some since))
    (introduced : ∀ {first second since},
        (next env rendezvous moment).introduced.lookup (first, second) = some since →
        Introduces env rendezvous moment first second ∧ moment.nowMs = since ∨
          rendezvous.introduced.lookup (first, second) = some since) :
    Accounts env start (past ++ [moment]) (next env rendezvous moment) := by
  subst reached
  refine ⟨listed, ?_, ?_⟩
  · intro asker target since found
    obtain ⟨apart, asks | older⟩ := asked found
    · exact Execution.since_last asks apart
    · exact (accounts.asked older).extend apart
  · intro first second since found
    rcases introduced found with introduces | older
    · exact Execution.since_last introduces trivial
    · exact (accounts.introduced older).extend trivial

theorem Accounts.next (reached : Execution.run (next env) start past = rendezvous)
    (accounts : Accounts env start past rendezvous) :
    Accounts env start (past ++ [moment]) (Rendezvous.next env rendezvous moment) := by
  have ofQuiet
      (kept : Quiet { rendezvous with record := [] } (Rendezvous.next env rendezvous moment)) :
      Accounts env start (past ++ [moment]) (Rendezvous.next env rendezvous moment) :=
    accounts.extend reached (kept.listed accounts.listed) (fun found =>
        ⟨not_introduces kept.introductions _ _, Or.inr (kept.asked found)⟩)
      (fun found => Or.inr (kept.introduced found))
  rcases next_cases env rendezvous moment with
    kept | ⟨event, happens, settled⟩
  · exact ofQuiet kept
  cases settled with
  | quiet kept => exact ofQuiet kept
  | waits takes kept =>
    refine accounts.extend reached (kept.listed accounts.listed) ?_
      (fun found => Or.inr (kept.introduced found))
    intro asker target since found
    refine ⟨not_introduces kept.introductions _ _, ?_⟩
    rcases Table.found_of_insert (kept.asked found) with
      ⟨same, rfl⟩ | ⟨_, older⟩
    · cases same
      exact Or.inl ⟨⟨_, request_of_takes happens takes⟩, rfl⟩
    · exact Or.inr older
  | @introduces peer other client target _ _ _ _ _ _ _ asked introduced
      listed introductions _ =>
      have keys : (Rendezvous.next env rendezvous moment).introductions.map Prod.snd =
            [target, client.key] := by
        rw [introductions]
        rfl
      refine accounts.extend reached (listed accounts.listed) ?_ ?_
      · intro asker about since found
        obtain ⟨apart, older⟩ := asked found
        refine ⟨?_, Or.inr older⟩
        unfold Introduces
        rw [keys]
        rintro (same | same) <;> cases same
        · exact apart (Or.inr rfl)
        · exact apart (Or.inl rfl)
      · intro first second since found
        rcases introduced found with ⟨isPair, rfl⟩ | older
        · left
          refine ⟨?_, rfl⟩
          unfold Introduces
          rw [keys]
          rcases pair_isPair client.key target with this | this <;>
            rw [this] at isPair <;> cases isPair
          · exact Or.inr rfl
          · exact Or.inl rfl
        · exact Or.inr older
  | offers _ _ asked introduced listed introductions _ _ =>
    exact accounts.extend reached (listed accounts.listed) (fun found =>
        ⟨not_introduces introductions _ _, Or.inr (asked found)⟩)
      (fun found => Or.inr (introduced found))

/-- A pair on the books was introduced, whichever of the two comes first. -/
theorem Accounts.of_pair (accounts : Accounts env start past rendezvous) {between : Pair}
    {first second : Key} {since : Nat} (found : rendezvous.introduced.lookup between = some since)
    (isPair : IsPair between first second) :
    Execution.Since (Rendezvous.next env) (fun rendezvous moment =>
        Introduces env rendezvous moment first second ∧ moment.nowMs = since)
      (fun _ _ => True)
      start past := by
  rcases isPair with rfl | rfl
  · exact accounts.introduced found
  · exact (accounts.introduced found).mono fun _ _ introduces =>
      ⟨introduces.1.symm, introduces.2⟩

theorem serving_accounts (env : Env ω) (key : Key) (socket : ω) (moments : List Moment) :
    Accounts env (bind env key socket) moments (serving env key socket moments) := by
  refine Execution.invariant_of_past ?_ (fun accounts => ?_) moments
  · exact ⟨nofun, nofun, nofun⟩
  · exact accounts.next rfl

/--
Introductions go out in pairs, to the sessions registered under two keys, the
one of which asks for the other in this step.  The other key's holder asked
for it no longer ago than the window, from the session registered under it
then, and the two were not introduced since.  Relays are offered only between
keys introduced no longer ago than the relay window.
-/
theorem both_ask
    (env : Env ω)
    (key : Key)
    (socket : ω)
    (earlier : List Moment)
    (moment : Moment) :
    let start := bind env key socket
    let before := serving env key socket earlier
    let after := next env before moment
    (after.introductions = [] ∨
        ∃ peer other asker target,
          after.introductions = [(peer, target), (other, asker)] ∧
            before.byKey.lookup asker = some peer ∧
            before.byKey.lookup target = some other ∧
            request? env before moment = some (peer, asker, target) ∧
            before.policy asker target = true ∧
            Execution.Since (next env)
              (fun rendezvous request =>
                AsksFor env rendezvous request target asker ∧
                  moment.nowMs - request.nowMs ≤ before.window)
              (fun rendezvous between =>
                ¬ Introduces env rendezvous between target asker)
              start earlier) ∧
      ∀ offered ∈ after.offers,
        ∃ holder,
          before.byKey.lookup holder = some offered.1 ∧
            Execution.Since (next env)
              (fun rendezvous introduction =>
                Introduces env rendezvous introduction holder offered.2 ∧
                  moment.nowMs - introduction.nowMs ≤ relayWindow)
              (fun _ _ => True)
              start earlier := by
  intro start before after
  have accounts := serving_accounts env key socket earlier
  have noOffer
      {Holds : PeerId × Key → Prop}
      (nothing : after.offers = []) :
      ∀ offered ∈ after.offers, Holds offered := by
    rw [nothing]
    exact nofun
  rcases next_cases env before moment with kept | ⟨event, happens, settled⟩
  · exact ⟨Or.inl kept.introductions, noOffer kept.offers⟩
  cases settled with
  | quiet kept =>
      exact ⟨Or.inl kept.introductions, noOffer kept.offers⟩
  | waits _ kept =>
      exact ⟨Or.inl kept.introductions, noOffer kept.offers⟩
  | @introduces peer other client target since takes _ allowed registered
      asks inTime _ _ _ introductions offers =>
      refine ⟨Or.inr ⟨peer, other, client.key, target, introductions, ?_,
        registered, request_of_takes happens takes, allowed, ?_⟩,
        noOffer offers⟩
      · obtain ⟨_, _, _, isClient⟩ := takes
        exact accounts.listed isClient
      · refine (accounts.asked asks).mono ?_
        rintro rendezvous request ⟨asksFor, rfl⟩
        exact ⟨asksFor, inTime⟩
  | offers recent inTime _ _ _ introductions offers toPair =>
      refine ⟨Or.inl introductions, ?_⟩
      intro offered member
      rw [offers] at member
      obtain ⟨holder, registered, isPair⟩ := toPair offered member
      refine ⟨holder, registered, (accounts.of_pair recent isPair).mono ?_⟩
      rintro rendezvous introduction ⟨introduces, rfl⟩
      exact ⟨introduces, inTime⟩

/-! ### A key that comes back -/

/-- A handshake in the clear, in which the first byte makes the key. -/
def meetingNoise : Noise :=
  { Endpoint.smallNoise with
    respond := fun key frame reply random =>
      match Endpoint.smallNoise.respond key frame reply random with
      | .error error =>
          .error error
      | .ok (link, zeroRtt, response) =>
          let shown := List.replicate keyLen (link.resumptionKey.headD 0)
          .ok ({ link with remoteStatic := shown }, zeroRtt, response)
    respond_sessionId := by
      intro key frame reply random link zeroRtt response header responds decoded
      split at responds
      · cases responds
      next responded =>
      cases responds
      have same := Endpoint.smallNoise.respond_sessionId responded decoded
      exact same }

def meetingEnv : Env Unit :=
  { Endpoint.smallEnv with noise := meetingNoise }

def meetingMoment (nowMs : Nat) (action : Action) : Moment where
  nowMs := nowMs
  walk := ⟨id, .refl⟩
  requests := ⟨id, .refl⟩
  tags := ⟨id, .refl⟩
  localIp := none
  opened := none
  action := action

/-- A poll that reads one datagram. -/
def meetingPass (nowMs : Nat) (bytes : Bytes) (addr : SocketAddr) :
    List Moment :=
  [meetingMoment nowMs (.poll none),
    meetingMoment nowMs (.pass (.timers (fun _ => []) fun _ => [])),
    meetingMoment nowMs (.pass .queues),
    meetingMoment nowMs (.pass (.receive (.datagram bytes addr [])))]

/-- The frames of a session that says so many things. -/
def meetingFrames (session : Session) : List Control → List Bytes
  | [] =>
      []
  | control :: rest =>
      let (frame, session) :=
        session.sealData meetingEnv.suite.aead control.encode 0 100
      frame.toOption.getD [] :: meetingFrames session rest

/-- A session opens, and says so many things. -/
def meetingClient
    (nowMs : Nat)
    (sessionId : BitVec 32)
    (secret : Bytes)
    (addr : SocketAddr)
    (controls : List Control) :
    List Moment :=
  let session := (Endpoint.smallLink sessionId secret).alice
  let opening := Endpoint.smallOpening .handshakeInit sessionId secret
  (opening :: meetingFrames session controls).flatMap fun frame =>
    meetingPass nowMs frame addr

def meetingKey (byte : UInt8) : Key :=
  List.replicate keyLen byte

/-- One key asks for another, comes back in a new session, and is asked for. -/
def smallMeeting : List Moment :=
  meetingClient 0 5 [2, 0] (Endpoint.host 2)
      [.register, .introduce (meetingKey 1)] ++
    meetingClient 1 6 [2, 1] (Endpoint.host 3) [.register] ++
    meetingClient 2 7 [1] (Endpoint.host 1)
      [.register, .introduce (meetingKey 2)]

/-- The session that is introduced last never asked for anything. -/
theorem returned_key_is_introduced :
    (serving meetingEnv [] () smallMeeting).introductions =
        [(2, meetingKey 2), (1, meetingKey 1)] ∧
      Execution.Admits (next meetingEnv)
        (fun rendezvous moment =>
          (request? meetingEnv rendezvous moment).all (·.1 != 1) = true)
        (bind meetingEnv [] ()) smallMeeting := by
  decide +kernel

end Rendezvous

end Fectp
