import Fectp.Endpoint.PeerKeys
import Fectp.Rendezvous.Consent

namespace Fectp

/-!
# Who is registered

A rendezvous keeps its clients by session and their sessions by key.  Only
registering and losing a session touch either, and what a session's handle
stands for does not change in between.
-/

open Relation (ReflTransGen)

namespace Rendezvous

variable {ω : Type*} {before between after : Rendezvous ω}

/-! ### What leaves registrations alone -/

section

variable (env : Env ω) (rendezvous : Rendezvous ω)

theorem sendTo_aside (key : Key) (control : Control) (nowMs : Nat) :
    Aside rendezvous (sendTo env rendezvous key control nowMs) := by
  unfold sendTo
  split
  · exact .of_same rfl rfl rfl
  · exact send_aside env rendezvous _ control nowMs

theorem introduce_aside (peer : PeerId) (asker target : Key) (nowMs : Nat) :
    Aside rendezvous (introduce env rendezvous peer asker target nowMs) := by
  unfold introduce
  split
  · exact .of_same rfl rfl rfl
  split
  · exact send_aside env rendezvous peer _ nowMs
  dsimp only
  split
  · exact .of_same rfl rfl rfl
  split
  · exact .of_same rfl rfl rfl
  split
  · refine .trans ?_
      ((send_aside env _ _ _ nowMs).trans (send_aside env _ _ _ nowMs))
    exact .of_same rfl rfl rfl
  · exact .of_same rfl rfl rfl

theorem relay_aside (peer : PeerId) (asker target : Key) (moment : Moment) :
    Aside rendezvous (relay env rendezvous peer asker target moment) := by
  have refuses : Aside rendezvous (refuseRelay env rendezvous asker target .noRelay moment.nowMs) :=
    (sendTo_aside env rendezvous _ _ _).trans (sendTo_aside env _ _ _ _)
  have tells : ∀ rendezvous allocation,
        Aside rendezvous (offer env rendezvous (pair asker target) allocation moment.nowMs) :=
    fun rendezvous _ =>
      (sendTo_aside env rendezvous _ _ _).trans (sendTo_aside env _ _ _ _)
  unfold relay
  dsimp only
  split
  · exact send_aside env rendezvous peer _ _
  split
  · exact send_aside env rendezvous peer _ _
  split
  · exact refuses
  split
  · exact tells rendezvous _
  split
  · exact refuses
  · refine .trans ?_ (tells _ _)
    exact .of_same rfl rfl rfl

/-- A message that is not a registration leaves registrations alone. -/
theorem handle_aside
    (peer : PeerId) {control : Control} (another : control ≠ .register) (moment : Moment) :
    Aside rendezvous (handle env rendezvous peer control moment) := by
  unfold handle
  dsimp only
  rw [if_neg another]
  split
  · exact .of_same rfl rfl rfl
  next client _ =>
  have spends := (spend_keeps rendezvous client.addr.ip moment.nowMs).toAside
  split
  · split
    · exact spends.trans (join_keeps env _ _ _ _ _ _).toAside
    · exact spends
  · exact (leave_keeps env rendezvous _ _ _).toAside
  · split
    · exact spends.trans (introduce_aside env _ _ _ _ _)
    · exact spends.trans (send_aside env _ _ _ _)
  · split
    · exact spends.trans (relay_aside env _ _ _ _ _)
    · exact spends.trans (send_aside env _ _ _ _)
  · exact .of_same rfl rfl rfl

end

/-! ### What registers and what forgets -/

/-- The session that registers in a step, if one does, once the step has read
what it sent. -/
def registering (env : Env ω) (rendezvous : Rendezvous ω) (moment : Moment) :
    Option PeerId :=
  match event? env rendezvous moment with
  | some (.message peer data) =>
      if Control.decode data = some .register then some peer else none
  | _ =>
      none

/-- The endpoint, once a step has read what was sent. -/
def hearing (env : Env ω) (rendezvous : Rendezvous ω) (moment : Moment) :
    Rendezvous ω :=
  (polled env { rendezvous with record := [] } moment).2

section

variable (env : Env ω) (rendezvous : Rendezvous ω)

theorem hearing_aside (moment : Moment) :
    Aside rendezvous (hearing env rendezvous moment) := by
  refine .trans ?_ (polled_keeps env _ moment).toAside
  exact .of_same rfl rfl rfl

/-- What a step does to registrations. -/
theorem next_registration (moment : Moment) :
    Aside rendezvous (next env rendezvous moment) ∨ (∃ peer,
        registering env rendezvous moment = some peer ∧ next env rendezvous moment =
            register env (hearing env rendezvous moment) peer moment.nowMs) ∨
      ∃ peer,
        next env rendezvous moment = forget env (hearing env rendezvous moment) peer moment := by
  have hears := hearing_aside env rendezvous moment
  unfold registering event? hearing at *
  unfold next
  dsimp only
  split
  · exact Or.inl (.of_same rfl rfl rfl)
  · exact Or.inl (.of_same rfl rfl rfl)
  · exact Or.inl (.of_same rfl rfl rfl)
  · exact Or.inl (.of_same rfl rfl rfl)
  split
  · next event middle isPolled =>
      rw [isPolled] at hears ⊢
      unfold settle
      split
      · next peer data =>
          split
          · next control decodes =>
              by_cases registers : control = .register
              · refine Or.inr (Or.inl ⟨peer, ?_, ?_⟩)
                · exact if_pos (registers ▸ decodes)
                · exact if_pos registers
              · exact Or.inl (hears.trans (handle_aside env middle peer registers moment))
          · exact Or.inl hears
      · next peer => exact Or.inr (Or.inr ⟨peer, rfl⟩)
      · exact Or.inl hears
  next isPolled =>
  rw [isPolled] at hears
  exact Or.inl hears

/-- All that registering does. -/
theorem register_cases (peer : PeerId) (nowMs : Nat) :
    register env rendezvous peer nowMs = rendezvous ∨ ∃ entry clients,
        let key := entry.peer.session.remoteStatic
        rendezvous.driver.endpoint.peers.lookup peer = some entry ∧
          (rendezvous.clients.lookup peer = none →
            rendezvous.clients.values.countP (·.addr.ip == entry.addr.ip) < maxClientsPerIp) ∧
          (clients = rendezvous.clients ∨ ∃ old,
              rendezvous.byKey.lookup key = some old ∧ clients = rendezvous.clients.erase old) ∧
          Aside
            { rendezvous with
              clients := clients.insert peer ⟨key, entry.addr⟩
              byKey := rendezvous.byKey.insert key peer }
            (register env rendezvous peer nowMs) := by
  unfold register Endpoint.peerPublicKey Endpoint.peerAddr
  dsimp only
  cases found : rendezvous.driver.endpoint.peers.lookup peer with
  | none => exact Or.inl rfl
  | some entry =>
    dsimp only [Option.map_some]
    split
    · exact Or.inl rfl
    next roomy =>
    refine Or.inr ⟨entry, _, rfl, ?_, ?_, send_aside env _ peer _ nowMs⟩
    · intro absent
      rw [absent] at roomy
      simpa using roomy
    · split
      · next old isOld =>
          split
          · exact Or.inl rfl
          · exact Or.inr ⟨old, isOld, rfl⟩
      · exact Or.inl rfl

/-- All that forgetting a session does. -/
theorem forget_cases (peer : PeerId) (moment : Moment) :
    rendezvous.clients.lookup peer = none ∧ Aside rendezvous (forget env rendezvous peer moment) ∨
      ∃ client, rendezvous.clients.lookup peer = some client ∧ Aside
            { rendezvous with
              clients := rendezvous.clients.erase peer
              byKey :=
                if rendezvous.byKey.lookup client.key = some peer then
                  rendezvous.byKey.erase client.key
                else
                  rendezvous.byKey }
            (forget env rendezvous peer moment) := by
  have leaves :=
    keeps_foldl fun rendezvous tag =>
      leave_keeps env rendezvous peer tag moment.nowMs
  unfold forget
  cases isClient : rendezvous.clients.lookup peer with
  | none => exact Or.inl ⟨rfl, (leaves _ _).toAside⟩
  | some client => exact Or.inr ⟨client, rfl, (leaves _ _).toAside⟩

end

/-! ### The two tables agree -/

/-- Clients and keys name one another, and a client's session has its key. -/
structure Registered (rendezvous : Rendezvous ω) : Prop where
  consistent : rendezvous.driver.endpoint.registry.Consistent
  listed : rendezvous.Listed
  held : ∀ {key peer},
      rendezvous.byKey.lookup key = some peer →
      ∃ client, rendezvous.clients.lookup peer = some client ∧ client.key = key
  vouched : ∀ {peer client},
      rendezvous.clients.lookup peer = some client →
      Endpoint.StandsFor peer client.key rendezvous.driver.endpoint

theorem Aside.registered (aside : Aside before after) (registered : Registered before) :
    Registered after where
  consistent := Endpoint.consistent_of_stirs registered.consistent aside.stirs
  listed := by
    intro peer client isClient
    rw [aside.clients] at isClient
    rw [aside.byKey]
    exact registered.listed isClient
  held := by
    rw [aside.clients, aside.byKey]
    exact registered.held
  vouched := by
    intro peer client isClient
    rw [aside.clients] at isClient
    exact (registered.vouched isClient).stirs registered.consistent aside.stirs

variable {rendezvous : Rendezvous ω}

theorem Registered.register (registered : Registered rendezvous)
    (env : Env ω) (peer : PeerId) (nowMs : Nat) :
    Registered (register env rendezvous peer nowMs) := by
  have listed : (Rendezvous.register env rendezvous peer nowMs).Listed :=
    (register_quiet env rendezvous peer nowMs).listed registered.listed
  rcases register_cases env rendezvous peer nowMs with
    same | ⟨entry, clients, found, _, isClients, aside⟩
  · rw [same]
    exact registered
  have standsFor := Endpoint.standsFor_of_session registered.consistent found
  have sub : ∀ {other client},
        clients.lookup other = some client →
        rendezvous.clients.lookup other = some client := by
    intro other client isClient
    rcases isClients with rfl | ⟨old, _, rfl⟩
    · exact isClient
    · exact (Table.found_of_erase isClient).2
  refine aside.registered ⟨registered.consistent, ?_, ?_, ?_⟩
  · intro other client isClient
    exact (congrArg _ aside.byKey).symm.trans (listed ((congrArg _ aside.clients).trans isClient))
  · intro key other isOther
    rcases Table.found_of_insert isOther with ⟨rfl, rfl⟩ | ⟨another, isOther⟩
    · exact ⟨_, AList.lookup_insert _, rfl⟩
    obtain ⟨client, isClient, rfl⟩ := registered.held isOther
    -- A handle's key does not change.
    have isNotPeer : other ≠ peer := by
      rintro rfl
      exact another ((registered.vouched isClient).keyed entry found).symm
    refine ⟨client, ?_, rfl⟩
    rw [AList.lookup_insert_ne isNotPeer]
    rcases isClients with rfl | ⟨old, isOld, rfl⟩
    · exact isClient
    have isNotOld : other ≠ old := by
      rintro rfl
      obtain ⟨holder, isHolder, sameKey⟩ := registered.held isOld
      cases isClient.symm.trans isHolder
      exact another sameKey
    exact (AList.lookup_erase_ne isNotOld).trans isClient
  · intro other client isClient
    rcases Table.found_of_insert isClient with
      ⟨rfl, rfl⟩ | ⟨_, isClient⟩
    · exact standsFor
    · exact registered.vouched (sub isClient)

theorem Registered.forget (registered : Registered rendezvous)
    (env : Env ω) (peer : PeerId) (moment : Moment) :
    Registered (forget env rendezvous peer moment) := by
  rcases forget_cases env rendezvous peer moment with
    ⟨_, aside⟩ | ⟨client, isClient, aside⟩
  · exact aside.registered registered
  have isPeer := registered.listed isClient
  rw [if_pos isPeer] at aside
  refine aside.registered ⟨registered.consistent, ?_, ?_, ?_⟩
  · intro other held isHeld
    obtain ⟨different, isHeld⟩ := Table.found_of_erase isHeld
    have isOther := registered.listed isHeld
    have anotherKey : held.key ≠ client.key := by
      intro sameKey
      rw [sameKey, isPeer] at isOther
      exact different (Option.some.inj isOther).symm
    exact (AList.lookup_erase_ne anotherKey).trans isOther
  · intro key other isOther
    obtain ⟨anotherKey, isOther⟩ := Table.found_of_erase isOther
    obtain ⟨held, isHeld, rfl⟩ := registered.held isOther
    refine ⟨held, (AList.lookup_erase_ne ?_).trans isHeld, rfl⟩
    rintro rfl
    cases isClient.symm.trans isHeld
    exact anotherKey rfl
  · intro other held isHeld
    exact registered.vouched (Table.found_of_erase isHeld).2

/-- What happens to a rendezvous: a step, or a registration or a loss that
comes from wherever it may. -/
inductive Change where
  | step (moment : Moment)
  | register (peer : PeerId) (nowMs : Nat)
  | forget (peer : PeerId) (moment : Moment)

def change (env : Env ω) (rendezvous : Rendezvous ω) :
    Change → Rendezvous ω
  | .step moment =>
      next env rendezvous moment
  | .register peer nowMs =>
      register env rendezvous peer nowMs
  | .forget peer moment =>
      forget env rendezvous peer moment

theorem Registered.change (registered : Registered rendezvous)
    (env : Env ω) (change : Change) :
    Registered (rendezvous.change env change) := by
  cases change with
  | step moment =>
    have hears := (hearing_aside env rendezvous moment).registered registered
    rcases next_registration env rendezvous moment with
      aside | ⟨peer, _, registers⟩ | ⟨peer, forgets⟩
    · exact aside.registered registered
    · rw [Rendezvous.change, registers]
      exact hears.register env peer moment.nowMs
    · rw [Rendezvous.change, forgets]
      exact hears.forget env peer moment
  | register peer nowMs => exact registered.register env peer nowMs
  | forget peer moment => exact registered.forget env peer moment

theorem bind_registered (env : Env ω) (key : Key) (socket : ω) :
    Registered (bind env key socket) where
  consistent := Endpoint.new_consistent env (.publicKey key) socket
  listed := nofun
  held := nofun
  vouched := nofun

/--
Whatever sessions register, are lost and register again, in whatever order,
clients and keys name one another, so that a key has one registration, and
losing any other session than the one registered for a key leaves that one in
both tables.
-/
theorem registrations_agree
    (env : Env ω)
    (key : Key)
    (socket : ω)
    (changes : List Change) :
    let rendezvous :=
      Execution.run (change env) (bind env key socket) changes
    (∀ peer key,
        (∃ client,
          rendezvous.clients.lookup peer = some client ∧ client.key = key) ↔
          rendezvous.byKey.lookup key = some peer) ∧
      (∀ first second one other,
        rendezvous.clients.lookup first = some one →
        rendezvous.clients.lookup second = some other →
        one.key = other.key →
        first = second) ∧
      ∀ key peer other moment,
        rendezvous.byKey.lookup key = some other →
        peer ≠ other →
        let after := forget env rendezvous peer moment
        after.byKey.lookup key = some other ∧
          after.clients.lookup other = rendezvous.clients.lookup other := by
  intro rendezvous
  have registered : Registered rendezvous :=
    @Execution.invariant_of_step _ _ (change env) Registered
      (fun registered change => registered.change env change)
      _ changes (bind_registered env key socket)
  refine ⟨fun peer key => ⟨?_, registered.held⟩, ?_, ?_⟩
  · rintro ⟨client, isClient, rfl⟩
    exact registered.listed isClient
  · intro first second one other isOne isOther sameKey
    have isFirst := registered.listed isOne
    rw [sameKey, registered.listed isOther] at isFirst
    exact (Option.some.inj isFirst).symm
  · intro key peer other moment isOther different
    dsimp only
    rcases forget_cases env rendezvous peer moment with
      ⟨_, aside⟩ | ⟨client, isClient, aside⟩
    · rw [aside.byKey, aside.clients]
      exact ⟨isOther, rfl⟩
    have isPeer := registered.listed isClient
    rw [aside.byKey, aside.clients]
    rw [if_pos isPeer]
    refine ⟨(AList.lookup_erase_ne ?_).trans isOther,
      AList.lookup_erase_ne different.symm⟩
    rintro rfl
    rw [isPeer] at isOther
    exact different (Option.some.inj isOther)

/-! ### How many are registered from one address -/

/-- How many clients are recorded at an IP address. -/
def recordedAt (clients : Table PeerId Client) (ip : Nat) : Nat :=
  clients.values.countP (·.addr.ip == ip)

theorem recordedAt_eq (clients : Table PeerId Client) (peer : PeerId) (ip : Nat) :
    recordedAt clients ip = clients.elsewhere peer (·.addr.ip == ip) +
        (clients.lookup peer).toList.countP (·.addr.ip == ip) := by
  rw [← Table.countP_entries, recordedAt, Table.values, List.countP_map]
  rfl

/-- A session is recorded where there is room, or where it was already. -/
theorem recordedAt_insert {clients kept : Table PeerId Client} {peer : PeerId} {client : Client}
    (within : ∀ ip, recordedAt clients ip ≤ maxClientsPerIp)
    (fewer : ∀ test, kept.elsewhere peer test ≤ clients.elsewhere peer test)
    (room : (∃ held, clients.lookup peer = some held ∧ held.addr.ip = client.addr.ip) ∨
        recordedAt clients client.addr.ip < maxClientsPerIp)
    (ip : Nat) :
    recordedAt (kept.insert peer client) ip ≤ maxClientsPerIp := by
  have before := recordedAt_eq clients peer ip
  have here := within ip
  have others := fewer (·.addr.ip == ip)
  rw [recordedAt_eq _ peer, Table.elsewhere_insert, AList.lookup_insert,
    Option.toList_some, List.countP_singleton]
  split
  · next isIp =>
      rw [beq_iff_eq] at isIp
      rw [isIp] at room
      rcases room with ⟨held, isHeld, sameIp⟩ | room
      · rw [isHeld, Option.toList_some, List.countP_singleton,
          if_pos (beq_iff_eq.mpr sameIp)] at before
        omega
      · omega
  · omega

theorem elsewhere_erase_le
    (clients : Table PeerId Client) (old peer : PeerId) (test : Client → Bool) :
    Table.elsewhere (clients.erase old) peer test ≤ clients.elsewhere peer test :=
  (List.kerase_sublist old clients.entries).countP_le

theorem recordedAt_erase_le (clients : Table PeerId Client) (old : PeerId) (ip : Nat) :
    recordedAt (clients.erase old) ip ≤ recordedAt clients ip := by
  exact ((List.kerase_sublist old clients.entries).map _).countP_le

/-- In a step a registered session registers again, and from where there is no
room for it. -/
def crowds (env : Env ω) (rendezvous : Rendezvous ω) (moment : Moment) :
    Bool :=
  (registering env rendezvous moment).any fun peer =>
    (rendezvous.clients.lookup peer).any fun client =>
      ((hearing env rendezvous moment).driver.endpoint.peerAddr peer).any
        fun addr =>
          addr.ip != client.addr.ip &&
            recordedAt rendezvous.clients addr.ip ≥ maxClientsPerIp

theorem next_within {env : Env ω} {moment : Moment}
    (within : ∀ ip, recordedAt rendezvous.clients ip ≤ maxClientsPerIp)
    (uncrowded : crowds env rendezvous moment = false) (ip : Nat) :
    recordedAt (next env rendezvous moment).clients ip ≤ maxClientsPerIp := by
  have same := (hearing_aside env rendezvous moment).clients
  rcases next_registration env rendezvous moment with
    aside | ⟨peer, registers, isNext⟩ | ⟨peer, isNext⟩
  · rw [aside.clients]
    exact within ip
  · rw [isNext]
    rcases register_cases env (hearing env rendezvous moment) peer moment.nowMs with
      refused | ⟨entry, clients, found, room, isClients, aside⟩
    · rw [refused, same]
      exact within ip
    rw [same] at room isClients
    rw [aside.clients]
    refine @recordedAt_insert rendezvous.clients clients peer _ within ?_ ?_ ip
    · intro test
      rcases isClients with rfl | ⟨old, _, rfl⟩
      · exact Nat.le_refl _
      · exact elsewhere_erase_le rendezvous.clients old peer test
    · cases isHeld : rendezvous.clients.lookup peer with
      | none => exact Or.inr (room isHeld)
      | some held =>
        by_cases sameIp : held.addr.ip = entry.addr.ip
        · exact Or.inl ⟨held, rfl, sameIp⟩
        have isAddr : (hearing env rendezvous moment).driver.endpoint.peerAddr
              peer = some entry.addr := by
          rw [Endpoint.peerAddr, found, Option.map_some]
        unfold crowds at uncrowded
        rw [registers, Option.any_some, isHeld, Option.any_some, isAddr,
          Option.any_some, bne_iff_ne.mpr (Ne.symm sameIp),
          Bool.true_and, decide_eq_false_iff_not] at uncrowded
        exact Or.inr (Nat.lt_of_not_ge uncrowded)
  · rw [isNext]
    rcases forget_cases env (hearing env rendezvous moment) peer moment with
      ⟨_, aside⟩ | ⟨_, _, aside⟩
    · rw [aside.clients, same]
      exact within ip
    · rw [aside.clients, same]
      exact (recordedAt_erase_le rendezvous.clients peer ip).trans (within ip)

/--
In a run in which no registered session registers again from where there is no
room for it, no IP address ever has more clients than it may.
-/
theorem registrations_bounded
    {env : Env ω}
    {key : Key}
    {socket : ω}
    {moments : List Moment}
    (uncrowded :
      Execution.Admits (next env)
        (fun rendezvous moment => crowds env rendezvous moment = false)
        (bind env key socket) moments)
    (ip : Nat) :
    recordedAt (serving env key socket moments).clients ip ≤
      maxClientsPerIp := by
  have within :=
    @Execution.invariant_of_admits _ _ _ _
      (fun rendezvous : Rendezvous ω =>
        ∀ ip, recordedAt rendezvous.clients ip ≤ maxClientsPerIp)
      (fun allowed within => next_within within allowed)
      _ _ uncrowded (fun _ => Nat.zero_le _)
  exact within ip

/-- So many clients open at one IP address and register. -/
def crowd (count : Nat) : List Moment :=
  (List.range count).flatMap fun client =>
    meetingClient 0 (BitVec.ofNat 32 (client + 6))
      [UInt8.ofNat (client + 1), 0] ⟨1, client⟩ [.register]

/-- A client registers elsewhere, is followed by a crowd, proves that it has
moved to where the crowd is, and registers again. -/
def migration (count : Nat) : List Moment :=
  let aead := meetingEnv.suite.aead
  let token := List.replicate 8 0
  let session := (Endpoint.smallLink 5 [99, 0]).alice
  let opening := Endpoint.smallOpening .handshakeInit 5 [99, 0]
  let (first, session) := session.sealData aead Control.register.encode 0 100
  let (second, session) := session.sealData aead Control.register.encode 0 100
  let (answer, session) := session.sealPathResponse aead token 100
  let (last, _) := session.sealData aead Control.register.encode 0 100
  let pass frame addr :=
    [meetingMoment 0 (.poll none),
      meetingMoment 0 (.pass (.timers (fun _ => []) fun _ => [])),
      meetingMoment 0 (.pass .queues),
      meetingMoment 0 (.pass (.receive (.datagram frame addr token)))]
  pass opening ⟨2, 0⟩ ++ pass (first.toOption.getD []) ⟨2, 0⟩ ++
    crowd count ++
    [second, answer, last].flatMap fun frame =>
      pass (frame.toOption.getD []) ⟨1, 99⟩

/-- A client that has moved registers again where there is room. -/
theorem registrations_bounded_of_small_crowd :
    let before := serving meetingEnv [] () ((migration 2).take 8)
    let after := serving meetingEnv [] () (migration 2)
    recordedAt before.clients 2 = 1 ∧ recordedAt after.clients 2 = 0 ∧
      recordedAt after.clients 1 = 3 ∧
      recordedAt after.clients 1 ≤ maxClientsPerIp :=
  ⟨by decide +kernel, by decide +kernel, by decide +kernel,
    registrations_bounded (by decide +kernel) 1⟩

/-- One more is recorded than may be. -/
theorem moved_client_crowds :
    recordedAt (serving meetingEnv [] () (migration maxClientsPerIp)).clients 1 =
      maxClientsPerIp + 1 := by
  decide +kernel

end Rendezvous

end Fectp
