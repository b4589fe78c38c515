import Fectp.Endpoint.ChallengeRate

namespace Fectp

/-!
# Where a session moves

A session heard from elsewhere stays where it is filed until that address has
answered a challenge.  The challenge answered is the last one the session sent
to anywhere but the address on file, and nothing else is ever sent there.
-/

namespace Session

/-- The session has sealed this challenge, with this token. -/
def Challenged (aead : Aead) (session : Session) (token frame : Bytes) :
    Prop :=
  ∃ (earlier later : Session) (outLen : Nat),
    earlier.sealPathChallenge aead token outLen = (.ok frame, later) ∧
      Later aead later session

theorem Challenged.later {aead : Aead} {session after : Session} {token frame : Bytes}
    (challenged : session.Challenged aead token frame) (isLater : Later aead session after) :
    after.Challenged aead token frame := by
  obtain ⟨earlier, later, outLen, seals, reaches⟩ := challenged
  exact ⟨earlier, later, outLen, seals, reaches.trans isLater⟩

end Session

/-- Only a path response that opens validates a path, with the token in it. -/
theorem Peer.ingest_pathValidated
    {suite : Suite} {peer : Peer} {frame token : Bytes} {nowMs ackLen : Nat}
    (validates : (peer.ingest suite frame nowMs ackLen).1 = .ok (.pathValidated token)) :
    ∃ opened buffer session, peer.session.openFrame suite.aead frame =
          (.ok opened, buffer, session) ∧
        opened.header.frameType = .pathResponse ∧
        token = (buffer.drop headerLen).take opened.len := by
  have unvalidated : ∀ (peer : Peer) (opened : Opened) (body : Bytes),
        (peer.ingestNew suite opened body).1 ≠ .pathValidated token := by
    intro peer opened body
    unfold ingestNew
    dsimp only
    split
    · exact Ingested.noConfusion
    · split
      · exact Ingested.noConfusion
      · split <;> exact Ingested.noConfusion
  unfold ingest at validates
  split at validates
  · cases validates
  next opened buffer session opens =>
  refine ⟨opened, buffer, session, opens, ?_⟩
  unfold ingestOpened at validates
  dsimp only at validates
  split at validates
  · split at validates
    · cases validates
    · split at validates <;> cases validates
  · next isType =>
      split at validates
      · cases validates
      · cases validates
        exact ⟨isType, rfl⟩
  · split at validates <;> cases validates
  · split at validates
    · exact absurd (Except.ok.inj validates) (unvalidated _ _ _)
    · split at validates
      · cases validates
      · split at validates
        · cases validates
        · exact absurd (Except.ok.inj validates) (unvalidated _ _ _)

namespace Endpoint

variable {ω : Type*}

namespace View

/-- The challenges an attempt has sent: the last ones of its session. -/
def attempted (view : View) (probe : AddressProbe) : Journal :=
  view.challenges.drop (view.challenges.length - probe.sent)

end View

/-- The token a frame validates a path with, if it does. -/
def validated : Except Error Ingested → Option Bytes
  | .ok (.pathValidated token) =>
      some token
  | _ =>
      none

/--
A path response opens that carries the token of an attempt no challenge of
which was ever taken by the socket.
-/
def Driver.guesses
    (env : Env ω)
    (driver : Driver (ω × Journal))
    (moment : Moment)
    (peerId : PeerId) :
    Bool :=
  (driver.offers env.recorded moment).any fun offer =>
    offer.peerId == peerId &&
      (offer.asked.peers.lookup peerId).any fun entry =>
        entry.probe.any fun probe =>
          validated
                (entry.peer.ingest env.suite offer.asked.rx moment.nowMs
                  offer.asked.size).1 ==
              some probe.token &&
            ((offer.asked.view peerId).attempted probe).all (!·.2)

/-- A path response with this token opens on the session of a handle. -/
def Driver.Answers
    (env : Env ω)
    (driver : Driver (ω × Journal))
    (moment : Moment)
    (peerId : PeerId)
    (view : View)
    (token : Bytes) :
    Prop :=
  ∃ offer ∈ driver.offers env.recorded moment,
    offer.peerId = peerId ∧
      offer.asked.view peerId = view ∧
      ∃ entry opened buffer session,
        offer.asked.peers.lookup peerId = some entry ∧
          entry.peer.session.openFrame env.suite.aead offer.asked.rx =
            (.ok opened, buffer, session) ∧
          opened.header.frameType = .pathResponse ∧
          token = (buffer.drop headerLen).take opened.len

namespace View

/-- The handle has been given out, and no handshake of it is under way. -/
structure Settled (view : View) : Prop where
  issued : view.issued = true
  pending : view.pending = false

/-- The handle has had no session yet. -/
structure Unfiled (view : View) : Prop where
  entry : view.entry = none
  challenges : view.challenges = []
  issued : view.pending = true → view.issued = true

/-- A handle has one session in its time. -/
def Orderly (view : View) : Prop :=
  view.Settled ∨ view.Unfiled

section Steps

variable {aead : Aead} {moment : Moment} {start before after : View}
  {Offered : View → Ingested → Prop} {peerId : PeerId}

theorem Settled.turn
    (turn : Turn aead moment start Offered peerId before after) (settled : before.Settled) :
    after.Settled := by
  cases turn with
  | served | heard | unsealed | challenged | moved | unrepeated | repeated
  | gone | refused | reopened => exact ⟨settled.issued, settled.pending⟩
  | filed _ _ unissued | connected _ unissued =>
    rw [settled.issued] at unissued
    cases unissued
  | closed | completed => exact ⟨settled.issued, rfl⟩

theorem Orderly.turn
    (turn : Turn aead moment start Offered peerId before after) (orderly : before.Orderly) :
    after.Orderly := by
  rcases orderly with settled | unfiled
  · exact Or.inl (settled.turn turn)
  cases turn with
  | served found | heard _ found | unsealed _ _ found
  | challenged _ _ found | moved _ _ found | unrepeated found
  | repeated _ _ _ _ _ found =>
    rw [unfiled.entry] at found
    cases found
  | gone => exact Or.inr ⟨rfl, unfiled.challenges, unfiled.issued⟩
  | filed _ _ unissued =>
    refine Or.inl ⟨rfl, ?_⟩
    cases isPending : before.pending with
    | false => rfl
    | true =>
      rw [unfiled.issued isPending] at unissued
      cases unissued
  | refused _ notFiled =>
    refine Or.inr ⟨unfiled.entry, ?_, unfiled.issued⟩
    exact (before.challenges_unfiled _ _ _ _ notFiled _).trans unfiled.challenges
  | connected _ _ notFiled =>
    refine Or.inr ⟨unfiled.entry, ?_, fun _ => rfl⟩
    exact (before.challenges_unfiled _ _ _ _ notFiled _).trans unfiled.challenges
  | reopened isPending notFiled =>
    refine Or.inr ⟨unfiled.entry, ?_, unfiled.issued⟩
    exact (before.challenges_unfiled _ _ _ _ notFiled _).trans unfiled.challenges
  | closed isPending => exact Or.inl ⟨unfiled.issued isPending, rfl⟩
  | completed _ _ isPending => exact Or.inl ⟨unfiled.issued isPending, rfl⟩

/-- Whatever was sent elsewhere is a challenge, and each answers for its own. -/
structure Probed (aead : Aead) (view : View) : Prop where
  orderly : view.Orderly
  sealed : ∀ item ∈ view.challenges,
      ∃ (session : Session) (token : Bytes),
        session.Challenged aead token item.1.frame ∧
          ∀ entry ∈ view.entry, Session.Later aead session entry.peer.session
  attempt : ∀ {entry probe},
      view.entry = some entry →
      entry.probe = some probe →
      ∃ earlier own,
        view.challenges = earlier ++ own ∧
          own.length = probe.sent ∧
          ∀ item ∈ own,
            item.1.addr = probe.addr ∧
              entry.peer.session.Challenged aead probe.token item.1.frame

theorem Orderly.unfiled
    {view : View} (orderly : view.Orderly) (isNew : view.issued = false ∨ view.pending = true) :
    view.Unfiled := by
  rcases orderly with settled | unfiled
  · rcases isNew with unissued | isPending
    · rw [settled.issued] at unissued
      cases unissued
    · rw [settled.pending] at isPending
      cases isPending
  · exact unfiled

/-- Whatever an attempt had sent, the session has still sealed later on. -/
theorem Probed.attempt_later
    (probed : before.Probed aead) {held now : PeerEntry} {probe : AddressProbe}
    (isHeld : before.entry = some held) (isProbe : held.probe = some probe)
    (later : Session.Later aead held.peer.session now.peer.session) :
    ∃ earlier own, before.challenges = earlier ++ own ∧ own.length = probe.sent ∧ ∀ item ∈ own,
          item.1.addr = probe.addr ∧ now.peer.session.Challenged aead probe.token item.1.frame := by
  obtain ⟨earlier, own, splits, isLength, isOwn⟩ := probed.attempt isHeld isProbe
  refine ⟨earlier, own, splits, isLength, fun item member => ?_⟩
  exact ⟨(isOwn item member).1, (isOwn item member).2.later later⟩

/-- The attempt to go on with has sent what it counts. -/
theorem Probed.next (probed : before.Probed aead) {held now : PeerEntry} {addr : SocketAddr}
    {random : Bytes} {next : AddressProbe} (isHeld : before.entry = some held)
    (isNext : NextProbe held.probe addr random moment.nowMs next)
    (later : Session.Later aead held.peer.session now.peer.session) :
    ∃ earlier own, before.challenges = earlier ++ own ∧ own.length = next.sent ∧ ∀ item ∈ own,
          item.1.addr = next.addr ∧ now.peer.session.Challenged aead next.token item.1.frame := by
  rcases isNext with ⟨rfl, _⟩ | ⟨isProbe, _⟩
  · exact ⟨before.challenges, [], (List.append_nil _).symm, rfl, nofun⟩
  · exact probed.attempt_later isHeld isProbe later

theorem Probed.turn
    (turn : Turn aead moment start Offered peerId before after) (probed : before.Probed aead) :
    after.Probed aead := by
  have orderly := probed.orderly.turn turn
  cases turn.probing with
  | stays same size entries =>
    refine ⟨orderly, ?_, ?_⟩
    · rw [same]
      intro item member
      obtain ⟨session, token, challenged, later⟩ := probed.sealed item member
      refine ⟨session, token, challenged, fun entry isEntry => ?_⟩
      rcases entries isEntry with ⟨held, isHeld, continues⟩ | ⟨isNew, _⟩
      · exact (later held isHeld).trans continues.later
      · rw [(probed.orderly.unfiled isNew).challenges] at member
        cases member
    · intro entry probe isEntry isProbe
      rw [same]
      rcases entries isEntry with
        ⟨held, isHeld, continues⟩ | ⟨_, untested⟩
      · rw [continues.probe] at isProbe
        exact probed.attempt_later isHeld isProbe continues.later
      · rw [untested] at isProbe
        cases isProbe
  | @tests held now _ _ _ addr next session outcome taken isAction isHeld _
      offered asked isNext later seals size isNow _ probeNow gains =>
      have reaches : Session.Later aead held.peer.session now.peer.session :=
        later.tail (Session.sealPathChallenge_advance seals)
      obtain ⟨earlier, own, splits, isLength, isOwn⟩ := probed.next isHeld isNext reaches
      have isNew : ∀ frame, outcome = .ok frame →
            now.peer.session.Challenged aead next.token frame := by
        rintro frame rfl
        exact ⟨session, now.peer.session, before.size, seals, .refl⟩
      refine ⟨orderly, ?_, ?_⟩
      · intro item member
        rw [gains] at member
        rcases List.mem_append.mp member with old | added
        · obtain ⟨sealer, token, challenged, sealerLater⟩ :=
            probed.sealed item old
          refine ⟨sealer, token, challenged, fun entry isEntry => ?_⟩
          rw [isNow] at isEntry
          cases isEntry
          exact (sealerLater held isHeld).trans reaches
        · obtain ⟨frame, isFrame, rfl⟩ := List.mem_map.mp added
          refine ⟨now.peer.session, next.token, ?_, fun entry isEntry => ?_⟩
          · cases outcome with
            | error error => cases isFrame
            | ok sent =>
              cases List.mem_singleton.mp isFrame
              exact isNew _ rfl
          · rw [isNow] at isEntry
            cases isEntry
            exact .refl
      · intro entry probe isEntry isProbe
        rw [isNow] at isEntry
        cases isEntry
        rw [probeNow] at isProbe
        cases isProbe
        cases outcome with
        | error error =>
          refine ⟨earlier, own, ?_, isLength, isOwn⟩
          exact gains.trans ((List.append_nil _).trans splits)
        | ok frame =>
          refine ⟨earlier, own ++ [(⟨frame, addr, peerId, some held.addr, moment.nowMs⟩, taken)],
            ?_, ?_, ?_⟩
          · rw [gains, splits, List.append_assoc]
            rfl
          · rw [List.length_append, isLength]
            rfl
          · intro item member
            rcases List.mem_append.mp member with old | added
            · exact isOwn item old
            · rw [List.mem_singleton.mp added]
              exact ⟨isNext.addr.symm, isNew frame rfl⟩
  | moves _ isHeld _ _ _ _ later _ isNow _ untested same =>
    refine ⟨orderly, ?_, ?_⟩
    · rw [same]
      intro item member
      obtain ⟨session, token, challenged, sealerLater⟩ := probed.sealed item member
      refine ⟨session, token, challenged, fun entry isEntry => ?_⟩
      rw [isNow] at isEntry
      cases isEntry
      exact (sealerLater _ isHeld).trans later
    · intro entry probe isEntry isProbe
      rw [isNow] at isEntry
      cases isEntry
      rw [untested] at isProbe
      cases isProbe

end Steps

/-- The last challenge that was taken went to this address with this token. -/
def Proved (aead : Aead) (view : View) (addr : SocketAddr) (token : Bytes) :
    Prop :=
  ∃ item entry,
    (view.challenges.filter (·.2)).getLast? = some item ∧
      item.1.addr = addr ∧
      view.entry = some entry ∧
      entry.peer.session.Challenged aead token item.1.frame

/-- An attempt one of whose challenges was taken has sent the last of them. -/
theorem Probed.proved {aead : Aead} {view : View} (probed : view.Probed aead) {entry : PeerEntry}
    {probe : AddressProbe} (isEntry : view.entry = some entry) (isProbe : entry.probe = some probe)
    (sent : ∃ item ∈ view.attempted probe, item.2 = true) :
    view.Proved aead probe.addr probe.token := by
  obtain ⟨earlier, own, splits, isLength, isOwn⟩ := probed.attempt isEntry isProbe
  have isAttempted : view.attempted probe = own := by
    unfold attempted
    rw [splits, ← isLength, List.length_append, Nat.add_sub_cancel, List.drop_left]
  rw [isAttempted] at sent
  obtain ⟨item, member, taken⟩ := sent
  have found : own.filter (·.2) ≠ [] := List.ne_nil_of_mem (List.mem_filter.mpr ⟨member, taken⟩)
  have isLast : (view.challenges.filter (·.2)).getLast? =
        some ((own.filter (·.2)).getLast found) := by
    rw [splits, List.filter_append, List.getLast?_append, List.getLast?_eq_some_getLast found]
    rfl
  obtain ⟨isAddr, challenged⟩ := isOwn _ (List.mem_filter.mp (List.getLast_mem found)).1
  exact ⟨_, entry, isLast, isAddr, isEntry, challenged⟩

end View

/-! ### Whole runs -/

section Runs

variable {env : Env ω} {driver : Driver (ω × Journal)} {moment : Moment}
  {peerId : PeerId}

theorem Driver.Opens.answers {view : View} {token : Bytes}
    (opens : driver.Opens env moment peerId view (.pathValidated token)) :
    driver.Answers env moment peerId view token := by
  obtain ⟨offer, member, isPeer, isView, entry, found, ingests, _⟩ := opens
  obtain ⟨opened, buffer, session, opensFrame, isType, isToken⟩ := Peer.ingest_pathValidated ingests
  exact ⟨offer, member, isPeer, isView, entry, opened, buffer, session,
    found, opensFrame, isType, isToken⟩

/-- A token that is answered was sent. -/
theorem Driver.Opens.sent (unguessed : driver.guesses env moment peerId = false) {view : View}
    {entry : PeerEntry} {probe : AddressProbe}
    (opens : driver.Opens env moment peerId view (.pathValidated probe.token))
    (isEntry : view.entry = some entry) (isProbe : entry.probe = some probe) :
    ∃ item ∈ view.attempted probe, item.2 = true := by
  obtain ⟨offer, member, rfl, rfl, held, found, ingests, _⟩ := opens
  have isHeld : held = entry := Option.some.inj (found.symm.trans isEntry)
  subst isHeld
  have spares := List.any_eq_false.mp unguessed offer member
  rw [found, Option.any_some, isProbe, Option.any_some, ingests, beq_self_eq_true] at spares
  simp only [validated, beq_self_eq_true, Bool.true_and, List.all_eq_true,
    Bool.not_eq_true', not_forall] at spares
  obtain ⟨item, isItem, taken⟩ := spares
  exact ⟨item, isItem, Bool.not_eq_false _ ▸ taken⟩

/--
A path response of the session is heard from an address, with the token of the
last challenge that went anywhere but to the address on file, which was sent to
that address.
-/
def Driver.Proves
    (env : Env ω)
    (driver : Driver (ω × Journal))
    (moment : Moment)
    (peerId : PeerId)
    (addr : SocketAddr) :
    Prop :=
  ∃ bytes random token view,
    moment.action = .receive (.datagram bytes addr random) ∧
      driver.Answers env moment peerId view token ∧
      view.Proved env.suite.aead addr token

/-- Along a step, a session is where it was or where it may move. -/
structure View.Placed
    (env : Env ω)
    (driver : Driver (ω × Journal))
    (moment : Moment)
    (peerId : PeerId)
    (addr : SocketAddr)
    (view : View) :
    Prop where
  probed : view.Probed env.suite.aead
  settled : view.Settled
  placed : ∀ {entry},
      view.entry = some entry →
      entry.addr = addr ∨ driver.Proves env moment peerId entry.addr

theorem View.Placed.turn
    (unguessed : driver.guesses env moment peerId = false) {addr : SocketAddr} {before after : View}
    (turn : Turn env.suite.aead moment (driver.endpoint.view peerId)
        (driver.Opens env moment peerId) peerId before after)
    (placed : before.Placed env driver moment peerId addr) :
    after.Placed env driver moment peerId addr := by
  obtain ⟨probed, settled, placed⟩ := placed
  refine ⟨probed.turn turn, settled.turn turn, ?_⟩
  intro entry isEntry
  cases turn.probing with
  | stays _ _ entries =>
    rcases entries isEntry with
      ⟨held, isHeld, continues⟩ | ⟨unissued | isPending, _⟩
    · rw [continues.addr]
      exact placed isHeld
    · rw [settled.issued] at unissued
      cases unissued
    · rw [settled.pending] at isPending
      cases isPending
  | tests _ _ isHeld _ _ _ _ _ _ _ isNow sameAddr =>
    rw [isNow] at isEntry
    cases isEntry
    rw [sameAddr]
    exact placed isHeld
  | moves isAction isHeld _ opens isProbe isAddr _ _ isNow nowAddr =>
    rw [isNow] at isEntry
    cases isEntry
    right
    rw [nowAddr]
    refine ⟨_, _, _, before, isAction, opens.answers, ?_⟩
    rw [← isAddr]
    exact probed.proved isHeld isProbe (opens.sent unguessed isHeld isProbe)

end Runs

/--
A session moves only to an address that has proved itself in that step, and
whatever it was sent anywhere but to the address on file is a challenge.
-/
theorem moves_where_proved
    {env : Env ω}
    {driver : Driver (ω × Journal)}
    {moment : Moment}
    {peerId : PeerId}
    (recorded : driver.Recorded env)
    (unguessed : driver.guesses env moment peerId = false) :
    (∀ {held now : PeerEntry},
        driver.endpoint.peers.lookup peerId = some held →
        (driver.next env.recorded moment).endpoint.peers.lookup peerId =
          some now →
        now.addr ≠ held.addr →
        driver.Proves env moment peerId now.addr) ∧
      ∀ item ∈ (driver.endpoint.view peerId).journal,
        item.1.elsewhere = true →
        ∃ (session : Session) (token : Bytes),
          session.Challenged env.suite.aead token item.1.frame ∧
            ∀ entry ∈ driver.endpoint.peers.lookup peerId,
              Session.Later env.suite.aead session entry.peer.session := by
  obtain ⟨consistent, probed⟩ :=
    recorded.view_invariant peerId (View.Probed env.suite.aead)
      (fun _ => ⟨Or.inr ⟨rfl, rfl, nofun⟩, nofun, nofun⟩) View.Probed.turn
  refine ⟨?_, fun item member isElsewhere => ?_⟩
  · intro held now isHeld isNow hasMoved
    have starts : (driver.endpoint.view peerId).Placed env driver moment peerId
          held.addr := by
      refine ⟨probed, ?_, fun isEntry => ?_⟩
      · rcases probed.orderly with settled | unfiled
        · exact settled
        · cases unfiled.entry.symm.trans isHeld
      · cases isHeld.symm.trans isEntry
        exact Or.inl rfl
    have ends :=
      Driver.next_view consistent
        (View.Placed env driver moment peerId held.addr)
        (View.Placed.turn unguessed) starts
    exact (ends.placed isNow).resolve_left hasMoved
  · exact probed.sealed item (List.mem_filter.mpr ⟨member, isElsewhere⟩)

/-- The other end answers the challenge its first frame was met with. -/
def smallAnswer : Moment :=
  let spoken :=
    ((smallLink 5 [7]).alice.sealData smallEnv.suite.aead [1] 0 100).2
  let answer :=
    spoken.sealPathResponse smallEnv.suite.aead smallAttempt.token 100
  smallMoment 400 (.receive (.datagram (answer.1.toOption.getD []) (host 2) []))

/-- A pass of `poll`, up to where it reads. -/
def smallWait : List Moment :=
  [smallMoment 400 (.poll none),
    smallMoment 400 (.timers (fun _ => []) fun _ => []),
    smallMoment 400 .queues]

/-- The server that has sent the challenge, about to read. -/
def smallAwaiting : Driver (Unit × Journal) :=
  Execution.run (Driver.next smallEnv.recorded) smallDeparted smallWait

theorem moves_where_proved_of_small_answer :
    (smallAwaiting.endpoint.peers.lookup 0).map (·.addr) =
        some (host 1) ∧
      ((smallAwaiting.next smallEnv.recorded
        smallAnswer).endpoint.peers.lookup 0).map (·.addr) = some (host 2) ∧
      smallAwaiting.Proves smallEnv smallAnswer 0 (host 2) := by
  have recorded : smallAwaiting.Recorded smallEnv := by
    refine ⟨.publicKey [], (), smallDeparture ++ smallWait, ?_⟩
    rfl
  have heldAt : (smallAwaiting.endpoint.peers.lookup 0).map (·.addr) =
        some (host 1) := by
    decide +kernel
  have nowAt : ((smallAwaiting.next smallEnv.recorded
        smallAnswer).endpoint.peers.lookup 0).map (·.addr) = some (host 2) := by
    decide +kernel
  refine ⟨heldAt, nowAt, ?_⟩
  obtain ⟨held, isHeld, isHost⟩ := Option.map_eq_some_iff.mp heldAt
  obtain ⟨now, isNow, isNext⟩ := Option.map_eq_some_iff.mp nowAt
  rw [← isNext]
  refine (moves_where_proved recorded (by decide +kernel)).1 isHeld isNow ?_
  rw [isHost, isNext]
  decide

end Endpoint

end Fectp
