import Fectp.Endpoint.Forgery
import Fectp.Endpoint.Offers

namespace Fectp

/-!
# What is sent before a peer has spoken

A session costs whoever asks for it one datagram, whose source may be forged.
Until something authenticates on it the endpoint answers, and answers again if
the opening frame is seen again, and sends nothing else of its own accord.
-/

open Relation (ReflTransGen)

variable {ω : Type*}

namespace Endpoint

/-- How many datagrams were taken. -/
def View.taken (view : View) : Nat :=
  view.journal.countP (·.2)

/-- How often a response may still be sent again. -/
def PeerEntry.repeatsLeft (entry : PeerEntry) : Nat :=
  entry.handshakeReply.elim 0 Prod.snd

/-- The next handle to be given out goes to a session this step files. -/
def Driver.Accepts
    (env : Env ω)
    (driver : Driver (ω × Journal))
    (moment : Moment)
    (peerId : PeerId) :
    Prop :=
  driver.endpoint.nextId = peerId ∧
    ((driver.next env.recorded moment).endpoint.peers.lookup
      peerId).isSome = true

/-- Nothing has authenticated on the session of a handle. -/
def Driver.Unheard (driver : Driver ω) (peerId : PeerId) : Prop :=
  ∀ entry ∈ driver.endpoint.peers.lookup peerId, entry.spoke = false

/--
The frame that opened a session is seen again, after its response has been sent
again as often as the count allows.
-/
def Driver.exhausts (driver : Driver ω) (moment : Moment) (peerId : PeerId) :
    Bool :=
  match moment.action, driver.endpoint.peers.lookup peerId with
  | .receive (.datagram bytes addr _), some entry =>
      match Header.decode bytes with
      | .ok header =>
          (header.frameType == .handshakeInit ||
              header.frameType == .resumeInit) &&
            entry.addr == addr &&
            entry.sessionId == header.sessionId &&
            entry.handshakeReply.any (·.2 == 0)
      | .error _ =>
          false
  | _, _ =>
      false

namespace View

/-- A handle not given out has cost nothing. -/
structure Untouched (view : View) : Prop where
  pending : view.pending = false
  entry : view.entry = none
  taken : view.taken = 0

@[simp] theorem taken_append (view : View) (entry : Option PeerEntry) (pending issued : Bool)
    (size : Nat) (items : Journal) :
    View.taken ⟨entry, pending, issued, size, view.journal ++ items⟩ =
      view.taken + items.countP (·.2) :=
  List.countP_append

/-- A handle is untouched until it is given out. -/
theorem Untouched.turn {aead : Aead} {moment : Moment} {start before after : View}
    {Offered : View → Ingested → Prop} {peerId : PeerId}
    (turn : Turn aead moment start Offered peerId before after)
    (untouched : before.issued = false → before.Untouched) :
    after.issued = false → after.Untouched := by
  intro unissued
  cases turn with
  | served found | heard _ found | unsealed _ _ found
  | challenged _ _ found | moved _ _ found | unrepeated found
  | repeated _ _ _ _ _ found =>
    rw [(untouched unissued).entry] at found
    cases found
  | gone => exact ⟨(untouched unissued).pending, rfl, (untouched unissued).taken⟩
  | refused =>
    refine ⟨(untouched unissued).pending, (untouched unissued).entry, ?_⟩
    rw [taken_append, (untouched unissued).taken]
    rfl
  | filed | connected => cases unissued
  | reopened isPending | closed isPending | completed _ _ isPending =>
    rw [(untouched unissued).pending] at isPending
    cases isPending

/-- A handle that was given to a session accepted here. -/
structure Accepted (view : View) : Prop where
  issued : view.issued = true
  unopened : view.pending = false

/-- An accepted session that has not spoken, and what it has cost. -/
structure Reflects (view : View) : Prop extends Accepted view where
  bounded : view.taken + view.entry.elim 0 PeerEntry.repeatsLeft ≤
      1 + handshakeReplies
  silent : ∀ {entry},
      view.entry = some entry →
      entry.spoke = false ∧ entry.peer.Idle

/-- One that has spoken, in a step that makes none leave. -/
structure Speaks (moment : Moment) (view : View) : Prop
    extends Accepted view where
  carries : moment.Carries
  spoke : ∃ entry, view.entry = some entry ∧ entry.spoke = true

section Steps

variable {aead : Aead} {moment : Moment} {start before after : View}
  {Offered : View → Ingested → Prop} {peerId : PeerId}

/-- Once it has spoken, a session goes on having spoken. -/
theorem Speaks.turn
    (turn : Turn aead moment start Offered peerId before after) (speaks : before.Speaks moment) :
    after.Speaks moment := by
  obtain ⟨⟨issued, unopened⟩, carries, entry, isEntry, spoke⟩ := speaks
  cases turn with
  | @served held now _ found alike =>
    rw [isEntry] at found
    cases found
    exact ⟨⟨issued, unopened⟩, carries, now, rfl, alike.spoke.trans spoke⟩
  | heard | unsealed | challenged | moved => exact ⟨⟨issued, unopened⟩, carries, _, rfl, rfl⟩
  | unrepeated => exact ⟨⟨issued, unopened⟩, carries, entry, isEntry, spoke⟩
  | repeated _ _ _ _ _ found =>
    rw [isEntry] at found
    cases found
    exact ⟨⟨issued, unopened⟩, carries, _, rfl, spoke⟩
  | gone uncarried => exact absurd carries uncarried
  | filed _ _ unissued | refused unissued | connected _ unissued =>
    rw [issued] at unissued
    cases unissued
  | reopened isPending | closed isPending | completed _ _ isPending =>
    rw [unopened] at isPending
    cases isPending

/--
Each turn leaves a silent session within its bound, or is its first word.
-/
theorem Reflects.turn (unasked : moment.asks peerId = false)
    (unexhausted : ∀ {held bytes random header reply},
        moment.action = .receive (.datagram bytes held.addr random) →
        Header.decode bytes = .ok header →
        header.frameType = .handshakeInit ∨ header.frameType = .resumeInit →
        held.sessionId = header.sessionId →
        start.entry = some held →
        held.handshakeReply ≠ some (reply, 0))
    (turn : Turn aead moment start Offered peerId before after) (reflects : before.Reflects) :
    after.Reflects ∨ after.Speaks moment := by
  obtain ⟨⟨issued, unopened⟩, bounded, silent⟩ := reflects
  cases turn with
  | @served held now items found alike _ _ quiet =>
    obtain ⟨unspoken, idle⟩ := silent found
    obtain ⟨idleNow, rfl⟩ := quiet unspoken idle unasked
    rw [found] at bounded
    refine Or.inl ⟨⟨issued, unopened⟩, ?_, ?_⟩
    · rw [taken_append]
      simp only [Option.elim_some, PeerEntry.repeatsLeft, alike.handshakeReply] at bounded ⊢
      exact bounded
    · intro entry isEntry
      cases isEntry
      exact ⟨alike.spoke.trans unspoken, idleNow⟩
  | heard carries | unsealed carries | challenged carries
  | moved carries => exact Or.inr ⟨⟨issued, unopened⟩, carries, _, rfl, rfl⟩
  | unrepeated found =>
    refine Or.inl ⟨⟨issued, unopened⟩, ?_, silent⟩
    rw [taken_append]
    exact bounded
  | @repeated held _ _ _ reply left taken isAction decoded opens isSession
      isStart found isHeld =>
      obtain ⟨unspoken, idle⟩ := silent found
      have someLeft : left ≠ 0 := by
        rintro rfl
        exact unexhausted isAction decoded opens isSession (isStart ▸ found) isHeld
      rw [found] at bounded
      refine Or.inl ⟨⟨issued, unopened⟩, ?_, ?_⟩
      · have atMostOne : ([(⟨reply, held.addr, peerId, some held.addr, moment.nowMs⟩,
                taken)] : Journal).countP (·.2) ≤ 1 :=
          List.countP_le_length
        rw [taken_append]
        simp only [Option.elim_some, PeerEntry.repeatsLeft, isHeld, if_neg someLeft] at bounded ⊢
        omega
      · intro entry isEntry
        cases isEntry
        exact ⟨unspoken, idle⟩
  | gone =>
    refine Or.inl ⟨⟨issued, unopened⟩, ?_, nofun⟩
    exact Nat.le_trans (Nat.le_add_right _ _) bounded
  | filed _ _ unissued | refused unissued | connected _ unissued =>
    rw [issued] at unissued
    cases unissued
  | reopened isPending | closed isPending | completed _ _ isPending =>
    rw [unopened] at isPending
    cases isPending

/-- What a handle has come to in the step that gives it out. -/
structure Issuing (moment : Moment) (view : View) : Prop where
  untouched : view.issued = false → view.Untouched
  issued : view.issued = true →
      (view.Reflects ∧
        ¬ moment.Carries ∧
        ∃ receipt, moment.action = .receive receipt) ∨
      (∀ receipt, moment.action ≠ .receive receipt) ∧ view.entry = none

theorem Issuing.turn
    (isStart : start.entry = none) (turn : Turn aead moment start Offered peerId before after)
    (issuing : before.Issuing moment) :
    after.Issuing moment := by
  refine ⟨Untouched.turn turn issuing.untouched, fun isIssued => ?_⟩
  cases wasIssued : before.issued with
  | true =>
    rcases issuing.issued wasIssued with
      ⟨reflects, uncarried, receipt, isAction⟩ | ⟨notReceived, absent⟩
    · have unasked : moment.asks peerId = false := by
        simp [Moment.asks, isAction]
      rcases reflects.turn unasked (fun _ _ _ _ found => by rw [isStart] at found; cases found)
          turn with reflects | speaks
      · exact Or.inl ⟨reflects, uncarried, receipt, isAction⟩
      · exact absurd speaks.carries uncarried
    · refine Or.inr ⟨notReceived, ?_⟩
      cases turn with
      | served found | heard _ found | unsealed _ _ found
      | challenged _ _ found | moved _ _ found
      | repeated _ _ _ _ _ found =>
        rw [absent] at found
        cases found
      | gone => rfl
      | filed _ _ unissued =>
        rw [wasIssued] at unissued
        cases unissued
      | completed isAction => exact absurd isAction (notReceived _)
      | _ => exact absent
  | false =>
    obtain ⟨unopened, absent, untaken⟩ := issuing.untouched wasIssued
    cases turn with
    | @filed entry sending taken receipt isAction uncarried _ unused
        isReply =>
        refine Or.inl ⟨⟨⟨rfl, unopened⟩, ?_, ?_⟩, uncarried, receipt, isAction⟩
        · rw [taken_append, untaken]
          simp only [Option.elim_some, PeerEntry.repeatsLeft, isReply]
          cases taken
          · simp
          · simp
        · intro found isFound
          cases isFound
          exact ⟨unused.spoke, unused.idle⟩
    | connected notReceived => exact Or.inr ⟨notReceived, absent⟩
    | _ =>
      rw [show before.issued = true from isIssued] at wasIssued
      cases wasIssued

end Steps

end View

/-! ### Whole runs -/

/-- The step that accepts a session sends it one response. -/
theorem Driver.Accepts.reflects {env : Env ω} {driver : Driver (ω × Journal)} {moment : Moment}
    {peerId : PeerId} (recorded : driver.Recorded env)
    (accepts : driver.Accepts env moment peerId) :
    (driver.next env.recorded moment).endpoint.registry.Consistent ∧
      ((driver.next env.recorded moment).endpoint.view peerId).Reflects := by
  obtain ⟨consistent, untouched⟩ :=
    recorded.view_invariant peerId (fun view => view.issued = false → view.Untouched)
      (fun _ _ => ⟨rfl, rfl, rfl⟩) View.Untouched.turn
  obtain ⟨isNext, isFiled⟩ := accepts
  have unissued : (driver.endpoint.view peerId).issued = false :=
    decide_eq_false (isNext ▸ Nat.lt_irrefl _)
  have absent := (untouched unissued).entry
  have issuing : ((driver.next env.recorded moment).endpoint.view peerId).Issuing moment := by
    refine Driver.next_view consistent (View.Issuing moment)
      (View.Issuing.turn absent) ⟨untouched, fun isIssued => ?_⟩
    rw [unissued] at isIssued
    cases isIssued
  refine ⟨Driver.next_consistent env.recorded consistent moment, ?_⟩
  have notAbsent : ((driver.next env.recorded moment).endpoint.view peerId).entry ≠ none :=
    Option.isSome_iff_ne_none.mp isFiled
  cases isIssued :
      ((driver.next env.recorded moment).endpoint.view peerId).issued with
  | false => exact absurd (issuing.untouched isIssued).entry notAbsent
  | true =>
    rcases issuing.issued isIssued with ⟨reflects, _⟩ | ⟨_, absent⟩
    · exact reflects
    · exact absurd absent notAbsent

/-- A step that meets the condition keeps a silent session within its bound. -/
theorem Driver.next_reflects {env : Env ω} {driver : Driver (ω × Journal)} {moment : Moment}
    {peerId : PeerId} (unasked : moment.asks peerId = false)
    (unexhausted : driver.exhausts moment peerId = false)
    (unheard : (driver.next env.recorded moment).Unheard peerId)
    (consistent : driver.endpoint.registry.Consistent)
    (reflects : (driver.endpoint.view peerId).Reflects) :
    ((driver.next env.recorded moment).endpoint.view peerId).Reflects := by
  have unspent : ∀ {held : PeerEntry} {bytes random : Bytes} {header : Header}
          {reply : Bytes},
        moment.action = .receive (.datagram bytes held.addr random) →
        Header.decode bytes = .ok header →
        header.frameType = .handshakeInit ∨ header.frameType = .resumeInit →
        held.sessionId = header.sessionId →
        (driver.endpoint.view peerId).entry = some held →
        held.handshakeReply ≠ some (reply, 0) := by
    intro held bytes random header reply isAction decoded opens isSession found isReply
    have opensFrame : (header.frameType == .handshakeInit ||
          header.frameType == .resumeInit) = true := by
      simpa using opens
    unfold exhausts at unexhausted
    rw [isAction, show driver.endpoint.peers.lookup peerId = _ from found] at unexhausted
    simp [decoded, opensFrame, isSession, isReply] at unexhausted
  have outcome : ((driver.next env.recorded moment).endpoint.view peerId).Reflects ∨
        ((driver.next env.recorded moment).endpoint.view peerId).Speaks moment :=
    Driver.next_view consistent (fun view => view.Reflects ∨ view.Speaks moment) (fun turn so =>
        so.elim (View.Reflects.turn unasked unspent turn) fun speaks => Or.inr (speaks.turn turn))
      (Or.inl reflects)
  rcases outcome with reflects | ⟨_, _, entry, isEntry, spoke⟩
  · exact reflects
  · rw [unheard entry isEntry] at spoke
    cases spoke

/--
A session accepted here costs no more than its response and the repeats it is
allowed, in every run in which nothing has authenticated on it yet, the caller
sends it nothing, and the frame that opened it is not seen again once the
repeats are used up.
-/
theorem reflection_bounded
    {env : Env ω}
    {before final : Driver (ω × Journal)}
    {accepting : Moment}
    {later : List Moment}
    {peerId : PeerId}
    (recorded : before.Recorded env)
    (accepts : before.Accepts env accepting peerId)
    (admitted :
      Execution.Admits (Driver.next env.recorded)
        (fun driver moment =>
          moment.asks peerId = false ∧
            (driver.next env.recorded moment).Unheard peerId ∧
            driver.exhausts moment peerId = false)
        (before.next env.recorded accepting) later)
    (isFinal :
      final =
        Execution.run (Driver.next env.recorded)
          (before.next env.recorded accepting) later) :
    (final.endpoint.view peerId).taken ≤ 1 + handshakeReplies := by
  have preserved : ∀ {driver : Driver (ω × Journal)} {moment : Moment},
        (moment.asks peerId = false ∧
          (driver.next env.recorded moment).Unheard peerId ∧
          driver.exhausts moment peerId = false) →
        (driver.endpoint.registry.Consistent ∧
          (driver.endpoint.view peerId).Reflects) →
        (driver.next env.recorded moment).endpoint.registry.Consistent ∧
          ((driver.next env.recorded moment).endpoint.view
            peerId).Reflects := by
    rintro driver moment ⟨unasked, unheard, unexhausted⟩ ⟨consistent, reflects⟩
    exact ⟨Driver.next_consistent env.recorded consistent moment,
      Driver.next_reflects unasked unexhausted unheard consistent reflects⟩
  have reached :=
    Execution.invariant_of_admits preserved admitted (accepts.reflects recorded)
  rw [← isFinal] at reached
  exact Nat.le_trans (Nat.le_add_right _ _) reached.2.bounded


instance (driver : Driver ω) (peerId : PeerId) :
    Decidable (driver.Unheard peerId) :=
  inferInstanceAs
    (Decidable
      (∀ entry ∈ driver.endpoint.peers.lookup peerId, entry.spoke = false))

/-- A server that keeps a journal, about to read. -/
def smallReader : Driver (Unit × Journal) :=
  Execution.run (Driver.next smallEnv.recorded)
    (Driver.new (Endpoint.new smallEnv.recorded (.publicKey []) ((), [])))
    [smallMoment 0 (.poll none),
      smallMoment 0 (.timers (fun _ => []) fun _ => []),
      smallMoment 0 .queues]

/-- An opening frame arrives. -/
def smallKnock : Moment :=
  smallMoment 0
    (.receive (.datagram (smallOpening .handshakeInit 5 [7]) (host 1) []))

/-- The same frame, seen again so many times. -/
def smallKnocks (count : Nat) : List Moment :=
  (List.replicate count
    (smallPass 1 (smallOpening .handshakeInit 5 [7]) (host 1) [])).flatten

/-- The server once it has seen them. -/
def smallKnocked (count : Nat) : Driver (Unit × Journal) :=
  Execution.run (Driver.next smallEnv.recorded)
    (smallReader.next smallEnv.recorded smallKnock) (smallKnocks count)

theorem reflection_bounded_of_small_knocks :
    (smallReader.Accepts smallEnv smallKnock 0 ∧
      ((smallKnocked 8).endpoint.view 0).taken = 9) ∧
      ((smallKnocked 8).endpoint.view 0).taken ≤ 1 + handshakeReplies :=
  ⟨⟨⟨rfl, by decide +kernel⟩, by decide +kernel⟩,
    reflection_bounded ⟨_, _, _, rfl⟩ ⟨rfl, by decide +kernel⟩
      (by decide +kernel) rfl⟩

theorem ninth_repeat_is_sent :
    smallReader.Recorded smallEnv ∧
      smallReader.Accepts smallEnv smallKnock 0 ∧
      Execution.Admits (Driver.next smallEnv.recorded)
        (fun driver moment =>
          moment.asks 0 = false ∧
            (driver.next smallEnv.recorded moment).Unheard 0)
        (smallReader.next smallEnv.recorded smallKnock) (smallKnocks 9) ∧
      1 + handshakeReplies < ((smallKnocked 9).endpoint.view 0).taken :=
  ⟨⟨_, _, _, rfl⟩, ⟨rfl, by decide +kernel⟩, by decide +kernel,
    by decide +kernel⟩

end Endpoint

end Fectp
