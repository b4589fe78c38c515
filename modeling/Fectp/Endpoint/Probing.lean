import Fectp.Endpoint.Offers

namespace Fectp

/-!
# Challenges to addresses not on file

Of all a session sends, only challenges go anywhere but the address on file.
What turns do to the challenges sent and to the probe held is gathered here.
-/

open Relation (ReflTransGen)

variable {ω : Type*}

theorem Session.sealPathChallenge_advance
    {aead : Aead} {session after : Session} {token : Bytes} {outLen : Nat}
    {outcome : Except CoreError Bytes}
    (seals : session.sealPathChallenge aead token outLen = (outcome, after)) :
    Advance aead session after := by
  have advance : Advance aead session (session.sealPathChallenge aead token outLen).2 :=
    .seals _ _ _
  rw [seals] at advance
  exact advance

/-- The datagram goes somewhere else than where its session is filed. -/
def Sending.elsewhere (sending : Sending) : Bool :=
  sending.filed.any (· != sending.addr)

theorem Sending.ToPeer.here {sending : Sending} {peerId : PeerId} {addr : SocketAddr} {nowMs : Nat}
    (toPeer : sending.ToPeer peerId addr nowMs) :
    sending.elsewhere = false := by
  unfold elsewhere
  rw [toPeer.2.2.1, toPeer.2.1]
  simp

/-- The same session, filed where it was and under the same test. -/
structure PeerEntry.Continues
    (aead : Aead)
    (before after : PeerEntry) :
    Prop where
  addr : after.addr = before.addr
  probe : after.probe = before.probe
  later : Session.Later aead before.peer.session after.peer.session

namespace Endpoint

namespace View

/-- What a handle sent to addresses its session was not filed under. -/
def challenges (view : View) : Journal :=
  view.journal.filter (·.1.elsewhere)

variable (view : View) (entry : Option PeerEntry) (pending issued : Bool)
  (size : Nat)

@[simp] theorem challenges_append (items : Journal) :
    View.challenges ⟨entry, pending, issued, size, view.journal ++ items⟩ =
      view.challenges ++ items.filter (·.1.elsewhere) :=
  List.filter_append _ _

theorem filter_elsewhere_eq_nil
    {items : Journal} (here : ∀ item ∈ items, item.1.elsewhere = false) :
    items.filter (·.1.elsewhere) = [] :=
  List.filter_eq_nil_iff.mpr fun item member isElsewhere => by
    rw [here item member] at isElsewhere
    cases isElsewhere

/-- A turn, as far as probes and challenges go. -/
inductive Probing
    (aead : Aead)
    (moment : Moment)
    (Offered : View → Ingested → Prop)
    (peerId : PeerId) :
    View → View → Prop where
  /-- No address is under test that was not before. -/
  | stays {before after : View} :
      after.challenges = before.challenges →
      after.size = before.size →
      (∀ {now},
        after.entry = some now →
        (∃ held,
            before.entry = some held ∧ held.Continues aead now) ∨
          (before.issued = false ∨ before.pending = true) ∧ now.probe = none) →
      Probing aead moment Offered peerId before after
  /-- An address is to be challenged, which may fail. -/
  | tests {before after : View} {held now : PeerEntry}
      {ingested : Ingested} {bytes random : Bytes} {addr : SocketAddr}
      {probe : AddressProbe} {session : Session}
      {outcome : Except CoreError Bytes} (taken : Bool) :
      moment.action = .receive (.datagram bytes addr random) →
      before.entry = some held →
      held.addr ≠ addr →
      Offered before ingested →
      (∀ token, ingested ≠ .pathValidated token) →
      NextProbe held.probe addr random moment.nowMs probe →
      Session.Later aead held.peer.session session →
      session.sealPathChallenge aead probe.token before.size =
        (outcome, now.peer.session) →
      after.size = before.size →
      after.entry = some now →
      now.addr = held.addr →
      now.probe =
        some
          (if outcome.isOk then
            { probe with sent := probe.sent + 1, last := moment.nowMs }
          else
            probe) →
      after.challenges =
        before.challenges ++
          outcome.toOption.toList.map
            (fun frame =>
              (⟨frame, addr, peerId, some held.addr, moment.nowMs⟩, taken)) →
      Probing aead moment Offered peerId before after
  /-- An address has proved itself. -/
  | moves {before after : View} {held now : PeerEntry}
      {bytes random : Bytes} {addr : SocketAddr} {probe : AddressProbe} :
      moment.action = .receive (.datagram bytes addr random) →
      before.entry = some held →
      held.addr ≠ addr →
      Offered before (.pathValidated probe.token) →
      held.probe = some probe →
      probe.addr = addr →
      Session.Later aead held.peer.session now.peer.session →
      after.size = before.size →
      after.entry = some now →
      now.addr = addr →
      now.probe = none →
      after.challenges = before.challenges →
      Probing aead moment Offered peerId before after

/-- One datagram to where the session is filed, or for none, adds nothing. -/
theorem challenges_here {sending : Sending} (here : sending.elsewhere = false) (taken : Bool) :
    View.challenges
        ⟨entry, pending, issued, size, view.journal ++ [(sending, taken)]⟩ =
      view.challenges := by
  rw [challenges_append, filter_elsewhere_eq_nil, List.append_nil]
  intro item member
  rw [List.mem_singleton.mp member]
  exact here

theorem challenges_unfiled {sending : Sending} (unfiled : sending.filed = none) (taken : Bool) :
    View.challenges
        ⟨entry, pending, issued, size, view.journal ++ [(sending, taken)]⟩ =
      view.challenges := by
  refine view.challenges_here entry pending issued size ?_ taken
  rw [Sending.elsewhere, unfiled]
  rfl

end View

theorem Turn.probing {aead : Aead} {moment : Moment} {start before after : View}
    {Offered : View → Ingested → Prop} {peerId : PeerId}
    (turn : Turn aead moment start Offered peerId before after) :
    View.Probing aead moment Offered peerId before after := by
  -- Whatever goes where the session is filed leaves no trace here.
  have repeats : ∀ {reply : Bytes} {held : PeerEntry},
        Sending.elsewhere ⟨reply, held.addr, peerId, some held.addr, moment.nowMs⟩ = false :=
    Sending.ToPeer.here ⟨rfl, rfl, rfl, rfl⟩
  have kept : ∀ {found},
        before.entry = some found →
        (∃ held, before.entry = some held ∧ held.Continues aead found) ∨
          (before.issued = false ∨ before.pending = true) ∧ found.probe = none :=
    fun isFound => Or.inl ⟨_, isFound, rfl, rfl, .refl⟩
  cases turn with
  | @served held now items isHeld alike later toPeer quiet =>
    refine .stays ?_ rfl fun isFound => ?_
    · rw [View.challenges_append,
        View.filter_elsewhere_eq_nil fun item member =>
          (toPeer item member).here,
        List.append_nil]
    · cases isFound
      exact Or.inl ⟨held, isHeld, alike.addr, alike.probe, later⟩
  | heard _ isHeld later =>
    refine .stays rfl rfl fun isFound => ?_
    cases isFound
    exact Or.inl ⟨_, isHeld, rfl, rfl, later⟩
  | unsealed _ isAction isHeld strange offered asked later isNext seals =>
    exact .tests true isAction isHeld strange offered asked isNext later
      seals rfl rfl rfl rfl (List.append_nil _).symm
  | @challenged held _ _ _ _ _ _ _ _ _ taken _ isAction isHeld strange
      offered asked later isNext seals =>
      refine .tests taken isAction isHeld strange offered asked isNext later
        seals rfl rfl rfl rfl ?_
      rw [View.challenges_append]
      refine congrArg (before.challenges ++ ·) (List.filter_eq_self.mpr ?_)
      intro item member
      rw [List.mem_singleton.mp member]
      exact bne_iff_ne.mpr strange
  | moved _ isAction isHeld strange offered isProbe isAddr later =>
    exact .moves isAction isHeld strange offered isProbe isAddr later rfl rfl rfl rfl rfl
  | unrepeated isHeld isReply => exact .stays (before.challenges_here _ _ _ _ repeats _) rfl kept
  | repeated _ _ _ _ _ isHeld isReply =>
    refine .stays (before.challenges_here _ _ _ _ repeats _) rfl fun isFound => ?_
    cases isFound
    exact Or.inl ⟨_, isHeld, rfl, rfl, .refl⟩
  | gone _ => exact .stays rfl rfl nofun
  | filed _ _ unissued unused _ unfiled =>
    refine .stays (before.challenges_unfiled _ _ _ _ unfiled _) rfl fun isFound => ?_
    cases isFound
    exact Or.inr ⟨Or.inl unissued, unused.probe⟩
  | refused _ unfiled => exact .stays (before.challenges_unfiled _ _ _ _ unfiled _) rfl kept
  | connected _ _ unfiled => exact .stays (before.challenges_unfiled _ _ _ _ unfiled _) rfl kept
  | reopened _ unfiled => exact .stays (before.challenges_unfiled _ _ _ _ unfiled _) rfl kept
  | closed _ => exact .stays rfl rfl kept
  | completed _ _ isPending unused =>
    refine .stays rfl rfl fun isFound => ?_
    cases isFound
    exact Or.inr ⟨Or.inr isPending, unused.probe⟩

end Endpoint

end Fectp
