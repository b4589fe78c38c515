import Fectp.Endpoint.Openings
import Fectp.Endpoint.Turns

namespace Fectp

/-!
# A handle keeps its key

Handles are given out once.  A session's key does not change while the session
lasts, and no other session is filed under its handle after it.
-/

theorem Session.Later.remoteStatic
    {aead : Aead} {before after : Session} (later : Later aead before after) :
    after.remoteStatic = before.remoteStatic := by
  induction later with
  | refl => rfl
  | @tail between _ _ advance inductionHypothesis =>
    refine Eq.trans ?_ inductionHypothesis
    cases advance with
    | seals parts padding outLen =>
      have same := sealFramePadded_receiving aead between parts padding outLen
      rw [same]
    | tries frame =>
      rcases between.openFrame_cases aead frame with
        ⟨_, _, refused, _⟩ | ⟨opening, outcome⟩
      · rw [refused]
      · rw [outcome]
        unfold Opening.adopted adopt
        split <;> rfl

namespace Endpoint

open Relation (ReflTransGen)

variable {ω : Type*} {before after : Endpoint ω} {id : PeerId}

/-- Whoever a handle stands for it stood for before, and with the same key. -/
def SameKey (id : PeerId) (before after : Endpoint ω) : Prop :=
  ∀ now,
    after.peers.lookup id = some now →
    ∃ held,
      before.peers.lookup id = some held ∧
        now.peer.session.remoteStatic = held.peer.session.remoteStatic

namespace SameKey

theorem of_peers (peers : after.peers = before.peers) :
    SameKey id before after :=
  fun _ found => ⟨_, peers ▸ found, rfl⟩

theorem of_key
    (same : (after.peers.lookup id).map (·.peer.session.remoteStatic) =
        (before.peers.lookup id).map (·.peer.session.remoteStatic)) :
    SameKey id before after := by
  intro now found
  rw [found, Option.map_some] at same
  obtain ⟨held, isHeld, sameKey⟩ := Option.map_eq_some_iff.mp same.symm
  exact ⟨held, isHeld, sameKey.symm⟩

theorem of_erase {erased : PeerId} (peers : after.peers = before.peers.erase erased) :
    SameKey id before after := by
  intro now found
  rw [peers] at found
  exact ⟨now, (Table.found_of_erase found).2, rfl⟩

theorem of_visited {Effect : PeerEntry × ω → PeerEntry × ω → Prop} {peerId : PeerId}
    (visited : Touched Effect peerId before after)
    (keeps : ∀ {held now},
        Effect held now →
        now.1.peer.session.remoteStatic = held.1.peer.session.remoteStatic) :
    SameKey id before after :=
  of_key (visited.map_lookup keeps id)

theorem of_served
    {env : Env ω} {nowMs : Nat} {peerId : PeerId} (served : Served env nowMs peerId before after) :
    SameKey id before after :=
  of_visited served.toTouched fun takes => takes.2.1.remoteStatic

theorem of_file {env : Env ω} {endpoint : Endpoint ω} {filed : PeerId} {link : Session}
    {addr : SocketAddr} {nowMs : Nat} (isOther : id ≠ filed) (peers : endpoint.peers = before.peers)
    (isAfter : after.peers.lookup id = (file env endpoint filed link addr nowMs).peers.lookup id) :
    SameKey id before after := by
  intro now found
  rw [isAfter] at found
  rcases file_lookup_ne env endpoint isOther link addr nowMs with
    stays | leaves
  · rw [stays, peers] at found
    exact ⟨now, found, rfl⟩
  · rw [leaves] at found
    cases found

end SameKey

variable {env : Env ω} {datagram : Incoming} {moment : Moment}

theorem removePeer_sameKey (endpoint : Endpoint ω) (peerId : PeerId) (entry : PeerEntry) :
    SameKey id endpoint (endpoint.removePeer peerId entry) := by
  obtain ⟨bySession, removes⟩ := endpoint.removePeer_eq peerId entry
  rw [removes]
  exact .of_erase rfl

theorem OpeningAtom.sameKey
    (given : id < before.nextId) (atom : OpeningAtom env datagram before after) :
    SameKey id before after := by
  cases atom with
  | note same => exact .of_peers same.peers
  | repeated =>
    cases routed :
        before.routes.lookup (datagram.addr, datagram.header.sessionId) with
    | none =>
      rw [repeatHandshake_unrouted env routed]
      exact .of_peers rfl
    | some peerId =>
      refine .of_visited (repeatHandshake_visited env routed _).toTouched ?_
      intro held now takes
      cases takes <;> rfl
  | @filed resumed responded _ _ =>
    rcases answer_cases env before datagram.addr resumed responded datagram.nowMs with
      ⟨same, _⟩ | ⟨link, _, reply, socket, _, ⟨_, _, fails⟩ | ⟨_, files⟩⟩
    · rw [same]
      exact .of_peers rfl
    · rw [fails]
      exact .of_peers rfl
    rw [files]
    refine @SameKey.of_file _ before _ id env
      (issued env before link socket datagram.nowMs) before.nextId link
      datagram.addr datagram.nowMs given.ne rfl ?_
    unfold remembered
    rw [Table.lookup_update, if_neg given.ne]

theorem SessionAtom.sameKey
    (consistent : before.registry.Consistent) (atom : SessionAtom env datagram before after) :
    SameKey id before after := by
  cases atom with
  | budget => exact .of_served (mayTryUnknownAddress_served env before)
  | tried found _ ingests => exact .of_served (ingested_served found ingests)
  | @heard peerId entry _ _ buffer peer found _ ingests _ =>
    have later := @Peer.ingest_later env.suite entry.peer before.rx datagram.nowMs before.size
    rw [ingests] at later
    intro now isNow
    by_cases isPeer : id = peerId
    · subst isPeer
      rw [lookup_heard] at isNow
      cases isNow
      exact ⟨entry, found, later.remoteStatic⟩
    · rw [(heard_visited found peer buffer datagram.nowMs).others id
        isPeer] at isNow
      exact ⟨now, isNow, rfl⟩
  | replied _ heard =>
    obtain ⟨entry, found⟩ := heard.found
    refine .of_visited (sendToPeer_visited env found _ _ _).toTouched ?_
    rintro _ _ ⟨_, isNow⟩
    rw [isNow]
  | answered => exact .of_served (answered_served env _ before)
  | challenged _ _ =>
    exact .of_visited (startProbe_visited env before _ _ _ _).toTouched
      fun takes => takes.session.later.remoteStatic
  | moved shortlisted _ =>
    exact .of_visited (settleProbe_visited consistent shortlisted _)
      fun takes => congrArg Session.remoteStatic takes.session

theorem FrameAtom.sameKey (consistent : before.registry.Consistent) (given : id < before.nextId)
    (unbegun : before.outbound.lookup id = none) (atom : FrameAtom env datagram before after) :
    SameKey id before after := by
  cases atom with
  | opening _ atom => exact atom.sameKey given
  | session atom => exact atom.sameKey consistent
  | completed _ =>
    rcases completeOutbound_cases env before datagram.addr
        datagram.header.sessionId datagram.nowMs with
      same | ⟨peerId, outbound, paths, found, _, _, closes | files⟩
    · rw [same]
      exact .of_peers rfl
    · rw [closes]
      exact .of_peers rfl
    obtain ⟨link, _, _, isFiled⟩ := files
    rw [isFiled]
    refine @SameKey.of_file _ before _ id env
      (ticketed env (before.closed peerId paths) link datagram.nowMs)
      peerId link outbound.addr datagram.nowMs ?_ ?_ rfl
    · rintro rfl
      rw [found] at unbegun
      cases unbegun
    · unfold ticketed closed
      rfl

theorem Atom.sameKey (consistent : before.registry.Consistent) (given : id < before.nextId)
    (unbegun : before.outbound.lookup id = none) (atom : Atom env moment before after) :
    SameKey id before after := by
  cases atom with
  | note same => exact .of_peers same.peers
  | popped _ | rescanned => exact .of_peers rfl
  | frame _ _ atom => exact atom.sameKey consistent given unbegun
  | @connected addr peerPublic zeroRtt sessionId random _ =>
    rcases connectAndSend_cases env before addr peerPublic zeroRtt sessionId
        random moment.nowMs with
      same | ⟨_, _, _, ⟨_, _, fails⟩ | ⟨_, starts⟩⟩
    · rw [same]
      exact .of_peers rfl
    · rw [fails]
      exact .of_peers rfl
    · rw [starts]
      exact .of_peers rfl
  | disconnected _ =>
    unfold disconnect
    split
    · exact .of_peers rfl
    · split
      · exact .of_peers rfl
      · exact removePeer_sameKey before _ _
  | @set setting _ =>
    cases setting with
    | maxRetries attempts =>
      refine .of_key ?_
      refine (congrArg _ (before.setMaxRetries_lookup attempts id)).trans ?_
      rw [Option.map_map]
      rfl
    | handshakeReply payload =>
      refine .of_peers ?_
      unfold Endpoint.apply setHandshakeReply
      dsimp only
      split <;> rfl
    | _ => exact .of_peers rfl
  | sent _ => exact .of_served (send_served _ _ before)
  | sentOne _ found => exact .of_served (sendOneReliable_served found _ _)
  | queued _ found => exact .of_served (queued_served env moment.nowMs found _ _)
  | fed => exact .of_served (driveQueueOf_served before)
  | resent => exact .of_served (driveRetransmitsOf_served before)
  | @reopened peerId =>
    refine .of_peers ?_
    unfold resendOpening
    split
    · rfl
    split
    · rfl
    dsimp only
    split <;> rfl
  | @lost peerId _ _ =>
    unfold lose
    split
    · exact .of_peers rfl
    · exact removePeer_sameKey before _ _
  | keptAlive => exact .of_served (keepAliveOf_served _ before)
  | probed => exact .of_served (drivePmtuOf_served _ before)

/-! ### Every step -/

/-- A handle given out for a session with a key, and for nothing else. -/
structure StandsFor (id : PeerId) (key : Bytes) (endpoint : Endpoint ω) :
    Prop where
  given : id < endpoint.nextId
  unbegun : endpoint.outbound.lookup id = none
  keyed : ∀ entry,
      endpoint.peers.lookup id = some entry →
      entry.peer.session.remoteStatic = key

theorem consistent_of_stirs
    (consistent : before.registry.Consistent) (stirs : ReflTransGen Stirs before after) :
    after.registry.Consistent := by
  induction stirs with
  | refl => exact consistent
  | tail _ stir inductionHypothesis =>
    obtain ⟨_, _, atom⟩ := stir
    exact inductionHypothesis.moves (atom.moves inductionHypothesis)

theorem StandsFor.atom
    {key : Bytes} (standsFor : StandsFor id key before) (consistent : before.registry.Consistent)
    (atom : Atom env moment before after) :
    StandsFor id key after := by
  have moves := atom.moves consistent
  refine ⟨?_, ?_, ?_⟩
  · exact Nat.lt_of_lt_of_le standsFor.given (Registry.next_le_of_moves moves)
  · have unpending : before.registry.pending id = false :=
      congrArg Option.isSome standsFor.unbegun
    have still := Registry.unpending_of_moves moves standsFor.given unpending
    exact Option.not_isSome_iff_eq_none.mp (Bool.not_eq_true _ ▸ still)
  · intro now isNow
    obtain ⟨held, isHeld, sameKey⟩ :=
      atom.sameKey consistent standsFor.given standsFor.unbegun now isNow
    exact sameKey.trans (standsFor.keyed held isHeld)

theorem StandsFor.stirs
    {key : Bytes} (standsFor : StandsFor id key before) (consistent : before.registry.Consistent)
    (stirs : ReflTransGen Stirs before after) :
    StandsFor id key after := by
  induction stirs with
  | refl => exact standsFor
  | tail earlier stir inductionHypothesis =>
    obtain ⟨_, _, atom⟩ := stir
    exact inductionHypothesis.atom (consistent_of_stirs consistent earlier) atom

/-- A session's handle stands for its key. -/
theorem standsFor_of_session {entry : PeerEntry} (consistent : before.registry.Consistent)
    (found : before.peers.lookup id = some entry) :
    StandsFor id entry.peer.session.remoteStatic before := by
  have isPlace := registry_place found
  refine ⟨consistent.issued id ?_, ?_, ?_⟩
  · refine Or.inr ?_
    rw [isPlace]
    exact Option.some_ne_none _
  · rw [← Option.not_isSome_iff_eq_none]
    intro pending
    rw [consistent.apart id pending] at isPlace
    cases isPlace
  · intro other isOther
    cases found.symm.trans isOther
    rfl

end Endpoint

end Fectp
