import Fectp.Endpoint.Visits
import Fectp.Registry
import Mathlib.Data.Prod.Lex
import Mathlib.Order.BooleanAlgebra.Basic

namespace Fectp

/-!
# The indices of an endpoint

An endpoint's tables show a registry: handles pending in `outbound` and filed
in `peers`, found by `routes` and listed by `bySession`.  Each atom of a step is
a few moves of the registry, so the indices stay in step with the peer table
along every run.
-/

/-- Where a session is filed. -/
def PeerEntry.place (entry : PeerEntry) : SocketAddr × BitVec 32 :=
  (entry.addr, entry.sessionId)

/-- What eviction goes by: those that have spoken last, then the oldest. -/
def PeerEntry.rank (entry : PeerEntry) : Bool ×ₗ Nat :=
  toLex (entry.spoke, entry.filed)

namespace Endpoint

variable {ω : Type*}

open Function (update update_self update_of_ne)
open Relation (ReflTransGen)
open Registry (Move Leave)

/-- The registry an endpoint's tables show. -/
def registry (endpoint : Endpoint ω) : Registry SocketAddr (BitVec 32) where
  place id := (endpoint.peers.lookup id).map PeerEntry.place
  route place := endpoint.routes.lookup place
  shelf sessionId := endpoint.bySession.lookup sessionId
  pending id := (endpoint.outbound.lookup id).isSome
  next := endpoint.nextId

/-! ### Changes to single tables -/

theorem place_insert (peers : Table PeerId PeerEntry) (peerId : PeerId) (entry : PeerEntry) :
    (fun id => ((peers.insert peerId entry).lookup id).map PeerEntry.place) =
      update (fun id => (peers.lookup id).map PeerEntry.place) peerId (some entry.place) := by
  funext id
  by_cases isPeer : id = peerId
  · rw [isPeer, AList.lookup_insert, update_self, Option.map_some]
  · rw [AList.lookup_insert_ne isPeer, update_of_ne isPeer]

theorem place_erase (peers : Table PeerId PeerEntry) (peerId : PeerId) :
    (fun id => ((peers.erase peerId).lookup id).map PeerEntry.place) =
      update (fun id => (peers.lookup id).map PeerEntry.place) peerId none := by
  funext id
  by_cases isPeer : id = peerId
  · rw [isPeer, AList.lookup_erase, update_self, Option.map_none]
  · rw [AList.lookup_erase_ne isPeer, update_of_ne isPeer]

/-- A session changed in place stays where it is filed. -/
theorem registry_putEntry {endpoint : Endpoint ω} {peerId : PeerId} {entry after : PeerEntry}
    (found : endpoint.peers.lookup peerId = some entry) (same : after.place = entry.place) :
    (endpoint.putEntry peerId after).registry = endpoint.registry := by
  have samePlaces : (fun id =>
        ((endpoint.peers.insert peerId after).lookup id).map PeerEntry.place) =
        fun id => (endpoint.peers.lookup id).map PeerEntry.place := by
    rw [place_insert, same]
    funext id
    by_cases isPeer : id = peerId
    · rw [isPeer, update_self, found, Option.map_some]
    · rw [update_of_ne isPeer]
  unfold registry putEntry
  rw [samePlaces]

variable (env : Env ω) (endpoint : Endpoint ω) (peerId : PeerId)
  (entry : PeerEntry)

theorem registry_update
    {change : PeerEntry → PeerEntry} (same : ∀ entry, (change entry).place = entry.place) :
    ({ endpoint with peers := endpoint.peers.update peerId change } :
      Endpoint ω).registry = endpoint.registry := by
  unfold Table.update
  split
  · next entry found => exact registry_putEntry found (same entry)
  · rfl

theorem registry_unfileSession (sessionId : BitVec 32) (peerId : PeerId) :
    (endpoint.unfileSession sessionId peerId).registry = { endpoint.registry with
        shelf :=
          update endpoint.registry.shelf sessionId
            (Registry.unshelve peerId (endpoint.registry.shelf sessionId)) } := by
  unfold unfileSession registry Registry.unshelve
  dsimp only
  cases shelf : endpoint.bySession.lookup sessionId with
  | none =>
    dsimp only
    rw [Option.map_none, Option.filter_none, ← shelf, Function.update_eq_self]
  | some sharing =>
    dsimp only
    rw [Option.map_some, Option.filter_some]
    split
    · next isEmpty => rw [if_neg (by simpa using isEmpty), Table.lookup_erase]
    · next notEmpty => rw [if_pos (by simpa using notEmpty), Table.lookup_insert]

theorem registry_removePeer :
    (endpoint.removePeer peerId entry).registry = endpoint.registry.remove peerId entry.place := by
  unfold removePeer
  rw [registry_unfileSession]
  unfold Registry.remove registry
  rw [place_erase, Table.lookup_erase]
  rfl

/-- A session on file leaves. -/
theorem removePeer_leaves {endpoint : Endpoint ω} {peerId : PeerId} {entry : PeerEntry}
    (found : endpoint.peers.lookup peerId = some entry) :
    Leave endpoint.registry (endpoint.removePeer peerId entry).registry := by
  rw [registry_removePeer]
  refine .leave ?_
  unfold registry
  dsimp only
  rw [found, Option.map_some]

/-! ### Filing -/

theorem evictedBefore_iff {first second : PeerEntry} :
    evictedBefore first second = true ↔ first.rank < second.rank := by
  unfold evictedBefore PeerEntry.rank
  rw [Prod.Lex.toLex_lt_toLex]
  cases first.spoke <;> cases second.spoke <;> simp

/-- Going through a list for the first least entry. -/
theorem least_of_foldl (held : List (PeerId × PeerEntry)) {least chosen : PeerId × PeerEntry}
    (chooses : held.foldl (fun least candidate =>
          match least with
          | none => some candidate
          | some least => some (if evictedBefore candidate.2 least.2 then candidate else least))
        (some least) =
        some chosen) :
    chosen ∈ least :: held ∧ ∀ candidate ∈ least :: held, chosen.2.rank ≤ candidate.2.rank := by
  induction held generalizing least with
  | nil =>
    cases chooses
    refine ⟨List.mem_cons_self, fun candidate member => ?_⟩
    rw [List.mem_singleton.mp member]
  | cons head rest inductionHypothesis =>
    obtain ⟨isChosen, leads⟩ := inductionHypothesis chooses
    have first := leads _ List.mem_cons_self
    have behind : ∀ candidate ∈ rest, chosen.2.rank ≤ candidate.2.rank :=
      fun candidate member => leads candidate (List.mem_cons_of_mem _ member)
    by_cases precedes : evictedBefore head.2 least.2 = true
    · rw [if_pos precedes] at isChosen first
      refine ⟨List.mem_cons_of_mem _ isChosen, fun candidate member => ?_⟩
      rcases List.mem_cons.mp member with isLeast | member
      · rw [isLeast]
        exact first.trans (evictedBefore_iff.mp precedes).le
      rcases List.mem_cons.mp member with isHead | inRest
      · rw [isHead]
        exact first
      · exact behind candidate inRest
    · rw [if_neg precedes] at isChosen first
      refine ⟨?_, fun candidate member => ?_⟩
      · rcases List.mem_cons.mp isChosen with isLeast | inRest
        · rw [isLeast]
          exact List.mem_cons_self
        · exact List.mem_cons_of_mem _ (List.mem_cons_of_mem _ inRest)
      · rcases List.mem_cons.mp member with isLeast | member
        · rw [isLeast]
          exact first
        · rcases List.mem_cons.mp member with isHead | inRest
          · rw [isHead]
            exact first.trans (not_lt.mp fun less => precedes (evictedBefore_iff.mpr less))
          · exact behind candidate inRest

/-- The peer dropped is on file, and none is dropped before it. -/
theorem victim_some {env : Env ω} {endpoint : Endpoint ω} {peerId : PeerId} {entry : PeerEntry}
    (chosen : victim env endpoint = some (peerId, entry)) :
    endpoint.peers.lookup peerId = some entry ∧ ∀ other held,
        endpoint.peers.lookup other = some held →
        entry.rank ≤ held.rank := by
  unfold victim at chosen
  have mem_held : ∀ {candidate : PeerId × PeerEntry},
        candidate ∈ (env.walk.order endpoint.peers.keys).filterMap
              (fun id => (endpoint.peers.lookup id).map (id, ·)) ↔
          endpoint.peers.lookup candidate.1 = some candidate.2 := by
    intro candidate
    rw [List.mem_filterMap]
    constructor
    · rintro ⟨id, _, isCandidate⟩
      obtain ⟨held, found, rfl⟩ := Option.map_eq_some_iff.mp isCandidate
      exact found
    · intro found
      refine ⟨candidate.1, ?_, by rw [found, Option.map_some]⟩
      rw [(env.walk.perm _).mem_iff]
      exact AList.lookup_isSome.mp (by rw [found]; rfl)
  cases isHeld :
      (env.walk.order endpoint.peers.keys).filterMap
        (fun id => (endpoint.peers.lookup id).map (id, ·)) with
  | nil =>
    rw [isHeld] at chosen
    cases chosen
  | cons first rest =>
    rw [isHeld, List.foldl_cons] at chosen
    obtain ⟨member, leads⟩ := least_of_foldl rest chosen
    rw [← isHeld] at member leads
    refine ⟨mem_held.mp member, fun other held found => ?_⟩
    exact leads (other, held) (mem_held.mpr found)

theorem makeRoom_leaves :
    ReflTransGen Leave endpoint.registry (makeRoom env endpoint).registry := by
  unfold makeRoom
  split
  · exact .refl
  · split
    · exact .refl
    · next chosen => exact .single (removePeer_leaves (victim_some chosen).1)

theorem leaves_consistent
    {before after : Registry SocketAddr (BitVec 32)} (consistent : before.Consistent)
    (leaves : ReflTransGen Leave before after) :
    after.Consistent :=
  consistent.moves (leaves.lift id fun _ _ leave => .leave leave)

/-- The last of filing, once the place is free. -/
theorem registry_shelve (nowMs : Nat) :
    (rescanWake { endpoint with
          bySession :=
            endpoint.bySession.insert entry.sessionId
              ((endpoint.bySession.lookup entry.sessionId).getD [] ++ [peerId])
          peers := endpoint.peers.insert peerId entry }
        nowMs).registry =
      { endpoint.registry with
        place := update endpoint.registry.place peerId (some entry.place)
        shelf :=
          update endpoint.registry.shelf entry.sessionId
            (some ((endpoint.registry.shelf entry.sessionId).getD [] ++ [peerId])) } := by
  unfold rescanWake registry
  rw [place_insert, Table.lookup_insert]

/-- Whatever has to leave leaves, and the session is filed. -/
theorem file_registry {endpoint : Endpoint ω} (consistent : endpoint.registry.Consistent)
    (peerId : PeerId) (link : Session) (addr : SocketAddr) (nowMs : Nat) :
    ∃ between, ReflTransGen Leave endpoint.registry between ∧
        between.route (addr, link.sessionId) = none ∧
        (file env endpoint peerId link addr nowMs).registry =
          between.add peerId (addr, link.sessionId) := by
  have leaves := makeRoom_leaves env endpoint
  have consistent := leaves_consistent consistent leaves
  unfold file displace
  generalize makeRoom env endpoint = room at leaves consistent ⊢
  have routed : (fun place =>
        (room.routes.insert (addr, link.sessionId) peerId).lookup place) =
        update room.registry.route (addr, link.sessionId) (some peerId) :=
    Table.lookup_insert _ _ _
  cases taken : room.routes.lookup (addr, link.sessionId) with
  | none =>
    refine ⟨room.registry, leaves, taken, ?_⟩
    refine (registry_shelve _ peerId (newEntry env endpoint link addr nowMs) nowMs).trans ?_
    unfold Registry.add
    rw [← routed]
    rfl
  | some previous =>
    have placed : room.registry.place previous = some (addr, link.sessionId) :=
      (consistent.routed _ _).mp taken
    refine ⟨room.registry.remove previous (addr, link.sessionId),
      .tail leaves (.leave placed), update_self _ _ _, ?_⟩
    refine (registry_shelve _ peerId (newEntry env endpoint link addr nowMs) nowMs).trans ?_
    rw [registry_unfileSession]
    unfold Registry.add Registry.remove
    rw [Function.update_idem, ← routed, registry, place_erase]
    rfl

/-! ### What filing leaves alone -/

theorem unfileSession_eq (sessionId : BitVec 32) (peerId : PeerId) :
    ∃ bySession,
      endpoint.unfileSession sessionId peerId = { endpoint with bySession := bySession } := by
  unfold unfileSession
  split
  · exact ⟨endpoint.bySession, rfl⟩
  · exact ⟨_, rfl⟩

theorem removePeer_eq :
    ∃ bySession, endpoint.removePeer peerId entry =
        { endpoint with
          peers := endpoint.peers.erase peerId
          routes := endpoint.routes.erase entry.place
          bySession := bySession } := by
  unfold removePeer
  exact unfileSession_eq _ _ _

/-- Nobody has to go, or the one chosen does. -/
theorem makeRoom_cases :
    makeRoom env endpoint = endpoint ∨ ¬ endpoint.peers.keys.length < endpoint.maxPeers ∧
        ∃ peerId entry bySession, victim env endpoint = some (peerId, entry) ∧
            makeRoom env endpoint =
              { endpoint with
                peers := endpoint.peers.erase peerId
                routes := endpoint.routes.erase entry.place
                bySession := bySession } := by
  unfold makeRoom
  split
  · exact Or.inl rfl
  next full =>
  split
  · exact Or.inl rfl
  next peerId entry chosen =>
  obtain ⟨bySession, removes⟩ := endpoint.removePeer_eq peerId entry
  exact Or.inr ⟨full, peerId, entry, bySession, chosen, removes⟩

/-- All that filing does, but for the indices and the wake. -/
theorem file_eq (link : Session) (addr : SocketAddr) (nowMs : Nat) :
    ∃ peers routes bySession nextWake, (file env endpoint peerId link addr nowMs =
          { endpoint with
            peers := peers.insert peerId (newEntry env endpoint link addr nowMs)
            routes := routes
            bySession := bySession
            nextWake := nextWake }) ∧
        (((makeRoom env endpoint).routes.lookup (addr, link.sessionId) = none ∧
            peers = (makeRoom env endpoint).peers) ∨
          ∃ previous, (makeRoom env endpoint).routes.lookup (addr, link.sessionId) = some previous ∧
              peers = (makeRoom env endpoint).peers.erase previous) := by
  have rest : ∃ peers routes bySession, makeRoom env endpoint =
          { endpoint with
            peers := peers, routes := routes, bySession := bySession } := by
    rcases makeRoom_cases env endpoint with
      same | ⟨_, _, _, bySession, _, removes⟩
    · exact ⟨_, _, _, same⟩
    · exact ⟨_, _, _, removes⟩
  obtain ⟨roomPeers, roomRoutes, roomSessions, isRoom⟩ := rest
  unfold file displace
  rw [isRoom]
  cases taken : roomRoutes.lookup (addr, link.sessionId) with
  | none => exact ⟨_, _, _, _, rfl, Or.inl ⟨rfl, rfl⟩⟩
  | some previous =>
    obtain ⟨bySession, unfiles⟩ :=
      unfileSession_eq
        { endpoint with
          peers := roomPeers.erase previous
          routes := roomRoutes.insert (addr, link.sessionId) peerId
          bySession := roomSessions }
        link.sessionId previous
    dsimp only
    rw [unfiles]
    exact ⟨_, _, _, _, rfl, Or.inr ⟨previous, rfl, rfl⟩⟩

/-! ### What leaves the registry alone -/

theorem Visited.registry {Effect : PeerEntry × ω → PeerEntry × ω → Prop} {peerId : PeerId}
    {before after : Endpoint ω} (visited : Visited Effect peerId before after)
    (keeps : ∀ {held now},
        Effect (held, before.socket) (now, after.socket) →
        now.place = held.place) :
    after.registry = before.registry := by
  unfold Endpoint.registry
  rw [funext (visited.map_lookup keeps), visited.routes, visited.bySession,
    visited.outbound, visited.nextId]

/-- A peer served stays where it is filed. -/
theorem Served.registry {env : Env ω} {nowMs : Nat} {peerId : PeerId} {before after : Endpoint ω}
    (served : Served env nowMs peerId before after) :
    after.registry = before.registry :=
  Visited.registry served fun takes =>
    congrArg₂ Prod.mk takes.1.addr takes.1.sessionId

theorem SameTables.registry {before after : Endpoint ω} (same : before.SameTables after) :
    after.registry = before.registry := by
  unfold Endpoint.registry
  rw [same.peers, same.routes, same.bySession, same.outbound, same.nextId]

section

variable (env : Env ω) (endpoint : Endpoint ω) (peerId : PeerId) (nowMs : Nat)

theorem heard_registry {entry : PeerEntry} (found : endpoint.peers.lookup peerId = some entry)
    (peer : Peer) (buffer : Bytes) :
    (endpoint.heard peerId entry peer buffer nowMs).registry =
      endpoint.registry := by
  refine (heard_visited found peer buffer nowMs).registry ?_
  rintro _ _ ⟨_, isNow⟩
  rw [(Prod.mk.inj isNow).1]
  rfl

theorem repeatHandshake_registry (addr : SocketAddr) (sessionId : BitVec 32) :
    (repeatHandshake env endpoint addr sessionId nowMs).2.registry =
      endpoint.registry := by
  cases routed : endpoint.routes.lookup (addr, sessionId) with
  | none => rw [repeatHandshake_unrouted env routed]
  | some repeatedId =>
    refine (repeatHandshake_visited env routed nowMs).registry ?_
    intro held now repeats
    generalize (repeatHandshake ..).2.socket = socket at repeats
    cases repeats <;> rfl

theorem setMaxRetries_lookup (attempts : Nat) (id : PeerId) :
    (endpoint.setMaxRetries attempts).peers.lookup id = (endpoint.peers.lookup id).map fun entry =>
        { entry with
          peer :=
            { entry.peer with
              retransmit :=
                entry.peer.retransmit.setMaxRetries (max attempts 1) } } := by
  unfold setMaxRetries
  rw [Table.lookup_foldl_update endpoint.peers.keys_nodup]
  split
  · rfl
  · next absent => rw [AList.lookup_eq_none.mpr absent, Option.map_none]

theorem apply_registry (setting : Setting) :
    (Endpoint.apply env endpoint setting nowMs).2.registry =
      endpoint.registry := by
  cases setting with
  | maxRetries attempts =>
    have samePlaces : (fun id =>
          ((endpoint.setMaxRetries attempts).peers.lookup id).map PeerEntry.place) =
          fun id => (endpoint.peers.lookup id).map PeerEntry.place := by
      funext id
      rw [setMaxRetries_lookup, Option.map_map]
      rfl
    unfold Endpoint.apply registry
    rw [samePlaces]
    rfl
  | handshakeReply payload =>
    unfold Endpoint.apply setHandshakeReply
    dsimp only
    split
    · rfl
    · rfl
  | _ => rfl

end

/-! ### What moves in it -/

section

variable {env : Env ω} {endpoint : Endpoint ω} {datagram : Incoming}

variable {peerId : PeerId} {entry : PeerEntry}
  {before : Registry SocketAddr (BitVec 32)} {addr : SocketAddr} {nowMs : Nat}
  {after : Endpoint ω}

theorem registry_place (found : endpoint.peers.lookup peerId = some entry) :
    endpoint.registry.place peerId = some entry.place := by
  unfold registry
  dsimp only
  rw [found, Option.map_some]

/-- A session has moved if the address has proved itself. -/
def Moves
    (addr : SocketAddr)
    (token : Bytes)
    (nowMs : Nat)
    (before after : PeerEntry × ω) :
    Prop :=
  after.2 = before.2 ∧
    (after.1 = before.1 ∨
      after.1 = moved before.1 addr nowMs ∧
        ∃ probe,
          before.1.probe = some probe ∧ probe.addr = addr ∧ probe.token = token)

theorem Moves.session {addr : SocketAddr} {token : Bytes} {before after : PeerEntry × ω}
    (moves : Moves addr token nowMs before after) :
    after.1.peer.session = before.1.peer.session := by
  rcases moves.2 with stays | ⟨moves, _⟩
  · rw [stays]
  · rw [moves]
    rfl

section

variable (consistent : endpoint.registry.Consistent)

include consistent

/-- A session on the shortlist wears the identifier asked for. -/
theorem sessionId_of_shortlisted (shortlisted : datagram.Shortlisted endpoint peerId)
    (found : endpoint.peers.lookup peerId = some entry) :
    entry.sessionId = datagram.header.sessionId := by
  obtain ⟨address, isPlace⟩ := (consistent.listed datagram.header.sessionId peerId).mp shortlisted.2
  rw [registry_place found] at isPlace
  exact congrArg Prod.snd (Option.some.inj isPlace)

/-- A session a frame is routed to is on file where the frame came from. -/
theorem place_of_routed
    (routed : datagram.Routed endpoint peerId) (found : endpoint.peers.lookup peerId = some entry) :
    entry.addr = datagram.addr ∧ entry.sessionId = datagram.header.sessionId := by
  have isPlace := (consistent.routed _ _).mp routed
  rw [registry_place found] at isPlace
  have same := Option.some.inj isPlace
  exact ⟨congrArg Prod.fst same, congrArg Prod.snd same⟩

/-- A session that answered moves to a place nothing is filed at. -/
theorem settleProbe_eq {token : Bytes} (shortlisted : datagram.Shortlisted endpoint peerId)
    (found : endpoint.peers.lookup peerId = some entry) :
    (endpoint.settleProbe peerId datagram.addr token datagram.nowMs).2 =
      if entry.probe.any fun probe =>
          probe.addr == datagram.addr && probe.token == token then
        ({ endpoint.putEntry peerId
            (moved entry datagram.addr datagram.nowMs) with
          routes :=
            (endpoint.routes.erase (entry.addr, entry.sessionId)).insert
              (datagram.addr, entry.sessionId) peerId } :
          Endpoint ω).wakeAt datagram.nowMs
      else endpoint := by
  have isSession := sessionId_of_shortlisted consistent shortlisted found
  have vacant : (endpoint.routes.erase (entry.addr, entry.sessionId)).lookup
        (datagram.addr, entry.sessionId) = none := by
    by_cases isPlace :
        (datagram.addr, entry.sessionId) = (entry.addr, entry.sessionId)
    · rw [isPlace, AList.lookup_erase]
    · rw [AList.lookup_erase_ne isPlace, isSession]
      exact shortlisted.1
  unfold settleProbe
  rw [found]
  dsimp only
  split
  · unfold displace giveWay putEntry
    rw [vacant]
    rfl
  · rfl

theorem settleProbe_visited (shortlisted : datagram.Shortlisted endpoint peerId) (token : Bytes) :
    Touched (Moves datagram.addr token datagram.nowMs) peerId endpoint
      (endpoint.settleProbe peerId datagram.addr token datagram.nowMs).2 := by
  cases found : endpoint.peers.lookup peerId with
  | none =>
    rw [settleProbe, found]
    exact (Visited.absent found).toTouched
  | some entry =>
    rw [settleProbe_eq consistent shortlisted found]
    split
    · next proves =>
        obtain ⟨probe, isProbe, matched⟩ := (Option.any_eq_true _ _).mp proves
        simp only [Bool.and_eq_true, beq_iff_eq] at matched
        exact .put found rfl ⟨rfl, Or.inr ⟨rfl, probe, isProbe, matched⟩⟩ rfl (.refl _)
    · exact (Visited.kept found ⟨rfl, Or.inl rfl⟩).toTouched

theorem settleProbe_moves {token : Bytes} (shortlisted : datagram.Shortlisted endpoint peerId) :
    ReflTransGen Move endpoint.registry
      (endpoint.settleProbe peerId datagram.addr token datagram.nowMs).2.registry := by
  cases found : endpoint.peers.lookup peerId with
  | none => rw [settleProbe, found]
  | some entry =>
    rw [settleProbe_eq consistent shortlisted found]
    split
    · have isSession :=
        sessionId_of_shortlisted consistent shortlisted found
      have vacant : endpoint.registry.route (datagram.addr, entry.place.2) =
            none := by
        change endpoint.routes.lookup (datagram.addr, entry.sessionId) = none
        rw [isSession]
        exact shortlisted.1
      have shows : ({ endpoint.putEntry peerId
              (moved entry datagram.addr datagram.nowMs) with
            routes :=
              (endpoint.routes.erase (entry.addr, entry.sessionId)).insert
                (datagram.addr, entry.sessionId) peerId } :
            Endpoint ω).registry =
            endpoint.registry.relocate peerId entry.place datagram.addr := by
        unfold registry Registry.relocate putEntry
        rw [place_insert, Table.lookup_insert, Table.lookup_erase]
        rfl
      have moves := Move.relocate (registry_place found) vacant
      rw [← shows] at moves
      exact .single moves
    · exact .refl

end

theorem lift_leaves
    {after : Registry SocketAddr (BitVec 32)} (leaves : ReflTransGen Leave before after) :
    ReflTransGen Move before after :=
  leaves.lift id fun _ _ leave => .leave leave

/-- Leaving changes neither what is pending nor what is given out next. -/
theorem leaves_handles
    {after : Registry SocketAddr (BitVec 32)} (leaves : ReflTransGen Leave before after) :
    after.pending = before.pending ∧ after.next = before.next := by
  induction leaves with
  | refl => exact ⟨rfl, rfl⟩
  | tail _ leave inductionHypothesis =>
    cases leave
    exact inductionHypothesis

/-- Those who leave do so whatever is pending and given out. -/
theorem leaves_with {after : Registry SocketAddr (BitVec 32)}
    (leaves : ReflTransGen Leave before after) (pending : Nat → Bool) (next : Nat) :
    ReflTransGen Move { before with pending := pending, next := next }
      { after with pending := pending, next := next } :=
  lift_leaves (leaves.lift (fun registry => { registry with pending := pending, next := next })
      fun _ _ leave => leave.handles pending next)

theorem remembered_registry (peerId : PeerId) (reply : Bytes) :
    (endpoint.remembered peerId reply).registry = endpoint.registry :=
  endpoint.registry_update peerId fun _ => rfl

theorem ticketed_registry (link : Session) (nowMs : Nat) :
    (ticketed env endpoint link nowMs).registry = endpoint.registry := by
  simp only [registry, ticketed]

theorem answer_moves {resumed : Bool} {responded : Except Error (Session × Bytes × Bytes)}
    (consistent : endpoint.registry.Consistent) :
    ReflTransGen Move endpoint.registry
      (answer env endpoint addr resumed responded nowMs).2.registry := by
  rcases answer_cases env endpoint addr resumed responded nowMs with
    ⟨same, _⟩ | ⟨link, zeroRtt, reply, socket, _, ⟨_, _, same⟩ | ⟨_, same⟩⟩
  · rw [same]
  · rw [same]
    exact .refl
  have grown : (issued env endpoint link socket nowMs).registry.Consistent :=
    consistent.handles consistent.apart (fun handle isPending =>
        Nat.lt_succ_of_lt (consistent.issued handle (Or.inl isPending)))
      (Nat.le_succ _)
  obtain ⟨between, leaves, vacant, shows⟩ :=
    file_registry env grown endpoint.nextId link addr nowMs
  rw [same, remembered_registry, shows]
  -- Those that leave do so before the handle is given out.
  have leavesFirst := leaves_with leaves endpoint.registry.pending endpoint.registry.next
  obtain ⟨isPending, isNext⟩ := leaves_handles leaves
  obtain ⟨place, route, shelf, pending, next⟩ := between
  subst isPending isNext
  exact .tail leavesFirst (.accept vacant)

theorem completeOutbound_moves {sessionId : BitVec 32} (consistent : endpoint.registry.Consistent) :
    ReflTransGen Move endpoint.registry
      (completeOutbound env endpoint addr sessionId nowMs).2.registry := by
  have closes : ∀ peerId paths, (endpoint.closed peerId paths).registry = { endpoint.registry with
            pending :=
              update endpoint.registry.pending peerId false } := by
    intro peerId paths
    unfold closed registry
    congr 1
    funext id
    by_cases isPeer : id = peerId
    · rw [isPeer, AList.lookup_erase, update_self]
      rfl
    · rw [AList.lookup_erase_ne isPeer, update_of_ne isPeer]
  rcases completeOutbound_cases env endpoint addr sessionId nowMs with
    same | ⟨peerId, outbound, paths, found, _, _, same | ⟨link, reply, _, same⟩⟩
  · rw [same]
  · rw [same, closes]
    exact .single .close
  have isPending : endpoint.registry.pending peerId = true := by
    unfold registry
    dsimp only
    rw [found]
    rfl
  have consistentClosed : (ticketed env (endpoint.closed peerId paths) link
        nowMs).registry.Consistent := by
    rw [ticketed_registry, closes]
    exact consistent.close peerId
  obtain ⟨between, leaves, vacant, shows⟩ :=
    file_registry env consistentClosed peerId link outbound.addr nowMs
  rw [same, shows]
  rw [ticketed_registry, closes] at leaves
  have leavesFirst := leaves_with leaves endpoint.registry.pending endpoint.registry.next
  obtain ⟨closed, isNext⟩ := leaves_handles leaves
  obtain ⟨place, route, shelf, pending, next⟩ := between
  subst closed isNext
  exact .tail leavesFirst (.complete isPending vacant)

theorem connectAndSend_moves
    {peerPublic : Option Bytes} {zeroRtt : Bytes} {sessionId : BitVec 32} {random : Bytes} :
    ReflTransGen Move endpoint.registry
      (connectAndSend env endpoint addr peerPublic zeroRtt sessionId random nowMs).2.registry := by
  rcases connectAndSend_cases env endpoint addr peerPublic zeroRtt sessionId random nowMs with
    same | ⟨handshake, frame, socket, ⟨_, _, same⟩ | ⟨_, same⟩⟩
  · rw [same]
  · rw [same]
    exact .refl
  have shows : (endpoint.started addr peerPublic sessionId handshake frame socket
          nowMs).registry =
        { endpoint.registry with
          pending := update endpoint.registry.pending endpoint.registry.next true
          next := endpoint.registry.next + 1 } := by
    unfold started registry
    congr 1
    funext id
    by_cases isNext : id = endpoint.nextId
    · rw [isNext, AList.lookup_insert, update_self]
      rfl
    · rw [AList.lookup_insert_ne isNext, update_of_ne isNext]
  rw [same, shows]
  exact .single .start

theorem eraseOutbound_registry (peerId : PeerId) :
    ({ endpoint with outbound := endpoint.outbound.erase peerId } :
      Endpoint ω).registry =
      { endpoint.registry with
        pending := update endpoint.registry.pending peerId false } := by
  unfold registry
  congr 1
  funext id
  by_cases isPeer : id = peerId
  · rw [isPeer, AList.lookup_erase, update_self]
    rfl
  · rw [AList.lookup_erase_ne isPeer, update_of_ne isPeer]

theorem disconnect_moves (peerId : PeerId) :
    ReflTransGen Move endpoint.registry (endpoint.disconnect peerId).2.registry := by
  unfold disconnect
  split
  · rw [eraseOutbound_registry]
    exact .single .close
  · split
    · exact .refl
    · next found => exact .single (.leave (removePeer_leaves found))

theorem lose_moves (peerId : PeerId) :
    ReflTransGen Move endpoint.registry (endpoint.lose peerId).registry := by
  unfold lose
  split
  · exact .refl
  · next found => exact .single (.leave (removePeer_leaves found))

theorem resendOpening_moves (peerId : PeerId) (nowMs : Nat) :
    ReflTransGen Move endpoint.registry (resendOpening env nowMs peerId endpoint).2.registry := by
  unfold resendOpening
  split
  · exact .refl
  next outbound found =>
  have resent : ∀ after : Outbound,
        ({ endpoint with
            outbound := endpoint.outbound.insert peerId after } :
          Endpoint ω).registry = endpoint.registry := by
    intro after
    unfold registry
    congr 1
    funext id
    by_cases isPeer : id = peerId
    · rw [isPeer, AList.lookup_insert, found]
      rfl
    · rw [AList.lookup_insert_ne isPeer]
  split
  · rw [eraseOutbound_registry]
    exact .single .close
  dsimp only
  split
  · exact (resent _).symm ▸ ReflTransGen.refl
  · exact (resent _).symm ▸ ReflTransGen.refl

/-! ### Every atom -/

theorem OpeningAtom.moves
    (consistent : endpoint.registry.Consistent) (atom : OpeningAtom env datagram endpoint after) :
    ReflTransGen Move endpoint.registry after.registry := by
  cases atom with
  | note same => rw [same.registry]
  | repeated => rw [repeatHandshake_registry]
  | filed => exact answer_moves consistent

theorem SessionAtom.moves
    (consistent : endpoint.registry.Consistent) (atom : SessionAtom env datagram endpoint after) :
    ReflTransGen Move endpoint.registry after.registry := by
  cases atom with
  | budget => rw [(mayTryUnknownAddress_served env endpoint).registry]
  | tried found _ ingests => rw [(ingested_served found ingests).registry]
  | heard found => rw [heard_registry _ _ _ found]
  | replied _ heard =>
    obtain ⟨entry, found⟩ := heard.found
    rw [(sendToPeer_visited env found _ _ _).registry]
    rintro _ _ ⟨_, rfl⟩
    rfl
  | answered => rw [(answered_served env _ endpoint).registry]
  | challenged =>
    rw [(startProbe_visited env endpoint _ _ _ _).registry]
    intro held now challenges
    generalize (startProbe ..).2.socket = socket at challenges
    cases challenges <;> rfl
  | moved shortlisted => exact settleProbe_moves consistent shortlisted

theorem consistent_of_sessionAtoms {before : Endpoint ω} (consistent : before.registry.Consistent)
    (atoms : ReflTransGen (SessionAtom env datagram) before after) :
    after.registry.Consistent := by
  induction atoms with
  | refl => exact consistent
  | tail _ atom inductionHypothesis =>
    exact inductionHypothesis.moves (atom.moves inductionHypothesis)

theorem FrameAtom.moves
    (consistent : endpoint.registry.Consistent) (atom : FrameAtom env datagram endpoint after) :
    ReflTransGen Move endpoint.registry after.registry := by
  cases atom with
  | opening _ atom => exact atom.moves consistent
  | session atom => exact atom.moves consistent
  | completed => exact completeOutbound_moves consistent

theorem Atom.moves {moment : Moment} (consistent : endpoint.registry.Consistent)
    (atom : Atom env moment endpoint after) :
    ReflTransGen Move endpoint.registry after.registry := by
  cases atom with
  | note same => rw [same.registry]
  | popped => exact .refl
  | rescanned => exact .refl
  | frame _ _ atom => exact atom.moves consistent
  | connected => exact connectAndSend_moves
  | disconnected => exact disconnect_moves _
  | set => rw [apply_registry]
  | sent => rw [(send_served _ _ endpoint).registry]
  | sentOne _ found => rw [(sendOneReliable_served found _ _).registry]
  | queued _ found => rw [(queued_served env moment.nowMs found _ _).registry]
  | fed => rw [(driveQueueOf_served endpoint).registry]
  | resent => rw [(driveRetransmitsOf_served endpoint).registry]
  | reopened => exact resendOpening_moves _ _
  | lost => exact lose_moves _
  | keptAlive => rw [(keepAliveOf_served _ endpoint).registry]
  | probed => rw [(drivePmtuOf_served _ endpoint).registry]

end

/-! ### Every run -/

/-- A handle that stands for a handshake under way or a session. -/
def Resolves (endpoint : Endpoint ω) (peerId : PeerId) : Prop :=
  endpoint.outbound.lookup peerId ≠ none ∨ endpoint.peers.lookup peerId ≠ none

/-- Every table agrees with the peer table. -/
structure Indexed (endpoint : Endpoint ω) : Prop where
  routed : ∀ addr sessionId peerId,
      endpoint.routes.lookup (addr, sessionId) = some peerId ↔
        ∃ entry,
          endpoint.peers.lookup peerId = some entry ∧
            entry.addr = addr ∧
            entry.sessionId = sessionId
  listed : ∀ sessionId peerId,
      (∃ sharing,
          endpoint.bySession.lookup sessionId = some sharing ∧
            peerId ∈ sharing) ↔
        ∃ entry,
          endpoint.peers.lookup peerId = some entry ∧
            entry.sessionId = sessionId
  distinct : ∀ sessionId sharing,
      endpoint.bySession.lookup sessionId = some sharing →
      sharing.Nodup ∧ sharing ≠ []
  apart : ∀ peerId,
      endpoint.outbound.lookup peerId = none ∨
        endpoint.peers.lookup peerId = none

theorem registry_place_iff
    {endpoint : Endpoint ω} {peerId : PeerId} {place : SocketAddr × BitVec 32} :
    endpoint.registry.place peerId = some place ↔
      ∃ entry, endpoint.peers.lookup peerId = some entry ∧ entry.place = place :=
  Option.map_eq_some_iff

theorem registry_resolves_iff {endpoint : Endpoint ω} {peerId : PeerId} :
    endpoint.registry.Resolves peerId ↔ endpoint.Resolves peerId := by
  unfold Registry.Resolves Resolves registry
  rw [Option.isSome_iff_ne_none]
  exact or_congr Iff.rfl (not_congr Option.map_eq_none_iff)

theorem indexed_of_consistent {endpoint : Endpoint ω} (consistent : endpoint.registry.Consistent) :
    endpoint.Indexed where
  routed := by
    intro addr sessionId peerId
    refine (consistent.routed (addr, sessionId) peerId).trans ?_
    rw [registry_place_iff]
    unfold PeerEntry.place
    simp only [Prod.mk.injEq]
  listed := by
    intro sessionId peerId
    refine (consistent.listed sessionId peerId).trans ?_
    constructor
    · rintro ⟨addr, isPlace⟩
      obtain ⟨entry, found, same⟩ := registry_place_iff.mp isPlace
      exact ⟨entry, found, congrArg Prod.snd same⟩
    · rintro ⟨entry, found, same⟩
      exact ⟨entry.addr, registry_place_iff.mpr ⟨entry, found, by rw [PeerEntry.place, same]⟩⟩
  distinct := by
    intro sessionId sharing isSharing
    refine ⟨consistent.distinct sessionId sharing isSharing, ?_⟩
    rintro rfl
    exact consistent.shelved sessionId isSharing
  apart := by
    intro peerId
    by_cases started : endpoint.outbound.lookup peerId = none
    · exact Or.inl started
    · have isPending : endpoint.registry.pending peerId = true :=
        Option.isSome_iff_ne_none.mpr started
      exact Or.inr (Option.map_eq_none_iff.mp (consistent.apart peerId isPending))

/-- Nothing is filed at first. -/
theorem new_consistent (mode : Mode) (socket : ω) :
    (Endpoint.new env mode socket).registry.Consistent where
  routed := by
    intro place handle
    simp [registry, Endpoint.new]
  shelved := by
    intro tag
    simp [registry, Endpoint.new]
  distinct := by
    intro tag sharing isSharing
    simp [registry, Endpoint.new] at isSharing
  listed := by
    intro tag handle
    simp [registry, Endpoint.new]
  apart := by
    intro handle isPending
    simp [registry, Endpoint.new] at isPending
  issued := by
    intro handle resolves
    simp [registry, Endpoint.new, Registry.Resolves] at resolves

/-- A run moves the registry, and keeps it consistent. -/
theorem run_moves
    {driver : Driver ω} (consistent : driver.endpoint.registry.Consistent) (moments : List Moment) :
    ReflTransGen Move driver.endpoint.registry
        (Execution.run (Driver.next env) driver moments).endpoint.registry ∧
      (Execution.run (Driver.next env) driver moments).endpoint.registry.Consistent := by
  apply Driver.run_invariant (fun endpoint =>
      ReflTransGen Move driver.endpoint.registry endpoint.registry ∧ endpoint.registry.Consistent)
  · rintro moment before after ⟨reached, consistent⟩ atom
    have moves := atom.moves consistent
    exact ⟨reached.trans moves, consistent.moves moves⟩
  · exact ⟨.refl, consistent⟩

theorem run_consistent (mode : Mode) (socket : ω) (moments : List Moment) :
    (Execution.run (Driver.next env) (Driver.new (Endpoint.new env mode socket))
      moments).endpoint.registry.Consistent :=
  (run_moves env (new_consistent env mode socket) moments).2

/-- A state some endpoint gets to from the start. -/
def Driver.Reachable (env : Env ω) (driver : Driver ω) : Prop :=
  ∃ mode socket history,
    driver =
      Execution.run (Driver.next env)
        (Driver.new (Endpoint.new env mode socket)) history

theorem Driver.Reachable.consistent
    {env : Env ω} {driver : Driver ω} (reachable : driver.Reachable env) :
    driver.endpoint.registry.Consistent := by
  obtain ⟨mode, socket, history, rfl⟩ := reachable
  exact run_consistent env mode socket history

/--
Whatever an endpoint has been through, its indices agree with its peer table,
and a handle that has come and gone stays gone.
-/
theorem indices_agree
    (env : Env ω)
    (mode : Mode)
    (socket : ω)
    (first second third : List Moment)
    (peerId : PeerId) :
    let early :=
      Execution.run (Driver.next env)
        (Driver.new (Endpoint.new env mode socket)) first
    let middle := Execution.run (Driver.next env) early second
    let late := Execution.run (Driver.next env) middle third
    late.endpoint.Indexed ∧
      (early.endpoint.Resolves peerId →
        ¬ middle.endpoint.Resolves peerId →
        ¬ late.endpoint.Resolves peerId) := by
  intro early middle late
  have atFirst : early.endpoint.registry.Consistent :=
    run_consistent env mode socket first
  obtain ⟨toMiddle, atMiddle⟩ := run_moves env atFirst second
  obtain ⟨toLate, atLate⟩ := run_moves env atMiddle third
  refine ⟨indexed_of_consistent atLate, fun was isNot => ?_⟩
  have issued :=
    Nat.lt_of_lt_of_le
      (atFirst.issued peerId (registry_resolves_iff.mpr was))
      (Registry.next_le_of_moves toMiddle)
  rw [← registry_resolves_iff]
  exact (Registry.gone_forever toLate issued
    (fun resolves => isNot (registry_resolves_iff.mp resolves))).2

end Endpoint

end Fectp
