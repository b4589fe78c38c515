import Fectp.Endpoint.Forgery
import Fectp.Endpoint.Index

namespace Fectp

/-!
# Sessions that share an identifier

A frame from an address nothing is filed under is tried against one session
after another.  Whether the walk ends at a session is read off that session's
address and probe afterwards, not off what became of the frame.
-/

namespace Endpoint

variable {ω : Type*}

/-- What asking for budget costs a list of sessions. -/
def asked (endpoint : Endpoint ω) (ids : List PeerId) (nowMs : Nat) :
    Endpoint ω :=
  ids.foldl (fun endpoint id => (endpoint.mayTryUnknownAddress id nowMs).2)
    endpoint

/-- Whether the walk ends at a session even if it rejects the frame. -/
def stops
    (endpoint : Endpoint ω)
    (addr : SocketAddr)
    (nowMs : Nat)
    (peerId : PeerId) :
    Bool :=
  (endpoint.mayTryUnknownAddress peerId nowMs).1 &&
    (endpoint.peers.lookup peerId).any (·.claimed addr)

/-- A session does not open the frame, and leaves the buffer as it was. -/
def Rejects (env : Env ω) (endpoint : Endpoint ω) (peerId : PeerId) : Prop :=
  ∀ entry ∈ endpoint.peers.lookup peerId,
    let opening := entry.peer.session.openFrame env.suite.aead endpoint.rx
    opening.1.isOk = false ∧ opening.2.1 = endpoint.rx

instance (env : Env ω) (endpoint : Endpoint ω) (peerId : PeerId) :
    Decidable (Rejects env endpoint peerId) :=
  inferInstanceAs (Decidable (∀ entry ∈ endpoint.peers.lookup peerId, _))

variable {env : Env ω}

/-! ### Asking for budget -/

variable (left : Nat) {endpoint : Endpoint ω} {peerId : PeerId}
  {entry : PeerEntry}

/-- Asking for one session's budget changes that session's. -/
theorem mayTryUnknownAddress_eq (found : endpoint.peers.lookup peerId = some entry) (nowMs : Nat) :
    ∃ budget, (endpoint.mayTryUnknownAddress peerId nowMs).2 = endpoint.putEntry peerId
          { entry with
            migrationBudget := budget
            migrationRefilled := nowMs } := by
  unfold mayTryUnknownAddress
  rw [found]
  exact ⟨_, rfl⟩

theorem mayTryUnknownAddress_absent (absent : endpoint.peers.lookup peerId = none) (nowMs : Nat) :
    endpoint.mayTryUnknownAddress peerId nowMs = (false, endpoint) := by
  rw [mayTryUnknownAddress, absent]

/-- What each session may do does not depend on the others. -/
theorem mayTryUnknownAddress_fst
    {first second : Endpoint ω} (same : second.peers.lookup peerId = first.peers.lookup peerId)
    (rate : second.migrationRate = first.migrationRate) (nowMs : Nat) :
    (second.mayTryUnknownAddress peerId nowMs).1 = (first.mayTryUnknownAddress peerId nowMs).1 := by
  unfold mayTryUnknownAddress
  rw [same, rate]
  cases first.peers.lookup peerId with
  | none => rfl
  | some entry => rfl

theorem mayTryUnknownAddress_registry (endpoint : Endpoint ω) (peerId : PeerId) (nowMs : Nat) :
    (endpoint.mayTryUnknownAddress peerId nowMs).2.registry =
      endpoint.registry := by
  cases found : endpoint.peers.lookup peerId with
  | none => rw [mayTryUnknownAddress_absent found]
  | some entry =>
    obtain ⟨budget, asks⟩ := mayTryUnknownAddress_eq found nowMs
    rw [asks]
    exact registry_putEntry found rfl

/-- Asking on behalf of one session leaves alone what concerns another. -/
structure SameFor (peerId : PeerId) (before after : Endpoint ω) : Prop where
  lookup : after.peers.lookup peerId = before.peers.lookup peerId
  rx : after.rx = before.rx
  bySession : after.bySession = before.bySession
  routes : after.routes = before.routes
  registry : after.registry = before.registry
  migrationRate : after.migrationRate = before.migrationRate

theorem mayTryUnknownAddress_others
    (endpoint : Endpoint ω) {other : PeerId} (isOther : other ≠ peerId) (nowMs : Nat) :
    SameFor other endpoint (endpoint.mayTryUnknownAddress peerId nowMs).2 := by
  cases found : endpoint.peers.lookup peerId with
  | none =>
    rw [mayTryUnknownAddress_absent found]
    exact ⟨rfl, rfl, rfl, rfl, rfl, rfl⟩
  | some entry =>
    obtain ⟨budget, asks⟩ := mayTryUnknownAddress_eq found nowMs
    rw [asks]
    exact ⟨AList.lookup_insert_ne isOther, rfl, rfl, rfl, registry_putEntry found rfl, rfl⟩

/-- Asking on behalf of others leaves alone what concerns a session. -/
theorem asked_others
    (ids : List PeerId) (endpoint : Endpoint ω) (isOther : peerId ∉ ids) (nowMs : Nat) :
    SameFor peerId endpoint (endpoint.asked ids nowMs) := by
  induction ids generalizing endpoint with
  | nil => exact ⟨rfl, rfl, rfl, rfl, rfl, rfl⟩
  | cons first others inductionHypothesis =>
    rw [List.mem_cons, not_or] at isOther
    have asks := endpoint.mayTryUnknownAddress_others isOther.1 nowMs
    have onward := inductionHypothesis (endpoint.mayTryUnknownAddress first nowMs).2 isOther.2
    exact ⟨onward.lookup.trans asks.lookup, onward.rx.trans asks.rx,
      onward.bySession.trans asks.bySession, onward.routes.trans asks.routes,
      onward.registry.trans asks.registry, onward.migrationRate.trans asks.migrationRate⟩

theorem SameFor.stops {before after : Endpoint ω} (same : SameFor peerId before after)
    (addr : SocketAddr) (nowMs : Nat) :
    after.stops addr nowMs peerId = before.stops addr nowMs peerId := by
  rw [Endpoint.stops, Endpoint.stops, same.lookup,
    mayTryUnknownAddress_fst same.lookup same.migrationRate]

theorem SameFor.rejects {before after : Endpoint ω} (same : SameFor peerId before after)
    (rejects : Rejects env before peerId) :
    Rejects env after peerId := by
  unfold Rejects at rejects ⊢
  rw [same.lookup, same.rx]
  exact rejects

/-! ### The walk -/

theorem tryCandidates_succ
    {addr : SocketAddr} {sessionId : BitVec 32} {random : Bytes} {nowMs : Nat} {position : Nat}
    (listed : (endpoint.bySession.lookup sessionId).bind (·[position]?) = some peerId) :
    tryCandidates env addr sessionId random nowMs (left + 1) position endpoint =
      if (endpoint.mayTryUnknownAddress peerId nowMs).1 then
        match deliver env (endpoint.mayTryUnknownAddress peerId nowMs).2 peerId addr false random
            nowMs with
        | (.ok none, after) =>
          if (after.peers.lookup peerId).any (·.claimed addr) then
            (.ok none, after)
          else
            tryCandidates env addr sessionId random nowMs left (position + 1) after
        | delivered => delivered
      else
        tryCandidates env addr sessionId random nowMs left (position + 1)
          (endpoint.mayTryUnknownAddress peerId nowMs).2 := by
  unfold tryCandidates
  rw [candidates, listed]
  dsimp only
  generalize endpoint.mayTryUnknownAddress peerId nowMs = asking
  obtain ⟨_ | _, asked⟩ := asking
  · rfl
  dsimp only
  generalize deliver env asked peerId addr false random nowMs = delivered
  obtain ⟨_ | _ | _, after⟩ := delivered
  · rfl
  · exact apply_ite Prod.snd _ _ _
  · rfl

/-- A session that rejects the frame costs it budget, and may end the walk. -/
theorem tryCandidates_rejected
    {addr : SocketAddr} {sessionId : BitVec 32} {random : Bytes} {nowMs : Nat} {position : Nat}
    (listed : (endpoint.bySession.lookup sessionId).bind (·[position]?) = some peerId)
    (rejects : Rejects env endpoint peerId) (left : Nat) :
    tryCandidates env addr sessionId random nowMs (left + 1) position endpoint =
      if endpoint.stops addr nowMs peerId then
        (.ok none, (endpoint.mayTryUnknownAddress peerId nowMs).2)
      else
        tryCandidates env addr sessionId random nowMs left (position + 1)
          (endpoint.mayTryUnknownAddress peerId nowMs).2 := by
  rw [tryCandidates_succ left listed, stops]
  rcases Option.eq_none_or_eq_some (endpoint.peers.lookup peerId) with
    absent | ⟨entry, found⟩
  · simp only [mayTryUnknownAddress_absent absent, Bool.false_and, Bool.false_eq_true, if_false]
  obtain ⟨fails, untouched⟩ := rejects entry found
  obtain ⟨budget, asks⟩ := mayTryUnknownAddress_eq found nowMs
  rw [found, Option.any_some, asks]
  cases (endpoint.mayTryUnknownAddress peerId nowMs).1 with
  | false => rfl
  | true =>
    generalize isEntry :
      ({ entry with
          migrationBudget := budget
          migrationRefilled := nowMs } : PeerEntry) = now
    have samePeer : now.peer = entry.peer := by
      rw [← isEntry]
    have sameClaim : now.claimed addr = entry.claimed addr := by
      rw [← isEntry]
      rfl
    have again := endpoint.lookup_putEntry peerId now
    have putBack : (endpoint.putEntry peerId now).ingested peerId now now.peer endpoint.rx =
          endpoint.putEntry peerId now := by
      unfold ingested putEntry
      rw [AList.insert_insert]
    have delivers : deliver env (endpoint.putEntry peerId now) peerId addr false random nowMs =
          (.ok none, endpoint.putEntry peerId now) := by
      rw [← samePeer] at fails untouched
      rw [deliver_unopened again fails]
      rw [show (endpoint.putEntry peerId now).rx = endpoint.rx from rfl, untouched, putBack]
    rw [if_pos rfl, delivers]
    dsimp only
    rw [again, Option.any_some, sameClaim, Bool.true_and]

/--
The first sessions reject the frame.  The walk stops at one of them that claims
the address, or comes to the next with nothing but budget spent.
-/
theorem tryCandidates_walk
    {addr : SocketAddr} {sessionId : BitVec 32} {random : Bytes} {nowMs : Nat}
    {sharing : List PeerId} (distinct : sharing.Nodup)
    (isSharing : endpoint.bySession.lookup sessionId = some sharing) (count left : Nat)
    (inside : count ≤ sharing.length)
    (rejects : ∀ other ∈ sharing.take count, Rejects env endpoint other)
    (apart : peerId ∉ sharing.take count) :
    let outcome := tryCandidates env addr sessionId random nowMs (count + left) 0 endpoint
    if (sharing.take count).any (endpoint.stops addr nowMs) then
      outcome.1 = .ok none ∧ outcome.2.peers.lookup peerId = endpoint.peers.lookup peerId
    else
      outcome = tryCandidates env addr sessionId random nowMs left count
          (endpoint.asked (sharing.take count) nowMs) := by
  induction count generalizing left with
  | zero =>
    rw [Nat.zero_add]
    rfl
  | succ count inductionHypothesis =>
    have upTo : sharing.take (count + 1) = sharing.take count ++ [sharing[count]] := by
      rw [List.take_add_one, List.getElem?_eq_getElem inside]
      rfl
    rw [upTo] at rejects apart ⊢
    have earlier :=
      inductionHypothesis (left + 1) (Nat.le_of_succ_le inside)
        (fun other member => rejects other (List.mem_append_left _ member))
        (fun member => apart (List.mem_append_left _ member))
    have isNew : sharing[count] ∉ sharing.take count := by
      have distinctUpTo := distinct.sublist (List.take_sublist (count + 1) sharing)
      rw [upTo, List.nodup_append] at distinctUpTo
      exact fun member => distinctUpTo.2.2 _ member _ (List.mem_singleton_self _) rfl
    have same := asked_others (sharing.take count) endpoint isNew nowMs
    have spared := (asked_others _ endpoint apart nowMs).lookup
    have asksLast : endpoint.asked (sharing.take count ++ [sharing[count]]) nowMs =
        ((endpoint.asked (sharing.take count) nowMs).mayTryUnknownAddress sharing[count] nowMs).2 :=
      List.foldl_append
    rw [asksLast] at spared
    rw [Nat.add_right_comm, Nat.add_assoc, List.any_append, List.any_cons, List.any_nil,
      Bool.or_false, asksLast]
    revert earlier
    dsimp only
    cases (sharing.take count).any (endpoint.stops addr nowMs) with
    | true => exact id
    | false =>
      intro earlier
      rw [if_neg Bool.false_ne_true] at earlier
      rw [Bool.false_or, ← same.stops, earlier,
        tryCandidates_rejected (by rw [same.bySession, isSharing]; simp)
          (same.rejects (rejects _ (List.mem_append_right _ (List.mem_singleton_self _)))) left]
      split
      · exact ⟨rfl, spared⟩
      · rfl

/-! ### What a delivery leaves behind -/

variable {datagram : Incoming}

/-- One session was fed a frame, and is left with this window. -/
structure Feeds (peerId : PeerId) (replay : ReplayWindow) (before after : Endpoint ω) :
    Prop where
  others : ∀ other ≠ peerId, after.peers.lookup other = before.peers.lookup other
  found : ∃ now, after.peers.lookup peerId = some now ∧ now.peer.session.replay = replay

section

variable (consistent : endpoint.registry.Consistent) (shortlisted :
    datagram.Shortlisted endpoint peerId)

include consistent shortlisted

/-- A challenge or a move leaves what has been received. -/
theorem settleUnproved_feeds
    {ingested : Ingested} (found : endpoint.peers.lookup peerId = some entry) :
    Feeds peerId entry.peer.session.replay endpoint
      (settleUnproved env endpoint peerId datagram.addr ingested datagram.random
        datagram.nowMs).2 := by
  unfold settleUnproved
  split
  · next token =>
      have moves := settleProbe_visited consistent shortlisted token
      obtain ⟨now, foundNow, moved⟩ := moves.found found
      exact ⟨moves.others, now, foundNow, congrArg Session.replay moved.session⟩
  have challenges :=
    startProbe_visited env endpoint peerId datagram.addr datagram.random datagram.nowMs
  generalize startProbe env endpoint peerId datagram.addr datagram.random datagram.nowMs = started
    at challenges
  obtain ⟨now, foundNow, challenged⟩ := challenges.found found
  obtain ⟨_ | _, after⟩ := started
  · exact ⟨challenges.others, now, foundNow, challenged.session.replay⟩
  · exact ⟨challenges.others, now, foundNow, challenged.session.replay⟩

/-- The session fed is left with the window the frame leaves. -/
theorem deliver_feeds (found : endpoint.peers.lookup peerId = some entry) :
    Feeds peerId (entry.peer.session.openFrame env.suite.aead endpoint.rx).2.2.replay endpoint
      (deliver env endpoint peerId datagram.addr false datagram.random datagram.nowMs).2 := by
  have records :=
    (entry.peer.ingest_sealed env.suite endpoint.rx datagram.nowMs endpoint.size).replay
  unfold deliver
  rw [found]
  dsimp only
  split
  · next ingests =>
      rw [ingests] at records
      exact ⟨fun _ => AList.lookup_insert_ne, _, lookup_putEntry endpoint peerId _, records⟩
  · next ingests =>
      rw [ingests] at records
      exact ⟨fun _ => AList.lookup_insert_ne, _, lookup_putEntry endpoint peerId _, records⟩
  next ingested reply buffer peer _ ingests =>
  rw [ingests] at records
  have hears := heard_visited found peer buffer datagram.nowMs
  have foundHeard := endpoint.lookup_heard peerId entry peer buffer datagram.nowMs
  have sameRegistry := heard_registry endpoint peerId datagram.nowMs found peer buffer
  rw [if_neg Bool.false_ne_true, ← records]
  generalize endpoint.heard peerId entry peer buffer datagram.nowMs = heard
    at hears foundHeard sameRegistry ⊢
  have settles := @settleUnproved_feeds _ env heard peerId _ datagram (sameRegistry ▸ consistent)
    (by rw [Incoming.Shortlisted, hears.routes, hears.bySession]; exact shortlisted)
    ingested foundHeard
  exact ⟨fun other isOther => (settles.others other isOther).trans (hears.others other isOther),
    settles.found⟩

/-- A frame from elsewhere is a matter of the session it is fed to. -/
theorem deliver_others {other : PeerId} (isOther : other ≠ peerId) :
    (deliver env endpoint peerId datagram.addr false datagram.random
        datagram.nowMs).2.peers.lookup other =
      endpoint.peers.lookup other := by
  cases found : endpoint.peers.lookup peerId with
  | none =>
    unfold deliver
    rw [found]
  | some entry => exact (deliver_feeds consistent shortlisted found).others other isOther

end

/-- Sessions further on in the list are no concern of one before them. -/
theorem Tries.spares {sharing : List PeerId} {position : Nat} {visits : List (Visit ω)}
    {outcome : Except Error (Option Event) × Endpoint ω}
    (tries : Tries env datagram.addr datagram.header.sessionId datagram.random datagram.nowMs
      position endpoint visits outcome)
    (consistent : endpoint.registry.Consistent) (stray : datagram.Stray endpoint)
    (isSharing : endpoint.bySession.lookup datagram.header.sessionId = some sharing)
    (isBehind : peerId ∉ sharing.drop position) :
    outcome.2.peers.lookup peerId = endpoint.peers.lookup peerId := by
  have behind : ∀ {position candidate}, sharing[position]? = some candidate →
        peerId ∉ sharing.drop position →
        peerId ≠ candidate ∧ peerId ∉ sharing.drop (position + 1) := by
    intro position candidate listed isBehind
    refine ⟨?_, fun member =>
      isBehind (List.drop_subset_drop_left sharing (Nat.le_succ position) member)⟩
    rintro rfl
    refine isBehind (List.mem_iff_getElem?.mpr ⟨0, ?_⟩)
    rw [List.getElem?_drop]
    exact listed
  have asking : ∀ {endpoint asked : Endpoint ω} {candidate allowed}, peerId ≠ candidate →
        endpoint.mayTryUnknownAddress candidate datagram.nowMs = (allowed, asked) →
        SameFor peerId endpoint asked := by
    intro endpoint asked candidate allowed isOther asks
    rw [show asked = _ from (congrArg Prod.snd asks).symm]
    exact endpoint.mayTryUnknownAddress_others isOther datagram.nowMs
  have spares : ∀ {asked : Endpoint ω} {candidate}, asked.registry.Consistent →
        datagram.Stray asked ∧ datagram.Shortlisted asked candidate → peerId ≠ candidate →
        let after := (deliver env asked candidate datagram.addr false datagram.random
          datagram.nowMs).2
        after.peers.lookup peerId = asked.peers.lookup peerId ∧ after.registry.Consistent :=
    fun consistent here isOther => ⟨deliver_others consistent here.2 isOther,
      consistent_of_sessionAtoms consistent (deliver_atoms here.1.front here.2)⟩
  induction tries with
  | ended => rfl
  | declines listed asks _ inductionHypothesis =>
    rw [isSharing] at listed
    obtain ⟨isOther, isBehind⟩ := behind listed isBehind
    have same := asking isOther asks
    rw [← isSharing] at listed
    rw [← same.lookup]
    exact inductionHypothesis (same.registry ▸ consistent) (stray.asked listed asks).1
      (same.bySession ▸ isSharing) isBehind
  | settles listed asks =>
    have here := stray.asked listed asks
    rw [isSharing] at listed
    obtain ⟨isOther, _⟩ := behind listed isBehind
    have same := asking isOther asks
    rw [← same.lookup]
    exact (spares (same.registry ▸ consistent) here isOther).1
  | passes listed asks delivers _ inductionHypothesis =>
    have here := stray.asked listed asks
    rw [isSharing] at listed
    obtain ⟨isOther, isBehind⟩ := behind listed isBehind
    have same := asking isOther asks
    obtain ⟨sameEntry, stays⟩ := spares (same.registry ▸ consistent) here isOther
    rw [delivers] at sameEntry stays
    have sameAgain := deliver_none delivers
    rw [← same.lookup, ← sameEntry]
    exact inductionHypothesis stays (here.1.same sameAgain)
      (sameAgain.bySession ▸ same.bySession ▸ isSharing) isBehind

/-- A session the walk comes to, and that may be tried, is fed the frame. -/
theorem tryCandidates_reached
    {sharing : List PeerId} {position : Nat} (consistent : endpoint.registry.Consistent)
    (stray : datagram.Stray endpoint)
    (isSharing : endpoint.bySession.lookup datagram.header.sessionId = some sharing)
    (listed : sharing[position]? = some peerId) (found : endpoint.peers.lookup peerId = some entry)
    (may : (endpoint.mayTryUnknownAddress peerId datagram.nowMs).1 = true) :
    let outcome :=
      tryCandidates env datagram.addr datagram.header.sessionId
        datagram.random datagram.nowMs (left + 1) position endpoint
    let delivered :=
      deliver env (endpoint.mayTryUnknownAddress peerId datagram.nowMs).2
        peerId datagram.addr false datagram.random datagram.nowMs
    outcome.2.peers.lookup peerId = delivered.2.peers.lookup peerId ∧
      (delivered.1 = .ok none ∨ outcome = delivered) ∧
      ∃ now, delivered.2.peers.lookup peerId = some now ∧ now.peer.session.replay =
            (entry.peer.session.openFrame env.suite.aead endpoint.rx).2.2.replay := by
  intro outcome delivered
  have isOutcome : outcome = _ := tryCandidates_succ left (by rw [isSharing]; exact listed)
  rw [if_pos may] at isOutcome
  have same := endpoint.mayTryUnknownAddress_indices peerId datagram.nowMs
  have consistentThen : (endpoint.mayTryUnknownAddress peerId
        datagram.nowMs).2.registry.Consistent := by
    rw [mayTryUnknownAddress_registry]
    exact consistent
  have shortlisted : datagram.Shortlisted
        (endpoint.mayTryUnknownAddress peerId datagram.nowMs).2 peerId := by
    refine ⟨(stray.same same).unrouted, sharing, ?_, List.mem_of_getElem? listed⟩
    rw [same.bySession]
    exact isSharing
  have records : ∃ now, delivered.2.peers.lookup peerId = some now ∧ now.peer.session.replay =
            (entry.peer.session.openFrame env.suite.aead endpoint.rx).2.2.replay := by
    obtain ⟨budget, asks⟩ := mayTryUnknownAddress_eq found datagram.nowMs
    have foundThen :=
      endpoint.lookup_putEntry peerId
        { entry with
          migrationBudget := budget
          migrationRefilled := datagram.nowMs }
    rw [← asks] at foundThen
    obtain ⟨now, foundNow, recorded⟩ := (deliver_feeds consistentThen shortlisted foundThen).found
    rw [asks] at recorded
    exact ⟨now, foundNow, recorded⟩
  have stays : delivered.2.registry.Consistent :=
    consistent_of_sessionAtoms consistentThen
      (deliver_atoms (stray.same same).front shortlisted)
  have isBehind : peerId ∉ sharing.drop (position + 1) := by
    have distinct := consistent.distinct _ _ isSharing
    intro member
    obtain ⟨further, isFurther⟩ := List.mem_iff_getElem?.mp member
    rw [List.getElem?_drop, ← listed] at isFurther
    have isHere :=
      (List.getElem?_inj (List.getElem?_eq_some_iff.mp listed).1 distinct).mp isFurther.symm
    omega
  have isDelivered : deliver env (endpoint.mayTryUnknownAddress peerId datagram.nowMs).2
          peerId datagram.addr false datagram.random datagram.nowMs =
        delivered :=
    rfl
  rw [isDelivered] at isOutcome
  clear_value delivered outcome
  obtain ⟨error | none | event, after⟩ := delivered
  · exact ⟨by rw [isOutcome], Or.inr isOutcome, records⟩
  · have sameAgain := deliver_none isDelivered
    refine ⟨?_, Or.inl rfl, records⟩
    rw [isOutcome]
    dsimp only
    split
    · rfl
    refine (candidates_tries env _ _ _ _ left (position + 1) after).spares stays
      ((stray.same same).same sameAgain) ?_ isBehind
    rw [sameAgain.bySession, same.bySession]
    exact isSharing
  · exact ⟨by rw [isOutcome], Or.inr isOutcome, records⟩

/--
A frame from an address nothing is filed under is delivered to the first
session that opens it, exactly if no session before it claims the address.
-/
theorem candidate_reached_iff
    (env : Env ω)
    (driver : Driver ω)
    (reachable : driver.Reachable env)
    (datagram : Incoming)
    (sharing : List PeerId)
    (position : Nat)
    (peerId : PeerId)
    (entry : PeerEntry)
    (unrouted :
      driver.endpoint.routes.lookup
          (datagram.addr, datagram.header.sessionId) =
        none)
    (isSharing :
      driver.endpoint.bySession.lookup datagram.header.sessionId =
        some sharing)
    (inReach : position < maxCandidates)
    (listed : sharing[position]? = some peerId)
    (found : driver.endpoint.peers.lookup peerId = some entry)
    (may :
      (driver.endpoint.mayTryUnknownAddress peerId datagram.nowMs).1 = true)
    (opens :
      (entry.peer.session.openFrame env.suite.aead
        datagram.bytes).1.isOk = true)
    (rejected :
      ∀ other ∈ sharing.take position,
        Rejects env { driver.endpoint with rx := datagram.bytes } other) :
    let read := { driver.endpoint with rx := datagram.bytes }
    let routed :=
      route env read datagram.addr datagram.header.sessionId
        datagram.random datagram.nowMs
    let delivered :=
      deliver env (read.asked (sharing.take (position + 1)) datagram.nowMs)
        peerId datagram.addr false datagram.random datagram.nowMs
    (routed.2.peers.lookup peerId = delivered.2.peers.lookup peerId ∧
        (delivered.1 = .ok none ∨ routed = delivered) ∧
        ∃ now,
          routed.2.peers.lookup peerId = some now ∧
            now.peer.session.replay =
              entry.peer.session.replay.commit datagram.header.sequence) ↔
      ∀ other ∈ sharing.take position,
        read.stops datagram.addr datagram.nowMs other = false := by
  intro read routed delivered
  have consistent : read.registry.Consistent := reachable.consistent
  have distinct : sharing.Nodup := consistent.distinct _ _ isSharing
  obtain ⟨inSharing, _⟩ := List.getElem?_eq_some_iff.mp listed
  have upTo :
      sharing.take (position + 1) = sharing.take position ++ [peerId] := by
    rw [List.take_add_one, listed]
    rfl
  have apart : peerId ∉ sharing.take position := by
    have distinctUpTo := distinct.sublist (List.take_sublist (position + 1) _)
    rw [upTo, List.nodup_append] at distinctUpTo
    exact fun member =>
      distinctUpTo.2.2 _ member _ (List.mem_singleton_self peerId) rfl
  obtain ⟨left, isLeft⟩ : ∃ left, maxCandidates = position + (left + 1) :=
    ⟨maxCandidates - position - 1, by omega⟩
  have isRouted : routed =
        tryCandidates env datagram.addr datagram.header.sessionId
          datagram.random datagram.nowMs (position + (left + 1)) 0 read := by
    unfold routed route
    rw [show read.routes = driver.endpoint.routes from rfl, unrouted, ← isLeft]
  have walks :=
    @tryCandidates_walk _ env read peerId datagram.addr _ datagram.random
      datagram.nowMs _ distinct isSharing position (left + 1) inSharing.le
      rejected apart
  rw [← isRouted] at walks
  obtain ⟨opened, isOpened⟩ : ∃ opened,
        (entry.peer.session.openFrame env.suite.aead datagram.bytes).1 =
          .ok opened := by
    generalize
      entry.peer.session.openFrame env.suite.aead datagram.bytes = opening
      at opens
    obtain ⟨error | opened, _, _⟩ := opening
    · cases opens
    · exact ⟨opened, rfl⟩
  have isHeader : opened.header = datagram.header :=
    Except.ok.inj
      ((Session.openFrame_header isOpened).symm.trans datagram.decoded)
  have passes :
      entry.peer.session.replay.check datagram.header.sequence = .ok () := by
    rw [← isHeader]
    exact (Session.screenHeader_ok (Session.openFrame_screened isOpened)).2.2
  cases anyStops :
      (sharing.take position).any (read.stops datagram.addr datagram.nowMs) with
  | true =>
      rw [if_pos anyStops] at walks
      obtain ⟨other, member, stopsThere⟩ := List.any_eq_true.mp anyStops
      constructor
      · rintro ⟨_, _, now, foundNow, recorded⟩
        rw [walks.2, show read.peers.lookup peerId = some entry from found]
          at foundNow
        cases foundNow
        rw [recorded, ReplayWindow.check_commit] at passes
        cases passes
      · intro unclaimed
        rw [unclaimed other member] at stopsThere
        cases stopsThere
  | false =>
      rw [anyStops, if_neg Bool.false_ne_true] at walks
      have unclaimed : ∀ other ∈ sharing.take position,
            read.stops datagram.addr datagram.nowMs other = false := by
        intro other member
        exact Bool.eq_false_iff.mpr fun stopsThere =>
          Bool.false_ne_true
            (anyStops.symm.trans
              (List.any_eq_true.mpr ⟨other, member, stopsThere⟩))
      refine iff_of_true ?_ unclaimed
      have same :=
        asked_others (sharing.take position) read apart datagram.nowMs
      have isDelivered : delivered =
            deliver env
              ((read.asked (sharing.take position)
                datagram.nowMs).mayTryUnknownAddress peerId
                datagram.nowMs).2
              peerId datagram.addr false datagram.random datagram.nowMs := by
        unfold delivered
        rw [upTo, asked, List.foldl_append]
        rfl
      generalize read.asked (sharing.take position) datagram.nowMs = here
        at same walks isDelivered
      have consistentHere : here.registry.Consistent := by
        rw [same.registry]
        exact consistent
      have isRx : here.rx = datagram.bytes := same.rx
      have unroutedHere :
          here.routes.lookup (datagram.addr, datagram.header.sessionId) =
            none := by
        rw [same.routes]
        exact unrouted
      have isSharingHere : here.bySession.lookup datagram.header.sessionId =
            some sharing := by
        rw [same.bySession]
        exact isSharing
      have foundHere : here.peers.lookup peerId = some entry :=
        same.lookup.trans found
      have mayHere :
          (here.mayTryUnknownAddress peerId datagram.nowMs).1 = true :=
        (mayTryUnknownAddress_fst (foundHere.trans found.symm)
          same.migrationRate datagram.nowMs).trans may
      obtain ⟨samePeer, outcome, now, foundNow, recorded⟩ :=
        tryCandidates_reached left consistentHere ⟨by rw [isRx], unroutedHere⟩
          isSharingHere listed foundHere mayHere
      rw [← walks, ← isDelivered] at samePeer outcome
      rw [← isDelivered, ← samePeer] at foundNow
      refine ⟨samePeer, outcome, now, foundNow, ?_⟩
      rw [recorded, isRx, Session.openFrame_replay isOpened, isHeader]

/-! ### Two sessions with one identifier -/

/--
Two peers have picked the same identifier.  A frame of the first has come from
a third address, which has been asked to prove itself and has not answered.
-/
def smallTwins : Driver Unit :=
  Execution.run (Driver.next smallEnv)
    (Driver.new (Endpoint.new smallEnv (.publicKey []) ()))
    (smallPass 1 (smallOpening .handshakeInit 5 [7]) (host 1) [] ++
      smallPass 2 (smallOpening .handshakeInit 5 [8]) (host 2) [] ++
      smallPass 3 (smallWord 5 [7]) (host 3) (List.replicate 8 1))

/-- A frame of the second, as it arrives. -/
def smallHidden : Endpoint Unit :=
  { smallTwins.endpoint with rx := smallWord 5 [8] }

/--
A frame of the second from that address as well is lost on it: the walk ends
at the first, which rejects the frame but is still asking the address.  From
anywhere else it would have been delivered.
-/
theorem unanswered_challenge_hides_session :
    smallHidden.bySession.lookup 5 = some [0, 1] ∧
      smallHidden.routes.lookup (host 3, 5) = none ∧
      (smallHidden.mayTryUnknownAddress 1 4).1 = true ∧
      Rejects smallEnv smallHidden 0 ∧
      ((smallHidden.peers.lookup 1).map fun entry =>
          (entry.peer.session.openFrame smallEnv.suite.aead
            smallHidden.rx).1.isOk) = some true ∧
      (route smallEnv smallHidden (host 3) 5 [] 4).1 = .ok none ∧
      (route smallEnv smallHidden (host 3) 5 [] 4).2.peers.lookup 1 =
        smallHidden.peers.lookup 1 ∧
      (route smallEnv smallHidden (host 4) 5 [] 4).1 =
        .ok (some (.message 1 [1])) := by
  decide +kernel

theorem candidate_reached_iff_of_small_twins :
    smallHidden.stops (host 4) 4 0 = false ∧
      (route smallEnv smallHidden (host 4) 5 [] 4).2.peers.lookup 1 =
        (deliver smallEnv (smallHidden.asked [0, 1] 4) 1 (host 4) false []
          4).2.peers.lookup 1 := by
  have unclaimed : smallHidden.stops (host 4) 4 0 = false := by
    decide +kernel
  have opens : ((smallTwins.endpoint.peers.lookup 1).map fun entry =>
          (entry.peer.session.openFrame smallEnv.suite.aead
            (smallWord 5 [8])).1.isOk) = some true := by
    decide +kernel
  have rejected : Rejects smallEnv smallHidden 0 := by
    decide +kernel
  obtain ⟨entry, found, opens⟩ := Option.map_eq_some_iff.mp opens
  have reached :=
    candidate_reached_iff smallEnv smallTwins
      ⟨.publicKey [], (), _, rfl⟩
      ⟨smallWord 5 [8], ⟨.data, 0, 5, 0⟩, host 4, [], 4, by decide +kernel⟩
      [0, 1] 1 1 entry (by decide +kernel) (by decide +kernel)
      (by decide) rfl found (by decide +kernel) opens
      (by
        intro other member
        rw [List.mem_singleton.mp member]
        exact rejected)
  refine ⟨unclaimed, (reached.mpr ?_).1⟩
  intro other member
  rw [List.mem_singleton.mp member]
  exact unclaimed

end Endpoint

end Fectp
