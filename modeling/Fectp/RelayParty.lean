import Fectp.Relay

namespace Fectp

/-!
# Whom a relay's port records

A port answers two exchanges at once.  The checks of both carry the same
nonces, and once a bind has shown the token a proof is taken for any check of
the last two periods, also for one that a hello drew.  An account of the
datagrams read and the checks sent is kept beside the relay, which itself keeps
neither.
-/

namespace Relay

/-- A check that was sent. -/
structure Checked where
  side : Side
  addr : SocketAddr
  nonce : Bytes
  epoch : Nat
  deriving Repr, DecidableEq

/-- A relay, the datagrams it read and the checks it sent, latest first. -/
structure Account where
  allocation : Allocation
  received : List Arrival
  checks : List Checked

/-- The datagram is a bind that shows the token. -/
def Arrival.Binds (arrival : Arrival) (token : Bytes) : Prop :=
  arrival.datagram = notAFrame :: bindByte :: token
  deriving Decidable

/-- The datagram answers a nonce with a code keyed by the token. -/
def Arrival.Answers
    (hashing : Hashing)
    (arrival : Arrival)
    (token nonce : Bytes) :
    Prop :=
  arrival.datagram =
    notAFrame :: answerByte :: (nonce ++ relayAnswer hashing token nonce)
  deriving Decidable

/-- The nonce a datagram returns, if it is of a kind that returns one. -/
def Arrival.returned (arrival : Arrival) : Option Bytes :=
  match arrival.datagram with
  | _ :: kind :: rest =>
      if kind = answerByte then
        some (rest.take secretLen)
      else if kind = proofByte then
        some rest
      else
        none
  | _ =>
      none

namespace Account

def opened (tokens secrets : Side → Bytes) : Account where
  allocation := Allocation.opened tokens secrets
  received := []
  checks := []

abbrev port (account : Account) (side : Side) : Port :=
  account.allocation.ports side

/-- One datagram served, and noted. -/
def serve (hashing : Hashing) (account : Account) (arrival : Arrival) :
    Account :=
  let served := account.allocation.servePort hashing arrival
  { allocation := served.1
    received := arrival :: account.received
    checks :=
      match served.2 with
      | some (.check addr nonce) =>
          ⟨arrival.side, addr, nonce, Port.epoch arrival.nowNs⟩ ::
            account.checks
      | _ =>
          account.checks }

/--
The clock does not run back, and the nonce of a check is returned only after
the check was sent.
-/
structure Unguessed
    (hashing : Hashing)
    (side : Side)
    (account : Account)
    (arrival : Arrival) :
    Prop where
  clock : ∀ earlier ∈ account.received, earlier.nowNs ≤ arrival.nowNs
  returned : arrival.side = side →
      ∀ epoch ∈ [Port.epoch arrival.nowNs, Port.epoch arrival.nowNs - 1],
        ∀ nonce ∈ arrival.returned,
          nonce = (account.port side).nonce hashing arrival.addr epoch →
            ⟨side, arrival.addr, nonce, epoch⟩ ∈ account.checks

/--
A bind that exposes a port finds every check of this period and the last to
have gone where the bind comes from.
-/
def Separate (side : Side) (account : Account) (arrival : Arrival) :
    Prop :=
  arrival.side = side →
    arrival.Binds (account.port side).token →
    (account.port side).party = none →
    (account.port side).exposed = false →
      ∀ check ∈ account.checks,
        check.side = side →
        Port.epoch arrival.nowNs ≤ check.epoch + 1 → check.addr = arrival.addr

/--
Whoever a port newly records was sent a check before, and has itself shown the
token or answered a nonce sent to it.
-/
def RecordsHolder
    (hashing : Hashing)
    (tokens : Side → Bytes)
    (side : Side)
    (account : Account)
    (arrival : Arrival) :
    Prop :=
  ∀ addr,
    (account.port side).party ≠ some addr →
    ((account.serve hashing arrival).port side).party = some addr →
      (∃ check ∈ account.checks, check.side = side ∧ check.addr = addr) ∧
        ∃ heard ∈ (account.serve hashing arrival).received,
          heard.side = side ∧
          heard.addr = addr ∧
          (heard.Binds (tokens side) ∨
            ∃ check ∈ account.checks,
              check.side = side ∧
              check.addr = addr ∧
              heard.Answers hashing (tokens side) check.nonce)

end Account

namespace Port

variable (port : Port) (nowNs : Nat)

@[simp] theorem renewed_token :
    (port.renewed nowNs).token = port.token := by
  unfold renewed
  split <;> rfl

@[simp] theorem renewed_party :
    (port.renewed nowNs).party = port.party := by
  unfold renewed
  split <;> rfl

@[simp] theorem renewed_exposed :
    (port.renewed nowNs).exposed = port.exposed := by
  unfold renewed
  split <;> rfl

/-- Asking for a check changes only the counts. -/
theorem check_fst (hashing : Hashing) (port : Port) (nowNs : Nat) (addr : SocketAddr) :
    (port.check hashing nowNs addr).1.token = port.token ∧
      (port.check hashing nowNs addr).1.party = port.party ∧
      (port.check hashing nowNs addr).1.exposed = port.exposed := by
  simp only [check]
  split
  · simp
  · simp

/-- A nonce taken for one that was sent is that of this period or the last. -/
theorem sent_cases
    {hashing : Hashing} {port : Port} {nowNs : Nat} {addr : SocketAddr} {returned : Bytes}
    (isSent : port.sent hashing nowNs addr returned = true) :
    ∃ period ∈ [epoch nowNs, epoch nowNs - 1], returned = port.nonce hashing addr period := by
  simp only [sent, Bool.or_eq_true, Bool.and_eq_true, same_iff] at isSent
  rcases isSent with isNow | ⟨_, isLast⟩
  · exact ⟨_, List.mem_cons_self, isNow⟩
  · exact ⟨_, List.mem_cons_of_mem _ List.mem_cons_self, isLast⟩

/-- What a datagram of the port's own conversation can do. -/
inductive Converses
    (hashing : Hashing)
    (port : Port)
    (nowNs : Nat)
    (addr : SocketAddr) :
    Bytes → Port × Option Bytes → Prop where
  | ignored {datagram} :
      Converses hashing port nowNs addr datagram (port, none)
  | greeted {datagram} :
      port.exposed = false →
      Converses hashing port nowNs addr datagram (port.check hashing nowNs addr)
  | answered {first nonce} :
      nonce.length = secretLen →
      port.sent hashing nowNs addr nonce = true →
      Converses hashing port nowNs addr
        (first :: answerByte :: (nonce ++ relayAnswer hashing port.token nonce))
        ({ port with party := some addr }, none)
  | bound {first} :
      port.party = none →
      Converses hashing port nowNs addr
        (first :: bindByte :: port.token)
        ({ port with exposed := true }.check hashing nowNs addr)
  | proved {first nonce} :
      port.exposed = true →
      port.sent hashing nowNs addr nonce = true →
      Converses hashing port nowNs addr
        (first :: proofByte :: nonce)
        ({ port with party := some addr }, none)

theorem converse_cases
    (hashing : Hashing) (port : Port) (nowNs : Nat) (addr : SocketAddr) (datagram : Bytes) :
    Converses hashing port nowNs addr datagram (port.converse hashing nowNs addr datagram) := by
  unfold converse
  split
  · next first kind rest =>
      split
      · split
        · next closed => exact .greeted (by simpa using closed)
        · exact .ignored
      split
      · next isAnswer =>
          obtain ⟨rfl, restLength⟩ := isAnswer
          dsimp only
          split
          · next accepted =>
              have isCode := (same_iff _ _).mp accepted.2.2
              have isRest : rest = rest.take secretLen ++
                      relayAnswer hashing port.token (rest.take secretLen) := by
                rw [← isCode, List.take_append_drop]
              have nonceLength : (rest.take secretLen).length = secretLen := by
                rw [List.length_take]
                omega
              have answered : Converses hashing port nowNs addr (first :: answerByte ::
                      (rest.take secretLen ++ relayAnswer hashing port.token (rest.take secretLen)))
                    ({ port with party := some addr }, none) :=
                .answered nonceLength accepted.2.1
              rwa [← isRest] at answered
          · exact .ignored
      split
      · next isBind =>
          obtain ⟨rfl, unset, isToken⟩ := isBind
          rw [(same_iff _ _).mp isToken]
          exact .bound (Option.isNone_iff_eq_none.mp unset)
      split
      · next isProof =>
          obtain ⟨rfl, _, isExposed, isSent⟩ := isProof
          exact .proved isExposed isSent
      · exact .ignored
  · exact .ignored

end Port

namespace Allocation

/-- Taking from the budget changes nothing but the budget. -/
theorem spend_eq (allocation : Allocation) (nowNs bytes : Nat) :
    ∃ budget taken, allocation.spend nowNs bytes =
        ({ allocation with budget := budget, refilled := nowNs }, taken) :=
  ⟨_, _, rfl⟩

/-- Forwarding leaves both ports as they are, and sends no check. -/
theorem forward_cases (allocation : Allocation) (arrival : Arrival) :
    (allocation.forward arrival).1.ports = allocation.ports ∧
      ∀ addr nonce, (allocation.forward arrival).2 ≠ some (.check addr nonce) := by
  obtain ⟨budget, taken, spent⟩ := allocation.spend_eq arrival.nowNs arrival.datagram.length
  unfold forward
  rw [spent]
  split
  · exact ⟨rfl, fun _ _ => nofun⟩
  split
  · exact ⟨rfl, fun _ _ => nofun⟩
  cases taken with
  | false => exact ⟨rfl, fun _ _ => nofun⟩
  | true =>
    refine ⟨?_, fun _ _ => nofun⟩
    dsimp only
    split
    · rfl
    · rfl

end Allocation

namespace Account

/--
Serving a datagram leaves a port and its checks alone, or is a step of that
port's conversation.
-/
theorem serve_cases (hashing : Hashing) (account : Account) (arrival : Arrival) (side : Side) :
    ((account.serve hashing arrival).port side = account.port side ∧
        ∀ check ∈ (account.serve hashing arrival).checks,
          check.side = side → check ∈ account.checks) ∨
      (arrival.side = side ∧ arrival.datagram.head? = some notAFrame ∧
        ∃ result, Port.Converses hashing (account.port side) arrival.nowNs
            arrival.addr arrival.datagram result ∧
          (account.serve hashing arrival).port side = result.1 ∧
          (account.serve hashing arrival).checks = (result.2.map (⟨side, arrival.addr, ·,
                Port.epoch arrival.nowNs⟩)).toList ++
              account.checks) := by
  by_cases talks : arrival.datagram.head? = some notAFrame
  · by_cases isSide : arrival.side = side
    · right
      have converses :=
        Port.converse_cases hashing (account.port side) arrival.nowNs arrival.addr arrival.datagram
      rcases result :
          (account.port side).converse hashing arrival.nowNs arrival.addr
            arrival.datagram with ⟨port, drawn⟩
      rw [result] at converses
      refine ⟨isSide, talks, (port, drawn), converses, ?_⟩
      subst isSide
      cases drawn with
      | none => simp [serve, Account.port, Allocation.servePort, talks, result]
      | some nonce => simp [serve, Account.port, Allocation.servePort, talks, result]
    · left
      simp only [serve, Allocation.servePort, if_pos talks]
      refine ⟨Function.update_of_ne (Ne.symm isSide) _ _, ?_⟩
      intro check member onSide
      split at member
      · rcases List.mem_cons.mp member with rfl | old
        · exact absurd onSide isSide
        · exact old
      · exact member
  · left
    obtain ⟨ports, noCheck⟩ := account.allocation.forward_cases arrival
    simp only [serve, Allocation.servePort, if_neg talks]
    refine ⟨congrFun ports side, ?_⟩
    intro check member _
    exact member

/--
Once a port is exposed, a check it sent went to someone who showed the token,
or lies too far back to be returned.
-/
structure Settled
    (tokens : Side → Bytes)
    (side : Side)
    (account : Account) :
    Prop where
  token : (account.port side).token = tokens side
  shown : (account.port side).exposed = true →
      ∀ check ∈ account.checks,
        check.side = side →
          (∃ heard ∈ account.received,
            heard.side = side ∧
            heard.addr = check.addr ∧
            heard.Binds (tokens side)) ∨
          ∃ heard ∈ account.received, check.epoch + 1 < Port.epoch heard.nowNs

theorem opened_settled (tokens secrets : Side → Bytes) (side : Side) :
    Settled tokens side (opened tokens secrets) where
  token := rfl
  shown := fun _ _ member => nomatch member

variable {hashing : Hashing} {tokens : Side → Bytes} {side : Side}
  {account : Account} {arrival : Arrival}

/-- Serving more only adds to what was read. -/
private theorem Settled.kept (settled : Settled tokens side account)
    (isExposed : (account.port side).exposed = true) {check : Checked}
    (member : check ∈ account.checks) (onSide : check.side = side) :
    (∃ heard ∈ (account.serve hashing arrival).received, heard.side = side ∧
        heard.addr = check.addr ∧
        heard.Binds (tokens side)) ∨
      ∃ heard ∈ (account.serve hashing arrival).received,
        check.epoch + 1 < Port.epoch heard.nowNs := by
  rcases settled.shown isExposed check member onSide with
    ⟨heard, isHeard, binds⟩ | ⟨heard, isHeard, late⟩
  · exact .inl ⟨heard, List.mem_cons_of_mem _ isHeard, binds⟩
  · exact .inr ⟨heard, List.mem_cons_of_mem _ isHeard, late⟩

theorem Settled.serve
    (separate : Separate side account arrival) (settled : Settled tokens side account) :
    Settled tokens side (account.serve hashing arrival) := by
  rcases account.serve_cases hashing arrival side with
    ⟨samePort, sameChecks⟩ | ⟨onSide, talks, result, converses, isPort, isChecks⟩
  · refine ⟨by rw [samePort, settled.token], ?_⟩
    intro isExposed check member isSide
    rw [samePort] at isExposed
    exact settled.kept isExposed (sameChecks check member isSide) isSide
  generalize isDatagram : arrival.datagram = datagram at converses
  have token : result.1.token = tokens side := by
    rw [← settled.token]
    cases converses with
    | greeted => exact (Port.check_fst ..).1
    | bound => exact (Port.check_fst ..).1
    | _ => rfl
  refine ⟨by rw [isPort, token], ?_⟩
  intro isExposed check member isSide
  rw [isPort] at isExposed
  rw [isChecks] at member
  cases converses with
  | ignored => exact settled.kept isExposed (by simpa using member) isSide
  | greeted closed =>
    rw [(Port.check_fst ..).2.2, closed] at isExposed
    exact absurd isExposed nofun
  | answered => exact settled.kept isExposed (by simpa using member) isSide
  | proved => exact settled.kept isExposed (by simpa using member) isSide
  | @bound first unset =>
    have isFirst : first = notAFrame := by
      rw [isDatagram] at talks
      exact Option.some.inj talks
    have binds : arrival.Binds (account.port side).token := by
      rw [Arrival.Binds, isDatagram, isFirst]
    have shown : check.addr = arrival.addr → ∃ heard ∈ (account.serve hashing arrival).received,
            heard.side = side ∧
            heard.addr = check.addr ∧
            heard.Binds (tokens side) := fun isAddr =>
      ⟨arrival, List.mem_cons_self, onSide, isAddr.symm, settled.token ▸ binds⟩
    rcases List.mem_append.mp member with isNew | old
    · obtain ⟨nonce, -, rfl⟩ :=
        Option.map_eq_some_iff.mp (Option.mem_toList.mp isNew)
      exact .inl (shown rfl)
    by_cases wasExposed : (account.port side).exposed = true
    · exact settled.kept wasExposed old isSide
    by_cases recent : Port.epoch arrival.nowNs ≤ check.epoch + 1
    · exact .inl
        (shown (separate onSide binds unset (by simpa using wasExposed) check old isSide recent))
    · exact .inr ⟨arrival, List.mem_cons_self, by omega⟩

/-- A nonce taken for one that was sent was sent, in this period or the last. -/
theorem Unguessed.checked {hashing : Hashing} {side : Side} {account : Account} {arrival : Arrival}
    (unguessed : Unguessed hashing side account arrival)
    (onSide : arrival.side = side) {nonce : Bytes} (isReturned : arrival.returned = some nonce)
    (isSent : (account.port side).sent hashing arrival.nowNs arrival.addr nonce = true) :
    ∃ check ∈ account.checks, check.side = side ∧ check.addr = arrival.addr ∧ check.nonce = nonce ∧
      Port.epoch arrival.nowNs ≤ check.epoch + 1 := by
  obtain ⟨period, isPeriod, isNonce⟩ := Port.sent_cases isSent
  refine ⟨_, unguessed.returned onSide period isPeriod nonce isReturned isNonce, rfl, rfl, rfl, ?_⟩
  simp only [List.mem_cons, List.not_mem_nil, or_false] at isPeriod
  dsimp only
  omega

theorem Settled.recordsHolder
    (unguessed : Unguessed hashing side account arrival) (settled : Settled tokens side account) :
    RecordsHolder hashing tokens side account arrival := by
  intro addr isNew isParty
  rcases account.serve_cases hashing arrival side with
    ⟨samePort, -⟩ | ⟨onSide, talks, result, converses, isPort, -⟩
  · rw [samePort] at isParty
    exact absurd isParty isNew
  rw [isPort] at isParty
  generalize isDatagram : arrival.datagram = datagram at converses
  cases converses with
  | ignored => exact absurd isParty isNew
  | greeted =>
    rw [(Port.check_fst ..).2.1] at isParty
    exact absurd isParty isNew
  | bound =>
    rw [(Port.check_fst ..).2.1] at isParty
    exact absurd isParty isNew
  | @answered first nonce nonceLength isSent =>
    obtain rfl := Option.some.inj isParty
    have isReturned : arrival.returned = some nonce := by
      simp [Arrival.returned, isDatagram, ← nonceLength]
    obtain ⟨check, isCheck, isSide, isAddr, isNonce, -⟩ :=
      unguessed.checked onSide isReturned isSent
    refine ⟨⟨check, isCheck, isSide, isAddr⟩, arrival, List.mem_cons_self,
      onSide, rfl, .inr ⟨check, isCheck, isSide, isAddr, ?_⟩⟩
    rw [isDatagram] at talks
    obtain rfl := Option.some.inj talks
    rw [Arrival.Answers, isDatagram, isNonce, ← settled.token]
  | @proved first nonce isExposed isSent =>
    obtain rfl := Option.some.inj isParty
    have isReturned : arrival.returned = some nonce := by
      simp [Arrival.returned, isDatagram, proofByte, answerByte]
    obtain ⟨check, isCheck, isSide, isAddr, -, recent⟩ := unguessed.checked onSide isReturned isSent
    refine ⟨⟨check, isCheck, isSide, isAddr⟩, ?_⟩
    rcases settled.shown isExposed check isCheck isSide with
      ⟨heard, isHeard, hereHeard, fromAddr, binds⟩ | ⟨heard, isHeard, late⟩
    · exact ⟨heard, List.mem_cons_of_mem _ isHeard, hereHeard, fromAddr.trans isAddr, .inl binds⟩
    -- The clock would have run back since the check was last due.
    have inOrder := unguessed.clock heard isHeard
    have : Port.epoch heard.nowNs ≤ Port.epoch arrival.nowNs :=
      Nat.div_le_div_right (Nat.div_le_div_right inOrder)
    omega

/--
In every run of a relay whose exposing binds find no recent check to have gone
elsewhere, a port records only holders of its token.
-/
theorem records_token_holders
    {hashing : Hashing}
    {tokens secrets : Side → Bytes}
    {side : Side}
    {history : List Arrival}
    (admitted :
      Execution.Admits (serve hashing)
        (fun account arrival =>
          Unguessed hashing side account arrival ∧
            Separate side account arrival)
        (opened tokens secrets) history) :
    Execution.Admits (serve hashing) (RecordsHolder hashing tokens side)
      (opened tokens secrets) history := by
  have preserved : ∀ {account arrival},
        Unguessed hashing side account arrival ∧ Separate side account arrival →
        Settled tokens side account →
        Settled tokens side (account.serve hashing arrival) :=
    fun allowed settled => settled.serve allowed.2
  exact Execution.admits_of_invariant preserved
    (fun allowed settled => settled.recordsHolder allowed.1)
    admitted (opened_settled tokens secrets side)

instance
    (hashing : Hashing)
    (side : Side)
    (account : Account)
    (arrival : Arrival) :
    Decidable (Unguessed hashing side account arrival) :=
  decidable_of_iff
    ((∀ earlier ∈ account.received, earlier.nowNs ≤ arrival.nowNs) ∧
      (arrival.side = side →
        ∀ epoch ∈ [Port.epoch arrival.nowNs, Port.epoch arrival.nowNs - 1],
          ∀ nonce ∈ arrival.returned,
            nonce = (account.port side).nonce hashing arrival.addr epoch →
              (⟨side, arrival.addr, nonce, epoch⟩ : Checked) ∈ account.checks))
    ⟨fun ⟨clock, returned⟩ => ⟨clock, returned⟩,
      fun unguessed => ⟨unguessed.clock, unguessed.returned⟩⟩

instance
    (side : Side)
    (account : Account)
    (arrival : Arrival) :
    Decidable (Separate side account arrival) := by
  unfold Separate
  infer_instance

end Account

/-- A hash that shows its last part first. -/
def smallHashing : Hashing where
  hash parts := parts.reverse.flatten
  putAddr addr := [UInt8.ofNat addr.ip, UInt8.ofNat addr.port]

def smallToken (side : Side) : Bytes :=
  List.replicate secretLen (if side = .left then 1 else 2)

def smallSecret (side : Side) : Bytes :=
  List.replicate secretLen (if side = .left then 3 else 4)

def smallRelay : Account :=
  Account.opened smallToken smallSecret

/-- A datagram read by the left port. -/
def smallArrival (nowNs host : Nat) (kind : UInt8) (rest : Bytes) :
    Arrival where
  side := .left
  nowNs := nowNs
  addr := ⟨host, 1⟩
  datagram := notAFrame :: kind :: rest

/-- The nonce of the left port's check to a host, in the first period. -/
def smallNonce (host : Nat) : Bytes :=
  (smallRelay.port .left).nonce smallHashing ⟨host, 1⟩ 0

/-- A bind and its proof, from one host. -/
def smallBinding : List Arrival :=
  [smallArrival 0 7 bindByte (smallToken .left),
    smallArrival 10 7 proofByte (smallNonce 7)]

theorem records_token_holders_of_small_binding :
    (Execution.Admits (Account.serve smallHashing)
        (fun account arrival =>
          Account.Unguessed smallHashing .left account arrival ∧
            Account.Separate .left account arrival)
        smallRelay smallBinding ∧
      ((Execution.run (Account.serve smallHashing) smallRelay
        smallBinding).port .left).party = some ⟨7, 1⟩) ∧
      Execution.Admits (Account.serve smallHashing)
        (Account.RecordsHolder smallHashing smallToken .left)
        smallRelay smallBinding :=
  ⟨by decide +kernel, Account.records_token_holders (by decide +kernel)⟩

/-- A host says hello, another binds, and the first returns its check. -/
def smallTheft : List Arrival :=
  [smallArrival 0 9 helloByte (List.replicate secretLen 0),
    smallArrival 10 7 bindByte (smallToken .left),
    smallArrival 20 9 proofByte (smallNonce 9)]

theorem hello_check_proves_stranger :
    let final :=
      Execution.run (Account.serve smallHashing) smallRelay smallTheft
    Execution.Admits (Account.serve smallHashing)
        (Account.Unguessed smallHashing .left) smallRelay smallTheft ∧
      (final.port .left).party = some ⟨9, 1⟩ ∧
      ∀ heard ∈ final.received,
        heard.addr = ⟨9, 1⟩ →
          ¬ heard.Binds (smallToken .left) ∧
            ∀ check ∈ final.checks,
              ¬ heard.Answers smallHashing (smallToken .left) check.nonce := by
  decide +kernel

end Relay

end Fectp
