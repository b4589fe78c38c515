import Fectp.Endpoint.State
import Fectp.Execution

namespace Fectp

/-!
# A relay's ports

A relay forwards between two ports.  Each port first learns where its party is:
by a keyed answer to a check it sent, or, in the older exchange, by a bind that
shows the port's token and a proof that returns the check drawn by it.  Checks
are not recorded, so a check's nonce is derived from the port's secret, the
address it goes to and the time.

The hash and the encoding of addresses are parameters.  Times are in
milliseconds since the ports were opened, with one reading of the clock for
each datagram.
-/

namespace Relay

def secretLen : Nat := 16

def checksPerSecond : Nat := 50

def checksPerAddress : Nat := 2

def bytesPerSecond : Nat := 1048576

def bindByte : UInt8 := 0x42

def checkByte : UInt8 := 0x43

def proofByte : UInt8 := 0x44

def helloByte : UInt8 := 0x45

def answerByte : UInt8 := 0x46

/-- `fectp relay answer`, in bytes. -/
def answerLabel : Bytes :=
  [102, 101, 99, 116, 112, 32, 114, 101, 108, 97, 121, 32, 97, 110, 115, 119,
    101, 114]

/-- `fectp relay check`, in bytes. -/
def checkLabel : Bytes :=
  [102, 101, 99, 116, 112, 32, 114, 101, 108, 97, 121, 32, 99, 104, 101, 99,
    107]

/-- The hash over a list of parts, and the bytes of an address. -/
structure Hashing where
  hash : List Bytes → Bytes
  putAddr : SocketAddr → Bytes

/-- What a keyed answer carries. -/
def relayAnswer (hashing : Hashing) (token nonce : Bytes) : Bytes :=
  (hashing.hash [answerLabel, token, nonce]).take secretLen

/-- Equality that takes as long whatever the bytes. -/
def same (left right : Bytes) : Bool :=
  left.length == right.length &&
    (left.zip right).foldl (fun acc pair => acc ||| (pair.1 ^^^ pair.2)) 0 == 0

private theorem differences_eq_zero (pairs : List (UInt8 × UInt8)) (acc : UInt8) :
    pairs.foldl (fun acc pair => acc ||| (pair.1 ^^^ pair.2)) acc = 0 ↔
      acc = 0 ∧ ∀ pair ∈ pairs, pair.1 = pair.2 := by
  induction pairs generalizing acc with
  | nil => simp
  | cons pair rest inductionHypothesis =>
    rw [List.foldl_cons, inductionHypothesis, UInt8.or_eq_zero_iff,
      UInt8.xor_eq_zero_iff, List.forall_mem_cons, and_assoc]

@[simp] theorem same_iff (left right : Bytes) :
    same left right = true ↔ left = right := by
  simp only [same, Bool.and_eq_true, beq_iff_eq, differences_eq_zero, true_and]
  constructor
  · rintro ⟨sameLength, agree⟩
    refine List.ext_getElem sameLength fun place isLeft isRight => ?_
    have member : (left[place], right[place]) ∈ left.zip right := by
      rw [← List.getElem_zip (h := by simp; omega)]
      exact List.getElem_mem _
    exact agree _ member
  · rintro rfl
    refine ⟨rfl, fun pair member => ?_⟩
    obtain ⟨place, isPlace, rfl⟩ := List.mem_iff_getElem.mp member
    rw [List.getElem_zip]

/-- One of a relay's two sockets, and the conversation with its party. -/
structure Port where
  token : Bytes
  secret : Bytes
  /-- The address its party proved it can receive at, once it has. -/
  party : Option SocketAddr
  /-- Whether a bind has shown the token in the clear. -/
  exposed : Bool
  /-- When the counts of checks were last cleared. -/
  second : Nat
  /-- Checks sent since then to each address. -/
  sentTo : Table SocketAddr Nat

namespace Port

def fresh (token secret : Bytes) : Port where
  token := token
  secret := secret
  party := none
  exposed := false
  second := 0
  sentTo := ∅

/-- The ten-second period a moment lies in. -/
def epoch (nowNs : Nat) : Nat :=
  nowNs / 1000000000 / 10

/-- The nonce a check to an address carries in a period. -/
def nonce (hashing : Hashing) (port : Port) (addr : SocketAddr) (epoch : Nat) :
    Bytes :=
  (hashing.hash
    [checkLabel, port.secret, hashing.putAddr addr,
      LittleEndian.encode 8 epoch]).take secretLen

/-- Whether a nonce is that of a check to `addr`, in this period or the last. -/
def sent
    (hashing : Hashing)
    (port : Port)
    (nowNs : Nat)
    (addr : SocketAddr)
    (nonce : Bytes) :
    Bool :=
  same nonce (port.nonce hashing addr (epoch nowNs)) ||
    (decide (0 < epoch nowNs) &&
      same nonce (port.nonce hashing addr (epoch nowNs - 1)))

/-- Forgets the counts of a second that has passed. -/
def renewed (port : Port) (nowNs : Nat) : Port :=
  if nowNs - port.second ≥ 1000000000 then
    { port with second := nowNs, sentTo := ∅ }
  else
    port

/-- The port after a check was asked for, and the nonce if one is sent. -/
def check (hashing : Hashing) (port : Port) (nowNs : Nat) (addr : SocketAddr) :
    Port × Option Bytes :=
  let port := port.renewed nowNs
  let total := port.sentTo.values.sum
  let toThis := (port.sentTo.lookup addr).getD 0
  if total ≥ checksPerSecond ∨ toThis ≥ checksPerAddress then
    ({ port with sentTo := port.sentTo.insert addr toThis }, none)
  else
    ({ port with sentTo := port.sentTo.insert addr (toThis + 1) },
      some (port.nonce hashing addr (epoch nowNs)))

/--
The port's own conversation: what a datagram that is no frame does, and the
nonce of the check it draws.
-/
def converse
    (hashing : Hashing)
    (port : Port)
    (nowNs : Nat)
    (addr : SocketAddr) :
    Bytes → Port × Option Bytes
  | _ :: kind :: rest =>
      if kind = helloByte ∧ rest.length = secretLen then
        if !port.exposed then
          port.check hashing nowNs addr
        else
          (port, none)
      else if kind = answerByte ∧ rest.length = 2 * secretLen then
        let nonce := rest.take secretLen
        let mac := rest.drop secretLen
        if !port.exposed ∧ port.sent hashing nowNs addr nonce ∧
            same mac (relayAnswer hashing port.token nonce) then
          ({ port with party := some addr }, none)
        else
          (port, none)
      else if kind = bindByte ∧ port.party.isNone ∧
          same rest port.token then
        { port with exposed := true }.check hashing nowNs addr
      else if kind = proofByte ∧ port.party.isNone ∧ port.exposed ∧
          port.sent hashing nowNs addr rest then
        ({ port with party := some addr }, none)
      else
        (port, none)
  | _ =>
      (port, none)

end Port

/-- Which of the two ports. -/
inductive Side where
  | left
  | right
  deriving Repr, DecidableEq

def Side.other : Side → Side
  | .left =>
      .right
  | .right =>
      .left

/-- Two ports, and what forwarding between them shares. -/
structure Allocation where
  ports : Side → Port
  /-- The bytes that may still be forwarded, a double float. -/
  budget : Int
  refilled : Nat
  lastForward : Nat

/-- A datagram a port read: the moment, its source and its bytes. -/
structure Arrival where
  side : Side
  nowNs : Nat
  addr : SocketAddr
  datagram : Bytes
  /-- Whether the socket takes what is forwarded. -/
  forwards : Bool := true
  deriving Repr, DecidableEq

/-- A datagram a port sends. -/
inductive Sent where
  | check (addr : SocketAddr) (nonce : Bytes)
  | forward (addr : SocketAddr) (datagram : Bytes)
  deriving Repr, DecidableEq

/-- The bytes of a datagram sent. -/
def Sent.bytes : Sent → Bytes
  | .check _ nonce =>
      notAFrame :: checkByte :: nonce
  | .forward _ datagram =>
      datagram

namespace Allocation

def opened (tokens secrets : Side → Bytes) : Allocation where
  ports side := Port.fresh (tokens side) (secrets side)
  budget := FloatFormat.double.ofNat bytesPerSecond
  refilled := 0
  lastForward := 0

/-- Takes a datagram's bytes from the budget, if they are there. -/
def spend (allocation : Allocation) (nowNs bytes : Nat) :
    Allocation × Bool :=
  let most := FloatFormat.double.ofNat bytesPerSecond
  let spent :=
    TokenBucket.spend .double allocation.budget (nowNs - allocation.refilled)
      most most (FloatFormat.double.ofNat bytes)
  ({ allocation with budget := spent.2, refilled := nowNs }, spent.1)

/-- Passes a frame on to the other port's party. -/
def forward (allocation : Allocation) (arrival : Arrival) :
    Allocation × Option Sent :=
  if (allocation.ports arrival.side).party ≠ some arrival.addr then
    (allocation, none)
  else
    match (allocation.ports arrival.side.other).party with
    | none =>
        (allocation, none)
    | some addr =>
        match allocation.spend arrival.nowNs arrival.datagram.length with
        | (allocation, false) =>
            (allocation, none)
        | (allocation, true) =>
            ((if arrival.forwards then
                { allocation with lastForward := arrival.nowNs }
              else
                allocation),
              some (.forward addr arrival.datagram))

/-- One pass of a port's thread, over a datagram it read. -/
def servePort
    (hashing : Hashing)
    (allocation : Allocation)
    (arrival : Arrival) :
    Allocation × Option Sent :=
  if arrival.datagram.head? = some notAFrame then
    let (port, drawn) :=
      (allocation.ports arrival.side).converse hashing arrival.nowNs
        arrival.addr arrival.datagram
    ({ allocation with
        ports := Function.update allocation.ports arrival.side port },
      drawn.map (Sent.check arrival.addr))
  else
    allocation.forward arrival

end Allocation

end Relay

end Fectp
