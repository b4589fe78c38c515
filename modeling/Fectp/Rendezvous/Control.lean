import Fectp.Relay

namespace Fectp

/-!
# What clients and a rendezvous say to one another

Each message is the payload of an ordinary session: a byte for its kind, then
a body whose length the kind settles.  A message of any other shape is ignored.

An IPv4 address is numbered by its octets, and an IPv6 address likewise, past
all of the IPv4 ones.
-/

/-- A static public key, as the messages carry it. -/
abbrev Key := Bytes

/-- What a group is known by at a rendezvous. -/
abbrev GroupTag := Bytes

def groupTagLen : Nat := 16

/-- The length of a certificate. -/
def macLen : Nat := 16

def introductionWindow : Nat := 30000

def relayWindow : Nat := 60000

def relayIdle : Nat := 60000

def maxRelays : Nat := 64

def maxRelaysPerIp : Nat := 4

def maxClientsPerIp : Nat := 32

def introductionsPerSecond : Nat := 4

def maxGroupMembers : Nat := 64

def maxGroups : Nat := 8

/-- How many addresses come before the IPv6 ones. -/
def ipv4Count : Nat := 256 ^ 4

/-- Whether an address is a wildcard. -/
def isUnspecified (ip : Nat) : Bool :=
  ip == 0 || ip == ipv4Count

/-- One message between a client and the rendezvous. -/
inductive Control where
  | register
  | introduce (key : Key)
  | relay (key : Key)
  | observed (addr : SocketAddr)
  | introduction (key : Key) (addr : SocketAddr)
  | unavailable (key : Key) (reason : UInt8)
  | relayOffer (key : Key) (addr : SocketAddr) (token : Bytes)
  | join (tag : GroupTag) (mac : Bytes)
  | leave (tag : GroupTag)
  | members (tag : GroupTag) (list : List (Key × Bytes))
  deriving Repr, DecidableEq

def putAddr (addr : SocketAddr) : Bytes :=
  (if addr.ip < ipv4Count then
    4 :: LittleEndian.encode 4 addr.ip
  else
    6 :: LittleEndian.encode 16 (addr.ip - ipv4Count)) ++
    LittleEndian.encode 2 addr.port

/-- An address at the start of a body, and what follows it. -/
def takeAddr : Bytes → Option (SocketAddr × Bytes)
  | [] =>
      none
  | family :: rest => do
      let (len, first) ←
        if family = 4 then some (4, 0)
        else if family = 6 then some (16, ipv4Count)
        else none
      if rest.length < len + 2 then
        none
      else
        let ip := first + LittleEndian.decode (rest.take len)
        let port := LittleEndian.decode ((rest.drop len).take 2)
        some (⟨ip, port⟩, rest.drop (len + 2))

def takeKey (body : Bytes) : Option (Key × Bytes) :=
  if body.length < keyLen then none
  else some (body.take keyLen, body.drop keyLen)

/-- The last of a body, which must be so long. -/
def takeLast (body : Bytes) (len : Nat) : Option Bytes :=
  if body.length = len then some body else none

/-- Keys and certificates laid end to end, as many as there are. -/
def takeMembers : Nat → Bytes → List (Key × Bytes)
  | 0, _ =>
      []
  | count + 1, body =>
      (body.take keyLen, (body.drop keyLen).take macLen) ::
        takeMembers count (body.drop (keyLen + macLen))

namespace Control

def encode : Control → Bytes
  | .register =>
      [0x01]
  | .introduce key =>
      0x02 :: key
  | .relay key =>
      0x03 :: key
  | .observed addr =>
      0x81 :: putAddr addr
  | .introduction key addr =>
      0x82 :: key ++ putAddr addr
  | .unavailable key reason =>
      0x83 :: key ++ [reason]
  | .relayOffer key addr token =>
      0x84 :: key ++ putAddr addr ++ token
  | .join tag mac =>
      0x04 :: tag ++ mac
  | .leave tag =>
      0x05 :: tag
  | .members tag list =>
      0x85 :: tag ++ list.flatMap fun (key, mac) => key ++ mac

/-- A key that is the whole of a body. -/
def decodeKey (body : Bytes) : Option Key := do
  let (key, rest) ← takeKey body
  guard rest.isEmpty
  some key

def decodeObserved (body : Bytes) : Option Control := do
  let (addr, rest) ← takeAddr body
  guard rest.isEmpty
  some (.observed addr)

def decodeIntroduction (body : Bytes) : Option Control := do
  let (key, rest) ← takeKey body
  let (addr, rest) ← takeAddr rest
  guard rest.isEmpty
  some (.introduction key addr)

def decodeUnavailable (body : Bytes) : Option Control := do
  let (key, rest) ← takeKey body
  match rest with
  | [reason] => some (.unavailable key reason)
  | _ => none

def decodeRelayOffer (body : Bytes) : Option Control := do
  let (key, rest) ← takeKey body
  let (addr, rest) ← takeAddr rest
  let token ← takeLast rest Relay.secretLen
  some (.relayOffer key addr token)

def decodeJoin (body : Bytes) : Option Control :=
  if body.length = groupTagLen + macLen then
    some (.join (body.take groupTagLen) (body.drop groupTagLen))
  else
    none

def decodeMembers (body : Bytes) : Option Control :=
  let listed := body.drop groupTagLen
  let count := listed.length / (keyLen + macLen)
  if body.length < groupTagLen then none
  else if listed.length % (keyLen + macLen) ≠ 0 then none
  else if count > maxGroupMembers then none
  else some (.members (body.take groupTagLen) (takeMembers count listed))

/-- Nothing for a kind that is not known or a body of the wrong length. -/
def decode : Bytes → Option Control
  | [] =>
      none
  | kind :: body =>
      match kind with
      | 0x01 => if body.isEmpty then some .register else none
      | 0x02 => (decodeKey body).map .introduce
      | 0x03 => (decodeKey body).map .relay
      | 0x81 => decodeObserved body
      | 0x82 => decodeIntroduction body
      | 0x83 => decodeUnavailable body
      | 0x84 => decodeRelayOffer body
      | 0x04 => decodeJoin body
      | 0x05 => (takeLast body groupTagLen).map .leave
      | 0x85 => decodeMembers body
      | _ => none

end Control

end Fectp
