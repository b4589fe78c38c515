import Fectp.Connection
import Fectp.TicketStore
import Fectp.TokenBucket
import Fectp.Traversal

namespace Fectp

/-!
# An endpoint serving many peers

One socket, a table of sessions, the handshakes started here, and one caller.
`poll` is a loop whose passes are events of their own: the time-driven work is
done if it is due, the queues are fed, and the socket is read for as long as
the wake allows.

Readings of the clock are inputs, in milliseconds since the endpoint was
bound, as are the random bytes.  The handshakes themselves are a parameter, and
so is the order in which a table is walked.  What a client of a rendezvous does
besides is not here: it is a layer over this one.
-/

/-- Where datagrams come from and go to. -/
structure SocketAddr where
  ip : Nat
  port : Nat
  deriving Repr, DecidableEq

/-- A handle to one peer, never reused. -/
abbrev PeerId := Nat

def handshakeRetryMs : Nat := 250

def maxMeasuredPaths : Nat := 64

def handshakeAttempts : Nat := 4

def maxPeers : Nat := 1024

def handshakeReplies : Nat := 8

def maxHandshakesPerSecond : Nat := 512

def maxMigrationAttemptsPerPeer : Nat := 8

def minKeepalive : Nat := 100

def minPeerTimeout : Nat := 1000

def maxCandidates : Nat := 4

def pathProbes : Nat := 3

def probeTimeout : Nat := 3000

def probeInterval : Nat := 250

/-- The first byte of a datagram that is no frame. -/
def notAFrame : UInt8 := 0xF0

def initiatorOverhead : Nat := 118

def responderOverhead : Nat := 70

def resumeInitiatorOverhead : Nat := 78

def resumeResponderOverhead : Nat := 70

/-- The key of a peer that has shown none. -/
def anonymous : Bytes := List.replicate 32 0

/-- How a server authenticates the peers that connect to it. -/
inductive Mode where
  | publicKey (key : Bytes)
  | psk (ticket : ResumptionTicket)
  deriving Repr, DecidableEq

/-- A handshake started here: what its initiator keeps until the reply. -/
inductive Handshake where
  | full (state : Bytes)
  | psk (state : Bytes)
  deriving Repr, DecidableEq

/--
The handshakes, each a function of what it reads and its random bytes.  The
session a frame establishes wears the identifier in the frame's header.
-/
structure Noise where
  /-- What the initiator keeps, and its opening frame. -/
  writeInit : Mode → Option Bytes → BitVec 32 → (random zeroRtt : Bytes) →
      Except Error (Handshake × Bytes)
  readResponse : Handshake → Bytes → Except Error (Session × Bytes)
  /-- The session, the payload read and the response. -/
  respond :
    (key frame reply random : Bytes) → Except Error (Session × Bytes × Bytes)
  respondResumed :
    ResumptionTicket → (remoteStatic frame reply random : Bytes) →
      Except Error (Session × Bytes × Bytes)
  /-- The ticket a session issues for the next one. -/
  resumptionTicket : Session → ResumptionTicket
  readResponse_sessionId : ∀ {handshake frame link reply header},
      readResponse handshake frame = .ok (link, reply) →
      Header.decode frame = .ok header →
      link.sessionId = header.sessionId
  respond_sessionId : ∀ {key frame reply random link zeroRtt response header},
      respond key frame reply random = .ok (link, zeroRtt, response) →
      Header.decode frame = .ok header →
      link.sessionId = header.sessionId
  respondResumed_sessionId :
    ∀ {ticket remoteStatic frame reply random link zeroRtt response header},
      respondResumed ticket remoteStatic frame reply random =
        .ok (link, zeroRtt, response) →
      Header.decode frame = .ok header →
      link.sessionId = header.sessionId

/--
A datagram to send.  A socket reads `frame` and `addr`; the rest is for the
record: which handle it is for, where that is filed if it is, and when.
-/
structure Sending where
  frame : Bytes
  addr : SocketAddr
  peer : PeerId
  filed : Option SocketAddr
  sentMs : Nat
  deriving Repr, DecidableEq

/-- An order to walk a table in, whatever keys it has. -/
structure Walk where
  order : List PeerId → List PeerId
  perm : ∀ ids, (order ids).Perm ids

/-- What an endpoint runs on. -/
structure Env (ω : Type*) where
  suite : Suite
  noise : Noise
  sendTo : ω → Sending → Except SendFailure Unit × ω
  maxDatagram : Nat
  discovery : Bool
  walk : Walk

/-- Why a rendezvous would not introduce or relay. -/
inductive Unavailable where
  | notRegistered
  | refused
  | noRelay
  | notAsked
  | other (byte : UInt8)
  | unreachable
  deriving Repr, DecidableEq

namespace Unavailable

def fromByte (byte : UInt8) : Unavailable :=
  match byte with
  | 0 => .notRegistered
  | 1 => .refused
  | 2 => .noRelay
  | 3 => .notAsked
  | reason => .other reason

def toByte : Unavailable → UInt8
  | .notRegistered => 0
  | .refused => 1
  | .noRelay => 2
  | .notAsked => 3
  | .other byte => byte
  | .unreachable => 0xFF

end Unavailable

/-- Something that happened while polling. -/
inductive Event where
  | connected (peer : PeerId) (zeroRtt : Bytes) (resumed initiated : Bool)
  | message (peer : PeerId) (data : Bytes)
  | connectFailed (peer : PeerId)
  | sent (peer : PeerId) (delivered : Bool)
  | peerMoved (peer : PeerId) (previous current : SocketAddr)
  | peerLost (peer : PeerId)
  | peerDiscovered (peerPublic group : Bytes)
  | introductionFailed (peerPublic : Bytes) (reason : Unavailable)
  | idle
  deriving Repr, DecidableEq

/-- A handshake started here, waiting for its reply. -/
structure Outbound where
  handshake : Handshake
  peerKey : Option Bytes
  addr : SocketAddr
  sessionId : BitVec 32
  frame : Bytes
  nextAttempt : Nat
  attempts : Nat
  firstSent : Nat
  lastSent : Nat
  deriving Repr, DecidableEq

/-- What an endpoint has learned about reaching one address. -/
structure Path where
  rto : Option Rto
  /-- A floor on the first wait, left by a handshake that had to resend. -/
  floor : Option Nat
  deriving Repr, DecidableEq

/-- An address under test, and what has been spent testing it. -/
structure AddressProbe where
  addr : SocketAddr
  token : Bytes
  sent : Nat
  last : Nat
  started : Nat
  deriving Repr, DecidableEq

structure PeerEntry where
  peer : Peer
  addr : SocketAddr
  sessionId : BitVec 32
  datagramLimit : Nat
  /-- When this session was established, which orders eviction. -/
  filed : Nat
  /-- The handshake's response, and how often it may be sent again. -/
  handshakeReply : Option (Bytes × Nat)
  /-- Attempts left at an unknown address, a single float. -/
  migrationBudget : Int
  migrationRefilled : Nat
  lastHeard : Nat
  lastSent : Nat
  probe : Option AddressProbe
  pmtu : Option Pmtu
  /-- Whether anything authenticated has arrived since the handshake. -/
  spoke : Bool
  deriving Repr, DecidableEq

namespace PeerEntry

/-- Whether something authenticated just arrived from an address. -/
def claimed (entry : PeerEntry) (addr : SocketAddr) : Bool :=
  entry.addr == addr || entry.probe.any (·.addr == addr)

/-- When a probe of the path is next due, if one will be. -/
def pmtuDeadline (entry : PeerEntry) : Option Nat :=
  if entry.spoke then
    entry.pmtu.bind (·.nextDeadline entry.peer.retransmit.rtoMs)
  else
    none

end PeerEntry

/-- Serves many peers from one socket. -/
structure Endpoint (ω : Type*) where
  socket : ω
  mode : Mode
  tickets : TicketStore
  peers : Table PeerId PeerEntry
  /-- Sessions by address and identifier. -/
  routes : Table (SocketAddr × BitVec 32) PeerId
  /-- The same sessions by identifier alone. -/
  bySession : Table (BitVec 32) (List PeerId)
  outbound : Table PeerId Outbound
  /-- Completions produced outside `poll`, delivered by the next one. -/
  events : List Event
  /-- Handshakes left to answer, a single float. -/
  handshakeBudget : Int
  handshakeRefilled : Nat
  handshakeRate : Nat
  migrationRate : Nat
  /-- When the earliest time-driven work falls due. -/
  nextWake : Option Nat
  /-- Peers with a split message still being fed out. -/
  queueing : Nat
  maxPeers : Nat
  handshakeReply : Bytes
  keepalive : Option Nat
  handshakeAttempts : Nat
  paths : List (SocketAddr × Path)
  maxRetries : Nat
  peerTimeout : Option Nat
  nextId : PeerId
  /-- The datagram being worked on. -/
  rx : Bytes
  /-- The length of the buffers frames are written into. -/
  size : Nat

namespace Endpoint

variable {ω : Type*} (env : Env ω)

def new (mode : Mode) (socket : ω) : Endpoint ω where
  socket := socket
  mode := mode
  tickets := .new
  peers := ∅
  routes := ∅
  bySession := ∅
  outbound := ∅
  events := []
  handshakeBudget := FloatFormat.single.ofNat maxHandshakesPerSecond
  handshakeRefilled := 0
  handshakeRate := maxHandshakesPerSecond
  migrationRate := maxMigrationAttemptsPerPeer
  nextWake := none
  queueing := 0
  maxPeers := Fectp.maxPeers
  handshakeReply := []
  keepalive := none
  handshakeAttempts := Fectp.handshakeAttempts
  paths := []
  maxRetries := Fectp.maxRetries
  peerTimeout := none
  nextId := 0
  rx := []
  size := env.maxDatagram + initiatorOverhead

/-- Puts an entry in its place in the peer table. -/
def putEntry (endpoint : Endpoint ω) (peerId : PeerId) (entry : PeerEntry) :
    Endpoint ω :=
  { endpoint with peers := endpoint.peers.insert peerId entry }

/-! ### Waking -/

/-- The earliest moment any time-driven work falls due. -/
def earliestDeadline (endpoint : Endpoint ω) (nowMs : Nat) : Option Nat :=
  let peers := endpoint.peers.values
  let retransmit :=
    (peers.filterMap (·.peer.retransmit.nextDeadlineMs)).min?.map (max nowMs ·)
  let handshake := (endpoint.outbound.values.map Outbound.nextAttempt).min?
  let pmtu := (peers.filterMap PeerEntry.pmtuDeadline).min?
  let keepalive :=
    endpoint.keepalive.bind fun every =>
      (peers.map fun entry => max nowMs (entry.lastSent + every)).min?
  let liveness :=
    endpoint.peerTimeout.bind fun limit =>
      (peers.map fun entry => max nowMs (entry.lastHeard + limit)).min?
  ([retransmit, handshake, pmtu, keepalive, liveness].filterMap id).min?

/-- Recomputes the wake from scratch. -/
def rescanWake (endpoint : Endpoint ω) (nowMs : Nat) : Endpoint ω :=
  { endpoint with nextWake := endpoint.earliestDeadline nowMs }

/-- Notes that something falls due, bringing the wake forward if need be. -/
def wakeAt (endpoint : Endpoint ω) (at' : Nat) : Endpoint ω :=
  { endpoint with nextWake := some (endpoint.nextWake.elim at' (min at')) }

/-! ### Sending -/

/-- Sends one datagram; one that cannot arrive counts as sent. -/
def sendDatagram (socket : ω) (sending : Sending) :
    Except Error Unit × ω :=
  match env.sendTo socket sending with
  | (.ok (), socket) | (.error .staleUnreachable, socket)
  | (.error .tooLong, socket) =>
      (.ok (), socket)
  | (.error .other, socket) =>
      (.error .io, socket)

/-- A session's datagram to its address, stamping the time if it went. -/
def sendStamped
    (endpoint : Endpoint ω)
    (peerId : PeerId)
    (addr : SocketAddr)
    (nowMs : Nat)
    (world : ω × Nat)
    (frame : Bytes) :
    Except Error Unit × ω × Nat :=
  let filed := (endpoint.peers.lookup peerId).map PeerEntry.addr
  match sendDatagram env world.1 ⟨frame, addr, peerId, filed, nowMs⟩ with
  | (.ok (), socket) =>
      (.ok (), socket, nowMs)
  | (.error error, socket) =>
      (.error error, socket, world.2)

/-- The same, remembering whether a frame larger than the base was tried. -/
def sendWatched
    (endpoint : Endpoint ω)
    (peerId : PeerId)
    (addr : SocketAddr)
    (nowMs : Nat)
    (world : (ω × Nat) × Bool)
    (frame : Bytes) :
    Except Error Unit × (ω × Nat) × Bool :=
  let large := world.2 || frame.length > baseDatagram
  match sendStamped env endpoint peerId addr nowMs world.1 frame with
  | (result, sent) =>
      (result, sent, large)

/-- Sends a datagram to one peer and stamps the time if it went. -/
def sendToPeer
    (endpoint : Endpoint ω)
    (peerId : PeerId)
    (frame : Bytes)
    (addr : SocketAddr)
    (nowMs : Nat) :
    Except Error Unit × Endpoint ω :=
  let filed := (endpoint.peers.lookup peerId).map PeerEntry.addr
  match sendDatagram env endpoint.socket
      ⟨frame, addr, peerId, filed, nowMs⟩ with
  | (.error error, socket) =>
      (.error error, { endpoint with socket := socket })
  | (.ok (), socket) =>
      (.ok (),
        { endpoint with
          socket := socket
          peers :=
            endpoint.peers.update peerId fun entry =>
              { entry with lastSent := nowMs } })

/-! ### Filing sessions -/

/-- Drops one session from the identifier index. -/
def unfileSession
    (endpoint : Endpoint ω)
    (sessionId : BitVec 32)
    (peerId : PeerId) :
    Endpoint ω :=
  match endpoint.bySession.lookup sessionId with
  | none =>
      endpoint
  | some sharing =>
      let sharing := sharing.filter (· != peerId)
      { endpoint with
        bySession :=
          if sharing.isEmpty then
            endpoint.bySession.erase sessionId
          else
            endpoint.bySession.insert sessionId sharing }

/-- Removes a peer with its route and its place in the index. -/
def removePeer (endpoint : Endpoint ω) (peerId : PeerId) (entry : PeerEntry) :
    Endpoint ω :=
  let endpoint :=
    { endpoint with
      peers := endpoint.peers.erase peerId
      routes := endpoint.routes.erase (entry.addr, entry.sessionId) }
  endpoint.unfileSession entry.sessionId peerId

/-- Whether the first of two entries is the one to drop before the other. -/
def evictedBefore (first second : PeerEntry) : Bool :=
  if first.spoke = second.spoke then first.filed < second.filed
  else !first.spoke

/-- The peer to drop, which is the first least one in the order of the walk. -/
def victim (endpoint : Endpoint ω) : Option (PeerId × PeerEntry) :=
  let held :=
    (env.walk.order endpoint.peers.keys).filterMap fun id =>
      (endpoint.peers.lookup id).map (id, ·)
  held.foldl
    (fun least candidate =>
      match least with
      | none =>
          some candidate
      | some least =>
          some (if evictedBefore candidate.2 least.2 then candidate else least))
    none

/-- Makes room for one more session, if there is none. -/
def makeRoom (endpoint : Endpoint ω) : Endpoint ω :=
  if endpoint.peers.keys.length < endpoint.maxPeers then
    endpoint
  else
    match victim env endpoint with
    | none =>
        endpoint
    | some (peerId, entry) =>
        endpoint.removePeer peerId entry

/-- Takes over a route another session had. -/
def displace
    (endpoint : Endpoint ω)
    (addr : SocketAddr)
    (sessionId : BitVec 32)
    (peerId : PeerId) :
    Option PeerId × Endpoint ω :=
  (endpoint.routes.lookup (addr, sessionId),
    { endpoint with
      routes := endpoint.routes.insert (addr, sessionId) peerId })

/-- The entry a fresh session is filed with. -/
def newEntry
    (endpoint : Endpoint ω)
    (link : Session)
    (addr : SocketAddr)
    (nowMs : Nat) :
    PeerEntry :=
  let cap := min link.peerCaps.maxFrameSize env.maxDatagram
  let pmtu :=
    if env.discovery ∧ link.peerCaps.supportsPmtuProbe ∧
        cap > baseDatagram then
      some (Pmtu.new cap nowMs)
    else
      none
  let peer := Peer.new link
  { peer :=
      { peer with
        retransmit := peer.retransmit.setMaxRetries endpoint.maxRetries }
    addr := addr
    sessionId := link.sessionId
    datagramLimit := pmtu.elim cap Pmtu.current
    filed := nowMs
    handshakeReply := none
    migrationBudget :=
      FloatFormat.single.ofNat maxMigrationAttemptsPerPeer
    migrationRefilled := nowMs
    lastHeard := nowMs
    lastSent := nowMs
    probe := none
    pmtu := pmtu
    spoke := false }

/-- Files a session, making room and displacing what is in its place. -/
def file
    (endpoint : Endpoint ω)
    (peerId : PeerId)
    (link : Session)
    (addr : SocketAddr)
    (nowMs : Nat) :
    Endpoint ω :=
  let entry := newEntry env endpoint link addr nowMs
  let (previous, endpoint) :=
    (makeRoom env endpoint).displace addr link.sessionId peerId
  let endpoint :=
    match previous with
    | none =>
        endpoint
    | some previous =>
        unfileSession
          { endpoint with peers := endpoint.peers.erase previous }
          link.sessionId previous
  let endpoint :=
    { endpoint with
      bySession :=
        endpoint.bySession.insert link.sessionId
          ((endpoint.bySession.lookup link.sessionId).getD [] ++ [peerId])
      peers := endpoint.peers.insert peerId entry }
  endpoint.rescanWake nowMs

end Endpoint

end Fectp
