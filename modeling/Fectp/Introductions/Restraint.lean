import Fectp.Execution
import Fectp.Endpoint.Forgery
import Fectp.Introductions.Steps

namespace Fectp

/-!
# A rendezvous cannot aim its clients

A rendezvous says where a client is to send, and may lie.  Whatever it says and
whatever arrives, what a client does for one call is bounded by the stages its
request goes through, and without a request nothing is done.  A relayed session
has its port proved to from time to time; nothing ends that but the session's
being reported lost or disconnected.
-/

open Relation (ReflTransGen)

namespace ClientEndpoint

variable {ω : Type*} {Free : Stage → Table PeerId Outbound → Prop} {Linked : PeerId → Prop}
  {env : ClientEnv ω} {before after : ClientEndpoint ω}

/-- A client after a run. -/
def serving
    (env : ClientEnv ω)
    (mode : Mode)
    (socket : ω)
    (moments : List Moment) :
    ClientEndpoint ω :=
  Execution.run (next env) (new (Endpoint.new env.toEnv mode socket)) moments

/-- Every step, whatever stages it gives up. -/
theorem takes_of_linked {client : ClientEndpoint ω} {moment : Moment}
    (linked : moment.action.reaches = true → ∀ peer ∈ client.relayed.keys, Linked peer) :
    Takes (fun _ _ => True) Linked env client moment (step env client moment) := by
  refine next_takes ?_ linked ?_
  · exact fun _ _ _ _ _ => trivial
  · exact fun _ _ _ => ⟨fun _ _ _ _ => trivial, fun _ _ _ _ _ _ => trivial⟩

/-- Where something may be sent for a link, every link has its session. -/
def linked (client : ClientEndpoint ω) (moment : Moment) : Bool :=
  !moment.action.reaches ||
    client.relayed.keys.all fun peer =>
      (client.driver.endpoint.peers.lookup peer).isSome

def smallClientEnv : ClientEnv Unit :=
  { Endpoint.smallEnv with
    publicOf := id
    hash := fun _ => [] }

def smallKey (byte : UInt8) : Key :=
  List.replicate keyLen byte

def smallClientMoment (nowMs : Nat) (action : Action) : Moment where
  nowMs := nowMs
  walk := ⟨id, .refl⟩
  keys := ⟨id, .refl⟩
  tags := ⟨id, .refl⟩
  sessionId := 5
  random := [7]
  pad := fun _ => []
  resent := []
  action := action

/-- One round of `poll`, which reads one datagram. -/
def smallRound (nowMs : Nat) (addr : SocketAddr) (bytes : Bytes) :
    List Moment :=
  [smallClientMoment nowMs .turn,
    smallClientMoment nowMs (.pass (.timers (fun _ => []) fun _ => [])),
    smallClientMoment nowMs (.pass .queues),
    smallClientMoment nowMs
      (.pass (.receive (.datagram bytes addr [])))]

/-- The frames in which the rendezvous says so many things. -/
def smallControls (session : Session) : List Control → List Bytes
  | [] =>
      []
  | control :: rest =>
      let (frame, session) :=
        session.sealData smallClientEnv.suite.aead control.encode 0 100
      frame.toOption.getD [] :: smallControls session rest

/--
A client with one setting changed registers, asks for a key, and polls while
the rendezvous says so many things about it.
-/
def smallIntroduction (setting : Endpoint.Setting) (controls : List Control) :
    List Moment :=
  [smallClientMoment 0 (.call (.set setting)),
    smallClientMoment 0 (.connectRendezvous (Endpoint.host 1) (smallKey 9)),
    smallClientMoment 0 (.introduce (smallKey 2)),
    smallClientMoment 0 (.poll none)] ++
    smallRound 0 (Endpoint.host 1)
      (Endpoint.smallOpening .handshakeResponse 5 [7]) ++
    [smallClientMoment 0 (.poll none)] ++
    (smallControls (Endpoint.smallLink 5 [7]).bob controls).flatMap
      (smallRound 0 (Endpoint.host 1))

/--
The key is to be reached through a relay, and opens a session from its port;
there is room for two sessions.
-/
def smallRelay : List Moment :=
  smallIntroduction (.maxPeers 2)
      [.introduction (smallKey 2) (Endpoint.host 2),
        .relayOffer (smallKey 2) (Endpoint.host 8)
          (List.replicate Relay.secretLen 1)] ++
    smallRound 0 (Endpoint.host 8)
      (Endpoint.smallOpening .handshakeInit 6 (smallKey 2)) ++
    [smallClientMoment 0 (.poll none)]

end ClientEndpoint

end Fectp
