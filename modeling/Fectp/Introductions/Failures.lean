import Fectp.Introductions.Handles

namespace Fectp

/-!
# Failures reported to the caller

In a run in which nothing takes an introduction from its handshake, every
failed handshake `poll` reports is one the caller began.
-/

namespace ClientEndpoint

variable {ω : Type*}

/-- A client, and the handles its caller has been given. -/
structure Used (ω : Type*) where
  client : ClientEndpoint ω
  given : List PeerId

namespace Used

def new (env : ClientEnv ω) (mode : Mode) (socket : ω) : Used ω where
  client := .new (Endpoint.new env.toEnv mode socket)
  given := []

/-- One step, with the handle it hands back noted. -/
def next (env : ClientEnv ω) (used : Used ω) (moment : Moment) : Used ω :=
  let (reply, client) := step env used.client moment
  ⟨client, noted used.given reply⟩

/-- A failure the step reports is of a handshake the caller began. -/
def Answers (env : ClientEnv ω) (used : Used ω) (moment : Moment) : Prop :=
  ∀ peer,
    (step env used.client moment).1 =
      some (.endpoint (.polled (.ok (.connectFailed peer)))) →
    peer ∈ used.given

theorem accounted_new (env : ClientEnv ω) (mode : Mode) (socket : ω) :
    (new env mode socket).client.Accounted (new env mode socket).given where
  owned := nofun
  fresh := nofun
  issued := nofun
  keyed := nofun
  unproved := nofun
  rendezvous := nofun
  quiet := nofun

end Used

/--
In every run whose steps all leave introductions to their handshakes, every
failure that `poll` reports names a handle that a call had handed back.
-/
theorem failures_are_the_callers
    (env : ClientEnv ω)
    (mode : Mode)
    (socket : ω)
    (moments : List Moment)
    (calm :
      Execution.Admits (Used.next env)
        (fun used moment => undisturbed env used.client moment = true)
        (.new env mode socket) moments) :
    Execution.Admits (Used.next env) (Used.Answers env)
      (.new env mode socket) moments := by
  refine @Execution.admits_of_invariant _ _ (Used.next env)
    (fun used moment => undisturbed env used.client moment = true)
    (Used.Answers env) (fun used => used.client.Accounted used.given)
    ?_ ?_ _ _ calm (Used.accounted_new env mode socket)
  · intro used moment undisturbed accounted
    exact (accounted.step undisturbed).accounted
  · intro used moment undisturbed accounted peer fails
    exact (accounted.step undisturbed).reported fails

/-! ### An introduction withdrawn -/

/-- The rendezvous says where the key is, and nobody answers there. -/
def smallPatience : List Moment :=
  smallIntroduction (.handshakeAttempts 1)
      [.introduction (smallKey 2) (Endpoint.host 2)] ++
    [smallClientMoment 60000 .turn,
      smallClientMoment 60000 (.pass (.timers (fun _ => []) fun _ => []))]

theorem failures_are_the_callers_of_small_patience :
    let used :=
      Execution.run (Used.next smallClientEnv)
        (.new smallClientEnv (.publicKey (smallKey 1)) ()) smallPatience
    used.client.asks.lookup (smallKey 2) =
        some ⟨0, .introduced (some 1) true⟩ ∧
      Execution.Admits (Used.next smallClientEnv)
        (Used.Answers smallClientEnv)
        (.new smallClientEnv (.publicKey (smallKey 1)) ()) smallPatience :=
  ⟨by decide +kernel,
    failures_are_the_callers smallClientEnv (.publicKey (smallKey 1)) ()
      smallPatience (by decide +kernel)⟩

/-- The rendezvous says where the key is, and then that it is not there. -/
def smallWithdrawal : List Moment :=
  smallIntroduction (.handshakeAttempts 1)
      [.introduction (smallKey 2) (Endpoint.host 2),
        .unavailable (smallKey 2) 1] ++
    [smallClientMoment 0 .turn,
      smallClientMoment 0 (.poll none),
      smallClientMoment 60000 .turn]

/-- What was begun for the introduction is reported as the caller's. -/
theorem withdrawn_introduction_fails_openly :
    let used :=
      Execution.run (Used.next smallClientEnv)
        (.new smallClientEnv (.publicKey (smallKey 1)) ()) smallWithdrawal
    (step smallClientEnv used.client
        (smallClientMoment 60000
          (.pass (.timers (fun _ => []) fun _ => [])))).1 =
        some (.endpoint (.polled (.ok (.connectFailed 1)))) ∧
      used.given = [0] := by
  decide +kernel

end ClientEndpoint

end Fectp
