import Mathlib.Algebra.Group.Nat.Defs
import Mathlib.Data.Nat.Basic

namespace Fectp

/-!
# Errors and saturating counters

The two error enumerations of the workspace: the core's, which carries no
payload, and the front end's, which wraps it.
-/

/-- Everything that can go wrong in the protocol core. -/
inductive CoreError where
  | bufferTooSmall
  | messageTooShort
  | decrypt
  | nonceExhausted
  | sequenceTooFarAhead
  | handshakeState
  | unsupportedVersion
  | badHeader
  | replay
  | notReady
  | payloadTooLarge
  | windowFull
  | keyUnavailable
  deriving Repr, DecidableEq

/-- Everything the front end reports to its caller. -/
inductive Error where
  | closed
  | io
  | protocol (error : CoreError)
  | decompress
  | payloadTooLarge (len limit : Nat)
  | handshake
  | unacknowledged (count : Nat)
  | reliabilityUnsupported
  | unknownTicket
  | unknownPeer
  | missingPeerKey
  | noRendezvous
  | groupSecretTooShort
  deriving Repr, DecidableEq

/-- The largest value of an unsigned integer of `bits` bits. -/
def maxValue (bits : Nat) : Nat :=
  2 ^ bits - 1

/-- Addition that stops at the largest value of the type. -/
def saturatingAdd (bits first second : Nat) : Nat :=
  min (first + second) (maxValue bits)

/-- Multiplication that stops at the largest value of the type. -/
def saturatingMul (bits first second : Nat) : Nat :=
  min (first * second) (maxValue bits)

/-- Forcing a value into a closed range. -/
def clamp (value low high : Nat) : Nat :=
  min (max value low) high

end Fectp
