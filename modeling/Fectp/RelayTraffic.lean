import Fectp.RelayParty
import Fectp.TokenBucket

namespace Fectp

/-!
# What a relay sends

To an address it has not recorded a relay sends nothing but checks, and those
are no longer than the datagrams that drew them.
-/

namespace Relay

open Execution (Admits total)

/-- Where a datagram is sent. -/
def Sent.addr : Sent → SocketAddr
  | .check addr _ | .forward addr _ =>
      addr

namespace Port

variable {hashing : Hashing} {port : Port} {nowNs : Nat} {addr : SocketAddr}

theorem check_length :
    ∀ nonce ∈ (port.check hashing nowNs addr).2, nonce.length ≤ secretLen := by
  intro nonce drawn
  unfold check at drawn
  dsimp only at drawn
  split at drawn
  · cases drawn
  · cases drawn
    exact List.length_take_le ..

/-- A check is no longer than the datagram that draws it. -/
theorem converse_length (tokenLength : port.token.length = secretLen) (datagram : Bytes) :
    ∀ nonce ∈ (port.converse hashing nowNs addr datagram).2,
      nonce.length + 2 ≤ datagram.length := by
  intro nonce drawn
  unfold converse at drawn
  split at drawn
  · next first kind rest =>
      have isLength : secretLen ≤ rest.length → nonce.length ≤ secretLen →
          nonce.length + 2 ≤ (first :: kind :: rest).length := by
        intro _ _
        rw [List.length_cons, List.length_cons]
        omega
      split at drawn
      · next isHello =>
          split at drawn
          · exact isLength isHello.2.ge (check_length nonce drawn)
          · cases drawn
      split at drawn
      · dsimp only at drawn
        split at drawn
        · cases drawn
        · cases drawn
      split at drawn
      · next isBind =>
          have isToken := (same_iff _ _).mp isBind.2.2
          rw [← isToken] at tokenLength
          exact isLength tokenLength.ge (check_length nonce drawn)
      split at drawn
      · cases drawn
      · cases drawn
  · cases drawn

theorem converse_token (datagram : Bytes) :
    (port.converse hashing nowNs addr datagram).1.token = port.token := by
  have converses := port.converse_cases hashing nowNs addr datagram
  generalize port.converse hashing nowNs addr datagram = result at converses
  cases converses with
  | greeted => exact (check_fst ..).1
  | bound => exact (check_fst ..).1
  | _ => rfl

end Port

namespace Allocation

variable (hashing : Hashing)

/-- The allocation after one datagram. -/
def serve (allocation : Allocation) (arrival : Arrival) : Allocation :=
  (allocation.servePort hashing arrival).1

/-- How many bytes a datagram draws to an address. -/
def sentTo (addr : SocketAddr) (allocation : Allocation) (arrival : Arrival) :
    Nat :=
  match (allocation.servePort hashing arrival).2 with
  | some sent =>
      if sent.addr = addr then sent.bytes.length else 0
  | none =>
      0

/-- How many bytes of a datagram came from an address. -/
def receivedFrom (addr : SocketAddr) (_ : Allocation) (arrival : Arrival) :
    Nat :=
  if arrival.addr = addr then arrival.datagram.length else 0

variable {hashing}

/-! ### Amplification -/

theorem serve_tokens (allocation : Allocation) (arrival : Arrival) (side : Side) :
    ((allocation.serve hashing arrival).ports side).token = (allocation.ports side).token := by
  unfold serve servePort
  split
  · dsimp only
    by_cases isSide : side = arrival.side
    · subst isSide
      rw [Function.update_self]
      exact Port.converse_token _
    · rw [Function.update_of_ne isSide]
  · rw [(allocation.forward_cases arrival).1]

/-- What is forwarded goes to a recorded address. -/
theorem forward_recorded {allocation : Allocation} {arrival : Arrival} {sent : Sent}
    (isSent : (allocation.forward arrival).2 = some sent) :
    ∃ side, (allocation.ports side).party = some sent.addr := by
  rw [forward] at isSent
  by_cases isParty : (allocation.ports arrival.side).party = some arrival.addr
  · rw [if_neg (not_not.mpr isParty)] at isSent
    rcases isOther : (allocation.ports arrival.side.other).party with _ | addr
    · rw [isOther] at isSent
      cases isSent
    rw [isOther] at isSent
    generalize allocation.spend arrival.nowNs arrival.datagram.length = spent at isSent
    rcases spent with ⟨after, _ | _⟩
    · cases isSent
    · cases isSent
      exact ⟨_, isOther⟩
  · rw [if_pos isParty] at isSent
    cases isSent

theorem sentTo_le_receivedFrom {allocation : Allocation} {addr : SocketAddr}
    (tokens : ∀ side, (allocation.ports side).token.length = secretLen)
    (unrecorded : ∀ side, (allocation.ports side).party ≠ some addr) (arrival : Arrival) :
    allocation.sentTo hashing addr arrival ≤ allocation.receivedFrom addr arrival := by
  unfold sentTo
  split
  · next sent isSent =>
      split
      · next isAddr =>
          unfold servePort at isSent
          split at isSent
          · obtain ⟨nonce, drawn, rfl⟩ := Option.map_eq_some_iff.mp isSent
            have short := Port.converse_length (tokens _) _ nonce drawn
            change arrival.addr = addr at isAddr
            rw [receivedFrom, if_pos isAddr]
            exact short
          · obtain ⟨side, isParty⟩ := forward_recorded isSent
            rw [isAddr] at isParty
            exact absurd isParty (unrecorded side)
      · exact Nat.zero_le _
  · exact Nat.zero_le _

/--
As long as an address is recorded at neither port, a relay sends it no more
bytes than came from it.
-/
theorem never_amplifies
    (hashing : Hashing) (tokens secrets : Side → Bytes)
    (tokenLength : ∀ side, (tokens side).length = secretLen) {addr : SocketAddr}
    {arrivals : List Arrival}
    (unrecorded : Admits (serve hashing)
        (fun allocation _ =>
          ∀ side, (allocation.ports side).party ≠ some addr)
        (opened tokens secrets) arrivals) :
    total (serve hashing) (sentTo hashing addr) (opened tokens secrets)
        arrivals ≤
      total (serve hashing) (receivedFrom addr) (opened tokens secrets)
        arrivals := by
  refine Execution.total_le_total ?_
  refine
    @Execution.admits_of_invariant _ _ _ _ _
      (fun allocation => ∀ side, (allocation.ports side).token.length = secretLen)
      ?_ ?_ _ _ unrecorded tokenLength
  · intro allocation arrival _ lengths side
    rw [serve_tokens]
    exact lengths side
  · intro allocation arrival unrecorded lengths
    exact sentTo_le_receivedFrom lengths unrecorded arrival

/-- A hello, and the check it draws. -/
theorem never_amplifies_a_hello :
    let hello := smallArrival 0 9 helloByte (List.replicate secretLen 0)
    let relay := opened smallToken smallSecret
    total (serve smallHashing) (sentTo smallHashing ⟨9, 1⟩) relay [hello] =
        18 ∧
      total (serve smallHashing) (sentTo smallHashing ⟨9, 1⟩) relay [hello] ≤
        total (serve smallHashing) (receivedFrom ⟨9, 1⟩) relay [hello] :=
  ⟨by decide +kernel,
    never_amplifies smallHashing smallToken smallSecret
      (fun _ => List.length_replicate)
      ⟨fun _ recorded => (nomatch recorded), trivial⟩⟩

end Allocation

end Relay

end Fectp
