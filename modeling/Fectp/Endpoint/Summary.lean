import Mathlib.Logic.Function.Basic
import Mathlib.Logic.Relation
import Fectp.Endpoint.Frames
import Fectp.Wakeup

namespace Fectp

/-!
# An endpoint in outline

What its sessions wait for, when its opening frames are resent, and what is set
for all of them: everything the moments at which there is work depend on.
-/

/-- What of a session its own work depends on. -/
structure Standing where
  outbox : Outbox
  lastHeard : Nat
  lastSent : Nat
  pmtu : Option Pmtu
  spoke : Bool

/-- Where a session stands. -/
def PeerEntry.standing (entry : PeerEntry) : Standing where
  outbox := entry.peer.toOutbox
  lastHeard := entry.lastHeard
  lastSent := entry.lastSent
  pmtu := entry.pmtu
  spoke := entry.spoke

/-- An endpoint in outline. -/
structure Summary where
  peers : PeerId → Option Standing
  /-- When each opening frame is next sent again. -/
  outbound : PeerId → Option Nat
  keepalive : Option Nat
  peerTimeout : Option Nat

namespace Endpoint

variable {ω : Type*}

/-- The outline of an endpoint. -/
def summary (endpoint : Endpoint ω) : Summary where
  peers := fun id => (endpoint.peers.lookup id).map PeerEntry.standing
  outbound := fun id =>
    (endpoint.outbound.lookup id).map Outbound.nextAttempt
  keepalive := endpoint.keepalive
  peerTimeout := endpoint.peerTimeout

theorem summary_peers {endpoint : Endpoint ω} {id : PeerId} {entry : PeerEntry}
    (found : endpoint.peers.lookup id = some entry) :
    endpoint.summary.peers id = some entry.standing := by
  simp [summary, found]

end Endpoint

/-! ### When there is work -/

/-- When a probe of the path is next due, if one will be. -/
def Standing.pmtuDeadline (standing : Standing) : Option Nat :=
  if standing.spoke then
    standing.pmtu.bind (·.nextDeadline standing.outbox.retransmit.rtoMs)
  else
    none

/-- The moments at which there is work, as they look from `nowMs`. -/
inductive Summary.Due (summary : Summary) (nowMs : Nat) : Nat → Prop where
  | retransmit {id : PeerId} {standing : Standing} {moment : Nat} :
      summary.peers id = some standing →
      standing.outbox.retransmit.nextDeadlineMs = some moment →
      Due summary nowMs (max nowMs moment)
  | handshake {id : PeerId} {moment : Nat} :
      summary.outbound id = some moment →
      Due summary nowMs moment
  | pmtu {id : PeerId} {standing : Standing} {moment : Nat} :
      summary.peers id = some standing →
      standing.pmtuDeadline = some moment →
      Due summary nowMs moment
  | keepalive {id : PeerId} {standing : Standing} {every : Nat} :
      summary.peers id = some standing →
      summary.keepalive = some every →
      Due summary nowMs (max nowMs (standing.lastSent + every))
  | liveness {id : PeerId} {standing : Standing} {limit : Nat} :
      summary.peers id = some standing →
      summary.peerTimeout = some limit →
      Due summary nowMs (max nowMs (standing.lastHeard + limit))

namespace Endpoint

variable {ω : Type*}

variable {endpoint : Endpoint ω}

theorem mem_values_of_summary
    {id : PeerId} {standing : Standing} (found : endpoint.summary.peers id = some standing) :
    ∃ entry ∈ endpoint.peers.values, entry.standing = standing := by
  obtain ⟨entry, isEntry, isStanding⟩ := Option.map_eq_some_iff.mp found
  exact ⟨entry, Table.mem_values.mpr ⟨id, isEntry⟩, isStanding⟩

theorem summary_of_mem_values {entry : PeerEntry} (member : entry ∈ endpoint.peers.values) :
    ∃ id, endpoint.summary.peers id = some entry.standing := by
  obtain ⟨id, found⟩ := Table.mem_values.mp member
  exact ⟨id, summary_peers found⟩

/-- The earliest deadline is one of the moments there is work at. -/
theorem due_of_earliestDeadline
    {nowMs moment : Nat} (isEarliest : endpoint.earliestDeadline nowMs = some moment) :
    endpoint.summary.Due nowMs moment := by
  have member := (List.min?_eq_some_iff.mp isEarliest).1
  simp only [List.mem_filterMap, id_eq, exists_eq_right, List.mem_cons,
    List.not_mem_nil, or_false] at member
  rcases member with retransmit | handshake | pmtu | keepalive | liveness
  · obtain ⟨earliest, isMin, rfl⟩ :=
      Option.map_eq_some_iff.mp retransmit.symm
    obtain ⟨entry, inTable, isNext⟩ := List.mem_filterMap.mp (List.min?_eq_some_iff.mp isMin).1
    obtain ⟨id, found⟩ := summary_of_mem_values inTable
    exact .retransmit found isNext
  · obtain ⟨outbound, inTable, rfl⟩ :=
      List.mem_map.mp (List.min?_eq_some_iff.mp handshake.symm).1
    obtain ⟨id, found⟩ := Table.mem_values.mp inTable
    refine @Summary.Due.handshake _ _ id _ ?_
    simp [summary, found]
  · obtain ⟨entry, inTable, isNext⟩ :=
      List.mem_filterMap.mp (List.min?_eq_some_iff.mp pmtu.symm).1
    obtain ⟨id, found⟩ := summary_of_mem_values inTable
    exact .pmtu found isNext
  · obtain ⟨every, setting, isMin⟩ :=
      Option.bind_eq_some_iff.mp keepalive.symm
    obtain ⟨entry, inTable, rfl⟩ := List.mem_map.mp (List.min?_eq_some_iff.mp isMin).1
    obtain ⟨id, found⟩ := summary_of_mem_values inTable
    exact .keepalive found setting
  · obtain ⟨limit, setting, isMin⟩ :=
      Option.bind_eq_some_iff.mp liveness.symm
    obtain ⟨entry, inTable, rfl⟩ := List.mem_map.mp (List.min?_eq_some_iff.mp isMin).1
    obtain ⟨id, found⟩ := summary_of_mem_values inTable
    exact .liveness found setting

/-- The earliest deadline is in time for every moment there is work at. -/
theorem earliestDeadline_inTime {nowMs moment : Nat} (due : endpoint.summary.Due nowMs moment) :
    InTime (endpoint.earliestDeadline nowMs) moment := by
  unfold earliestDeadline
  cases due with
  | @retransmit id standing next found isNext =>
    obtain ⟨entry, member, rfl⟩ := mem_values_of_summary found
    have isOne : next ∈ endpoint.peers.values.filterMap (·.peer.retransmit.nextDeadlineMs) :=
      List.mem_filterMap.mpr ⟨entry, member, isNext⟩
    obtain ⟨earliest, isMin, le⟩ := InTime.min? isOne
    refine InTime.filterMap (List.mem_cons_self ..) ?_
    exact ⟨max nowMs earliest, by simp [isMin], by omega⟩
  | @handshake id next found =>
    obtain ⟨outbound, isOutbound, rfl⟩ := Option.map_eq_some_iff.mp found
    have member := Table.mem_values.mpr ⟨id, isOutbound⟩
    exact InTime.filterMap (by simp) (InTime.min? (List.mem_map.mpr ⟨outbound, member, rfl⟩))
  | @pmtu id standing next found isNext =>
    obtain ⟨entry, member, rfl⟩ := mem_values_of_summary found
    have isOne : moment ∈ endpoint.peers.values.filterMap PeerEntry.pmtuDeadline :=
      List.mem_filterMap.mpr ⟨entry, member, isNext⟩
    exact InTime.filterMap (by simp) (InTime.min? isOne)
  | @keepalive id standing every found setting =>
    obtain ⟨entry, member, rfl⟩ := mem_values_of_summary found
    have isSet : endpoint.keepalive = some every := setting
    rw [isSet]
    have isOne : max nowMs (entry.lastSent + every) ∈ endpoint.peers.values.map fun entry =>
            max nowMs (entry.lastSent + every) :=
      List.mem_map.mpr ⟨entry, member, rfl⟩
    exact InTime.filterMap (by simp) (InTime.min? isOne)
  | @liveness id standing limit found setting =>
    obtain ⟨entry, member, rfl⟩ := mem_values_of_summary found
    have isSet : endpoint.peerTimeout = some limit := setting
    rw [isSet]
    have isOne : max nowMs (entry.lastHeard + limit) ∈ endpoint.peers.values.map fun entry =>
            max nowMs (entry.lastHeard + limit) :=
      List.mem_map.mpr ⟨entry, member, rfl⟩
    exact InTime.filterMap (by simp) (InTime.min? isOne)

end Endpoint

end Fectp
