import Mathlib.Logic.Relation
import Fectp.Introductions.State

namespace Fectp

/-!
# The course of one introduction

Seen from one key, a client is a stage, if the key is asked for, and what was
done about the key so far.  The stages follow one another in one direction, and
each allows so much to be sent and no more.
-/

namespace Act

def told? : Act → Option SocketAddr
  | .told addr => some addr
  | _ => none

def offered? : Act → Option SocketAddr
  | .offered port => some port
  | _ => none

def begun? : Act → Option SocketAddr
  | .begins addr => some addr
  | _ => none

/-- Where a punch is sent. -/
def punched? : Act → Option SocketAddr
  | .sends (_ :: kind :: _) addr => if kind = punchByte then some addr else none
  | _ => none

/-- Where a hello is sent, or a bind. -/
def bound? : Act → Option SocketAddr
  | .sends (_ :: kind :: _) addr =>
      if kind = Relay.helloByte ∨ kind = Relay.bindByte then some addr else none
  | _ => none

/-- Where anything is sent. -/
def sent? : Act → Option SocketAddr
  | .sends _ addr | .begins addr => some addr
  | _ => none

/-- What binds does not punch. -/
theorem punched?_of_bound? {act : Act} {addr : SocketAddr} (isBound : act.bound? = some addr) :
    act.punched? = none := by
  unfold bound? at isBound
  split at isBound
  · split at isBound
    · next isKind => rcases isKind with rfl | rfl <;> rfl
    · cases isBound
  · cases isBound

end Act

namespace Course

/--
What can happen to a key that is asked for, other than another call: its stage
after, what is done, and whether a handshake is begun, which gets the handle.
A stage that is not free to be given up is left only for one of its own.
-/
inductive Move (Free : Stage → Prop) (handle : PeerId) :
    Stage → Option Stage → List Act → Bool → Prop where
  | dropped {stage : Stage} :
      Free stage →
      Move Free handle stage none [] false
  /-- An address is named: it is punched, and one side connects to it. -/
  | connects (addr : SocketAddr) :
      Move Free handle .asked (some (.introduced (some handle) false))
        [.told addr, .sends [notAFrame, punchByte] addr, .begins addr] true
  | awaits (addr : SocketAddr) :
      Move Free handle .asked (some (.introduced none false))
        [.told addr, .sends [notAFrame, punchByte] addr] false
  | unreached (addr : SocketAddr) :
      Move Free handle .asked none
        [.told addr, .sends [notAFrame, punchByte] addr, .begins addr] false
  | relayAsked {outbound : Option PeerId} :
      Move Free handle (.introduced outbound false)
        (some (.introduced outbound true)) [] false
  | offered {port : SocketAddr} {token : Bytes} {outbound : Option PeerId}
      {relayAsked : Bool} {nextBind : Nat} :
      Free (.introduced outbound relayAsked) →
      Move Free handle (.introduced outbound relayAsked)
        (some (.relaying port token false false 0 nextBind none))
        [.offered port] false
  | binds {port : SocketAddr} {token bytes : Bytes} {checked legacy : Bool}
      {binds nextBind later : Nat} {outbound : Option PeerId} :
      binds < maxBinds →
      (Act.sends bytes port).bound? = some port →
      Move Free handle
        (.relaying port token checked legacy binds nextBind outbound)
        (some (.relaying port token checked legacy (binds + 1) later outbound))
        [.sends bytes port] false
  /-- The port may be of an older kind. -/
  | fallsBack {port : SocketAddr} {token : Bytes} {nextBind later : Nat}
      {outbound : Option PeerId} :
      Move Free handle
        (.relaying port token false false maxBinds nextBind outbound)
        (some (.relaying port token false true 0 later outbound)) [] false
  | exhausted {port : SocketAddr} {token : Bytes} {legacy : Bool}
      {nextBind : Nat} {outbound : Option PeerId} :
      Move Free handle
        (.relaying port token true legacy maxBinds nextBind outbound)
        (some
          (.relaying port token true legacy (maxBinds + 1) nextBind outbound))
        [] false
  | givenUp {port : SocketAddr} {token : Bytes} {legacy : Bool}
      {binds nextBind : Nat} {outbound : Option PeerId} :
      Move Free handle
        (.relaying port token false legacy binds nextBind outbound) none []
        false
  /-- The port checks the address; the first time, one side connects. -/
  | answers {port : SocketAddr} {token bytes : Bytes} {checked legacy : Bool}
      {binds nextBind : Nat} {outbound : Option PeerId} :
      (Act.sends bytes port).bound? = none →
      (Act.sends bytes port).punched? = none →
      Move Free handle
        (.relaying port token checked legacy binds nextBind outbound)
        (some (.relaying port token true legacy binds nextBind outbound))
        [.sends bytes port] false
  | relays {port : SocketAddr} {token bytes : Bytes} {legacy : Bool}
      {binds nextBind : Nat} {outbound : Option PeerId} :
      (Act.sends bytes port).bound? = none →
      (Act.sends bytes port).punched? = none →
      Move Free handle
        (.relaying port token false legacy binds nextBind outbound)
        (some (.relaying port token true legacy binds nextBind (some handle)))
        [.sends bytes port, .begins port] true
  | unrelayed {port : SocketAddr} {token bytes : Bytes} {legacy : Bool}
      {binds nextBind : Nat} {outbound : Option PeerId} :
      (Act.sends bytes port).bound? = none →
      (Act.sends bytes port).punched? = none →
      Move Free handle
        (.relaying port token false legacy binds nextBind outbound) none
        [.sends bytes port, .begins port] false

/-! ### What was done since the last call -/

/-- What came after the last call. -/
def sinceCall (acts : List Act) : List Act :=
  acts.foldl
    (fun recent act => if act = .called then [] else recent ++ [act])
    []

theorem sinceCall_append (acts : List Act) {more : List Act} (uncalled : .called ∉ more) :
    sinceCall (acts ++ more) = sinceCall acts ++ more := by
  induction more using List.reverseRecOn with
  | nil => rw [List.append_nil, List.append_nil]
  | append_singleton rest act inductionHypothesis =>
    rw [List.mem_append, not_or, List.mem_singleton] at uncalled
    have before := inductionHypothesis uncalled.1
    unfold sinceCall at before ⊢
    rw [← List.append_assoc, List.foldl_append, before, List.foldl_cons,
      List.foldl_nil, if_neg (Ne.symm uncalled.2), List.append_assoc]

/--
At most one address was named and punched, and one port offered and bound, so
often; a handshake was begun to the address or not, and then through the port
or not; and nothing was sent anywhere else.
-/
structure Spent
    (acts : List Act)
    (addr port : Option SocketAddr)
    (binds : Nat)
    (direct relayed : Bool) :
    Prop where
  told : acts.filterMap Act.told? = addr.toList
  punched : acts.filterMap Act.punched? = addr.toList
  offered : acts.filterMap Act.offered? = port.toList
  bound : acts.filterMap Act.bound? = port.toList.flatMap (List.replicate binds)
  begun : acts.filterMap Act.begun? =
      (if direct then addr.toList else []) ++
        (if relayed then port.toList else [])
  aimed : ∀ act ∈ acts, ∀ target ∈ act.sent?, target ∈ addr ∨ target ∈ port

/-- Nothing more was done than the stage allows. -/
def Sound (stage : Option Stage) (acts : List Act) : Prop :=
  let recent := sinceCall acts
  match stage with
  | none =>
      ∃ addr port binds direct relayed,
        binds ≤ 2 * maxBinds ∧ Spent recent addr port binds direct relayed
  | some .asked =>
      recent = []
  | some (.introduced _ _) =>
      ∃ addr direct, Spent recent (some addr) none 0 direct false
  | some (.relaying port _ checked legacy binds _ _) =>
      ∃ addr direct relayed,
        (relayed = true → checked = true) ∧
          Spent recent (some addr) (some port)
            ((if legacy then maxBinds else 0) + min binds maxBinds) direct
            relayed

theorem spent_nil : Spent [] none none 0 false false :=
  ⟨rfl, rfl, rfl, rfl, rfl, nofun⟩

/-- Whatever the stage, the bounds hold. -/
theorem Sound.spent {stage : Option Stage} {acts : List Act} (sound : Sound stage acts) :
    Sound none acts := by
  unfold Sound at sound
  split at sound
  · exact sound
  · refine ⟨none, none, 0, false, false, Nat.zero_le _, ?_⟩
    rw [sound]
    exact spent_nil
  · obtain ⟨addr, direct, spent⟩ := sound
    exact ⟨some addr, none, 0, direct, false, Nat.zero_le _, spent⟩
  · obtain ⟨addr, direct, relayed, _, spent⟩ := sound
    refine ⟨some addr, _, _, direct, relayed, ?_, spent⟩
    split <;> omega

/-- An address is named and punched, and perhaps connected to. -/
theorem spent_introduced (addr : SocketAddr) (direct : Bool) :
    Spent
      ([.told addr, .sends [notAFrame, punchByte] addr] ++
        if direct then [.begins addr] else [])
      (some addr) none 0 direct false := by
  cases direct <;> exact ⟨rfl, rfl, rfl, rfl, rfl, by simp [Act.sent?]⟩

namespace Spent

variable {acts : List Act} {addr : Option SocketAddr} {binds : Nat} {direct relayed : Bool}
  {port : SocketAddr} {bytes : Bytes}

theorem offers (spent : Spent acts addr none 0 direct false) (port : SocketAddr) :
    Spent (acts ++ [.offered port]) addr (some port) 0 direct false := by
  obtain ⟨told, punched, offered, bound, begun, aimed⟩ := spent
  refine ⟨?_, ?_, ?_, ?_, ?_, ?_⟩
  case refine_6 =>
    intro act member target isTarget
    rcases List.mem_append.mp member with earlier | isNew
    · exact (aimed act earlier target isTarget).imp_right nofun
    · cases List.mem_singleton.mp isNew
      cases isTarget
  all_goals
    simp [told, punched, offered, bound, begun, Act.told?, Act.punched?, Act.offered?, Act.bound?,
      Act.begun?]

section

variable (spent : Spent acts addr (some port) binds direct relayed)

include spent

/-- All that is sent goes to the address or the port. -/
theorem aims (last : Act) (isSent : last.sent? = some port) :
    ∀ act ∈ acts ++ [last], ∀ target ∈ act.sent?, target ∈ addr ∨ target ∈ some port := by
  intro act member target isTarget
  rcases List.mem_append.mp member with earlier | isNew
  · exact spent.aimed act earlier target isTarget
  · rw [List.mem_singleton.mp isNew, isSent] at isTarget
    exact Or.inr isTarget

theorem bind (isBind : (Act.sends bytes port).bound? = some port) :
    Spent (acts ++ [.sends bytes port]) addr (some port) (binds + 1) direct relayed := by
  have notPunch := Act.punched?_of_bound? isBind
  have aimed := spent.aims (.sends bytes port) rfl
  obtain ⟨told, punched, offered, bound, begun, _⟩ := spent
  refine ⟨?_, ?_, ?_, ?_, ?_, aimed⟩ <;>
    simp [told, punched, offered, bound, begun, isBind, notPunch, Act.told?, Act.offered?,
      Act.begun?, List.replicate_succ']

theorem answer (notBind : (Act.sends bytes port).bound? = none)
    (notPunch : (Act.sends bytes port).punched? = none) :
    Spent (acts ++ [.sends bytes port]) addr (some port) binds direct relayed := by
  have aimed := spent.aims (.sends bytes port) rfl
  obtain ⟨told, punched, offered, bound, begun, _⟩ := spent
  refine ⟨?_, ?_, ?_, ?_, ?_, aimed⟩ <;>
    simp [told, punched, offered, bound, begun, notBind, notPunch, Act.told?, Act.offered?,
      Act.begun?]

end

theorem relay (spent : Spent acts addr (some port) binds direct false) :
    Spent (acts ++ [.begins port]) addr (some port) binds direct true := by
  have aimed := spent.aims (.begins port) rfl
  obtain ⟨told, punched, offered, bound, begun, _⟩ := spent
  refine ⟨?_, ?_, ?_, ?_, ?_, aimed⟩ <;>
    simp [told, punched, offered, bound, begun, Act.told?, Act.punched?, Act.offered?, Act.bound?,
      Act.begun?]

end Spent

variable {Free : Stage → Prop} {handle : PeerId} {old : Stage} {new : Option Stage}
  {acts more : List Act} {begun : Bool}

theorem Move.uncalled (move : Move Free handle old new more begun) :
    .called ∉ more := by
  cases move <;> simp

/-- The port is answered, and one side connects through it. -/
theorem Sound.relays {port : SocketAddr} {token bytes : Bytes} {legacy : Bool}
    {binds nextBind : Nat} {outbound : Option PeerId}
    (sound : Sound (some (.relaying port token false legacy binds nextBind outbound)) acts)
    (notBind : (Act.sends bytes port).bound? = none)
    (notPunch : (Act.sends bytes port).punched? = none) (later : Option PeerId) :
    Sound (some (.relaying port token true legacy binds nextBind later))
      (acts ++ [.sends bytes port, .begins port]) := by
  obtain ⟨addr, direct, relayed, proved, spent⟩ := sound
  rw [Bool.eq_false_iff.mpr fun isRelayed => nomatch proved isRelayed] at spent
  have begun := (spent.answer notBind notPunch).relay
  refine ⟨addr, direct, true, fun _ => rfl, ?_⟩
  rw [sinceCall_append _ (by simp)]
  rw [List.append_assoc] at begun
  exact begun

/-- What happens to a key that is asked for keeps to the stages. -/
theorem Move.sound (move : Move Free handle old new more begun) (sound : Sound (some old) acts) :
    Sound new (acts ++ more) := by
  have recently := sinceCall_append acts move.uncalled
  cases move with
  | dropped | givenUp =>
    rw [List.append_nil]
    exact sound.spent
  | connects addr =>
    refine ⟨addr, true, ?_⟩
    rw [recently, show sinceCall acts = [] from sound]
    exact spent_introduced addr true
  | awaits addr =>
    refine ⟨addr, false, ?_⟩
    rw [recently, show sinceCall acts = [] from sound]
    exact spent_introduced addr false
  | unreached addr =>
    refine ⟨some addr, none, 0, true, false, Nat.zero_le _, ?_⟩
    rw [recently, show sinceCall acts = [] from sound]
    exact spent_introduced addr true
  | relayAsked | fallsBack | exhausted =>
    rw [List.append_nil]
    exact sound
  | offered _ =>
    obtain ⟨addr, direct, spent⟩ := sound
    exact ⟨addr, direct, false, nofun, recently ▸ spent.offers _⟩
  | binds room isBind =>
    obtain ⟨addr, direct, relayed, proved, spent⟩ := sound
    refine ⟨addr, direct, relayed, proved, ?_⟩
    rw [Nat.min_eq_left (Nat.le_of_lt room)] at spent
    rw [recently, Nat.min_eq_left room]
    exact spent.bind isBind
  | answers notBind notPunch =>
    obtain ⟨addr, direct, relayed, _, spent⟩ := sound
    exact ⟨addr, direct, relayed, fun _ => rfl, recently ▸ spent.answer notBind notPunch⟩
  | relays notBind notPunch => exact sound.relays notBind notPunch (some handle)
  | unrelayed notBind notPunch => exact (sound.relays notBind notPunch none).spent

end Course

end Fectp
