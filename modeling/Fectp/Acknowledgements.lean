import Fectp.DedupHistory
import Fectp.Execution

namespace Fectp

open SerialNumber SlidingBitmap

/-!
# What an acknowledgement says

A receiver accepts identifiers, read as positions of an unbounded counter, and
what it acknowledges is the restriction of what it has accepted to the highest
position and the sixty-four below it.  Positions may start anywhere, so that an
identifier below the first one has a position too.
-/

namespace Ack

/-- A block is recovered from the front of what carries it. -/
theorem decode_bytes_append (ack : Ack) (rest : Bytes) :
    decode (ack.bytes ++ rest) = .ok ack := by
  have longEnough : ¬ (ack.bytes ++ rest).length < ackBlockLen := by
    simp only [bytes, ackBlockLen, List.length_append, LittleEndian.encode_length]
    omega
  have highestField : (ack.bytes ++ rest).take 4 = LittleEndian.encode 4 ack.highest.toNat := by
    simp [bytes]
  have bitmapField : ((ack.bytes ++ rest).drop 4).take 8 =
        LittleEndian.encode 8 ack.bitmap.toNat := by
    simp [bytes]
  have highestFits : ack.highest.toNat < 256 ^ 4 := ack.highest.isLt
  have bitmapFits : ack.bitmap.toNat < 256 ^ 8 := ack.bitmap.isLt
  rw [decode, if_neg longEnough, highestField, bitmapField, LittleEndian.decode_encode highestFits,
    LittleEndian.decode_encode bitmapFits, BitVec.ofNat_toNat,
    BitVec.ofNat_toNat, BitVec.setWidth_eq, BitVec.setWidth_eq]

end Ack

namespace DedupWindow

/-- An identifier is covered if it is that of a seen position in the window. -/
theorem Represents.covers_id_iff {window : DedupWindow} {top : Nat} {seen : Nat → Prop}
    (represents : window.Represents top seen) (id : MessageId) :
    window.toAck.covers id = true ↔ ∃ position, seen position ∧ top - position ≤ ackWindow ∧
          serial 32 position = id := by
  have byDistance : window.toAck.covers id = true ↔ (serial 32 top - id).toNat ≤ ackWindow ∧
          (serial 32 top - id).toNat ≤ top ∧
          seen (top - (serial 32 top - id).toNat) := by
    unfold Ack.covers toAck
    rw [represents.highest]
    dsimp only
    split
    · next isTop =>
        rw [isTop, BitVec.sub_self]
        simp [represents.topSeen]
    next different =>
    have positive : 0 < (serial 32 top - id).toNat := by
      bv_omega
    generalize (serial 32 top - id).toNat = distance at positive
    split
    · next stale => simp [Nat.not_le_of_lt stale]
    next inWindow =>
    have inWindow : distance ≤ ackWindow := Nat.le_of_not_lt inWindow
    have inRange : distance - 1 < 64 := by
      unfold ackWindow at inWindow
      omega
    have bit := represents.records (distance - 1) inRange
    rw [Nat.sub_add_cancel positive] at bit
    rw [bne_iff_ne, and_bit_ne_zero_iff _ inRange, bit]
    exact (and_iff_right inWindow).symm
  rw [byDistance]
  constructor
  · rintro ⟨inWindow, inRange, member⟩
    refine ⟨_, member, by omega, ?_⟩
    have distance :=
      toNat_serial_sub (Nat.sub_le top (serial 32 top - id).toNat)
        (by omega : top - (top - (serial 32 top - id).toNat) < 2 ^ 32)
    rw [Nat.sub_sub_self inRange] at distance
    have same := BitVec.eq_of_toNat_eq distance
    bv_omega
  · rintro ⟨position, member, inWindow, rfl⟩
    have below := represents.seenLe member
    have small : top - position < 2 ^ 32 := by
      unfold ackWindow at inWindow
      omega
    rw [toNat_serial_sub below small, Nat.sub_sub_self below]
    exact ⟨inWindow, Nat.sub_le _ _, member⟩

end DedupWindow

/-- A window, and the positions it has accepted. -/
structure Reception where
  window : DedupWindow
  accepted : List Nat
  deriving Repr, DecidableEq

namespace Reception

def fresh : Reception where
  window := DedupWindow.new
  accepted := []

/-- The identifier of one position arrives. -/
def present (reception : Reception) (position : Nat) : Reception :=
  let (isNew, window) := reception.window.accept (serial 32 position)
  { window := window
    accepted :=
      if isNew then position :: reception.accepted
      else reception.accepted }

/-- The position is less than half the space from the highest accepted. -/
def Near (reception : Reception) (position : Nat) : Prop :=
  ∀ top ∈ reception.accepted.max?, Comparable position top

instance decidableNear (reception : Reception) (position : Nat) :
    Decidable (reception.Near position) :=
  inferInstanceAs (Decidable (∀ top ∈ reception.accepted.max?, _ ∧ _))

/-- The window stands for what was accepted, the highest on top. -/
def Sound (reception : Reception) : Prop :=
  reception = fresh ∨
    ∃ top,
      reception.accepted.max? = some top ∧
        reception.window.Represents top (· ∈ reception.accepted)

/-- The highest position represented is the highest accepted. -/
theorem max_of_represents {window : DedupWindow} {accepted : List Nat} {top : Nat}
    (represents : window.Represents top (· ∈ accepted)) :
    accepted.max? = some top :=
  List.max?_eq_some_iff.mpr ⟨represents.topSeen, fun _ member => represents.seenLe member⟩

theorem Sound.present {reception : Reception} {position : Nat} (sound : reception.Sound)
    (near : reception.Near position) :
    (reception.present position).Sound ∧ (reception.present position).accepted ≠ [] := by
  have grown {window : DedupWindow}
      {top : Nat}
      (represents : window.Represents top
          fun other => other ∈ reception.accepted ∨ other = position) :
      Sound ⟨window, position :: reception.accepted⟩ := by
    have same : (fun other => other ∈ reception.accepted ∨ other = position) =
          (· ∈ position :: reception.accepted) := by
      funext other
      rw [List.mem_cons, or_comm]
    rw [same] at represents
    exact Or.inr ⟨top, max_of_represents represents, represents⟩
  have accepts (isNew : (reception.window.accept (serial 32 position)).1 = true) :
      reception.present position =
        ⟨(reception.window.accept (serial 32 position)).2, position :: reception.accepted⟩ := by
    unfold Reception.present
    dsimp only
    rw [isNew]
    rfl
  rcases sound with rfl | ⟨top, isTop, represents⟩
  · obtain ⟨isNew, represents⟩ := DedupWindow.accept_new position
    refine ⟨@grown _ position ?_, List.cons_ne_nil _ _⟩
    have only : (fun other => other ∈ fresh.accepted ∨ other = position) = (· = position) := by
      funext other
      simp [fresh]
    rw [only]
    exact represents
  · rcases represents.accept_cases (near top isTop) with
      ⟨isNew, _, top', widened⟩ | refused
    · rw [accepts isNew]
      exact ⟨grown widened, List.cons_ne_nil _ _⟩
    · have unchanged : reception.present position = reception := by
        unfold Reception.present
        rw [refused]
        rfl
      rw [unchanged]
      exact ⟨Or.inr ⟨top, isTop, represents⟩, List.ne_nil_of_mem represents.topSeen⟩

theorem run_sound {positions : List Nat} (near : Execution.Admits present Near fresh positions) :
    (Execution.run present fresh positions).Sound :=
  @Execution.invariant_of_admits _ _ present Near Sound
    (fun near sound => (sound.present near).1) _ _ near (Or.inl rfl)

/--
After any nonempty sequence of arrivals, the acknowledgement covers exactly the
identifiers of accepted positions that are the highest or at most sixty-four
below it; the next arrival is new exactly if it was not accepted before and is
not further below; and the block reads back as it was written.
-/
theorem acknowledges_what_was_accepted
    (earlier : List Nat)
    (last : Nat)
    (near : Execution.Admits present Near fresh (earlier ++ [last])) :
    let reception := Execution.run present fresh (earlier ++ [last])
    let ack := reception.window.toAck
    ∃ top,
      reception.accepted.max? = some top ∧
        (∀ id,
          ack.covers id = true ↔
            ∃ position ∈ reception.accepted,
              top - position ≤ ackWindow ∧ serial 32 position = id) ∧
        (∀ position,
          Comparable position top →
            ((reception.window.accept (serial 32 position)).1 = true ↔
              position ∉ reception.accepted ∧
                top - position ≤ ackWindow)) ∧
        ∀ room rest,
          ackBlockLen ≤ room →
            ack.encode room = .ok ack.bytes ∧
              Ack.decode (ack.bytes ++ rest) = .ok ack := by
  intro reception ack
  obtain ⟨nearEarlier, nearLast, _⟩ := Execution.admits_append.mp near
  have shape : reception =
        (Execution.run present fresh earlier).present last :=
    Execution.run_append present fresh earlier [last]
  obtain ⟨sound, nonempty⟩ := (run_sound nearEarlier).present nearLast
  rw [← shape] at sound nonempty
  rcases sound with isFresh | ⟨top, isTop, represents⟩
  · rw [isFresh] at nonempty
    exact (nonempty rfl).elim
  refine ⟨top, isTop, represents.covers_id_iff, ?_, ?_⟩
  · intro position close
    exact represents.accept_iff close
  · intro room rest roomy
    exact ⟨if_neg (Nat.not_lt.mpr roomy), ack.decode_bytes_append rest⟩

/-- Across the wrap, with a repeat, a gap and one that comes too late. -/
theorem acknowledges_what_was_accepted_of_small_wrap :
    let positions := [2 ^ 32 - 2, 2 ^ 32 + 63, 2 ^ 32 - 1, 2 ^ 32 - 1]
    let reception :=
      Execution.run present fresh (positions ++ [2 ^ 32 - 2])
    reception.window.toAck.covers (serial 32 (2 ^ 32 - 1)) = true ∧
      ∃ top,
        reception.accepted.max? = some top ∧
          ∀ id,
            reception.window.toAck.covers id = true ↔
              ∃ position ∈ reception.accepted,
                top - position ≤ ackWindow ∧ serial 32 position = id := by
  intro positions reception
  obtain ⟨top, isTop, covers, _⟩ :=
    acknowledges_what_was_accepted positions (2 ^ 32 - 2) (by decide)
  exact ⟨by decide, top, isTop, covers⟩

end Reception

end Fectp
