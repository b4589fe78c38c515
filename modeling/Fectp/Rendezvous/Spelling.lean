import Fectp.Rendezvous.Control

namespace Fectp

/-!
# Control messages have one spelling

What each part of a message is read from is what the part is written as,
followed by the rest.  Put together, a message is read from its own writing
and from no other bytes.
-/

namespace LittleEndian

/-- A number at the start of some bytes, and what follows it. -/
theorem field_iff {bytes after : Bytes} {len value : Nat} :
    len ≤ bytes.length ∧ decode (bytes.take len) = value ∧ bytes.drop len = after ↔
      value < 256 ^ len ∧ bytes = encode len value ++ after := by
  constructor
  · rintro ⟨long, rfl, rfl⟩
    have isLength := List.length_take_of_le long
    have fits := decode_lt (bytes.take len)
    have back := encode_decode (bytes.take len)
    rw [isLength] at fits back
    rw [back, List.take_append_drop]
    exact ⟨fits, rfl⟩
  · rintro ⟨fits, rfl⟩
    have isLength := encode_length len value
    refine ⟨?_, ?_, ?_⟩
    · rw [List.length_append, isLength]
      exact Nat.le_add_right _ _
    · rw [List.take_left' isLength, decode_encode fits]
    · exact List.drop_left' isLength

end LittleEndian

/-- An address that there is. -/
def SocketAddr.Valid (addr : SocketAddr) : Prop :=
  addr.ip < ipv4Count + 256 ^ 16 ∧ addr.port < 256 ^ 2

variable {body rest : Bytes}

/-- A piece of known length, and what follows it. -/
theorem piece_iff {piece : Bytes} {len : Nat} :
    len ≤ body.length ∧ body.take len = piece ∧ body.drop len = rest ↔
      piece.length = len ∧ body = piece ++ rest := by
  constructor
  · rintro ⟨long, rfl, rfl⟩
    exact ⟨List.length_take_of_le long, (List.take_append_drop _ _).symm⟩
  · rintro ⟨rfl, rfl⟩
    refine ⟨?_, List.take_left, List.drop_left⟩
    rw [List.length_append]
    exact Nat.le_add_right _ _

theorem takeKey_iff {key : Key} :
    takeKey body = some (key, rest) ↔ key.length = keyLen ∧ body = key ++ rest := by
  rw [← piece_iff]
  unfold takeKey
  split
  · next short =>
      exact iff_of_false (nomatch ·) fun ⟨long, _⟩ =>
        Nat.not_lt.mpr long short
  · next long => simp [Nat.not_lt.mp long]

theorem takeLast_iff {len : Nat} {piece : Bytes} :
    takeLast body len = some piece ↔ piece.length = len ∧ body = piece := by
  unfold takeLast
  split
  · next isLength =>
      constructor
      · rintro ⟨⟩
        exact ⟨isLength, rfl⟩
      · rintro ⟨_, rfl⟩
        rfl
  next another =>
  refine iff_of_false (nomatch ·) ?_
  rintro ⟨isLength, rfl⟩
  exact another isLength

/-- An address of one family, numbered from here on. -/
theorem family_iff {len first : Nat} {addr : SocketAddr} :
    (if body.length < len + 2 then none else
        some (⟨first + LittleEndian.decode (body.take len),
            LittleEndian.decode ((body.drop len).take 2)⟩,
          body.drop (len + 2))) = some (addr, rest) ↔
      (first ≤ addr.ip ∧ addr.ip - first < 256 ^ len ∧ addr.port < 256 ^ 2) ∧
        body = LittleEndian.encode len (addr.ip - first) ++
            (LittleEndian.encode 2 addr.port ++ rest) := by
  constructor
  · intro reads
    split at reads
    · cases reads
    next long =>
    cases reads
    obtain ⟨fits, isBody⟩ := @LittleEndian.field_iff body _ len _ |>.mp ⟨by omega, rfl, rfl⟩
    obtain ⟨portFits, isRest⟩ :=
      @LittleEndian.field_iff (body.drop len) _ 2 _ |>.mp
        ⟨by rw [List.length_drop]; omega, rfl, rfl⟩
    rw [List.drop_drop] at isRest
    rw [Nat.add_sub_cancel_left, ← isRest]
    exact ⟨⟨Nat.le_add_right _ _, fits, portFits⟩, isBody⟩
  · rintro ⟨⟨above, fits, portFits⟩, isBody⟩
    obtain ⟨_, isNumber, isRest⟩ := LittleEndian.field_iff.mpr ⟨fits, isBody⟩
    obtain ⟨long, isPort, isAfter⟩ := LittleEndian.field_iff.mpr ⟨portFits, isRest⟩
    rw [List.length_drop] at long
    rw [if_neg (by omega), isNumber, isPort, ← isAfter, List.drop_drop, Nat.add_sub_cancel' above]

theorem takeAddr_iff {addr : SocketAddr} :
    takeAddr body = some (addr, rest) ↔ addr.Valid ∧ body = putAddr addr ++ rest := by
  constructor
  · intro reads
    cases body with
    | nil => cases reads
    | cons family body =>
      by_cases isFour : family = 4
      · subst isFour
        obtain ⟨⟨_, fits, portFits⟩, rfl⟩ := (@family_iff body rest 4 0 addr).mp reads
        have isV4 : addr.ip < ipv4Count := fits
        refine ⟨⟨Nat.lt_add_right _ isV4, portFits⟩, ?_⟩
        rw [putAddr, if_pos isV4, List.append_assoc]
        rfl
      by_cases isSix : family = 6
      · subst isSix
        obtain ⟨⟨above, fits, portFits⟩, rfl⟩ := (@family_iff body rest 16 ipv4Count addr).mp reads
        refine ⟨⟨by omega, portFits⟩, ?_⟩
        rw [putAddr, if_neg (Nat.not_lt.mpr above), List.append_assoc]
        rfl
      · simp [takeAddr, isFour, isSix] at reads
  · rintro ⟨⟨fits, portFits⟩, rfl⟩
    unfold putAddr
    split
    · next isV4 =>
        exact (@family_iff _ rest 4 0 addr).mpr ⟨⟨Nat.zero_le _, isV4, portFits⟩, rfl⟩
    next isV6 =>
    exact (@family_iff _ rest 16 ipv4Count addr).mpr
      ⟨⟨Nat.not_lt.mp isV6, by omega, portFits⟩, rfl⟩

/-- Members laid end to end are read one after another. -/
theorem takeMembers_iff {count : Nat} {list : List (Key × Bytes)} :
    body.length = count * (keyLen + macLen) ∧ takeMembers count body = list ↔
      list.length = count ∧ (∀ member ∈ list, member.1.length = keyLen ∧ member.2.length = macLen) ∧
        body = list.flatMap fun (key, mac) => key ++ mac := by
  induction count generalizing body list with
  | zero =>
    rw [Nat.zero_mul, List.length_eq_zero_iff, List.length_eq_zero_iff]
    constructor
    · rintro ⟨rfl, rfl⟩
      exact ⟨rfl, nofun, rfl⟩
    · rintro ⟨rfl, _, rfl⟩
      exact ⟨rfl, rfl⟩
  | succ count inductionHypothesis =>
    constructor
    · rintro ⟨isLength, rfl⟩
      rw [Nat.succ_mul] at isLength
      obtain ⟨listed, shaped, isRest⟩ :=
        (@inductionHypothesis (body.drop (keyLen + macLen)) _).mp
          ⟨by rw [List.length_drop]; omega, rfl⟩
      obtain ⟨keyLength, isBody⟩ := (@piece_iff body _ _ keyLen).mp ⟨by omega, rfl, rfl⟩
      obtain ⟨macLength, isTail⟩ :=
        (@piece_iff (body.drop keyLen) _ _ macLen).mp ⟨by rw [List.length_drop]; omega, rfl, rfl⟩
      rw [List.drop_drop, isRest] at isTail
      refine ⟨congrArg Nat.succ listed, ?_, ?_⟩
      · intro member isMember
        rcases List.mem_cons.mp isMember with rfl | later
        · exact ⟨keyLength, macLength⟩
        · exact shaped member later
      · rw [takeMembers, List.flatMap_cons, List.append_assoc, ← isTail]
        exact isBody
    · rintro ⟨isLength, shaped, rfl⟩
      obtain ⟨⟨key, mac⟩, list, rfl⟩ := List.exists_cons_of_length_eq_add_one isLength
      obtain ⟨keyLength, macLength⟩ := shaped _ (List.mem_cons_self ..)
      obtain ⟨restLength, isRest⟩ :=
        inductionHypothesis.mpr ⟨Nat.succ.inj isLength,
            fun member later => shaped member (List.mem_cons_of_mem _ later),
            rfl⟩
      rw [List.flatMap_cons]
      refine ⟨?_, ?_⟩
      · rw [List.length_append, List.length_append, keyLength, macLength,
          restLength, Nat.succ_mul, Nat.add_comm]
      · rw [takeMembers, List.append_assoc, List.take_left' keyLength,
          List.drop_left' keyLength, List.take_left' macLength,
          ← List.drop_drop, List.drop_left' keyLength,
          List.drop_left' macLength, isRest]

namespace Control

/-- The fields are as long as the arrays they stand for. -/
def Shaped : Control → Prop
  | .register =>
      True
  | .introduce key | .relay key | .unavailable key _ =>
      key.length = keyLen
  | .observed addr =>
      addr.Valid
  | .introduction key addr =>
      key.length = keyLen ∧ addr.Valid
  | .relayOffer key addr token =>
      key.length = keyLen ∧ addr.Valid ∧ token.length = Relay.secretLen
  | .join tag mac =>
      tag.length = groupTagLen ∧ mac.length = macLen
  | .leave tag =>
      tag.length = groupTagLen
  | .members tag list =>
      tag.length = groupTagLen ∧ list.length ≤ maxGroupMembers ∧
        ∀ member ∈ list, member.1.length = keyLen ∧ member.2.length = macLen

variable {control : Control}

theorem decodeKey_iff {key : Key} :
    decodeKey body = some key ↔ key.length = keyLen ∧ body = key := by
  simp [decodeKey, Option.bind_eq_some_iff, takeKey_iff]

theorem decodeObserved_iff :
    decodeObserved body = some control ↔
      ∃ addr, (addr.Valid ∧ body = putAddr addr) ∧ .observed addr = control := by
  simp [decodeObserved, Option.bind_eq_some_iff, takeAddr_iff]

theorem decodeIntroduction_iff :
    decodeIntroduction body = some control ↔ ∃ key addr,
        (key.length = keyLen ∧ body = key ++ putAddr addr) ∧
          addr.Valid ∧ .introduction key addr = control := by
  simp [decodeIntroduction, Option.bind_eq_some_iff, takeKey_iff, takeAddr_iff]

theorem decodeUnavailable_iff :
    decodeUnavailable body = some control ↔ ∃ key reason,
        (key.length = keyLen ∧ body = key ++ [reason]) ∧ .unavailable key reason = control := by
  unfold decodeUnavailable
  rw [Option.bind_eq_bind, Option.bind_eq_some_iff]
  constructor
  · rintro ⟨⟨key, rest⟩, takes, decodes⟩
    obtain ⟨isKey, rfl⟩ := takeKey_iff.mp takes
    dsimp only at decodes
    split at decodes
    · cases decodes
      exact ⟨key, _, ⟨isKey, rfl⟩, rfl⟩
    · cases decodes
  · rintro ⟨key, reason, isBody, rfl⟩
    exact ⟨(key, [reason]), takeKey_iff.mpr isBody, rfl⟩

theorem decodeRelayOffer_iff :
    decodeRelayOffer body = some control ↔ ∃ key addr token,
        (key.length = keyLen ∧ body = key ++ (putAddr addr ++ token)) ∧
          addr.Valid ∧ token.length = Relay.secretLen ∧
          .relayOffer key addr token = control := by
  simp [decodeRelayOffer, Option.bind_eq_some_iff, takeKey_iff, takeAddr_iff, takeLast_iff]

theorem decodeJoin_iff :
    decodeJoin body = some control ↔ ∃ tag mac, (tag.length = groupTagLen ∧ body = tag ++ mac) ∧
          mac.length = macLen ∧ .join tag mac = control := by
  unfold decodeJoin
  split
  · next isLength =>
      constructor
      · rintro ⟨⟩
        refine ⟨_, _, piece_iff.mp ⟨?_, rfl, rfl⟩, ?_, rfl⟩
        · omega
        · rw [List.length_drop]
          omega
      · rintro ⟨tag, mac, isBody, _, rfl⟩
        obtain ⟨_, isTag, isMac⟩ := piece_iff.mpr isBody
        rw [isTag, isMac]
  next another =>
  refine iff_of_false (nomatch ·) ?_
  rintro ⟨tag, mac, ⟨isTag, rfl⟩, isMac, _⟩
  rw [List.length_append, isTag, isMac] at another
  exact another rfl

theorem decodeMembers_iff :
    decodeMembers body = some control ↔ ∃ tag list,
        (tag.length = groupTagLen ∧ body = tag ++ list.flatMap fun (key, mac) => key ++ mac) ∧
          list.length ≤ maxGroupMembers ∧
          (∀ member ∈ list, member.1.length = keyLen ∧ member.2.length = macLen) ∧
          .members tag list = control := by
  unfold decodeMembers
  dsimp only
  constructor
  · intro decodes
    split at decodes
    · cases decodes
    next long =>
    split at decodes
    · cases decodes
    next whole =>
    split at decodes
    · cases decodes
    next few =>
    cases decodes
    obtain ⟨listed, shaped, isRest⟩ :=
      takeMembers_iff.mp
        ⟨(Nat.div_mul_cancel (Nat.dvd_of_mod_eq_zero (not_not.mp whole))).symm, rfl⟩
    refine ⟨_, _, ?_, listed.trans_le (Nat.not_lt.mp few), shaped, rfl⟩
    rw [← isRest]
    exact piece_iff.mp ⟨Nat.not_lt.mp long, rfl, rfl⟩
  · rintro ⟨tag, list, isBody, few, shaped, rfl⟩
    obtain ⟨long, isTag, isRest⟩ := piece_iff.mpr isBody
    obtain ⟨isLength, takes⟩ := takeMembers_iff.mpr ⟨rfl, shaped, isRest⟩
    rw [if_neg (Nat.not_lt.mpr long), isLength, Nat.mul_mod_left,
      if_neg (not_not.mpr rfl), Nat.mul_div_cancel _ (by decide),
      if_neg (Nat.not_lt.mpr few), takes, isTag]

/-- A message is read from its own writing, and from no other bytes. -/
theorem decode_iff {bytes : Bytes} :
    decode bytes = some control ↔ control.Shaped ∧ bytes = control.encode := by
  constructor
  · intro decodes
    unfold decode at decodes
    split at decodes
    · cases decodes
    split at decodes
    · split at decodes
      · next isEmpty =>
          cases decodes
          rw [List.isEmpty_iff.mp isEmpty]
          exact ⟨trivial, rfl⟩
      · cases decodes
    · obtain ⟨key, reads, rfl⟩ := Option.map_eq_some_iff.mp decodes
      obtain ⟨isKey, rfl⟩ := decodeKey_iff.mp reads
      exact ⟨isKey, rfl⟩
    · obtain ⟨key, reads, rfl⟩ := Option.map_eq_some_iff.mp decodes
      obtain ⟨isKey, rfl⟩ := decodeKey_iff.mp reads
      exact ⟨isKey, rfl⟩
    · obtain ⟨addr, ⟨valid, rfl⟩, rfl⟩ := decodeObserved_iff.mp decodes
      exact ⟨valid, rfl⟩
    · obtain ⟨key, addr, ⟨isKey, rfl⟩, valid, rfl⟩ :=
        decodeIntroduction_iff.mp decodes
      exact ⟨⟨isKey, valid⟩, rfl⟩
    · obtain ⟨key, reason, ⟨isKey, rfl⟩, rfl⟩ :=
        decodeUnavailable_iff.mp decodes
      exact ⟨isKey, rfl⟩
    · obtain ⟨key, addr, token, ⟨isKey, rfl⟩, valid, isToken, rfl⟩ :=
        decodeRelayOffer_iff.mp decodes
      rw [← List.append_assoc]
      exact ⟨⟨isKey, valid, isToken⟩, rfl⟩
    · obtain ⟨tag, mac, ⟨isTag, rfl⟩, isMac, rfl⟩ := decodeJoin_iff.mp decodes
      exact ⟨⟨isTag, isMac⟩, rfl⟩
    · obtain ⟨tag, takes, rfl⟩ := Option.map_eq_some_iff.mp decodes
      obtain ⟨isTag, rfl⟩ := takeLast_iff.mp takes
      exact ⟨isTag, rfl⟩
    · obtain ⟨tag, list, ⟨isTag, rfl⟩, few, shaped, rfl⟩ :=
        decodeMembers_iff.mp decodes
      exact ⟨⟨isTag, few, shaped⟩, rfl⟩
    · cases decodes
  · rintro ⟨shaped, rfl⟩
    cases control with
    | register => rfl
    | introduce key => exact Option.map_eq_some_iff.mpr ⟨key, decodeKey_iff.mpr ⟨shaped, rfl⟩, rfl⟩
    | relay key => exact Option.map_eq_some_iff.mpr ⟨key, decodeKey_iff.mpr ⟨shaped, rfl⟩, rfl⟩
    | observed addr => exact decodeObserved_iff.mpr ⟨addr, ⟨shaped, rfl⟩, rfl⟩
    | introduction key addr =>
      exact decodeIntroduction_iff.mpr ⟨key, addr, ⟨shaped.1, rfl⟩, shaped.2, rfl⟩
    | unavailable key reason => exact decodeUnavailable_iff.mpr ⟨key, reason, ⟨shaped, rfl⟩, rfl⟩
    | relayOffer key addr token =>
      obtain ⟨isKey, valid, isToken⟩ := shaped
      exact decodeRelayOffer_iff.mpr
        ⟨key, addr, token, ⟨isKey, List.append_assoc ..⟩, valid, isToken, rfl⟩
    | join tag mac => exact decodeJoin_iff.mpr ⟨tag, mac, ⟨shaped.1, rfl⟩, shaped.2, rfl⟩
    | leave tag => exact Option.map_eq_some_iff.mpr ⟨tag, takeLast_iff.mpr ⟨shaped, rfl⟩, rfl⟩
    | members tag list =>
      obtain ⟨isTag, few, shaped⟩ := shaped
      exact decodeMembers_iff.mpr ⟨tag, list, ⟨isTag, rfl⟩, few, shaped, rfl⟩

/-- Every message is read back, and nothing else is read as it. -/
theorem one_spelling :
    (∀ control : Control, control.Shaped → decode control.encode = some control) ∧
      ∀ bytes control, decode bytes = some control → control.encode = bytes := by
  refine ⟨?_, ?_⟩
  · intro control shaped
    exact decode_iff.mpr ⟨shaped, rfl⟩
  · intro bytes control decodes
    exact (decode_iff.mp decodes).2.symm

end Control

end Fectp
