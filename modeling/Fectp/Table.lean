import Mathlib.Data.List.AList

namespace Fectp

/-!
# Tables

A finite map from keys to values, as a list of entries under distinct keys,
and the two operations an owner of mutable entries needs: a change to one entry
in place, and a look over all the values.
-/

abbrev Table (κ ν : Type*) := AList fun _ : κ => ν

namespace Table

variable {κ ν : Type*} [DecidableEq κ]

/-- The values, in the order of the entries. -/
def values (table : Table κ ν) : List ν :=
  table.entries.map Sigma.snd

/-- Changes the value under a key, if there is one. -/
def update (table : Table κ ν) (key : κ) (change : ν → ν) : Table κ ν :=
  match table.lookup key with
  | some value =>
      table.insert key (change value)
  | none =>
      table

/-- Keeps the entries that pass a test. -/
def retain (table : Table κ ν) (keep : κ → ν → Bool) : Table κ ν where
  entries := table.entries.filter fun entry => keep entry.1 entry.2
  nodupKeys := table.nodupKeys.sublist List.filter_sublist

variable (table : Table κ ν) (key : κ) {value : ν}

theorem mem_values {table : Table κ ν} :
    value ∈ table.values ↔ ∃ key, table.lookup key = some value := by
  simp only [values, List.mem_map]
  constructor
  · rintro ⟨⟨key, held⟩, member, rfl⟩
    exact ⟨key, AList.mem_lookup_iff.mpr member⟩
  · rintro ⟨key, found⟩
    exact ⟨⟨key, value⟩, AList.mem_lookup_iff.mp found, rfl⟩

theorem lookup_insert (value : ν) :
    (fun other => (table.insert key value).lookup other) =
      Function.update (fun other => table.lookup other) key (some value) := by
  funext other
  by_cases isKey : other = key
  · rw [isKey, AList.lookup_insert, Function.update_self]
  · rw [AList.lookup_insert_ne isKey, Function.update_of_ne isKey]

theorem lookup_erase :
    (fun other => (table.erase key).lookup other) =
      Function.update (fun other => table.lookup other) key none := by
  funext other
  by_cases isKey : other = key
  · rw [isKey, AList.lookup_erase, Function.update_self]
  · rw [AList.lookup_erase_ne isKey, Function.update_of_ne isKey]

/-- What is found after an entry is gone was found before, elsewhere. -/
theorem found_of_erase
    {table : Table κ ν} {key other : κ} (found : (table.erase key).lookup other = some value) :
    other ≠ key ∧ table.lookup other = some value := by
  by_cases isKey : other = key
  · rw [isKey, AList.lookup_erase] at found
    cases found
  · rw [AList.lookup_erase_ne isKey] at found
    exact ⟨isKey, found⟩

/-- What is found after an entry is made is that entry or an older one. -/
theorem found_of_insert {table : Table κ ν} {key other : κ} {held : ν}
    (found : (table.insert key value).lookup other = some held) :
    other = key ∧ held = value ∨ other ≠ key ∧ table.lookup other = some held := by
  by_cases isKey : other = key
  · rw [isKey, AList.lookup_insert] at found
    exact Or.inl ⟨isKey, (Option.some.inj found).symm⟩
  · rw [AList.lookup_insert_ne isKey] at found
    exact Or.inr ⟨isKey, found⟩

theorem lookup_update (change : ν → ν) (other : κ) :
    (table.update key change).lookup other = if other = key then (table.lookup key).map change
      else table.lookup other := by
  unfold update
  cases found : table.lookup key with
  | none =>
    dsimp only
    split
    · next same =>
        rw [same, found]
        rfl
    · rfl
  | some value =>
    dsimp only
    split
    · next same =>
        rw [same]
        exact AList.lookup_insert table
    · next different => exact AList.lookup_insert_ne different

theorem lookup_retain (keep : κ → ν → Bool) (key : κ) :
    (table.retain keep).lookup key = (table.lookup key).filter (keep key) := by
  ext value
  rw [Option.filter_eq_some_iff, ← Option.mem_def, ← Option.mem_def,
    AList.mem_lookup_iff, AList.mem_lookup_iff]
  exact List.mem_filter

/-- A change to what was just put in its place. -/
theorem update_insert (value : ν) (change : ν → ν) :
    update (table.insert key value) key change = table.insert key (change value) := by
  rw [update, AList.lookup_insert]
  exact table.insert_insert

/-- Changes made key by key, each key once. -/
theorem lookup_foldl_update
    {keys : List κ} (distinct : keys.Nodup) (table : Table κ ν) (change : ν → ν) (key : κ) :
    (keys.foldl (fun table key => table.update key change) table).lookup key =
      if key ∈ keys then (table.lookup key).map change
      else table.lookup key := by
  induction keys generalizing table with
  | nil => rfl
  | cons head rest inductionHypothesis =>
    obtain ⟨absent, distinct⟩ := List.nodup_cons.mp distinct
    rw [List.foldl_cons, inductionHypothesis distinct, lookup_update]
    by_cases isHead : key = head
    · subst isHead
      rw [if_neg absent, if_pos rfl, if_pos List.mem_cons_self]
    · rw [if_neg isHead]
      simp only [List.mem_cons, isHead, false_or]

/-- Two tables with values under the same keys have as many keys. -/
theorem keys_length_of_lookup {first second : Table κ ν}
    (same : ∀ key, (first.lookup key).isSome = (second.lookup key).isSome) :
    first.keys.length = second.keys.length := by
  have perm : first.keys.Perm second.keys := by
    rw [List.perm_ext_iff_of_nodup first.keys_nodup second.keys_nodup]
    intro key
    have isKey := AList.lookup_isSome (a := key) (s := first)
    rw [same key] at isKey
    exact isKey.symm.trans AList.lookup_isSome
  exact perm.length_eq

/-! ### Counting entries -/

/-- How many entries under other keys pass a test. -/
def elsewhere (table : Table κ ν) (key : κ) (test : ν → Bool) : Nat :=
  table.entries.countP fun entry => entry.1 != key && test entry.2

/-- The entries that pass a test are one key's and the others'. -/
theorem countP_entries (test : ν → Bool) :
    table.entries.countP (fun entry => test entry.2) =
      table.elsewhere key test + (table.lookup key).toList.countP test := by
  obtain ⟨entries, distinct⟩ := table
  change entries.countP _ = entries.countP _ + (entries.dlookup key).toList.countP test
  induction entries with
  | nil => rfl
  | cons entry rest inductionHypothesis =>
    obtain ⟨held, value⟩ := entry
    obtain ⟨absent, distinct⟩ := List.nodupKeys_cons.mp distinct
    have earlier := inductionHypothesis distinct
    by_cases isKey : held = key
    · subst isKey
      have missing : rest.dlookup held = none := List.dlookup_eq_none.mpr absent
      rw [missing] at earlier
      simp only [List.countP_cons, List.dlookup_cons_eq, earlier,
        bne_self_eq_false, Bool.false_and, Option.toList_some,
        Option.toList_none, List.countP_nil]
      simp
    · have isOther : (held != key) = true := bne_iff_ne.mpr isKey
      have passed : List.dlookup key (⟨held, value⟩ :: rest) = rest.dlookup key :=
        List.dlookup_cons_ne rest ⟨held, value⟩ (Ne.symm isKey)
      rw [passed]
      simp only [List.countP_cons, earlier, isOther, Bool.true_and]
      omega

theorem elsewhere_kerase (entries : List (Sigma fun _ : κ => ν)) (key : κ) (test : ν → Bool) :
    (entries.kerase key).countP (fun entry => entry.1 != key && test entry.2) =
      entries.countP fun entry => entry.1 != key && test entry.2 := by
  induction entries with
  | nil => rfl
  | cons entry rest inductionHypothesis =>
    by_cases isKey : key = entry.1
    · simp [isKey]
    · rw [List.kerase_cons_ne isKey, List.countP_cons, List.countP_cons, inductionHypothesis]

@[simp] theorem elsewhere_erase (test : ν → Bool) :
    elsewhere (table.erase key) key test = table.elsewhere key test :=
  elsewhere_kerase table.entries key test

@[simp] theorem elsewhere_insert (value : ν) (test : ν → Bool) :
    elsewhere (table.insert key value) key test = table.elsewhere key test := by
  unfold elsewhere
  rw [AList.entries_insert, List.countP_cons, elsewhere_kerase]
  simp

end Table

end Fectp
