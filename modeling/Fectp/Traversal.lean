import Mathlib.Data.List.Nodup

namespace Fectp

/-!
# Visiting a list of keys

A loop that visits one key after another and leaves at the first failure, the
rule for what each visit preserves, the rule for two loops run side by side,
and what is left of one key's part of the state when no visit touches another
key's part.
-/

/-- An order to visit keys in, whichever they are. -/
structure Sequence (κ : Type*) where
  order : List κ → List κ
  perm : ∀ keys, (order keys).Perm keys

section

variable {κ σ τ ε : Type*}

/-- Visits each key, stopping at the first failure. -/
def forEach (visit : κ → σ → Except ε Unit × σ) :
    List κ → σ → Except ε Unit × σ
  | [], state =>
      (.ok (), state)
  | key :: rest, state =>
      match visit key state with
      | (.error error, state) =>
          (.error error, state)
      | (.ok (), state) =>
          forEach visit rest state

variable {visit : κ → σ → Except ε Unit × σ} {keys : List κ}

/-- What every visit preserves, the loop preserves. -/
theorem forEach_invariant (Invariant : σ → Prop)
    (visited : ∀ {key state},
        key ∈ keys →
        Invariant state →
        Invariant (visit key state).2)
    {state : σ} (initially : Invariant state) :
    Invariant (forEach visit keys state).2 := by
  induction keys generalizing state with
  | nil => exact initially
  | cons key rest inductionHypothesis =>
    have after := visited List.mem_cons_self initially
    unfold forEach
    split
    · next visits =>
        rw [visits] at after
        exact after
    next visits =>
    rw [visits] at after
    exact inductionHypothesis (fun member => visited (List.mem_cons_of_mem key member)) after

/-- A loop whose visits all succeed, for as long as something lasts. -/
theorem forEach_ok
    (Lasts : Nat → σ → Prop)
    (visited :
      ∀ {key left state},
        key ∈ keys →
        Lasts (left + 1) state →
        ∃ after, visit key state = (.ok (), after) ∧ Lasts left after)
    {left : Nat}
    (enough : keys.length ≤ left)
    {state : σ}
    (lasts : Lasts left state) :
    (forEach visit keys state).1 = .ok () := by
  induction keys generalizing left state with
  | nil =>
      rfl
  | cons key rest inductionHypothesis =>
      obtain ⟨more, rfl⟩ :=
        Nat.exists_eq_succ_of_ne_zero (Nat.ne_of_gt (Nat.lt_of_lt_of_le (Nat.succ_pos _) enough))
      obtain ⟨after, visits, lastsAfter⟩ := visited List.mem_cons_self lasts
      unfold forEach
      rw [visits]
      exact
        inductionHypothesis
          (fun member => visited (List.mem_cons_of_mem key member))
          (Nat.le_of_succ_le_succ enough) lastsAfter


/-- A loop whose visits cannot fail is a fold. -/
theorem forEach_pure (step : σ → κ → σ) (keys : List κ) (state : σ) :
    forEach (ε := ε) (fun key state => (.ok (), step state key)) keys state =
      (.ok (), keys.foldl step state) := by
  induction keys generalizing state with
  | nil => rfl
  | cons key rest inductionHypothesis => exact inductionHypothesis (step state key)

/--
Two loops over the same keys come out the same if their visits do, for as long
as the states are related; the relation may look at the keys still to come.
-/
theorem forEach_simulates {visit : κ → σ → Except ε Unit × σ} {visit' : κ → τ → Except ε Unit × τ}
    (Related : List κ → σ → τ → Prop)
    (visited : ∀ {key rest state state'},
        Related (key :: rest) state state' →
        (visit key state).1 = (visit' key state').1 ∧
          Related rest (visit key state).2 (visit' key state').2)
    {keys : List κ} {state : σ} {state' : τ} (initially : Related keys state state') :
    (forEach visit keys state).1 = (forEach visit' keys state').1 := by
  induction keys generalizing state state' with
  | nil => rfl
  | cons key rest inductionHypothesis =>
    obtain ⟨sameResult, related⟩ := visited initially
    unfold forEach
    rcases visits : visit key state with ⟨error | _, after⟩ <;>
      rcases visits' : visit' key state' with ⟨error' | _, after'⟩ <;>
      rw [visits, visits'] at sameResult related
    · exact sameResult
    · cases sameResult
    · cases sameResult
    · exact inductionHypothesis related

/--
With distinct keys, and visits that leave the others' parts of the state
alone, one key's part is what it was or what its own visit made of it.
-/
theorem forEach_part {ν : Type*} (part : σ → ν) {key : κ}
    (others : ∀ {other state},
        other ≠ key →
        part (visit other state).2 = part state) (distinct : keys.Nodup) (state : σ) :
    part (forEach visit keys state).2 = part state ∨ ∃ between, part between = part state ∧
          part (forEach visit keys state).2 = part (visit key between).2 := by
  induction keys generalizing state with
  | nil => exact Or.inl rfl
  | cons head rest inductionHypothesis =>
    obtain ⟨absent, distinct⟩ := List.nodup_cons.mp distinct
    have unvisited : ∀ {keys : List κ},
          key ∉ keys →
          ∀ state, part (forEach visit keys state).2 = part state := by
      intro keys absent state
      apply forEach_invariant (fun after => part after = part state)
      · intro other after member same
        exact (others fun isKey => absent (isKey ▸ member)).trans same
      · rfl
    by_cases isKey : head = key
    · subst isKey
      refine Or.inr ⟨state, rfl, ?_⟩
      unfold forEach
      split
      · next visits => rw [visits]
      next visits =>
      rw [visits]
      exact unvisited absent _
    · have same : part (visit head state).2 = part state := others isKey
      unfold forEach
      split
      · next visits =>
          rw [visits] at same
          exact Or.inl same
      next visits =>
      rw [visits] at same
      rw [← same]
      exact inductionHypothesis distinct _

end

end Fectp
