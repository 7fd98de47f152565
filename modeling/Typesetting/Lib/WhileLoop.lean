/-
# Typesetting.Lib.WhileLoop -- while loops given by one pass through their head

A loop is a function `step : σ → σ ⊕ ρ`: one evaluation of the loop condition and, when it
holds, of the loop body. `Sum.inl s'` is the state the body leaves behind, `Sum.inr r` the
value the code after the loop computes from the state in which the condition failed.

`run` executes a loop with a bound on the number of passes, so it computes; `Returns` forgets
the bound, so a loop that never ends simply returns nothing. The rules below are the usual
ones: one pass may be peeled off, the answer does not depend on the bound, an invariant of
the body carries to the result, and a loop returns when some measure falls at each pass.
-/
import Mathlib.Data.Nat.Init

namespace WhileLoop

variable {σ ρ : Type*} {step : σ → σ ⊕ ρ}

/-! ## Execution -/

/-- At most `n` passes through the head of the loop; `none` when that was not enough. -/
def run (step : σ → σ ⊕ ρ) : Nat → σ → Option ρ
  | 0, _ => none
  | n + 1, s =>
    match step s with
    | .inl s' => run step n s'
    | .inr r => some r

/-- The loop, entered in state `s`, ends and its value is `r`. -/
def Returns (step : σ → σ ⊕ ρ) (s : σ) (r : ρ) : Prop :=
  ∃ n, run step n s = some r

theorem run_succ_next {s s' : σ} (h : step s = .inl s') (n : Nat) :
    run step (n + 1) s = run step n s' := by
  simp only [run, h]

theorem run_succ_exit {s : σ} {r : ρ} (h : step s = .inr r) (n : Nat) :
    run step (n + 1) s = some r := by
  simp only [run, h]

/-- One more pass than needed changes nothing. -/
theorem run_succ_of_some {n : Nat} {s : σ} {r : ρ} (h : run step n s = some r) :
    run step (n + 1) s = some r := by
  induction n generalizing s with
  | zero => exact absurd h (by simp [run])
  | succ n ih =>
      cases hs : step s with
      | inl s' =>
          rw [run_succ_next hs] at h ⊢
          exact ih h
      | inr r' =>
          rw [run_succ_exit hs] at h ⊢
          exact h

/-- The answer of a loop that has ended is stable under a larger bound. -/
theorem run_mono {n m : Nat} {s : σ} {r : ρ} (hle : n ≤ m) (h : run step n s = some r) :
    run step m s = some r := by
  obtain ⟨d, rfl⟩ : ∃ d, m = n + d := ⟨m - n, by omega⟩
  clear hle
  induction d with
  | zero => exact h
  | succ d ih => exact run_succ_of_some ih

/-! ## Peeling off one pass -/

theorem returns_of_next {s s' : σ} {r : ρ} (hs : step s = .inl s') :
    Returns step s r ↔ Returns step s' r := by
  constructor
  · rintro ⟨n, hn⟩
    cases n with
    | zero => exact absurd hn (by simp [run])
    | succ n => exact ⟨n, by rwa [run_succ_next hs] at hn⟩
  · rintro ⟨n, hn⟩
    exact ⟨n + 1, by rwa [run_succ_next hs]⟩

theorem returns_of_exit {s : σ} {r r' : ρ} (hs : step s = .inr r') :
    Returns step s r ↔ r' = r := by
  constructor
  · rintro ⟨n, hn⟩
    cases n with
    | zero => exact absurd hn (by simp [run])
    | succ n =>
        rw [run_succ_exit hs] at hn
        exact Option.some.inj hn
  · rintro rfl
    exact ⟨1, run_succ_exit hs 0⟩

/-- A loop has at most one value. -/
theorem Returns.unique {s : σ} {r r' : ρ} (h : Returns step s r) (h' : Returns step s r') :
    r = r' := by
  obtain ⟨n, hn⟩ := h
  obtain ⟨m, hm⟩ := h'
  have hn' := run_mono (Nat.le_max_left n m) hn
  have hm' := run_mono (Nat.le_max_right n m) hm
  exact Option.some.inj (hn'.symm.trans hm')

/-! ## The invariant rule and the termination rule -/

/-- The invariant rule: what holds on entry and is kept by the body holds in the state in
which the loop ends, and there it gives the postcondition. -/
theorem Returns.of_invariant {Inv : σ → Prop} {Post : ρ → Prop}
    (hnext : ∀ s s', Inv s → step s = .inl s' → Inv s')
    (hexit : ∀ s r, Inv s → step s = .inr r → Post r)
    {s : σ} {r : ρ} (h : Returns step s r) (hinv : Inv s) : Post r := by
  obtain ⟨n, hn⟩ := h
  induction n generalizing s with
  | zero => exact absurd hn (by simp [run])
  | succ n ih =>
      cases hs : step s with
      | inl s' =>
          rw [run_succ_next hs] at hn
          exact ih (hnext s s' hinv hs) hn
      | inr r' =>
          rw [run_succ_exit hs] at hn
          obtain rfl := Option.some.inj hn
          exact hexit s r' hinv hs

/-- The termination rule: a measure that falls at each pass, as long as the invariant holds,
bounds the number of passes. -/
theorem returns_of_measure {Inv : σ → Prop} (μ : σ → Nat)
    (hnext : ∀ s s', Inv s → step s = .inl s' → Inv s' ∧ μ s' < μ s)
    {s : σ} (hinv : Inv s) : ∃ r, Returns step s r := by
  -- strong induction on the measure: the next pass starts from a smaller one
  induction hn : μ s using Nat.strong_induction_on generalizing s with
  | _ n ih =>
      cases hs : step s with
      | inl s' =>
          obtain ⟨hinv', hlt⟩ := hnext s s' hinv hs
          obtain ⟨r, hr⟩ := ih (μ s') (hn ▸ hlt) hinv' rfl
          exact ⟨r, (returns_of_next hs).mpr hr⟩
      | inr r => exact ⟨r, (returns_of_exit hs).mpr rfl⟩

end WhileLoop
