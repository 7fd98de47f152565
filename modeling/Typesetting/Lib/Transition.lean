/-
# Typesetting.Lib.Transition -- finite runs of a transition relation

A run from a state is the list of its moves, each with the state before it, the action taken and
the state after it. The exactness rule speaks about a property that some moves break: when a
condition on the state before a move and its action decides whether the property holds after the
move, then all states of a run have the property exactly when all its moves meet the condition.
A property that no move breaks is the case of the condition that always holds.
-/
import Mathlib.Data.Nat.Init

namespace Transition

variable {σ α : Type*}

/-- One move of a run. -/
structure Move (σ α : Type*) where
  before : σ
  action : α
  after : σ

/-- The moves lead on from one another, the first of them from `s`. -/
inductive Run (step : σ → α → σ → Prop) : σ → List (Move σ α) → Prop
  | stop (s : σ) : Run step s []
  | move {s s' : σ} {a : α} {rest : List (Move σ α)} :
      step s a s' → Run step s' rest → Run step s (⟨s, a, s'⟩ :: rest)

/-- The states of a run, its first one included. -/
def visited (s : σ) (moves : List (Move σ α)) : List σ :=
  s :: moves.map Move.after

theorem forall_visited_cons {Inv : σ → Prop} {s s' : σ} {a : α} {rest : List (Move σ α)} :
    (∀ t ∈ visited s (⟨s, a, s'⟩ :: rest), Inv t) ↔ Inv s ∧ ∀ t ∈ visited s' rest, Inv t := by
  simp [visited]

/-- The exactness rule, over an invariant `Base` that every move keeps. -/
theorem Run.forall_visited_iff {step : σ → α → σ → Prop} {Base Inv : σ → Prop} {Ok : σ → α → Prop}
    (hbase : ∀ s a s', Base s → step s a s' → Base s')
    (hexact : ∀ s a s', Base s → Inv s → step s a s' → (Inv s' ↔ Ok s a))
    {s : σ} {moves : List (Move σ α)} (hrun : Run step s moves) (hs : Base s) (hinv : Inv s) :
    (∀ t ∈ visited s moves, Inv t) ↔ ∀ m ∈ moves, Ok m.before m.action := by
  induction hrun with
  | stop s => simpa [visited] using hinv
  | @move s s' a rest hmove _ ih =>
      have hiff := hexact s a s' hs hinv hmove
      rw [forall_visited_cons, List.forall_mem_cons]
      constructor
      · rintro ⟨-, hrest⟩
        -- the state after the move is the first one the rest visits
        have hinv' : Inv s' := hrest s' (List.mem_cons_self)
        exact ⟨hiff.mp hinv', (ih (hbase _ _ _ hs hmove) hinv').mp hrest⟩
      · rintro ⟨hok, hrest⟩
        have hinv' : Inv s' := hiff.mpr hok
        exact ⟨hinv, (ih (hbase _ _ _ hs hmove) hinv').mpr hrest⟩

/-- An invariant that every move keeps holds before each of them, and each is a step. -/
theorem Run.forall_move {step : σ → α → σ → Prop} {Base : σ → Prop}
    (hbase : ∀ s a s', Base s → step s a s' → Base s') {s : σ} {moves : List (Move σ α)}
    (hrun : Run step s moves) (hs : Base s) :
    ∀ m ∈ moves, Base m.before ∧ step m.before m.action m.after := by
  induction hrun with
  | stop s => exact fun _ hm => nomatch hm
  | @move s s' a rest hmove _ ih =>
      intro m hm
      rcases List.mem_cons.mp hm with rfl | hm
      · exact ⟨hs, hmove⟩
      · exact ih (hbase _ _ _ hs hmove) m hm

/-- Two systems whose steps agree on the states of an invariant have the same runs from them. -/
theorem run_congr {step step' : σ → α → σ → Prop} {Base : σ → Prop}
    (hbase : ∀ s a s', Base s → step s a s' → Base s')
    (hagree : ∀ s a s', Base s → (step' s a s' ↔ step s a s')) {s : σ} {moves : List (Move σ α)}
    (hs : Base s) : Run step' s moves ↔ Run step s moves := by
  constructor
  · intro hrun
    induction hrun with
    | stop s => exact .stop s
    | @move s s' a rest hmove _ ih =>
        have hstep : step s a s' := (hagree s a s' hs).mp hmove
        exact .move hstep (ih (hbase s a s' hs hstep))
  · intro hrun
    induction hrun with
    | stop s => exact .stop s
    | @move s s' a rest hmove _ ih =>
        exact .move ((hagree s a s' hs).mpr hmove) (ih (hbase s a s' hs hmove))

/-! ## The end of a run -/

/-- The state a run ends in. -/
def last (s : σ) : List (Move σ α) → σ
  | [] => s
  | move :: rest => last move.after rest

/-- Some run ends in the state. -/
def Reachable (step : σ → α → σ → Prop) (s t : σ) : Prop :=
  ∃ moves, Run step s moves ∧ last s moves = t

namespace Reachable

variable {step : σ → α → σ → Prop} {s t t' : σ}

theorem start (s : σ) : Reachable step s s :=
  ⟨[], .stop s, rfl⟩

/-- A run may go on. -/
theorem next {a : α} (h : Reachable step s t) (hstep : step t a t') : Reachable step s t' := by
  obtain ⟨moves, hrun, hlast⟩ := h
  induction hrun with
  | stop s =>
      obtain rfl : s = t := hlast
      exact ⟨[⟨s, a, t'⟩], .move hstep (.stop t'), rfl⟩
  | move hmove _ ih =>
      obtain ⟨moves, hrun, hafter⟩ := ih hlast
      exact ⟨_ :: moves, .move hmove hrun, hafter⟩

/-- What every move keeps holds wherever a run ends. -/
theorem invariant {Base : σ → Prop} (hbase : ∀ s a s', Base s → step s a s' → Base s')
    (h : Reachable step s t) (hs : Base s) : Base t := by
  obtain ⟨moves, hrun, hlast⟩ := h
  induction hrun with
  | stop s =>
      obtain rfl : s = t := hlast
      exact hs
  | @move s s' a rest hmove _ ih => exact ih (hbase s a s' hs hmove) hlast

end Reachable

/-- An invariant that depends on whether an action of a certain kind has been taken. -/
theorem Run.last_of_history {step : σ → α → σ → Prop} {Inv : Bool → σ → Prop} {kind : α → Bool}
    (hstep : ∀ taken s a s', Inv taken s → step s a s' → Inv (taken || kind a) s')
    {s : σ} {moves : List (Move σ α)} (hrun : Run step s moves) {taken : Bool} (hs : Inv taken s) :
    Inv (taken || moves.any fun m => kind m.action) (last s moves) := by
  induction hrun generalizing taken with
  | stop s =>
      rw [List.any_nil, Bool.or_false]
      exact hs
  | @move s s' a rest hmove _ ih =>
      have hrest := ih (hstep taken s a s' hs hmove)
      rw [List.any_cons, ← Bool.or_assoc]
      exact hrest

/-- What the moves add to a record, each in the light of what the moves before have made of a
value that is kept along the way. -/
def recorded {β γ : Type*} (next : γ → Move σ α → γ) (added : γ → Move σ α → List β) :
    γ → List (Move σ α) → List β
  | _, [] => []
  | kept, move :: rest => added kept move ++ recorded next added (next kept move) rest

theorem recorded_map {β β' γ : Type*} (f : β → β') (next : γ → Move σ α → γ)
    (added : γ → Move σ α → List β) (kept : γ) (moves : List (Move σ α)) :
    (recorded next added kept moves).map f =
      recorded next (fun kept move => (added kept move).map f) kept moves := by
  induction moves generalizing kept with
  | nil => rfl
  | cons move rest ih => rw [recorded, recorded, List.map_append, ih]

/-- What every move adds to a record, all moves have added in their order. -/
theorem Run.record_last {β γ : Type*} {step : σ → α → σ → Prop} {Base : σ → Prop}
    {record : σ → List β} {kept : σ → γ} {next : γ → Move σ α → γ}
    {added : γ → Move σ α → List β}
    (hbase : ∀ s a s', Base s → step s a s' → Base s')
    (hkept : ∀ s a s', Base s → step s a s' → kept s' = next (kept s) ⟨s, a, s'⟩)
    (hrecord : ∀ s a s', Base s → step s a s' →
      record s' = record s ++ added (kept s) ⟨s, a, s'⟩)
    {s : σ} {moves : List (Move σ α)} (hrun : Run step s moves) (hs : Base s) :
    record (last s moves) = record s ++ recorded next added (kept s) moves := by
  induction hrun with
  | stop s => exact (List.append_nil _).symm
  | @move s s' a rest hmove _ ih =>
      rw [recorded, ← List.append_assoc, ← hrecord s a s' hs hmove, ← hkept s a s' hs hmove]
      exact ih (hbase s a s' hs hmove)

end Transition
