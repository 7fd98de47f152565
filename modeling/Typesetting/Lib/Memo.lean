/-
# Typesetting.Lib.Memo -- functions that remember what they returned

A call looks its key up in a table of values. On a miss the value is computed and kept under the
key; where there is nothing to compute, a fallback is returned and not kept. If the key of an
argument determines what is computed of it, a table that holds computed values only is never
noticed: every call returns what it would return with an empty table, whatever was called before.
-/
import Mathlib.Logic.Basic

namespace Memo

variable {α κ β : Type*}

/-- The values kept so far, by key. -/
abbrev Table (κ β : Type*) : Type _ :=
  κ → Option β

namespace Table

def empty : Table κ β :=
  fun _ => none

variable [DecidableEq κ]

/-- `table[key] = value` -/
def put (t : Table κ β) (key : κ) (value : β) : Table κ β :=
  fun k => if k = key then some value else t k

theorem put_eq_some {t : Table κ β} {key k : κ} {value v : β} (h : t.put key value k = some v) :
    (k = key ∧ value = v) ∨ t k = some v := by
  unfold put at h
  split at h
  · rename_i hkey
    exact .inl ⟨hkey, Option.some.inj h⟩
  · exact .inr h

end Table

/-! ## One call -/

section Call

variable (key : α → κ) (compute : α → Option β) (fallback : α → β)

/-- Arguments with one key have one computed value. -/
def Determines (args : α → Prop) : Prop :=
  ∀ a b, args a → args b → key a = key b → compute a = compute b

/-- Every value of the table was computed of an argument with its key. -/
def Faithful (args : α → Prop) (t : Table κ β) : Prop :=
  ∀ k value, t k = some value → ∃ a, args a ∧ key a = k ∧ compute a = some value

theorem faithful_empty {args : α → Prop} : Faithful key compute args Table.empty :=
  fun _ _ h => nomatch h

/-- What a call returns that remembers nothing. -/
def fresh (a : α) : β :=
  (compute a).getD (fallback a)

variable [DecidableEq κ]

/-- A call and the table it leaves. -/
def call (t : Table κ β) (a : α) : β × Table κ β :=
  match t (key a) with
  | some value => (value, t)
  | none =>
    match compute a with
    | some value => (value, t.put (key a) value)
    | none => (fallback a, t)

theorem call_empty_fst (a : α) :
    (call key compute fallback Table.empty a).1 = fresh compute fallback a := by
  unfold call fresh
  cases compute a <;> rfl

variable {key compute} {args : α → Prop} {t : Table κ β} {a : α}

theorem Faithful.put (ht : Faithful key compute args t) (ha : args a) {value : β}
    (hvalue : compute a = some value) : Faithful key compute args (t.put (key a) value) := by
  intro k v hv
  rcases Table.put_eq_some hv with ⟨rfl, rfl⟩ | hold
  · exact ⟨a, ha, rfl, hvalue⟩
  · exact ht k v hold

/-- A hit returns what a miss would compute. -/
theorem Faithful.call_fst (ht : Faithful key compute args t)
    (hkey : Determines key compute args) (ha : args a) :
    (call key compute fallback t a).1 = fresh compute fallback a := by
  unfold call fresh
  cases hhit : t (key a) with
  | some value =>
      obtain ⟨b, hb, hsame, hvalue⟩ := ht (key a) value hhit
      rw [hkey a b ha hb hsame.symm, hvalue]
      rfl
  | none => cases compute a <;> rfl

theorem Faithful.call_snd (ht : Faithful key compute args t) (ha : args a) :
    Faithful key compute args (call key compute fallback t a).2 := by
  unfold call
  cases hhit : t (key a) with
  | some value => exact ht
  | none =>
      cases hvalue : compute a with
      | some value => exact ht.put ha hvalue
      | none => exact ht

end Call

/-! ## A sequence of calls -/

section Answers

variable {σ : Type*}

/-- What the calls return one after another, each from the state the one before leaves. -/
def answers (step : σ → α → β × σ) : σ → List α → List β
  | _, [] => []
  | s, a :: as => (step s a).1 :: answers step (step s a).2 as

/-- The calls answer as if each were the first, if the state stays such that they do. -/
theorem answers_eq_map {step : σ → α → β × σ} {inv : σ → Prop} {args : α → Prop} {value : α → β}
    (hvalue : ∀ s a, inv s → args a → (step s a).1 = value a)
    (hinv : ∀ s a, inv s → args a → inv (step s a).2) {s : σ} (hs : inv s) {as : List α}
    (has : ∀ a ∈ as, args a) : answers step s as = as.map value := by
  induction as generalizing s with
  | nil => rfl
  | cons a as ih =>
      have ha := has a List.mem_cons_self
      have hrest := ih (hinv s a hs ha) fun b hb => has b (List.mem_cons_of_mem a hb)
      rw [answers, List.map_cons, hvalue s a hs ha, hrest]

end Answers

end Memo
