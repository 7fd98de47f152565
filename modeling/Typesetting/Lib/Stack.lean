/-
# Typesetting.Lib.Stack -- things drawn one below the other

A routine that draws row after row keeps a position and moves it down by the height of what it has
drawn. `Stacked lo items hi` says what such a routine draws between the position it starts from and
the one it ends at: rows, each below the one before, and within a row things that are related in
some way of their own, such as lying side by side.

Routines that follow one another are composed by `append`. What a caller wants to know of the whole
is that any two things lie in one row or one below the other, and that all of it lies between the
two positions.
-/
import Mathlib.Data.List.Pairwise
import Mathlib.Order.Basic

namespace Stack

variable {α β : Type*} [Preorder β]

/-- Rows from `lo` down to `hi`, the things of each row related by `Beside`. -/
inductive Stacked (top bottom : α → β) (Beside : α → α → Prop) : β → List α → β → Prop
  | nil {lo hi : β} : lo ≤ hi → Stacked top bottom Beside lo [] hi
  | row {lo mid hi : β} {row rest : List α} :
      lo ≤ mid → (∀ a ∈ row, lo ≤ top a ∧ bottom a ≤ mid) → row.Pairwise Beside →
      Stacked top bottom Beside mid rest hi → Stacked top bottom Beside lo (row ++ rest) hi

namespace Stacked

variable {top bottom : α → β} {Beside : α → α → Prop} {lo mid hi : β} {items rest : List α}

theorem le (h : Stacked top bottom Beside lo items hi) : lo ≤ hi := by
  induction h with
  | nil hle => exact hle
  | row hle _ _ _ ih => exact hle.trans ih

/-- A single thing is a row. -/
theorem single {a : α} (hle : lo ≤ hi) (htop : lo ≤ top a) (hbottom : bottom a ≤ hi) :
    Stacked top bottom Beside lo [a] hi := by
  have hrow : ∀ b ∈ [a], lo ≤ top b ∧ bottom b ≤ hi := by
    intro b hb
    obtain rfl := List.mem_singleton.mp hb
    exact ⟨htop, hbottom⟩
  exact .row hle hrow (List.pairwise_singleton _ _) (.nil le_rfl)

/-- The routine may start higher up. -/
theorem lift {lo' : β} (hle : lo' ≤ lo) (h : Stacked top bottom Beside lo items hi) :
    Stacked top bottom Beside lo' items hi := by
  cases h with
  | nil hlo => exact .nil (hle.trans hlo)
  | row hlo hrow hbeside hrest =>
      have hrow' : ∀ a ∈ _, lo' ≤ top a ∧ bottom a ≤ _ :=
        fun a ha => ⟨hle.trans (hrow a ha).1, (hrow a ha).2⟩
      exact .row (hle.trans hlo) hrow' hbeside hrest

/-- Two routines, one after the other. -/
theorem append (h : Stacked top bottom Beside lo items mid)
    (hrest : Stacked top bottom Beside mid rest hi) :
    Stacked top bottom Beside lo (items ++ rest) hi := by
  induction h with
  | nil hle => exact hrest.lift hle
  | row hle hrow hbeside _ ih =>
      rw [List.append_assoc]
      exact .row hle hrow hbeside (ih hrest)

/-- The routine may leave room behind what it has drawn. -/
theorem lower {hi' : β} (h : Stacked top bottom Beside lo items hi) (hle : hi ≤ hi') :
    Stacked top bottom Beside lo items hi' := by
  have happend := h.append (.nil hle)
  rwa [List.append_nil] at happend

/-- Everything lies between the two positions. -/
theorem between (h : Stacked top bottom Beside lo items hi) :
    ∀ a ∈ items, lo ≤ top a ∧ bottom a ≤ hi := by
  induction h with
  | nil => exact fun _ ha => nomatch ha
  | row hle hrow _ hrest ih =>
      intro a ha
      rcases List.mem_append.mp ha with ha | ha
      · exact ⟨(hrow a ha).1, (hrow a ha).2.trans hrest.le⟩
      · exact ⟨hle.trans (ih a ha).1, (ih a ha).2⟩

/-- Of two things the first lies beside the second or above it. -/
theorem pairwise (h : Stacked top bottom Beside lo items hi) :
    items.Pairwise fun a b => Beside a b ∨ bottom a ≤ top b := by
  induction h with
  | nil => exact .nil
  | row _ hrow hbeside hrest ih =>
      refine List.pairwise_append.mpr ⟨hbeside.imp fun hab => .inl hab, ih, ?_⟩
      intro a ha b hb
      exact .inr ((hrow a ha).2.trans (hrest.between b hb).1)

/-- Two routines that start at one height and draw beside one another are a row. -/
theorem beside {hi' end' : β} {items' : List α} (h : Stacked top bottom Beside lo items hi)
    (h' : Stacked top bottom Beside lo items' hi') (hle : hi ≤ end') (hle' : hi' ≤ end')
    (habove : ∀ a b, bottom a ≤ top b → Beside a b)
    (hacross : ∀ a ∈ items, ∀ b ∈ items', Beside a b) :
    Stacked top bottom Beside lo (items ++ items') end' := by
  have hrow : ∀ a ∈ items ++ items', lo ≤ top a ∧ bottom a ≤ end' := by
    intro a ha
    rcases List.mem_append.mp ha with ha | ha
    · exact ⟨(h.between a ha).1, (h.between a ha).2.trans hle⟩
    · exact ⟨(h'.between a ha).1, (h'.between a ha).2.trans hle'⟩
  have hbeside : (items ++ items').Pairwise Beside :=
    List.pairwise_append.mpr
      ⟨h.pairwise.imp fun hab => hab.elim id (habove _ _),
        h'.pairwise.imp fun hab => hab.elim id (habove _ _), hacross⟩
  have happend := Stacked.row (h.le.trans hle) hrow hbeside (.nil (le_refl end'))
  rwa [List.append_nil] at happend

end Stacked

end Stack
