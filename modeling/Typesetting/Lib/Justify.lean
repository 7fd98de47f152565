/-
# Typesetting.Lib.Justify -- laying widths out along a line

Items of given widths are placed one behind the other from a start, with one and the same gap
between them. The spans keep apart exactly when the gap is not negative. A gap that shares out what
a line has left over makes the last item end where the line ends, and it is negative exactly when
the items are wider than the line together.
-/
import Mathlib.Algebra.Order.BigOperators.Group.List
import Mathlib.Algebra.Order.Field.Basic
import Mathlib.Data.List.Chain
import Mathlib.Tactic.Linarith
import Mathlib.Tactic.Ring

namespace Justify

variable {K : Type*} [Field K]

/-- An item on a line. -/
structure Span (K : Type*) where
  start : K
  width : K
  deriving DecidableEq

def Span.stop (a : Span K) : K :=
  a.start + a.width

/-- The items from `start` on, with `gap` between them. -/
def place (gap : K) : K → List K → List (Span K)
  | _, [] => []
  | start, w :: ws => ⟨start, w⟩ :: place gap (start + w + gap) ws

/-- The gap that shares out what a line of the given length has left over. -/
def gapOf (length : K) (ws : List K) : K :=
  (length - ws.sum) / (ws.length - 1 : ℕ)

section Place

variable {gap start : K} {ws : List K}

@[simp] theorem place_nil : place gap start [] = [] := rfl

theorem place_cons (w : K) :
    place gap start (w :: ws) = ⟨start, w⟩ :: place gap (start + w + gap) ws := rfl

theorem head?_place : (place gap start ws).head? = ws.head?.map fun w => ⟨start, w⟩ := by
  cases ws <;> rfl

theorem map_width_place : (place gap start ws).map Span.width = ws := by
  induction ws generalizing start with
  | nil => rfl
  | cons w ws ih => rw [place_cons, List.map_cons, ih]

/-- The last item stands behind the others and their gaps. -/
theorem place_concat (w : K) :
    place gap start (ws ++ [w]) =
      place gap start ws ++ [⟨start + ws.sum + gap * ws.length, w⟩] := by
  induction ws generalizing start with
  | nil => simp [place]
  | cons v ws ih =>
      have hstart : start + v + gap + ws.sum + gap * ws.length =
          start + (v :: ws).sum + gap * (v :: ws).length := by
        rw [List.sum_cons, List.length_cons, Nat.cast_add_one]
        ring
      rw [List.cons_append, place_cons, ih, hstart]
      rfl

/-- What holds between neighbours whatever the place holds along the line. -/
theorem isChain_place_iff {R : Span K → Span K → Prop} {Q : K → K → Prop}
    (h : ∀ s v w, R ⟨s, v⟩ ⟨s + v + gap, w⟩ ↔ Q v w) :
    (place gap start ws).IsChain R ↔ ws.IsChain Q := by
  induction ws generalizing start with
  | nil => simp
  | cons v ws ih =>
      cases ws with
      | nil => simp [place]
      | cons w ws =>
          have hrest := @ih (start + v + gap)
          rw [place_cons] at hrest
          rw [place_cons, place_cons, List.isChain_cons_cons, hrest, List.isChain_cons_cons, h]

end Place

/-- A relation that does not look at its arguments holds along a list of two or more. -/
theorem isChain_const_iff {α : Type*} {p : Prop} {l : List α} (h : 2 ≤ l.length) :
    l.IsChain (fun _ _ => p) ↔ p := by
  match l, h with
  | a :: b :: l, _ =>
      constructor
      · intro hchain
        exact (List.isChain_cons_cons.mp hchain).1
      · intro hp
        induction l generalizing a b with
        | nil => exact List.isChain_pair.mpr hp
        | cons c l ih => exact List.isChain_cons_cons.mpr ⟨hp, ih b c (by simp)⟩

section Order

variable [LinearOrder K] [IsStrictOrderedRing K] {gap start : K} {ws : List K}

/-- The spans follow one another exactly when the gap is not negative. -/
theorem apart_place_iff (h : 2 ≤ ws.length) :
    ((place gap start ws).IsChain fun a b => a.stop ≤ b.start) ↔ 0 ≤ gap := by
  rw [isChain_place_iff (Q := fun _ _ => 0 ≤ gap), isChain_const_iff h]
  intro s v w
  show s + v ≤ s + v + gap ↔ 0 ≤ gap
  exact le_add_iff_nonneg_right (s + v)

theorem gapOf_nonneg_iff {length : K} (h : 2 ≤ ws.length) :
    0 ≤ gapOf length ws ↔ ws.sum ≤ length := by
  have hpos : (0 : K) < (ws.length - 1 : ℕ) := by
    rw [Nat.cast_pos]
    omega
  unfold gapOf
  rw [le_div_iff₀ hpos, zero_mul, sub_nonneg]

/-- The gaps take up what the items leave. -/
theorem sum_add_gaps {length : K} (h : 2 ≤ ws.length) :
    ws.sum + gapOf length ws * (ws.length - 1 : ℕ) = length := by
  have hne : ((ws.length - 1 : ℕ) : K) ≠ 0 := by
    rw [Nat.cast_ne_zero]
    omega
  unfold gapOf
  rw [div_mul_cancel₀ _ hne]
  ring

/-- The last item of a justified line ends where the line does. -/
theorem stop_getLast?_place {length : K} (h : 2 ≤ ws.length) :
    ∀ a ∈ (place (gapOf length ws) start ws).getLast?, a.stop = start + length := by
  intro a ha
  have hsum : ws.sum + gapOf length ws * (ws.length - 1 : ℕ) = length := sum_add_gaps h
  rcases List.eq_nil_or_concat ws with rfl | ⟨before, w, rfl⟩
  · simp at ha
  · rw [List.concat_eq_append] at *
    rw [place_concat, List.getLast?_concat, Option.mem_some_iff] at ha
    rw [← ha]
    simp only [List.length_append, List.length_singleton, Nat.add_sub_cancel, List.sum_append,
      List.sum_singleton] at hsum
    show start + before.sum + gapOf length (before ++ [w]) * before.length + w = start + length
    linarith

theorem start_le_of_mem_place (hgap : 0 ≤ gap) (hws : ∀ w ∈ ws, 0 ≤ w) :
    ∀ a ∈ place gap start ws, start ≤ a.start := by
  induction ws generalizing start with
  | nil => exact fun _ ha => nomatch ha
  | cons w ws ih =>
      obtain ⟨hw, hrest⟩ := List.forall_mem_cons.mp hws
      intro a ha
      rcases List.mem_cons.mp ha with rfl | ha
      · exact le_refl start
      · have hle := ih hrest a ha
        linarith

/-- Of two items the first ends before the second starts, also where others lie between them. -/
theorem pairwise_place (hgap : 0 ≤ gap) (hws : ∀ w ∈ ws, 0 ≤ w) :
    (place gap start ws).Pairwise fun a b => a.stop ≤ b.start := by
  induction ws generalizing start with
  | nil => exact .nil
  | cons w ws ih =>
      obtain ⟨-, hrest⟩ := List.forall_mem_cons.mp hws
      refine List.pairwise_cons.mpr ⟨fun b hb => ?_, ih hrest⟩
      have hle := start_le_of_mem_place hgap hrest b hb
      show start + w ≤ b.start
      linarith

/-- Items that are no wider than the line together lie on it. -/
theorem between_place {length : K} (h : 2 ≤ ws.length) (hws : ∀ w ∈ ws, 0 ≤ w)
    (hsum : ws.sum ≤ length) :
    ∀ a ∈ place (gapOf length ws) start ws, start ≤ a.start ∧ a.stop ≤ start + length := by
  have hgap := (gapOf_nonneg_iff h).mpr hsum
  have hwidth : ∀ a ∈ place (gapOf length ws) start ws, 0 ≤ a.width := by
    intro a ha
    apply hws
    rw [← @map_width_place K _ (gapOf length ws) start ws]
    exact List.mem_map_of_mem ha
  have hapart := @pairwise_place K _ _ _ _ start _ hgap hws
  have hlast := @stop_getLast?_place K _ _ _ start ws length h
  intro a ha
  refine ⟨start_le_of_mem_place hgap hws a ha, ?_⟩
  rcases List.eq_nil_or_concat (place (gapOf length ws) start ws) with hnil | ⟨init, z, hinit⟩
  · rw [hnil] at ha
    cases ha
  · rw [List.concat_eq_append] at hinit
    rw [hinit] at ha hapart hlast hwidth
    have hz : z.stop = start + length := hlast z (by rw [List.getLast?_concat]; rfl)
    rcases List.mem_append.mp ha with ha | ha
    · -- an item that is not the last ends before the last one starts
      have hbefore := (List.pairwise_append.mp hapart).2.2 a ha z List.mem_cons_self
      have hnonneg := hwidth z (List.mem_append_right _ List.mem_cons_self)
      have hstop : z.stop = z.start + z.width := rfl
      linarith
    · obtain rfl := List.mem_singleton.mp ha
      exact hz.le

end Order

end Justify
