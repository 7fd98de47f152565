/-
# Typesetting.Rendering.WordPlacement -- where the renderer puts the words of a justified line

`RenderJustifiedLine` goes from right to left: it subtracts the width of a word from the running
position and passes the position on to `DrawText`, which aligns to the right and subtracts the
width again. Every word ends up to the left of its place by its own width. Such words lie in
their order, and fill the column, only where these shifts do no harm.

Widths and positions are `double`s in the code, which rounds each sum and quotient, and exact
rational numbers here. That a word is as wide as the column, or lies exactly at an edge, is said of
these.
-/
import Typesetting.Lib.Justify
import Typesetting.Rendering.PageRenderer

namespace Typesetting

namespace PageRenderer

/-- What a child takes of the horizontal line. -/
def Child.span (measure : TextMeasure) (c : Child) : Justify.Span ℚ :=
  match c.shape with
  | .rectangle left _ width _ => ⟨left, width⟩
  | .line x1 _ x2 _ _ => ⟨min x1 x2, |x2 - x1|⟩
  | .textBlock text left _ fontSize => ⟨left, measure text fontSize⟩

/-- Items that follow one another from right to left and fill the column. -/
structure FillsFromRight (x width : ℚ) (spans : List (Justify.Span ℚ)) : Prop where
  apart : spans.IsChain fun a b => b.stop ≤ a.start
  starts : ∀ a ∈ spans.head?, a.stop = x + width
  ends : ∀ a ∈ spans.getLast?, a.start = x

/-- The widths of the words of a line. -/
def wordWidths (measure : TextMeasure) (line : Text) (fontSize : ℚ) : List ℚ :=
  (wordsOf line).map fun word => measure word fontSize

section Placement

variable {measure : TextMeasure} {layer : Layer} {line : Text} {x y width fontSize : ℚ}

theorem length_wordWidths :
    (wordWidths measure line fontSize).length = (wordsOf line).length :=
  List.length_map _

/-- An item seen from the right edge, shifted away from it by its own width. -/
def shiftFromRight (rightX : ℚ) (a : Justify.Span ℚ) : Justify.Span ℚ :=
  ⟨rightX - a.stop - a.width, a.width⟩

/-- The width of a word is subtracted twice. -/
theorem span_drawWords (gap rightX start : ℚ) (words : List Text) :
    (drawWords measure layer y fontSize gap words (rightX - start)).map (Child.span measure) =
      (Justify.place gap start (words.map fun word => measure word fontSize)).map
        (shiftFromRight rightX) := by
  induction words generalizing start with
  | nil => rfl
  | cons word words ih =>
      have hleft : rightX - start - measure word fontSize - measure word fontSize =
          rightX - (start + measure word fontSize) - measure word fontSize := by ring
      have hnext : rightX - start - measure word fontSize - gap =
          rightX - (start + measure word fontSize + gap) := by ring
      rw [drawWords, List.map_cons, List.map_cons, Justify.place_cons, List.map_cons, hnext, ih]
      show (⟨rightX - start - measure word fontSize - measure word fontSize, _⟩ :
        Justify.Span ℚ) :: _ = _
      rw [hleft]
      rfl

/-- The gap between the words of a line. -/
def gapOf (measure : TextMeasure) (line : Text) (width fontSize : ℚ) : ℚ :=
  Justify.gapOf width (wordWidths measure line fontSize)

/-- Words that fit the column leave a gap that need not be cut to zero. -/
theorem renderJustifiedLine_eq (hwords : 2 ≤ (wordsOf line).length)
    (hsum : (wordWidths measure line fontSize).sum ≤ width) :
    renderJustifiedLine measure layer line x y width fontSize =
      drawWords measure layer y fontSize (gapOf measure line width fontSize) (wordsOf line)
        (x + width) := by
  have hlen : 2 ≤ (wordWidths measure line fontSize).length := by
    rwa [length_wordWidths]
  have hgap : ¬ gapOf measure line width fontSize < 0 :=
    not_lt.mpr ((Justify.gapOf_nonneg_iff hlen).mpr hsum)
  unfold gapOf Justify.gapOf wordWidths at hgap ⊢
  rw [List.length_map] at hgap ⊢
  unfold renderJustifiedLine
  match hline : wordsOf line, hwords with
  | v :: w :: words, _ =>
      rw [hline] at hgap
      simp only [if_neg hgap]

theorem span_renderJustifiedLine (hwords : 2 ≤ (wordsOf line).length)
    (hsum : (wordWidths measure line fontSize).sum ≤ width) :
    (renderJustifiedLine measure layer line x y width fontSize).map (Child.span measure) =
      (Justify.place (gapOf measure line width fontSize) 0 (wordWidths measure line fontSize)).map
        (shiftFromRight (x + width)) := by
  have hspans := @span_drawWords measure layer y fontSize (gapOf measure line width fontSize)
    (x + width) 0 (wordsOf line)
  rw [renderJustifiedLine_eq hwords hsum, wordWidths]
  rw [sub_zero] at hspans
  exact hspans

/-- A word wider than the gap and the next word is drawn over the next word. -/
theorem apart_shifted_iff {rightX gap start : ℚ} {ws : List ℚ} :
    (((Justify.place gap start ws).map (shiftFromRight rightX)).IsChain
        fun a b => b.stop ≤ a.start) ↔ ws.IsChain fun v w => v ≤ gap + w := by
  rw [List.isChain_map]
  apply Justify.isChain_place_iff
  intro s v w
  show rightX - (s + v + gap + w) - w + w ≤ rightX - (s + v) - v ↔ v ≤ gap + w
  constructor
  · intro h
    linarith
  · intro h
    linarith

theorem starts_shifted_iff {rightX gap : ℚ} {ws : List ℚ} :
    (∀ a ∈ ((Justify.place gap 0 ws).map (shiftFromRight rightX)).head?, a.stop = rightX) ↔
      ∀ w ∈ ws.head?, w = 0 := by
  have hstop : ∀ w : ℚ, (shiftFromRight rightX ⟨0, w⟩).stop = rightX - w := by
    intro w
    show rightX - (0 + w) - w + w = rightX - w
    ring
  rw [List.head?_map, Justify.head?_place]
  cases ws.head? with
  | none => simp
  | some w => simp [hstop]

theorem ends_shifted_iff {x width : ℚ} {ws : List ℚ} (h : 2 ≤ ws.length) :
    (∀ a ∈ ((Justify.place (Justify.gapOf width ws) 0 ws).map
        (shiftFromRight (x + width))).getLast?, a.start = x) ↔ ∀ w ∈ ws.getLast?, w = 0 := by
  have hstop : ∀ a ∈ (Justify.place (Justify.gapOf width ws) 0 ws).getLast?, a.stop = 0 + width :=
    Justify.stop_getLast?_place h
  have hwidth : ws.getLast? = (Justify.place (Justify.gapOf width ws) 0 ws).getLast?.map
      Justify.Span.width := by
    rw [← List.getLast?_map, Justify.map_width_place]
  rw [List.getLast?_map, hwidth]
  cases hlast : (Justify.place (Justify.gapOf width ws) 0 ws).getLast? with
  | none => simp
  | some a =>
      have hstart : (shiftFromRight (x + width) a).start = x - a.width := by
        show x + width - a.stop - a.width = x - a.width
        rw [hstop a hlast]
        ring
      simp [hstart]

/-- The words of a justified line that fits lie side by side and fill the column exactly when the
first and the last have no width and none is wider than the gap and the next word. -/
theorem renderJustifiedLine_fillsFromRight_iff (hwords : 2 ≤ (wordsOf line).length)
    (hsum : (wordWidths measure line fontSize).sum ≤ width) :
    FillsFromRight x width
        ((renderJustifiedLine measure layer line x y width fontSize).map (Child.span measure)) ↔
      (∀ w ∈ (wordWidths measure line fontSize).head?, w = 0) ∧
        (∀ w ∈ (wordWidths measure line fontSize).getLast?, w = 0) ∧
        (wordWidths measure line fontSize).IsChain fun v w =>
          v ≤ gapOf measure line width fontSize + w := by
  have hlen : 2 ≤ (wordWidths measure line fontSize).length := by
    rwa [length_wordWidths]
  rw [span_renderJustifiedLine hwords hsum]
  constructor
  · rintro ⟨hapart, hstarts, hends⟩
    exact ⟨starts_shifted_iff.mp hstarts, (ends_shifted_iff hlen).mp hends,
      apart_shifted_iff.mp hapart⟩
  · rintro ⟨hfirst, hlast, hchain⟩
    exact ⟨apart_shifted_iff.mpr hchain, starts_shifted_iff.mpr hfirst,
      (ends_shifted_iff hlen).mpr hlast⟩

/-- Words without a width fill any column. -/
theorem renderJustifiedLine_fillsFromRight_no_width :
    FillsFromRight 50 10 ((renderJustifiedLine (fun _ _ => 0) .mainText (utf16 "a b") 50 0 10 13).map
      (Child.span fun _ _ => 0)) :=
  (renderJustifiedLine_fillsFromRight_iff (by decide +kernel) (by decide +kernel)).mpr
    (by decide +kernel)

/-- Two words of width one in a column of width ten: the first is drawn from 58 to 59, the second
from 49 to 50. -/
theorem renderJustifiedLine_leaves_column :
    ¬ FillsFromRight 50 10 ((renderJustifiedLine (fun t _ => t.length) .mainText (utf16 "a b")
      50 0 10 13).map (Child.span fun t _ => t.length)) := by
  have hspans : (renderJustifiedLine (fun t _ => t.length) .mainText (utf16 "a b") 50 0 10 13).map
      (Child.span fun t _ => t.length) = [⟨58, 1⟩, ⟨49, 1⟩] := by decide +kernel
  rintro ⟨-, hstarts, -⟩
  rw [hspans] at hstarts
  exact absurd (hstarts ⟨58, 1⟩ rfl) (by decide +kernel)

end Placement

end PageRenderer

end Typesetting
