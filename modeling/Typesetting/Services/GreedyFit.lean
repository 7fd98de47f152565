/-
# Typesetting.Services.GreedyFit -- how many lines `TryFitPage` puts on a page

`TryFitPage` counts down from the number of lines `HowManyLinesFit` allows and takes the first that
fits the page together with the notes. Two heights decide: the bound is made for the height
`AvailableMainHeight` leaves, the test adds up the height of the lines there are. The page is new
and has no notes in its columns yet, so the bound is 38 lines for every page, however high the
notes are. The test would admit 39 lines where there are hardly any notes, and admits more lines
than there are near the end of the text.
-/
import Mathlib.Data.Nat.Find
import Mathlib.Order.Bounds.Basic
import Mathlib.Tactic.NormNum
import Typesetting.Services.ColumnLayoutEngine
import Typesetting.Services.HeightCalculator

namespace Typesetting

namespace ColumnLayoutEngine

open HeightCalculator

/-- What is added for the title and the separator of a system that has notes. -/
def titleHeight (noteHeight : ℚ) : ℚ :=
  if 0 < noteHeight then LayoutConstants.footnoteSectionTitleHeight + 2 else 0

/-- `totalHeight` of the search: the lines, the notes, the running header and the titles. -/
def totalHeight (noteHeight : NoteSystem → ℚ) (tryLinesList : List Text) : ℚ :=
  let mainHeight := calculateMainHeight tryLinesList
  let totalHeight := mainHeight + noteHeight .A + noteHeight .B + noteHeight .C
  let totalHeight := totalHeight + LayoutConstants.runningHeaderHeight
  totalHeight + titleHeight (noteHeight .A) + titleHeight (noteHeight .B) +
    titleHeight (noteHeight .C)

/-- The height between the margins. -/
def bodyHeight : ℚ :=
  LayoutConstants.pageHeightPx - LayoutConstants.marginTop - LayoutConstants.marginBottom

/-- The lines from `startLine` on, the first `tryLines` of them, fit the page with the notes. -/
def LinesFit (noteHeight : NoteSystem → ℚ) (wrapped : List Text) (startLine tryLines : Nat) : Prop :=
  totalHeight noteHeight ((wrapped.drop startLine).take tryLines) ≤ bodyHeight

instance (noteHeight : NoteSystem → ℚ) (wrapped : List Text) (startLine tryLines : Nat) :
    Decidable (LinesFit noteHeight wrapped startLine tryLines) :=
  inferInstanceAs (Decidable (_ ≤ _))

/-- The loop, which goes down from `tryLines` and breaks at the first number that fits. -/
def greedySearch (noteHeight : NoteSystem → ℚ) (wrapped : List Text) (startLine : Nat) : Nat → Nat
  | 0 => 0
  | tryLines + 1 =>
    if LinesFit noteHeight wrapped startLine (tryLines + 1) then tryLines + 1
    else greedySearch noteHeight wrapped startLine tryLines

/-- The page with the heights of its notes, whose columns are still empty. -/
def measuredPage (pageNumber : Nat) (noteHeight : NoteSystem → ℚ) : PageModel :=
  { newPage pageNumber with
    footnoteAHeight := noteHeight .A
    footnoteBHeight := noteHeight .B
    footnoteCHeight := noteHeight .C }

/-- The value of `bestFit` after the search. -/
def bestFit (noteHeight : NoteSystem → ℚ) (wrapped : List Text) (startLine pageNumber : Nat) :
    Nat :=
  let maxLines := howManyLinesFit (availableMainHeight (measuredPage pageNumber noteHeight))
    LayoutConstants.fontSizeMain LayoutConstants.lineHeightMain
  let best := greedySearch noteHeight wrapped startLine maxLines.toNat
  -- at least one line
  if best = 0 then 1 else best

/-- The largest number of the remaining lines that fits, or one line if none does. -/
def IsLargestFit (noteHeight : NoteSystem → ℚ) (wrapped : List Text) (startLine best : Nat) :
    Prop :=
  let fitting := {n | 1 ≤ n ∧ n ≤ wrapped.length - startLine ∧
    LinesFit noteHeight wrapped startLine n}
  IsGreatest fitting best ∨ fitting = ∅ ∧ best = 1

section Search

variable {noteHeight : NoteSystem → ℚ} {wrapped : List Text} {startLine : Nat}

theorem greedySearch_eq_findGreatest (maxLines : Nat) :
    greedySearch noteHeight wrapped startLine maxLines =
      Nat.findGreatest (LinesFit noteHeight wrapped startLine) maxLines := by
  induction maxLines with
  | zero => rfl
  | succ tryLines ih => rw [greedySearch, ih, Nat.findGreatest_succ]

/-- The bound is the same for every page. -/
theorem maxLines_eq (pageNumber : Nat) (noteHeight : NoteSystem → ℚ) :
    howManyLinesFit (availableMainHeight (measuredPage pageNumber noteHeight))
      LayoutConstants.fontSizeMain LayoutConstants.lineHeightMain = 38 := by
  have havailable : availableMainHeight (measuredPage pageNumber noteHeight) = 935 := by
    show (1123 - 72 - 80 - (24 + (20 - 18) + 0 + 0 + 0 + 10) : ℚ) = 935
    norm_num
  rw [havailable]
  decide +kernel

/-- The height grows with the lines, as long as there are more. -/
theorem linesFit_iff (tryLines : Nat) :
    LinesFit noteHeight wrapped startLine tryLines ↔
      ((min tryLines (wrapped.length - startLine) : ℕ) : ℚ) * (364 / 15) +
        totalHeight noteHeight [] ≤ bodyHeight := by
  have hline : LayoutConstants.fontSizeMain * (96 / 72) * LayoutConstants.lineHeightMain =
      (364 / 15 : ℚ) := by
    show (13 * (96 / 72) * (7 / 5) : ℚ) = 364 / 15
    norm_num
  have hlen : ((wrapped.drop startLine).take tryLines).length =
      min tryLines (wrapped.length - startLine) := by
    rw [List.length_take, List.length_drop]
  have hheight : totalHeight noteHeight ((wrapped.drop startLine).take tryLines) =
      ((min tryLines (wrapped.length - startLine) : ℕ) : ℚ) * (364 / 15) +
        totalHeight noteHeight [] := by
    unfold totalHeight calculateMainHeight
    rw [measureBlockHeight_eq, measureBlockHeight_eq, hline, hlen, List.length_nil, Nat.cast_zero]
    ring
  rw [LinesFit, hheight]

/-- What fits still fits with fewer lines. -/
theorem LinesFit.of_le {m n : Nat} (h : LinesFit noteHeight wrapped startLine n)
    (hmn : min m (wrapped.length - startLine) ≤ min n (wrapped.length - startLine)) :
    LinesFit noteHeight wrapped startLine m := by
  rw [linesFit_iff] at h ⊢
  have hcast : ((min m (wrapped.length - startLine) : ℕ) : ℚ) ≤
      (min n (wrapped.length - startLine) : ℕ) := Nat.cast_le.mpr hmn
  linarith

theorem bestFit_eq (pageNumber : Nat) :
    bestFit noteHeight wrapped startLine pageNumber =
      if Nat.findGreatest (LinesFit noteHeight wrapped startLine) 38 = 0 then 1
      else Nat.findGreatest (LinesFit noteHeight wrapped startLine) 38 := by
  unfold bestFit
  simp only [maxLines_eq, greedySearch_eq_findGreatest]
  rfl

/-- If one line fits, the search finds the most lines up to its bound. -/
theorem bestFit_of_fits (h : LinesFit noteHeight wrapped startLine 1) (pageNumber : Nat) :
    IsGreatest {n | n ≤ 38 ∧ LinesFit noteHeight wrapped startLine n}
      (bestFit noteHeight wrapped startLine pageNumber) ∧
      1 ≤ bestFit noteHeight wrapped startLine pageNumber := by
  have hone : 1 ≤ Nat.findGreatest (LinesFit noteHeight wrapped startLine) 38 :=
    Nat.le_findGreatest (by decide) h
  have hbest : bestFit noteHeight wrapped startLine pageNumber =
      Nat.findGreatest (LinesFit noteHeight wrapped startLine) 38 := by
    rw [bestFit_eq, if_neg (by omega)]
  rw [hbest]
  refine ⟨⟨⟨Nat.findGreatest_le 38, Nat.findGreatest_spec (by decide) h⟩, ?_⟩, hone⟩
  rintro n ⟨hle, hfit⟩
  exact Nat.le_findGreatest hle hfit

/-- If not even one line fits, no number of lines does. -/
theorem bestFit_of_not_fits (hstart : startLine < wrapped.length)
    (h : ¬ LinesFit noteHeight wrapped startLine 1) (pageNumber : Nat) :
    bestFit noteHeight wrapped startLine pageNumber = 1 ∧
      ∀ n, 1 ≤ n → ¬ LinesFit noteHeight wrapped startLine n := by
  have hnone : ∀ n, 1 ≤ n → ¬ LinesFit noteHeight wrapped startLine n :=
    fun n hn hfit => h (hfit.of_le (by omega))
  refine ⟨?_, hnone⟩
  rw [bestFit_eq, if_pos (Nat.findGreatest_eq_zero_iff.mpr fun n hn _ => hnone n hn)]

/-- `TryFitPage` takes as many lines as fit exactly when 38 lines remain or 39, or all that remain
when there are fewer, do not fit. -/
theorem bestFit_isLargestFit_iff (hstart : startLine < wrapped.length) (pageNumber : Nat) :
    IsLargestFit noteHeight wrapped startLine
        (bestFit noteHeight wrapped startLine pageNumber) ↔
      wrapped.length - startLine = 38 ∨ ¬ LinesFit noteHeight wrapped startLine 39 := by
  by_cases hone : LinesFit noteHeight wrapped startLine 1
  · obtain ⟨⟨⟨hbound, hfit⟩, hmax⟩, hpos⟩ := bestFit_of_fits hone pageNumber
    generalize bestFit noteHeight wrapped startLine pageNumber = best at hbound hfit hmax hpos ⊢
    have hsome : {n | 1 ≤ n ∧ n ≤ wrapped.length - startLine ∧
        LinesFit noteHeight wrapped startLine n} ≠ ∅ :=
      Set.Nonempty.ne_empty ⟨1, le_rfl, by omega, hone⟩
    constructor
    · rintro (⟨⟨-, hremain, -⟩, hlargest⟩ | ⟨hempty, -⟩)
      · by_contra hcut
        simp only [not_or, not_not] at hcut
        by_cases hmany : 38 < wrapped.length - startLine
        · -- the bound cuts off the 39th line
          have hle : 39 ≤ best := hlargest ⟨by omega, by omega, hcut.2⟩
          omega
        · -- the search counts lines that are not there
          have hle : 38 ≤ best := hmax ⟨le_rfl, hcut.2.of_le (by omega)⟩
          omega
      · exact absurd hempty hsome
    · intro hcond
      refine .inl ⟨⟨hpos, ?_, hfit⟩, ?_⟩
      · rcases hcond with hexact | hnot
        · omega
        · by_contra hmore
          exact hnot (hfit.of_le (by omega))
      · rintro n ⟨-, hremain, hn⟩
        by_cases hfew : n ≤ 38
        · exact hmax ⟨hfew, hn⟩
        · rcases hcond with hexact | hnot
          · omega
          · exact absurd (hn.of_le (by omega)) hnot
  · obtain ⟨hbest, hnone⟩ := bestFit_of_not_fits hstart hone pageNumber
    refine iff_of_true (.inr ⟨?_, hbest⟩) (.inr (hnone 39 (by decide)))
    exact Set.eq_empty_of_forall_notMem fun n hn => hnone n hn.1 hn.2.2

end Search

/-- Forty lines and notes of three hundred pixels. -/
theorem bestFit_isLargestFit_high_notes :
    IsLargestFit (fun system => if system = .A then 300 else 0) (List.replicate 40 []) 0
      (bestFit (fun system => if system = .A then 300 else 0) (List.replicate 40 []) 0 1) :=
  (bestFit_isLargestFit_iff (by decide) 1).mpr (.inr (by decide +kernel))

/-- Forty lines without notes: 39 fit, 38 are taken. -/
theorem bestFit_leaves_room :
    ¬ IsLargestFit (fun _ => 0) (List.replicate 40 []) 0
      (bestFit (fun _ => 0) (List.replicate 40 []) 0 1) := by
  have hbest : bestFit (fun _ => 0) (List.replicate 40 []) 0 1 = 38 := by decide +kernel
  have hfits : LinesFit (fun _ => 0) (List.replicate 40 []) 0 39 := by decide +kernel
  rw [hbest]
  rintro (⟨-, hlargest⟩ | ⟨-, hone⟩)
  · exact absurd (hlargest ⟨by decide, by decide, hfits⟩) (by decide)
  · exact absurd hone (by decide)

end ColumnLayoutEngine

end Typesetting
