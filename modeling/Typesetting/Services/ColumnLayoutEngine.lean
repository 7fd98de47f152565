/-
# Typesetting.Services.ColumnLayoutEngine -- the loop over two-column pages

`Paginate` wraps the main text to the column width and then makes pages: `TryFitPage` proposes one,
an empty proposal is replaced by a page with a single line, the running header is set, and the loop
goes on behind the lines of the two columns. What `TryFitPage` puts on its page is a parameter, as
its fitting code is incomplete; its page carries the page number it is given. What is assumed of
the proposal is that its columns are `DistributeToColumns` of lines that follow one another from
the start line, of none at the least.
-/
import Mathlib.Algebra.Order.Floor.Semiring
import Mathlib.Data.Rat.Floor
import Typesetting.Lib.WhileLoop
import Typesetting.Models.PageModel
import Typesetting.Services.TextParser

namespace Typesetting

namespace ColumnLayoutEngine

/-- `_mainWrapped` after `PreWrapAllText()`. -/
def mainWrapped (measure : TextMeasure) (document : ParsedDocument) : List Text :=
  TextParser.wrapLinesToWidth measure document.mainLines LayoutConstants.columnWidth
    LayoutConstants.fontSizeMain

/-- `DistributeToColumns(page, allLines)` -/
def distributeToColumns (page : PageModel) (allLines : List Text) : PageModel :=
  let totalLines := allLines.length
  if totalLines = 0 then page
  else
    let rightCount := ⌈(totalLines : ℚ) / 2⌉₊
    let leftCount := totalLines - rightCount
    { page with
      mainRight := allLines.take rightCount
      mainLeft := (allLines.drop rightCount).take leftCount }

/-- `footnotes.Take(rightCount)` and `footnotes.Skip(rightCount)` -/
def footnoteColumns (footnotes : List Text) : List Text × List Text :=
  let rightCount := (footnotes.length + 1) / 2
  (footnotes.take rightCount, footnotes.drop rightCount)

/-- `DistributeFootnotesToPage(page, footnotesA, footnotesB, footnotesC)` -/
def distributeFootnotesToPage (page : PageModel)
    (footnotesA footnotesB footnotesC : List Text) : PageModel :=
  { page with
    footnotesARight := (footnoteColumns footnotesA).1
    footnotesALeft := (footnoteColumns footnotesA).2
    footnotesBRight := (footnoteColumns footnotesB).1
    footnotesBLeft := (footnoteColumns footnotesB).2
    footnotesCRight := (footnoteColumns footnotesC).1
    footnotesCLeft := (footnoteColumns footnotesC).2 }

/-- The page both `TryFitPage` and `ForceSingleLinePage` start from. -/
def newPage (pageNumber : Nat) : PageModel where
  pageNumber := pageNumber
  pageWidth := LayoutConstants.pageWidthPx
  pageHeight := LayoutConstants.pageHeightPx
  marginOuter := LayoutConstants.marginOuter
  marginInner := LayoutConstants.marginInner

/-- `ForceSingleLinePage(lineIndex, pageNumber)` -/
def forceSingleLinePage (wrapped : List Text) (lineIndex pageNumber : Nat) : PageModel :=
  if h : lineIndex < wrapped.length then
    { newPage pageNumber with mainRight := [wrapped[lineIndex]] }
  else newPage pageNumber

/-- `TryFitPage(startLine, pageNumber)` -/
def tryFitPage (propose : Nat → Nat → PageModel) (startLine pageNumber : Nat) : PageModel :=
  { propose startLine pageNumber with pageNumber := pageNumber }

/-- `SetRunningHeader(page, startLine)` -/
def setRunningHeader (document : ParsedDocument) (page : PageModel) : PageModel :=
  { page with
    runningHeaderRight := document.bookName
    runningHeaderCenter := document.parashaName
    runningHeaderLeft := utf16 "עמוד " ++ natToText page.pageNumber }

/-- The local variables of the loop. -/
structure PageState where
  pages : List PageModel
  currentLine : Nat
  pageNumber : Nat

/-- The page made by one pass of the loop. -/
def nextPage (document : ParsedDocument) (wrapped : List Text)
    (propose : Nat → Nat → PageModel) (currentLine pageNumber : Nat) : PageModel :=
  let page := tryFitPage propose currentLine pageNumber
  let page :=
    if page.mainRight.length = 0 ∧ page.mainLeft.length = 0 then
      forceSingleLinePage wrapped currentLine pageNumber
    else page
  setRunningHeader document page

/-- One evaluation of `while (currentLine < _mainWrapped.Count)` with its body. -/
def pageStep (document : ParsedDocument) (wrapped : List Text) (propose : Nat → Nat → PageModel)
    (s : PageState) : PageState ⊕ List PageModel :=
  if s.currentLine < wrapped.length then
    let page := nextPage document wrapped propose s.currentLine s.pageNumber
    .inl {
      pages := s.pages ++ [page]
      currentLine := s.currentLine + (page.mainRight.length + page.mainLeft.length)
      pageNumber := s.pageNumber + 1 }
  else .inr s.pages

/-- `Paginate(document)` returns `pages`. -/
def Paginates (measure : TextMeasure) (propose : Nat → Nat → PageModel)
    (document : ParsedDocument) (pages : List PageModel) : Prop :=
  WhileLoop.Returns (pageStep document (mainWrapped measure document) propose) ⟨[], 0, 1⟩ pages

/-- The main lines of a page, right column first. -/
def columns (page : PageModel) : List Text :=
  page.mainRight ++ page.mainLeft

/-- The columns of every proposal hold lines that follow one another from the start line on, as
`DistributeToColumns` puts them on a page without lines. -/
def ProposesRuns (wrapped : List Text) (propose : Nat → Nat → PageModel) : Prop :=
  ∀ startLine pageNumber, startLine < wrapped.length →
    ∃ allLines, allLines <+: wrapped.drop startLine ∧
      (propose startLine pageNumber).mainRight = (distributeToColumns {} allLines).mainRight ∧
      (propose startLine pageNumber).mainLeft = (distributeToColumns {} allLines).mainLeft

/-- The right column is as long as the left one or longer by one line. -/
def Balanced (page : PageModel) : Prop :=
  page.mainRight.length = page.mainLeft.length ∨
    page.mainRight.length = page.mainLeft.length + 1

/-! ## One page -/

theorem ceil_half (n : Nat) : ⌈(n : ℚ) / 2⌉₊ = (n + 1) / 2 := by
  apply Nat.le_antisymm
  · apply Nat.ceil_le.mpr
    have hle : n ≤ (n + 1) / 2 * 2 := by omega
    rw [div_le_iff₀ (by norm_num)]
    exact_mod_cast hle
  · have hceil : (n : ℚ) / 2 ≤ ⌈(n : ℚ) / 2⌉₊ := Nat.le_ceil _
    rw [div_le_iff₀ (by norm_num)] at hceil
    have hle : n ≤ ⌈(n : ℚ) / 2⌉₊ * 2 := by exact_mod_cast hceil
    omega

theorem columns_distributeToColumns (allLines : List Text) :
    columns (distributeToColumns {} allLines) = allLines := by
  unfold distributeToColumns
  simp only
  split
  · rename_i hnone
    rw [List.eq_nil_of_length_eq_zero hnone]
    rfl
  · show allLines.take ⌈(allLines.length : ℚ) / 2⌉₊ ++ (allLines.drop ⌈(allLines.length : ℚ) / 2⌉₊).take
        (allLines.length - ⌈(allLines.length : ℚ) / 2⌉₊) = allLines
    rw [← List.length_drop, List.take_length, List.take_append_drop]

theorem balanced_distributeToColumns (allLines : List Text) :
    Balanced (distributeToColumns {} allLines) := by
  unfold distributeToColumns
  simp only
  split
  · left
    rfl
  · unfold Balanced
    simp only [List.length_take, List.length_drop, ceil_half]
    omega

/-- What one pass of the loop adds: at least one line, the next ones, in balanced columns. -/
structure NextLines (wrapped : List Text) (currentLine pageNumber : Nat) (page : PageModel) :
    Prop where
  nonempty : columns page ≠ []
  next : columns page <+: wrapped.drop currentLine
  balanced : Balanced page
  number : page.pageNumber = pageNumber

section Step

variable {document : ParsedDocument} {wrapped : List Text} {propose : Nat → Nat → PageModel}

theorem nextLines_force {currentLine : Nat} (pageNumber : Nat)
    (hlt : currentLine < wrapped.length) :
    NextLines wrapped currentLine pageNumber
      (forceSingleLinePage wrapped currentLine pageNumber) := by
  unfold forceSingleLinePage
  rw [dif_pos hlt]
  refine ⟨List.cons_ne_nil _ _, ?_, .inr rfl, rfl⟩
  show [wrapped[currentLine]] <+: wrapped.drop currentLine
  rw [List.drop_eq_getElem_cons hlt]
  exact List.prefix_append [wrapped[currentLine]] _

theorem nextLines_tryFit (hpropose : ProposesRuns wrapped propose) {currentLine : Nat}
    (pageNumber : Nat) (hlt : currentLine < wrapped.length)
    (hsome : ¬ ((tryFitPage propose currentLine pageNumber).mainRight.length = 0 ∧
      (tryFitPage propose currentLine pageNumber).mainLeft.length = 0)) :
    NextLines wrapped currentLine pageNumber (tryFitPage propose currentLine pageNumber) := by
  obtain ⟨allLines, hprefix, hright, hleft⟩ := hpropose currentLine pageNumber hlt
  have hcolumns : columns (tryFitPage propose currentLine pageNumber) = allLines := by
    rw [← columns_distributeToColumns allLines]
    show (propose currentLine pageNumber).mainRight ++ (propose currentLine pageNumber).mainLeft = _
    rw [hright, hleft]
    rfl
  refine ⟨?_, ?_, ?_, rfl⟩
  · intro hnil
    obtain ⟨hrightNil, hleftNil⟩ := List.append_eq_nil_iff.mp hnil
    exact hsome ⟨by rw [hrightNil]; rfl, by rw [hleftNil]; rfl⟩
  · rw [hcolumns]
    exact hprefix
  · have hbalanced := balanced_distributeToColumns allLines
    unfold Balanced at hbalanced ⊢
    rw [← hright, ← hleft] at hbalanced
    exact hbalanced

theorem nextLines_nextPage (hpropose : ProposesRuns wrapped propose) {currentLine : Nat}
    (pageNumber : Nat) (hlt : currentLine < wrapped.length) :
    NextLines wrapped currentLine pageNumber
      (nextPage document wrapped propose currentLine pageNumber) := by
  -- the running header changes neither the columns nor the number
  have hheader : ∀ page, NextLines wrapped currentLine pageNumber page →
      NextLines wrapped currentLine pageNumber (setRunningHeader document page) :=
    fun _ h => ⟨h.nonempty, h.next, h.balanced, h.number⟩
  unfold nextPage
  apply hheader
  split
  · exact nextLines_force pageNumber hlt
  · rename_i hsome
    exact nextLines_tryFit hpropose pageNumber hlt hsome

/-! ## All pages -/

/-- What holds each time the head of the loop is reached. -/
structure PageInv (wrapped : List Text) (s : PageState) : Prop where
  line_le : s.currentLine ≤ wrapped.length
  placed : s.pages.flatMap columns = wrapped.take s.currentLine
  nonempty : ∀ page ∈ s.pages, columns page ≠ []
  balanced : ∀ page ∈ s.pages, Balanced page
  numbers : s.pages.map PageModel.pageNumber = List.range' 1 s.pages.length
  number : s.pageNumber = s.pages.length + 1

theorem pageInv_start : PageInv wrapped ⟨[], 0, 1⟩ where
  line_le := Nat.zero_le _
  placed := rfl
  nonempty := by simp
  balanced := by simp
  numbers := rfl
  number := rfl

/-- Lines that follow a beginning of a list extend it. -/
theorem take_append_next {l : List Text} {n : Nat} (h : l <+: wrapped.drop n) :
    wrapped.take n ++ l = wrapped.take (n + l.length) := by
  rw [List.take_add, ← List.prefix_iff_eq_take.mp h]

/-- A pass adds the next lines, so it keeps the invariant. -/
theorem PageInv.step {s s' : PageState} (hinv : PageInv wrapped s)
    (hpropose : ProposesRuns wrapped propose) (hs : pageStep document wrapped propose s = .inl s') :
    PageInv wrapped s' ∧ wrapped.length - s'.currentLine < wrapped.length - s.currentLine := by
  unfold pageStep at hs
  split at hs
  · rename_i hlt
    have hpage : NextLines wrapped s.currentLine s.pageNumber
        (nextPage document wrapped propose s.currentLine s.pageNumber) :=
      nextLines_nextPage hpropose s.pageNumber hlt
    obtain rfl := Sum.inl.inj hs
    generalize nextPage document wrapped propose s.currentLine s.pageNumber = page at hpage ⊢
    have hcount : page.mainRight.length + page.mainLeft.length = (columns page).length :=
      List.length_append.symm
    have hpos : 0 < (columns page).length := List.length_pos_of_ne_nil hpage.nonempty
    have hle := hpage.next.length_le
    rw [List.length_drop] at hle
    constructor
    · refine ⟨?_, ?_, ?_, ?_, ?_, ?_⟩
      · simp only [hcount]
        omega
      · simp only [hcount, List.flatMap_append, List.flatMap_singleton, hinv.placed]
        exact take_append_next hpage.next
      · simpa [or_imp, forall_and] using ⟨hinv.nonempty, hpage.nonempty⟩
      · simpa [or_imp, forall_and] using ⟨hinv.balanced, hpage.balanced⟩
      · simp only [List.map_append, List.map_cons, List.map_nil, hinv.numbers, hpage.number,
          hinv.number, List.length_append, List.length_singleton]
        rw [List.range'_1_concat, Nat.add_comm 1]
      · simp only [hinv.number, List.length_append, List.length_singleton]
    · simp only [hcount]
      omega
  · cases hs

/-- The pages of a finished run. -/
structure TwoColumnPages (wrapped : List Text) (pages : List PageModel) : Prop where
  /-- Every page has a main line. -/
  nonempty : ∀ page ∈ pages, columns page ≠ []
  /-- The columns, page after page, are the wrapped lines. -/
  placed : pages.flatMap columns = wrapped
  numbers : pages.map PageModel.pageNumber = List.range' 1 pages.length
  balanced : ∀ page ∈ pages, Balanced page

theorem PageInv.exit {s : PageState} {pages : List PageModel} (hinv : PageInv wrapped s)
    (hs : pageStep document wrapped propose s = .inr pages) : TwoColumnPages wrapped pages := by
  unfold pageStep at hs
  split at hs
  · cases hs
  · rename_i hge
    obtain rfl := Sum.inr.inj hs
    refine ⟨hinv.nonempty, ?_, hinv.numbers, hinv.balanced⟩
    rw [hinv.placed, List.take_of_length_le (not_lt.mp hge)]

end Step

/-- Whatever runs of lines `TryFitPage` proposes, `Paginate` returns. No page is empty, the columns
of all pages make up the wrapped main text, the pages are numbered from 1 on, and no right column
is shorter than its left one or longer by more than one line. -/
theorem paginate_two_columns (measure : TextMeasure) (document : ParsedDocument)
    (propose : Nat → Nat → PageModel)
    (hpropose : ProposesRuns (mainWrapped measure document) propose) :
    ∃ pages, Paginates measure propose document pages ∧
      TwoColumnPages (mainWrapped measure document) pages := by
  obtain ⟨pages, hpages⟩ := WhileLoop.returns_of_measure
    (fun s : PageState => (mainWrapped measure document).length - s.currentLine)
    (fun s s' hinv (hs : pageStep document _ propose s = .inl s') => hinv.step hpropose hs)
    pageInv_start
  have hpost : TwoColumnPages (mainWrapped measure document) pages :=
    hpages.of_invariant (fun s s' hinv hs => (hinv.step hpropose hs).1)
      (fun s pages hinv hs => hinv.exit hs) pageInv_start
  exact ⟨pages, hpages, hpost⟩

/-- Three lines, of which `TryFitPage` proposes two at a time. -/
theorem paginate_two_columns_three_lines :
    let measure : TextMeasure := fun text fontSize => text.length * fontSize
    let document : ParsedDocument := { mainLines := [utf16 "a", utf16 "b", utf16 "c"] }
    let propose : Nat → Nat → PageModel := fun startLine _ =>
      distributeToColumns {} (((mainWrapped measure document).drop startLine).take 2)
    ∃ pages, Paginates measure propose document pages ∧
      TwoColumnPages (mainWrapped measure document) pages := by
  intro measure document propose
  refine paginate_two_columns measure document propose ?_
  intro startLine pageNumber _
  exact ⟨_, List.take_prefix 2 _, rfl, rfl⟩

end ColumnLayoutEngine

end Typesetting
