/-
# Typesetting.Services.PaginationEngine -- the page-filling loop

`Paginate` extracts the notes, splits the main text into lines and fills pages: a line goes to the
current page when the height left there is at least `CalculateLineHeight`, otherwise the page is
stored and a new one is opened. After a line is placed, all notes that are not on a page yet go to
the page of that line. The last page is stored when it carries a main line.

The loop is `fillStep`, one pass of its body on the state of the five local variables; it is run by
`WhileLoop`, with a bound on the passes in `paginate` and without one in `Paginates`, because for a
line that is higher than an empty page the code opens pages forever.
-/
import Mathlib.Algebra.GroupWithZero.Nat
import Typesetting.Lib.WhileLoop
import Typesetting.Models.PageModel
import Typesetting.Services.TextHelper

namespace Typesetting

/-- The geometry given to the constructor. `footnoteHeight` is stored and never read again. -/
structure PaginationEngine where
  pageWidth : ℚ := 800
  pageHeight : ℚ := 600
  lineHeight : ℚ := 30
  footnoteHeight : ℚ := 20

/-- The notes of one system among those extracted. -/
def Extracted.footnotes (x : Extracted) : NoteSystem → List Text
  | .A => x.footnotesA
  | .B => x.footnotesB
  | .C => x.footnotesC

/-- The local variables of the loop. -/
structure FillState where
  lineIndex : Nat
  footnoteAIndex : Nat
  footnoteBIndex : Nat
  footnoteCIndex : Nat
  currentPage : PageModel
  pages : List PageModel

/-- The cursor of one note system. -/
def FillState.footnoteIndex (s : FillState) : NoteSystem → Nat
  | .A => s.footnoteAIndex
  | .B => s.footnoteBIndex
  | .C => s.footnoteCIndex

/-- `while (index < notes.Count) { target.Add(notes[index]); index++; }` -/
def addRemaining (notes : List Text) (index : Nat) (target : List Text) : List Text × Nat :=
  if h : index < notes.length then addRemaining notes (index + 1) (target ++ [notes[index]])
  else (target, index)
termination_by notes.length - index

/-- `AddFootnotesForLine`: all notes that remain in any of the systems go to `page`. The cursors
are passed by reference, so the new ones are returned with the page. -/
def addFootnotesForLine (page : PageModel) (footnoteAIndex footnoteBIndex footnoteCIndex : Nat)
    (x : Extracted) : PageModel × Nat × Nat × Nat :=
  let a := addRemaining x.footnotesA footnoteAIndex page.allFootnotesA
  let b := addRemaining x.footnotesB footnoteBIndex page.allFootnotesB
  let c := addRemaining x.footnotesC footnoteCIndex page.allFootnotesC
  ({ page with allFootnotesA := a.1, allFootnotesB := b.1, allFootnotesC := c.1 },
    a.2, b.2, c.2)

namespace PaginationEngine

/-- `CreateNewPage(pageNumber)`; the header height and the margins keep their defaults. -/
def createNewPage (engine : PaginationEngine) (pageNumber : Nat) : PageModel where
  pageNumber := pageNumber
  pageWidth := engine.pageWidth
  pageHeight := engine.pageHeight

/-- `CalculateLineHeight(line)`: half a line more when the line has over 50 characters. -/
def calculateLineHeight (engine : PaginationEngine) (line : Text) : ℚ :=
  if 50 < line.length then engine.lineHeight + engine.lineHeight * (1 / 2) else engine.lineHeight

/-- The branch of the loop body in which `line` goes to the current page. -/
def placeLine (engine : PaginationEngine) (x : Extracted) (line : Text) (s : FillState) :
    FillState :=
  let page := { s.currentPage with allMainLines := s.currentPage.allMainLines ++ [line] }
  -- only the line takes height, the notes that follow it do not
  let filled := addFootnotesForLine (page.reserveHeight (engine.calculateLineHeight line))
    s.footnoteAIndex s.footnoteBIndex s.footnoteCIndex x
  { s with
    currentPage := filled.1
    footnoteAIndex := filled.2.1
    footnoteBIndex := filled.2.2.1
    footnoteCIndex := filled.2.2.2
    lineIndex := s.lineIndex + 1 }

/-- The branch in which the page is full: it is stored, and the next one is numbered by
`pages.Count + 1`. -/
def turnPage (engine : PaginationEngine) (s : FillState) : FillState :=
  let pages := s.pages ++ [s.currentPage]
  { s with pages := pages, currentPage := engine.createNewPage (pages.length + 1) }

/-- The code after the loop. -/
def closePages (s : FillState) : List PageModel :=
  -- a page with notes only would be left out
  if 0 < s.currentPage.allMainLines.length then s.pages ++ [s.currentPage] else s.pages

/-- One evaluation of `while (lineIndex < lines.Length)` with its body or the code after it. -/
def fillStep (engine : PaginationEngine) (lines : List Text) (x : Extracted) (s : FillState) :
    FillState ⊕ List PageModel :=
  if h : s.lineIndex < lines.length then
    let line := lines[s.lineIndex]
    if engine.calculateLineHeight line ≤ s.currentPage.remainingHeight then
      .inl (engine.placeLine x line s)
    else .inl (engine.turnPage s)
  else .inr (closePages s)

/-- The state in which the loop is entered. -/
def fillStart (engine : PaginationEngine) : FillState where
  lineIndex := 0
  footnoteAIndex := 0
  footnoteBIndex := 0
  footnoteCIndex := 0
  currentPage := engine.createNewPage 1
  pages := []

/-- `mainText.Split(new[] { '\n', '\r' }, StringSplitOptions.RemoveEmptyEntries)` -/
def splitLines (mainText : Text) : List Text :=
  splitRemoveEmpty isLineEnd mainText

/-- `Paginate(rawText)` within a bound on the passes of its loop. -/
def paginate (engine : PaginationEngine) (culture : CompareInfo) (fuel : Nat) (rawText : Text) :
    Option (List PageModel) :=
  if isNullOrWhiteSpace rawText then some []
  else
    let x := extractContentAndFootnotes culture rawText
    WhileLoop.run (engine.fillStep (splitLines x.mainText) x) fuel engine.fillStart

/-- `Paginate(rawText)` returns `pages`. -/
def Paginates (engine : PaginationEngine) (culture : CompareInfo) (rawText : Text)
    (pages : List PageModel) : Prop :=
  ∃ fuel, engine.paginate culture fuel rawText = some pages

/-- `GetPaginationSummary(pages)` -/
def getPaginationSummary (pages : List PageModel) : Text :=
  if pages.length = 0 then utf16 "אין עמודים"
  else
    let totalChars := (pages.map fun p => p.allMainLines.length).sum
    let totalFootnotesA := (pages.map fun p => p.allFootnotesA.length).sum
    let totalFootnotesB := (pages.map fun p => p.allFootnotesB.length).sum
    let totalFootnotesC := (pages.map fun p => p.allFootnotesC.length).sum
    utf16 "עמודים: " ++ natToText pages.length ++ utf16 ", תווים: " ++ natToText totalChars ++
      utf16 ", הערות א': " ++ natToText totalFootnotesA ++
      utf16 ", הערות ב': " ++ natToText totalFootnotesB ++
      utf16 ", הערות ג': " ++ natToText totalFootnotesC

/-! ## What one pass does -/

section Passes

variable {engine : PaginationEngine} {lines : List Text} {x : Extracted} {s s' : FillState}

/-- A pass that goes on either places the next line, because it fits, or turns the page,
because it does not. -/
theorem fillStep_next (h : engine.fillStep lines x s = .inl s') :
    ∃ hlt : s.lineIndex < lines.length,
      (engine.calculateLineHeight lines[s.lineIndex] ≤ s.currentPage.remainingHeight ∧
        s' = engine.placeLine x lines[s.lineIndex] s) ∨
      (s.currentPage.remainingHeight < engine.calculateLineHeight lines[s.lineIndex] ∧
        s' = engine.turnPage s) := by
  unfold fillStep at h
  split at h
  · rename_i hlt
    refine ⟨hlt, ?_⟩
    simp only at h
    split at h
    · rename_i hfit
      exact .inl ⟨hfit, (Sum.inl.inj h).symm⟩
    · rename_i hfull
      exact .inr ⟨not_le.mp hfull, (Sum.inl.inj h).symm⟩
  · cases h

/-- The loop ends when all lines are placed. -/
theorem fillStep_exit {pages : List PageModel} (h : engine.fillStep lines x s = .inr pages) :
    lines.length ≤ s.lineIndex ∧ pages = closePages s := by
  unfold fillStep at h
  split at h
  · simp only at h
    split at h <;> cases h
  · rename_i hge
    exact ⟨not_lt.mp hge, (Sum.inr.inj h).symm⟩

theorem fillStep_of_fits (hlt : s.lineIndex < lines.length)
    (hfit : engine.calculateLineHeight lines[s.lineIndex] ≤ s.currentPage.remainingHeight) :
    engine.fillStep lines x s = .inl (engine.placeLine x lines[s.lineIndex] s) := by
  simp [fillStep, hlt, hfit]

theorem fillStep_of_all_placed (hge : lines.length ≤ s.lineIndex) :
    engine.fillStep lines x s = .inr (closePages s) := by
  simp [fillStep, not_lt.mpr hge]

end Passes

/-! ## What the two branches do to the pages and the cursors -/

theorem addRemaining_eq (notes : List Text) (index : Nat) (target : List Text)
    (h : index ≤ notes.length) :
    addRemaining notes index target = (target ++ notes.drop index, notes.length) := by
  fun_induction addRemaining notes index target with
  | case1 index target hlt ih =>
      -- one more note: the rest begins with it
      rw [ih hlt, List.drop_eq_getElem_cons hlt]
      simp
  | case2 index target hge =>
      have heq : index = notes.length := by omega
      simp [heq]

section Branches

variable {engine : PaginationEngine} {x : Extracted} {line : Text} {s : FillState}

@[simp] theorem placeLine_lineIndex : (engine.placeLine x line s).lineIndex = s.lineIndex + 1 :=
  rfl

@[simp] theorem placeLine_pages : (engine.placeLine x line s).pages = s.pages := rfl

@[simp] theorem placeLine_allMainLines :
    (engine.placeLine x line s).currentPage.allMainLines =
      s.currentPage.allMainLines ++ [line] := rfl

/-- The page of a line takes every note that is not on a page yet. -/
theorem placeLine_allFootnotes
    (hcursor : ∀ system, s.footnoteIndex system ≤ (x.footnotes system).length)
    (system : NoteSystem) :
    (engine.placeLine x line s).currentPage.allFootnotes system =
      s.currentPage.allFootnotes system ++ (x.footnotes system).drop (s.footnoteIndex system) := by
  cases system
  · exact congrArg Prod.fst (addRemaining_eq _ _ _ (hcursor .A))
  · exact congrArg Prod.fst (addRemaining_eq _ _ _ (hcursor .B))
  · exact congrArg Prod.fst (addRemaining_eq _ _ _ (hcursor .C))

theorem placeLine_footnoteIndex
    (hcursor : ∀ system, s.footnoteIndex system ≤ (x.footnotes system).length)
    (system : NoteSystem) :
    (engine.placeLine x line s).footnoteIndex system = (x.footnotes system).length := by
  cases system
  · exact congrArg Prod.snd (addRemaining_eq _ _ _ (hcursor .A))
  · exact congrArg Prod.snd (addRemaining_eq _ _ _ (hcursor .B))
  · exact congrArg Prod.snd (addRemaining_eq _ _ _ (hcursor .C))

@[simp] theorem turnPage_lineIndex : (engine.turnPage s).lineIndex = s.lineIndex := rfl

@[simp] theorem turnPage_footnoteIndex (system : NoteSystem) :
    (engine.turnPage s).footnoteIndex system = s.footnoteIndex system := by
  cases system <;> rfl

@[simp] theorem turnPage_pages : (engine.turnPage s).pages = s.pages ++ [s.currentPage] := rfl

@[simp] theorem turnPage_currentPage :
    (engine.turnPage s).currentPage = engine.createNewPage (s.pages.length + 2) := by
  simp [turnPage]

@[simp] theorem createNewPage_allMainLines (n : Nat) :
    (engine.createNewPage n).allMainLines = [] := rfl

@[simp] theorem createNewPage_allFootnotes (n : Nat) (system : NoteSystem) :
    (engine.createNewPage n).allFootnotes system = [] := by
  cases system <;> rfl

@[simp] theorem createNewPage_pageNumber (n : Nat) :
    (engine.createNewPage n).pageNumber = n := rfl

end Branches

end PaginationEngine

end Typesetting
