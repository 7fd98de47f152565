/-
# Typesetting.Services.PageFilling -- what every run of the page-filling loop keeps

Four cursors run through the loop of `Paginate`: the line and one note cursor for each system.
The stored pages and the open page together always carry exactly what lies before the cursors,
and the note cursors jump from the start to the end of their lists when the first line is placed.
So the notes reach the pages if and only if there is a first line: a text of notes alone has none,
its only page is discarded after the loop, and its notes with it.
-/
import Typesetting.Services.PaginationEngine

namespace Typesetting

namespace PaginationEngine

/-- What holds each time the head of the loop is reached. -/
structure FillInv (lines : List Text) (x : Extracted) (s : FillState) : Prop where
  index_le : s.lineIndex ≤ lines.length
  /-- The pages carry the lines before the line cursor, in order. -/
  main : (s.pages ++ [s.currentPage]).flatMap PageModel.allMainLines = lines.take s.lineIndex
  /-- They carry the notes before the cursor of each system, in order. -/
  notes : ∀ system, (s.pages ++ [s.currentPage]).flatMap (·.allFootnotes system) =
    (x.footnotes system).take (s.footnoteIndex system)
  /-- Before the first line no note is placed, after it all of them are. -/
  cursor : ∀ system, s.footnoteIndex system =
    if s.lineIndex = 0 then 0 else (x.footnotes system).length
  /-- The pages are numbered from 1. -/
  numbers : (s.pages ++ [s.currentPage]).map PageModel.pageNumber =
    List.range' 1 (s.pages.length + 1)
  /-- A page without main lines has no notes either. -/
  blank : s.currentPage.allMainLines = [] → ∀ system, s.currentPage.allFootnotes system = []

section Steps

variable {engine : PaginationEngine} {lines : List Text} {x : Extracted} {s s' : FillState}

theorem fillInv_start : FillInv lines x engine.fillStart where
  index_le := Nat.zero_le _
  main := by simp [fillStart]
  notes system := by cases system <;> rfl
  cursor system := by cases system <;> rfl
  numbers := rfl
  blank _ system := createNewPage_allFootnotes 1 system

theorem FillInv.cursor_le (hinv : FillInv lines x s) (system : NoteSystem) :
    s.footnoteIndex system ≤ (x.footnotes system).length := by
  rw [hinv.cursor system]
  split
  · exact Nat.zero_le _
  · exact Nat.le_refl _

/-- Placing a line moves it, and all notes that are left, onto the open page. -/
theorem FillInv.placeLine (hinv : FillInv lines x s) (hlt : s.lineIndex < lines.length) :
    FillInv lines x (engine.placeLine x lines[s.lineIndex] s) where
  index_le := hlt
  main := by
    have hmain := hinv.main
    simp only [List.flatMap_append, List.flatMap_singleton] at hmain
    simp only [placeLine_pages, placeLine_lineIndex, List.flatMap_append, List.flatMap_singleton,
      placeLine_allMainLines]
    rw [← List.append_assoc, hmain, List.take_append_getElem hlt]
  notes system := by
    have hnotes := hinv.notes system
    simp only [List.flatMap_append, List.flatMap_singleton] at hnotes
    simp only [placeLine_pages, List.flatMap_append, List.flatMap_singleton,
      placeLine_allFootnotes hinv.cursor_le, placeLine_footnoteIndex hinv.cursor_le]
    rw [← List.append_assoc, hnotes, List.take_append_drop, List.take_length]
  cursor system := by
    rw [placeLine_footnoteIndex hinv.cursor_le, placeLine_lineIndex, if_neg (Nat.succ_ne_zero _)]
  numbers := by
    have hnumbers := hinv.numbers
    simp only [List.map_append, List.map_cons, List.map_nil] at hnumbers ⊢
    exact hnumbers
  blank hnil := by
    rw [placeLine_allMainLines] at hnil
    simp at hnil

/-- Turning the page changes no cursor, and the new page is empty. -/
theorem FillInv.turnPage (hinv : FillInv lines x s) : FillInv lines x (engine.turnPage s) where
  index_le := hinv.index_le
  main := by
    rw [turnPage_pages, List.flatMap_append, hinv.main]
    simp
  notes system := by
    rw [turnPage_pages, List.flatMap_append, hinv.notes system]
    simp
  cursor system := by
    rw [turnPage_footnoteIndex]
    exact hinv.cursor system
  numbers := by
    rw [turnPage_pages, List.map_append, hinv.numbers, List.length_append, List.length_singleton,
      List.range'_1_concat (n := s.pages.length + 1)]
    simp only [List.map_cons, List.map_nil, turnPage_currentPage, createNewPage_pageNumber]
    rw [show s.pages.length + 2 = 1 + (s.pages.length + 1) by omega]
  blank _ system := by simp

theorem FillInv.step (hinv : FillInv lines x s) (hs : engine.fillStep lines x s = .inl s') :
    FillInv lines x s' := by
  obtain ⟨hlt, ⟨-, rfl⟩ | ⟨-, rfl⟩⟩ := fillStep_next hs
  · exact hinv.placeLine hlt
  · exact hinv.turnPage

/-! ## The code after the loop -/

/-- Leaving out the last page loses nothing that a page without main lines cannot carry. -/
theorem flatMap_closePages {α : Type*} (f : PageModel → List α)
    (hblank : s.currentPage.allMainLines = [] → f s.currentPage = []) :
    (closePages s).flatMap f = (s.pages ++ [s.currentPage]).flatMap f := by
  unfold closePages
  split
  · rfl
  · rename_i hnone
    have hnil : s.currentPage.allMainLines = [] := by
      apply List.eq_nil_of_length_eq_zero
      omega
    rw [List.flatMap_append, List.flatMap_singleton, hblank hnil, List.append_nil]

theorem FillInv.numbers_closePages (hinv : FillInv lines x s) :
    (closePages s).map PageModel.pageNumber = List.range' 1 (closePages s).length := by
  unfold closePages
  split
  · rw [hinv.numbers, List.length_append, List.length_singleton]
  · have hnumbers := hinv.numbers
    rw [List.map_append, List.range'_1_concat] at hnumbers
    exact (List.append_inj_left' hnumbers (by simp))

/-- The pages of a finished run. -/
structure FillPost (lines : List Text) (x : Extracted) (pages : List PageModel) : Prop where
  main : pages.flatMap PageModel.allMainLines = lines
  notes : ∀ system, pages.flatMap (·.allFootnotes system) =
    if lines = [] then [] else x.footnotes system
  numbers : pages.map PageModel.pageNumber = List.range' 1 pages.length

theorem FillInv.exit {pages : List PageModel} (hinv : FillInv lines x s)
    (hs : engine.fillStep lines x s = .inr pages) : FillPost lines x pages := by
  obtain ⟨hge, rfl⟩ := fillStep_exit hs
  refine ⟨?_, ?_, hinv.numbers_closePages⟩
  · rw [flatMap_closePages _ id, hinv.main, List.take_of_length_le hge]
  · intro system
    rw [flatMap_closePages _ (fun hnil => hinv.blank hnil system), hinv.notes system,
      hinv.cursor system]
    have hindex : s.lineIndex = lines.length := Nat.le_antisymm hinv.index_le hge
    by_cases hlines : lines = []
    · -- without lines the cursors have not moved
      rw [if_pos hlines, if_pos (by rw [hindex, hlines]; rfl), List.take_zero]
    · rw [if_neg hlines, if_neg (by rw [hindex]; exact mt List.eq_nil_of_length_eq_zero hlines),
        List.take_length]

/-- Every run that returns has placed all lines and, if there is one, all notes. -/
theorem returns_fillPost {pages : List PageModel}
    (h : WhileLoop.Returns (engine.fillStep lines x) engine.fillStart pages) :
    FillPost lines x pages :=
  h.of_invariant (fun _ _ => FillInv.step) (fun _ _ => FillInv.exit) fillInv_start

end Steps

/-! ## `Paginate` as a whole -/

section Paginate

variable {engine : PaginationEngine} {culture : CompareInfo} {rawText : Text}
  {pages : List PageModel}

theorem splitLines_eq_nil_of_blank (hblank : isNullOrWhiteSpace rawText = true) :
    splitLines (extractContentAndFootnotes culture rawText).mainText = [] := by
  have hmain : (extractContentAndFootnotes culture rawText).mainText = [] := by
    rw [mainText_eq_nil_iff, extractPasses_of_blank hblank]
    exact hblank
  rw [hmain]
  rfl

/-- The early return for blank texts gives what the loop would give: blank texts have no line. -/
theorem paginates_iff_returns :
    engine.Paginates culture rawText pages ↔
      WhileLoop.Returns
        (engine.fillStep (splitLines (extractContentAndFootnotes culture rawText).mainText)
          (extractContentAndFootnotes culture rawText)) engine.fillStart pages := by
  unfold Paginates paginate
  split
  · rename_i hblank
    rw [splitLines_eq_nil_of_blank hblank,
      WhileLoop.returns_of_exit (fillStep_of_all_placed (Nat.zero_le _))]
    exact ⟨fun ⟨_, h⟩ => Option.some.inj h, fun h => ⟨0, congrArg some h⟩⟩
  · rfl

/-- `Paginate` returns one list of pages at most. -/
theorem Paginates.unique {pages' : List PageModel} (h : engine.Paginates culture rawText pages)
    (h' : engine.Paginates culture rawText pages') : pages = pages' :=
  (paginates_iff_returns.mp h).unique (paginates_iff_returns.mp h')

/-- The lines of the main text reach the pages, and the notes do if there is a line. -/
theorem Paginates.fillPost (h : engine.Paginates culture rawText pages) :
    FillPost (splitLines (extractContentAndFootnotes culture rawText).mainText)
      (extractContentAndFootnotes culture rawText) pages :=
  returns_fillPost (paginates_iff_returns.mp h)

theorem splitLines_mainText (culture : CompareInfo) (rawText : Text) :
    splitLines (extractContentAndFootnotes culture rawText).mainText =
      if (extractContentAndFootnotes culture rawText).mainText = [] then []
      else [(extractContentAndFootnotes culture rawText).mainText] :=
  split_mainText isWhiteSpace_of_isLineEnd (by decide) rawText

theorem splitLines_mainText_eq_nil_iff :
    splitLines (extractContentAndFootnotes culture rawText).mainText = [] ↔
      (extractContentAndFootnotes culture rawText).mainText = [] := by
  rw [splitLines_mainText]
  split <;> simp_all

end Paginate

/-- The pages carry what was extracted, each part complete and in order, and are numbered from 1
on. -/
structure CarriesAll (x : Extracted) (pages : List PageModel) : Prop where
  footnotesA : pages.flatMap PageModel.allFootnotesA = x.footnotesA
  footnotesB : pages.flatMap PageModel.allFootnotesB = x.footnotesB
  footnotesC : pages.flatMap PageModel.allFootnotesC = x.footnotesC
  main : pages.flatMap PageModel.allMainLines = splitLines x.mainText
  numbers : pages.map PageModel.pageNumber = List.range' 1 pages.length

/-- Whenever `Paginate` returns, everything extracted is on the pages exactly when there is a main
text or there are no notes at all. -/
theorem paginate_carriesAll_iff (engine : PaginationEngine) (culture : CompareInfo)
    (rawText : Text) (pages : List PageModel) (h : engine.Paginates culture rawText pages) :
    CarriesAll (extractContentAndFootnotes culture rawText) pages ↔
      (extractContentAndFootnotes culture rawText).mainText ≠ [] ∨
        ∀ system, (extractContentAndFootnotes culture rawText).footnotes system = [] := by
  have hpost := h.fillPost
  by_cases hmain : (extractContentAndFootnotes culture rawText).mainText = []
  · -- no line: the only page was discarded
    have hlines := splitLines_mainText_eq_nil_iff.mpr hmain
    have hnotes : ∀ system, pages.flatMap (·.allFootnotes system) = [] := by
      intro system
      rw [hpost.notes system, if_pos hlines]
    constructor
    · intro hall
      right
      intro system
      cases system
      · exact hall.footnotesA.symm.trans (hnotes .A)
      · exact hall.footnotesB.symm.trans (hnotes .B)
      · exact hall.footnotesC.symm.trans (hnotes .C)
    · rintro (hne | hnone)
      · exact absurd hmain hne
      · exact ⟨(hnotes .A).trans (hnone .A).symm, (hnotes .B).trans (hnone .B).symm,
          (hnotes .C).trans (hnone .C).symm, hpost.main, hpost.numbers⟩
  · have hnotes : ∀ system, pages.flatMap (·.allFootnotes system) =
        (extractContentAndFootnotes culture rawText).footnotes system := by
      intro system
      rw [hpost.notes system, if_neg (mt splitLines_mainText_eq_nil_iff.mp hmain)]
    exact ⟨fun _ => .inl hmain,
      fun _ => ⟨hnotes .A, hnotes .B, hnotes .C, hpost.main, hpost.numbers⟩⟩

/-- A text with a main line and a note: both are on the pages. -/
theorem paginate_carriesAll_line_and_note :
    ∃ pages, Paginates {} .ordinal (utf16 "a$$b$$") pages ∧
      CarriesAll (extractContentAndFootnotes .ordinal (utf16 "a$$b$$")) pages := by
  have hsome : (paginate {} .ordinal 2 (utf16 "a$$b$$")).isSome = true := by decide +kernel
  obtain ⟨pages, hpages⟩ := Option.isSome_iff_exists.mp hsome
  refine ⟨pages, ⟨2, hpages⟩, ?_⟩
  have hmain : (extractContentAndFootnotes .ordinal (utf16 "a$$b$$")).mainText ≠ [] := by
    decide +kernel
  exact (paginate_carriesAll_iff {} .ordinal _ pages ⟨2, hpages⟩).mpr (.inl hmain)

/-- A text that is nothing but a note: no page is returned and the note is lost. -/
theorem paginate_loses_note_without_line :
    ¬ ∀ (engine : PaginationEngine) (culture : CompareInfo) (rawText : Text)
        (pages : List PageModel), engine.Paginates culture rawText pages →
          CarriesAll (extractContentAndFootnotes culture rawText) pages := by
  intro hall
  have hpages : (paginate {} .ordinal 1 (utf16 "$$a$$")).map List.length = some 0 := by
    decide +kernel
  obtain ⟨pages, hrun, hlength⟩ := Option.map_eq_some_iff.mp hpages
  have hlost := (hall {} .ordinal (utf16 "$$a$$") pages ⟨1, hrun⟩).footnotesA
  rw [List.eq_nil_of_length_eq_zero hlength] at hlost
  exact absurd hlost (by decide +kernel)

end PaginationEngine

end Typesetting
