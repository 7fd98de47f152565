/-
# Typesetting.Services.SingleLine -- every text reaches the page-filling loop as one line

`ExtractContentAndFootnotes` replaces each run of white space by one blank, line ends included, and
only then `Paginate` splits at line ends. So the main text has no line end left: it is one line, or
none when it is empty, and a line that fits an empty page makes one page, which also carries all
the notes.

Two consequences follow. The lines of the text outside the notes come out as they are exactly when
there is at most one of them. And the single page is overfull exactly when the whole document is
too high for it, since neither the wrapped main text nor the notes make the engine open another.
-/
import Mathlib.Tactic.NormNum
import Typesetting.Services.PageFilling

namespace Typesetting

/-! ## The lines outside the notes -/

/-- The lines of the text outside the notes: the text the three passes leave is split at its line
ends, the white space inside each piece is collapsed and trimmed, and blank pieces are dropped. -/
def linesOutsideNotes (culture : CompareInfo) (rawText : Text) : List Text :=
  (((extractPasses culture rawText).mainText.splitOnP isLineEnd).map fun piece =>
    trim (replaceWhiteSpaceRuns piece)).filter fun line => !isNullOrWhiteSpace line

/-- A cleaned-up piece is blank when the piece has no word. -/
theorem isNullOrWhiteSpace_cleanedUp (piece : Text) :
    isNullOrWhiteSpace (trim (replaceWhiteSpaceRuns piece)) = true ↔
      splitRemoveEmpty isWhiteSpace piece = [] := by
  rw [isNullOrWhiteSpace_iff_words, words_trim_replaceWhiteSpaceRuns]

/-- The words of the lines outside the notes, line by line. -/
def wordsOfLines (culture : CompareInfo) (rawText : Text) : List (List Text) :=
  (((extractPasses culture rawText).mainText.splitOnP isLineEnd).map
    (splitRemoveEmpty isWhiteSpace)).filter fun line => !line.isEmpty

section Words

variable (culture : CompareInfo) (rawText : Text)

theorem linesOutsideNotes_eq_map :
    linesOutsideNotes culture rawText = (wordsOfLines culture rawText).map (joinWith [space]) := by
  unfold linesOutsideNotes wordsOfLines
  rw [List.filter_map, List.filter_map, List.map_map]
  have hblank : ∀ piece : Text, (!isNullOrWhiteSpace (trim (replaceWhiteSpaceRuns piece))) =
      !(splitRemoveEmpty isWhiteSpace piece).isEmpty := by
    intro piece
    rw [Bool.not_inj_iff, Bool.eq_iff_iff, isNullOrWhiteSpace_cleanedUp, List.isEmpty_iff]
  congr 1
  · exact funext trim_replaceWhiteSpaceRuns
  · exact congrArg (List.filter · _) (funext hblank)

/-- The words of the main text are those of the lines, line after line. -/
theorem words_mainText :
    splitRemoveEmpty isWhiteSpace (extractPasses culture rawText).mainText =
      (wordsOfLines culture rawText).flatten := by
  rw [wordsOfLines, List.flatten_filter_not_isEmpty, ← List.flatMap_def]
  exact Segment.words_eq_flatMap_words isWhiteSpace_of_isLineEnd _

theorem mainText_eq_join :
    (extractContentAndFootnotes culture rawText).mainText =
      joinWith [space] (wordsOfLines culture rawText).flatten := by
  rw [extract_mainText, words_mainText]

/-- With at most one line outside the notes, that line is the main text. -/
theorem splitLines_mainText_of_length_le_one
    (h : (linesOutsideNotes culture rawText).length ≤ 1) :
    PaginationEngine.splitLines (extractContentAndFootnotes culture rawText).mainText =
      linesOutsideNotes culture rawText := by
  rw [PaginationEngine.splitLines_mainText, mainText_eq_join, linesOutsideNotes_eq_map]
  rw [linesOutsideNotes_eq_map, List.length_map] at h
  have hwords := words_mainText culture rawText
  match hlines : wordsOfLines culture rawText with
  | [] => rfl
  | [line] =>
      have hne : joinWith [space] line ≠ [] := by
        have hmem : line ∈ wordsOfLines culture rawText := by simp [hlines]
        rw [hlines, List.flatten_singleton] at hwords
        have hline : line ≠ [] := by simpa using (List.mem_filter.mp hmem).2
        rw [← hwords] at hline ⊢
        exact mt (Segment.intercalate_eq_nil_iff fun _ hw => (Segment.mem_words hw).1).mp hline
      rw [List.flatten_singleton, if_neg hne]
      rfl
  | _ :: _ :: _ =>
      rw [hlines] at h
      simp at h

end Words

namespace PaginationEngine

/-! ## The only page -/

/-- The page of a text with a main text that fits. -/
def onlyPage (engine : PaginationEngine) (x : Extracted) : PageModel :=
  (engine.placeLine x x.mainText engine.fillStart).currentPage

section OnlyPage

variable {engine : PaginationEngine} {culture : CompareInfo} {rawText : Text}

theorem paginates_of_mainText_nil
    (hmain : (extractContentAndFootnotes culture rawText).mainText = []) :
    engine.Paginates culture rawText [] := by
  rw [paginates_iff_returns, splitLines_mainText, if_pos hmain,
    WhileLoop.returns_of_exit (fillStep_of_all_placed (Nat.zero_le _))]
  rfl

/-- A line that fits an empty page is placed in the first pass, and the loop ends. -/
theorem returns_single {x : Extracted} {line : Text}
    (hfit : engine.calculateLineHeight line ≤ (engine.createNewPage 1).availableHeight) :
    WhileLoop.Returns (engine.fillStep [line] x) engine.fillStart
      [(engine.placeLine x line engine.fillStart).currentPage] := by
  have hlt : engine.fillStart.lineIndex < [line].length := Nat.zero_lt_one
  have hremaining : engine.calculateLineHeight [line][engine.fillStart.lineIndex] ≤
      engine.fillStart.currentPage.remainingHeight := by
    show engine.calculateLineHeight line ≤ (engine.createNewPage 1).availableHeight - 0
    rw [sub_zero]
    exact hfit
  have hplaced : [line].length ≤ (engine.placeLine x line engine.fillStart).lineIndex := by
    rw [placeLine_lineIndex]
    exact Nat.le_add_left _ _
  apply (WhileLoop.returns_of_next (fillStep_of_fits hlt hremaining)).mpr
  apply (WhileLoop.returns_of_exit (fillStep_of_all_placed hplaced)).mpr
  simp [closePages, fillStart]

theorem paginates_of_mainText_fits
    (hmain : (extractContentAndFootnotes culture rawText).mainText ≠ [])
    (hfit : engine.calculateLineHeight (extractContentAndFootnotes culture rawText).mainText ≤
      (engine.createNewPage 1).availableHeight) :
    engine.Paginates culture rawText
      [engine.onlyPage (extractContentAndFootnotes culture rawText)] := by
  rw [paginates_iff_returns, splitLines_mainText, if_neg hmain]
  exact returns_single hfit

theorem onlyPage_allFootnotes (x : Extracted) (system : NoteSystem) :
    (engine.onlyPage x).allFootnotes system = x.footnotes system := by
  have hstart : ∀ system, engine.fillStart.footnoteIndex system = 0 := by
    intro system
    cases system <;> rfl
  have hcursor : ∀ system, engine.fillStart.footnoteIndex system ≤ (x.footnotes system).length := by
    intro system
    rw [hstart]
    exact Nat.zero_le _
  unfold onlyPage
  rw [placeLine_allFootnotes hcursor, hstart, List.drop_zero]
  show (engine.createNewPage 1).allFootnotes system ++ _ = _
  rw [createNewPage_allFootnotes, List.nil_append]

theorem onlyPage_allMainLines (x : Extracted) : (engine.onlyPage x).allMainLines = [x.mainText] :=
  rfl

end OnlyPage

/-! ## The lines on the pages -/

/-- For every geometry in which the lines outside the notes fit an empty page: the main lines on
the pages are these lines exactly when there is at most one of them. -/
theorem paginate_main_lines_iff (engine : PaginationEngine) (culture : CompareInfo)
    (rawText : Text)
    (hfit : ∀ line ∈ linesOutsideNotes culture rawText,
      engine.calculateLineHeight line ≤ (engine.createNewPage 1).availableHeight) :
    (∃ pages, engine.Paginates culture rawText pages ∧
        pages.flatMap PageModel.allMainLines = linesOutsideNotes culture rawText) ↔
      (linesOutsideNotes culture rawText).length ≤ 1 := by
  constructor
  · rintro ⟨pages, hpages, hmain⟩
    rw [← hmain, hpages.fillPost.main, splitLines_mainText]
    split <;> simp
  · intro hone
    have hlines := splitLines_mainText_of_length_le_one culture rawText hone
    by_cases hmain : (extractContentAndFootnotes culture rawText).mainText = []
    · refine ⟨[], paginates_of_mainText_nil hmain, ?_⟩
      rw [← hlines, splitLines_mainText, if_pos hmain]
      rfl
    · rw [splitLines_mainText, if_neg hmain] at hlines
      have hmem : (extractContentAndFootnotes culture rawText).mainText ∈
          linesOutsideNotes culture rawText := by
        rw [← hlines]
        exact List.mem_singleton_self _
      refine ⟨_, paginates_of_mainText_fits hmain (hfit _ hmem), ?_⟩
      rw [List.flatMap_singleton, onlyPage_allMainLines, hlines]

/-- One line and a note behind it. -/
theorem paginate_main_lines_single :
    ∃ pages, Paginates {} .ordinal (utf16 "a $$b$$\n") pages ∧
      pages.flatMap PageModel.allMainLines = linesOutsideNotes .ordinal (utf16 "a $$b$$\n") :=
  (paginate_main_lines_iff {} .ordinal (utf16 "a $$b$$\n") (by decide +kernel)).mpr
    (by decide +kernel)

/-- Two lines come out as one. -/
theorem paginate_joins_two_lines :
    ¬ ∀ (engine : PaginationEngine) (culture : CompareInfo) (rawText : Text),
        (∀ line ∈ linesOutsideNotes culture rawText,
          engine.calculateLineHeight line ≤ (engine.createNewPage 1).availableHeight) →
        ∃ pages, engine.Paginates culture rawText pages ∧
          pages.flatMap PageModel.allMainLines = linesOutsideNotes culture rawText := by
  intro hall
  obtain ⟨pages, hpages, hmain⟩ := hall {} .ordinal (utf16 "a\nb") (by decide +kernel)
  rw [hpages.fillPost.main] at hmain
  exact absurd hmain (by decide +kernel)

/-! ## The height of the page -/

/-- The height the content of a page takes: its main lines wrapped at 50 characters, and its
notes. -/
def contentHeight (engine : PaginationEngine) (page : PageModel) : ℚ :=
  engine.lineHeight * (page.allMainLines.map fun line => (wrapText line 50).length).sum +
    engine.footnoteHeight *
      (page.allFootnotesA.length + page.allFootnotesB.length + page.allFootnotesC.length : Nat)

/-- With the default geometry a line always fits an empty page. -/
theorem calculateLineHeight_default_le (line : Text) :
    calculateLineHeight {} line ≤ (createNewPage {} 1).availableHeight := by
  unfold calculateLineHeight
  split <;> norm_num [createNewPage, PageModel.availableHeight]

/-- With the default geometry `Paginate` returns, and no page is overfull exactly when there is no
main text or the wrapped main text and all notes together fit one page of height 510. -/
theorem paginate_not_overfull_iff (culture : CompareInfo) (rawText : Text) :
    ∃ pages, Paginates {} culture rawText pages ∧
      ((∀ page ∈ pages, contentHeight {} page ≤ page.availableHeight) ↔
        (extractContentAndFootnotes culture rawText).mainText = [] ∨
          30 * (wrapText (extractContentAndFootnotes culture rawText).mainText 50).length +
              20 * ((extractContentAndFootnotes culture rawText).footnotesA.length +
                (extractContentAndFootnotes culture rawText).footnotesB.length +
                (extractContentAndFootnotes culture rawText).footnotesC.length) ≤ 510) := by
  by_cases hmain : (extractContentAndFootnotes culture rawText).mainText = []
  · refine ⟨[], paginates_of_mainText_nil hmain, ?_⟩
    simp [hmain]
  · refine ⟨_, paginates_of_mainText_fits hmain (calculateLineHeight_default_le _), ?_⟩
    generalize extractContentAndFootnotes culture rawText = x at hmain ⊢
    have hA : (onlyPage {} x).allFootnotesA = x.footnotesA := onlyPage_allFootnotes x .A
    have hB : (onlyPage {} x).allFootnotesB = x.footnotesB := onlyPage_allFootnotes x .B
    have hC : (onlyPage {} x).allFootnotesC = x.footnotesC := onlyPage_allFootnotes x .C
    have havailable : (onlyPage {} x).availableHeight = 510 := by
      show (600 - 50 - 40 : ℚ) = 510
      norm_num
    simp only [List.mem_singleton, forall_eq, contentHeight, havailable, onlyPage_allMainLines,
      hA, hB, hC, hmain, false_or, List.map_cons, List.map_nil, List.sum_singleton]
    exact_mod_cast Iff.rfl

/-- One line with twenty-five notes. -/
theorem paginate_overfull_twenty_five_notes :
    ¬ ∀ (culture : CompareInfo) (rawText : Text) (pages : List PageModel),
        Paginates {} culture rawText pages →
          ∀ page ∈ pages, contentHeight {} page ≤ page.availableHeight := by
  intro hall
  have hrun : (paginate {} .ordinal 2
      (utf16 "a" ++ (List.replicate 25 (utf16 "$$x$$")).flatten)).map (fun pages =>
        pages.all fun page => decide (contentHeight {} page ≤ page.availableHeight)) =
      some false := by decide +kernel
  obtain ⟨pages, hpages, hover⟩ := Option.map_eq_some_iff.mp hrun
  have hfits := hall .ordinal _ pages ⟨2, hpages⟩
  rw [List.all_eq_false] at hover
  obtain ⟨page, hpage, hnot⟩ := hover
  exact hnot (decide_eq_true (hfits page hpage))

end PaginationEngine

end Typesetting
