/-
# Typesetting.Services.PageBreaks -- how long the page-filling loop runs and how few pages it makes

A pass of the loop places a line or turns the page, and nothing in the loop bounds the pages that
are turned for one line. On an empty page a line fits when it is no higher than the page, so the
loop ends exactly when all lines are that low, and then no page is turned while it is empty.

The lines of the pages are then a first-fit breaking, for groups of lines that are no higher than
an empty page together. As heights are not negative, parts of a page that fits also fit, and the
optimality of first fit applies.
-/
import Mathlib.Algebra.Order.BigOperators.Group.List
import Mathlib.Tactic.Linarith
import Typesetting.Lib.FirstFit
import Typesetting.Services.PageFilling

namespace Typesetting

namespace PaginationEngine

/-- The height of lines below one another. -/
def linesHeight (engine : PaginationEngine) (lines : List Text) : ℚ :=
  (lines.map engine.calculateLineHeight).sum

/-- Lines that are together no higher than an empty page. -/
def FitsPage (engine : PaginationEngine) (lines : List Text) : Prop :=
  engine.linesHeight lines ≤ (engine.createNewPage 1).availableHeight

/-! ## Heights -/

section Heights

variable {engine : PaginationEngine} {x : Extracted} {line : Text} {s : FillState}

theorem availableHeight_createNewPage (n : Nat) :
    (engine.createNewPage n).availableHeight = engine.pageHeight - 90 := by
  show engine.pageHeight - 50 - 40 = engine.pageHeight - 90
  linarith

@[simp] theorem placeLine_usedHeight :
    (engine.placeLine x line s).currentPage.usedHeight =
      s.currentPage.usedHeight + engine.calculateLineHeight line := rfl

@[simp] theorem linesHeight_append (lines lines' : List Text) :
    engine.linesHeight (lines ++ lines') = engine.linesHeight lines + engine.linesHeight lines' := by
  simp [linesHeight]

@[simp] theorem linesHeight_singleton (line : Text) :
    engine.linesHeight [line] = engine.calculateLineHeight line := by
  simp [linesHeight]

theorem calculateLineHeight_nonneg (hline : 0 ≤ engine.lineHeight) (line : Text) :
    0 ≤ engine.calculateLineHeight line := by
  unfold calculateLineHeight
  split
  · linarith
  · exact hline

theorem linesHeight_nonneg (hline : 0 ≤ engine.lineHeight) (lines : List Text) :
    0 ≤ engine.linesHeight lines := by
  apply List.sum_nonneg
  intro h hh
  obtain ⟨line, -, rfl⟩ := List.mem_map.mp hh
  exact calculateLineHeight_nonneg hline line

/-- A part of lines that fit a page fits a page. -/
theorem FitsPage.infix (hline : 0 ≤ engine.lineHeight) {lines part : List Text}
    (h : engine.FitsPage lines) (hpart : part <:+: lines) : engine.FitsPage part := by
  obtain ⟨before, after, rfl⟩ := hpart
  unfold FitsPage at h ⊢
  rw [linesHeight_append, linesHeight_append] at h
  have hbefore := linesHeight_nonneg hline before
  have hafter := linesHeight_nonneg hline after
  linarith

end Heights

/-! ## What a page records about its lines -/

/-- A page made by the loop: its height is that of an empty page, its used height that of its
lines. -/
structure Measured (engine : PaginationEngine) (page : PageModel) : Prop where
  available : page.availableHeight = (engine.createNewPage 1).availableHeight
  used : page.usedHeight = engine.linesHeight page.allMainLines

section Measured

variable {engine : PaginationEngine} {lines : List Text} {x : Extracted} {line : Text}
  {page : PageModel} {s s' : FillState}

theorem measured_createNewPage (n : Nat) : Measured engine (engine.createNewPage n) :=
  ⟨rfl, rfl⟩

theorem Measured.placeLine (h : Measured engine s.currentPage) :
    Measured engine (engine.placeLine x line s).currentPage where
  available := h.available
  used := by
    rw [placeLine_usedHeight, placeLine_allMainLines, linesHeight_append, linesHeight_singleton,
      h.used]

/-- There is room for a line exactly when the lines of the page and this line fit a page. -/
theorem Measured.le_remainingHeight_iff (h : Measured engine page) :
    engine.calculateLineHeight line ≤ page.remainingHeight ↔
      engine.FitsPage (page.allMainLines ++ [line]) := by
  unfold PageModel.remainingHeight FitsPage
  rw [h.available, h.used, linesHeight_append, linesHeight_singleton, le_sub_iff_add_le, add_comm]

/-- Every page met by the loop is measured. -/
def AllMeasured (engine : PaginationEngine) (s : FillState) : Prop :=
  ∀ page ∈ s.pages ++ [s.currentPage], Measured engine page

theorem AllMeasured.current (h : AllMeasured engine s) : Measured engine s.currentPage :=
  h _ (by simp)

theorem allMeasured_start : AllMeasured engine engine.fillStart := by
  intro page hpage
  rw [List.mem_singleton.mp hpage]
  exact measured_createNewPage 1

theorem AllMeasured.step (h : AllMeasured engine s) (hs : engine.fillStep lines x s = .inl s') :
    AllMeasured engine s' := by
  obtain ⟨-, ⟨-, rfl⟩ | ⟨-, rfl⟩⟩ := fillStep_next hs
  · intro page hpage
    rcases List.mem_append.mp hpage with hpage | hpage
    · exact h page (List.mem_append_left _ hpage)
    · rw [List.mem_singleton.mp hpage]
      exact h.current.placeLine
  · intro page hpage
    rcases List.mem_append.mp hpage with hpage | hpage
    · exact h page hpage
    · rw [List.mem_singleton.mp hpage, turnPage_currentPage]
      exact measured_createNewPage _

end Measured

/-! ## When the loop ends -/

section Termination

variable {engine : PaginationEngine} {lines : List Text} {x : Extracted} {s s' : FillState}

/-- The lines placed so far fit an empty page, each by itself. -/
structure PlacedFit (engine : PaginationEngine) (lines : List Text) (s : FillState) : Prop where
  measured : AllMeasured engine s
  fit : ∀ line ∈ lines.take s.lineIndex, engine.FitsPage [line]

theorem PlacedFit.step (hline : 0 ≤ engine.lineHeight) (h : PlacedFit engine lines s)
    (hs : engine.fillStep lines x s = .inl s') : PlacedFit engine lines s' := by
  refine ⟨h.measured.step hs, ?_⟩
  obtain ⟨hlt, ⟨hroom, rfl⟩ | ⟨-, rfl⟩⟩ := fillStep_next hs
  · intro line hmem
    rw [placeLine_lineIndex, List.take_add_one, List.getElem?_eq_getElem hlt, Option.toList_some]
      at hmem
    rcases List.mem_append.mp hmem with hmem | hmem
    · exact h.fit line hmem
    · -- the line fits behind others, so it fits without them
      rw [List.mem_singleton.mp hmem]
      have hall := h.measured.current.le_remainingHeight_iff.mp hroom
      exact hall.infix hline (List.suffix_append _ _).isInfix
  · exact h.fit

theorem fits_of_returns (hline : 0 ≤ engine.lineHeight) {pages : List PageModel}
    (h : WhileLoop.Returns (engine.fillStep lines x) engine.fillStart pages) :
    ∀ line ∈ lines, engine.FitsPage [line] := by
  have hstart : PlacedFit engine lines engine.fillStart :=
    ⟨allMeasured_start, by simp [fillStart]⟩
  have hexit : ∀ s pages, PlacedFit engine lines s → engine.fillStep lines x s = .inr pages →
      ∀ line ∈ lines, engine.FitsPage [line] := by
    intro s pages hinv hs
    have hplaced := hinv.fit
    rw [List.take_of_length_le (fillStep_exit hs).1] at hplaced
    exact hplaced
  exact h.of_invariant (fun _ _ hinv hs => hinv.step hline hs) hexit hstart

/-- A page on which a line does not fit is not empty. -/
theorem Measured.ne_nil_of_full {page : PageModel} {line : Text} (h : Measured engine page)
    (hfit : engine.FitsPage [line]) (hfull : page.remainingHeight < engine.calculateLineHeight line) :
    page.allMainLines ≠ [] := by
  intro hnil
  refine absurd (h.le_remainingHeight_iff.mpr ?_) (not_le.mpr hfull)
  rw [hnil]
  exact hfit

/-- The passes left: two for each line, of which one may be spent when lines are on the page. -/
def passesLeft (lines : List Text) (s : FillState) : Nat :=
  2 * (lines.length - s.lineIndex) + if s.currentPage.allMainLines = [] then 0 else 1

theorem passesLeft_lt (hfits : ∀ line ∈ lines, engine.FitsPage [line])
    (hmeasured : AllMeasured engine s) (hs : engine.fillStep lines x s = .inl s') :
    passesLeft lines s' < passesLeft lines s := by
  unfold passesLeft
  obtain ⟨hlt, ⟨-, rfl⟩ | ⟨hfull, rfl⟩⟩ := fillStep_next hs
  · rw [placeLine_lineIndex, placeLine_allMainLines, if_neg (List.concat_ne_nil _ _)]
    split <;> omega
  · -- the page that is turned holds a line, the new one does not
    have hne := hmeasured.current.ne_nil_of_full (hfits _ (List.getElem_mem hlt)) hfull
    rw [turnPage_lineIndex, turnPage_currentPage, createNewPage_allMainLines, if_pos rfl,
      if_neg hne]
    omega

theorem returns_of_fits (hfits : ∀ line ∈ lines, engine.FitsPage [line]) :
    ∃ pages, WhileLoop.Returns (engine.fillStep lines x) engine.fillStart pages :=
  WhileLoop.returns_of_measure (passesLeft lines)
    (fun _ _ hmeasured hs => ⟨hmeasured.step hs, passesLeft_lt hfits hmeasured hs⟩)
    (@allMeasured_start engine)

end Termination

/-! ## The lines on the pages are a first-fit breaking -/

section Greedy

variable {engine : PaginationEngine} {lines : List Text} {x : Extracted} {s s' : FillState}

/-- The groups of lines on the pages that would be returned now. -/
def lineGroups (s : FillState) : List (List Text) :=
  (closePages s).map PageModel.allMainLines

theorem lineGroups_of_ne_nil (h : s.currentPage.allMainLines ≠ []) :
    lineGroups s = s.pages.map PageModel.allMainLines ++ [s.currentPage.allMainLines] := by
  unfold lineGroups closePages
  rw [if_pos (List.length_pos_of_ne_nil h), List.map_append, List.map_singleton]

theorem lineGroups_of_nil (h : s.currentPage.allMainLines = []) :
    lineGroups s = s.pages.map PageModel.allMainLines := by
  unfold lineGroups closePages
  rw [if_neg (by simp [h])]

theorem lineGroups_placeLine (line : Text) :
    lineGroups (engine.placeLine x line s) =
      s.pages.map PageModel.allMainLines ++ [s.currentPage.allMainLines ++ [line]] := by
  rw [lineGroups_of_ne_nil (by simp)]
  simp

/-- The pages so far break the lines placed so far by first fit. -/
structure GreedyInv (engine : PaginationEngine) (lines : List Text) (s : FillState) : Prop where
  measured : AllMeasured engine s
  groups : FirstFit.IsFirstFit engine.FitsPage (lines.take s.lineIndex) (lineGroups s)
  /-- A new page was opened because the line to be placed does not fit the page before. -/
  pending : s.currentPage.allMainLines = [] → ∀ (before : List PageModel) (page : PageModel),
    s.pages = before ++ [page] → ∀ line, lines[s.lineIndex]? = some line →
      ¬ engine.FitsPage (page.allMainLines ++ [line])

theorem greedyInv_start : GreedyInv engine lines engine.fillStart where
  measured := allMeasured_start
  groups := FirstFit.isFirstFit_nil
  pending _ before page hpages := absurd hpages.symm (List.concat_ne_nil page before)

theorem GreedyInv.placeLine (h : GreedyInv engine lines s) (hlt : s.lineIndex < lines.length)
    (hroom : engine.calculateLineHeight lines[s.lineIndex] ≤ s.currentPage.remainingHeight) :
    GreedyInv engine lines (engine.placeLine x lines[s.lineIndex] s) where
  measured := h.measured.step (fillStep_of_fits (x := x) hlt hroom)
  groups := by
    have hgroups := h.groups
    rw [placeLine_lineIndex, List.take_add_one, List.getElem?_eq_getElem hlt, Option.toList_some,
      lineGroups_placeLine]
    by_cases hblank : s.currentPage.allMainLines = []
    · rw [lineGroups_of_nil hblank] at hgroups
      rw [hblank, List.nil_append]
      rcases List.eq_nil_or_concat s.pages with hpages | ⟨before, page, hpages⟩
      · -- the first line of all
        rw [hpages] at hgroups ⊢
        rw [← hgroups.flatten]
        exact FirstFit.isFirstFit_singleton _
      · have hfull := h.pending hblank before page (by simpa using hpages) _
          (List.getElem?_eq_getElem hlt)
        rw [hpages, List.concat_eq_append, List.map_append, List.map_singleton] at hgroups ⊢
        exact hgroups.next hfull
    · rw [lineGroups_of_ne_nil hblank] at hgroups
      exact hgroups.extend (h.measured.current.le_remainingHeight_iff.mp hroom)
  pending hnil := by simp at hnil

theorem GreedyInv.turnPage (hfits : ∀ line ∈ lines, engine.FitsPage [line])
    (h : GreedyInv engine lines s) (hlt : s.lineIndex < lines.length)
    (hfull : s.currentPage.remainingHeight < engine.calculateLineHeight lines[s.lineIndex])
    (hmeasured : AllMeasured engine (engine.turnPage s)) :
    GreedyInv engine lines (engine.turnPage s) where
  measured := hmeasured
  groups := by
    have hne := h.measured.current.ne_nil_of_full (hfits _ (List.getElem_mem hlt)) hfull
    have hgroups := h.groups
    rw [lineGroups_of_ne_nil hne] at hgroups
    rw [turnPage_lineIndex, lineGroups_of_nil (by simp)]
    simpa using hgroups
  pending _ before page hpages line hline := by
    rw [turnPage_lineIndex, List.getElem?_eq_getElem hlt] at hline
    obtain rfl := Option.some.inj hline
    rw [turnPage_pages] at hpages
    obtain rfl : s.currentPage = page := List.singleton_inj.mp (List.append_inj' hpages rfl).2
    rw [← h.measured.current.le_remainingHeight_iff]
    exact not_le.mpr hfull

theorem GreedyInv.step (hfits : ∀ line ∈ lines, engine.FitsPage [line])
    (h : GreedyInv engine lines s) (hs : engine.fillStep lines x s = .inl s') :
    GreedyInv engine lines s' := by
  have hmeasured := h.measured.step hs
  obtain ⟨hlt, ⟨hroom, rfl⟩ | ⟨hfull, rfl⟩⟩ := fillStep_next hs
  · exact h.placeLine hlt hroom
  · exact h.turnPage hfits hlt hfull hmeasured

/-- The pages of a finished run. -/
structure GreedyPages (engine : PaginationEngine) (lines : List Text) (pages : List PageModel) :
    Prop where
  measured : ∀ page ∈ pages, Measured engine page
  groups : FirstFit.IsFirstFit engine.FitsPage lines (pages.map PageModel.allMainLines)

theorem GreedyInv.exit {pages : List PageModel} (h : GreedyInv engine lines s)
    (hs : engine.fillStep lines x s = .inr pages) : GreedyPages engine lines pages := by
  obtain ⟨hge, rfl⟩ := fillStep_exit hs
  refine ⟨?_, ?_⟩
  · intro page hpage
    apply h.measured page
    unfold closePages at hpage
    split at hpage
    · exact hpage
    · exact List.mem_append_left _ hpage
  · have hgroups := h.groups
    rw [List.take_of_length_le hge] at hgroups
    exact hgroups

theorem greedyPages_of_returns (hfits : ∀ line ∈ lines, engine.FitsPage [line])
    {pages : List PageModel}
    (h : WhileLoop.Returns (engine.fillStep lines x) engine.fillStart pages) :
    GreedyPages engine lines pages :=
  h.of_invariant (fun _ _ hinv hs => hinv.step hfits hs) (fun _ _ hinv hs => hinv.exit hs)
    greedyInv_start

end Greedy

/-! ## Termination and optimality of the loop -/

section Results

variable {engine : PaginationEngine} {lines : List Text} {pages : List PageModel}

theorem GreedyPages.ne_nil (h : GreedyPages engine lines pages) :
    ∀ page ∈ pages, page.allMainLines ≠ [] :=
  fun _ hpage => h.groups.nonempty _ (List.mem_map_of_mem hpage)

theorem GreedyPages.fitsPage (h : GreedyPages engine lines pages)
    (hfits : ∀ line ∈ lines, engine.FitsPage [line]) :
    ∀ page ∈ pages, engine.FitsPage page.allMainLines := by
  intro page hpage
  have hmem : page.allMainLines ∈ pages.map PageModel.allMainLines := List.mem_map_of_mem hpage
  by_cases hlen : 2 ≤ page.allMainLines.length
  · exact h.groups.fit _ hmem _ List.prefix_rfl hlen
  · -- a single line, which is one of the lines of the text
    obtain ⟨line, hline⟩ : ∃ line, page.allMainLines = [line] := by
      have hpos := List.length_pos_of_ne_nil (h.ne_nil page hpage)
      exact List.length_eq_one_iff.mp (by omega)
    have hmemLine : line ∈ lines := h.groups.mem_of_mem_group hmem (by simp [hline])
    rw [hline]
    exact hfits line hmemLine

theorem fitsPage_singleton (line : Text) :
    engine.FitsPage [line] ↔
      engine.calculateLineHeight line ≤ (engine.createNewPage 1).availableHeight := by
  rw [FitsPage, linesHeight_singleton]

end Results

/-- With a line height that is not negative, the page-filling loop ends exactly when every line is
no higher than an empty page, and when it ends every page carries a main line. -/
theorem fill_returns_iff (engine : PaginationEngine) (hline : 0 ≤ engine.lineHeight)
    (lines : List Text) (x : Extracted) :
    ((∃ pages, WhileLoop.Returns (engine.fillStep lines x) engine.fillStart pages) ↔
        ∀ line ∈ lines,
          engine.calculateLineHeight line ≤ (engine.createNewPage 1).availableHeight) ∧
      (engine.createNewPage 1).availableHeight = engine.pageHeight - 90 ∧
      ∀ pages, WhileLoop.Returns (engine.fillStep lines x) engine.fillStart pages →
        ∀ page ∈ pages, page.allMainLines ≠ [] := by
  simp only [← fitsPage_singleton]
  refine ⟨⟨?_, returns_of_fits⟩, availableHeight_createNewPage 1, ?_⟩
  · rintro ⟨pages, hpages⟩
    exact fits_of_returns hline hpages
  · intro pages hpages
    exact (greedyPages_of_returns (fits_of_returns hline hpages) hpages).ne_nil

/-- A line of one character on a page that is too low for it: the loop does not end. -/
theorem fill_returns_iff_low_page :
    ¬ ∃ pages, WhileLoop.Returns
      (fillStep { pageHeight := 100 } [utf16 "a"] ⟨[], [], [], []⟩)
      (fillStart { pageHeight := 100 }) pages := by
  rw [(fill_returns_iff { pageHeight := 100 } (by norm_num) [utf16 "a"] ⟨[], [], [], []⟩).1]
  decide +kernel

/-- The lines on pages of exactly their height, full pages, and no more pages than needed. -/
structure BestPages (engine : PaginationEngine) (lines : List Text) (pages : List PageModel) :
    Prop where
  lines_eq : pages.flatMap PageModel.allMainLines = lines
  used : ∀ page ∈ pages,
    page.usedHeight = (page.allMainLines.map engine.calculateLineHeight).sum
  within : ∀ page ∈ pages, page.usedHeight ≤ page.availableHeight
  /-- The first line of a page had no room on the page before. -/
  full : pages.IsChain fun page next => ∀ line, next.allMainLines.head? = some line →
    page.remainingHeight < engine.calculateLineHeight line
  fewest : ∀ cut : List (List Text), cut.flatten = lines →
    (∀ part ∈ cut, (part.map engine.calculateLineHeight).sum ≤
      (engine.createNewPage 1).availableHeight) →
    pages.length ≤ cut.length

theorem GreedyPages.bestPages {engine : PaginationEngine} {lines : List Text}
    {pages : List PageModel} (hline : 0 ≤ engine.lineHeight)
    (hfits : ∀ line ∈ lines, engine.FitsPage [line]) (h : GreedyPages engine lines pages) :
    BestPages engine lines pages where
  lines_eq := by
    rw [← h.groups.flatten, List.flatMap_def]
  used page hpage := (h.measured page hpage).used
  within page hpage := by
    rw [(h.measured page hpage).used, (h.measured page hpage).available]
    exact h.fitsPage hfits page hpage
  full := by
    have hchain := (List.isChain_map _).mp h.groups.full
    refine hchain.imp_of_mem_imp fun page next hpage _ hfull line hline => ?_
    have hroom := (h.measured page hpage).le_remainingHeight_iff.not.mpr (hfull line hline)
    exact not_le.mp hroom
  fewest cut hcut hheights := by
    have hparts : ∀ part ∈ cut, ∀ k, k <:+: part → 2 ≤ k.length → engine.FitsPage k := by
      intro part hpart k hk _
      have hfitsPart : engine.FitsPage part := hheights part hpart
      exact hfitsPart.infix hline hk
    have hsuffix : lines <:+ cut.flatten := by rw [hcut]
    simpa using h.groups.length_le hsuffix hparts

/-- With a line height that is not negative and lines that fit an empty page, the loop ends; its
pages record the height of their lines and are not overfull, every page is as full as the next line
allows, and no other cut into pages has fewer. -/
theorem fill_best_pages (engine : PaginationEngine) (hline : 0 ≤ engine.lineHeight)
    (lines : List Text) (x : Extracted)
    (hfit : ∀ line ∈ lines,
      engine.calculateLineHeight line ≤ (engine.createNewPage 1).availableHeight) :
    ∃ pages, WhileLoop.Returns (engine.fillStep lines x) engine.fillStart pages ∧
      (∀ page ∈ pages, page.allMainLines ≠ []) ∧ BestPages engine lines pages := by
  simp only [← fitsPage_singleton] at hfit
  obtain ⟨pages, hpages⟩ := returns_of_fits (x := x) hfit
  have hgreedy := greedyPages_of_returns hfit hpages
  exact ⟨pages, hpages, hgreedy.ne_nil, hgreedy.bestPages hline hfit⟩

/-- Three lines, two of which fill a page of height 60. -/
theorem fill_best_pages_three_lines :
    ∃ pages, WhileLoop.Returns
      (fillStep { pageHeight := 150 } [utf16 "a", utf16 "b", utf16 "c"] ⟨[], [], [], []⟩)
      (fillStart { pageHeight := 150 }) pages ∧
      (∀ page ∈ pages, page.allMainLines ≠ []) ∧
      BestPages { pageHeight := 150 } [utf16 "a", utf16 "b", utf16 "c"] pages :=
  fill_best_pages { pageHeight := 150 } (by norm_num) _ _ (by decide +kernel)

end PaginationEngine

end Typesetting
