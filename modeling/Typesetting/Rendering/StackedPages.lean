/-
# Typesetting.Rendering.StackedPages -- do the layers of a page lie below one another?

The main text is drawn from the upper margin down, but `_currentY` stays at the margin. So the
separator lines and the first title, which should come after the main text, are drawn over it
whenever it has a line. On a page without main text it is a matter of the fonts whether section A,
which is drawn with letters and measured with numbers, reaches into the next section: some font
tells a letter from a number as soon as a column has two words.
-/
import Typesetting.Rendering.RunOnHeight

namespace Typesetting

namespace PageRenderer

/-! ## The page -/

section Page

variable {culture : CompareInfo} {measure : TextMeasure} {page : PageModel}

theorem sections_eq_nil_iff :
    sections page = [] ↔ ¬ hasNotes page .A ∧ ¬ hasNotes page .B ∧ ¬ hasNotes page .C := by
  simp [sections]

/-- Main text ends at the margin when there is none, and far below it else. -/
theorem mainBottom_le_iff {gap : ℚ} (hpos : 0 ≤ gap) (hgap : gap ≤ 15) :
    mainBottom page ≤ LayoutConstants.marginTop + gap ↔
      page.mainRight = [] ∧ page.mainLeft = [] := by
  have hheight : 15 < mainLineHeight := by
    norm_num [mainLineHeight, lineHeightOf, LayoutConstants.fontSizeMain,
      LayoutConstants.lineHeightMain]
  have hnil : page.mainRight = [] ∧ page.mainLeft = [] ↔
      max page.mainRight.length page.mainLeft.length = 0 := by
    rw [Nat.max_eq_zero_iff, List.length_eq_zero_iff, List.length_eq_zero_iff]
  unfold mainBottom
  rw [hnil]
  constructor
  · intro h
    by_contra hne
    have hone : (1 : ℚ) ≤ (max page.mainRight.length page.mainLeft.length : Nat) := by
      exact_mod_cast Nat.one_le_iff_ne_zero.mpr hne
    have hmul := mul_le_mul_of_nonneg_right hone (by linarith : 0 ≤ mainLineHeight)
    linarith
  · intro h
    rw [h]
    simpa using hpos

theorem drawnCanvas_of_no_notes (h : sections page = []) :
    drawnCanvas culture measure page = drawPageLayers culture measure page := by
  obtain ⟨hA, hB, hC⟩ := sections_eq_nil_iff.mp h
  have hnone : ¬ (hasNotes page .A ∨ hasNotes page .B ∨ hasNotes page .C) := by
    rintro (h | h | h)
    · exact hA h
    · exact hB h
    · exact hC h
  unfold drawnCanvas renderPage drawSeparatorLines
  rw [drawFootnotes_eq_foldlM, if_neg hnone, h]
  rfl

/-- The canvas of a page with notes: the separator lines are drawn just below the margin, and the
notes follow them. -/
structure NotesCanvas (culture : CompareInfo) (measure : TextMeasure) (page : PageModel)
    (canvas drawn : List Child) : Prop where
  canvas_eq : canvas = drawPageLayers culture measure page ++
    columnRules .separator (LayoutConstants.marginTop + 10) ++ drawn
  notes : SectionsDrawn measure page (sections page) (LayoutConstants.marginTop + 10 + 5) drawn

theorem notesCanvas_drawnCanvas (h : sections page ≠ []) :
    ∃ drawn, NotesCanvas culture measure page (drawnCanvas culture measure page) drawn := by
  have hsome : hasNotes page .A ∨ hasNotes page .B ∨ hasNotes page .C := by
    by_contra hnone
    simp only [not_or] at hnone
    exact h (sections_eq_nil_iff.mpr hnone)
  have hnodup : (sections page).Nodup := List.Nodup.filter _ (by decide)
  unfold drawnCanvas renderPage drawSeparatorLines
  rw [drawFootnotes_eq_foldlM, if_pos hsome]
  obtain ⟨drawn, hcanvas, hdrawn⟩ := sectionsDrawn_foldlM (sections page) hnodup _
  exact ⟨drawn, hcanvas, hdrawn⟩

/-- What is drawn before the notes belongs to no section. -/
theorem system?_before_notes : ∀ c ∈ drawPageLayers culture measure page ++
    columnRules .separator (LayoutConstants.marginTop + 10), c.layer.system? = none := by
  intro c hc
  rcases List.mem_append.mp hc with hc | hc
  · have hlayer := isPageLayer_drawPageLayers c hc
    revert hlayer
    cases c.layer <;> simp [Layer.IsPageLayer, Layer.system?]
  · rw [(columnRules_spec _ _ c hc).1]
    rfl

section NotesCanvas

variable {canvas drawn : List Child} {c : Child}

theorem NotesCanvas.titles_iff (h : NotesCanvas culture measure page canvas drawn) :
    (∀ pair ∈ (sections page).zip (sections page).tail, TitleBelow canvas pair) ↔
      SectionsFit measure page (sections page) := by
  rw [← h.notes.titles, h.canvas_eq]
  apply forall₂_congr
  intro pair _
  apply titleBelow_append
  intro c hc
  rw [system?_before_notes c hc]
  exact ⟨Option.some_ne_none _ |>.symm, Option.some_ne_none _ |>.symm⟩

theorem NotesCanvas.exists_separator (h : NotesCanvas culture measure page canvas drawn) :
    ∃ c ∈ canvas, c.layer = .separator := by
  obtain ⟨rule, hrule⟩ := List.exists_mem_of_ne_nil _
    (columnRules_ne_nil .separator (LayoutConstants.marginTop + 10))
  refine ⟨rule, ?_, (columnRules_spec _ _ rule hrule).1⟩
  rw [h.canvas_eq]
  exact List.mem_append_left _ (List.mem_append_right _ hrule)

theorem NotesCanvas.top_separator (h : NotesCanvas culture measure page canvas drawn)
    (hc : c ∈ canvas) (hlayer : c.layer = .separator) : c.top = LayoutConstants.marginTop + 10 := by
  rw [h.canvas_eq] at hc
  rcases List.mem_append.mp hc with hc | hc
  · rcases List.mem_append.mp hc with hc | hc
    · have hpage := isPageLayer_drawPageLayers c hc
      rw [hlayer] at hpage
      exact hpage.elim
    · exact (columnRules_spec _ _ c hc).2
  · obtain ⟨system, -, howner⟩ := h.notes.owned c hc
    rw [hlayer] at howner
    cases howner

theorem NotesCanvas.top_firstTitle (h : NotesCanvas culture measure page canvas drawn)
    {system : NoteSystem} (hhead : (sections page).head? = some system) (hc : c ∈ canvas)
    (hlayer : c.layer = .sectionTitle system) : c.top = LayoutConstants.marginTop + 10 + 5 := by
  have hmem : c ∈ drawn := by
    rw [h.canvas_eq] at hc
    rcases List.mem_append.mp hc with hc | hc
    · have hnone := system?_before_notes c hc
      rw [hlayer] at hnone
      cases hnone
    · exact hc
  exact (h.notes.first system hhead).2 c hmem hlayer

end NotesCanvas

/-- With notes, the layers are stacked when there is no main text and the sections fit. -/
theorem stacked_iff_of_notes (h : sections page ≠ []) :
    Stacked page (drawnCanvas culture measure page) ↔
      (page.mainRight = [] ∧ page.mainLeft = []) ∧ SectionsFit measure page (sections page) := by
  obtain ⟨drawn, hcanvas⟩ := @notesCanvas_drawnCanvas culture measure page h
  rw [← hcanvas.titles_iff, ← mainBottom_le_iff (by norm_num : (0 : ℚ) ≤ 10) (by norm_num)]
  constructor
  · intro hstacked
    obtain ⟨rule, hrule, hlayer⟩ := hcanvas.exists_separator
    refine ⟨?_, hstacked.titles⟩
    rw [← hcanvas.top_separator hrule hlayer]
    exact hstacked.separators rule hrule hlayer
  · rintro ⟨hmain, htitles⟩
    refine ⟨?_, ?_, htitles⟩
    · intro c hc hlayer
      rw [hcanvas.top_separator hc hlayer]
      exact hmain
    · intro system hhead c hc hlayer
      rw [hcanvas.top_firstTitle hhead hc hlayer]
      linarith

end Page

/-- Under one measure the layers are stacked exactly when there are no notes, or no main text and
section A, if another section follows it and all its notes get a letter, needs no
more lines with letters than with numbers. -/
theorem renderPage_stacked_iff_markersFit (culture : CompareInfo) (measure : TextMeasure)
    (page : PageModel) :
    Stacked page (drawnCanvas culture measure page) ↔
      (¬ hasNotes page .A ∧ ¬ hasNotes page .B ∧ ¬ hasNotes page .C) ∨
        (page.mainRight = [] ∧ page.mainLeft = []) ∧
          (hasNotes page .A → hasNotes page .B ∨ hasNotes page .C →
            page.footnotesARight.length ≤ 20 → page.footnotesALeft.length ≤ 20 →
              MarkersFit measure page .A) := by
  rw [← sections_eq_nil_iff, ← sectionsFit_sections_iff]
  by_cases h : sections page = []
  · -- nothing to stack: only the page layers are drawn
    refine ⟨fun _ => .inl h, fun _ => ?_⟩
    rw [drawnCanvas_of_no_notes h]
    refine ⟨?_, ?_, ?_⟩
    · intro c hc hlayer
      have hpage := isPageLayer_drawPageLayers c hc
      rw [hlayer] at hpage
      exact hpage.elim
    · intro system hhead
      rw [h] at hhead
      cases hhead
    · intro pair hpair
      rw [h] at hpair
      cases hpair
  · rw [stacked_iff_of_notes h]
    exact ⟨.inr, fun hor => hor.resolve_left h⟩

/-! ## Whatever the texts measure -/

/-- The lines of a column with its letters. -/
theorem length_runOnLines {measure : TextMeasure} {system : NoteSystem} {notes : List Text}
    (h : (runOnText (noteMarker (sectionMarker system)) 0 notes []).isSome) (fontSize : ℚ) :
    (runOnLines measure (noteMarker (sectionMarker system)) notes fontSize).length =
      lineCount measure LayoutConstants.columnWidth fontSize (markedWords system notes) := by
  obtain ⟨text, htext⟩ := Option.isSome_iff_exists.mp h
  rw [runOnLines, htext, Option.getD_some, wrapTextToWidth_eq, List.length_map,
    wordsOf_drawnText htext]
  rfl

/-- Section A fits when its higher column with letters is no higher than with numbers. -/
theorem markersFit_A_iff {measure : TextMeasure} {page : PageModel} (h : Completes page .A) :
    MarkersFit measure page .A ↔
      max (lineCount measure LayoutConstants.columnWidth LayoutConstants.fontSizeFootnoteA
          (markedWords .A page.footnotesARight))
        (lineCount measure LayoutConstants.columnWidth LayoutConstants.fontSizeFootnoteA
          (markedWords .A page.footnotesALeft)) ≤
      max (columnLines measure LayoutConstants.fontSizeFootnoteA page.footnotesARight)
        (columnLines measure LayoutConstants.fontSizeFootnoteA page.footnotesALeft) := by
  have hnumbers : ∀ notes,
      (runOnText (noteMarker (sectionMarker .B)) 0 notes []).isSome := by
    intro notes
    rw [runOnText_numbers]
    rfl
  unfold MarkersFit sectionLines columnLines
  rw [length_runOnLines h.1, length_runOnLines h.2, length_runOnLines (hnumbers _),
    length_runOnLines (hnumbers _), markedWords_B, markedWords_B]
  rfl

/-- In every font the letters need no more lines than the numbers only where neither column has
anything behind its first marker. -/
theorem forall_markersFit_iff {page : PageModel} (h : Completes page .A) :
    (∀ measure, MarkersFit measure page .A) ↔
      columnWords page.footnotesARight ≤ 1 ∧ columnWords page.footnotesALeft ≤ 1 := by
  simp only [markersFit_A_iff h]
  constructor
  · intro hall
    let letter := bracketed (utf16 "א")
    have hfit := hall (markerMeasure letter LayoutConstants.columnWidth)
    -- behind numbers a column takes one line at most
    have hnumbers : ∀ notes, columnLines (markerMeasure letter LayoutConstants.columnWidth)
        LayoutConstants.fontSizeFootnoteA notes ≤ 1 := by
      intro notes
      by_cases hne : notes = []
      · rw [hne]
        exact Nat.zero_le 1
      · obtain ⟨rest, hrest⟩ := numberedWords_cons hne
        unfold columnLines
        rw [hrest, lineCount_eq_one (by decide) (by decide)]
    -- and behind letters two as soon as it has two words
    have hletters : ∀ notes, lineCount (markerMeasure letter LayoutConstants.columnWidth)
        LayoutConstants.columnWidth LayoutConstants.fontSizeFootnoteA (markedWords .A notes) ≤ 1 →
          columnWords notes ≤ 1 := by
      intro notes hone
      by_contra hmany
      rw [← length_numberedWords, ← length_markedWords .A] at hmany
      have hne : notes ≠ [] := by
        rintro rfl
        exact hmany (Nat.zero_le 1)
      obtain ⟨rest, hrest⟩ := markedWords_cons (show noteMarker (sectionMarker .A) 0 = some letter
        from by decide) hne
      have htwo : rest ≠ [] := by
        rintro rfl
        rw [hrest] at hmany
        exact hmany le_rfl
      rw [hrest] at hone
      have := @two_le_lineCount LayoutConstants.columnWidth LayoutConstants.fontSizeFootnoteA letter
        rest htwo
      omega
    have hle := hfit.trans (max_le (hnumbers _) (hnumbers _))
    exact ⟨hletters _ (le_of_max_le_left hle), hletters _ (le_of_max_le_right hle)⟩
  · rintro ⟨hright, hleft⟩ measure
    have hsame : ∀ notes, columnWords notes ≤ 1 →
        lineCount measure LayoutConstants.columnWidth LayoutConstants.fontSizeFootnoteA
            (markedWords .A notes) =
          columnLines measure LayoutConstants.fontSizeFootnoteA notes := by
      intro notes hfew
      rw [← length_numberedWords] at hfew
      unfold columnLines
      rw [lineCount_of_length_le_one hfew, lineCount_of_length_le_one
        (by rwa [length_markedWords]), length_markedWords]
    rw [hsame _ hright, hsame _ hleft]

/-- The layers of a page are stacked without overlap, whatever the texts measure, exactly when there
are no notes, or no main text and section A, if another section follows it and all its notes get a
letter, has no column with anything behind its first marker. -/
theorem renderPage_stacked_iff (culture : CompareInfo) (page : PageModel) :
    (∀ measure, Stacked page (drawnCanvas culture measure page)) ↔
      (¬ hasNotes page .A ∧ ¬ hasNotes page .B ∧ ¬ hasNotes page .C) ∨
        (page.mainRight = [] ∧ page.mainLeft = []) ∧
          (hasNotes page .A → hasNotes page .B ∨ hasNotes page .C →
            page.footnotesARight.length ≤ 20 → page.footnotesALeft.length ≤ 20 →
              columnWords page.footnotesARight ≤ 1 ∧ columnWords page.footnotesALeft ≤ 1) := by
  simp only [renderPage_stacked_iff_markersFit]
  constructor
  · intro hall
    rcases hall fun _ _ => 0 with hnone | ⟨hmain, -⟩
    · exact .inl hnone
    · by_cases hnone : ¬ hasNotes page .A ∧ ¬ hasNotes page .B ∧ ¬ hasNotes page .C
      · exact .inl hnone
      · refine .inr ⟨hmain, fun hA hBC hright hleft => ?_⟩
        rw [← forall_markersFit_iff ((completes_A_iff page).mpr ⟨hright, hleft⟩)]
        intro measure
        exact ((hall measure).resolve_left hnone).2 hA hBC hright hleft
  · rintro (hnone | ⟨hmain, hfew⟩) measure
    · exact .inl hnone
    · refine .inr ⟨hmain, fun hA hBC hright hleft => ?_⟩
      exact (forall_markersFit_iff ((completes_A_iff page).mpr ⟨hright, hleft⟩)).mpr
        (hfew hA hBC hright hleft) measure

/-- One line of main text and one note: the separator line crosses the line of text. -/
theorem renderPage_overlaps_main_text :
    ¬ ∀ (culture : CompareInfo) (measure : TextMeasure) (page : PageModel),
        Stacked page (drawnCanvas culture measure page) := by
  intro hall
  let measure : TextMeasure := fun text fontSize => text.length * fontSize
  let page : PageModel := { mainRight := [utf16 "x"], footnotesARight := [utf16 "a"] }
  have hcross : (drawnCanvas .ordinal measure page).any (fun c =>
      c.layer = .separator ∧ c.top < mainBottom page) = true := by decide +kernel
  obtain ⟨c, hc, hlayer⟩ := List.any_eq_true.mp hcross
  simp only [decide_eq_true_eq] at hlayer
  exact absurd ((hall .ordinal measure page).separators c hc hlayer.1) (not_le.mpr hlayer.2)

end PageRenderer

end Typesetting
