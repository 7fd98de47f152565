/-
# Typesetting.Views.TwoColumnRows -- nothing on a two-column page lies on anything else

`DrawTwoColumnPage` goes down the page as `DrawGlyphs` does, but twice beside one another: the
columns of the main text start at one height, and so do those of every section. Every child gets a
box here, and the boxes of a page do not meet as long as a line of the font is at most 15/11 of its
size, every line fits its column and has no word that is drawn wider than it was measured (points
and signs such as the maqaf are left out of the measure), and a text is wrapped to the height it was
measured with, or at most ten pixels more. All of them lie on the canvas.
-/
import Typesetting.Lib.Stack
import Typesetting.Views.DrawnRows
import Typesetting.Views.TwoColumnPage

namespace Typesetting

namespace MainWindow

/-! ## Boxes -/

/-- What a child covers of the canvas, in pixels from its left upper corner. -/
structure Box where
  left : ℚ
  right : ℚ
  top : ℚ
  bottom : ℚ

/-- Two boxes one of which ends where the other begins, or before it. -/
def Box.Apart (a b : Box) : Prop :=
  a.right ≤ b.left ∨ b.right ≤ a.left ∨ a.bottom ≤ b.top ∨ b.bottom ≤ a.top

/-- The size of the blocks as WPF draws them. -/
structure DrawnSizes where
  blockWidth : Text → ℚ → ℚ
  blockHeight : Text → ℚ → ℚ
  /-- The height of a text that is wrapped to a width, in a font size. -/
  wrappedHeight : Text → ℚ → ℚ → ℚ

/-- The box of a child on a canvas of the given width. -/
def PageChild.box (sizes : DrawnSizes) (canvasWidth : ℚ) : PageChild → Box
  | .fromLeft text left top fontSize =>
    ⟨left, left + sizes.blockWidth text fontSize, top, top + sizes.blockHeight text fontSize⟩
  | .fromRight block =>
    ⟨canvasWidth - (block.right + sizes.blockWidth block.text block.fontSize),
      canvasWidth - block.right, block.top,
      block.top + sizes.blockHeight block.text block.fontSize⟩
  | .wrapped block width =>
    ⟨canvasWidth - (block.right + width), canvasWidth - block.right, block.top,
      block.top + sizes.wrappedHeight block.text width block.fontSize⟩
  | .rule y x1 x2 => ⟨x1, x2, y, y⟩

/-- What is drawn keeps to what was measured. -/
structure DrawnAsMeasured (wpf : PageMeasures) (sizes : DrawnSizes) : Prop where
  block_le : ∀ text fontSize, 0 ≤ fontSize → OneLine text →
    sizes.blockHeight text fontSize ≤ fontSize * (15 / 11)
  word_nonneg : ∀ word fontSize, 0 ≤ measureWordWidth wpf.wordWidth word fontSize
  center_nonneg : ∀ text fontSize, 0 ≤ wpf.centerWidth text fontSize
  center_le : ∀ text fontSize, sizes.blockWidth text fontSize ≤ wpf.centerWidth text fontSize
  title_le : ∀ text fontSize, sizes.blockWidth text fontSize ≤ wpf.titleWidth text fontSize
  runOn_nonneg : ∀ text width fontSize, 0 ≤ wpf.runOnHeight text width fontSize
  wrapped_le : ∀ text width fontSize,
    sizes.wrappedHeight text width fontSize ≤ wpf.runOnHeight text width fontSize + 10

/-- A line fits its column, as one block and word by word. A word is measured without its points, so
it is asked of the line that none of its words is drawn wider. -/
structure LineFits (wpf : PageMeasures) (sizes : DrawnSizes) (columnWidth : ℚ) (line : Text) :
    Prop where
  oneLine : OneLine line
  word_le : ∀ word ∈ splitAtSpaces line,
    sizes.blockWidth word 16 ≤ measureWordWidth wpf.wordWidth word 16
  block_le : sizes.blockWidth line 16 ≤ columnWidth
  words_le : (wordWidths wpf.wordWidth line 16).sum ≤ columnWidth

/-- The texts of a page fit the places they are given. -/
structure PageFits (wpf : PageMeasures) (sizes : DrawnSizes) (page : ColumnPage) : Prop where
  margin_nonneg : 0 ≤ page.marginOuter
  gap_nonneg : 0 ≤ page.marginInner
  column_nonneg : 0 ≤ page.columnWidth
  separator_nonneg : 0 ≤ page.separatorHeight
  rule_le : 100 ≤ page.pageWidth
  number_le : page.marginOuter + sizes.blockWidth (natToText page.pageNumber) 10 ≤ page.pageWidth
  header_oneLine : OneLine page.runningHeaderRight ∧ OneLine page.runningHeaderCenter ∧
    OneLine page.runningHeaderLeft
  center_le : wpf.centerWidth page.runningHeaderCenter 11 ≤ page.pageWidth
  -- the outer parts of the header end where the middle one begins
  header_right_le : page.marginOuter + sizes.blockWidth page.runningHeaderRight 11 ≤
    (page.pageWidth - wpf.centerWidth page.runningHeaderCenter 11) / 2
  header_left_le : page.marginOuter + sizes.blockWidth page.runningHeaderLeft 11 ≤
    (page.pageWidth - wpf.centerWidth page.runningHeaderCenter 11) / 2
  lineHeight_le : 16 * (15 / 11) ≤ page.mainLineHeight
  lines : ∀ line ∈ page.mainContentColumnRight ++ page.mainContentColumnLeft,
    LineFits wpf sizes page.columnWidth line
  titles : ∀ system, OneLine (page.footnoteTitle system) ∧
    wpf.titleWidth (page.footnoteTitle system) 13 ≤ page.pageWidth

/-- Children between two heights, in rows, all of them between `x1` and `x2`. -/
structure Laid (sizes : DrawnSizes) (canvasWidth x1 x2 lo : ℚ) (children : List PageChild)
    (hi : ℚ) : Prop where
  rows : Stack.Stacked (fun c : PageChild => (c.box sizes canvasWidth).top)
    (fun c => (c.box sizes canvasWidth).bottom)
    (fun a b => (a.box sizes canvasWidth).Apart (b.box sizes canvasWidth)) lo children hi
  inside : ∀ c ∈ children, x1 ≤ (c.box sizes canvasWidth).left ∧
    (c.box sizes canvasWidth).right ≤ x2

section Laid

variable {sizes : DrawnSizes} {canvasWidth x1 x2 lo mid hi : ℚ} {a b : List PageChild}

theorem Laid.nil (h : lo ≤ hi) : Laid sizes canvasWidth x1 x2 lo [] hi :=
  ⟨.nil h, fun _ hc => nomatch hc⟩

theorem Laid.append (ha : Laid sizes canvasWidth x1 x2 lo a mid)
    (hb : Laid sizes canvasWidth x1 x2 mid b hi) : Laid sizes canvasWidth x1 x2 lo (a ++ b) hi :=
  ⟨ha.rows.append hb.rows, fun c hc => (List.mem_append.mp hc).elim (ha.inside c) (hb.inside c)⟩

theorem Laid.lower (h : Laid sizes canvasWidth x1 x2 lo a hi) {hi' : ℚ} (hle : hi ≤ hi') :
    Laid sizes canvasWidth x1 x2 lo a hi' :=
  ⟨h.rows.lower hle, h.inside⟩

theorem Laid.single {child : PageChild} (hle : lo ≤ hi)
    (htop : lo ≤ (child.box sizes canvasWidth).top)
    (hbottom : (child.box sizes canvasWidth).bottom ≤ hi)
    (hleft : x1 ≤ (child.box sizes canvasWidth).left)
    (hright : (child.box sizes canvasWidth).right ≤ x2) :
    Laid sizes canvasWidth x1 x2 lo [child] hi := by
  refine ⟨.single hle htop hbottom, fun c hc => ?_⟩
  obtain rfl := List.mem_singleton.mp hc
  exact ⟨hleft, hright⟩

/-- Two columns, the first one to the right of the second. -/
theorem Laid.beside {y1 y2 hi' bottom' : ℚ} (ha : Laid sizes canvasWidth y2 x2 lo a hi)
    (hb : Laid sizes canvasWidth x1 y1 lo b hi') (hgap : y1 ≤ y2) (hx1 : x1 ≤ y2) (hx2 : y1 ≤ x2)
    (hle : hi ≤ bottom') (hle' : hi' ≤ bottom') :
    Laid sizes canvasWidth x1 x2 lo (a ++ b) bottom' := by
  constructor
  · refine ha.rows.beside hb.rows hle hle' (fun _ _ habove => .inr (.inr (.inl habove))) ?_
    intro c hc d hd
    exact .inr (.inl ((hb.inside d hd).2.trans (hgap.trans (ha.inside c hc).1)))
  · intro c hc
    rcases List.mem_append.mp hc with hc | hc
    · exact ⟨hx1.trans (ha.inside c hc).1, (ha.inside c hc).2⟩
    · exact ⟨(hb.inside c hc).1, (hb.inside c hc).2.trans hx2⟩

end Laid

/-! ## The main text -/

section MainText

variable {wpf : PageMeasures} {sizes : DrawnSizes} {line : Text} {x y columnWidth : ℚ}

theorem mem_placeWords {measure : TextMeasure} {fontSize gap : ℚ} {wordTexts : List Text}
    {block : PlacedText} (h : block ∈ placeWords measure y fontSize gap wordTexts x) :
    block.text ∈ wordTexts ∧ block.top = y ∧ block.fontSize = fontSize := by
  induction wordTexts generalizing x with
  | nil => cases h
  | cons word rest ih =>
      rcases List.mem_cons.mp h with rfl | h
      · exact ⟨List.mem_cons_self, rfl, rfl⟩
      · obtain ⟨hmem, hsame⟩ := ih h
        exact ⟨List.mem_cons_of_mem _ hmem, hsame⟩

/-- The blocks of a line lie at its height, in its font size, and hold characters of the line. -/
theorem mem_renderJustifiedLine {measure : TextMeasure} {fontSize : ℚ} {justify : Bool}
    {block : PlacedText}
    (h : block ∈ renderJustifiedLine measure line x y columnWidth fontSize justify) :
    block.top = y ∧ block.fontSize = fontSize ∧ ∀ c ∈ block.text, c ∈ line := by
  unfold renderJustifiedLine at h
  split at h
  · cases h
  · dsimp only at h
    split at h
    · obtain rfl := List.mem_singleton.mp h
      exact ⟨rfl, rfl, fun c hc => hc⟩
    · obtain ⟨hword, htop, hsize⟩ := mem_placeWords h
      refine ⟨htop, hsize, fun c hc => ?_⟩
      exact (Segment.exists_mem_words_iff.mp ⟨block.text, hword, hc⟩).1

/-- The blocks of a line that fits follow one another to the left and stay in the column. -/
theorem renderJustifiedLine_in_column (h : DrawnAsMeasured wpf sizes)
    (hline : LineFits wpf sizes columnWidth line) (justify : Bool) :
    let drawn := renderJustifiedLine wpf.wordWidth line x y columnWidth 16 justify
    drawn.Pairwise (fun a b => a.right + sizes.blockWidth a.text a.fontSize ≤ b.right) ∧
      ∀ block ∈ drawn, x ≤ block.right ∧
        block.right + sizes.blockWidth block.text block.fontSize ≤ x + columnWidth := by
  intro drawn
  by_cases hone : isNullOrWhiteSpace line = true
  · have hnil : drawn = [] := if_pos hone
    rw [hnil]
    exact ⟨.nil, fun _ hblock => nomatch hblock⟩
  by_cases hblock : (splitAtSpaces line).length = 1 ∨ justify = false
  · have hsingle : drawn = [⟨line, x, y, 16⟩] := by
      show renderJustifiedLine _ _ _ _ _ _ _ = _
      unfold renderJustifiedLine
      rw [if_neg hone]
      exact if_pos hblock
    rw [hsingle]
    refine ⟨List.pairwise_singleton _ _, fun block hmem => ?_⟩
    obtain rfl := List.mem_singleton.mp hmem
    exact ⟨le_refl x, add_le_add_right hline.block_le x⟩
  · obtain ⟨hlength, hjustify⟩ := not_or.mp hblock
    obtain rfl : justify = true := by simpa using hjustify
    -- a line that is not blank has a word, and this one has more
    have hwords : 2 ≤ (splitAtSpaces line).length := by
      have hne : splitAtSpaces line ≠ [] := by
        intro hnil
        apply hone
        refine List.all_eq_true.mpr fun c hc => ?_
        have hspace := Segment.words_eq_nil_iff.mp hnil c hc
        rw [beq_iff_eq.mp hspace]
        exact isWhiteSpace_space
      have hpos := List.length_pos_of_ne_nil hne
      omega
    have hwidths : 2 ≤ (wordWidths wpf.wordWidth line 16).length := by
      unfold wordWidths
      rwa [List.length_map]
    have hnonneg : ∀ w ∈ wordWidths wpf.wordWidth line 16, 0 ≤ w := by
      intro w hw
      obtain ⟨word, -, rfl⟩ := List.mem_map.mp hw
      exact h.word_nonneg word 16
    have hwidth : ∀ block ∈ drawn, sizes.blockWidth block.text block.fontSize ≤
        measureWordWidth wpf.wordWidth block.text block.fontSize := by
      have hplaced : ∃ gap, drawn = placeWords wpf.wordWidth y 16 gap (splitAtSpaces line) x :=
        ⟨_, (if_neg hone).trans (if_neg hblock)⟩
      obtain ⟨gap, hplaced⟩ := hplaced
      intro block hmem
      rw [hplaced] at hmem
      obtain ⟨hword, -, hsize⟩ := mem_placeWords hmem
      rw [hsize]
      exact hline.word_le block.text hword
    have hspans : drawn.map (PlacedText.span wpf.wordWidth) = _ :=
      span_renderJustifiedLine (by simpa using hone) hwords
    have hgap := (Justify.gapOf_nonneg_iff hwidths).mpr hline.words_le
    have hapart := @Justify.pairwise_place ℚ _ _ _ _ x _ hgap hnonneg
    have hbetween := @Justify.between_place ℚ _ _ _ x _ _ hwidths hnonneg hline.words_le
    rw [← hspans] at hapart hbetween
    constructor
    · refine (List.pairwise_map.mp hapart).imp_of_mem fun {a b} ha _ hab => ?_
      have hle := hwidth a ha
      have hstop : a.right + measureWordWidth wpf.wordWidth a.text a.fontSize ≤ b.right := hab
      linarith
    · intro block hmem
      obtain ⟨hstart, hstop⟩ := hbetween _ (List.mem_map_of_mem hmem)
      have hle := hwidth block hmem
      have hend : block.right + measureWordWidth wpf.wordWidth block.text block.fontSize ≤
          x + columnWidth := hstop
      exact ⟨hstart, by linarith⟩

/-- A line is a row of its column. -/
theorem laid_renderJustifiedLine (h : DrawnAsMeasured wpf sizes)
    (hline : LineFits wpf sizes columnWidth line) {lineHeight : ℚ}
    (hroom : 16 * (15 / 11) ≤ lineHeight) (canvasWidth : ℚ) (justify : Bool) :
    Laid sizes canvasWidth (canvasWidth - (x + columnWidth)) (canvasWidth - x) y
      ((renderJustifiedLine wpf.wordWidth line x y columnWidth 16 justify).map .fromRight)
      (y + lineHeight) := by
  obtain ⟨hapart, hbetween⟩ := @renderJustifiedLine_in_column wpf sizes line x y columnWidth h hline
    justify
  have hheight : ∀ child ∈ (renderJustifiedLine wpf.wordWidth line x y columnWidth 16
      justify).map PageChild.fromRight, y ≤ (child.box sizes canvasWidth).top ∧
        (child.box sizes canvasWidth).bottom ≤ y + lineHeight := by
    intro child hchild
    obtain ⟨block, hblock, rfl⟩ := List.mem_map.mp hchild
    obtain ⟨htop, hsize, hchars⟩ := mem_renderJustifiedLine hblock
    have hle := h.block_le block.text block.fontSize (by rw [hsize]; norm_num)
      fun c hc => hline.oneLine c (hchars c hc)
    rw [hsize] at hle
    show y ≤ block.top ∧ block.top + sizes.blockHeight block.text block.fontSize ≤ y + lineHeight
    rw [hsize]
    exact ⟨htop.ge, by linarith⟩
  have hbeside : ((renderJustifiedLine wpf.wordWidth line x y columnWidth 16 justify).map
      PageChild.fromRight).Pairwise fun a b =>
        (a.box sizes canvasWidth).Apart (b.box sizes canvasWidth) := by
    refine List.pairwise_map.mpr (hapart.imp fun {a b} hab => .inr (.inl ?_))
    show canvasWidth - b.right ≤ canvasWidth - (a.right + sizes.blockWidth a.text a.fontSize)
    linarith
  have hrow := Stack.Stacked.row (by linarith) hheight hbeside (.nil (le_refl (y + lineHeight)))
  rw [List.append_nil] at hrow
  refine ⟨hrow, fun child hchild => ?_⟩
  obtain ⟨block, hblock, rfl⟩ := List.mem_map.mp hchild
  obtain ⟨hstart, hend⟩ := hbetween block hblock
  show canvasWidth - (x + columnWidth) ≤
      canvasWidth - (block.right + sizes.blockWidth block.text block.fontSize) ∧
    canvasWidth - block.right ≤ canvasWidth - x
  exact ⟨by linarith, by linarith⟩

theorem laid_textColumnLines (h : DrawnAsMeasured wpf sizes) {lineHeight : ℚ}
    (hroom : 16 * (15 / 11) ≤ lineHeight) (canvasWidth : ℚ) (justify : Bool) (count i : Nat)
    {lines : List Text} (hlines : ∀ line ∈ lines, LineFits wpf sizes columnWidth line)
    (currentY : ℚ) :
    let drawn := textColumnLines wpf x columnWidth lineHeight 16 justify count i lines currentY
    Laid sizes canvasWidth (canvasWidth - (x + columnWidth)) (canvasWidth - x) currentY
      (drawn.1.map .fromRight) drawn.2 := by
  induction lines generalizing i currentY with
  | nil => exact .nil le_rfl
  | cons line lines ih =>
      obtain ⟨hline, hrest⟩ := List.forall_mem_cons.mp hlines
      simp only [textColumnLines, List.map_append]
      exact (laid_renderJustifiedLine h hline hroom canvasWidth _).append (ih (i + 1) hrest _)

theorem laid_drawTextColumn (h : DrawnAsMeasured wpf sizes) {page : ColumnPage}
    (hfits : PageFits wpf sizes page) {lines : List Text}
    (hlines : ∀ line ∈ lines, LineFits wpf sizes page.columnWidth line) (x mainTextY : ℚ) :
    let drawn := drawTextColumn wpf page lines x mainTextY
    Laid sizes page.pageWidth (page.pageWidth - (x + page.columnWidth)) (page.pageWidth - x)
      mainTextY (drawn.1.map .fromRight) drawn.2 := by
  unfold drawTextColumn renderTextColumn
  split
  · exact .nil le_rfl
  · exact laid_textColumnLines h hfits.lineHeight_le _ _ _ _ hlines _

end MainText

/-! ## The notes -/

section Notes

variable {wpf : PageMeasures} {sizes : DrawnSizes} {page : ColumnPage}

theorem laid_renderRunOnColumn (h : DrawnAsMeasured wpf sizes) (canvasWidth : ℚ) (text : Text)
    (x y columnWidth fontSize : ℚ) :
    Laid sizes canvasWidth (canvasWidth - (x + columnWidth)) (canvasWidth - x) y
      (renderRunOnColumn text x y columnWidth fontSize)
      (y + measureRunOnHeight wpf text columnWidth fontSize + 10) := by
  have hnonneg := h.runOn_nonneg text columnWidth fontSize
  have hheight := h.wrapped_le text columnWidth fontSize
  unfold renderRunOnColumn measureRunOnHeight
  split
  · exact .nil (by linarith)
  · refine .single (by linarith) (le_refl y) ?_ (le_refl _) (le_refl _)
    show y + sizes.wrappedHeight text columnWidth fontSize ≤ _
    linarith

/-- The columns of a page lie side by side between its margins. -/
theorem columns_between (page : ColumnPage) :
    page.pageWidth - (page.marginOuter + page.columnWidth + page.columnGap + page.columnWidth) =
        page.marginOuter ∧
      page.pageWidth - (page.marginOuter + page.columnWidth + page.columnGap) =
        page.marginOuter + page.columnWidth := by
  unfold ColumnPage.columnWidth
  constructor <;> ring

/-- A section is a rule, a title and a row of two columns. -/
theorem laid_drawNoteSection (h : DrawnAsMeasured wpf sizes) (hfits : PageFits wpf sizes page)
    (system : NoteSystem) (currentY : ℚ) :
    let drawn := drawNoteSection wpf page system currentY
    Laid sizes page.pageWidth 0 page.pageWidth currentY drawn.1 drawn.2 := by
  unfold drawNoteSection
  dsimp only
  split
  · obtain ⟨htitle, hwide⟩ := hfits.titles system
    have hmargin := hfits.margin_nonneg
    have hcolumn := hfits.column_nonneg
    have hgap := hfits.gap_nonneg
    have hrule := hfits.rule_le
    have hheight := h.block_le (page.footnoteTitle system) 13 (by norm_num) htitle
    have hdrawn := h.title_le (page.footnoteTitle system) 13
    obtain ⟨houter, hinner⟩ := columns_between page
    let texts := columnTexts (page.allFootnotes system) (markerTypeOf system)
    let titleX := (page.pageWidth - wpf.titleWidth (page.footnoteTitle system) 13) / 2
    let notesY := currentY + 15 + 13 * (9 / 5)
    have hfirst : Laid sizes page.pageWidth 0 page.pageWidth currentY
        [.rule currentY (page.pageWidth / 2 - 50) (page.pageWidth / 2 + 50)] (currentY + 15) := by
      refine .single (by linarith) (le_refl currentY) ?_ ?_ ?_
      · show currentY ≤ currentY + 15
        linarith
      · show 0 ≤ page.pageWidth / 2 - 50
        linarith
      · show page.pageWidth / 2 + 50 ≤ page.pageWidth
        linarith
    have hsecond : Laid sizes page.pageWidth 0 page.pageWidth (currentY + 15)
        [.fromLeft (page.footnoteTitle system) titleX (currentY + 15) 13] notesY := by
      refine .single ?_ (le_refl (currentY + 15)) ?_ ?_ ?_
      · show currentY + 15 ≤ currentY + 15 + 13 * (9 / 5)
        linarith
      · show currentY + 15 + sizes.blockHeight (page.footnoteTitle system) 13 ≤
          currentY + 15 + 13 * (9 / 5)
        linarith
      · show 0 ≤ (page.pageWidth - wpf.titleWidth (page.footnoteTitle system) 13) / 2
        linarith
      · show (page.pageWidth - wpf.titleWidth (page.footnoteTitle system) 13) / 2 +
          sizes.blockWidth (page.footnoteTitle system) 13 ≤ page.pageWidth
        linarith
    have hright := laid_renderRunOnColumn h page.pageWidth texts.1 page.marginOuter notesY
      page.columnWidth 12
    have hleft := laid_renderRunOnColumn h page.pageWidth texts.2
      (page.marginOuter + page.columnWidth + page.columnGap) notesY page.columnWidth 12
    rw [houter, hinner] at hleft
    have hwidth : page.marginOuter + page.columnWidth ≤
        page.pageWidth - (page.marginOuter + page.columnWidth) := by
      unfold ColumnPage.columnGap at hinner
      linarith
    have hrow := hright.beside hleft hwidth (by linarith) (by linarith)
      (add_le_add_left (add_le_add_right (le_max_left _ _) notesY) 10)
      (add_le_add_left (add_le_add_right (le_max_right _ _) notesY) 10)
    have hinside : Laid sizes page.pageWidth 0 page.pageWidth notesY _ _ :=
      ⟨hrow.rows, fun c hc => ⟨hmargin.trans (hrow.inside c hc).1,
        (hrow.inside c hc).2.trans (by linarith)⟩⟩
    exact hfirst.append (hsecond.append hinside)
  · exact .nil le_rfl

end Notes

/-! ## The page -/

section Page

variable {wpf : PageMeasures} {sizes : DrawnSizes} {page : ColumnPage}

/-- A part of the header is a row of its own strip, or nothing. -/
theorem laid_headerPart {canvasWidth x1 x2 y : ℚ} {child : PageChild} (p : Prop) [Decidable p]
    (htop : y ≤ (child.box sizes canvasWidth).top)
    (hbottom : (child.box sizes canvasWidth).bottom ≤ y + 20)
    (hleft : x1 ≤ (child.box sizes canvasWidth).left)
    (hright : (child.box sizes canvasWidth).right ≤ x2) :
    Laid sizes canvasWidth x1 x2 y (if p then [child] else []) (y + 20) := by
  split
  · exact .single (by linarith) htop hbottom hleft hright
  · exact .nil (by linarith)

/-- The three parts of the header lie beside one another. -/
theorem laid_drawRunningHeader (h : DrawnAsMeasured wpf sizes) (hfits : PageFits wpf sizes page)
    (y : ℚ) :
    Laid sizes page.pageWidth 0 page.pageWidth y
      (drawRunningHeader wpf page y page.pageWidth page.marginOuter) (y + 20) := by
  let c := wpf.centerWidth page.runningHeaderCenter 11
  have hmargin := hfits.margin_nonneg
  have hnonneg : 0 ≤ c := h.center_nonneg _ 11
  have hcenter : sizes.blockWidth page.runningHeaderCenter 11 ≤ c := h.center_le _ 11
  have hwide : c ≤ page.pageWidth := hfits.center_le
  have hright : page.marginOuter + sizes.blockWidth page.runningHeaderRight 11 ≤
      (page.pageWidth - c) / 2 := hfits.header_right_le
  have hleft : page.marginOuter + sizes.blockWidth page.runningHeaderLeft 11 ≤
      (page.pageWidth - c) / 2 := hfits.header_left_le
  obtain ⟨honeRight, honeCenter, honeLeft⟩ := hfits.header_oneLine
  have hheight : ∀ text, OneLine text → sizes.blockHeight text 11 ≤ 20 := by
    intro text htext
    have hle := h.block_le text 11 (by norm_num) htext
    linarith
  have hpartRight : Laid sizes page.pageWidth ((page.pageWidth + c) / 2) page.pageWidth y
      (if page.runningHeaderRight ≠ [] then
        [.fromRight ⟨page.runningHeaderRight, page.marginOuter, y, 11⟩] else []) (y + 20) := by
    refine laid_headerPart _ (le_refl y) (add_le_add_right (hheight _ honeRight) y) ?_ ?_
    · show (page.pageWidth + c) / 2 ≤
        page.pageWidth - (page.marginOuter + sizes.blockWidth page.runningHeaderRight 11)
      linarith
    · show page.pageWidth - page.marginOuter ≤ page.pageWidth
      linarith
  have hpartCenter : Laid sizes page.pageWidth ((page.pageWidth - c) / 2)
      ((page.pageWidth + c) / 2) y
      (if page.runningHeaderCenter ≠ [] then
        [.fromLeft page.runningHeaderCenter ((page.pageWidth - c) / 2) y 11] else [])
      (y + 20) := by
    refine laid_headerPart _ (le_refl y) (add_le_add_right (hheight _ honeCenter) y)
      (le_refl _) ?_
    show (page.pageWidth - c) / 2 + sizes.blockWidth page.runningHeaderCenter 11 ≤
      (page.pageWidth + c) / 2
    linarith
  have hpartLeft : Laid sizes page.pageWidth 0 ((page.pageWidth - c) / 2) y
      (if page.runningHeaderLeft ≠ [] then
        [.fromLeft page.runningHeaderLeft page.marginOuter y 11] else []) (y + 20) :=
    laid_headerPart _ (le_refl y) (add_le_add_right (hheight _ honeLeft) y) hmargin hleft
  have houter := hpartRight.beside hpartCenter (le_refl _) (by linarith) (by linarith)
    (le_refl (y + 20)) (le_refl (y + 20))
  exact houter.beside hpartLeft (le_refl _) (by linarith) (by linarith) (le_refl (y + 20))
    (le_refl (y + 20))

/-- The columns of the main text are one row, as high as the longer one. -/
theorem laid_mainText (h : DrawnAsMeasured wpf sizes) (hfits : PageFits wpf sizes page)
    (mainTextY : ℚ) :
    let right := drawTextColumn wpf page page.mainContentColumnRight page.marginOuter mainTextY
    let left := drawTextColumn wpf page page.mainContentColumnLeft
      (page.marginOuter + page.columnWidth + page.columnGap) mainTextY
    Laid sizes page.pageWidth 0 page.pageWidth mainTextY ((right.1 ++ left.1).map .fromRight)
      (max right.2 left.2 + page.separatorHeight) := by
  intro right left
  have hmargin := hfits.margin_nonneg
  have hcolumn := hfits.column_nonneg
  have hgap := hfits.gap_nonneg
  have hseparator := hfits.separator_nonneg
  obtain ⟨houter, hinner⟩ := columns_between page
  have hright := laid_drawTextColumn h hfits
    (fun line hline => hfits.lines line (List.mem_append_left _ hline)) page.marginOuter mainTextY
  have hleft := laid_drawTextColumn h hfits
    (fun line hline => hfits.lines line (List.mem_append_right _ hline))
    (page.marginOuter + page.columnWidth + page.columnGap) mainTextY
  dsimp only at hright hleft
  rw [houter, hinner] at hleft
  have hwidth : page.marginOuter + page.columnWidth ≤
      page.pageWidth - (page.marginOuter + page.columnWidth) := by
    unfold ColumnPage.columnGap at hinner
    linarith
  have hrow := hright.beside hleft hwidth (by linarith) (by linarith) (le_max_left _ _)
    (le_max_right _ _)
  have hinside : Laid sizes page.pageWidth 0 page.pageWidth mainTextY _ (max right.2 left.2) :=
    ⟨hrow.rows, fun c hc => ⟨hmargin.trans (hrow.inside c hc).1,
      (hrow.inside c hc).2.trans (by linarith)⟩⟩
  rw [List.map_append]
  exact hinside.lower (by linarith)

/-- On a page whose texts fit their places no two children of the canvas overlap, and all of them
lie on it. -/
theorem drawTwoColumnPage_apart (wpf : PageMeasures) (sizes : DrawnSizes) (page : ColumnPage)
    (h : DrawnAsMeasured wpf sizes) (hfits : PageFits wpf sizes page) :
    let drawn := drawTwoColumnPage wpf page
    drawn.children.Pairwise (fun a b =>
        (a.box sizes drawn.width).Apart (b.box sizes drawn.width)) ∧
      ∀ child ∈ drawn.children, 0 ≤ (child.box sizes drawn.width).left ∧
        (child.box sizes drawn.width).right ≤ drawn.width ∧
        0 ≤ (child.box sizes drawn.width).top ∧
        (child.box sizes drawn.width).bottom ≤ drawn.height := by
  intro drawn
  have hmargin := hfits.margin_nonneg
  have hheight : sizes.blockHeight (natToText page.pageNumber) 10 ≤ 10 * (15 / 11) :=
    h.block_le _ 10 (by norm_num) (oneLine_natToText page.pageNumber)
  have hnumber : Laid sizes page.pageWidth 0 page.pageWidth 20
      [.fromLeft (natToText page.pageNumber) page.marginOuter 20 10] (20 + 25) := by
    refine .single (by norm_num) (le_refl 20) ?_ hmargin hfits.number_le
    show 20 + sizes.blockHeight (natToText page.pageNumber) 10 ≤ 20 + 25
    linarith
  have hlaid : ∃ bottom, Laid sizes page.pageWidth 0 page.pageWidth 20 drawn.children bottom ∧
      bottom + 50 ≤ drawn.height :=
    ⟨_, hnumber.append ((laid_drawRunningHeader h hfits (20 + 25)).append
      ((laid_mainText h hfits (20 + 25 + 20)).append ((laid_drawNoteSection h hfits .A _).append
        ((laid_drawNoteSection h hfits .B _).append (laid_drawNoteSection h hfits .C _))))),
      le_max_right _ _⟩
  obtain ⟨bottom, hchildren, hbottom⟩ := hlaid
  constructor
  · refine hchildren.rows.pairwise.imp fun hab => hab.elim id fun habove => ?_
    exact .inr (.inr (.inl habove))
  · intro child hchild
    obtain ⟨hleft, hright⟩ := hchildren.inside child hchild
    obtain ⟨htop, hend⟩ := hchildren.rows.between child hchild
    have hstart : (0 : ℚ) ≤ 20 := by norm_num
    exact ⟨hleft, hright, hstart.trans htop, hend.trans (by linarith)⟩

end Page

/-! ## A page with a header, a line in each column and two notes -/

/-- Every character is one pixel wide, and a text is wrapped to one line. -/
def pixelMeasures : PageMeasures where
  wordWidth text _ := text.length
  centerWidth text _ := text.length
  titleWidth text _ := text.length
  runOnHeight _ _ _ := 20

def pixelSizes : DrawnSizes where
  blockWidth text _ := text.length
  blockHeight _ fontSize := fontSize * (4 / 3)
  wrappedHeight _ _ _ := 20

def shortPage : ColumnPage where
  pageNumber := 1
  runningHeaderRight := utf16 "a"
  runningHeaderCenter := utf16 "b"
  mainContentColumnRight := [utf16 "c d", utf16 "e"]
  mainContentColumnLeft := [utf16 "f"]
  allFootnotesA := [utf16 "g", utf16 "h"]

theorem drawnAsMeasured_pixel : DrawnAsMeasured pixelMeasures pixelSizes where
  block_le text fontSize hsize _ := by
    show fontSize * (4 / 3) ≤ fontSize * (15 / 11)
    linarith
  word_nonneg word fontSize := Nat.cast_nonneg _
  center_nonneg text fontSize := Nat.cast_nonneg _
  center_le text fontSize := le_refl _
  title_le text fontSize := le_refl _
  runOn_nonneg text width fontSize := by norm_num [pixelMeasures]
  wrapped_le text width fontSize := by norm_num [pixelMeasures, pixelSizes]

theorem pageFits_shortPage : PageFits pixelMeasures pixelSizes shortPage where
  margin_nonneg := by decide +kernel
  gap_nonneg := by decide +kernel
  column_nonneg := by decide +kernel
  separator_nonneg := by decide +kernel
  rule_le := by decide +kernel
  number_le := by decide +kernel
  header_oneLine := ⟨oneLine_of_all (by decide), oneLine_of_all (by decide),
    oneLine_of_all (by decide)⟩
  center_le := by decide +kernel
  header_right_le := by decide +kernel
  header_left_le := by decide +kernel
  lineHeight_le := by decide +kernel
  lines line hline := by
    have hall : ∀ line ∈ [utf16 "c d", utf16 "e", utf16 "f"],
        (line.all (fun c => !isWhiteSpace c || c == space) = true ∧
          (∀ word ∈ splitAtSpaces line,
            pixelSizes.blockWidth word 16 ≤ measureWordWidth pixelMeasures.wordWidth word 16) ∧
          pixelSizes.blockWidth line 16 ≤ shortPage.columnWidth) ∧
          (wordWidths pixelMeasures.wordWidth line 16).sum ≤ shortPage.columnWidth := by
      decide +kernel
    obtain ⟨⟨hone, hwidth, hblock⟩, hwords⟩ := hall line hline
    exact ⟨oneLine_of_all hone, hwidth, hblock, hwords⟩
  titles system := by
    cases system
    · exact ⟨oneLine_of_all (by decide), by decide +kernel⟩
    · exact ⟨oneLine_of_all (by decide), by decide +kernel⟩
    · exact ⟨oneLine_of_all (by decide), by decide +kernel⟩

theorem drawTwoColumnPage_apart_shortPage :
    let drawn := drawTwoColumnPage pixelMeasures shortPage
    drawn.children.Pairwise (fun a b =>
        (a.box pixelSizes drawn.width).Apart (b.box pixelSizes drawn.width)) ∧
      ∀ child ∈ drawn.children, 0 ≤ (child.box pixelSizes drawn.width).left ∧
        (child.box pixelSizes drawn.width).right ≤ drawn.width ∧
        0 ≤ (child.box pixelSizes drawn.width).top ∧
        (child.box pixelSizes drawn.width).bottom ≤ drawn.height :=
  drawTwoColumnPage_apart pixelMeasures pixelSizes shortPage drawnAsMeasured_pixel
    pageFits_shortPage

end MainWindow

end Typesetting
