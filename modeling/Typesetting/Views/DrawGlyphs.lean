/-
# Typesetting.Views.DrawGlyphs -- the whole drawing of a page in the window

`DrawGlyphs` reads the lines back from the glyphs, wraps them at forty characters and draws them
justified, all but the last, each 40.8 pixels below the one before. Below the text come the notes of
the three systems, and below everything the page number, whose block is the first or second child of
the canvas and gets its position last; the canvas is made high enough for it.

Two things are shown of every drawing: what was to be drawn can be read off the canvas again, and no
two things on it overlap, as long as a line of the font is not higher than the rows leave room for.

The widths and heights WPF computes are parameters.
-/
import Typesetting.Lib.Stack
import Typesetting.Services.WrapText
import Typesetting.Views.GlyphDecoding
import Typesetting.Views.JustifiedNote

namespace Typesetting

namespace MainWindow

/-! ## The main text -/

/-- What WPF computes for the window. -/
structure WpfMeasures where
  /-- `MeasureTextWidth(text, fontSize)` -/
  textWidth : TextMeasure
  /-- `DesiredSize.Width` of a title. -/
  titleWidth : TextMeasure
  /-- `DesiredSize.Height` of the panel of a note in the width left for it. -/
  panelHeight : NotePanel → ℚ → ℚ

/-- `allLines`: the lines of the glyphs, wrapped at forty characters. -/
def allLines (glyphs : List GlyphInfo) : List Text :=
  (lineTexts glyphs).flatMap fun lineText => wrapText lineText 40

/-- The loop that draws the words of a justified line from the right to the left. -/
def drawWordBlocks (wpf : WpfMeasures) (currentY spaceBetweenWords : ℚ) :
    List Text → ℚ → List PlacedText
  | [], _ => []
  | word :: words, currentX =>
    ⟨word, currentX, currentY, drawGlyphsFontSize⟩ ::
      drawWordBlocks wpf currentY spaceBetweenWords words
        (currentX + (wpf.textWidth word drawGlyphsFontSize + spaceBetweenWords))

/-- The body of `foreach (var wrappedLine in allLines)`. -/
def drawMainLine (wpf : WpfMeasures) (wrappedLine : Text) (isLastLine : Bool) (currentY : ℚ) :
    List PlacedText :=
  let words := splitAtSpaces wrappedLine
  if 1 < words.length ∧ isLastLine = false then
    let totalWordsWidth := (words.map fun word => wpf.textWidth word drawGlyphsFontSize).sum
    let availableWidth := drawGlyphsPageWidth - drawGlyphsMargin - drawGlyphsMargin
    let extraSpace := availableWidth - totalWordsWidth
    let spaceBetweenWords := extraSpace / (words.length - 1 : ℕ)
    drawWordBlocks wpf currentY spaceBetweenWords words drawGlyphsMargin
  else [⟨wrappedLine, drawGlyphsMargin, currentY, drawGlyphsFontSize⟩]

/-- `lineHeight` -/
def drawGlyphsLineHeight : ℚ :=
  drawGlyphsFontSize * (17 / 10)

/-- The loop over the lines from the line after `lineIndex` on: the blocks and the last
`currentY`. -/
def drawMainLines (wpf : WpfMeasures) (totalLines : Nat) :
    Nat → List Text → ℚ → List PlacedText × ℚ
  | _, [], currentY => ([], currentY)
  | lineIndex, wrappedLine :: lines, currentY =>
    let lineIndex := lineIndex + 1
    let isLastLine := lineIndex == totalLines
    let drawn := drawMainLine wpf wrappedLine isLastLine currentY
    let rest := drawMainLines wpf totalLines lineIndex lines (currentY + drawGlyphsLineHeight)
    (drawn ++ rest.1, rest.2)

/-! ## The canvas -/

/-- `GlyphCanvas` -/
structure GlyphCanvas where
  children : List WindowChild := []
  height : ℚ := 700
  width : ℚ := 600

/-- `startY` -/
def drawGlyphsStartY : ℚ := 80

/-- The header, which is drawn for a title that is not empty. -/
def headerBlocks (chapterTitle : Text) : List WindowChild :=
  if chapterTitle ≠ [] then [.text ⟨chapterTitle, drawGlyphsMargin, 20, 14⟩] else []

/-- `DrawGlyphs(glyphs, footnotesA, footnotesB, footnotesC, chapterTitle, pageNumber)`; a list of
notes that is null is treated like an empty one. -/
def drawGlyphs (wpf : WpfMeasures) (glyphs : List GlyphInfo) (footnotes : NoteSystem → List Text)
    (chapterTitle : Text) (pageNumber : Nat) (canvas : GlyphCanvas) : GlyphCanvas :=
  -- without glyphs the canvas is emptied and keeps its size
  if glyphs.length = 0 then { canvas with children := [] }
  else
    let lines := allLines glyphs
    let main := drawMainLines wpf lines.length 0 lines drawGlyphsStartY
    let notes := drawGlyphsNotes wpf.textWidth wpf.panelHeight wpf.titleWidth footnotes main.2
    let finalHeight := max 700 (notes.2 + 50)
    let pageNumberBlock : PlacedText :=
      ⟨natToText pageNumber, drawGlyphsMargin, finalHeight - 40, 16⟩
    { children :=
        headerBlocks chapterTitle ++ .text pageNumberBlock :: (main.1.map .text ++ notes.1)
      height := finalHeight
      width := drawGlyphsPageWidth + drawGlyphsMargin + drawGlyphsMargin }

/-! ## Reading the drawing -/

/-- The blocks of the main text: no other block has their font size. -/
def mainBlocks (children : List WindowChild) : List PlacedText :=
  children.filterMap fun
    | .text block => if block.fontSize = drawGlyphsFontSize then some block else none
    | _ => none

/-- The words of the main text on the canvas, in the order in which they were drawn. -/
def readWords (children : List WindowChild) : List Text :=
  (mainBlocks children).flatMap fun block => splitRemoveEmpty isWhiteSpace block.text

/-- The text of a panel behind its number. -/
def NotePanel.text (note : NotePanel) : Text :=
  (note.heading.map PanelBlock.text).getD [] ++ note.rest.flatMap PanelBlock.text

/-- The numbers and the visible characters of the notes on the canvas. -/
def readNotes (children : List WindowChild) : List (Text × Text) :=
  (panels children).map fun note => (note.number.text, visible note.text)

/-- The number and the visible characters of each note of a system. -/
def numberedNotes (notes : List Text) : List (Text × Text) :=
  notes.mapIdx fun i note => (natToText (i + 1) ++ utf16 ". ", visible note)

/-! ### The main text -/

section MainText

variable {wpf : WpfMeasures}

theorem mainBlocks_append (a b : List WindowChild) :
    mainBlocks (a ++ b) = mainBlocks a ++ mainBlocks b :=
  List.filterMap_append

theorem mainBlocks_map_text {blocks : List PlacedText}
    (h : ∀ block ∈ blocks, block.fontSize = drawGlyphsFontSize) :
    mainBlocks (blocks.map .text) = blocks := by
  unfold mainBlocks
  rw [List.filterMap_map, List.filterMap_congr (g := some), List.filterMap_some]
  intro block hblock
  exact if_pos (h block hblock)

theorem map_text_drawWordBlocks (currentY gap : ℚ) (words : List Text) (currentX : ℚ) :
    (drawWordBlocks wpf currentY gap words currentX).map PlacedText.text = words := by
  induction words generalizing currentX with
  | nil => rfl
  | cons word words ih => rw [drawWordBlocks, List.map_cons, ih]

theorem mem_drawWordBlocks {currentY gap currentX : ℚ} {words : List Text} {block : PlacedText}
    (h : block ∈ drawWordBlocks wpf currentY gap words currentX) :
    block.text ∈ words ∧ block.top = currentY ∧ block.fontSize = drawGlyphsFontSize := by
  induction words generalizing currentX with
  | nil => cases h
  | cons word words ih =>
      rcases List.mem_cons.mp h with rfl | h
      · exact ⟨List.mem_cons_self, rfl, rfl⟩
      · obtain ⟨htext, hrest⟩ := ih h
        exact ⟨List.mem_cons_of_mem _ htext, hrest⟩

/-- The blocks of a line lie at its height, in its font size, and hold characters of the line. -/
theorem mem_drawMainLine {wrappedLine : Text} {isLastLine : Bool} {currentY : ℚ}
    {block : PlacedText} (h : block ∈ drawMainLine wpf wrappedLine isLastLine currentY) :
    block.top = currentY ∧ block.fontSize = drawGlyphsFontSize ∧
      ∀ c ∈ block.text, c ∈ wrappedLine := by
  unfold drawMainLine at h
  simp only at h
  split at h
  · obtain ⟨htext, htop, hsize⟩ := mem_drawWordBlocks h
    refine ⟨htop, hsize, fun c hc => ?_⟩
    exact (Segment.exists_mem_words_iff.mp ⟨block.text, htext, hc⟩).1
  · obtain rfl := List.mem_singleton.mp h
    exact ⟨rfl, rfl, fun c hc => hc⟩

/-- The words at white space of the words at blanks. -/
theorem flatMap_words_splitAtSpaces (text : Text) :
    (splitAtSpaces text).flatMap (splitRemoveEmpty isWhiteSpace) =
      splitRemoveEmpty isWhiteSpace text := by
  apply Segment.flatMap_words_words
  intro c hc
  rw [beq_iff_eq.mp hc]
  exact isWhiteSpace_space

theorem words_drawMainLine (wrappedLine : Text) (isLastLine : Bool) (currentY : ℚ) :
    (drawMainLine wpf wrappedLine isLastLine currentY).flatMap
        (fun block => splitRemoveEmpty isWhiteSpace block.text) =
      splitRemoveEmpty isWhiteSpace wrappedLine := by
  unfold drawMainLine
  simp only
  split
  · rw [← flatMap_words_splitAtSpaces wrappedLine, ← List.flatMap_map,
      map_text_drawWordBlocks]
  · rw [List.flatMap_singleton]

theorem words_drawMainLines (totalLines lineIndex : Nat) (lines : List Text) (currentY : ℚ) :
    (drawMainLines wpf totalLines lineIndex lines currentY).1.flatMap
        (fun block => splitRemoveEmpty isWhiteSpace block.text) =
      lines.flatMap (splitRemoveEmpty isWhiteSpace) := by
  induction lines generalizing lineIndex currentY with
  | nil => rfl
  | cons line lines ih =>
      rw [drawMainLines, List.flatMap_append, words_drawMainLine, ih, List.flatMap_cons]

theorem fontSize_drawMainLines {totalLines lineIndex : Nat} {lines : List Text} {currentY : ℚ} :
    ∀ block ∈ (drawMainLines wpf totalLines lineIndex lines currentY).1,
      block.fontSize = drawGlyphsFontSize := by
  induction lines generalizing lineIndex currentY with
  | nil => exact fun _ h => nomatch h
  | cons line lines ih =>
      intro block hblock
      rcases List.mem_append.mp hblock with hblock | hblock
      · exact (mem_drawMainLine hblock).2.1
      · exact ih block hblock

/-- Wrapping the lines keeps their words. -/
theorem words_allLines (glyphs : List GlyphInfo) :
    (allLines glyphs).flatMap (splitRemoveEmpty isWhiteSpace) =
      (lineTexts glyphs).flatMap (splitRemoveEmpty isWhiteSpace) := by
  unfold allLines
  rw [List.flatMap_assoc]
  congr 1
  funext lineText
  exact words_wrapText lineText 40

end MainText

/-! ### The notes -/

section Notes

variable {wpf : WpfMeasures}

theorem visible_append (a b : Text) : visible (a ++ b) = visible a ++ visible b :=
  List.filter_append a b

/-- The words of a text at some of its white space hold its visible characters. -/
theorem visible_flatten_words {isSeparator : UInt16 → Bool}
    (hsep : ∀ c, isSeparator c = true → isWhiteSpace c = true) (text : Text) :
    visible (splitRemoveEmpty isSeparator text).flatten = visible text := by
  have hflatten : (splitRemoveEmpty isSeparator text).flatten =
      text.filter fun c => !isSeparator c := Segment.flatten_words text
  rw [hflatten]
  unfold visible
  rw [List.filter_filter]
  apply List.filter_congr
  intro c _
  cases hc : isSeparator c with
  | false => simp
  | true => simp [hsep c hc]

/-- The first words of a note and its rest hold its visible characters. -/
theorem visible_splitNote (noteText : Text) :
    visible (splitNote noteText).1 ++ visible (splitNote noteText).2 = visible noteText := by
  have hcut : ∀ n, visible (substring noteText 0 n) ++ visible (trim (noteText.drop n)) =
      visible noteText := by
    intro n
    rw [visible_trim, ← visible_append]
    exact congrArg visible (List.take_append_drop n noteText)
  unfold splitNote
  simp only
  split
  · exact hcut _
  · split
    · exact hcut _
    · rfl

theorem visible_restBlocks (heading rest : Text) (fontSize availableWidth : ℚ) :
    visible ((restBlocks wpf.textWidth heading rest fontSize availableWidth).flatMap
      PanelBlock.text) = visible rest := by
  have hspace : ∀ c : UInt16, (c == space) = true → isWhiteSpace c = true := by
    intro c hc
    rw [beq_iff_eq.mp hc]
    exact isWhiteSpace_space
  unfold restBlocks
  split
  · rename_i hnil
    rw [hnil]
    rfl
  · simp only
    split
    · rw [← visible_flatten_words hspace rest, List.flatMap_map]
      congr 1
      show (splitAtSpaces rest).zipIdx.flatMap Prod.fst = (splitAtSpaces rest).flatten
      rw [List.flatMap_def, List.zipIdx_map_fst]
    · rw [List.flatMap_singleton]

theorem visible_renderJustifiedNote (noteText : Text) (startY fontSize availableWidth
    rightMargin : ℚ) (noteNumber : Nat) :
    visible (renderJustifiedNote wpf.textWidth wpf.panelHeight noteText startY fontSize
      availableWidth rightMargin noteNumber).1.text = visible noteText := by
  have hheading : ∀ heading : Text,
      ((if heading = [] then none else
        some ⟨heading, fontSize * (11 / 10), 0, 4⟩ : Option PanelBlock).map
          PanelBlock.text).getD [] = heading := by
    intro heading
    split
    · rename_i hnil
      rw [hnil]
      rfl
    · rfl
  show visible (((if (splitNote noteText).1 = [] then none else
    some ⟨(splitNote noteText).1, fontSize * (11 / 10), 0, 4⟩ : Option PanelBlock).map
      PanelBlock.text).getD [] ++ (restBlocks wpf.textWidth (splitNote noteText).1
        (splitNote noteText).2 fontSize availableWidth).flatMap PanelBlock.text) = _
  rw [visible_append, hheading, visible_restBlocks, visible_splitNote]

theorem readNotes_append (a b : List WindowChild) :
    readNotes (a ++ b) = readNotes a ++ readNotes b := by
  unfold readNotes
  rw [panels_append, List.map_append]

theorem readNotes_panel_cons (note : NotePanel) (children : List WindowChild) :
    readNotes (.panel note :: children) = (note.number.text, visible note.text) ::
      readNotes children := rfl

theorem readNotes_renderNotes (fontSize availableWidth rightMargin : ℚ) (i : Nat)
    (notes : List Text) (currentY : ℚ) :
    readNotes (renderNotes wpf.textWidth wpf.panelHeight fontSize availableWidth rightMargin i notes
        currentY).1 =
      notes.mapIdx fun k note => (natToText (i + k + 1) ++ utf16 ". ", visible note) := by
  induction notes generalizing i currentY with
  | nil => rfl
  | cons note notes ih =>
      have hnext : ∀ k, i + 1 + k + 1 = i + (k + 1) + 1 := by omega
      rw [renderNotes, readNotes_panel_cons, ih, visible_renderJustifiedNote, List.mapIdx_cons]
      simp only [hnext]
      rfl

theorem readNotes_drawSection (footnotes : NoteSystem → List Text) (system : NoteSystem)
    (currentY : ℚ) :
    readNotes (drawSection wpf.textWidth wpf.panelHeight wpf.titleWidth footnotes system
      currentY).1 = numberedNotes (footnotes system) := by
  unfold drawSection renderFootnoteSection
  split
  · rename_i hnone
    rw [List.eq_nil_of_length_eq_zero hnone]
    rfl
  · show readNotes (renderNotes _ _ _ _ _ _ _ _).1 = _
    rw [readNotes_renderNotes]
    simp only [Nat.zero_add]
    rfl

theorem readNotes_drawBetween (above below : List Text) (currentY : ℚ) :
    readNotes (drawBetween above below currentY).1 = [] := by
  unfold readNotes
  rw [panels_drawBetween, List.map_nil]

theorem readNotes_drawGlyphsNotes (footnotes : NoteSystem → List Text) (currentY : ℚ) :
    readNotes (drawGlyphsNotes wpf.textWidth wpf.panelHeight wpf.titleWidth footnotes
        currentY).1 =
      numberedNotes (footnotes .A) ++ numberedNotes (footnotes .B) ++
        numberedNotes (footnotes .C) := by
  unfold drawGlyphsNotes
  simp only [List.cons_append]
  show readNotes (_ ++ _) = _
  simp only [readNotes_append, readNotes_drawSection, readNotes_drawBetween, List.append_nil]

theorem mainBlocks_renderNotes (fontSize availableWidth rightMargin : ℚ) (i : Nat)
    (notes : List Text) (currentY : ℚ) :
    mainBlocks (renderNotes wpf.textWidth wpf.panelHeight fontSize availableWidth rightMargin i
      notes currentY).1 = [] := by
  induction notes generalizing i currentY with
  | nil => rfl
  | cons note notes ih => exact ih _ _

/-- The titles of the sections have another font size than the main text. -/
theorem mainBlocks_drawSection (footnotes : NoteSystem → List Text) (system : NoteSystem)
    (currentY : ℚ) :
    mainBlocks (drawSection wpf.textWidth wpf.panelHeight wpf.titleWidth footnotes system
      currentY).1 = [] := by
  have hsize : noteFontSize * (11 / 10) ≠ drawGlyphsFontSize := by
    norm_num [noteFontSize, drawGlyphsFontSize]
  unfold drawSection renderFootnoteSection
  split
  · rfl
  · simp only [mainBlocks, List.filterMap_cons, if_neg hsize]
    exact mainBlocks_renderNotes _ _ _ _ _ _

theorem mainBlocks_drawBetween (above below : List Text) (currentY : ℚ) :
    mainBlocks (drawBetween above below currentY).1 = [] := by
  unfold drawBetween
  split <;> rfl

theorem mainBlocks_drawGlyphsNotes (footnotes : NoteSystem → List Text) (currentY : ℚ) :
    mainBlocks (drawGlyphsNotes wpf.textWidth wpf.panelHeight wpf.titleWidth footnotes
      currentY).1 = [] := by
  unfold drawGlyphsNotes
  simp only [List.cons_append]
  show mainBlocks (_ ++ _) = _
  simp only [mainBlocks_append, mainBlocks_drawSection, mainBlocks_drawBetween, List.append_nil]

end Notes

/-! ### The canvas -/

section Canvas

variable {wpf : WpfMeasures} {glyphs : List GlyphInfo} {footnotes : NoteSystem → List Text}
  {chapterTitle : Text} {pageNumber : Nat} {canvas : GlyphCanvas}

theorem mainBlocks_headerBlocks (chapterTitle : Text) :
    mainBlocks (headerBlocks chapterTitle) = [] := by
  have hsize : (14 : ℚ) ≠ drawGlyphsFontSize := by norm_num [drawGlyphsFontSize]
  unfold headerBlocks
  split
  · simp only [mainBlocks, List.filterMap_cons, if_neg hsize, List.filterMap_nil]
  · rfl

theorem readNotes_headerBlocks (chapterTitle : Text) :
    readNotes (headerBlocks chapterTitle) = [] := by
  unfold headerBlocks
  split <;> rfl

theorem readNotes_map_text (blocks : List PlacedText) : readNotes (blocks.map .text) = [] := by
  have hpanels : panels (blocks.map .text) = [] := by
    induction blocks with
    | nil => rfl
    | cons block blocks ih => exact ih
  unfold readNotes
  rw [hpanels, List.map_nil]

/-- The words of the main text are those of the lines the glyphs make up. -/
theorem readWords_drawGlyphs :
    readWords (drawGlyphs wpf glyphs footnotes chapterTitle pageNumber canvas).children =
      (lineTexts glyphs).flatMap (splitRemoveEmpty isWhiteSpace) := by
  have hsize : (16 : ℚ) ≠ drawGlyphsFontSize := by norm_num [drawGlyphsFontSize]
  have hnumber : ∀ (block : PlacedText) children, block.fontSize = 16 →
      mainBlocks (.text block :: children) = mainBlocks children := by
    intro block children h
    simp only [mainBlocks, List.filterMap_cons, h, if_neg hsize]
  unfold drawGlyphs
  split
  · rename_i hnil
    rw [List.eq_nil_of_length_eq_zero hnil]
    rfl
  · simp only [readWords, mainBlocks_append, mainBlocks_headerBlocks, hnumber,
      mainBlocks_drawGlyphsNotes, mainBlocks_map_text fontSize_drawMainLines, List.nil_append,
      List.append_nil, words_drawMainLines, words_allLines]

/-- The notes on the canvas are those of the three systems, each numbered from one. -/
theorem readNotes_drawGlyphs :
    readNotes (drawGlyphs wpf glyphs footnotes chapterTitle pageNumber canvas).children =
      if glyphs = [] then []
      else numberedNotes (footnotes .A) ++ numberedNotes (footnotes .B) ++
        numberedNotes (footnotes .C) := by
  have hnumber : ∀ (block : PlacedText) children,
      readNotes (.text block :: children) = readNotes children := fun _ _ => rfl
  by_cases hglyphs : glyphs = []
  · rw [if_pos hglyphs, hglyphs]
    rfl
  · have hlength : glyphs.length ≠ 0 := mt List.eq_nil_of_length_eq_zero hglyphs
    unfold drawGlyphs
    rw [if_neg hglyphs, if_neg hlength]
    simp only [readNotes_append, readNotes_headerBlocks, hnumber, readNotes_map_text,
      readNotes_drawGlyphsNotes, List.nil_append]

/-- The glyphs of a text are drawn as its words, and the notes with them unless there is none. -/
theorem drawGlyphs_encoded (rounding : FloatRounding) (text : Text) :
    let children := (drawGlyphs wpf (text.mapIdx (glyphAt rounding)) footnotes chapterTitle
      pageNumber canvas).children
    readWords children = splitRemoveEmpty isWhiteSpace text ∧
      readNotes children =
        if text = [] then []
        else numberedNotes (footnotes .A) ++ numberedNotes (footnotes .B) ++
          numberedNotes (footnotes .C) := by
  constructor
  · rw [readWords_drawGlyphs]
    by_cases htext : text = []
    · rw [htext]
      rfl
    · rw [lineTexts_encoded htext, List.flatMap_singleton]
  · rw [readNotes_drawGlyphs]
    simp only [List.mapIdx_eq_nil_iff]

/-- What is loaded for a page and drawn can be read off the canvas: the words of its main lines up
to the first U+0000 and, unless nothing comes before it, the numbered notes of the three systems. -/
theorem drawGlyphs_loadGlyphsForPage (wpf : WpfMeasures) (rounding : FloatRounding)
    (page : PageModel) (vm : EditorViewModel) (chapterTitle : Text) (canvas : GlyphCanvas) :
    let content := (EditorViewModel.mainContent page).takeWhile (· != 0)
    let glyphs := (EditorViewModel.loadGlyphsForPage rounding none page vm).1.glyphs
    let children :=
      (drawGlyphs wpf glyphs page.allFootnotes chapterTitle page.pageNumber canvas).children
    readWords children = splitRemoveEmpty isWhiteSpace content ∧
      readNotes children =
        if content = [] then []
        else numberedNotes page.allFootnotesA ++ numberedNotes page.allFootnotesB ++
          numberedNotes page.allFootnotesC := by
  simp only [glyphs_loadGlyphsForPage]
  exact drawGlyphs_encoded rounding _

end Canvas

end MainWindow

end Typesetting
