/-
# Typesetting.Views.TwoColumnPage -- the two-column page in the window

`DrawTwoColumnPage` draws the page number and the running header, the two columns of the main text,
and below them a section for each system that has notes: a broken rule, a title and two columns in
which the notes follow one another behind their markers. Distances from the right edge of the canvas
count to the left; the right column is the one that starts at the margin.

Everything the page holds is on the canvas, in this order and once: no word is lost at the end of a
line or between the columns, and the markers go on in the left column where the right one stopped.
-/
import Typesetting.Lib.Segment
import Typesetting.Views.DrawGlyphs
import Typesetting.Views.FootnoteMarkers

namespace Typesetting

/-- A page with the further members of `PageModel.cs` that `DrawTwoColumnPage` reads. Lists that are
null are treated like empty ones. -/
structure ColumnPage extends PageModel where
  mainContentColumnRight : List Text := []
  mainContentColumnLeft : List Text := []
  footnoteATitle : Text := utf16 "פירוש ראשון"
  footnoteBTitle : Text := utf16 "פירוש שני"
  footnoteCTitle : Text := utf16 "מדרש"
  mainLineHeight : ℚ := 28
  separatorHeight : ℚ := 15

namespace ColumnPage

/-- `ColumnGap` -/
def columnGap (page : ColumnPage) : ℚ :=
  page.marginInner * 2

/-- `ColumnWidth` -/
def columnWidth (page : ColumnPage) : ℚ :=
  (page.pageWidth - page.marginOuter * 2 - page.columnGap) / 2

/-- The title over the notes of a system. -/
def footnoteTitle (page : ColumnPage) : NoteSystem → Text
  | .A => page.footnoteATitle
  | .B => page.footnoteBTitle
  | .C => page.footnoteCTitle

end ColumnPage

namespace MainWindow

/-! ## The drawing -/

/-- What WPF computes for the page. -/
structure PageMeasures where
  /-- `WidthIncludingTrailingWhitespace` -/
  wordWidth : TextMeasure
  /-- `DesiredSize.Width` of the middle part of the header. -/
  centerWidth : TextMeasure
  /-- `DesiredSize.Width` of the title of a section. -/
  titleWidth : TextMeasure
  /-- `Height` of a text wrapped to a column width, in a font size. -/
  runOnHeight : Text → ℚ → ℚ → ℚ

/-- What the page is made of. -/
inductive PageChild where
  /-- A block with `Canvas.SetLeft`. -/
  | fromLeft (text : Text) (left top fontSize : ℚ)
  /-- A block with `Canvas.SetRight`. -/
  | fromRight (block : PlacedText)
  /-- A block with `Canvas.SetRight` that wraps its text to its width. -/
  | wrapped (block : PlacedText) (width : ℚ)
  | rule (y x1 x2 : ℚ)

/-- `DrawRunningHeader(page, y, pageWidth, margin)` -/
def drawRunningHeader (wpf : PageMeasures) (page : ColumnPage) (y pageWidth margin : ℚ) :
    List PageChild :=
  (if page.runningHeaderRight ≠ [] then
    [.fromRight ⟨page.runningHeaderRight, margin, y, 11⟩] else []) ++
  (if page.runningHeaderCenter ≠ [] then
    let centerX := (pageWidth - wpf.centerWidth page.runningHeaderCenter 11) / 2
    [.fromLeft page.runningHeaderCenter centerX y 11] else []) ++
  (if page.runningHeaderLeft ≠ [] then
    [.fromLeft page.runningHeaderLeft margin y 11] else [])

/-- The loop of `RenderTextColumn` over `count` lines from line `i` on. -/
def textColumnLines (wpf : PageMeasures) (x columnWidth lineHeight fontSize : ℚ) (justify : Bool)
    (count : Nat) : Nat → List Text → ℚ → List PlacedText × ℚ
  | _, [], currentY => ([], currentY)
  | i, line :: lines, currentY =>
    let isLastLine := i == count - 1
    let drawn := renderJustifiedLine wpf.wordWidth line x currentY columnWidth fontSize
      (justify && !isLastLine)
    let rest := textColumnLines wpf x columnWidth lineHeight fontSize justify count (i + 1) lines
      (currentY + lineHeight)
    (drawn ++ rest.1, rest.2)

/-- `RenderTextColumn(lines, x, startY, columnWidth, lineHeight, fontSize, justify)` -/
def renderTextColumn (wpf : PageMeasures) (lines : List Text)
    (x startY columnWidth lineHeight fontSize : ℚ) (justify : Bool) : List PlacedText × ℚ :=
  if lines.length = 0 then ([], startY)
  else
    textColumnLines wpf x columnWidth lineHeight fontSize justify lines.length 0 lines startY

/-- `MeasureRunOnHeight(text, columnWidth, fontSize)` -/
def measureRunOnHeight (wpf : PageMeasures) (text : Text) (columnWidth fontSize : ℚ) : ℚ :=
  if text = [] then 0 else wpf.runOnHeight text columnWidth fontSize

/-- `RenderRunOnColumn(text, x, y, columnWidth, fontSize, …)` -/
def renderRunOnColumn (text : Text) (x y columnWidth fontSize : ℚ) : List PageChild :=
  if text = [] then [] else [.wrapped ⟨text, x, y, fontSize⟩ columnWidth]

/-- `RenderFootnoteSectionTwoColumn(title, notes, startY, pageWidth, margin, columnWidth, columnGap,
titleFontSize, fontSize, …, markerType)` -/
def renderFootnoteSectionTwoColumn (wpf : PageMeasures) (title : Text) (notes : List Text)
    (startY pageWidth margin columnWidth columnGap titleFontSize fontSize : ℚ)
    (markerType : Text) : List PageChild × ℚ :=
  let centerX := pageWidth / 2
  let titleY := startY + 15
  let titleX := (pageWidth - wpf.titleWidth title titleFontSize) / 2
  let notesY := titleY + titleFontSize * (9 / 5)
  let texts := columnTexts notes markerType
  let rightHeight := measureRunOnHeight wpf texts.1 columnWidth fontSize
  let leftHeight := measureRunOnHeight wpf texts.2 columnWidth fontSize
  let maxHeight := max rightHeight leftHeight
  (.rule startY (centerX - 50) (centerX + 50) :: .fromLeft title titleX titleY titleFontSize ::
      (renderRunOnColumn texts.1 margin notesY columnWidth fontSize ++
        renderRunOnColumn texts.2 (margin + columnWidth + columnGap) notesY columnWidth fontSize),
    notesY + maxHeight + 10)

/-- The canvas as `DrawTwoColumnPage` leaves it. -/
structure PageCanvas where
  children : List PageChild
  width : ℚ
  height : ℚ

/-- The section of one system, if it has notes. -/
def drawNoteSection (wpf : PageMeasures) (page : ColumnPage) (system : NoteSystem)
    (currentY : ℚ) : List PageChild × ℚ :=
  let notes := page.allFootnotes system
  if 0 < notes.length then
    renderFootnoteSectionTwoColumn wpf (page.footnoteTitle system) notes currentY page.pageWidth
      page.marginOuter page.columnWidth page.columnGap 13 12 (markerTypeOf system)
  else ([], currentY)

/-- The line height and the font size of the main text. -/
def drawTextColumn (wpf : PageMeasures) (page : ColumnPage) (lines : List Text)
    (x mainTextY : ℚ) : List PlacedText × ℚ :=
  renderTextColumn wpf lines x mainTextY page.columnWidth page.mainLineHeight 16 true

/-- `DrawTwoColumnPage(page)` -/
def drawTwoColumnPage (wpf : PageMeasures) (page : ColumnPage) : PageCanvas :=
  let rightMargin := page.marginOuter
  let pageNumberBlock : PageChild := .fromLeft (natToText page.pageNumber) rightMargin 20 10
  let headerY : ℚ := 20 + 25
  let header := drawRunningHeader wpf page headerY page.pageWidth rightMargin
  let mainTextY := headerY + 20
  let leftColumnX := rightMargin + page.columnWidth + page.columnGap
  let right := drawTextColumn wpf page page.mainContentColumnRight rightMargin mainTextY
  let left := drawTextColumn wpf page page.mainContentColumnLeft leftColumnX mainTextY
  let notesA := drawNoteSection wpf page .A (max right.2 left.2 + page.separatorHeight)
  let notesB := drawNoteSection wpf page .B notesA.2
  let notesC := drawNoteSection wpf page .C notesB.2
  { children :=
      pageNumberBlock :: (header ++ ((right.1 ++ left.1).map .fromRight ++
        (notesA.1 ++ (notesB.1 ++ notesC.1))))
    width := page.pageWidth
    height := max page.pageHeight (notesC.2 + 50) }

/-! ## Reading the page -/

/-- The text of a child; a rule has none. -/
def PageChild.text : PageChild → Text
  | .fromLeft text _ _ _ => text
  | .fromRight block => block.text
  | .wrapped block _ => block.text
  | .rule _ _ _ => []

/-- The words of a text. -/
abbrev words (text : Text) : List Text :=
  splitRemoveEmpty isWhiteSpace text

/-- The words on the canvas, in the order in which they were drawn. -/
def pageWords (children : List PageChild) : List Text :=
  children.flatMap fun child => words child.text

/-- The words of a section: its title, and each note behind its marker. -/
def noteSectionWords (title : Text) (notes : List Text) (system : NoteSystem) : List Text :=
  if notes = [] then []
  else words title ++
    (notes.mapIdx fun i note => parenthesised (markerTypeOf system) i :: words note).flatten

/-! ### The main text -/

section MainText

variable {wpf : PageMeasures} {measure : TextMeasure} {y fontSize : ℚ}

theorem words_of_blank {text : Text} (h : isNullOrWhiteSpace text = true) : words text = [] :=
  Segment.words_eq_nil_iff.mpr (List.all_eq_true.mp h)

theorem map_text_placeWords (gap : ℚ) (wordTexts : List Text) (x : ℚ) :
    (placeWords measure y fontSize gap wordTexts x).map PlacedText.text = wordTexts := by
  induction wordTexts generalizing x with
  | nil => rfl
  | cons word rest ih => rw [placeWords, List.map_cons, ih]

/-- A line shows its words, justified or not; a blank line shows none and has none. -/
theorem words_renderJustifiedLine (text : Text) (x maxWidth : ℚ) (justify : Bool) :
    (renderJustifiedLine measure text x y maxWidth fontSize justify).flatMap
      (fun block => words block.text) = words text := by
  unfold renderJustifiedLine
  split
  · rename_i hblank
    rw [words_of_blank hblank]
    rfl
  · dsimp only
    split
    · rw [List.flatMap_singleton]
    · rw [← List.flatMap_map, map_text_placeWords]
      exact flatMap_words_splitAtSpaces text

theorem words_textColumnLines (x columnWidth lineHeight : ℚ) (justify : Bool) (count i : Nat)
    (lines : List Text) (currentY : ℚ) :
    (textColumnLines wpf x columnWidth lineHeight fontSize justify count i lines
        currentY).1.flatMap (fun block => words block.text) = lines.flatMap words := by
  induction lines generalizing i currentY with
  | nil => rfl
  | cons line lines ih =>
      rw [textColumnLines, List.flatMap_append, words_renderJustifiedLine, ih, List.flatMap_cons]

theorem words_drawTextColumn (page : ColumnPage) (lines : List Text) (x mainTextY : ℚ) :
    (drawTextColumn wpf page lines x mainTextY).1.flatMap (fun block => words block.text) =
      lines.flatMap words := by
  unfold drawTextColumn renderTextColumn
  split
  · rename_i hnone
    rw [List.eq_nil_of_length_eq_zero hnone]
    rfl
  · exact words_textColumnLines _ _ _ _ _ _ _ _

end MainText

/-! ### The notes -/

section Notes

variable {wpf : PageMeasures}

/-- No marker contains white space. -/
theorem markerAt_clean (system : NoteSystem) (index : Nat) :
    ∀ c ∈ markerAt (markerTypeOf system) index, isWhiteSpace c = false := by
  have htable : ∀ table : List Text,
      (table.all fun marker => marker.all fun c => !isWhiteSpace c) = true →
        ∀ marker ∈ table, ∀ c ∈ marker, isWhiteSpace c = false := by
    intro table hall marker hmarker c hc
    have hchar := List.all_eq_true.mp (List.all_eq_true.mp hall marker hmarker) c hc
    simpa using hchar
  cases system with
  | A =>
      show ∀ c ∈ getHebrewLetter index, isWhiteSpace c = false
      unfold getHebrewLetter
      split
      · exact htable letters (by decide) _ (List.getElem_mem _)
      · exact fun c hc => isWhiteSpace_of_mem_natToText hc
  | B => exact fun c hc => isWhiteSpace_of_mem_natToText hc
  | C => exact htable symbols (by decide) _ (List.get_mem _ _)

theorem parenthesised_clean (system : NoteSystem) (index : Nat) :
    ∀ c ∈ parenthesised (markerTypeOf system) index, isWhiteSpace c = false := by
  intro c hc
  rcases List.mem_append.mp hc with hc | hc
  · rcases List.mem_append.mp hc with hc | hc
    · obtain rfl : c = 0x28 := List.mem_singleton.mp hc
      decide
    · exact markerAt_clean system index c hc
  · obtain rfl : c = 0x29 := List.mem_singleton.mp hc
    decide

/-- A note behind its marker: the marker is the first word. -/
theorem words_marked_note (system : NoteSystem) (index : Nat) (note : Text) :
    words (parenthesised (markerTypeOf system) index ++ [space] ++ note) =
      parenthesised (markerTypeOf system) index :: words note := by
  rw [List.append_assoc]
  exact Segment.words_clean_append_sep (parenthesised_clean system index)
    (List.cons_ne_nil _ _) isWhiteSpace_space note

/-- The words of the notes of a column whose first note has the marker of `start`. -/
theorem words_markedNotes (system : NoteSystem) (start : Nat) (notes : List Text) :
    words (PageRenderer.markedNotes
        ((List.range notes.length).map fun i => parenthesised (markerTypeOf system) (start + i))
          notes) =
      (notes.mapIdx fun i note =>
        parenthesised (markerTypeOf system) (start + i) :: words note).flatten := by
  have hzip : List.zipWith (fun m note => m ++ [space] ++ note)
      ((List.range notes.length).map fun i => parenthesised (markerTypeOf system) (start + i))
        notes =
      notes.mapIdx fun i note =>
        parenthesised (markerTypeOf system) (start + i) ++ [space] ++ note := by
    apply List.ext_getElem
    · simp
    · intro i hi hi'
      simp
  have hjoin := @Segment.words_intercalate _ isWhiteSpace space isWhiteSpace_space
    (notes.mapIdx fun i note => parenthesised (markerTypeOf system) (start + i) ++ [space] ++ note)
  unfold PageRenderer.markedNotes
  rw [hzip]
  refine hjoin.trans ?_
  rw [List.flatMap_def]
  congr 1
  apply List.ext_getElem
  · simp
  · intro i hi hi'
    rw [List.getElem_map, List.getElem_mapIdx, List.getElem_mapIdx]
    exact words_marked_note system (start + i) _

/-- The two columns of a section show each note behind the marker of its place in the section. -/
theorem words_columnTexts (notes : List Text) (system : NoteSystem) :
    words (columnTexts notes (markerTypeOf system)).1 ++
        words (columnTexts notes (markerTypeOf system)).2 =
      (notes.mapIdx fun i note => parenthesised (markerTypeOf system) i :: words note).flatten := by
  have hright := words_markedNotes system 0 (noteColumns notes).1
  have hleft := words_markedNotes system (noteColumns notes).1.length (noteColumns notes).2
  simp only [Nat.zero_add] at hright
  rw [columnTexts_eq]
  dsimp only
  rw [hright, hleft, ← List.flatten_append]
  conv_rhs => rw [← noteColumns_append notes, List.mapIdx_append]
  simp only [Nat.add_comm]

theorem pageWords_renderRunOnColumn (text : Text) (x y columnWidth fontSize : ℚ) :
    pageWords (renderRunOnColumn text x y columnWidth fontSize) = words text := by
  unfold renderRunOnColumn
  split
  · rename_i hnil
    rw [hnil]
    rfl
  · exact List.flatMap_singleton _ _

theorem pageWords_append (a b : List PageChild) :
    pageWords (a ++ b) = pageWords a ++ pageWords b :=
  List.flatMap_append

theorem pageWords_drawNoteSection (page : ColumnPage) (system : NoteSystem) (currentY : ℚ) :
    pageWords (drawNoteSection wpf page system currentY).1 =
      noteSectionWords (page.footnoteTitle system) (page.allFootnotes system) system := by
  unfold drawNoteSection noteSectionWords
  dsimp only
  by_cases hnotes : page.allFootnotes system = []
  · rw [if_neg (by rw [hnotes]; exact Nat.lt_irrefl 0), if_pos hnotes]
    rfl
  · rw [if_pos (List.length_pos_of_ne_nil hnotes), if_neg hnotes, ← words_columnTexts]
    show words [] ++ (words _ ++ pageWords (renderRunOnColumn _ _ _ _ _ ++ _)) = _
    rw [pageWords_append, pageWords_renderRunOnColumn, pageWords_renderRunOnColumn]
    rfl

end Notes

/-! ### The page -/

theorem pageWords_drawRunningHeader (wpf : PageMeasures) (page : ColumnPage)
    (y pageWidth margin : ℚ) :
    pageWords (drawRunningHeader wpf page y pageWidth margin) =
      words page.runningHeaderRight ++ words page.runningHeaderCenter ++
        words page.runningHeaderLeft := by
  have hpart : ∀ (text : Text) (child : PageChild), child.text = text →
      pageWords (if text ≠ [] then [child] else []) = words text := by
    rintro text child rfl
    split
    · exact List.flatMap_singleton _ _
    · rename_i hnil
      rw [not_not.mp hnil]
      rfl
  unfold drawRunningHeader
  dsimp only
  rw [pageWords_append, pageWords_append, hpart page.runningHeaderRight _ rfl,
    hpart page.runningHeaderCenter _ rfl, hpart page.runningHeaderLeft _ rfl]

/-- The words on a page are those of its number and its header, of the two columns of the main text,
the right one first, and of the notes with their markers, system after system: nothing is lost and
nothing comes twice. -/
theorem drawTwoColumnPage_words (wpf : PageMeasures) (page : ColumnPage) :
    pageWords (drawTwoColumnPage wpf page).children =
      natToText page.pageNumber ::
        (words page.runningHeaderRight ++ words page.runningHeaderCenter ++
          words page.runningHeaderLeft) ++
      (page.mainContentColumnRight ++ page.mainContentColumnLeft).flatMap words ++
      (noteSectionWords page.footnoteATitle page.allFootnotesA .A ++
        noteSectionWords page.footnoteBTitle page.allFootnotesB .B ++
          noteSectionWords page.footnoteCTitle page.allFootnotesC .C) := by
  have hnumber : words (natToText page.pageNumber) = [natToText page.pageNumber] :=
    Segment.words_of_clean (fun c hc => isWhiteSpace_of_mem_natToText hc)
      (natToText_ne_nil page.pageNumber)
  unfold drawTwoColumnPage
  dsimp only
  show words (natToText page.pageNumber) ++ pageWords (drawRunningHeader _ _ _ _ _ ++ _) = _
  rw [pageWords_append, pageWords_append, pageWords_append, pageWords_append,
    pageWords_drawRunningHeader, pageWords_drawNoteSection, pageWords_drawNoteSection,
    pageWords_drawNoteSection, hnumber]
  have hmain : ∀ blocks : List PlacedText, pageWords (blocks.map .fromRight) =
      blocks.flatMap fun block => words block.text := by
    intro blocks
    unfold pageWords
    rw [List.flatMap_map]
    rfl
  rw [hmain, List.flatMap_append, words_drawTextColumn, words_drawTextColumn]
  simp only [List.flatMap_append, List.append_assoc, List.cons_append, List.nil_append]
  rfl

end MainWindow

end Typesetting
