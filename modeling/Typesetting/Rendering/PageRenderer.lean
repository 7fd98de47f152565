/-
# Typesetting.Rendering.PageRenderer -- drawing a two-column page on a canvas

`RenderPage` draws six layers. Most of its functions only add children to the canvas; they are
given here as the list of children they add, in order. Two of them also move the vertical position
`_currentY`, the separator lines and the note sections, and take and return the state. A section of
system A looks up its markers in a table of twenty letters and throws behind its end: drawing then
stops in the state reached, which the error of the result carries.

Each child is tagged with the layer that drew it, which the code does not record. Colours and font
weights take no part in any computation and are left out.
-/
import Typesetting.Models.PageModel
import Typesetting.Services.TextParser

namespace Typesetting

namespace PageRenderer

/-! ## The canvas -/

/-- What drew a child of the canvas. -/
inductive Layer where
  | background
  | runningHeader
  | pageNumber
  | mainText
  | separator
  | sectionTitle (system : NoteSystem)
  | sectionSeparator (system : NoteSystem)
  | sectionBody (system : NoteSystem)
  deriving DecidableEq

inductive Shape where
  | rectangle (left top width height : ℚ)
  | line (x1 y1 x2 y2 thickness : ℚ)
  | textBlock (text : Text) (left top fontSize : ℚ)

structure Child where
  layer : Layer
  shape : Shape

/-- The y of the upper edge of a child. -/
def Child.top (c : Child) : ℚ :=
  match c.shape with
  | .rectangle _ top _ _ => top
  | .line _ y1 _ y2 _ => min y1 y2
  | .textBlock _ _ top _ => top

/-- The children drawn so far and the field `_currentY`. -/
structure RenderState where
  canvas : List Child
  currentY : ℚ

def RenderState.add (s : RenderState) (children : List Child) : RenderState :=
  { s with canvas := s.canvas ++ children }

/-! ## Text -/

inductive TextAlignment where
  | left
  | center
  | right

/-- `DrawText(text, x, y, fontSize, …, alignment)` -/
def drawText (measure : TextMeasure) (layer : Layer) (text : Text) (x y fontSize : ℚ)
    (alignment : TextAlignment) : Child :=
  let width := measure text fontSize
  let left :=
    match alignment with
    | .right => x - width
    | .center => x - width / 2
    | .left => x
  ⟨layer, .textBlock text left y fontSize⟩

/-- `DrawWord(word, x, y, fontSize)` -/
def drawWord (measure : TextMeasure) (layer : Layer) (word : Text) (x y fontSize : ℚ) : Child :=
  drawText measure layer word x y fontSize .right

/-- `text.Split(' ').Where(w => !string.IsNullOrWhiteSpace(w))` -/
def wordsOf (text : Text) : List Text :=
  (text.splitOnP (· == space)).filter fun w => !isNullOrWhiteSpace w

/-- The loop that places words from the right to the left, with `gap` between them. -/
def drawWords (measure : TextMeasure) (layer : Layer) (y fontSize gap : ℚ) :
    List Text → ℚ → List Child
  | [], _ => []
  | word :: words, currentX =>
    let wordWidth := measure word fontSize
    drawWord measure layer word (currentX - wordWidth) y fontSize ::
      drawWords measure layer y fontSize gap words (currentX - wordWidth - gap)

/-- `DrawRightAlignedLine(line, rightX, y, fontSize, maxWidth)` -/
def drawRightAlignedLine (measure : TextMeasure) (layer : Layer) (line : Text)
    (rightX y fontSize : ℚ) : List Child :=
  drawWords measure layer y fontSize 3 (wordsOf line) rightX

/-- `RenderJustifiedLine(line, x, y, width, fontSize)` -/
def renderJustifiedLine (measure : TextMeasure) (layer : Layer) (line : Text)
    (x y width fontSize : ℚ) : List Child :=
  match wordsOf line with
  | [] => []
  | [word] => drawRightAlignedLine measure layer word (x + width) y fontSize
  | words =>
    let totalWordsWidth := (words.map fun word => measure word fontSize).sum
    let gapCount : ℚ := (words.length - 1 : Nat)
    let extraSpace := (width - totalWordsWidth) / gapCount
    -- words wider than the line together touch one another
    let extraSpace := if extraSpace < 0 then 0 else extraSpace
    drawWords measure layer y fontSize extraSpace words (x + width)

/-- A loop that draws lines one below the other. -/
def drawLines (draw : Text → ℚ → List Child) (lineHeight : ℚ) : List Text → ℚ → List Child
  | [], _ => []
  | line :: lines, y => draw line y ++ drawLines draw lineHeight lines (y + lineHeight)

/-- Points to pixels, and a factor for the line height. -/
def lineHeightOf (fontSize factor : ℚ) : ℚ :=
  fontSize * (96 / 72) * factor

/-! ## Layers 1 to 4 -/

/-- `DrawBackground()` -/
def drawBackground : List Child :=
  [⟨.background, .rectangle 0 0 LayoutConstants.pageWidthPx LayoutConstants.pageHeightPx⟩]

/-- `DrawRunningHeader(page)` -/
def drawRunningHeader (measure : TextMeasure) (page : PageModel) : List Child :=
  if page.runningHeaderCenter = [] then []
  else
    let y := LayoutConstants.marginTop - LayoutConstants.runningHeaderOffset
    let leftX := LayoutConstants.marginOuter
    let rightX := LayoutConstants.pageWidthPx - LayoutConstants.marginOuter
    let centerX := LayoutConstants.pageWidthPx / 2
    let header (text : Text) (x : ℚ) (alignment : TextAlignment) : Child :=
      drawText measure .runningHeader text x y LayoutConstants.fontSizeRunningHeader alignment
    (if page.runningHeaderRight ≠ [] then [header page.runningHeaderRight leftX .right] else []) ++
      [header page.runningHeaderCenter centerX .center] ++
      (if page.runningHeaderLeft ≠ [] then [header page.runningHeaderLeft rightX .left] else []) ++
      [⟨.runningHeader, .line LayoutConstants.marginOuter (LayoutConstants.marginTop - 4)
        (LayoutConstants.pageWidthPx - LayoutConstants.marginOuter) (LayoutConstants.marginTop - 4)
        LayoutConstants.headerLineThickness⟩]

/-- `DrawPageNumber(page)` -/
def drawPageNumber (measure : TextMeasure) (page : PageModel) : List Child :=
  let y := LayoutConstants.marginTop - LayoutConstants.pageNumberOffset
  let centerX := LayoutConstants.pageWidthPx / 2
  [drawText measure .pageNumber (natToText page.pageNumber) centerX y
    LayoutConstants.fontSizePageNumber .center]

/-- The line height of `RenderColumn` for the main text. -/
def mainLineHeight : ℚ :=
  lineHeightOf LayoutConstants.fontSizeMain LayoutConstants.lineHeightMain

/-- `RenderColumn(lines, x, startY, width, fontSize, …)` for the main text. -/
def renderColumn (culture : CompareInfo) (measure : TextMeasure) (lines : List Text)
    (x startY width : ℚ) : List Child :=
  let fontSize := LayoutConstants.fontSizeMain
  let drawLine (line : Text) (y : ℚ) : List Child :=
    let cleanLine := TextParser.removeLastLineMarker culture line
    if TextParser.isLastLine culture line then
      drawRightAlignedLine measure .mainText cleanLine (x + width) y fontSize
    else renderJustifiedLine measure .mainText cleanLine x y width fontSize
  drawLines drawLine mainLineHeight lines startY

/-- The x of the right column. -/
def rightColumnX : ℚ :=
  LayoutConstants.marginInner + LayoutConstants.columnWidth + LayoutConstants.columnGap

/-- The x of the left column. -/
def leftColumnX : ℚ :=
  LayoutConstants.marginInner

/-- `DrawMainText(page)`; it draws from the margin down and leaves `_currentY` alone. -/
def drawMainText (culture : CompareInfo) (measure : TextMeasure) (page : PageModel) :
    List Child :=
  let y := LayoutConstants.marginTop
  renderColumn culture measure page.mainRight rightColumnX y LayoutConstants.columnWidth ++
    renderColumn culture measure page.mainLeft leftColumnX y LayoutConstants.columnWidth

/-! ## Layer 5 -/

/-- The notes of one system: right column and left column. -/
def notesRight (page : PageModel) : NoteSystem → List Text
  | .A => page.footnotesARight
  | .B => page.footnotesBRight
  | .C => page.footnotesCRight

def notesLeft (page : PageModel) : NoteSystem → List Text
  | .A => page.footnotesALeft
  | .B => page.footnotesBLeft
  | .C => page.footnotesCLeft

/-- `page.FootnotesX_Right.Count > 0 || page.FootnotesX_Left.Count > 0` -/
def hasNotes (page : PageModel) (system : NoteSystem) : Prop :=
  0 < (notesRight page system).length ∨ 0 < (notesLeft page system).length

instance (page : PageModel) (system : NoteSystem) : Decidable (hasNotes page system) :=
  inferInstanceAs (Decidable (_ ∨ _))

/-- The two lines, one in each column, at height `y`. -/
def columnRules (layer : Layer) (y : ℚ) : List Child :=
  let colWidth := LayoutConstants.columnWidth
  let lineWidth := colWidth * (2 / 5)
  let rule (x : ℚ) : Child :=
    ⟨layer, .line (x + colWidth - lineWidth) y (x + colWidth) y
      LayoutConstants.separatorLineThickness⟩
  [rule rightColumnX, rule leftColumnX]

/-- `DrawSeparatorLines(page)` -/
def drawSeparatorLines (page : PageModel) (s : RenderState) : RenderState :=
  let y := s.currentY + 10
  if hasNotes page .A ∨ hasNotes page .B ∨ hasNotes page .C then
    { s.add (columnRules .separator y) with currentY := y + 5 }
  else s -- without notes the position is not moved

/-! ## Layer 6 -/

def hebrewLetters : List Text :=
  ["א", "ב", "ג", "ד", "ה", "ו", "ז", "ח", "ט", "י",
    "יא", "יב", "יג", "יד", "טו", "טז", "יז", "יח", "יט", "כ"].map utf16

def symbols : List Text :=
  ["*", "†", "‡", "§"].map utf16

/-- `[marker]` -/
def bracketed (marker : Text) : Text :=
  utf16 "[" ++ marker ++ utf16 "]"

/-- The marker of note `i`; `none` is the exception of the table lookup. -/
def noteMarker (sectionMarker : Text) (i : Nat) : Option Text :=
  if sectionMarker = utf16 "א" then (hebrewLetters[i]?).map bracketed
  else if sectionMarker = utf16 "ב" then some (bracketed (natToText (i + 1)))
  else if sectionMarker = utf16 "ג" then some (bracketed (symbols.getD (i % 4) []))
  else some (bracketed (natToText (i + 1)))

/-- The loop of `RenderRunOnColumn` that joins the notes from note `i` on with their markers. -/
def runOnText (marker : Nat → Option Text) : Nat → List Text → Text → Option Text
  | _, [], sb => some sb
  | i, note :: notes, sb =>
    let sb := if 0 < i then sb ++ [space] else sb
    match marker i with
    | none => none
    | some m => runOnText marker (i + 1) notes (sb ++ m ++ [space] ++ note)

/-- The body of `foreach (var word in words)` of `WrapTextToWidth` on `(result, currentLine)`. -/
def wrapTextStep (measure : TextMeasure) (maxWidth fontSize : ℚ) (st : List Text × Text)
    (word : Text) : List Text × Text :=
  let testLine := if 0 < st.2.length then st.2 ++ [space] ++ word else word
  let width := measure testLine fontSize
  if width ≤ maxWidth then
    (st.1, (if 0 < st.2.length then st.2 ++ [space] else st.2) ++ word)
  else if 0 < st.2.length then (st.1 ++ [st.2], word)
  else (st.1, st.2 ++ word)

/-- `WrapTextToWidth(text, maxWidth, fontSize)` -/
def wrapTextToWidth (measure : TextMeasure) (text : Text) (maxWidth fontSize : ℚ) : List Text :=
  let st := (wordsOf text).foldl (wrapTextStep measure maxWidth fontSize) ([], [])
  if 0 < st.2.length then st.1 ++ [st.2] else st.1

/-- The line height of the notes in a font size. -/
def footnoteLineHeight (fontSize : ℚ) : ℚ :=
  lineHeightOf fontSize LayoutConstants.lineHeightFootnote

/-- `RenderRunOnColumn(notes, x, y, width, fontSize, sectionMarker)`; nothing is drawn when it
throws. -/
def renderRunOnColumn (measure : TextMeasure) (layer : Layer) (notes : List Text)
    (x y width fontSize : ℚ) (sectionMarker : Text) : Option (List Child) :=
  if notes.length = 0 then some []
  else
    (runOnText (noteMarker sectionMarker) 0 notes []).map fun text =>
      let drawLine (line : Text) (y : ℚ) : List Child :=
        renderJustifiedLine measure layer line x y width fontSize
      drawLines drawLine (footnoteLineHeight fontSize) (wrapTextToWidth measure text width fontSize)
        y

/-- The loop of `CalculateRunOnHeight` that joins the notes with numbers. -/
def numberedText : Nat → List Text → Text → Text
  | _, [], sb => sb
  | i, note :: notes, sb =>
    let sb := if 0 < i then sb ++ [space] else sb
    numberedText (i + 1) notes (sb ++ (utf16 "[" ++ natToText (i + 1) ++ utf16 "] " ++ note))

/-- `CalculateRunOnHeight(notes, width, fontSize)` -/
def calculateRunOnHeight (measure : TextMeasure) (notes : List Text) (width fontSize : ℚ) : ℚ :=
  if notes.length = 0 then 0
  else
    let wrapped := wrapTextToWidth measure (numberedText 0 notes []) width fontSize
    wrapped.length * footnoteLineHeight fontSize

/-- The title of a section and the two lines below it. -/
def sectionHead (system : NoteSystem) (title : Text) (fontSize y : ℚ) : List Child :=
  ⟨.sectionTitle system, .textBlock title leftColumnX y (fontSize + 1)⟩ ::
    columnRules (.sectionSeparator system) (y + LayoutConstants.footnoteSectionTitleHeight - 8)

/-- `RenderFootnoteSection(title, rightLines, leftLines, fontSize, sectionMarker)` -/
def renderFootnoteSection (measure : TextMeasure) (system : NoteSystem) (title : Text)
    (rightLines leftLines : List Text) (fontSize : ℚ) (sectionMarker : Text) (s : RenderState) :
    Except RenderState RenderState :=
  let colWidth := LayoutConstants.columnWidth
  let s := s.add (sectionHead system title fontSize s.currentY)
  let y := s.currentY + LayoutConstants.footnoteSectionTitleHeight
  match renderRunOnColumn measure (.sectionBody system) rightLines rightColumnX y colWidth fontSize
      sectionMarker with
  | none => .error s
  | some drawn =>
    let s := s.add drawn
    match renderRunOnColumn measure (.sectionBody system) leftLines leftColumnX y colWidth fontSize
        sectionMarker with
    | none => .error s
    | some drawn =>
      let s := s.add drawn
      -- the height is that of the notes with numbers, whatever markers were drawn
      let rightHeight := calculateRunOnHeight measure rightLines colWidth fontSize
      let leftHeight := calculateRunOnHeight measure leftLines colWidth fontSize
      .ok { s with currentY := y + max rightHeight leftHeight + 15 }

/-- The font size of the notes of a system. -/
def footnoteFontSize : NoteSystem → ℚ
  | .A => LayoutConstants.fontSizeFootnoteA
  | .B => LayoutConstants.fontSizeFootnoteB
  | .C => LayoutConstants.fontSizeFootnoteC

def sectionTitle : NoteSystem → Text
  | .A => utf16 "פירוש ראשון"
  | .B => utf16 "פירוש שני"
  | .C => utf16 "מדרש"

def sectionMarker : NoteSystem → Text
  | .A => utf16 "א"
  | .B => utf16 "ב"
  | .C => utf16 "ג"

/-- One of the three calls of `DrawFootnotes`. -/
def renderSection (measure : TextMeasure) (page : PageModel) (s : RenderState)
    (system : NoteSystem) : Except RenderState RenderState :=
  renderFootnoteSection measure system (sectionTitle system) (notesRight page system)
    (notesLeft page system) (footnoteFontSize system) (sectionMarker system) s

/-- `DrawFootnotes(page)` -/
def drawFootnotes (measure : TextMeasure) (page : PageModel) (s : RenderState) :
    Except RenderState RenderState := do
  let s ← (if hasNotes page .A then renderSection measure page s .A else .ok s)
  let s ← (if hasNotes page .B then renderSection measure page s .B else .ok s)
  if hasNotes page .C then renderSection measure page s .C else .ok s

/-! ## All layers -/

/-- The canvas when the separator lines are about to be drawn. -/
def drawPageLayers (culture : CompareInfo) (measure : TextMeasure) (page : PageModel) :
    List Child :=
  drawBackground ++ drawRunningHeader measure page ++ drawPageNumber measure page ++
    drawMainText culture measure page

/-- `RenderPage(page, canvas)`, which starts with an empty canvas. The main text is drawn with
`_currentY` at the upper margin. -/
def renderPage (culture : CompareInfo) (measure : TextMeasure) (page : PageModel) :
    Except RenderState RenderState :=
  drawFootnotes measure page
    (drawSeparatorLines page ⟨drawPageLayers culture measure page, LayoutConstants.marginTop⟩)

/-- The state in which drawing ends, whether it returns or throws. -/
def finalState : Except RenderState RenderState → RenderState
  | .ok s => s
  | .error s => s

/-- The canvas `RenderPage` leaves. -/
def drawnCanvas (culture : CompareInfo) (measure : TextMeasure) (page : PageModel) : List Child :=
  (finalState (renderPage culture measure page)).canvas

end PageRenderer

end Typesetting
