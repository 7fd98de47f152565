/-
# Typesetting.Views.DrawnRows -- nothing the window draws lies on anything else

`DrawGlyphs` moves `currentY` down by fixed amounts for the lines and the titles and by the measured
height for the notes. What it draws therefore lies in rows, one below the other, as long as a block
is not higher than its row: a line of the main text has 1.7 of its font size, a title 1.5 of the
size of the notes, of which its own size is eleven tenths. Within a row there are only the words of
a line of the main text, and they follow one another to the left if they fit the line. So a font
whose lines are at most 15/11 of its size draws fitting lines without overlaps.

No row begins above the canvas or ends below it, the page number under everything included. Nothing
of that kind holds from side to side: `WrapText` counts characters, so a last line, which is one
block, may be wider than the canvas, and a panel begins 470 pixels from the right edge of it.

This holds for blocks of one line. A block breaks its text at white space other than blanks, which
a main text that was extracted does not contain.
-/
import Typesetting.Text.Numerals
import Typesetting.Views.DrawGlyphs

namespace Typesetting

namespace MainWindow

/-! ## What the children of the canvas take up -/

/-- A text without a line break. -/
def OneLine (text : Text) : Prop :=
  ∀ c ∈ text, isWhiteSpace c = true → c = space

theorem oneLine_of_all {text : Text}
    (h : text.all (fun c => !isWhiteSpace c || c == space) = true) : OneLine text := by
  intro c hc hws
  have hchar := List.all_eq_true.mp h c hc
  simpa [hws] using hchar

/-- The sizes of text blocks and panels: a block of one line has at most 15/11 of its font size. -/
structure FitsRows (wpf : WpfMeasures) (blockHeight : PlacedText → ℚ) : Prop where
  block_le : ∀ block, 0 ≤ block.fontSize → OneLine block.text →
    blockHeight block ≤ block.fontSize * (15 / 11)
  panel_nonneg : ∀ note width, 0 ≤ wpf.panelHeight note width
  word_nonneg : ∀ word fontSize, 0 ≤ wpf.textWidth word fontSize

/-- `availableWidth` of the main text. -/
def mainAvailableWidth : ℚ :=
  drawGlyphsPageWidth - drawGlyphsMargin - drawGlyphsMargin

/-- The words of a line are no wider than the line together. -/
def WordsFit (wpf : WpfMeasures) (wrappedLine : Text) : Prop :=
  ((splitAtSpaces wrappedLine).map fun word => wpf.textWidth word drawGlyphsFontSize).sum ≤
    mainAvailableWidth

/-- The width in which a panel is measured. -/
def noteAvailableWidth : ℚ :=
  500 - drawGlyphsMargin - (drawGlyphsPageWidth - drawGlyphsMargin)

def WindowChild.top : WindowChild → ℚ
  | .text block => block.top
  | .line y _ _ _ => y
  | .panel note => note.top

def WindowChild.bottom (wpf : WpfMeasures) (blockHeight : PlacedText → ℚ) : WindowChild → ℚ
  | .text block => block.top + blockHeight block
  | .line y _ _ _ => y
  | .panel note => note.top + wpf.panelHeight note noteAvailableWidth

/-- Words of the main text at one height, the second to the left of where the first ends. -/
def SideBySide (wpf : WpfMeasures) : WindowChild → WindowChild → Prop
  | .text a, .text b =>
    a.top = b.top ∧ a.fontSize = drawGlyphsFontSize ∧ b.fontSize = drawGlyphsFontSize ∧
      a.right + wpf.textWidth a.text a.fontSize ≤ b.right
  | _, _ => False

/-- One of the two ends where the other begins, or above it, unless they stand side by side. -/
def Apart (wpf : WpfMeasures) (blockHeight : PlacedText → ℚ) (a b : WindowChild) : Prop :=
  SideBySide wpf a b ∨ a.bottom wpf blockHeight ≤ b.top ∨ b.bottom wpf blockHeight ≤ a.top

/-- Rows of children from one height down to another. -/
abbrev Rows (wpf : WpfMeasures) (blockHeight : PlacedText → ℚ) :
    ℚ → List WindowChild → ℚ → Prop :=
  Stack.Stacked WindowChild.top (WindowChild.bottom wpf blockHeight) (SideBySide wpf)

section Rows

variable {wpf : WpfMeasures} {blockHeight : PlacedText → ℚ}

/-! ## The main text -/

theorem span_drawWordBlocks (currentY gap : ℚ) (words : List Text) (currentX : ℚ) :
    (drawWordBlocks wpf currentY gap words currentX).map
        (fun block => ⟨block.right, wpf.textWidth block.text block.fontSize⟩) =
      Justify.place gap currentX
        (words.map fun word => wpf.textWidth word drawGlyphsFontSize) := by
  induction words generalizing currentX with
  | nil => rfl
  | cons word words ih =>
      rw [drawWordBlocks, List.map_cons, List.map_cons, ih, Justify.place_cons, ← add_assoc]

/-- The words of a line that fit it follow one another to the left. -/
theorem drawMainLine_apart (h : FitsRows wpf blockHeight) {wrappedLine : Text}
    (hwords : WordsFit wpf wrappedLine) (isLastLine : Bool) (currentY : ℚ) :
    (drawMainLine wpf wrappedLine isLastLine currentY).Pairwise fun a b =>
      a.right + wpf.textWidth a.text a.fontSize ≤ b.right := by
  unfold drawMainLine
  simp only
  split
  · rename_i hjustified
    let widths := (splitAtSpaces wrappedLine).map fun word =>
      wpf.textWidth word drawGlyphsFontSize
    have hlength : widths.length = (splitAtSpaces wrappedLine).length := List.length_map ..
    have htwo : 2 ≤ widths.length := by
      rw [hlength]
      exact hjustified.1
    have hnonneg : ∀ w ∈ widths, 0 ≤ w := by
      intro w hw
      obtain ⟨word, -, rfl⟩ := List.mem_map.mp hw
      exact h.word_nonneg word drawGlyphsFontSize
    have hgap : 0 ≤ Justify.gapOf mainAvailableWidth widths :=
      (Justify.gapOf_nonneg_iff htwo).mpr hwords
    have hspans : (Justify.place (Justify.gapOf mainAvailableWidth widths) drawGlyphsMargin
        widths).Pairwise fun a b => a.stop ≤ b.start := Justify.pairwise_place hgap hnonneg
    unfold Justify.gapOf at hspans
    rw [hlength, ← span_drawWordBlocks currentY] at hspans
    exact List.pairwise_map.mp hspans
  · exact List.pairwise_singleton _ _

theorem rows_drawMainLine (h : FitsRows wpf blockHeight) {wrappedLine : Text}
    (hline : OneLine wrappedLine) (hwords : WordsFit wpf wrappedLine) (isLastLine : Bool)
    (currentY : ℚ) :
    Rows wpf blockHeight currentY ((drawMainLine wpf wrappedLine isLastLine currentY).map .text)
      (currentY + drawGlyphsLineHeight) := by
  have hpos : (0 : ℚ) ≤ drawGlyphsFontSize := by norm_num [drawGlyphsFontSize]
  have hroom : drawGlyphsFontSize * (15 / 11) ≤ drawGlyphsLineHeight := by
    norm_num [drawGlyphsFontSize, drawGlyphsLineHeight]
  have hheight : (0 : ℚ) ≤ drawGlyphsLineHeight := by
    norm_num [drawGlyphsFontSize, drawGlyphsLineHeight]
  have hbetween : ∀ child ∈ (drawMainLine wpf wrappedLine isLastLine currentY).map .text,
      currentY ≤ WindowChild.top child ∧
        WindowChild.bottom wpf blockHeight child ≤ currentY + drawGlyphsLineHeight := by
    intro child hchild
    obtain ⟨block, hblock, rfl⟩ := List.mem_map.mp hchild
    obtain ⟨htop, hsize, htext⟩ := mem_drawMainLine hblock
    have hle := h.block_le block (hsize ▸ hpos) fun c hc => hline c (htext c hc)
    rw [hsize] at hle
    show currentY ≤ block.top ∧ block.top + blockHeight block ≤ currentY + drawGlyphsLineHeight
    exact ⟨htop.ge, by linarith⟩
  have hbeside : ((drawMainLine wpf wrappedLine isLastLine currentY).map
      WindowChild.text).Pairwise (SideBySide wpf) := by
    refine List.pairwise_map.mpr
      ((drawMainLine_apart h hwords isLastLine currentY).imp_of_mem fun ha hb hab => ?_)
    obtain ⟨hatop, hasize, -⟩ := mem_drawMainLine ha
    obtain ⟨hbtop, hbsize, -⟩ := mem_drawMainLine hb
    exact ⟨hatop.trans hbtop.symm, hasize, hbsize, hab⟩
  have hrow := Stack.Stacked.row (by linarith) hbetween hbeside
    (.nil (le_refl (currentY + drawGlyphsLineHeight)))
  rwa [List.append_nil] at hrow

theorem rows_drawMainLines (h : FitsRows wpf blockHeight) (totalLines lineIndex : Nat)
    {lines : List Text} (hlines : ∀ line ∈ lines, OneLine line ∧ WordsFit wpf line)
    (currentY : ℚ) :
    let drawn := drawMainLines wpf totalLines lineIndex lines currentY
    Rows wpf blockHeight currentY (drawn.1.map .text) drawn.2 := by
  induction lines generalizing lineIndex currentY with
  | nil => exact .nil le_rfl
  | cons line lines ih =>
      obtain ⟨hline, hrest⟩ := List.forall_mem_cons.mp hlines
      simp only [drawMainLines, List.map_append]
      exact (rows_drawMainLine h hline.1 hline.2 _ currentY).append (ih (lineIndex + 1) hrest _)

/-- The characters of the lines are those of the glyphs. -/
theorem mem_lineTexts {glyphs : List GlyphInfo} {text : Text} {c : UInt16}
    (htext : text ∈ lineTexts glyphs) (hc : c ∈ text) : ∃ g ∈ glyphs, glyphChar g = c := by
  unfold lineTexts at htext
  split at htext
  · cases htext
  · obtain ⟨group, hgroup, rfl⟩ := List.mem_map.mp htext
    obtain ⟨g, hg, rfl⟩ := List.mem_map.mp hc
    exact ⟨g, Grouping.mem_of_mem_groupBy (Grouping.mem_orderBy.mp hgroup)
      (Grouping.mem_orderBy.mp hg), rfl⟩

/-- Glyphs of words and blanks make lines without line breaks. -/
theorem oneLine_allLines {glyphs : List GlyphInfo}
    (hglyphs : ∀ g ∈ glyphs, isWhiteSpace (glyphChar g) = true → glyphChar g = space) :
    ∀ line ∈ allLines glyphs, OneLine line := by
  intro line hline c hc hws
  obtain ⟨text, htext, hwrapped⟩ := List.mem_flatMap.mp hline
  rcases mem_wrapText hwrapped hc with hspace | hmem
  · exact hspace
  · obtain ⟨g, hg, rfl⟩ := mem_lineTexts htext hmem
    exact hglyphs g hg hws

/-! ## The notes -/

theorem rows_renderNotes (h : FitsRows wpf blockHeight) (i : Nat) (notes : List Text)
    (currentY : ℚ) :
    let drawn := renderNotes wpf.textWidth wpf.panelHeight noteFontSize noteAvailableWidth
      (drawGlyphsPageWidth - drawGlyphsMargin) i notes currentY
    Rows wpf blockHeight currentY drawn.1 drawn.2 := by
  induction notes generalizing i currentY with
  | nil => exact .nil le_rfl
  | cons note notes ih =>
      let drawn := renderJustifiedNote wpf.textWidth wpf.panelHeight note currentY noteFontSize
        noteAvailableWidth (drawGlyphsPageWidth - drawGlyphsMargin) (i + 1)
      have hpanel : 0 ≤ wpf.panelHeight drawn.1 noteAvailableWidth := h.panel_nonneg _ _
      have hend : drawn.2 = currentY + wpf.panelHeight drawn.1 noteAvailableWidth := rfl
      have hfirst : Rows wpf blockHeight currentY [.panel drawn.1] (drawn.2 + 12) := by
        refine .single (by linarith) le_rfl ?_
        show currentY + wpf.panelHeight drawn.1 noteAvailableWidth ≤ _
        linarith
      exact hfirst.append (ih (i + 1) (drawn.2 + 12))

theorem oneLine_windowSectionTitle (system : NoteSystem) : OneLine (windowSectionTitle system) := by
  apply oneLine_of_all
  cases system <;> decide +kernel

theorem rows_drawSection (h : FitsRows wpf blockHeight) (footnotes : NoteSystem → List Text)
    (system : NoteSystem) (currentY : ℚ) :
    let drawn := drawSection wpf.textWidth wpf.panelHeight wpf.titleWidth footnotes system currentY
    Rows wpf blockHeight currentY drawn.1 drawn.2 := by
  have hpos : (0 : ℚ) ≤ noteFontSize * (11 / 10) := by
    norm_num [noteFontSize, drawGlyphsFontSize]
  have hroom : noteFontSize * (11 / 10) * (15 / 11) = noteFontSize * (3 / 2) := by ring
  unfold drawSection renderFootnoteSection
  split
  · exact .nil le_rfl
  · let title : PlacedText := ⟨windowSectionTitle system,
      (500 - wpf.titleWidth (windowSectionTitle system) (noteFontSize * (11 / 10))) / 2,
      currentY, noteFontSize * (11 / 10)⟩
    have hheight := h.block_le title hpos (oneLine_windowSectionTitle system)
    have htitle : Rows wpf blockHeight currentY [.text title]
        (currentY + noteFontSize * (3 / 2)) := by
      refine .single (by linarith) le_rfl ?_
      show currentY + blockHeight title ≤ _
      have hsize : blockHeight title ≤ noteFontSize * (11 / 10) * (15 / 11) := hheight
      linarith
    exact htitle.append (rows_renderNotes h 0 (footnotes system) _)

theorem rows_drawBetween (above below : List Text) (currentY : ℚ) :
    let drawn := drawBetween above below currentY
    Rows wpf blockHeight currentY drawn.1 drawn.2 := by
  unfold drawBetween
  split
  · refine .single (by linarith) ?_ ?_
    · show currentY ≤ currentY + 10
      linarith
    · show currentY + 10 ≤ currentY + 10 + 20
      linarith
  · exact .nil le_rfl

theorem rows_drawGlyphsNotes (h : FitsRows wpf blockHeight) (footnotes : NoteSystem → List Text)
    (currentY : ℚ) :
    let drawn := drawGlyphsNotes wpf.textWidth wpf.panelHeight wpf.titleWidth footnotes currentY
    Rows wpf blockHeight currentY drawn.1 drawn.2 := by
  have hgap : (0 : ℚ) ≤ drawGlyphsFontSize * (17 / 10) * (1 / 2) := by
    norm_num [drawGlyphsFontSize]
  let y := currentY + drawGlyphsFontSize * (17 / 10) * (1 / 2)
  have hrule : Rows wpf blockHeight currentY
      [.line y drawGlyphsMargin (drawGlyphsPageWidth - drawGlyphsMargin) true] (y + 25) := by
    refine .single ?_ ?_ ?_
    · show currentY ≤ currentY + drawGlyphsFontSize * (17 / 10) * (1 / 2) + 25
      linarith
    · show currentY ≤ currentY + drawGlyphsFontSize * (17 / 10) * (1 / 2)
      linarith
    · show y ≤ y + 25
      linarith
  unfold drawGlyphsNotes
  simp only [List.cons_append]
  exact hrule.append (((((rows_drawSection h footnotes .A _).append
    (rows_drawBetween _ _ _)).append (rows_drawSection h footnotes .B _)).append
      (rows_drawBetween _ _ _)).append (rows_drawSection h footnotes .C _))

/-! ## The canvas -/

theorem rows_headerBlocks (h : FitsRows wpf blockHeight) {chapterTitle : Text}
    (htitle : OneLine chapterTitle) :
    Rows wpf blockHeight 0 (headerBlocks chapterTitle) drawGlyphsStartY := by
  unfold headerBlocks
  split
  · have hheight := h.block_le ⟨chapterTitle, drawGlyphsMargin, 20, 14⟩ (by norm_num) htitle
    refine .single (by norm_num [drawGlyphsStartY]) ?_ ?_
    · show (0 : ℚ) ≤ 20
      norm_num
    · show (20 : ℚ) + blockHeight ⟨chapterTitle, drawGlyphsMargin, 20, 14⟩ ≤ 80
      linarith
  · exact .nil (by norm_num [drawGlyphsStartY])

theorem oneLine_natToText (n : Nat) : OneLine (natToText n) := by
  intro c hc hws
  rw [isWhiteSpace_of_mem_natToText hc] at hws
  cases hws

/-- A block below all rows, the rows taken in two parts. -/
theorem pairwise_apart_insert {before behind : List WindowChild} {lo hi : ℚ} {block : WindowChild}
    (h : Rows wpf blockHeight lo (before ++ behind) hi) (hblock : hi ≤ block.top) :
    (before ++ block :: behind).Pairwise (Apart wpf blockHeight) := by
  have hrows : (before ++ behind).Pairwise (Apart wpf blockHeight) :=
    h.pairwise.imp fun hab => hab.imp_right .inl
  have hbelow : ∀ a ∈ before ++ behind, a.bottom wpf blockHeight ≤ block.top :=
    fun a ha => (h.between a ha).2.trans hblock
  obtain ⟨hbefore, hbehind, hacross⟩ := List.pairwise_append.mp hrows
  refine List.pairwise_append.mpr ⟨hbefore, List.pairwise_cons.mpr ⟨?_, hbehind⟩, ?_⟩
  · intro b hb
    exact .inr (.inr (hbelow b (List.mem_append_right _ hb)))
  · intro a ha b hb
    rcases List.mem_cons.mp hb with rfl | hb
    · exact .inr (.inl (hbelow a (List.mem_append_left _ ha)))
    · exact hacross a ha b hb

/-- Where a line of the font is at most 15/11 of its size, the text and its title have no line
breaks and no line has more words than fit it, no two children of the canvas overlap: one of them
ends above the other, or they are words of one line and follow one another. All of them lie between
the upper and the lower edge of the canvas. -/
theorem drawGlyphs_apart (wpf : WpfMeasures) (blockHeight : PlacedText → ℚ)
    (h : FitsRows wpf blockHeight) (glyphs : List GlyphInfo)
    (hglyphs : ∀ g ∈ glyphs, isWhiteSpace (glyphChar g) = true → glyphChar g = space)
    (hwords : ∀ line ∈ allLines glyphs, WordsFit wpf line)
    (footnotes : NoteSystem → List Text) (chapterTitle : Text) (htitle : OneLine chapterTitle)
    (pageNumber : Nat) (canvas : GlyphCanvas) :
    let drawn := drawGlyphs wpf glyphs footnotes chapterTitle pageNumber canvas
    drawn.children.Pairwise (Apart wpf blockHeight) ∧
      ∀ child ∈ drawn.children, 0 ≤ child.top ∧ child.bottom wpf blockHeight ≤ drawn.height := by
  unfold drawGlyphs
  split
  · exact ⟨.nil, fun _ hchild => nomatch hchild⟩
  · let lines := allLines glyphs
    let main := drawMainLines wpf lines.length 0 lines drawGlyphsStartY
    let notes := drawGlyphsNotes wpf.textWidth wpf.panelHeight wpf.titleWidth footnotes main.2
    let finalHeight := max 700 (notes.2 + 50)
    let number : PlacedText := ⟨natToText pageNumber, drawGlyphsMargin, finalHeight - 40, 16⟩
    have hmain : Rows wpf blockHeight drawGlyphsStartY (main.1.map .text) main.2 :=
      rows_drawMainLines h lines.length 0
        (fun line hline => ⟨oneLine_allLines hglyphs line hline, hwords line hline⟩)
        drawGlyphsStartY
    have hrows : Rows wpf blockHeight 0
        (headerBlocks chapterTitle ++ (main.1.map .text ++ notes.1)) notes.2 :=
      (rows_headerBlocks h htitle).append (hmain.append (rows_drawGlyphsNotes h footnotes main.2))
    have hend : notes.2 + 50 ≤ finalHeight := le_max_right _ _
    have hmin : (700 : ℚ) ≤ finalHeight := le_max_left _ _
    have hnumber : blockHeight number ≤ 16 * (15 / 11) :=
      h.block_le number (by norm_num) (oneLine_natToText pageNumber)
    have hbelow : notes.2 ≤ WindowChild.top (.text number) := by
      show notes.2 ≤ finalHeight - 40
      linarith
    refine ⟨pairwise_apart_insert hrows hbelow, ?_⟩
    intro child hchild
    show 0 ≤ child.top ∧ child.bottom wpf blockHeight ≤ finalHeight
    have hcases : child = .text number ∨
        child ∈ headerBlocks chapterTitle ++ (main.1.map .text ++ notes.1) := by
      rcases List.mem_append.mp hchild with hmem | hmem
      · exact .inr (List.mem_append_left _ hmem)
      · exact (List.mem_cons.mp hmem).imp_right fun hmem => List.mem_append_right _ hmem
    rcases hcases with rfl | hmem
    · show 0 ≤ finalHeight - 40 ∧ finalHeight - 40 + blockHeight number ≤ finalHeight
      exact ⟨by linarith, by linarith⟩
    · obtain ⟨htop, hbottom⟩ := hrows.between child hmem
      exact ⟨htop, by linarith⟩

end Rows

/-! ## Four characters, a note and a title -/

/-- Every character is one pixel wide. -/
def pixelWpf : WpfMeasures where
  textWidth text _ := text.length
  titleWidth text _ := text.length
  panelHeight _ _ := 20

theorem fitsRows_pixelWpf : FitsRows pixelWpf fun block => block.fontSize * (4 / 3) where
  block_le block hsize _ := mul_le_mul_of_nonneg_left (by norm_num) hsize
  panel_nonneg _ _ := by norm_num [pixelWpf]
  word_nonneg word _ := Nat.cast_nonneg word.length

instance (wrappedLine : Text) : Decidable (WordsFit pixelWpf wrappedLine) :=
  inferInstanceAs (Decidable (_ ≤ _))

theorem drawGlyphs_apart_letters :
    let drawn := drawGlyphs pixelWpf ((utf16 "ab c").mapIdx (glyphAt .exact))
      (fun _ => [utf16 "d e"]) (utf16 "f") 1 {}
    drawn.children.Pairwise (Apart pixelWpf fun block => block.fontSize * (4 / 3)) ∧
      ∀ child ∈ drawn.children,
        0 ≤ child.top ∧ child.bottom pixelWpf (fun block => block.fontSize * (4 / 3)) ≤
          drawn.height :=
  have hlines : allLines ((utf16 "ab c").mapIdx (glyphAt .exact)) = wrapText (utf16 "ab c") 40 := by
    unfold allLines
    rw [lineTexts_encoded (by decide), List.flatMap_singleton]
  drawGlyphs_apart pixelWpf _ fitsRows_pixelWpf _ (by decide +kernel)
    (hlines ▸ by decide +kernel) _ _ (oneLine_of_all (by decide +kernel)) 1 {}

end MainWindow

end Typesetting
