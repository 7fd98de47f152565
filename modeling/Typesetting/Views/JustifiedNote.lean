/-
# Typesetting.Views.JustifiedNote -- the room the window leaves the words of a note

`DrawGlyphs` draws the notes of the three systems below the text. It passes on where the text ends,
470 pixels from one edge, and `RenderFootnoteSection` takes that for the width of the margin: of a
page of 500 pixels, less 30 and less 470, no room is left. `RenderJustifiedNote` shares out this
room, less the widths of the words, and so the gaps of every note of two words or more are negative.

The heights WPF computes for a panel and the width of a title are parameters. Widths and positions
are `double`s in the code and exact rational numbers here; the 500, 30 and 470 pixels and what is
left of them are the same in both.
-/
import Typesetting.Lib.Justify
import Typesetting.Models.PageModel
import Typesetting.Views.JustifiedLine

namespace Typesetting

namespace MainWindow

/-! ## The children of the canvas -/

/-- A text block in a panel, with what its `Margin` sets. -/
structure PanelBlock where
  text : Text
  fontSize : ℚ
  marginLeft : ℚ := 0
  marginRight : ℚ := 0

/-- The panel of a note: its number, its first words and the blocks of the rest. -/
structure NotePanel where
  number : PanelBlock
  heading : Option PanelBlock
  rest : List PanelBlock
  right : ℚ
  top : ℚ

inductive WindowChild where
  | text (block : PlacedText)
  | line (y x1 x2 : ℚ) (isLong : Bool)
  | panel (note : NotePanel)

/-- The panels among the children, in the order in which they are added. -/
def panels (children : List WindowChild) : List NotePanel :=
  children.filterMap fun
    | .panel note => some note
    | _ => none

/-! ## One note -/

/-- `noteText.IndexOf(c)` -/
def indexOfChar (noteText : Text) (c : UInt16) : Int :=
  match noteText.idxOf? c with
  | some i => i
  | none => -1

/-- `prefix` and `rest` of `RenderJustifiedNote`. -/
def splitNote (noteText : Text) : Text × Text :=
  let colonIndex := indexOfChar noteText 0x3A
  let spaceIndex := indexOfChar noteText space
  if 0 < colonIndex ∧ colonIndex < 30 then
    (substring noteText 0 (colonIndex.toNat + 1), trim (noteText.drop (colonIndex.toNat + 1)))
  else if 0 < spaceIndex ∧ spaceIndex < 20 then
    (substring noteText 0 spaceIndex.toNat, trim (noteText.drop spaceIndex.toNat))
  else ([], noteText)

/-- The width of the first words, in the larger font. -/
def headingWidth (measure : TextMeasure) (heading : Text) (fontSize : ℚ) : ℚ :=
  if heading = [] then 0 else measure heading (fontSize * (11 / 10))

/-- The blocks of the rest of a note: one for each word, all but the last with a gap. -/
def restBlocks (measure : TextMeasure) (heading rest : Text) (fontSize availableWidth : ℚ) :
    List PanelBlock :=
  if rest = [] then []
  else
    let words := splitAtSpaces rest
    if 1 < words.length then
      let totalWordsWidth := (words.map fun word => measure word fontSize).sum
      let extraSpace := availableWidth - totalWordsWidth - headingWidth measure heading fontSize
      let spaceBetweenWords := extraSpace / (words.length - 1 : ℕ)
      words.zipIdx.map fun p =>
        { text := p.1
          fontSize := fontSize
          marginLeft := if p.2 < words.length - 1 then spaceBetweenWords else 0 }
    else [{ text := rest, fontSize := fontSize }]

/-- `RenderJustifiedNote(noteText, startY, fontSize, …, availableWidth, rightMargin, noteNumber)` -/
def renderJustifiedNote (measure : TextMeasure) (panelHeight : NotePanel → ℚ → ℚ)
    (noteText : Text) (startY fontSize availableWidth rightMargin : ℚ) (noteNumber : Nat) :
    NotePanel × ℚ :=
  let (heading, rest) := splitNote noteText
  let note : NotePanel :=
    { number := ⟨natToText noteNumber ++ utf16 ". ", fontSize, 4, 0⟩
      heading := if heading = [] then none else some ⟨heading, fontSize * (11 / 10), 0, 4⟩
      rest := restBlocks measure heading rest fontSize availableWidth
      right := rightMargin
      top := startY }
  (note, startY + panelHeight note availableWidth)

/-! ## The notes of a page -/

/-- The loop of `RenderFootnoteSection` from note `i` on. -/
def renderNotes (measure : TextMeasure) (panelHeight : NotePanel → ℚ → ℚ)
    (fontSize availableWidth rightMargin : ℚ) : Nat → List Text → ℚ → List WindowChild × ℚ
  | _, [], currentY => ([], currentY)
  | i, noteText :: footnotes, currentY =>
    let drawn := renderJustifiedNote measure panelHeight noteText currentY fontSize availableWidth
      rightMargin (i + 1)
    let rest := renderNotes measure panelHeight fontSize availableWidth rightMargin (i + 1)
      footnotes (drawn.2 + 12)
    (.panel drawn.1 :: rest.1, rest.2)

/-- `RenderFootnoteSection(footnotes, startY, …, fontSize, sectionTitle, …, leftMargin,
rightMargin)` -/
def renderFootnoteSection (measure : TextMeasure) (panelHeight : NotePanel → ℚ → ℚ)
    (titleWidth : TextMeasure) (footnotes : List Text) (startY fontSize : ℚ) (sectionTitle : Text)
    (leftMargin rightMargin : ℚ) : List WindowChild × ℚ :=
  if footnotes.length = 0 then ([], startY)
  else
    let pageWidth := 500
    let availableWidth := pageWidth - leftMargin - rightMargin
    let centerX := (pageWidth - titleWidth sectionTitle (fontSize * (11 / 10))) / 2
    let title := .text ⟨sectionTitle, centerX, startY, fontSize * (11 / 10)⟩
    let notes := renderNotes measure panelHeight fontSize availableWidth rightMargin 0 footnotes
      (startY + fontSize * (3 / 2))
    (title :: notes.1, notes.2)

/-- The measures of `DrawGlyphs`. -/
def drawGlyphsPageWidth : ℚ := 500
def drawGlyphsMargin : ℚ := 30
def drawGlyphsFontSize : ℚ := 24

/-- The font size of the notes. -/
def noteFontSize : ℚ :=
  drawGlyphsFontSize * (17 / 20)

def windowSectionTitle : NoteSystem → Text
  | .A => utf16 "ביאור א'"
  | .B => utf16 "מקורות"
  | .C => utf16 "הערות נוספות"

/-- The call of `RenderFootnoteSection` for one system. The margin on the right is given by where
the text ends. -/
def drawSection (measure : TextMeasure) (panelHeight : NotePanel → ℚ → ℚ)
    (titleWidth : TextMeasure) (footnotes : NoteSystem → List Text) (system : NoteSystem)
    (currentY : ℚ) : List WindowChild × ℚ :=
  renderFootnoteSection measure panelHeight titleWidth (footnotes system) currentY noteFontSize
    (windowSectionTitle system) drawGlyphsMargin (drawGlyphsPageWidth - drawGlyphsMargin)

/-- The short line between two systems that both have notes. -/
def drawBetween (above below : List Text) (currentY : ℚ) : List WindowChild × ℚ :=
  if 0 < above.length ∧ 0 < below.length then
    let centerX := (drawGlyphsMargin + drawGlyphsPageWidth - drawGlyphsMargin) / 2
    ([.line (currentY + 10) (centerX - 100) (centerX + 100) false], currentY + 10 + 20)
  else ([], currentY)

/-- What `DrawGlyphs` draws below the text, which ends at `currentY`. -/
def drawGlyphsNotes (measure : TextMeasure) (panelHeight : NotePanel → ℚ → ℚ)
    (titleWidth : TextMeasure) (footnotes : NoteSystem → List Text) (currentY : ℚ) :
    List WindowChild × ℚ :=
  let currentY := currentY + drawGlyphsFontSize * (17 / 10) * (1 / 2)
  let rule := .line currentY drawGlyphsMargin (drawGlyphsPageWidth - drawGlyphsMargin) true
  let a := drawSection measure panelHeight titleWidth footnotes .A (currentY + 25)
  let ab := drawBetween (footnotes .A) (footnotes .B) a.2
  let b := drawSection measure panelHeight titleWidth footnotes .B ab.2
  let bc := drawBetween (footnotes .B) (footnotes .C) b.2
  let c := drawSection measure panelHeight titleWidth footnotes .C bc.2
  (rule :: a.1 ++ ab.1 ++ b.1 ++ bc.1 ++ c.1, c.2)

/-! ## The panels are those of the notes -/

section Drawn

variable {measure : TextMeasure} {panelHeight : NotePanel → ℚ → ℚ} {titleWidth : TextMeasure}

/-- The blocks of the rest of a note on the page. -/
def drawnRest (measure : TextMeasure) (noteText : Text) : List PanelBlock :=
  restBlocks measure (splitNote noteText).1 (splitNote noteText).2 noteFontSize
    (drawGlyphsPageWidth - drawGlyphsMargin - (drawGlyphsPageWidth - drawGlyphsMargin))

theorem panels_append (a b : List WindowChild) : panels (a ++ b) = panels a ++ panels b :=
  List.filterMap_append

theorem panels_line_cons (y x1 x2 : ℚ) (isLong : Bool) (children : List WindowChild) :
    panels (.line y x1 x2 isLong :: children) = panels children := rfl

theorem panels_renderNotes {fontSize availableWidth rightMargin : ℚ} (i : Nat)
    (footnotes : List Text) (currentY : ℚ) :
    List.Forall₂ (fun noteText note => note.rest =
        restBlocks measure (splitNote noteText).1 (splitNote noteText).2 fontSize availableWidth)
      footnotes
      (panels (renderNotes measure panelHeight fontSize availableWidth rightMargin i footnotes
        currentY).1) := by
  induction footnotes generalizing i currentY with
  | nil => exact .nil
  | cons noteText footnotes ih => exact .cons rfl (ih (i + 1) _)

theorem panels_drawSection (footnotes : NoteSystem → List Text) (system : NoteSystem)
    (currentY : ℚ) :
    List.Forall₂ (fun noteText note => note.rest = drawnRest measure noteText) (footnotes system)
      (panels (drawSection measure panelHeight titleWidth footnotes system currentY).1) := by
  unfold drawSection renderFootnoteSection
  split
  · rename_i hnone
    rw [List.eq_nil_of_length_eq_zero hnone]
    exact .nil
  · exact panels_renderNotes 0 (footnotes system) _

theorem panels_drawBetween (above below : List Text) (currentY : ℚ) :
    panels (drawBetween above below currentY).1 = [] := by
  unfold drawBetween
  split <;> rfl

/-- The panels on the page are those of the notes, system after system. -/
theorem panels_drawGlyphsNotes (footnotes : NoteSystem → List Text) (currentY : ℚ) :
    List.Forall₂ (fun noteText note => note.rest = drawnRest measure noteText)
      (footnotes .A ++ footnotes .B ++ footnotes .C)
      (panels (drawGlyphsNotes measure panelHeight titleWidth footnotes currentY).1) := by
  unfold drawGlyphsNotes
  simp only [List.cons_append, panels_line_cons, panels_append, panels_drawBetween, List.append_nil]
  exact List.rel_append (List.rel_append (panels_drawSection footnotes .A _)
    (panels_drawSection footnotes .B _)) (panels_drawSection footnotes .C _)

end Drawn

/-! ## The gaps -/

section Gaps

/-- The words of the rest of a note. -/
def noteWords (noteText : Text) : List Text :=
  splitAtSpaces (splitNote noteText).2

/-- The first words and the words of the rest, as they are measured. -/
def noteWidth (measure : TextMeasure) (noteText : Text) : ℚ :=
  headingWidth measure (splitNote noteText).1 noteFontSize +
    ((noteWords noteText).map fun word => measure word noteFontSize).sum

/-- The width of the text between the two margins of `DrawGlyphs`. -/
def noteTextWidth : ℚ :=
  drawGlyphsPageWidth - drawGlyphsMargin - drawGlyphsMargin

/-- A note that has room in the text has it with its gaps. -/
structure HasRoom (measure : TextMeasure) (noteText : Text) (note : NotePanel) : Prop where
  gaps : noteWidth measure noteText ≤ noteTextWidth → ∀ b ∈ note.rest, 0 ≤ b.marginLeft
  width : noteWidth measure noteText ≤ noteTextWidth →
    noteWidth measure noteText + (note.rest.map PanelBlock.marginLeft).sum ≤ noteTextWidth

/-- Words have a width, and the first words none below zero. -/
structure PositiveWidths (measure : TextMeasure) (noteText : Text) : Prop where
  words : ∀ word ∈ noteWords noteText, 0 < measure word noteFontSize
  heading : 0 ≤ headingWidth measure (splitNote noteText).1 noteFontSize

variable (measure : TextMeasure)

theorem noteWords_of_rest_nil {noteText : Text} (h : (splitNote noteText).2 = []) :
    noteWords noteText = [] := by
  rw [noteWords, h]
  rfl

/-- A rest without two words has no gap. -/
theorem margins_of_one_word {noteText : Text} (h : (noteWords noteText).length ≤ 1) :
    ∀ b ∈ drawnRest measure noteText, b.marginLeft = 0 := by
  intro b hb
  unfold drawnRest restBlocks at hb
  split at hb
  · cases hb
  · simp only at hb
    rw [if_neg (by simpa [noteWords] using h), List.mem_singleton] at hb
    rw [hb]

theorem gaps_zipIdx (gap : ℚ) {words : List Text} (h : words ≠ []) :
    (words.zipIdx.map fun p => if p.2 < words.length - 1 then gap else 0) =
      List.replicate (words.length - 1) gap ++ [0] := by
  have hpos := List.length_pos_of_ne_nil h
  have hpositions : words.zipIdx.map Prod.snd = List.range (words.length - 1 + 1) := by
    rw [List.zipIdx_map_snd, List.range_eq_range', Nat.sub_add_cancel hpos]
  have hbefore : ∀ i ∈ List.range (words.length - 1),
      (if i < words.length - 1 then gap else 0) = gap :=
    fun i hi => if_pos (List.mem_range.mp hi)
  calc (words.zipIdx.map fun p => if p.2 < words.length - 1 then gap else 0)
      = (words.zipIdx.map Prod.snd).map fun i => if i < words.length - 1 then gap else 0 := by
        rw [List.map_map]
        rfl
    _ = List.replicate (words.length - 1) gap ++ [0] := by
        rw [hpositions, List.range_succ, List.map_append, List.map_congr_left hbefore,
          List.map_const', List.length_range, List.map_singleton, if_neg (lt_irrefl _)]

/-- All words but the last have the same gap, the share of what the widths leave of no room. -/
theorem margins_of_words {noteText : Text} (h : 2 ≤ (noteWords noteText).length) :
    (drawnRest measure noteText).map PanelBlock.marginLeft =
      List.replicate ((noteWords noteText).length - 1)
        (-noteWidth measure noteText / ((noteWords noteText).length - 1 : ℕ)) ++ [0] := by
  have hrest : (splitNote noteText).2 ≠ [] := by
    intro hnil
    rw [noteWords_of_rest_nil hnil] at h
    cases h
  have hwords : noteWords noteText ≠ [] := by
    intro hnil
    rw [hnil] at h
    cases h
  have hroom : drawGlyphsPageWidth - drawGlyphsMargin - (drawGlyphsPageWidth - drawGlyphsMargin) -
      ((noteWords noteText).map fun word => measure word noteFontSize).sum -
      headingWidth measure (splitNote noteText).1 noteFontSize = -noteWidth measure noteText := by
    unfold noteWidth
    ring
  unfold drawnRest restBlocks
  rw [if_neg hrest]
  show List.map _ (if 1 < (noteWords noteText).length then
    (noteWords noteText).zipIdx.map _ else _) = _
  have hmany : 1 < (noteWords noteText).length := h
  rw [if_pos hmany, List.map_map, ← gaps_zipIdx _ hwords, ← hroom]
  rfl

variable {measure}

theorem noteWidth_pos {noteText : Text} (hpos : PositiveWidths measure noteText)
    (hwords : noteWords noteText ≠ []) : 0 < noteWidth measure noteText := by
  have hsum : 0 < ((noteWords noteText).map fun word => measure word noteFontSize).sum := by
    refine List.sum_pos _ (fun width hwidth => ?_) (by simpa using hwords)
    obtain ⟨word, hword, rfl⟩ := List.mem_map.mp hwidth
    exact hpos.words word hword
  have hheading := hpos.heading
  unfold noteWidth
  linarith

/-- The gaps of a note of two words or more are negative. -/
theorem exists_negative_gap {noteText : Text} {note : NotePanel}
    (hnote : note.rest = drawnRest measure noteText) (hpos : PositiveWidths measure noteText)
    (htwo : 2 ≤ (noteWords noteText).length) : ∃ b ∈ note.rest, b.marginLeft < 0 := by
  have hwords : noteWords noteText ≠ [] := List.ne_nil_of_length_pos (by omega)
  have hgaps : 0 < (((noteWords noteText).length - 1 : ℕ) : ℚ) := by
    rw [Nat.cast_pos]
    omega
  have hgap : -noteWidth measure noteText / ((noteWords noteText).length - 1 : ℕ) < 0 :=
    div_neg_of_neg_of_pos (neg_neg_of_pos (noteWidth_pos hpos hwords)) hgaps
  have hmem : -noteWidth measure noteText / ((noteWords noteText).length - 1 : ℕ) ∈
      note.rest.map PanelBlock.marginLeft := by
    rw [hnote, margins_of_words measure htwo, List.mem_append, List.mem_replicate]
    exact .inl ⟨by omega, rfl⟩
  obtain ⟨b, hb, hmargin⟩ := List.mem_map.mp hmem
  exact ⟨b, hb, hmargin ▸ hgap⟩

/-- Where words have a width, only a note without two words keeps its gaps from being negative. -/
theorem hasRoom_iff {noteText : Text} {note : NotePanel}
    (hnote : note.rest = drawnRest measure noteText) (hpos : PositiveWidths measure noteText) :
    HasRoom measure noteText note ↔
      (noteWords noteText).length ≤ 1 ∨ noteTextWidth < noteWidth measure noteText := by
  by_cases hone : (noteWords noteText).length ≤ 1
  · have hmargins := hnote ▸ margins_of_one_word measure hone
    have hsum : (note.rest.map PanelBlock.marginLeft).sum = 0 := by
      apply List.sum_eq_zero
      intro margin hmargin
      obtain ⟨b, hb, rfl⟩ := List.mem_map.mp hmargin
      exact hmargins b hb
    refine iff_of_true ⟨fun _ b hb => (hmargins b hb).ge, fun hfits => ?_⟩ (.inl hone)
    rwa [hsum, add_zero]
  · by_cases hwide : noteTextWidth < noteWidth measure noteText
    · have hnot : ¬ noteWidth measure noteText ≤ noteTextWidth := not_le.mpr hwide
      exact iff_of_true ⟨fun hfits => absurd hfits hnot, fun hfits => absurd hfits hnot⟩
        (.inr hwide)
    · refine iff_of_false (fun hroom => ?_) (by simp [hone, hwide])
      obtain ⟨b, hb, hgap⟩ := exists_negative_gap hnote hpos (by omega)
      exact absurd (hroom.gaps (not_lt.mp hwide) b hb) (not_le.mpr hgap)

/-- Of the notes `DrawGlyphs` draws, those that have room in the text keep it, and keep their gaps
from being negative, exactly when they have no two words behind the first. -/
theorem drawGlyphsNotes_hasRoom_iff (measure : TextMeasure) (panelHeight : NotePanel → ℚ → ℚ)
    (titleWidth : TextMeasure) (footnotes : NoteSystem → List Text) (currentY : ℚ) :
    List.Forall₂ (fun noteText note => PositiveWidths measure noteText →
        (HasRoom measure noteText note ↔
          (noteWords noteText).length ≤ 1 ∨ noteTextWidth < noteWidth measure noteText))
      (footnotes .A ++ footnotes .B ++ footnotes .C)
      (panels (drawGlyphsNotes measure panelHeight titleWidth footnotes currentY).1) :=
  (panels_drawGlyphsNotes footnotes currentY).imp fun _ _ hnote hpos => hasRoom_iff hnote hpos

/-- A note of three words, as wide as three letters. The second and the third are drawn with a gap
of minus three. -/
theorem drawGlyphsNotes_negative_gap :
    ¬ List.Forall₂ (fun noteText note => PositiveWidths (fun t _ => t.length) noteText →
        HasRoom (fun t _ => t.length) noteText note)
      [utf16 "a b c"]
      (panels (drawGlyphsNotes (fun t _ => t.length) (fun _ _ => 0) (fun _ _ => 0)
        (fun system => if system = .A then [utf16 "a b c"] else []) 0).1) := by
  intro hall
  have hpos : PositiveWidths (fun t _ => t.length) (utf16 "a b c") :=
    ⟨by decide +kernel, by decide +kernel⟩
  have hpanels : (panels (drawGlyphsNotes (fun t _ => t.length) (fun _ _ => 0) (fun _ _ => 0)
      (fun system => if system = .A then [utf16 "a b c"] else []) 0).1).map
        (fun note => note.rest.map PanelBlock.marginLeft) = [[-3, 0]] := by decide +kernel
  obtain ⟨note, rest, hnote, -, hdrawn⟩ := List.forall₂_cons_left_iff.mp hall
  rw [hdrawn, List.map_cons, List.cons.injEq] at hpanels
  have hmem : (-3 : ℚ) ∈ note.rest.map PanelBlock.marginLeft := by
    rw [hpanels.1]
    exact List.mem_cons_self
  obtain ⟨b, hb, hmargin⟩ := List.mem_map.mp hmem
  have hnonneg := (hnote hpos).gaps (by decide +kernel) b hb
  rw [hmargin] at hnonneg
  exact absurd hnonneg (by norm_num)

end Gaps

end MainWindow

end Typesetting
