/-
# Typesetting.Rendering.DrawnWords -- what of a text is drawn

Between a raw text and the words on the canvas stand the parser, the line breaker, the distribution
to columns and pages and the renderer, which takes the mark of a last line off again. Two things can
be lost on the way. Where a column of section א has more than twenty notes the table of its markers
ends, and what would be drawn after it is not. And a line of the main text that ends in U+00A4
without being the last of its paragraph passes for one, and loses the character.
-/
import Typesetting.Rendering.WrapTextToWidth
import Typesetting.Rendering.RunOnHeight
import Typesetting.Services.ColumnLayoutEngine
import Typesetting.Services.Parse

namespace Typesetting

namespace PageRenderer

/-! ## Reading the canvas -/

/-- The text of a child, if it is a text block. -/
def Child.text? (c : Child) : Option Text :=
  match c.shape with
  | .textBlock text _ _ _ => some text
  | _ => none

/-- The texts on a layer of the canvas, in the order in which they were drawn. -/
def wordsOn (layer : Layer) (canvas : List Child) : List Text :=
  canvas.filterMap fun c => if c.layer = layer then c.text? else none

/-- What is drawn of a line: its words, without what passes for the mark of a last line. -/
def lineWords (culture : CompareInfo) (line : Text) : List Text :=
  wordsOf (TextParser.removeLastLineMarker culture line)

section Reading

variable {culture : CompareInfo} {measure : TextMeasure} {layer : Layer}

@[simp] theorem wordsOn_nil (layer : Layer) : wordsOn layer [] = [] := rfl

@[simp] theorem wordsOn_append (layer : Layer) (canvas drawn : List Child) :
    wordsOn layer (canvas ++ drawn) = wordsOn layer canvas ++ wordsOn layer drawn :=
  List.filterMap_append

/-- Other layers do not count. -/
theorem wordsOn_of_other {canvas : List Child} (h : ∀ c ∈ canvas, c.layer ≠ layer) :
    wordsOn layer canvas = [] := by
  unfold wordsOn
  rw [List.filterMap_eq_nil_iff]
  intro c hc
  rw [if_neg (h c hc)]

theorem wordsOn_cons {c : Child} {text : Text} (hlayer : c.layer = layer)
    (htext : c.text? = some text) (canvas : List Child) :
    wordsOn layer (c :: canvas) = text :: wordsOn layer canvas := by
  unfold wordsOn
  rw [List.filterMap_cons_some]
  rw [if_pos hlayer, htext]

theorem wordsOn_drawWords (y fontSize gap : ℚ) (words : List Text) (currentX : ℚ) :
    wordsOn layer (drawWords measure layer y fontSize gap words currentX) = words := by
  induction words generalizing currentX with
  | nil => rfl
  | cons word words ih =>
      show wordsOn layer (drawWord measure layer word _ y fontSize :: drawWords _ _ _ _ _ _ _) = _
      rw [@wordsOn_cons layer _ word rfl rfl, ih]

theorem wordsOn_drawRightAlignedLine (line : Text) (rightX y fontSize : ℚ) :
    wordsOn layer (drawRightAlignedLine measure layer line rightX y fontSize) = wordsOf line :=
  wordsOn_drawWords y fontSize 3 (wordsOf line) rightX

/-- A word is its only word. -/
theorem wordsOf_word {line word : Text} (h : word ∈ wordsOf line) : wordsOf word = [word] := by
  rw [wordsOf_of_no_space, not_blank_of_mem_wordsOf h]
  · rfl
  · rw [wordsOf_eq_filter] at h
    exact (TextParser.mem_splitWords (List.mem_filter.mp h).1).2

/-- A justified line draws its words, however many there are. -/
theorem wordsOn_renderJustifiedLine (line : Text) (x y width fontSize : ℚ) :
    wordsOn layer (renderJustifiedLine measure layer line x y width fontSize) = wordsOf line := by
  unfold renderJustifiedLine
  split
  · rename_i hnone
    rw [hnone]
    rfl
  · rename_i word hword
    have hmem : word ∈ wordsOf line := by simp [hword]
    rw [wordsOn_drawRightAlignedLine, hword, wordsOf_word hmem]
  · exact wordsOn_drawWords _ _ _ _ _

theorem wordsOn_drawLines {draw : Text → ℚ → List Child} {words : Text → List Text}
    (h : ∀ line y, wordsOn layer (draw line y) = words line) (lineHeight : ℚ) (lines : List Text)
    (y : ℚ) : wordsOn layer (drawLines draw lineHeight lines y) = lines.flatMap words := by
  induction lines generalizing y with
  | nil => rfl
  | cons line lines ih => rw [drawLines, wordsOn_append, h, ih, List.flatMap_cons]

theorem wordsOn_renderColumn (lines : List Text) (x startY width : ℚ) :
    wordsOn .mainText (renderColumn culture measure lines x startY width) =
      lines.flatMap (lineWords culture) := by
  unfold renderColumn
  apply wordsOn_drawLines
  intro line y
  dsimp only
  split
  · exact wordsOn_drawRightAlignedLine _ _ _ _
  · exact wordsOn_renderJustifiedLine _ _ _ _ _

theorem wordsOn_columnBody (system : NoteSystem) (text : Text) (x y : ℚ) :
    wordsOn (.sectionBody system) (columnBody measure system text x y) = wordsOf text := by
  unfold columnBody
  rw [wordsOn_drawLines fun line y => wordsOn_renderJustifiedLine line x y _ _]
  calc (wrapTextToWidth measure text _ _).flatMap wordsOf
      = ((wrapTextToWidth measure text _ _).flatMap TextParser.splitWords).filter
          fun w => !isNullOrWhiteSpace w := by
        rw [List.filter_flatMap]
        exact List.flatMap_congr fun line _ => wordsOf_eq_filter line
    _ = (wordsOf text).filter fun w => !isNullOrWhiteSpace w := by
        rw [words_wrapTextToWidth]
    _ = wordsOf text := by
        unfold wordsOf
        rw [List.filter_filter]
        simp only [Bool.and_self]

/-- A rule is no text. -/
theorem wordsOn_columnRules (layer other : Layer) (y : ℚ) :
    wordsOn layer (columnRules other y) = [] := by
  unfold wordsOn columnRules
  rw [List.filterMap_eq_nil_iff]
  intro c hc
  rcases List.mem_pair.mp hc with rfl | rfl <;> exact ite_self _

end Reading

/-! ## One section -/

/-- The words of the notes of a system, column after column, each note behind its marker. -/
def sectionWords (page : PageModel) (system : NoteSystem) : List Text :=
  markedWords system (notesRight page system) ++ markedWords system (notesLeft page system)

section Section

variable {measure : TextMeasure} {page : PageModel} {system : NoteSystem}

theorem wordsOn_sectionPart {y : ℚ} {part body : List Child}
    (hpart : SectionPart system y part body) :
    wordsOn (.sectionBody system) part = wordsOn (.sectionBody system) body := by
  rw [hpart.part_eq, wordsOn_append]
  have hhead : wordsOn (.sectionBody system) (sectionHead system (sectionTitle system)
      (footnoteFontSize system) y) = [] := by
    apply wordsOn_of_other
    intro c hc
    rcases List.mem_cons.mp hc with rfl | hc
    · exact Layer.noConfusion
    · rw [(columnRules_spec _ _ c hc).1]
      exact Layer.noConfusion
  rw [hhead, List.nil_append]

/-- A section whose markers are found shows the words of both columns. -/
theorem renderSection_words (h : Completes page system) (s : RenderState) :
    ∃ part y, renderSection measure page s system = .ok ⟨s.canvas ++ part, y⟩ ∧
      (∀ c ∈ part, c.layer.system? = some system) ∧
      wordsOn (.sectionBody system) part = sectionWords page system := by
  obtain ⟨rightText, hright⟩ := Option.isSome_iff_exists.mp h.1
  obtain ⟨leftText, hleft⟩ := Option.isSome_iff_exists.mp h.2
  let y := s.currentY + LayoutConstants.footnoteSectionTitleHeight
  let body := columnBody measure system rightText rightColumnX y ++
    columnBody measure system leftText leftColumnX y
  have hpart : SectionPart system s.currentY (sectionHead system (sectionTitle system)
      (footnoteFontSize system) s.currentY ++ body) body := by
    refine ⟨rfl, ?_⟩
    intro c hc
    rcases List.mem_append.mp hc with hc | hc
    · exact layer_columnBody _ _ _ c hc
    · exact layer_columnBody _ _ _ c hc
  refine ⟨_, nextSectionY measure page system s.currentY, ?_, hpart.owned, ?_⟩
  · unfold renderSection renderFootnoteSection
    simp only [renderRunOnColumn_eq, hright, hleft, Option.map_some, RenderState.add,
      max_calculateRunOnHeight, List.append_assoc]
    rfl
  · rw [wordsOn_sectionPart hpart, wordsOn_append, wordsOn_columnBody, wordsOn_columnBody,
      wordsOf_drawnText hright, wordsOf_drawnText hleft]
    rfl

/-- Where the letters run out drawing ends, behind the right column if they reached for it. -/
theorem renderSection_words_of_throws (h : ¬ Completes page .A) (s : RenderState) :
    ∃ part y, renderSection measure page s .A = .error ⟨s.canvas ++ part, y⟩ ∧
      (∀ c ∈ part, c.layer.system? = some .A) ∧
      wordsOn (.sectionBody .A) part =
        if page.footnotesARight.length ≤ 20 then markedWords .A page.footnotesARight else [] := by
  let y := s.currentY + LayoutConstants.footnoteSectionTitleHeight
  cases hright : runOnText (noteMarker (sectionMarker .A)) 0 (notesRight page .A) [] with
  | none =>
      have hmany : ¬ page.footnotesARight.length ≤ 20 := by
        intro hfew
        have hsome := (runOnText_letters_isSome_iff page.footnotesARight).mpr hfew
        rw [show page.footnotesARight = notesRight page .A from rfl, hright] at hsome
        cases hsome
      have hpart : SectionPart .A s.currentY (sectionHead .A (sectionTitle .A)
          (footnoteFontSize .A) s.currentY ++ []) [] := ⟨rfl, fun _ hc => nomatch hc⟩
      refine ⟨_, s.currentY, ?_, hpart.owned, ?_⟩
      · unfold renderSection renderFootnoteSection
        simp only [renderRunOnColumn_eq, hright, Option.map_none, RenderState.add,
          List.append_nil]
      · rw [wordsOn_sectionPart hpart, if_neg hmany]
        rfl
  | some rightText =>
      have hfew : page.footnotesARight.length ≤ 20 := by
        rw [← runOnText_letters_isSome_iff]
        exact Option.isSome_iff_exists.mpr ⟨_, hright⟩
      cases hleft : runOnText (noteMarker (sectionMarker .A)) 0 (notesLeft page .A) [] with
      | none =>
          have hpart : SectionPart .A s.currentY (sectionHead .A (sectionTitle .A)
              (footnoteFontSize .A) s.currentY ++
              columnBody measure .A rightText rightColumnX y) _ :=
            ⟨rfl, layer_columnBody _ _ _⟩
          refine ⟨_, s.currentY, ?_, hpart.owned, ?_⟩
          · unfold renderSection renderFootnoteSection
            simp only [renderRunOnColumn_eq, hright, hleft, Option.map_some, Option.map_none,
              RenderState.add, List.append_assoc]
            rfl
          · rw [wordsOn_sectionPart hpart, wordsOn_columnBody, wordsOf_drawnText hright,
              if_pos hfew]
            rfl
      | some leftText => exact absurd ⟨by rw [hright]; rfl, by rw [hleft]; rfl⟩ h

/-- One of the three optional calls: a section without notes adds nothing. -/
theorem optionalSection_words (h : Completes page system) (s : RenderState) :
    ∃ part y, (if hasNotes page system then renderSection measure page s system else .ok s) =
        .ok ⟨s.canvas ++ part, y⟩ ∧
      (∀ c ∈ part, c.layer.system? = some system) ∧
      wordsOn (.sectionBody system) part = sectionWords page system := by
  by_cases hnotes : hasNotes page system
  · rw [if_pos hnotes]
    exact renderSection_words h s
  · obtain ⟨hright, hleft⟩ := not_or.mp hnotes
    have hrightNil : notesRight page system = [] := by simpa using hright
    have hleftNil : notesLeft page system = [] := by simpa using hleft
    refine ⟨[], s.currentY, ?_, (fun _ hc => nomatch hc), ?_⟩
    · rw [if_neg hnotes, List.append_nil]
    · unfold sectionWords
      rw [hrightNil, hleftNil]
      rfl

/-- What other sections draw is not on the lines of this one. -/
theorem wordsOn_other_section {other : NoteSystem} {part : List Child}
    (hpart : ∀ c ∈ part, c.layer.system? = some other) (hne : other ≠ system) :
    wordsOn (.sectionBody system) part = [] := by
  apply wordsOn_of_other
  intro c hc hlayer
  have howner := hpart c hc
  rw [hlayer] at howner
  exact hne (Option.some.inj howner).symm

theorem wordsOn_mainText_section {other : NoteSystem} {part : List Child}
    (hpart : ∀ c ∈ part, c.layer.system? = some other) : wordsOn .mainText part = [] := by
  apply wordsOn_of_other
  intro c hc hlayer
  have howner := hpart c hc
  rw [hlayer] at howner
  cases howner

end Section

/-! ## The page -/

/-- The letters reach for the notes of section א. -/
def LettersReach (page : PageModel) : Prop :=
  page.footnotesARight.length ≤ 20 ∧ page.footnotesALeft.length ≤ 20

instance (page : PageModel) : Decidable (LettersReach page) :=
  inferInstanceAs (Decidable (_ ∧ _))

section Page

variable {culture : CompareInfo} {measure : TextMeasure} {page : PageModel}

/-- The notes drawn on a canvas, and nothing else. -/
structure NotesDrawn (page : PageModel) (drawn : List Child) : Prop where
  main : wordsOn .mainText drawn = []
  first : wordsOn (.sectionBody .A) drawn =
    if LettersReach page then sectionWords page .A
    else if page.footnotesARight.length ≤ 20 then markedWords .A page.footnotesARight else []
  others : ∀ system, system ≠ .A → wordsOn (.sectionBody system) drawn =
    if LettersReach page then sectionWords page system else []

/-- All three sections are drawn when the letters reach, the first one in part when they do not. -/
theorem notesDrawn_drawFootnotes (measure : TextMeasure) (page : PageModel) (s : RenderState) :
    ∃ drawn, (finalState (drawFootnotes measure page s)).canvas = s.canvas ++ drawn ∧
      NotesDrawn page drawn := by
  unfold drawFootnotes
  by_cases hletters : Completes page .A
  · have hreach : LettersReach page := (completes_A_iff page).mp hletters
    obtain ⟨partA, yA, hA, hownedA, hwordsA⟩ := @optionalSection_words measure _ _ hletters s
    obtain ⟨partB, yB, hB, hownedB, hwordsB⟩ := @optionalSection_words measure page .B
      (completes_of_ne_A (by decide)) ⟨s.canvas ++ partA, yA⟩
    obtain ⟨partC, yC, hC, hownedC, hwordsC⟩ := @optionalSection_words measure page .C
      (completes_of_ne_A (by decide)) ⟨s.canvas ++ partA ++ partB, yB⟩
    refine ⟨partA ++ partB ++ partC, ?_, ?_, ?_, ?_⟩
    · rw [hA]
      show (finalState (Except.bind (if hasNotes page .B then _ else _) _)).canvas = _
      rw [hB]
      show (finalState (if hasNotes page .C then _ else _)).canvas = _
      rw [hC]
      show s.canvas ++ partA ++ partB ++ partC = _
      simp only [List.append_assoc]
    · rw [wordsOn_append, wordsOn_append, wordsOn_mainText_section hownedA,
        wordsOn_mainText_section hownedB, wordsOn_mainText_section hownedC]
      rfl
    · rw [if_pos hreach, wordsOn_append, wordsOn_append, hwordsA,
        wordsOn_other_section hownedB (by decide), wordsOn_other_section hownedC (by decide),
        List.append_nil, List.append_nil]
    · intro system hne
      rw [if_pos hreach, wordsOn_append, wordsOn_append,
        wordsOn_other_section hownedA hne.symm, List.nil_append]
      cases system with
      | A => exact absurd rfl hne
      | B => rw [hwordsB, wordsOn_other_section hownedC (by decide), List.append_nil]
      | C => rw [hwordsC, wordsOn_other_section hownedB (by decide), List.nil_append]
  · have hreach : ¬ LettersReach page := (completes_A_iff page).not.mp hletters
    have hnotes : hasNotes page .A := by
      by_contra hnone
      obtain ⟨hright, hleft⟩ := not_or.mp hnone
      have hrightLength : page.footnotesARight.length = 0 := Nat.eq_zero_of_not_pos hright
      have hleftLength : page.footnotesALeft.length = 0 := Nat.eq_zero_of_not_pos hleft
      exact hreach ⟨by omega, by omega⟩
    obtain ⟨part, y, hthrows, howned, hwords⟩ :=
      @renderSection_words_of_throws measure page hletters s
    refine ⟨part, ?_, wordsOn_mainText_section howned, ?_, ?_⟩
    · rw [if_pos hnotes, hthrows]
      rfl
    · rw [if_neg hreach, hwords]
    · intro system hne
      rw [if_neg hreach, wordsOn_other_section howned hne.symm]

theorem wordsOn_drawPageLayers :
    wordsOn .mainText (drawPageLayers culture measure page) =
      (ColumnLayoutEngine.columns page).flatMap (lineWords culture) := by
  have hheader : wordsOn .mainText (drawRunningHeader measure page) = [] := by
    apply wordsOn_of_other
    intro c hc
    rw [layer_drawRunningHeader c hc]
    exact Layer.noConfusion
  have hback : wordsOn .mainText drawBackground = [] := rfl
  have hnumber : wordsOn .mainText (drawPageNumber measure page) = [] := rfl
  unfold drawPageLayers drawMainText ColumnLayoutEngine.columns
  simp only [wordsOn_append, wordsOn_renderColumn, hheader, hback, hnumber, List.nil_append,
    List.flatMap_append]

theorem wordsOn_section_drawPageLayers (system : NoteSystem) :
    wordsOn (.sectionBody system) (drawPageLayers culture measure page) = [] := by
  apply wordsOn_of_other
  intro c hc hlayer
  have hpage := isPageLayer_drawPageLayers c hc
  rw [hlayer] at hpage
  exact hpage

/-- Drawing separator lines adds no word. -/
theorem exists_separators (page : PageModel) (s : RenderState) :
    ∃ rules, (drawSeparatorLines page s).canvas = s.canvas ++ rules ∧
      ∀ layer, wordsOn layer rules = [] := by
  unfold drawSeparatorLines
  dsimp only
  split
  · exact ⟨_, rfl, fun layer => wordsOn_columnRules layer .separator _⟩
  · exact ⟨[], (List.append_nil _).symm, fun layer => rfl⟩

/-- The canvas is the page layers, lines and the notes. -/
theorem exists_drawnCanvas (culture : CompareInfo) (measure : TextMeasure) (page : PageModel) :
    ∃ rules drawn, drawnCanvas culture measure page =
        drawPageLayers culture measure page ++ rules ++ drawn ∧
      (∀ layer, wordsOn layer rules = []) ∧ NotesDrawn page drawn := by
  obtain ⟨rules, hrules, hnone⟩ :=
    exists_separators page ⟨drawPageLayers culture measure page, LayoutConstants.marginTop⟩
  obtain ⟨drawn, hcanvas, hdrawn⟩ := notesDrawn_drawFootnotes measure page
    (drawSeparatorLines page ⟨drawPageLayers culture measure page, LayoutConstants.marginTop⟩)
  rw [hrules] at hcanvas
  exact ⟨rules, drawn, hcanvas, hnone, hdrawn⟩

theorem wordsOn_mainText_drawnCanvas (page : PageModel) :
    wordsOn .mainText (drawnCanvas culture measure page) =
      (ColumnLayoutEngine.columns page).flatMap (lineWords culture) := by
  obtain ⟨rules, drawn, hcanvas, hnone, hdrawn⟩ := exists_drawnCanvas culture measure page
  rw [hcanvas, wordsOn_append, wordsOn_append, wordsOn_drawPageLayers, hnone, hdrawn.main,
    List.append_nil, List.append_nil]

/-- On every page each word of the two columns is drawn once, in order. So are the words of the
notes, each note behind its marker, unless a column of section א has more than twenty notes: then
drawing ends with the columns before it. -/
theorem drawnCanvas_words (culture : CompareInfo) (measure : TextMeasure) (page : PageModel) :
    let canvas := drawnCanvas culture measure page
    wordsOn .mainText canvas =
        (ColumnLayoutEngine.columns page).flatMap (lineWords culture) ∧
      wordsOn (.sectionBody .A) canvas =
        (if LettersReach page then sectionWords page .A
        else if page.footnotesARight.length ≤ 20 then markedWords .A page.footnotesARight
        else []) ∧
      ∀ system, system ≠ .A → wordsOn (.sectionBody system) canvas =
        if LettersReach page then sectionWords page system else [] := by
  obtain ⟨rules, drawn, hcanvas, hnone, hdrawn⟩ := exists_drawnCanvas culture measure page
  refine ⟨wordsOn_mainText_drawnCanvas page, ?_, fun system hne => ?_⟩
  · show wordsOn _ (drawnCanvas culture measure page) = _
    rw [hcanvas, wordsOn_append, wordsOn_append, wordsOn_section_drawPageLayers, hnone,
      hdrawn.first]
    rfl
  · show wordsOn _ (drawnCanvas culture measure page) = _
    rw [hcanvas, wordsOn_append, wordsOn_append, wordsOn_section_drawPageLayers, hnone,
      hdrawn.others system hne]
    rfl

end Page

/-! ## From the raw text to the canvas -/

section Paragraphs

variable {culture : CompareInfo} {measure : TextMeasure} {maxWidth fontSize : ℚ}

/-- The words of joined words are those of the first ones and of the last. -/
theorem wordsOf_joinWith_concat (g : List Text) (w : Text) :
    wordsOf (joinWith [space] (g ++ [w])) = wordsOf (joinWith [space] g) ++ wordsOf w := by
  cases g with
  | nil =>
      have hsingle : joinWith [space] [w] = w := List.intercalate_singleton
      rw [List.nil_append, hsingle]
      rfl
  | cons v g =>
      have hjoin : joinWith [space] (v :: g ++ [w]) = joinWith [space] (v :: g) ++ [space] ++ w :=
        Segment.intercalate_concat (List.cons_ne_nil v g) w
      rw [hjoin, List.append_assoc]
      exact wordsOf_append_space _ _

theorem dropLast_joinWith_concat (g : List Text) {w : Text} (hne : w ≠ []) :
    (joinWith [space] (g ++ [w])).dropLast = joinWith [space] (g ++ [w.dropLast]) := by
  cases g with
  | nil =>
      have hsingle : ∀ u, joinWith [space] [u] = u := fun u => List.intercalate_singleton
      rw [List.nil_append, List.nil_append, hsingle, hsingle]
  | cons v g =>
      have hjoin : ∀ u, joinWith [space] (v :: g ++ [u]) =
          joinWith [space] (v :: g) ++ [space] ++ u :=
        Segment.intercalate_concat (List.cons_ne_nil v g)
      rw [hjoin, hjoin, List.dropLast_append_of_ne_nil hne]

/-- A word that loses its last character is another word or none, unless it was blank. -/
theorem length_wordsOf_dropLast {w : Text} (hne : w ≠ [])
    (hclean : ∀ c ∈ w, (c == space) = false) :
    (isNullOrWhiteSpace w = true → wordsOf w.dropLast = wordsOf w) ∧
      (isNullOrWhiteSpace w = false →
        (wordsOf w.dropLast).flatten.length < (wordsOf w).flatten.length) := by
  have hpos : 0 < w.length := List.length_pos_of_ne_nil hne
  rw [wordsOf_of_no_space hclean,
    wordsOf_of_no_space fun c hc => hclean c (List.mem_of_mem_dropLast hc)]
  constructor
  · intro hblank
    have hdrop : isNullOrWhiteSpace w.dropLast = true := by
      unfold isNullOrWhiteSpace at hblank ⊢
      rw [List.all_eq_true] at hblank ⊢
      exact fun c hc => hblank c (List.mem_of_mem_dropLast hc)
    rw [hblank, hdrop, if_pos rfl, if_pos rfl]
  · intro hblank
    rw [hblank]
    split
    · simpa using hpos
    · simpa using hpos

/-- A line that is not marked keeps its words exactly when it does not pass for a last line, or has
nothing to lose but white space; else it loses characters. -/
theorem lineWords_joinWith {g : List Text} (hne : g ≠ [])
    (hwords : ∀ w ∈ g, w ≠ [] ∧ ∀ c ∈ w, (c == space) = false) :
    (lineWords culture (joinWith [space] g) = wordsOf (joinWith [space] g) ∨
        (lineWords culture (joinWith [space] g)).flatten.length <
          (wordsOf (joinWith [space] g)).flatten.length) ∧
      (lineWords culture (joinWith [space] g) = wordsOf (joinWith [space] g) ↔
        (TextParser.isLastLine culture (joinWith [space] g) = true →
          isNullOrWhiteSpace (g.getLastD []) = true)) := by
  cases hlast : TextParser.isLastLine culture (joinWith [space] g) with
  | false =>
      have hsame : lineWords culture (joinWith [space] g) = wordsOf (joinWith [space] g) := by
        unfold lineWords
        rw [TextParser.removeLastLineMarker_unmarked hlast]
      exact ⟨.inl hsame, iff_of_true hsame fun h => nomatch h⟩
  | true =>
      rcases List.eq_nil_or_concat g with rfl | ⟨init, w, rfl⟩
      · exact absurd rfl hne
      rw [List.concat_eq_append] at hlast hwords ⊢
      obtain ⟨hw, hclean⟩ := hwords w (List.mem_append_right _ List.mem_cons_self)
      obtain ⟨hblank, hshorter⟩ := length_wordsOf_dropLast hw hclean
      have hcut : lineWords culture (joinWith [space] (init ++ [w])) =
          wordsOf (joinWith [space] init) ++ wordsOf w.dropLast := by
        unfold lineWords TextParser.removeLastLineMarker
        rw [if_pos hlast, dropLast_joinWith_concat init hw, wordsOf_joinWith_concat]
      rw [hcut, wordsOf_joinWith_concat, List.getLastD_concat]
      simp only [List.flatten_append, List.length_append, List.append_cancel_left_eq]
      cases hw' : isNullOrWhiteSpace w with
      | true => exact ⟨.inl (by rw [hblank hw']), iff_of_true (hblank hw') fun _ => rfl⟩
      | false =>
          have hlt := hshorter hw'
          refine ⟨.inr (by omega), iff_of_false ?_ ?_⟩
          · intro heq
            rw [heq] at hlt
            exact Nat.lt_irrefl _ hlt
          · intro h
            exact Bool.noConfusion (h trivial)

/-- The marked line of a paragraph keeps its words. -/
theorem lineWords_marked (line : Text) :
    lineWords culture (line ++ [TextParser.lastLineMarker]) = wordsOf line := by
  unfold lineWords
  rw [TextParser.removeLastLineMarker_marked]

/-- What is drawn of a paragraph, against its words. -/
theorem paragraph_words (culture : CompareInfo) (measure : TextMeasure) (maxWidth fontSize : ℚ)
    (paragraph : Text) :
    let drawn := (TextParser.markLast
      (TextParser.paragraphLines measure maxWidth fontSize paragraph)).flatMap (lineWords culture)
    (drawn = wordsOf paragraph ∨
        drawn.flatten.length < (wordsOf paragraph).flatten.length) ∧
      (drawn = wordsOf paragraph ↔
        ∀ g ∈ (FirstFit.firstFit (TextParser.FitsWidth measure maxWidth fontSize)
            (TextParser.splitWords paragraph)).dropLast,
          TextParser.isLastLine culture (joinWith [space] g) = true →
            isNullOrWhiteSpace (g.getLastD []) = true) := by
  have hfirst := FirstFit.isFirstFit_firstFit (TextParser.FitsWidth measure maxWidth fontSize)
    (TextParser.splitWords paragraph)
  have hparagraph : ((FirstFit.firstFit (TextParser.FitsWidth measure maxWidth fontSize)
      (TextParser.splitWords paragraph)).map (joinWith [space])).flatMap wordsOf =
        wordsOf paragraph := by
    have hwords := TextParser.flatMap_splitWords_groups hfirst
      fun word hword => TextParser.mem_splitWords hword
    rw [wordsOf_eq_filter paragraph]
    conv_rhs => rw [← hwords, List.filter_flatMap]
    exact List.flatMap_congr fun line _ => wordsOf_eq_filter line
  unfold TextParser.paragraphLines
  rw [← hparagraph]
  rcases List.eq_nil_or_concat (FirstFit.firstFit (TextParser.FitsWidth measure maxWidth fontSize)
    (TextParser.splitWords paragraph)) with hnil | ⟨init, last, hgroups⟩
  · rw [hnil]
    exact ⟨.inl rfl, iff_of_true rfl fun _ hg => nomatch hg⟩
  · rw [List.concat_eq_append] at hgroups
    have hline : ∀ g ∈ init, g ≠ [] ∧ ∀ w ∈ g, w ≠ [] ∧ ∀ c ∈ w, (c == space) = false := by
      intro g hg
      have hmem : g ∈ FirstFit.firstFit (TextParser.FitsWidth measure maxWidth fontSize)
          (TextParser.splitWords paragraph) := by
        rw [hgroups]
        exact List.mem_append_left _ hg
      exact ⟨hfirst.nonempty g hmem,
        fun w hw => TextParser.mem_splitWords (hfirst.mem_of_mem_group hmem hw)⟩
    have hjoined := @Segment.flatMap_eq_or_shorter _ _
      (fun g => lineWords culture (joinWith [space] g)) (fun g => wordsOf (joinWith [space] g)) init
      fun g hg => (lineWords_joinWith (hline g hg).1 (hline g hg).2).1
    rw [hgroups, List.map_append, List.map_singleton, TextParser.markLast_concat,
      List.dropLast_concat]
    simp only [List.flatMap_append, List.flatMap_map, List.flatMap_singleton, lineWords_marked,
      List.append_cancel_right_eq]
    constructor
    · rcases hjoined.1 with hsame | hless
      · exact .inl hsame
      · right
        simp only [List.flatten_append, List.length_append]
        exact Nat.add_lt_add_right hless _
    · rw [hjoined.2]
      exact forall₂_congr fun g hg => (lineWords_joinWith (hline g hg).1 (hline g hg).2).2

end Paragraphs

/-- The words of the main text on a sequence of pages as they are drawn. -/
def mainWordsDrawn (culture : CompareInfo) (measure : TextMeasure) (pages : List PageModel) :
    List Text :=
  pages.flatMap fun page => wordsOn .mainText (drawnCanvas culture measure page)

/-- A raw text is parsed, its main lines are broken and put on pages, and the pages are drawn. The
words drawn are those of the main lines exactly when no line breaks behind a word that makes the
line pass for the last of its paragraph. -/
theorem main_words_drawn_iff (culture : CompareInfo) (measure : TextMeasure)
    (startsWith : Text → Text → Bool) (rawText : Text) (propose : Nat → Nat → PageModel)
    (hpropose : ColumnLayoutEngine.ProposesRuns
      (ColumnLayoutEngine.mainWrapped measure (TextParser.parse startsWith rawText)) propose) :
    ∃ pages, ColumnLayoutEngine.Paginates measure propose (TextParser.parse startsWith rawText)
        pages ∧
      (mainWordsDrawn culture measure pages =
          (TextParser.parse startsWith rawText).mainLines.flatMap wordsOf ↔
        ∀ line ∈ (TextParser.parse startsWith rawText).mainLines,
          ∀ g ∈ (FirstFit.firstFit (TextParser.FitsWidth measure LayoutConstants.columnWidth
              LayoutConstants.fontSizeMain) (TextParser.splitWords line)).dropLast,
            TextParser.isLastLine culture (joinWith [space] g) = true →
              isNullOrWhiteSpace (g.getLastD []) = true) := by
  generalize TextParser.parse startsWith rawText = document at hpropose ⊢
  obtain ⟨pages, hpages⟩ := WhileLoop.returns_of_measure
    (fun s : ColumnLayoutEngine.PageState =>
      (ColumnLayoutEngine.mainWrapped measure document).length - s.currentLine)
    (fun s s' hinv (hs : ColumnLayoutEngine.pageStep document _ propose s = .inl s') =>
      hinv.step hpropose hs)
    ColumnLayoutEngine.pageInv_start
  have htwo : ColumnLayoutEngine.TwoColumnPages (ColumnLayoutEngine.mainWrapped measure document)
      pages :=
    hpages.of_invariant (fun s s' hinv hs => (hinv.step hpropose hs).1)
      (fun s pages hinv hs => hinv.exit hs) ColumnLayoutEngine.pageInv_start
  have hdrawn : mainWordsDrawn culture measure pages =
      (ColumnLayoutEngine.mainWrapped measure document).flatMap (lineWords culture) := by
    unfold mainWordsDrawn
    rw [← htwo.placed, List.flatMap_assoc]
    exact List.flatMap_congr fun page _ => wordsOn_mainText_drawnCanvas page
  refine ⟨pages, hpages, ?_⟩
  rw [hdrawn, ColumnLayoutEngine.mainWrapped, TextParser.wrapLinesToWidth_eq, List.flatMap_assoc,
    (Segment.flatMap_eq_or_shorter fun line _ => (paragraph_words culture measure _ _ line).1).2]
  exact forall₂_congr fun line _ => (paragraph_words culture measure _ _ line).2

/-- Two words of which the first ends in U+00A4, on pages of one line each: the character is not
drawn. -/
theorem main_words_drawn_two_lines :
    let measure : TextMeasure := fun text _ => 100 * text.length
    let document := TextParser.parse TextParser.startsWithOrdinal [0x61, 0xA4, 0x20, 0x62]
    let propose : Nat → Nat → PageModel := fun startLine _ =>
      ColumnLayoutEngine.distributeToColumns {}
        (((ColumnLayoutEngine.mainWrapped measure document).drop startLine).take 1)
    ∃ pages, ColumnLayoutEngine.Paginates measure propose document pages ∧
      mainWordsDrawn .ordinal measure pages ≠ document.mainLines.flatMap wordsOf := by
  intro measure document propose
  obtain ⟨pages, hpages, hiff⟩ := main_words_drawn_iff .ordinal measure
    TextParser.startsWithOrdinal [0x61, 0xA4, 0x20, 0x62] propose
    fun startLine pageNumber _ => ⟨_, List.take_prefix 1 _, rfl, rfl⟩
  refine ⟨pages, hpages, hiff.not.mpr ?_⟩
  decide +kernel

end PageRenderer

end Typesetting
