/-
# Typesetting.Rendering.LayerStacking -- the layers of a page and the sections of its notes

The sections of notes advance `_currentY` by the height of the notes wrapped with numbers for
markers. Section B is drawn with numbers, so the next one starts below it. Section A is drawn with
letters; under a given measure the next one starts below it exactly when the letters need no more
lines than the numbers.
-/
import Mathlib.Data.List.Nodup
import Mathlib.Tactic.Linarith
import Mathlib.Tactic.NormNum
import Typesetting.Rendering.WrapTextToWidth

namespace Typesetting

namespace PageRenderer

/-- The lower end of the main text. -/
def mainBottom (page : PageModel) : ℚ :=
  LayoutConstants.marginTop +
    (max page.mainRight.length page.mainLeft.length : Nat) * mainLineHeight

/-- The sections of a page, from top to bottom. -/
def sections (page : PageModel) : List NoteSystem :=
  [NoteSystem.A, NoteSystem.B, NoteSystem.C].filter fun system => hasNotes page system

/-- No layer of notes reaches into the layer above it. -/
structure Stacked (page : PageModel) (canvas : List Child) : Prop where
  /-- The separator lines lie below the main text. -/
  separators : ∀ c ∈ canvas, c.layer = .separator → mainBottom page ≤ c.top
  /-- So does the title of the first section. -/
  firstTitle : ∀ system, (sections page).head? = some system →
    ∀ c ∈ canvas, c.layer = .sectionTitle system → mainBottom page ≤ c.top
  /-- Each later title lies below all lines of the section before. -/
  titles : ∀ pair ∈ (sections page).zip (sections page).tail,
    ∀ title ∈ canvas, title.layer = .sectionTitle pair.2 →
      ∀ line ∈ canvas, line.layer = .sectionBody pair.1 →
        line.top + footnoteLineHeight (footnoteFontSize pair.1) ≤ title.top

/-! ## Lines -/

section Lines

variable {measure : TextMeasure} {layer : Layer}

theorem columnRules_spec (layer : Layer) (y : ℚ) :
    ∀ c ∈ columnRules layer y, c.layer = layer ∧ c.top = y := by
  simp [columnRules, Child.top]

theorem columnRules_ne_nil (layer : Layer) (y : ℚ) : columnRules layer y ≠ [] :=
  List.cons_ne_nil _ _

theorem drawWords_spec (y fontSize gap : ℚ) (words : List Text) (currentX : ℚ) :
    (∀ c ∈ drawWords measure layer y fontSize gap words currentX, c.layer = layer ∧ c.top = y) ∧
      (words ≠ [] → drawWords measure layer y fontSize gap words currentX ≠ []) := by
  induction words generalizing currentX with
  | nil => exact ⟨(fun _ hc => nomatch hc), fun h => absurd rfl h⟩
  | cons word words ih =>
      refine ⟨?_, fun _ => List.cons_ne_nil _ _⟩
      intro c hc
      rcases List.mem_cons.mp hc with rfl | hc
      · exact ⟨rfl, rfl⟩
      · exact (ih _).1 c hc

theorem drawRightAlignedLine_spec (line : Text) (rightX y fontSize : ℚ) :
    (∀ c ∈ drawRightAlignedLine measure layer line rightX y fontSize,
        c.layer = layer ∧ c.top = y) ∧
      (isNullOrWhiteSpace line = false →
        drawRightAlignedLine measure layer line rightX y fontSize ≠ []) :=
  ⟨(drawWords_spec y fontSize 3 (wordsOf line) rightX).1,
    fun h => (drawWords_spec y fontSize 3 (wordsOf line) rightX).2 (wordsOf_ne_nil h)⟩

/-- A justified line draws all its words at its y, and a line that is not blank draws one. -/
theorem renderJustifiedLine_spec (line : Text) (x y width fontSize : ℚ) :
    (∀ c ∈ renderJustifiedLine measure layer line x y width fontSize,
        c.layer = layer ∧ c.top = y) ∧
      (isNullOrWhiteSpace line = false →
        renderJustifiedLine measure layer line x y width fontSize ≠ []) := by
  unfold renderJustifiedLine
  split
  · rename_i hnone
    exact ⟨(fun _ hc => nomatch hc), fun h => absurd hnone (wordsOf_ne_nil h)⟩
  · rename_i word hword
    have hmem : word ∈ wordsOf line := by simp [hword]
    have hspec := @drawRightAlignedLine_spec measure layer word (x + width) y fontSize
    exact ⟨hspec.1, fun _ => hspec.2 (not_blank_of_mem_wordsOf hmem)⟩
  · rename_i hnone _
    exact ⟨(drawWords_spec _ _ _ _ _).1, fun _ => (drawWords_spec _ _ _ _ _).2 hnone⟩

theorem layer_drawLines {layer : Layer} {draw : Text → ℚ → List Child} {lineHeight : ℚ}
    (hlayer : ∀ line y, ∀ c ∈ draw line y, c.layer = layer) (lines : List Text) (y : ℚ) :
    ∀ c ∈ drawLines draw lineHeight lines y, c.layer = layer := by
  induction lines generalizing y with
  | nil => exact fun _ hc => nomatch hc
  | cons line lines ih =>
      intro c hc
      rcases List.mem_append.mp hc with hc | hc
      · exact hlayer line y c hc
      · exact ih _ c hc

/-- Lines drawn one below the other end above `bottom` when the last of them does. -/
theorem drawLines_le_iff {draw : Text → ℚ → List Child} {lineHeight : ℚ}
    (hheight : 0 ≤ lineHeight) {lines : List Text}
    (htop : ∀ line y, ∀ c ∈ draw line y, c.top = y)
    (hdrawn : ∀ line ∈ lines, ∀ y, draw line y ≠ []) (y bottom : ℚ) :
    (∀ c ∈ drawLines draw lineHeight lines y, c.top + lineHeight ≤ bottom) ↔
      lines = [] ∨ y + lines.length * lineHeight ≤ bottom := by
  induction lines generalizing y with
  | nil => simp [drawLines]
  | cons line lines ih =>
      have hrest := ih (fun l hl => hdrawn l (List.mem_cons_of_mem _ hl)) (y + lineHeight)
      have hfirst : (∀ c ∈ draw line y, c.top + lineHeight ≤ bottom) ↔
          y + lineHeight ≤ bottom := by
        constructor
        · intro h
          obtain ⟨c, hc⟩ := List.exists_mem_of_ne_nil _ (hdrawn line List.mem_cons_self y)
          have hle := h c hc
          rw [htop line y c hc] at hle
          exact hle
        · intro h c hc
          rw [htop line y c hc]
          exact h
      -- the lines that follow reach down at least as far as this one
      have hcount : (0 : ℚ) ≤ lines.length * lineHeight :=
        mul_nonneg (Nat.cast_nonneg _) hheight
      simp only [drawLines, List.mem_append, or_imp, forall_and, hrest, hfirst, List.cons_ne_nil,
        false_or, List.length_cons, Nat.cast_succ]
      constructor
      · rintro ⟨hone, rfl | hmany⟩
        · simpa using hone
        · linarith
      · intro h
        exact ⟨by linarith, .inr (by linarith)⟩

end Lines

/-! ## One column of notes -/

/-- The lines the notes of a column are wrapped into with the given markers. -/
def runOnLines (measure : TextMeasure) (marker : Nat → Option Text) (notes : List Text)
    (fontSize : ℚ) : List Text :=
  wrapTextToWidth measure ((runOnText marker 0 notes []).getD []) LayoutConstants.columnWidth
    fontSize

section Column

variable {measure : TextMeasure}

theorem wrapTextToWidth_nil (maxWidth fontSize : ℚ) :
    wrapTextToWidth measure [] maxWidth fontSize = [] := rfl

/-- An empty column is no exception: its text is empty and wraps into no line. -/
theorem renderRunOnColumn_eq_map (layer : Layer) (notes : List Text) (x y width fontSize : ℚ)
    (sectionMarker : Text) :
    renderRunOnColumn measure layer notes x y width fontSize sectionMarker =
      (runOnText (noteMarker sectionMarker) 0 notes []).map fun text =>
        drawLines (fun line y => renderJustifiedLine measure layer line x y width fontSize)
          (footnoteLineHeight fontSize) (wrapTextToWidth measure text width fontSize) y := by
  unfold renderRunOnColumn
  split
  · rename_i hnone
    rw [List.eq_nil_of_length_eq_zero hnone]
    rfl
  · rfl

theorem renderRunOnColumn_eq (layer : Layer) (notes : List Text) (x y fontSize : ℚ)
    (sectionMarker : Text) :
    renderRunOnColumn measure layer notes x y LayoutConstants.columnWidth fontSize sectionMarker =
      (runOnText (noteMarker sectionMarker) 0 notes []).map fun text =>
        drawLines (fun line y => renderJustifiedLine measure layer line x y
          LayoutConstants.columnWidth fontSize) (footnoteLineHeight fontSize)
          (wrapTextToWidth measure text LayoutConstants.columnWidth fontSize) y :=
  renderRunOnColumn_eq_map layer notes x y LayoutConstants.columnWidth fontSize sectionMarker

/-- The markers of section B are the numbers of the height calculation. -/
theorem runOnText_numbers (i : Nat) (notes : List Text) (sb : Text) :
    runOnText (noteMarker (sectionMarker .B)) i notes sb = some (numberedText i notes sb) := by
  induction notes generalizing i sb with
  | nil => rfl
  | cons note notes ih =>
      have hmarker : noteMarker (sectionMarker .B) i = some (bracketed (natToText (i + 1))) := by
        unfold noteMarker
        rw [if_neg (by decide), if_pos (by decide)]
      have hspace : utf16 "] " = utf16 "]" ++ [space] := by decide
      simp only [runOnText, hmarker, ih, numberedText, bracketed, hspace, List.append_assoc]

/-- The height of a column is that of the lines of its notes behind numbers. -/
theorem calculateRunOnHeight_eq_wrapped (notes : List Text) (width fontSize : ℚ) :
    calculateRunOnHeight measure notes width fontSize =
      (wrapTextToWidth measure (numberedText 0 notes []) width fontSize).length *
        footnoteLineHeight fontSize := by
  unfold calculateRunOnHeight
  split
  · rename_i hnone
    rw [List.eq_nil_of_length_eq_zero hnone]
    show (0 : ℚ) = (List.length (wrapTextToWidth measure [] _ _) : ℚ) * _
    rw [wrapTextToWidth_nil]
    simp
  · rfl

theorem calculateRunOnHeight_eq (notes : List Text) (fontSize : ℚ) :
    calculateRunOnHeight measure notes LayoutConstants.columnWidth fontSize =
      (runOnLines measure (noteMarker (sectionMarker .B)) notes fontSize).length *
        footnoteLineHeight fontSize := by
  rw [calculateRunOnHeight_eq_wrapped, runOnLines, runOnText_numbers, Option.getD_some]

end Column

/-! ## One section -/

/-- The marker table reaches for both columns of a section. -/
def Completes (page : PageModel) (system : NoteSystem) : Prop :=
  (runOnText (noteMarker (sectionMarker system)) 0 (notesRight page system) []).isSome ∧
    (runOnText (noteMarker (sectionMarker system)) 0 (notesLeft page system) []).isSome

/-- The lines of the higher column of a section with the given markers. -/
def sectionLines (measure : TextMeasure) (page : PageModel) (system : NoteSystem)
    (marker : Nat → Option Text) : Nat :=
  max (runOnLines measure marker (notesRight page system) (footnoteFontSize system)).length
    (runOnLines measure marker (notesLeft page system) (footnoteFontSize system)).length

/-- A section needs no more lines with its own markers than with numbers. -/
def MarkersFit (measure : TextMeasure) (page : PageModel) (system : NoteSystem) : Prop :=
  sectionLines measure page system (noteMarker (sectionMarker system)) ≤
    sectionLines measure page system (noteMarker (sectionMarker .B))

/-- What a section adds to the canvas from `y` on: its head and then its lines. -/
structure SectionPart (system : NoteSystem) (y : ℚ) (part body : List Child) : Prop where
  part_eq : part =
    sectionHead system (sectionTitle system) (footnoteFontSize system) y ++ body
  body_layer : ∀ c ∈ body, c.layer = .sectionBody system

section Section

variable {measure : TextMeasure} {page : PageModel} {system : NoteSystem}

/-- The space left below a section is less than any line of notes is high. -/
theorem fifteen_lt_footnoteLineHeight (system : NoteSystem) :
    15 < footnoteLineHeight (footnoteFontSize system) := by
  cases system <;>
    norm_num [footnoteLineHeight, lineHeightOf, footnoteFontSize,
      LayoutConstants.lineHeightFootnote, LayoutConstants.fontSizeFootnoteA,
      LayoutConstants.fontSizeFootnoteB, LayoutConstants.fontSizeFootnoteC]

/-- A whole number of lines fits the height of `n` lines and the space below when it is at most
`n`. -/
theorem lines_le_iff {k n : Nat} {lineHeight : ℚ} (hheight : 15 < lineHeight) (y : ℚ) :
    y + k * lineHeight ≤ y + n * lineHeight + 15 ↔ k ≤ n := by
  constructor
  · intro h
    by_contra hlt
    have hmore : ((n + 1 : Nat) : ℚ) ≤ k := by
      exact_mod_cast not_le.mp hlt
    have hmul : ((n + 1 : Nat) : ℚ) * lineHeight ≤ k * lineHeight :=
      mul_le_mul_of_nonneg_right hmore (by linarith)
    push_cast at hmul
    linarith
  · intro h
    have hmul : (k : ℚ) * lineHeight ≤ n * lineHeight :=
      mul_le_mul_of_nonneg_right (by exact_mod_cast h) (by linarith)
    linarith

/-- A drawn column ends above the next section when it has at most `n` lines. -/
theorem column_le_iff {layer : Layer} {text : Text} {fontSize : ℚ}
    (hheight : 15 < footnoteLineHeight fontSize) (x y : ℚ) (n : Nat) :
    (∀ c ∈ drawLines (fun line y => renderJustifiedLine measure layer line x y
          LayoutConstants.columnWidth fontSize) (footnoteLineHeight fontSize)
          (wrapTextToWidth measure text LayoutConstants.columnWidth fontSize) y,
        c.top + footnoteLineHeight fontSize ≤ y + n * footnoteLineHeight fontSize + 15) ↔
      (wrapTextToWidth measure text LayoutConstants.columnWidth fontSize).length ≤ n := by
  rw [drawLines_le_iff (by linarith) (fun line y c hc => ((renderJustifiedLine_spec _ _ _ _ _).1 c hc).2)
    (fun line hline y => (renderJustifiedLine_spec _ _ _ _ _).2
      (wrapTextToWidth_not_blank text _ _ line hline)), lines_le_iff hheight]
  constructor
  · rintro (hnil | hle)
    · rw [hnil]
      exact Nat.zero_le n
    · exact hle
  · exact .inr

/-- The lines of one column of a section. -/
def columnBody (measure : TextMeasure) (system : NoteSystem) (text : Text) (x y : ℚ) :
    List Child :=
  drawLines (fun line y => renderJustifiedLine measure (.sectionBody system) line x y
    LayoutConstants.columnWidth (footnoteFontSize system))
    (footnoteLineHeight (footnoteFontSize system))
    (wrapTextToWidth measure text LayoutConstants.columnWidth (footnoteFontSize system)) y

/-- Where the section after one drawn from `y` on starts. -/
def nextSectionY (measure : TextMeasure) (page : PageModel) (system : NoteSystem) (y : ℚ) : ℚ :=
  y + LayoutConstants.footnoteSectionTitleHeight +
    sectionLines measure page system (noteMarker (sectionMarker .B)) *
      footnoteLineHeight (footnoteFontSize system) + 15

theorem layer_columnBody (text : Text) (x y : ℚ) :
    ∀ c ∈ columnBody measure system text x y, c.layer = .sectionBody system :=
  layer_drawLines (fun _ _ c hc => ((renderJustifiedLine_spec _ _ _ _ _).1 c hc).1) _ y

theorem max_calculateRunOnHeight :
    max (calculateRunOnHeight measure (notesRight page system) LayoutConstants.columnWidth
        (footnoteFontSize system))
      (calculateRunOnHeight measure (notesLeft page system) LayoutConstants.columnWidth
        (footnoteFontSize system)) =
      sectionLines measure page system (noteMarker (sectionMarker .B)) *
        footnoteLineHeight (footnoteFontSize system) := by
  have hheight := fifteen_lt_footnoteLineHeight system
  rw [calculateRunOnHeight_eq, calculateRunOnHeight_eq,
    ← max_mul_of_nonneg _ _ (by linarith), sectionLines, Nat.cast_max]

/-- A section whose markers are found draws its head and its lines and moves on. All of it lies
above the place where the next section starts exactly when its markers fit. -/
theorem renderSection_completes (h : Completes page system) (s : RenderState) :
    ∃ part body, renderSection measure page s system =
        .ok ⟨s.canvas ++ part, nextSectionY measure page system s.currentY⟩ ∧
      SectionPart system s.currentY part body ∧
      ((∀ c ∈ body, c.top + footnoteLineHeight (footnoteFontSize system) ≤
          nextSectionY measure page system s.currentY) ↔ MarkersFit measure page system) := by
  obtain ⟨rightText, hright⟩ := Option.isSome_iff_exists.mp h.1
  obtain ⟨leftText, hleft⟩ := Option.isSome_iff_exists.mp h.2
  have hheight := fifteen_lt_footnoteLineHeight system
  have hlinesRight : runOnLines measure (noteMarker (sectionMarker system)) (notesRight page system)
      (footnoteFontSize system) = wrapTextToWidth measure rightText LayoutConstants.columnWidth
        (footnoteFontSize system) := by
    rw [runOnLines, hright, Option.getD_some]
  have hlinesLeft : runOnLines measure (noteMarker (sectionMarker system)) (notesLeft page system)
      (footnoteFontSize system) = wrapTextToWidth measure leftText LayoutConstants.columnWidth
        (footnoteFontSize system) := by
    rw [runOnLines, hleft, Option.getD_some]
  let y := s.currentY + LayoutConstants.footnoteSectionTitleHeight
  refine ⟨_, columnBody measure system rightText rightColumnX y ++
    columnBody measure system leftText leftColumnX y, ?_, ⟨rfl, ?_⟩, ?_⟩
  · unfold renderSection renderFootnoteSection
    simp only [renderRunOnColumn_eq, hright, hleft, Option.map_some, RenderState.add,
      max_calculateRunOnHeight, List.append_assoc]
    rfl
  · intro c hc
    rcases List.mem_append.mp hc with hc | hc
    · exact layer_columnBody _ _ _ c hc
    · exact layer_columnBody _ _ _ c hc
  · unfold MarkersFit
    rw [List.forall_mem_append]
    conv_rhs => rw [sectionLines, hlinesRight, hlinesLeft, max_le_iff]
    exact and_congr (column_le_iff hheight _ _ _) (column_le_iff hheight _ _ _)

/-- Without a marker for one of its notes a section draws its head, perhaps its right column, and
drawing ends. -/
theorem renderSection_throws (h : ¬ Completes page system) (s : RenderState) :
    ∃ part body, ∃ y, renderSection measure page s system = .error ⟨s.canvas ++ part, y⟩ ∧
      SectionPart system s.currentY part body := by
  let y := s.currentY + LayoutConstants.footnoteSectionTitleHeight
  cases hright : runOnText (noteMarker (sectionMarker system)) 0 (notesRight page system) [] with
  | none =>
      refine ⟨_, [], s.currentY, ?_, ⟨rfl, fun _ hc => nomatch hc⟩⟩
      unfold renderSection renderFootnoteSection
      simp only [renderRunOnColumn_eq, hright, Option.map_none, RenderState.add, List.append_nil]
  | some rightText =>
      cases hleft : runOnText (noteMarker (sectionMarker system)) 0 (notesLeft page system) [] with
      | none =>
          refine ⟨_, columnBody measure system rightText rightColumnX y, s.currentY, ?_,
            ⟨rfl, layer_columnBody _ _ _⟩⟩
          unfold renderSection renderFootnoteSection
          simp only [renderRunOnColumn_eq, hright, hleft, Option.map_some, Option.map_none,
            RenderState.add, List.append_assoc]
          rfl
      | some leftText => exact absurd ⟨by rw [hright]; rfl, by rw [hleft]; rfl⟩ h

end Section

/-! ## All sections -/

/-- The system a child belongs to. -/
def Layer.system? : Layer → Option NoteSystem
  | .sectionTitle system => some system
  | .sectionSeparator system => some system
  | .sectionBody system => some system
  | _ => none

/-- The title of the second system lies below all lines of the first. -/
def TitleBelow (canvas : List Child) (pair : NoteSystem × NoteSystem) : Prop :=
  ∀ title ∈ canvas, title.layer = .sectionTitle pair.2 →
    ∀ line ∈ canvas, line.layer = .sectionBody pair.1 →
      line.top + footnoteLineHeight (footnoteFontSize pair.1) ≤ title.top

/-- Each section that another one follows fits, as far as drawing gets. -/
def SectionsFit (measure : TextMeasure) (page : PageModel) : List NoteSystem → Prop
  | first :: second :: rest =>
    Completes page first →
      MarkersFit measure page first ∧ SectionsFit measure page (second :: rest)
  | _ => True

/-- What drawing the sections of a list from `y` on adds to the canvas. -/
structure SectionsDrawn (measure : TextMeasure) (page : PageModel) (systems : List NoteSystem)
    (y : ℚ) (drawn : List Child) : Prop where
  /-- Only these sections are drawn. -/
  owned : ∀ c ∈ drawn, ∃ system ∈ systems, c.layer.system? = some system
  /-- The first one is, and its title is at `y`. -/
  first : ∀ system, systems.head? = some system →
    (∃ c ∈ drawn, c.layer = .sectionTitle system) ∧
      ∀ c ∈ drawn, c.layer = .sectionTitle system → c.top = y
  /-- The titles lie below the sections before exactly when these fit. -/
  titles : (∀ pair ∈ systems.zip systems.tail, TitleBelow drawn pair) ↔
    SectionsFit measure page systems

section Sections

variable {measure : TextMeasure} {page : PageModel}

/-- Children of other systems do not matter for a pair of sections. -/
theorem titleBelow_append {before canvas : List Child} {pair : NoteSystem × NoteSystem}
    (hother : ∀ c ∈ before, c.layer.system? ≠ some pair.1 ∧ c.layer.system? ≠ some pair.2) :
    TitleBelow (before ++ canvas) pair ↔ TitleBelow canvas pair := by
  constructor
  · intro h title htitle hlayer line hline hlayer'
    exact h title (List.mem_append_right _ htitle) hlayer line (List.mem_append_right _ hline)
      hlayer'
  · intro h title htitle hlayer line hline hlayer'
    have htitle' : title ∈ canvas := by
      rcases List.mem_append.mp htitle with hmem | hmem
      · exact absurd (by rw [hlayer]; rfl) (hother title hmem).2
      · exact hmem
    have hline' : line ∈ canvas := by
      rcases List.mem_append.mp hline with hmem | hmem
      · exact absurd (by rw [hlayer']; rfl) (hother line hmem).1
      · exact hmem
    exact h title htitle' hlayer line hline' hlayer'

theorem system?_sectionHead (system : NoteSystem) (title : Text) (fontSize y : ℚ) :
    ∀ c ∈ sectionHead system title fontSize y, c.layer.system? = some system := by
  intro c hc
  rcases List.mem_cons.mp hc with rfl | hc
  · rfl
  · rw [(columnRules_spec _ _ c hc).1]
    rfl

section Part

variable {system : NoteSystem} {y : ℚ} {part body : List Child}

theorem SectionPart.owned (hpart : SectionPart system y part body) :
    ∀ c ∈ part, c.layer.system? = some system := by
  intro c hc
  rw [hpart.part_eq] at hc
  rcases List.mem_append.mp hc with hc | hc
  · exact system?_sectionHead _ _ _ _ c hc
  · rw [hpart.body_layer c hc]
    rfl

/-- The section has one title, at `y`. -/
theorem SectionPart.title (hpart : SectionPart system y part body) :
    (∃ c ∈ part, c.layer = .sectionTitle system) ∧
      ∀ c ∈ part, c.layer = .sectionTitle system → c.top = y := by
  obtain ⟨rfl, hbody⟩ := hpart
  constructor
  · exact ⟨_, List.mem_append_left _ List.mem_cons_self, rfl⟩
  · intro c hc hlayer
    rcases List.mem_append.mp hc with hc | hc
    · rcases List.mem_cons.mp hc with rfl | hc
      · rfl
      · rw [(columnRules_spec _ _ c hc).1] at hlayer
        cases hlayer
    · rw [hbody c hc] at hlayer
      cases hlayer

/-- Its lines are those of its body. -/
theorem SectionPart.mem_body_iff (hpart : SectionPart system y part body) {c : Child} :
    c ∈ body ↔ c ∈ part ∧ c.layer = .sectionBody system := by
  obtain ⟨rfl, hbody⟩ := hpart
  constructor
  · intro hc
    exact ⟨List.mem_append_right _ hc, hbody c hc⟩
  · rintro ⟨hc, hlayer⟩
    rcases List.mem_append.mp hc with hc | hc
    · rcases List.mem_cons.mp hc with rfl | hc
      · cases hlayer
      · rw [(columnRules_spec _ _ c hc).1] at hlayer
        cases hlayer
    · exact hc

/-- What other sections draw is not of this one. -/
theorem SectionsDrawn.not_owned {systems : List NoteSystem} {drawn : List Child}
    (hdrawn : SectionsDrawn measure page systems y drawn) (hnot : system ∉ systems) {c : Child}
    (hc : c ∈ drawn) : c.layer.system? ≠ some system := by
  intro hsystem
  obtain ⟨owner, howner, hsome⟩ := hdrawn.owned c hc
  rw [hsystem] at hsome
  obtain rfl := Option.some.inj hsome
  exact hnot howner

/-- The next title is at `nextY`, so it lies below this section when all its lines do. -/
theorem SectionPart.titleBelow_iff (hpart : SectionPart system y part body)
    {second : NoteSystem} {rest : List NoteSystem} {nextY : ℚ} {drawn : List Child}
    (hrest : SectionsDrawn measure page (second :: rest) nextY drawn)
    (hnew : system ∉ second :: rest) :
    TitleBelow (part ++ drawn) (system, second) ↔
      ∀ c ∈ body, c.top + footnoteLineHeight (footnoteFontSize system) ≤ nextY := by
  obtain ⟨⟨title, htitle, htitleLayer⟩, htop⟩ := hrest.first second rfl
  constructor
  · intro h c hc
    obtain ⟨hmem, hlayer⟩ := hpart.mem_body_iff.mp hc
    have hbelow := h title (List.mem_append_right _ htitle) htitleLayer c
      (List.mem_append_left _ hmem) hlayer
    rw [htop title htitle htitleLayer] at hbelow
    exact hbelow
  · intro h other hother hotherLayer line hline hlineLayer
    have hotherTop : other.top = nextY := by
      rcases List.mem_append.mp hother with hmem | hmem
      · have howner := hpart.owned other hmem
        rw [hotherLayer] at howner
        obtain rfl : second = system := Option.some.inj howner
        exact absurd List.mem_cons_self hnew
      · exact htop other hmem hotherLayer
    have hbody : line ∈ body := by
      rcases List.mem_append.mp hline with hmem | hmem
      · exact hpart.mem_body_iff.mpr ⟨hmem, hlineLayer⟩
      · exact absurd (by rw [hlineLayer]; rfl) (hrest.not_owned hnew hmem)
    rw [hotherTop]
    exact h line hbody

/-- A section that completes, and the sections drawn after it. -/
theorem SectionPart.then_drawn (hpart : SectionPart system y part body)
    (hcompletes : Completes page system) {rest : List NoteSystem} {nextY : ℚ} {drawn : List Child}
    (hdrawn : SectionsDrawn measure page rest nextY drawn) (hnew : system ∉ rest)
    (hfit : (∀ c ∈ body, c.top + footnoteLineHeight (footnoteFontSize system) ≤ nextY) ↔
      MarkersFit measure page system) :
    SectionsDrawn measure page (system :: rest) y (part ++ drawn) where
  owned := by
    intro c hc
    rcases List.mem_append.mp hc with hc | hc
    · exact ⟨system, List.mem_cons_self, hpart.owned c hc⟩
    · obtain ⟨owner, howner, hsome⟩ := hdrawn.owned c hc
      exact ⟨owner, List.mem_cons_of_mem _ howner, hsome⟩
  first := by
    rintro _ ⟨⟩
    obtain ⟨⟨title, htitle, hlayer⟩, htop⟩ := hpart.title
    refine ⟨⟨title, List.mem_append_left _ htitle, hlayer⟩, ?_⟩
    intro c hc hlayer'
    rcases List.mem_append.mp hc with hc | hc
    · exact htop c hc hlayer'
    · exact absurd (by rw [hlayer']; rfl) (hdrawn.not_owned hnew hc)
  titles := by
    cases rest with
    | nil => simp [SectionsFit]
    | cons second rest =>
        -- the first pair is about this section, the others about what follows it
        have hothers : ∀ pair ∈ (second :: rest).zip rest,
            TitleBelow (part ++ drawn) pair ↔ TitleBelow drawn pair := by
          intro pair hpair
          obtain ⟨hone, htwo⟩ := List.of_mem_zip hpair
          apply titleBelow_append
          intro c hc
          rw [hpart.owned c hc]
          constructor
          · intro heq
            exact hnew (Option.some.inj heq ▸ hone)
          · intro heq
            exact hnew (Option.some.inj heq ▸ List.mem_cons_of_mem _ htwo)
        have htail := hdrawn.titles
        simp only [List.tail_cons, List.zip_cons_cons, List.forall_mem_cons] at htail ⊢
        rw [hpart.titleBelow_iff hdrawn hnew, hfit, forall₂_congr hothers, htail]
        exact ⟨fun h _ => h, fun h => h hcompletes⟩

/-- A section that throws is the last one drawn. -/
theorem SectionPart.alone (hpart : SectionPart system y part body)
    (hthrows : ¬ Completes page system) {rest : List NoteSystem} (hnew : system ∉ rest) :
    SectionsDrawn measure page (system :: rest) y part where
  owned := fun c hc => ⟨system, List.mem_cons_self, hpart.owned c hc⟩
  first := by
    rintro _ ⟨⟩
    exact hpart.title
  titles := by
    cases rest with
    | nil => simp [SectionsFit]
    | cons second rest =>
        refine ⟨fun _ hcompletes => absurd hcompletes hthrows, fun _ pair hpair => ?_⟩
        obtain ⟨-, htwo⟩ := List.of_mem_zip hpair
        intro title htitle hlayer
        have howner := hpart.owned title htitle
        rw [hlayer] at howner
        obtain rfl : pair.2 = system := Option.some.inj howner
        exact absurd htwo hnew

end Part

/-- Drawing sections one after the other, until one of them throws. -/
theorem sectionsDrawn_foldlM (systems : List NoteSystem) (hnodup : systems.Nodup)
    (s : RenderState) :
    ∃ drawn, (finalState (systems.foldlM (renderSection measure page) s)).canvas =
        s.canvas ++ drawn ∧ SectionsDrawn measure page systems s.currentY drawn := by
  induction systems generalizing s with
  | nil =>
      refine ⟨[], (List.append_nil _).symm, ?_, ?_, ?_⟩
      · exact fun _ hc => nomatch hc
      · exact fun _ hhead => nomatch hhead
      · simp [SectionsFit]
  | cons system rest ih =>
      obtain ⟨hnew, hrestNodup⟩ := List.nodup_cons.mp hnodup
      rw [List.foldlM_cons]
      by_cases hcompletes : Completes page system
      · obtain ⟨part, body, hrun, hpart, hfit⟩ :=
          @renderSection_completes measure page system hcompletes s
        obtain ⟨drawn, hcanvas, hdrawn⟩ := ih hrestNodup
          ⟨s.canvas ++ part, nextSectionY measure page system s.currentY⟩
        refine ⟨part ++ drawn, ?_, hpart.then_drawn hcompletes hdrawn hnew hfit⟩
        rw [hrun]
        exact hcanvas.trans (List.append_assoc _ _ _)
      · obtain ⟨part, body, y, hrun, hpart⟩ :=
          @renderSection_throws measure page system hcompletes s
        refine ⟨part, ?_, hpart.alone hcompletes hnew⟩
        rw [hrun]
        rfl

end Sections

/-! ## The layers below the notes -/

section Layers

variable {culture : CompareInfo} {measure : TextMeasure} {page : PageModel}

/-- The layers drawn before the separator lines. -/
def Layer.IsPageLayer : Layer → Prop
  | .background | .runningHeader | .pageNumber | .mainText => True
  | _ => False

theorem layer_renderColumn (lines : List Text) (x startY width : ℚ) :
    ∀ c ∈ renderColumn culture measure lines x startY width, c.layer = .mainText := by
  apply layer_drawLines
  intro line y c hc
  simp only at hc
  split at hc
  · exact ((drawRightAlignedLine_spec _ _ _ _).1 c hc).1
  · exact ((renderJustifiedLine_spec _ _ _ _ _).1 c hc).1

theorem layer_drawRunningHeader :
    ∀ c ∈ drawRunningHeader measure page, c.layer = .runningHeader := by
  have hoptional : ∀ (p : Prop) [Decidable p] (header : Child), header.layer = .runningHeader →
      ∀ c ∈ (if p then [header] else []), c.layer = .runningHeader := by
    intro p _ header hheader c hc
    split at hc
    · rw [List.mem_singleton.mp hc, hheader]
    · cases hc
  intro c hc
  unfold drawRunningHeader at hc
  split at hc
  · cases hc
  · simp only [List.mem_append, List.mem_singleton] at hc
    rcases hc with ((hc | rfl) | hc) | rfl
    · exact hoptional _ _ rfl c hc
    · rfl
    · exact hoptional _ _ rfl c hc
    · rfl

theorem isPageLayer_drawPageLayers :
    ∀ c ∈ drawPageLayers culture measure page, c.layer.IsPageLayer := by
  intro c hc
  simp only [drawPageLayers, drawMainText, List.mem_append] at hc
  rcases hc with ((hc | hc) | hc) | hc | hc
  · rw [List.mem_singleton.mp hc]
    trivial
  · rw [layer_drawRunningHeader c hc]
    trivial
  · rw [List.mem_singleton.mp hc]
    trivial
  · rw [layer_renderColumn _ _ _ _ c hc]
    trivial
  · rw [layer_renderColumn _ _ _ _ c hc]
    trivial

theorem drawFootnotes_eq_foldlM (s : RenderState) :
    drawFootnotes measure page s = (sections page).foldlM (renderSection measure page) s := by
  unfold drawFootnotes sections
  rw [List.foldlM_filter]
  simp only [List.foldlM_cons, List.foldlM_nil, bind_pure, decide_eq_true_eq]
  rfl

end Layers

/-! ## The markers of section A -/

/-- The joined text exists when every note gets a marker. -/
theorem runOnText_isSome_iff (marker : Nat → Option Text) (i : Nat) (notes : List Text)
    (sb : Text) :
    (runOnText marker i notes sb).isSome ↔ ∀ k < notes.length, (marker (i + k)).isSome := by
  induction notes generalizing i sb with
  | nil => simp [runOnText]
  | cons note notes ih =>
      rw [List.length_cons, Nat.forall_lt_succ_left]
      simp only [runOnText, Nat.add_zero]
      cases hmarker : marker i with
      | none => simp
      | some m =>
          simp only [ih, Option.isSome_some, true_and]
          constructor
          · intro h k hk
            have hnext := h k hk
            rwa [Nat.add_right_comm] at hnext
          · intro h k hk
            rw [Nat.add_right_comm]
            exact h k hk

/-- There are twenty letters. -/
theorem letters_isSome_iff (i : Nat) : (noteMarker (sectionMarker .A) i).isSome ↔ i < 20 := by
  have hlength : hebrewLetters.length = 20 := rfl
  unfold noteMarker
  rw [if_pos (by decide), Option.isSome_map]
  simp [hlength]

/-- Twenty letters reach for twenty notes of a column. -/
theorem runOnText_letters_isSome_iff (notes : List Text) :
    (runOnText (noteMarker (sectionMarker .A)) 0 notes []).isSome ↔ notes.length ≤ 20 := by
  rw [runOnText_isSome_iff]
  simp only [Nat.zero_add, letters_isSome_iff]
  constructor
  · intro h
    by_contra hmore
    exact absurd (h 20 (by omega)) (by omega)
  · intro h k hk
    omega

theorem completes_A_iff (page : PageModel) :
    Completes page .A ↔ page.footnotesARight.length ≤ 20 ∧ page.footnotesALeft.length ≤ 20 :=
  and_congr (runOnText_letters_isSome_iff _) (runOnText_letters_isSome_iff _)

/-- Only section A can reach into the next one. -/
theorem sectionsFit_sections_iff (measure : TextMeasure) (page : PageModel) :
    SectionsFit measure page (sections page) ↔
      (hasNotes page .A → hasNotes page .B ∨ hasNotes page .C →
        page.footnotesARight.length ≤ 20 → page.footnotesALeft.length ≤ 20 →
          MarkersFit measure page .A) := by
  have hB : MarkersFit measure page .B := Nat.le_refl _
  have hcompletes := completes_A_iff page
  unfold sections
  by_cases hasA : hasNotes page .A <;> by_cases hasB : hasNotes page .B <;>
    by_cases hasC : hasNotes page .C <;>
    simp [hasA, hasB, hasC, SectionsFit, hcompletes, hB]

end PageRenderer

end Typesetting
