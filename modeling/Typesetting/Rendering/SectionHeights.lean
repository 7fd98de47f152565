/-
# Typesetting.Rendering.SectionHeights -- the height reserved for notes and the height they take

The layout reserves the lines of the notes broken one by one, and 22 pixels; the renderer runs the
notes of each column on with their markers, takes the lines of the higher column, and 35 pixels.
Both break lines by first fit. A note broken for itself takes at least one line, and a column at
most as many as it has words and numbers, and in some font and width both happen at once: the notes
fit the lines they are measured for and no two words those they are drawn in. So the reserved height
is enough in every font and width only for notes that hold almost nothing to draw. A section of
system A with more than forty notes never ends: the table of its letters is too short for a column.
-/
import Typesetting.Rendering.LayerStacking
import Typesetting.Rendering.WrapTextToWidth
import Typesetting.Services.ColumnLayoutEngine
import Typesetting.Services.HeightCalculator
import Typesetting.Text.Numerals

namespace Typesetting

namespace PageRenderer

/-- How many lines first fit makes of the words. -/
def lineCount (measure : TextMeasure) (maxWidth fontSize : ℚ) (words : List Text) : Nat :=
  (FirstFit.firstFit (TextParser.FitsWidth measure maxWidth fontSize) words).length

/-- The lines of the notes, each note broken for itself. -/
def stackedLines (measure : TextMeasure) (maxWidth fontSize : ℚ) (notes : List Text) : Nat :=
  (notes.map fun note => lineCount measure maxWidth fontSize (TextParser.splitWords note)).sum

/-- The words of notes that are run on, each behind its number. -/
def numberedWords (notes : List Text) : List Text :=
  notes.zipIdx.flatMap fun p => bracketed (natToText (p.2 + 1)) :: wordsOf p.1

/-- The lines of a column of notes that are run on. -/
def columnLines (measure : TextMeasure) (fontSize : ℚ) (notes : List Text) : Nat :=
  lineCount measure LayoutConstants.columnWidth fontSize (numberedWords notes)

/-! ## The words of a column -/

/-- A text in brackets without a blank is a word. -/
theorem wordsOf_bracketed {marker : Text} (h : ∀ c ∈ marker, (c == space) = false) :
    wordsOf (bracketed marker) = [bracketed marker] := by
  have hspace : ∀ c ∈ bracketed marker, (c == space) = false := by
    intro c hc
    unfold bracketed at hc
    rw [List.mem_append, List.mem_append] at hc
    rcases hc with (hc | hc) | hc
    · rw [show utf16 "[" = [0x5B] from by decide, List.mem_singleton] at hc
      rw [hc]
      decide
    · exact h c hc
    · rw [show utf16 "]" = [0x5D] from by decide, List.mem_singleton] at hc
      rw [hc]
      decide
  have hblank : isNullOrWhiteSpace (bracketed marker) = false := by
    unfold isNullOrWhiteSpace bracketed
    rw [show utf16 "[" = [0x5B] from by decide, List.append_assoc, List.singleton_append,
      List.all_cons, show isWhiteSpace 0x5B = false from by decide, Bool.false_and]
  rw [wordsOf_of_no_space hspace, hblank]
  rfl

/-- Notes run on with markers that are words: the words of each note follow its marker. -/
theorem wordsOf_runOnText {marker : Nat → Option Text}
    (hmarker : ∀ i m, marker i = some m → wordsOf m = [m]) {i : Nat} {notes : List Text}
    {sb text : Text} (hstart : 0 < i ∨ sb = []) (h : runOnText marker i notes sb = some text) :
    wordsOf text =
      wordsOf sb ++ (notes.zipIdx i).flatMap fun p => (marker p.2).getD [] :: wordsOf p.1 := by
  induction notes generalizing i sb with
  | nil =>
      obtain rfl : sb = text := Option.some.inj h
      simp
  | cons note notes ih =>
      rw [runOnText] at h
      cases hm : marker i with
      | none =>
          rw [hm] at h
          cases h
      | some m =>
          simp only [hm] at h
          have hwords : wordsOf ((if 0 < i then sb ++ [space] else sb) ++ m ++ [space] ++ note) =
              wordsOf sb ++ m :: wordsOf note := by
            have hnote : wordsOf (m ++ space :: note) = m :: wordsOf note := by
              rw [wordsOf_append_space, hmarker i m hm]
              rfl
            by_cases hi : 0 < i
            · rw [if_pos hi, ← hnote, ← wordsOf_append_space]
              simp only [List.append_assoc, List.cons_append, List.nil_append]
            · obtain rfl : sb = [] := hstart.resolve_left hi
              rw [if_neg hi, List.nil_append, List.append_assoc, List.singleton_append, hnote]
              rfl
          rw [ih (.inl (Nat.succ_pos i)) h, hwords, List.zipIdx_cons, List.flatMap_cons, hm]
          simp

theorem wordsOf_numberedText (notes : List Text) :
    wordsOf (numberedText 0 notes []) = numberedWords notes := by
  have hmarker : ∀ i, noteMarker (sectionMarker .B) i = some (bracketed (natToText (i + 1))) := by
    intro i
    unfold noteMarker
    rw [if_neg (by decide), if_pos (by decide)]
  rw [wordsOf_runOnText (fun i m hm => ?_) (.inr rfl) (runOnText_numbers 0 notes [])]
  · simp only [hmarker, Option.getD_some]
    rfl
  · rw [hmarker] at hm
    obtain rfl := Option.some.inj hm
    exact wordsOf_bracketed (natToText_no_space _)

/-! ## The two heights -/

/-- The height of a column counts first-fit groups. -/
theorem calculateRunOnHeight_eq_lineCount (measure : TextMeasure) (notes : List Text)
    (width fontSize : ℚ) :
    calculateRunOnHeight measure notes width fontSize =
      lineCount measure width fontSize (numberedWords notes) * footnoteLineHeight fontSize := by
  rw [calculateRunOnHeight_eq_wrapped, wrapTextToWidth_eq, wordsOf_numberedText, List.length_map]
  rfl

theorem calculateRunOnHeight_eq_columnLines (measure : TextMeasure) (notes : List Text)
    (fontSize : ℚ) :
    calculateRunOnHeight measure notes LayoutConstants.columnWidth fontSize =
      columnLines measure fontSize notes * footnoteLineHeight fontSize :=
  calculateRunOnHeight_eq_lineCount measure notes LayoutConstants.columnWidth fontSize

theorem length_wrapLinesToWidth (measure : TextMeasure) (notes : List Text)
    (maxWidth fontSize : ℚ) :
    (TextParser.wrapLinesToWidth measure notes maxWidth fontSize).length =
      stackedLines measure maxWidth fontSize notes := by
  rw [TextParser.wrapLinesToWidth_eq, List.length_flatMap]
  simp only [TextParser.length_markLast, TextParser.paragraphLines, List.length_map]
  rfl

/-- What is reserved for notes: their lines, the title and the separator. -/
theorem measureFootnoteSectionHeight_eq (measure : TextMeasure) {notes : List Text}
    (hne : notes ≠ []) (fontSize columnWidth : ℚ) :
    HeightCalculator.measureFootnoteSectionHeight measure notes fontSize columnWidth =
      stackedLines measure columnWidth fontSize notes * footnoteLineHeight fontSize + 22 := by
  unfold HeightCalculator.measureFootnoteSectionHeight
  rw [if_neg (by simpa using hne)]
  simp only [HeightCalculator.measureBlockHeight_eq, length_wrapLinesToWidth]
  show _ * footnoteLineHeight fontSize + 20 + 2 = _
  ring

section Section

variable {measure : TextMeasure} {page : PageModel} {system : NoteSystem}

/-- A section whose markers are found moves on by its title, the higher column and a gap. -/
theorem renderFootnoteSection_completes (h : Completes page system) (title : Text) (fontSize : ℚ)
    (s : RenderState) :
    ∃ canvas, renderFootnoteSection measure system title (notesRight page system)
        (notesLeft page system) fontSize (sectionMarker system) s =
      .ok ⟨canvas, s.currentY + 20 +
        max (columnLines measure fontSize (notesRight page system) * footnoteLineHeight fontSize)
          (columnLines measure fontSize (notesLeft page system) * footnoteLineHeight fontSize) +
        15⟩ := by
  obtain ⟨rightText, hright⟩ := Option.isSome_iff_exists.mp h.1
  obtain ⟨leftText, hleft⟩ := Option.isSome_iff_exists.mp h.2
  unfold renderFootnoteSection
  simp only [renderRunOnColumn_eq, hright, hleft, Option.map_some,
    calculateRunOnHeight_eq_columnLines]
  exact ⟨_, rfl⟩

theorem renderFootnoteSection_throws (h : ¬ Completes page system) (title : Text) (fontSize : ℚ)
    (s : RenderState) :
    ∃ e, renderFootnoteSection measure system title (notesRight page system)
      (notesLeft page system) fontSize (sectionMarker system) s = .error e := by
  unfold renderFootnoteSection
  simp only [renderRunOnColumn_eq]
  cases hright : runOnText (noteMarker (sectionMarker system)) 0 (notesRight page system) [] with
  | none => exact ⟨_, rfl⟩
  | some rightText =>
      cases hleft : runOnText (noteMarker (sectionMarker system)) 0 (notesLeft page system) [] with
      | none => exact ⟨_, rfl⟩
      | some leftText => exact absurd ⟨by rw [hright]; rfl, by rw [hleft]; rfl⟩ h

/-- Only the letters can run out. -/
theorem completes_of_ne_A (h : system ≠ .A) : Completes page system := by
  have hmarker : ∀ i, (noteMarker (sectionMarker system) i).isSome := by
    intro i
    cases system with
    | A => exact absurd rfl h
    | B => rfl
    | C => rfl
  exact ⟨(runOnText_isSome_iff _ _ _ _).mpr fun k _ => hmarker _,
    (runOnText_isSome_iff _ _ _ _).mpr fun k _ => hmarker _⟩

end Section

section Reserved

open ColumnLayoutEngine (footnoteColumns distributeFootnotesToPage)

variable {measure : TextMeasure} {page : PageModel} {footnotes : NoteSystem → List Text}

/-- The page with its notes in two columns. -/
def placedFootnotes (page : PageModel) (footnotes : NoteSystem → List Text) : PageModel :=
  distributeFootnotesToPage page (footnotes .A) (footnotes .B) (footnotes .C)

theorem notesRight_placedFootnotes (system : NoteSystem) :
    notesRight (placedFootnotes page footnotes) system = (footnoteColumns (footnotes system)).1 := by
  cases system <;> rfl

theorem notesLeft_placedFootnotes (system : NoteSystem) :
    notesLeft (placedFootnotes page footnotes) system = (footnoteColumns (footnotes system)).2 := by
  cases system <;> rfl

/-- Twenty letters reach for forty notes. -/
theorem completes_placedFootnotes_iff (system : NoteSystem) :
    Completes (placedFootnotes page footnotes) system ↔
      ¬ (system = .A ∧ 40 < (footnotes system).length) := by
  by_cases hA : system = .A
  · subst hA
    rw [completes_A_iff]
    show ((footnotes .A).take (((footnotes .A).length + 1) / 2)).length ≤ 20 ∧
      ((footnotes .A).drop (((footnotes .A).length + 1) / 2)).length ≤ 20 ↔ _
    rw [List.length_take, List.length_drop]
    simp only [true_and, not_lt]
    omega
  · constructor
    · intro _ h
      exact hA h.1
    · intro _
      exact completes_of_ne_A hA

/-- The height of the lines of the higher column. -/
def columnsHeight (measure : TextMeasure) (fontSize : ℚ) (columns : List Text × List Text) : ℚ :=
  max (columnLines measure fontSize columns.1 * footnoteLineHeight fontSize)
    (columnLines measure fontSize columns.2 * footnoteLineHeight fontSize)

/-- A section that ends takes the higher column and 35 pixels. -/
theorem section_height_le_iff {system : NoteSystem}
    (h : Completes (placedFootnotes page footnotes) system) {title : Text} {fontSize height : ℚ}
    {s : RenderState} :
    (∃ s', renderFootnoteSection measure system title
          (notesRight (placedFootnotes page footnotes) system)
          (notesLeft (placedFootnotes page footnotes) system) fontSize (sectionMarker system) s =
            .ok s' ∧ s'.currentY - s.currentY ≤ height) ↔
      columnsHeight measure fontSize (footnoteColumns (footnotes system)) + 35 ≤ height := by
  obtain ⟨canvas, hok⟩ := @renderFootnoteSection_completes measure _ _ h title fontSize s
  rw [hok, notesRight_placedFootnotes, notesLeft_placedFootnotes]
  unfold columnsHeight
  generalize max (_ : ℚ) _ = columns
  constructor
  · rintro ⟨s', heq, hle⟩
    obtain rfl := Except.ok.inj heq
    have hspace : s.currentY + 20 + columns + 15 - s.currentY ≤ height := hle
    linarith
  · intro hle
    refine ⟨_, rfl, ?_⟩
    show s.currentY + 20 + columns + 15 - s.currentY ≤ height
    linarith

/-- The 22 pixels reserved leave 13 of the 35 to the lines. Nothing is reserved without notes, and
then the section takes too much as well. -/
theorem reserved_iff (measure : TextMeasure) (fontSize columnWidth : ℚ) (notes : List Text) :
    columnsHeight measure fontSize (footnoteColumns notes) + 35 ≤
        HeightCalculator.measureFootnoteSectionHeight measure notes fontSize columnWidth ↔
      columnsHeight measure fontSize (footnoteColumns notes) + 13 ≤
        stackedLines measure columnWidth fontSize notes * footnoteLineHeight fontSize := by
  by_cases hne : notes = []
  · have hcolumns : columnsHeight measure fontSize (footnoteColumns []) = 0 := by
      show max ((0 : ℕ) * footnoteLineHeight fontSize) ((0 : ℕ) * footnoteLineHeight fontSize) = 0
      simp
    have hreserved : HeightCalculator.measureFootnoteSectionHeight measure [] fontSize columnWidth =
        0 := rfl
    have hstacked : stackedLines measure columnWidth fontSize [] = 0 := rfl
    rw [hne, hcolumns, hreserved, hstacked]
    norm_num
  · rw [measureFootnoteSectionHeight_eq measure hne]
    constructor
    · intro h
      linarith
    · intro h
      linarith

/-! ## Every font and every width -/

/-- The words and the numbers of a column. -/
def columnWords (notes : List Text) : ℕ :=
  notes.length + (notes.map fun note => (wordsOf note).length).sum

/-- The notes that are given a line of their own: those with anything but blanks. -/
def linedNotes (notes : List Text) : ℕ :=
  notes.countP fun note => decide (TextParser.splitWords note ≠ [])

theorem columnWords_append (notes notes' : List Text) :
    columnWords (notes ++ notes') = columnWords notes + columnWords notes' := by
  unfold columnWords
  rw [List.length_append, List.map_append, List.sum_append]
  ring

/-- Each note that has a word to draw has a number as well. -/
theorem two_mul_linedNotes_le {notes : List Text}
    (h : ∀ note ∈ notes, TextParser.splitWords note ≠ [] → wordsOf note ≠ []) :
    2 * linedNotes notes ≤ columnWords notes := by
  unfold linedNotes columnWords
  induction notes with
  | nil => exact Nat.zero_le _
  | cons note notes ih =>
      have hrest := ih fun n hn => h n (List.mem_cons_of_mem _ hn)
      rw [List.countP_cons, List.length_cons, List.map_cons, List.sum_cons]
      split
      · rename_i hwords
        have hdrawn := h note List.mem_cons_self (of_decide_eq_true hwords)
        have hpos := List.length_pos_of_ne_nil hdrawn
        omega
      · omega

theorem length_numberedWords (notes : List Text) :
    (numberedWords notes).length = columnWords notes := by
  have hlengths : ∀ i, ((notes.zipIdx i).map fun p => (wordsOf p.1).length + 1).sum =
      columnWords notes := by
    unfold columnWords
    induction notes with
    | nil => simp
    | cons note notes ih =>
        intro i
        rw [List.zipIdx_cons, List.map_cons, List.sum_cons, ih, List.length_cons, List.map_cons,
          List.sum_cons]
        ring
  unfold numberedWords
  rw [List.length_flatMap]
  exact hlengths 0

/-- First fit makes no more lines than there are words. -/
theorem columnLines_le (measure : TextMeasure) (fontSize : ℚ) (notes : List Text) :
    columnLines measure fontSize notes ≤ columnWords notes := by
  rw [← length_numberedWords]
  exact (FirstFit.isFirstFit_firstFit _ _).length_le_length

/-- In a font in which no two words fit the column each word is a line. -/
theorem columnLines_of_none {fontSize : ℚ} {measure : TextMeasure}
    (hnone : ∀ g, 2 ≤ g.length →
      ¬ TextParser.FitsWidth measure LayoutConstants.columnWidth fontSize g) (notes : List Text) :
    columnLines measure fontSize notes = columnWords notes := by
  rw [← length_numberedWords]
  unfold columnLines lineCount
  rw [(FirstFit.isFirstFit_firstFit _ _).eq_map_singleton hnone, List.length_map]

theorem lineCount_nil (measure : TextMeasure) (maxWidth fontSize : ℚ) :
    lineCount measure maxWidth fontSize [] = 0 := rfl

/-- A note with a word takes a line at least. -/
theorem linedNotes_le (measure : TextMeasure) (maxWidth fontSize : ℚ) (notes : List Text) :
    linedNotes notes ≤ stackedLines measure maxWidth fontSize notes := by
  unfold linedNotes stackedLines
  induction notes with
  | nil => exact Nat.zero_le _
  | cons note notes ih =>
      rw [List.countP_cons, List.map_cons, List.sum_cons]
      have hlines : (if decide (TextParser.splitWords note ≠ []) = true then 1 else 0) ≤
          lineCount measure maxWidth fontSize (TextParser.splitWords note) := by
        split
        · rename_i hwords
          have hne := (FirstFit.isFirstFit_firstFit
            (TextParser.FitsWidth measure maxWidth fontSize)
            (TextParser.splitWords note)).ne_nil (of_decide_eq_true hwords)
          exact List.length_pos_of_ne_nil hne
        · exact Nat.zero_le _
      omega

/-- In a font in which everything fits the width no note takes two. -/
theorem stackedLines_of_all {maxWidth fontSize : ℚ} {measure : TextMeasure}
    (hall : ∀ g, TextParser.FitsWidth measure maxWidth fontSize g) (notes : List Text) :
    stackedLines measure maxWidth fontSize notes = linedNotes notes := by
  unfold linedNotes stackedLines
  induction notes with
  | nil => rfl
  | cons note notes ih =>
      rw [List.countP_cons, List.map_cons, List.sum_cons, ih, Nat.add_comm]
      congr 1
      by_cases hwords : TextParser.splitWords note = []
      · rw [hwords, lineCount_nil, if_neg (by simp)]
      · rw [if_pos (by simpa using hwords), lineCount,
          (FirstFit.isFirstFit_firstFit _ _).eq_singleton hwords fun k _ _ => hall k]
        rfl

theorem footnoteLineHeight_nonneg {fontSize : ℚ} (hsize : 0 < fontSize) :
    0 ≤ footnoteLineHeight fontSize := by
  show 0 ≤ fontSize * (96 / 72) * (13 / 10)
  positivity

/-- In every font and for every width what is reserved for the notes of a system covers what its
section takes, and the section ends. -/
def CoversSection (page : PageModel) (footnotes : NoteSystem → List Text) (system : NoteSystem)
    (title : Text) (fontSize : ℚ) (s : RenderState) : Prop :=
  ∀ measure columnWidth, ∃ s', renderFootnoteSection measure system title
      (notesRight (placedFootnotes page footnotes) system)
      (notesLeft (placedFootnotes page footnotes) system) fontSize (sectionMarker system) s =
        .ok s' ∧
    s'.currentY - s.currentY ≤
      HeightCalculator.measureFootnoteSectionHeight measure (footnotes system) fontSize columnWidth

section Covers

variable {page : PageModel} {footnotes : NoteSystem → List Text} {system : NoteSystem}
  {title : Text} {fontSize : ℚ} {s : RenderState}

theorem CoversSection.completes (h : CoversSection page footnotes system title fontSize s) :
    Completes (placedFootnotes page footnotes) system := by
  by_contra hcompletes
  obtain ⟨s', hok, -⟩ := h (fun _ _ => 0) 0
  obtain ⟨e, hthrows⟩ := @renderFootnoteSection_throws (fun _ _ => 0) _ _ hcompletes title
    fontSize s
  rw [hthrows] at hok
  cases hok

/-- The worst font is one in which no two words fit the columns while every note fits the width it
is measured with. -/
theorem CoversSection.columnWords_le (h : CoversSection page footnotes system title fontSize s)
    (hsize : 0 < fontSize) :
    max (columnWords (footnoteColumns (footnotes system)).1 : ℚ)
        (columnWords (footnoteColumns (footnotes system)).2) * footnoteLineHeight fontSize + 13 ≤
      linedNotes (footnotes system) * footnoteLineHeight fontSize := by
  let wide : TextMeasure := fun _ _ => LayoutConstants.columnWidth + 1
  have hall : ∀ g, TextParser.FitsWidth wide (LayoutConstants.columnWidth + 1) fontSize g :=
    fun _ => le_refl (LayoutConstants.columnWidth + 1)
  have hnone : ∀ g : List Text, 2 ≤ g.length →
      ¬ TextParser.FitsWidth wide LayoutConstants.columnWidth fontSize g :=
    fun _ _ hfits => not_le_of_gt (lt_add_one LayoutConstants.columnWidth) hfits
  have hworst := h wide (LayoutConstants.columnWidth + 1)
  rw [section_height_le_iff h.completes, reserved_iff, columnsHeight, stackedLines_of_all hall,
    columnLines_of_none hnone, columnLines_of_none hnone,
    ← max_mul_of_nonneg _ _ (footnoteLineHeight_nonneg hsize)] at hworst
  exact hworst

/-- Where every note with anything but blanks has a word to draw, as after trimming, what is
reserved is too little in some font and width. -/
theorem not_coversSection (hsize : 0 < fontSize)
    (hwords : ∀ note ∈ footnotes system, TextParser.splitWords note ≠ [] → wordsOf note ≠ []) :
    ¬ CoversSection page footnotes system title fontSize s := by
  intro h
  have hle := h.columnWords_le hsize
  have hcolumns : columnWords (footnoteColumns (footnotes system)).1 +
      columnWords (footnoteColumns (footnotes system)).2 = columnWords (footnotes system) := by
    rw [← columnWords_append]
    exact congrArg columnWords (List.take_append_drop _ _)
  have htwice := two_mul_linedNotes_le hwords
  have hfuller : linedNotes (footnotes system) ≤ max
      (columnWords (footnoteColumns (footnotes system)).1)
      (columnWords (footnoteColumns (footnotes system)).2) := by omega
  have hcast : (linedNotes (footnotes system) : ℚ) ≤ max
      (columnWords (footnoteColumns (footnotes system)).1 : ℚ)
      (columnWords (footnoteColumns (footnotes system)).2) := by exact_mod_cast hfuller
  have hheights := mul_le_mul_of_nonneg_right hcast (footnoteLineHeight_nonneg hsize)
  linarith

end Covers

/-- What is reserved for the notes of a system covers what its section takes, in every font and for
every width, exactly when the section ends and the notes that are given a line of their own are
higher by 13 pixels than all words and numbers of the fuller column, each on a line. -/
theorem section_height_reserved_iff (page : PageModel) (footnotes : NoteSystem → List Text)
    (system : NoteSystem) (title : Text) (fontSize : ℚ) (hsize : 0 < fontSize) (s : RenderState) :
    CoversSection page footnotes system title fontSize s ↔
      ¬ (system = .A ∧ 40 < (footnotes system).length) ∧
        max (columnWords (footnoteColumns (footnotes system)).1 : ℚ)
            (columnWords (footnoteColumns (footnotes system)).2) * footnoteLineHeight fontSize +
          13 ≤ linedNotes (footnotes system) * footnoteLineHeight fontSize := by
  rw [← completes_placedFootnotes_iff system]
  constructor
  · intro h
    exact ⟨h.completes, h.columnWords_le hsize⟩
  · rintro ⟨hcompletes, h⟩ measure columnWidth
    have hheight := footnoteLineHeight_nonneg hsize
    rw [section_height_le_iff hcompletes, reserved_iff, columnsHeight,
      ← max_mul_of_nonneg _ _ hheight]
    have hcolumns : max (columnLines measure fontSize (footnoteColumns (footnotes system)).1 : ℚ)
        (columnLines measure fontSize (footnoteColumns (footnotes system)).2) ≤
        max (columnWords (footnoteColumns (footnotes system)).1 : ℚ)
          (columnWords (footnoteColumns (footnotes system)).2) :=
      max_le_max (Nat.cast_le.mpr (columnLines_le measure fontSize _))
        (Nat.cast_le.mpr (columnLines_le measure fontSize _))
    have hstacked : (linedNotes (footnotes system) : ℚ) ≤
        stackedLines measure columnWidth fontSize (footnotes system) :=
      Nat.cast_le.mpr (linedNotes_le measure columnWidth fontSize _)
    calc _ ≤ max (columnWords (footnoteColumns (footnotes system)).1 : ℚ)
            (columnWords (footnoteColumns (footnotes system)).2) *
              footnoteLineHeight fontSize + 13 := by gcongr
      _ ≤ linedNotes (footnotes system) * footnoteLineHeight fontSize := h
      _ ≤ _ := by gcongr

/-- Two notes of a tab each: the layout gives each a line, the renderer draws only their numbers. -/
theorem section_height_reserved_tabs :
    CoversSection {} (fun _ => [[0x9], [0x9]]) .B (sectionTitle .B) (21 / 2) ⟨[], 0⟩ := by
  refine (section_height_reserved_iff {} (fun _ => [[0x9], [0x9]]) .B (sectionTitle .B) (21 / 2)
    (by norm_num) ⟨[], 0⟩).mpr ⟨by decide, ?_⟩
  decide +kernel

/-- One note that fits a line: 40.2 pixels are reserved and 53.2 are taken. -/
theorem section_height_one_note :
    ∃ s', renderFootnoteSection (fun _ _ => 0) .B (sectionTitle .B)
        (footnoteColumns [utf16 "a"]).1 (footnoteColumns [utf16 "a"]).2 (21 / 2)
        (sectionMarker .B) ⟨[], 0⟩ = .ok s' ∧
      HeightCalculator.measureFootnoteSectionHeight (fun _ _ => 0) [utf16 "a"] (21 / 2)
        LayoutConstants.columnWidth < s'.currentY - 0 := by
  refine ⟨_, rfl, ?_⟩
  decide +kernel

end Reserved

end PageRenderer

end Typesetting
