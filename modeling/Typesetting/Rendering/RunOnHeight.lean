/-
# Typesetting.Rendering.RunOnHeight -- the height computed for a column and the lines drawn in it

`RenderRunOnColumn` puts the markers of the section in front of the notes, `CalculateRunOnHeight`
always puts numbers. Both texts are broken by first fit, and they differ in the widths of the
markers only. Section ב is numbered, so there the two agree; in the other two sections a measure
that tells a marker from a number breaks the lines differently as soon as there are two words.
-/
import Mathlib.Data.Finset.Card
import Typesetting.Rendering.SectionHeights

namespace Typesetting

namespace PageRenderer

/-- The lines drawn: the different heights at which the children stand. -/
def drawnLines (children : List Child) : Nat :=
  (children.map Child.top).toFinset.card

/-- The height computed for a column is that of the lines drawn in it, if it can be drawn. -/
def HeightMatches (measure : TextMeasure) (notes : List Text) (system : NoteSystem)
    (width fontSize : ℚ) : Prop :=
  ∀ layer x y drawn,
    renderRunOnColumn measure layer notes x y width fontSize (sectionMarker system) = some drawn →
      calculateRunOnHeight measure notes width fontSize =
        footnoteLineHeight fontSize * drawnLines drawn

/-! ## The lines drawn -/

section Tops

variable {draw : Text → ℚ → List Child} {lineHeight y : ℚ} {lines : List Text}

/-- One line and its height. -/
theorem mem_tops_draw {line : Text} (htop : ∀ c ∈ draw line y, c.top = y)
    (hdrawn : draw line y ≠ []) (t : ℚ) : t ∈ (draw line y).map Child.top ↔ t = y := by
  constructor
  · intro ht
    obtain ⟨c, hc, rfl⟩ := List.mem_map.mp ht
    exact htop c hc
  · rintro rfl
    obtain ⟨c, hc⟩ := List.exists_mem_of_ne_nil _ hdrawn
    exact List.mem_map.mpr ⟨c, hc, htop c hc⟩

/-- Every line has its height, one line height below the line before it. -/
theorem mem_tops_drawLines (htop : ∀ line y, ∀ c ∈ draw line y, c.top = y)
    (hdrawn : ∀ line ∈ lines, ∀ y, draw line y ≠ []) (t : ℚ) :
    t ∈ (drawLines draw lineHeight lines y).map Child.top ↔
      ∃ i < lines.length, t = y + i * lineHeight := by
  induction lines generalizing y with
  | nil => simp [drawLines]
  | cons line lines ih =>
      have hrest := @ih (y + lineHeight) fun l hl => hdrawn l (List.mem_cons_of_mem _ hl)
      have hfirst := mem_tops_draw (htop line y) (hdrawn line List.mem_cons_self y) t
      rw [drawLines, List.map_append, List.mem_append, hfirst, hrest, List.length_cons]
      constructor
      · rintro (rfl | ⟨i, hi, rfl⟩)
        · exact ⟨0, Nat.succ_pos _, by simp⟩
        · refine ⟨i + 1, Nat.succ_lt_succ hi, ?_⟩
          rw [Nat.cast_add_one]
          ring
      · rintro ⟨i, hi, rfl⟩
        cases i with
        | zero => simp
        | succ i =>
            refine .inr ⟨i, Nat.lt_of_succ_lt_succ hi, ?_⟩
            rw [Nat.cast_add_one]
            ring

/-- Lines with something on them stand at different heights. -/
theorem drawnLines_drawLines (hheight : lineHeight ≠ 0)
    (htop : ∀ line y, ∀ c ∈ draw line y, c.top = y)
    (hdrawn : ∀ line ∈ lines, ∀ y, draw line y ≠ []) (y : ℚ) :
    drawnLines (drawLines draw lineHeight lines y) = lines.length := by
  have hset : ((drawLines draw lineHeight lines y).map Child.top).toFinset =
      (Finset.range lines.length).image fun i : ℕ => y + i * lineHeight := by
    ext t
    rw [List.mem_toFinset, mem_tops_drawLines htop hdrawn, Finset.mem_image]
    simp only [Finset.mem_range, eq_comm]
  have hinj : Function.Injective fun i : ℕ => y + (i : ℚ) * lineHeight := by
    intro i j h
    exact_mod_cast mul_right_cancel₀ hheight (add_left_cancel h)
  rw [drawnLines, hset, Finset.card_image_of_injective _ hinj, Finset.card_range]

end Tops

/-! ## The words behind their markers -/

/-- The words of notes that are run on, each behind the marker of its section. -/
def markedWords (system : NoteSystem) (notes : List Text) : List Text :=
  notes.zipIdx.flatMap fun p => (noteMarker (sectionMarker system) p.2).getD [] :: wordsOf p.1

theorem no_space_of_all {text : Text} (h : (text.all fun c => !(c == space)) = true) :
    ∀ c ∈ text, (c == space) = false := by
  intro c hc
  rw [← Bool.not_eq_true']
  exact List.all_eq_true.mp h c hc

/-- The markers are words: a letter, a number or a symbol in brackets. -/
theorem wordsOf_noteMarker {system : NoteSystem} {i : Nat} {m : Text}
    (h : noteMarker (sectionMarker system) i = some m) : wordsOf m = [m] := by
  have hbracketed : ∃ t, m = bracketed t ∧ ∀ c ∈ t, (c == space) = false := by
    cases system with
    | A =>
        rw [noteMarker, if_pos (by decide), Option.map_eq_some_iff] at h
        obtain ⟨letter, hletter, rfl⟩ := h
        have hclean : ∀ letter ∈ hebrewLetters, (letter.all fun c => !(c == space)) = true := by
          decide +kernel
        exact ⟨letter, rfl, no_space_of_all (hclean letter (List.mem_of_getElem? hletter))⟩
    | B =>
        rw [noteMarker, if_neg (by decide), if_pos (by decide)] at h
        exact ⟨_, (Option.some.inj h).symm, natToText_no_space _⟩
    | C =>
        rw [noteMarker, if_neg (by decide), if_neg (by decide), if_pos (by decide)] at h
        have hclean : ∀ k < 4, ((symbols.getD k []).all fun c => !(c == space)) = true := by
          decide +kernel
        exact ⟨_, (Option.some.inj h).symm, no_space_of_all (hclean _ (Nat.mod_lt i (by decide)))⟩
  obtain ⟨t, rfl, ht⟩ := hbracketed
  exact wordsOf_bracketed ht

theorem markedWords_B (notes : List Text) : markedWords .B notes = numberedWords notes := by
  have hmarker : ∀ i, (noteMarker (sectionMarker .B) i).getD [] = bracketed (natToText (i + 1)) := by
    intro i
    rw [noteMarker, if_neg (by decide), if_pos (by decide)]
    rfl
  unfold markedWords numberedWords
  simp only [hmarker]

theorem length_markedWords (system : NoteSystem) (notes : List Text) :
    (markedWords system notes).length = (numberedWords notes).length := by
  unfold markedWords numberedWords
  rw [List.length_flatMap, List.length_flatMap]
  rfl

section Column

variable {measure : TextMeasure} {system : NoteSystem} {notes : List Text}

theorem wordsOf_drawnText {text : Text}
    (h : runOnText (noteMarker (sectionMarker system)) 0 notes [] = some text) :
    wordsOf text = markedWords system notes := by
  have hnil : wordsOf [] = [] := rfl
  rw [wordsOf_runOnText (fun _ _ => wordsOf_noteMarker) (.inr rfl) h, hnil, List.nil_append]
  rfl

/-- The lines drawn are the first-fit groups of the words behind their markers. -/
theorem drawnLines_renderRunOnColumn {layer : Layer} {x y width fontSize : ℚ}
    {drawn : List Child} (hheight : footnoteLineHeight fontSize ≠ 0)
    (h : renderRunOnColumn measure layer notes x y width fontSize (sectionMarker system) =
      some drawn) :
    drawnLines drawn = lineCount measure width fontSize (markedWords system notes) := by
  rw [renderRunOnColumn_eq_map, Option.map_eq_some_iff] at h
  obtain ⟨text, htext, rfl⟩ := h
  rw [drawnLines_drawLines hheight (fun line y c hc => ((renderJustifiedLine_spec line x y width
    fontSize).1 c hc).2) fun line hline y => (renderJustifiedLine_spec line x y width fontSize).2
      (wrapTextToWidth_not_blank text width fontSize line hline)]
  rw [wrapTextToWidth_eq, List.length_map, wordsOf_drawnText htext]
  rfl

/-- One measure and one width: the line numbers are compared. -/
theorem heightMatches_iff_lineCount {width fontSize : ℚ} (hsize : fontSize ≠ 0)
    (hdrawn : ∃ text, runOnText (noteMarker (sectionMarker system)) 0 notes [] = some text) :
    HeightMatches measure notes system width fontSize ↔
      lineCount measure width fontSize (numberedWords notes) =
        lineCount measure width fontSize (markedWords system notes) := by
  have hheight : footnoteLineHeight fontSize ≠ 0 := by
    have hfactor : footnoteLineHeight fontSize = fontSize * (26 / 15) := by
      show fontSize * (96 / 72) * (13 / 10) = _
      ring
    rw [hfactor]
    exact mul_ne_zero hsize (by norm_num)
  constructor
  · intro h
    obtain ⟨text, htext⟩ := hdrawn
    have hcolumn := @renderRunOnColumn_eq_map measure (.sectionBody system) notes 0 0 width fontSize
      (sectionMarker system)
    rw [htext] at hcolumn
    have hmatch := h _ _ _ _ hcolumn
    rw [drawnLines_renderRunOnColumn hheight hcolumn, calculateRunOnHeight_eq_lineCount,
      mul_comm] at hmatch
    exact_mod_cast mul_left_cancel₀ hheight hmatch
  · intro h layer x y drawn hcolumn
    rw [drawnLines_renderRunOnColumn hheight hcolumn, calculateRunOnHeight_eq_lineCount, h,
      mul_comm]

end Column

/-! ## A measure that tells a marker from a number -/

/-- Lines that begin with the marker are too wide. -/
def markerMeasure (marker : Text) (width : ℚ) : TextMeasure := fun line _ =>
  if marker.isPrefixOf line then width + 1 else width

theorem fits_markerMeasure_iff {marker : Text} {width fontSize : ℚ} {words : List Text} :
    TextParser.FitsWidth (markerMeasure marker width) width fontSize words ↔
      ¬ marker <+: joinWith [space] words := by
  show markerMeasure marker width (joinWith [space] words) fontSize ≤ width ↔ _
  rw [← List.isPrefixOf_iff_prefix]
  unfold markerMeasure
  split
  · rename_i hmarker
    simp [hmarker]
  · rename_i hmarker
    simp [hmarker]

theorem prefix_joinWith (word : Text) (words : List Text) :
    word <+: joinWith [space] (word :: words) := by
  unfold joinWith
  cases words with
  | nil => simp
  | cons v vs =>
      rw [List.intercalate_cons_cons, List.append_assoc]
      exact List.prefix_append _ _

section Distinguished

variable {width fontSize : ℚ} {system : NoteSystem} {notes : List Text}

/-- Behind the marker that is too wide the words take more than one line. -/
theorem two_le_lineCount {marker : Text} {rest : List Text} (hrest : rest ≠ []) :
    2 ≤ lineCount (markerMeasure marker width) width fontSize (marker :: rest) := by
  have hfirst := FirstFit.isFirstFit_firstFit
    (TextParser.FitsWidth (markerMeasure marker width) width fontSize) (marker :: rest)
  have hpos := List.length_pos_of_ne_nil (hfirst.ne_nil (List.cons_ne_nil marker rest))
  unfold lineCount
  by_contra hfew
  obtain ⟨g, hg⟩ := List.length_eq_one_iff.mp
    (Nat.le_antisymm (Nat.le_of_lt_succ (not_le.mp hfew)) hpos)
  rw [hg] at hfirst
  have hall : g = marker :: rest := by simpa using hfirst.flatten
  have htwo : 2 ≤ g.length := by
    have hmore := List.length_pos_of_ne_nil hrest
    rw [hall, List.length_cons]
    omega
  have hfits := hfirst.fit g List.mem_cons_self g List.prefix_rfl htwo
  rw [fits_markerMeasure_iff, hall] at hfits
  exact hfits (prefix_joinWith _ _)

/-- Behind another marker of the same length they take a single line. -/
theorem lineCount_eq_one {marker other : Text} (hlen : marker.length = other.length)
    (hne : marker ≠ other) (rest : List Text) :
    lineCount (markerMeasure marker width) width fontSize (other :: rest) = 1 := by
  have hfirst := FirstFit.isFirstFit_firstFit
    (TextParser.FitsWidth (markerMeasure marker width) width fontSize) (other :: rest)
  have hsingle := hfirst.eq_singleton (List.cons_ne_nil other rest) fun k hk htwo => by
    rw [fits_markerMeasure_iff]
    intro hpre
    cases k with
    | nil => cases htwo
    | cons w k =>
        -- of two beginnings of one length there is but one
        obtain rfl : w = other := (List.cons_prefix_cons.mp hk).1
        have heq := List.prefix_of_prefix_length_le hpre (prefix_joinWith w k) hlen.le
        exact hne (heq.eq_of_length hlen)
  rw [lineCount, hsingle, List.length_singleton]

/-- The first word of the notes is the first marker. -/
theorem markedWords_cons {marker : Text} (h : noteMarker (sectionMarker system) 0 = some marker)
    (hne : notes ≠ []) : ∃ rest, markedWords system notes = marker :: rest := by
  cases notes with
  | nil => exact absurd rfl hne
  | cons note notes =>
      unfold markedWords
      rw [List.zipIdx_cons, List.flatMap_cons, h, List.cons_append]
      exact ⟨_, rfl⟩

theorem numberedWords_cons (hne : notes ≠ []) :
    ∃ rest, numberedWords notes = bracketed (natToText 1) :: rest := by
  rw [← markedWords_B]
  exact markedWords_cons (by decide) hne

/-- The first marker of the other sections is no number. -/
theorem first_noteMarker (h : system ≠ .B) :
    ∃ m, noteMarker (sectionMarker system) 0 = some m ∧ m.length = 3 ∧
      m ≠ bracketed (natToText 1) := by
  cases system with
  | A => exact ⟨bracketed (utf16 "א"), by decide, by decide, by decide⟩
  | B => exact absurd rfl h
  | C => exact ⟨bracketed (utf16 "*"), by decide, by decide, by decide⟩

/-- Where there is no second word there is nothing to break. -/
theorem lineCount_of_length_le_one {measure : TextMeasure} {words : List Text}
    (h : words.length ≤ 1) : lineCount measure width fontSize words = words.length := by
  have hfirst := FirstFit.isFirstFit_firstFit (TextParser.FitsWidth measure width fontSize) words
  unfold lineCount
  by_cases hne : words = []
  · subst hne
    rw [hfirst.eq_nil]
    rfl
  · rw [hfirst.eq_singleton hne fun k hk htwo => absurd (hk.length_le) (by omega)]
    have hpos := List.length_pos_of_ne_nil hne
    rw [List.length_singleton]
    omega

/-- Only letters run out. -/
theorem runOnText_eq_none_iff :
    runOnText (noteMarker (sectionMarker system)) 0 notes [] = none ↔
      system = .A ∧ 20 < notes.length := by
  rw [← Option.not_isSome_iff_eq_none]
  cases system with
  | A => rw [runOnText_letters_isSome_iff, not_le, and_iff_right rfl]
  | B =>
      have hall : ∀ i, (noteMarker (sectionMarker .B) i).isSome = true := fun _ => rfl
      simp [runOnText_isSome_iff, hall]
  | C =>
      have hall : ∀ i, (noteMarker (sectionMarker .C) i).isSome = true := fun _ => rfl
      simp [runOnText_isSome_iff, hall]

/-- All measures make as many lines of the one text as of the other only in the numbered section,
or where there is nothing to break. -/
theorem lineCounts_agree_iff :
    (∀ measure, lineCount measure width fontSize (numberedWords notes) =
        lineCount measure width fontSize (markedWords system notes)) ↔
      system = .B ∨ (numberedWords notes).length ≤ 1 := by
  constructor
  · intro hall
    by_contra hnone
    rw [not_or, not_le] at hnone
    have hne : notes ≠ [] := by
      rintro rfl
      exact absurd hnone.2 (by decide)
    obtain ⟨m, hm, hlen, hnumber⟩ := first_noteMarker hnone.1
    obtain ⟨marked, hmarked⟩ := markedWords_cons hm hne
    obtain ⟨numbered, hnumbered⟩ := numberedWords_cons hne
    have hrest : numbered ≠ [] := by
      rintro rfl
      rw [hnumbered] at hnone
      exact absurd hnone.2 (by simp)
    have hcounts := hall (markerMeasure (bracketed (natToText 1)) width)
    have htwo := @two_le_lineCount width fontSize (bracketed (natToText 1)) numbered hrest
    rw [hmarked, hnumbered, lineCount_eq_one (by rw [hlen]; decide) hnumber.symm] at hcounts
    omega
  · rintro (rfl | hfew) measure
    · rw [markedWords_B]
    · rw [lineCount_of_length_le_one hfew, lineCount_of_length_le_one
        (by rwa [length_markedWords]), length_markedWords]

end Distinguished

/-- Under every measure the height computed is that of the lines drawn exactly for a font without
height, in the numbered section, for a column that cannot be drawn, and for notes that have no word
behind the first marker. -/
theorem calculateRunOnHeight_matches_iff (notes : List Text) (system : NoteSystem)
    (width fontSize : ℚ) :
    (∀ measure, HeightMatches measure notes system width fontSize) ↔
      fontSize = 0 ∨ system = .B ∨ (system = .A ∧ 20 < notes.length) ∨
        (numberedWords notes).length ≤ 1 := by
  by_cases hsize : fontSize = 0
  · refine iff_of_true (fun measure layer x y drawn _ => ?_) (.inl hsize)
    have hheight : footnoteLineHeight 0 = 0 := by
      show (0 : ℚ) * (96 / 72) * (13 / 10) = 0
      norm_num
    rw [calculateRunOnHeight_eq_lineCount, hsize, hheight, mul_zero, zero_mul]
  · rw [or_iff_right hsize]
    by_cases hdrawn : runOnText (noteMarker (sectionMarker system)) 0 notes [] = none
    · refine iff_of_true (fun measure layer x y drawn hcolumn => ?_)
        (.inr (.inl (runOnText_eq_none_iff.mp hdrawn)))
      rw [renderRunOnColumn_eq_map, hdrawn] at hcolumn
      cases hcolumn
    · have hlong := runOnText_eq_none_iff.not.mp hdrawn
      have htext := Option.ne_none_iff_exists'.mp hdrawn
      rw [or_iff_right hlong, ← lineCounts_agree_iff]
      exact forall_congr' fun measure => heightMatches_iff_lineCount hsize htext

/-- A digit three times as wide as a letter: `[א] a` is drawn on one line of width five, while
`[1] a` takes two. -/
theorem calculateRunOnHeight_wide_digit :
    ¬ HeightMatches (fun line _ => (line.map fun c => if c = 0x31 then 3 else 1).sum)
      [utf16 "a"] .A 5 9 := by
  intro h
  have hmatch := h (.sectionBody .A) 0 0 _ rfl
  exact absurd hmatch (by decide +kernel)

end PageRenderer

end Typesetting
