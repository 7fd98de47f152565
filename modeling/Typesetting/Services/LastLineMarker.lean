/-
# Typesetting.Services.LastLineMarker -- when the marker of a last line can be read back

`WrapLinesToWidth` returns the lines of all paragraphs in one list, and U+00A4 behind a line is all
that tells the renderer where a paragraph ends. The text may hold this character itself. Reading
the list back goes wrong exactly when a line that is not the last of its paragraph passes for one.
Some column is so narrow that each word is a line, so a list of paragraphs can be read back in every
column exactly when no word before the last of its paragraph ends in U+00A4.
-/
import Mathlib.Data.List.SplitBy
import Typesetting.Services.LineBreaking

namespace Typesetting

namespace TextParser

/-- The lines cut behind each line for which `IsLastLine` holds. -/
def cutAtLastLines (culture : CompareInfo) (lines : List Text) : List (List Text) :=
  lines.splitBy fun line _ => !isLastLine culture line

/-- The paragraphs as they are read back: their words. -/
def decodeParagraphs (culture : CompareInfo) (lines : List Text) : List (List Text) :=
  (cutAtLastLines culture lines).map fun paragraph =>
    paragraph.flatMap fun line => splitWords (removeLastLineMarker culture line)

section Marker

variable {culture : CompareInfo}

theorem isLastLine_marked (line : Text) : isLastLine culture (line ++ [lastLineMarker]) = true :=
  culture.isSuffix_currencySign line

theorem removeLastLineMarker_marked (line : Text) :
    removeLastLineMarker culture (line ++ [lastLineMarker]) = line := by
  rw [removeLastLineMarker, if_pos (isLastLine_marked line), List.dropLast_concat]

theorem removeLastLineMarker_unmarked {line : Text} (h : isLastLine culture line = false) :
    removeLastLineMarker culture line = line := by
  rw [removeLastLineMarker, h]
  rfl

/-- A marker behind the last line can be taken off again. -/
theorem modifyLast_markLast (culture : CompareInfo) (lines : List Text) :
    (markLast lines).modifyLast (removeLastLineMarker culture) = lines := by
  rcases markLast_cases lines with ⟨rfl, -⟩ | ⟨before, line, rfl, hmarked⟩
  · rfl
  · rw [hmarked, List.modifyLast_concat, removeLastLineMarker_marked]

/-- Only the last line of a paragraph passes for one before the marker is there. -/
def OnlyLast (culture : CompareInfo) (lines : List Text) : Prop :=
  ∀ line ∈ lines.dropLast, isLastLine culture line = false

/-- Nothing, or lines and a last one. -/
theorem onlyLast_cases {lines : List Text} (h : OnlyLast culture lines) :
    lines = [] ∨ ∃ before line, lines = before ++ [line] ∧
      ∀ l ∈ before, isLastLine culture l = false := by
  rcases List.eq_nil_or_concat lines with hnil | ⟨before, line, rfl⟩
  · exact .inl hnil
  · right
    refine ⟨before, line, List.concat_eq_append, ?_⟩
    simpa [OnlyLast] using h

theorem map_removeLastLineMarker_markLast {lines : List Text} (h : OnlyLast culture lines) :
    (markLast lines).map (removeLastLineMarker culture) = lines := by
  rcases onlyLast_cases h with rfl | ⟨before, line, rfl, hbefore⟩
  · rfl
  · have hmap : before.map (removeLastLineMarker culture) = before.map id :=
      List.map_congr_left fun l hl => removeLastLineMarker_unmarked (hbefore l hl)
    rw [markLast_concat, List.map_append, hmap, List.map_id, List.map_singleton,
      removeLastLineMarker_marked]

theorem markLast_eq_nil_iff {lines : List Text} : markLast lines = [] ↔ lines = [] := by
  rw [← List.length_eq_zero_iff, length_markLast, List.length_eq_zero_iff]

/-- The lines of one paragraph are not cut. -/
theorem isChain_markLast {lines : List Text} (h : OnlyLast culture lines) :
    (markLast lines).IsChain fun line _ => !isLastLine culture line := by
  rcases onlyLast_cases h with rfl | ⟨before, line, rfl, hbefore⟩
  · exact .nil
  · rw [markLast_concat]
    apply List.Pairwise.isChain
    rw [List.pairwise_append]
    refine ⟨List.pairwise_of_forall_mem_list fun l hl _ _ => ?_, List.pairwise_singleton _ _,
      fun l hl _ _ => ?_⟩
    · simp [hbefore l hl]
    · simp [hbefore l hl]

/-- Behind the last line of a paragraph the lines are cut. -/
theorem isLastLine_getLast_markLast {lines : List Text} (hne : markLast lines ≠ []) :
    isLastLine culture ((markLast lines).getLast hne) = true := by
  rcases List.eq_nil_or_concat lines with rfl | ⟨before, line, rfl⟩
  · exact absurd rfl hne
  · simp only [List.concat_eq_append, markLast_concat, List.getLast_concat]
    exact isLastLine_marked line

/-- Cutting the lines of several paragraphs gives the lines of each. -/
theorem cutAtLastLines_flatten {paragraphs : List (List Text)}
    (hne : ∀ lines ∈ paragraphs, lines ≠ []) (h : ∀ lines ∈ paragraphs, OnlyLast culture lines) :
    cutAtLastLines culture (paragraphs.map markLast).flatten = paragraphs.map markLast := by
  have hmarked : ∀ lines ∈ paragraphs, markLast lines ≠ [] :=
    fun lines hlines => markLast_eq_nil_iff.not.mpr (hne lines hlines)
  apply List.splitBy_flatten
  · intro hmem
    obtain ⟨lines, hlines, hnil⟩ := List.mem_map.mp hmem
    exact hmarked lines hlines hnil
  · intro m hm
    obtain ⟨lines, hlines, rfl⟩ := List.mem_map.mp hm
    exact isChain_markLast (h lines hlines)
  · rw [List.isChain_map]
    apply List.Pairwise.isChain
    refine List.pairwise_of_forall_mem_list fun lines hlines next hnext => ?_
    refine ⟨hmarked lines hlines, hmarked next hnext, ?_⟩
    simp [isLastLine_getLast_markLast]

end Marker

/-! ## Reading the lines back -/

/-- What the renderer relies on: the lines give back the paragraphs that have words, `IsLastLine`
tells the last line of each paragraph from the others, and only markers are removed. -/
structure MarkersDecodable (culture : CompareInfo) (measure : TextMeasure)
    (paragraphs : List Text) (maxWidth fontSize : ℚ) : Prop where
  decoded : decodeParagraphs culture (wrapLinesToWidth measure paragraphs maxWidth fontSize) =
    (paragraphs.map splitWords).filter fun words => !words.isEmpty
  lastLine : ∀ paragraph ∈ paragraphs, ∀ before line,
    markLast (paragraphLines measure maxWidth fontSize paragraph) = before ++ [line] →
      isLastLine culture line = true ∧ ∀ l ∈ before, isLastLine culture l = false
  removed : (wrapLinesToWidth measure paragraphs maxWidth fontSize).map
      (removeLastLineMarker culture) =
    paragraphs.flatMap (paragraphLines measure maxWidth fontSize)

section Decoding

variable {culture : CompareInfo} {measure : TextMeasure} {maxWidth fontSize : ℚ}

theorem onlyLast_paragraphLines_iff {paragraph : Text} :
    OnlyLast culture (paragraphLines measure maxWidth fontSize paragraph) ↔
      ∀ g ∈ (FirstFit.firstFit (FitsWidth measure maxWidth fontSize)
          (splitWords paragraph)).dropLast,
        isLastLine culture (joinWith [space] g) = false := by
  unfold OnlyLast paragraphLines
  rw [← List.map_dropLast, List.forall_mem_map]

theorem paragraphLines_eq_nil_iff {paragraph : Text} :
    paragraphLines measure maxWidth fontSize paragraph = [] ↔ splitWords paragraph = [] := by
  have hbroken := brokenParagraph_paragraphLines measure maxWidth fontSize paragraph
  constructor
  · intro hnil
    rw [← hbroken.words, hnil, List.flatMap_nil]
  · exact hbroken.none

/-- Paragraphs without words leave no line. -/
theorem wrapLinesToWidth_filter (paragraphs : List Text) :
    wrapLinesToWidth measure paragraphs maxWidth fontSize =
      (((paragraphs.filter fun paragraph => !(splitWords paragraph).isEmpty).map
        (paragraphLines measure maxWidth fontSize)).map markLast).flatten := by
  rw [wrapLinesToWidth_eq, List.flatMap_def]
  induction paragraphs with
  | nil => rfl
  | cons paragraph paragraphs ih =>
      rw [List.map_cons, List.flatten_cons, ih]
      by_cases hwords : splitWords paragraph = []
      · have hlines : paragraphLines measure maxWidth fontSize paragraph = [] :=
          paragraphLines_eq_nil_iff.mpr hwords
        rw [hlines, markLast_nil, List.nil_append, List.filter_cons_of_neg (by simp [hwords])]
      · rw [List.filter_cons_of_pos (by simpa using hwords), List.map_cons, List.map_cons,
          List.flatten_cons]

theorem decodeParagraphs_wrapLinesToWidth {paragraphs : List Text}
    (h : ∀ paragraph ∈ paragraphs,
      OnlyLast culture (paragraphLines measure maxWidth fontSize paragraph)) :
    decodeParagraphs culture (wrapLinesToWidth measure paragraphs maxWidth fontSize) =
      (paragraphs.map splitWords).filter fun words => !words.isEmpty := by
  have hkept : ∀ lines ∈ (paragraphs.filter fun paragraph => !(splitWords paragraph).isEmpty).map
      (paragraphLines measure maxWidth fontSize), lines ≠ [] ∧ OnlyLast culture lines := by
    intro lines hlines
    obtain ⟨paragraph, hmem, rfl⟩ := List.mem_map.mp hlines
    obtain ⟨hparagraph, hwords⟩ := List.mem_filter.mp hmem
    exact ⟨paragraphLines_eq_nil_iff.not.mpr (by simpa using hwords), h paragraph hparagraph⟩
  unfold decodeParagraphs
  rw [wrapLinesToWidth_filter, cutAtLastLines_flatten (fun lines hlines => (hkept lines hlines).1)
    fun lines hlines => (hkept lines hlines).2, List.filter_map, List.map_map, List.map_map]
  refine List.map_congr_left fun paragraph hmem => ?_
  have honly := h paragraph (List.mem_filter.mp hmem).1
  show (markLast (paragraphLines measure maxWidth fontSize paragraph)).flatMap
    (fun line => splitWords (removeLastLineMarker culture line)) = splitWords paragraph
  rw [← List.flatMap_map, map_removeLastLineMarker_markLast honly]
  exact (brokenParagraph_paragraphLines measure maxWidth fontSize paragraph).words

end Decoding

/-- One measure and one width: the lines can be read back exactly when, in the first-fit breaking of
the words of each paragraph, no line but the last passes for one. -/
theorem markersDecodable_iff_firstFit (culture : CompareInfo) (measure : TextMeasure)
    (paragraphs : List Text) (maxWidth fontSize : ℚ) :
    MarkersDecodable culture measure paragraphs maxWidth fontSize ↔
      ∀ paragraph ∈ paragraphs, ∀ g ∈ (FirstFit.firstFit (FitsWidth measure maxWidth fontSize)
          (splitWords paragraph)).dropLast,
        isLastLine culture (joinWith [space] g) = false := by
  simp only [← onlyLast_paragraphLines_iff]
  constructor
  · intro h paragraph hparagraph line hline
    rcases List.eq_nil_or_concat (paragraphLines measure maxWidth fontSize paragraph) with
      hnil | ⟨before, last, hlines⟩
    · rw [hnil] at hline
      cases hline
    · rw [List.concat_eq_append] at hlines
      rw [hlines, List.dropLast_concat] at hline
      have hmarked := h.lastLine paragraph hparagraph before (last ++ [lastLineMarker])
        (by rw [hlines, markLast_concat])
      exact hmarked.2 line hline
  · intro h
    refine ⟨decodeParagraphs_wrapLinesToWidth h, ?_, ?_⟩
    · intro paragraph hparagraph before line hlines
      rcases onlyLast_cases (h paragraph hparagraph) with hnil | ⟨init, last, heq, hinit⟩
      · rw [hnil, markLast_nil] at hlines
        exact absurd hlines.symm (List.concat_ne_nil _ _)
      · rw [heq, markLast_concat] at hlines
        obtain ⟨rfl, rfl⟩ := List.append_inj' hlines rfl |>.imp id (List.singleton_injective ·)
        exact ⟨isLastLine_marked last, hinit⟩
    · rw [wrapLinesToWidth_eq, List.map_flatMap]
      exact List.flatMap_congr fun paragraph hparagraph =>
        map_removeLastLineMarker_markLast (h paragraph hparagraph)

/-! ## Whatever the texts measure -/

/-- `EndsWith` looks no further for U+00A4 than to the blank before the last word. -/
def SeesLastWord (culture : CompareInfo) : Prop :=
  ∀ line word, culture.isSuffix (line ++ space :: word) [lastLineMarker] =
    culture.isSuffix word [lastLineMarker]

theorem seesLastWord_ordinal : SeesLastWord .ordinal := by
  have hlast : ∀ text, CompareInfo.ordinal.isSuffix text [lastLineMarker] = true ↔
      text.getLast? = some lastLineMarker := by
    intro text
    show List.isSuffixOf [lastLineMarker] text = true ↔ _
    rw [List.isSuffixOf_iff_suffix, List.getLast?_eq_some_iff]
    constructor
    · rintro ⟨init, rfl⟩
      exact ⟨init, rfl⟩
    · rintro ⟨init, rfl⟩
      exact ⟨init, rfl⟩
  intro line word
  rw [Bool.eq_iff_iff, hlast, hlast, List.getLast?_append, List.getLast?_cons]
  cases hword : word.getLast? with
  | none => simp [show space ≠ lastLineMarker from by decide]
  | some last => rfl

/-- A line passes for a last line when its last word does. -/
theorem isLastLine_joinWith {culture : CompareInfo} (hculture : SeesLastWord culture)
    (init : List Text) (word : Text) :
    isLastLine culture (joinWith [space] (init ++ [word])) = isLastLine culture word := by
  by_cases hinit : init = []
  · rw [hinit, List.nil_append, joinWith, List.intercalate_singleton]
  · rw [joinWith, Segment.intercalate_concat hinit, List.append_assoc, List.singleton_append]
    exact hculture _ _

/-- The lines can be read back, however the texts are measured and however wide the column is,
exactly when no word but the last of a paragraph ends in the marker. -/
theorem markersDecodable_iff (culture : CompareInfo) (hculture : SeesLastWord culture)
    (paragraphs : List Text) :
    (∀ measure maxWidth fontSize,
        MarkersDecodable culture measure paragraphs maxWidth fontSize) ↔
      ∀ paragraph ∈ paragraphs, ∀ word ∈ (splitWords paragraph).dropLast,
        culture.isSuffix word [lastLineMarker] = false := by
  simp only [markersDecodable_iff_firstFit]
  constructor
  · intro h paragraph hparagraph word hword
    -- in a column too narrow for two words each word is a line
    have hlines := (FirstFit.isFirstFit_firstFit (FitsWidth (fun _ _ => 1) 0 0)
      (splitWords paragraph)).eq_map_singleton fun g _ hfits =>
        absurd (show (1 : ℚ) ≤ 0 from hfits) (by decide)
    have hline := h (fun _ _ => 1) 0 0 paragraph hparagraph [word] (by
      rw [hlines, ← List.map_dropLast]
      exact List.mem_map_of_mem hword)
    exact (isLastLine_joinWith hculture [] word).symm.trans hline
  · intro h measure maxWidth fontSize paragraph hparagraph g hg
    obtain ⟨init, word, rfl, hword⟩ := (FirstFit.isFirstFit_firstFit
      (FitsWidth measure maxWidth fontSize) (splitWords paragraph)).mem_dropLast hg
    rw [isLastLine_joinWith hculture]
    exact h paragraph hparagraph word hword

/-- A word that ends in U+00A4 does no harm where it is the last one. -/
theorem markersDecodable_last_word :
    SeesLastWord .ordinal ∧ ∀ measure maxWidth fontSize,
      MarkersDecodable .ordinal measure [[0x61, 0x20, 0x62, 0xA4]] maxWidth fontSize :=
  ⟨seesLastWord_ordinal,
    (markersDecodable_iff .ordinal seesLastWord_ordinal _).mpr (by decide +kernel)⟩

/-- Two words on two lines, the first of which ends in U+00A4: one paragraph is read back as two,
and its own character is lost. -/
theorem markers_not_decodable :
    ¬ MarkersDecodable .ordinal (fun text _ => text.length) [[0x61, 0xA4, 0x20, 0x62]] 2 1 := by
  intro h
  have hlines : wrapLinesToWidth (fun text _ => text.length) [[0x61, 0xA4, 0x20, 0x62]] 2 1 =
      [[0x61, 0xA4], [0x62, 0xA4]] := by decide +kernel
  have hdecoded := h.decoded
  rw [hlines] at hdecoded
  exact absurd hdecoded (by decide +kernel)

end TextParser

end Typesetting
