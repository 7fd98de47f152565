/-
# Typesetting.Rendering.WrapTextToWidth -- the renderer breaks lines by first fit, too

`WrapTextToWidth` asks the length of the current line where the line breaker of the parser keeps a
flag; it makes the same first-fit groups. Its words are those at blanks that are not white space
throughout, so none of its lines is blank.

The layout measures with `WrapLinesToWidth` of the parser, which drops empty words only. The lines
of both give the words back, so the two breakers agree on a text exactly when it has no word that is
white space throughout.
-/
import Typesetting.Rendering.PageRenderer
import Typesetting.Services.LastLineMarker

namespace Typesetting

namespace PageRenderer

/-! ## The words -/

theorem wordsOf_append_space (before behind : Text) :
    wordsOf (before ++ space :: behind) = wordsOf before ++ wordsOf behind := by
  unfold wordsOf
  rw [List.splitOnP_append_cons before behind (by simp), List.filter_append]

/-- A text without blanks is a word or white space. -/
theorem wordsOf_of_no_space {text : Text} (h : ∀ c ∈ text, (c == space) = false) :
    wordsOf text = if isNullOrWhiteSpace text then [] else [text] := by
  unfold wordsOf
  rw [List.splitOnP_eq_singleton h]
  cases hblank : isNullOrWhiteSpace text with
  | true => simp [hblank]
  | false => simp [hblank]

theorem not_blank_of_mem_wordsOf {text word : Text} (h : word ∈ wordsOf text) :
    isNullOrWhiteSpace word = false := by
  simpa using (List.mem_filter.mp h).2

theorem ne_nil_of_mem_wordsOf {text word : Text} (h : word ∈ wordsOf text) : word ≠ [] := by
  rintro rfl
  have hblank := not_blank_of_mem_wordsOf h
  cases hblank

/-- A text that is not blank has a word. -/
theorem wordsOf_ne_nil {text : Text} (h : isNullOrWhiteSpace text = false) : wordsOf text ≠ [] := by
  intro hnil
  have hsep : ∀ c : UInt16, (c == space) = true → isWhiteSpace c = true := by
    intro c hc
    rw [beq_iff_eq.mp hc]
    exact isWhiteSpace_space
  -- without a word in any piece there is none in the text
  have hblank : isNullOrWhiteSpace text = true := by
    rw [isNullOrWhiteSpace_iff_words]
    show Segment.words isWhiteSpace text = []
    rw [Segment.words_eq_flatMap_words hsep, List.flatMap_eq_nil_iff]
    intro piece hpiece
    have hdropped := List.filter_eq_nil_iff.mp hnil piece hpiece
    exact (isNullOrWhiteSpace_iff_words piece).mp (by simpa using hdropped)
  rw [h] at hblank
  cases hblank

/-! ## The loop and first fit -/

section Loop

variable {measure : TextMeasure} {maxWidth fontSize : ℚ} {result : List Text}
  {currentLine word : Text}

theorem wrapTextStep_start :
    wrapTextStep measure maxWidth fontSize (result, []) word = (result, word) := by
  by_cases hwidth : measure word fontSize ≤ maxWidth
  · simp [wrapTextStep, hwidth]
  · simp [wrapTextStep, hwidth]

theorem wrapTextStep_room (hopen : currentLine ≠ [])
    (hroom : measure (currentLine ++ [space] ++ word) fontSize ≤ maxWidth) :
    wrapTextStep measure maxWidth fontSize (result, currentLine) word =
      (result, currentLine ++ [space] ++ word) := by
  have hpos : 0 < currentLine.length := List.length_pos_of_ne_nil hopen
  unfold wrapTextStep
  simp only [if_pos hpos]
  rw [if_pos hroom]

theorem wrapTextStep_full (hopen : currentLine ≠ [])
    (hfull : ¬ measure (currentLine ++ [space] ++ word) fontSize ≤ maxWidth) :
    wrapTextStep measure maxWidth fontSize (result, currentLine) word =
      (result ++ [currentLine], word) := by
  have hpos : 0 < currentLine.length := List.length_pos_of_ne_nil hopen
  unfold wrapTextStep
  simp only [if_pos hpos]
  rw [if_neg hfull]

theorem isBuilder_wrapTextStep (measure : TextMeasure) (maxWidth fontSize : ℚ) :
    LineBuilder.IsBuilder space (fun line => measure line fontSize ≤ maxWidth) (fun line => line)
      Prod.fst Prod.snd (fun _ => True) (wrapTextStep measure maxWidth fontSize) where
  good_step _ _ _ _ := trivial
  start := by
    rintro ⟨result, currentLine⟩ word - - rfl
    rw [wrapTextStep_start]
    exact ⟨rfl, rfl⟩
  room := by
    rintro ⟨result, currentLine⟩ word - - hopen hroom
    rw [wrapTextStep_room hopen hroom]
    exact ⟨rfl, rfl⟩
  full := by
    rintro ⟨result, currentLine⟩ word - - hopen hfull
    rw [wrapTextStep_full hopen hfull]
    exact ⟨rfl, rfl⟩

end Loop

theorem wrapTextToWidth_eq (measure : TextMeasure) (text : Text) (maxWidth fontSize : ℚ) :
    wrapTextToWidth measure text maxWidth fontSize =
      (FirstFit.firstFit (TextParser.FitsWidth measure maxWidth fontSize) (wordsOf text)).map
        (joinWith [space]) := by
  have hwords : ∀ word ∈ wordsOf text, word ≠ [] := fun _ hword => ne_nil_of_mem_wordsOf hword
  exact (isBuilder_wrapTextStep measure maxWidth fontSize).written ([], []) trivial rfl rfl hwords

/-- Wrapping makes no blank line. -/
theorem wrapTextToWidth_not_blank {measure : TextMeasure} (text : Text) (maxWidth fontSize : ℚ) :
    ∀ line ∈ wrapTextToWidth measure text maxWidth fontSize, isNullOrWhiteSpace line = false := by
  have hfirst := FirstFit.isFirstFit_firstFit (TextParser.FitsWidth measure maxWidth fontSize)
    (wordsOf text)
  intro line hline
  rw [wrapTextToWidth_eq] at hline
  obtain ⟨g, hg, rfl⟩ := List.mem_map.mp hline
  obtain ⟨word, hword⟩ := List.exists_mem_of_ne_nil g (hfirst.nonempty g hg)
  have hmem : word ∈ wordsOf text := hfirst.mem_of_mem_group hg hword
  -- the words of a blank line would be blank
  rw [← Bool.not_eq_true, isNullOrWhiteSpace_iff_words]
  intro hnone
  have hjoin : splitRemoveEmpty isWhiteSpace (joinWith [space] g) =
      g.flatMap (splitRemoveEmpty isWhiteSpace) := Segment.words_intercalate isWhiteSpace_space g
  rw [hjoin, List.flatMap_eq_nil_iff] at hnone
  have hblank := (isNullOrWhiteSpace_iff_words word).mpr (hnone word hword)
  rw [not_blank_of_mem_wordsOf hmem] at hblank
  cases hblank

/-! ## The two line breakers on one text -/

section Agreement

open TextParser

/-- The words of the renderer are those of the parser that are not blank. -/
theorem wordsOf_eq_filter (text : Text) :
    wordsOf text = (splitWords text).filter fun w => !isNullOrWhiteSpace w := by
  show wordsOf text = ((text.splitOnP (· == space)).filter fun w => !w.isEmpty).filter _
  rw [List.filter_filter]
  apply List.filter_congr
  intro w _
  cases w with
  | nil => rfl
  | cons c cs => simp

/-- The lines of the renderer hold its words. -/
theorem words_wrapTextToWidth (measure : TextMeasure) (text : Text) (maxWidth fontSize : ℚ) :
    (wrapTextToWidth measure text maxWidth fontSize).flatMap splitWords = wordsOf text := by
  rw [wrapTextToWidth_eq]
  refine flatMap_splitWords_groups (FirstFit.isFirstFit_firstFit _ _) fun word hword => ?_
  rw [wordsOf_eq_filter] at hword
  exact mem_splitWords (List.mem_filter.mp hword).1

/-- What the parser makes of a single paragraph, the marker of its last line taken off. -/
theorem modifyLast_wrapLinesToWidth (culture : CompareInfo) (measure : TextMeasure) (text : Text)
    (maxWidth fontSize : ℚ) :
    (wrapLinesToWidth measure [text] maxWidth fontSize).modifyLast (removeLastLineMarker culture) =
      paragraphLines measure maxWidth fontSize text := by
  rw [wrapLinesToWidth_eq, List.flatMap_singleton, modifyLast_markLast]

/-- The two line breakers agree on a text exactly when none of its words at blanks is white space
throughout. -/
theorem wrapTextToWidth_eq_wrapLinesToWidth_iff (culture : CompareInfo) (measure : TextMeasure)
    (text : Text) (maxWidth fontSize : ℚ) :
    wrapTextToWidth measure text maxWidth fontSize =
        (wrapLinesToWidth measure [text] maxWidth fontSize).modifyLast
          (removeLastLineMarker culture) ↔
      ∀ word ∈ splitWords text, isNullOrWhiteSpace word = false := by
  rw [modifyLast_wrapLinesToWidth]
  constructor
  · intro h word hword
    have hwords : wordsOf text = splitWords text := by
      rw [← words_wrapTextToWidth measure text maxWidth fontSize, h]
      exact (brokenParagraph_paragraphLines measure maxWidth fontSize text).words
    rw [← hwords] at hword
    exact not_blank_of_mem_wordsOf hword
  · intro hwords
    have heq : wordsOf text = splitWords text := by
      rw [wordsOf_eq_filter, List.filter_eq_self]
      intro word hword
      rw [hwords word hword]
      rfl
    rw [wrapTextToWidth_eq, heq]
    rfl

/-- A text of one tabulator: the renderer draws nothing, the parser has a line. -/
theorem wrapTextToWidth_drops_tabulator :
    wrapTextToWidth (fun _ _ => 0) [0x09] 10 13 ≠
      (wrapLinesToWidth (fun _ _ => 0) [[0x09]] 10 13).modifyLast
        (removeLastLineMarker .ordinal) := by
  decide +kernel

end Agreement

end PageRenderer

end Typesetting
