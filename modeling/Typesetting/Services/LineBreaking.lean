/-
# Typesetting.Services.LineBreaking -- `WrapLinesToWidth` breaks paragraphs by first fit

The loop over the words of a paragraph is a line builder: the flag `isFirstWord` says that the
current line is empty, and a word that does not fit is put on a line of its own all the same. The
lines of a paragraph are therefore the first-fit groups of its words; the last one is marked.

Nothing is assumed of the measure. Only that no breaking has fewer lines needs that a part of a
line is no wider than the line.
-/
import Mathlib.Data.List.ModifyLast
import Typesetting.Lib.LineBuilder
import Typesetting.Services.TextParser

namespace Typesetting

namespace TextParser

/-- Words that measure at most `maxWidth` when they are joined by blanks. -/
abbrev FitsWidth (measure : TextMeasure) (maxWidth fontSize : ℚ) : List Text → Prop :=
  LineBuilder.FitsJoined space fun line => measure line fontSize ≤ maxWidth

/-- The lines of a paragraph, before the last one is marked. -/
def paragraphLines (measure : TextMeasure) (maxWidth fontSize : ℚ) (paragraph : Text) :
    List Text :=
  (FirstFit.firstFit (FitsWidth measure maxWidth fontSize) (splitWords paragraph)).map
    (joinWith [space])

/-- The marker behind the last line. -/
def markLast (lines : List Text) : List Text :=
  lines.modifyLast fun line => line ++ [lastLineMarker]

@[simp] theorem markLast_nil : markLast [] = [] := rfl

@[simp] theorem markLast_concat (lines : List Text) (line : Text) :
    markLast (lines ++ [line]) = lines ++ [line ++ [lastLineMarker]] :=
  List.modifyLast_concat _ _ _

/-- Nothing to mark, or lines and a last one, which gets the marker. -/
theorem markLast_cases (lines : List Text) :
    (lines = [] ∧ markLast lines = []) ∨
      ∃ before line, lines = before ++ [line] ∧
        markLast lines = before ++ [line ++ [lastLineMarker]] := by
  rcases List.eq_nil_or_concat lines with rfl | ⟨before, line, rfl⟩
  · exact .inl ⟨rfl, rfl⟩
  · right
    refine ⟨before, line, List.concat_eq_append, ?_⟩
    rw [List.concat_eq_append, markLast_concat]

theorem length_markLast (lines : List Text) : (markLast lines).length = lines.length := by
  rcases markLast_cases lines with ⟨rfl, -⟩ | ⟨before, line, rfl, hmarked⟩
  · rfl
  · rw [hmarked, List.length_append, List.length_append]
    rfl

theorem mem_markLast {lines : List Text} {line : Text} (h : line ∈ markLast lines) :
    ∃ l ∈ lines, line = l ∨ line = l ++ [lastLineMarker] := by
  rcases markLast_cases lines with ⟨-, hnone⟩ | ⟨before, last, rfl, hmarked⟩
  · rw [hnone] at h
    cases h
  · rw [hmarked, List.mem_append, List.mem_singleton] at h
    rcases h with h | rfl
    · exact ⟨line, List.mem_append_left _ h, .inl rfl⟩
    · exact ⟨last, List.mem_append_right _ List.mem_cons_self, .inr rfl⟩

/-! ## The loop and first fit -/

section Loop

variable {measure : TextMeasure} {maxWidth fontSize : ℚ} {result : List Text}
  {currentLine word : Text}

/-- The first word is put on the line whether it fits or not. -/
theorem wrapWord_start :
    wrapWord measure maxWidth fontSize ⟨result, [], true⟩ word = ⟨result, word, false⟩ := by
  by_cases hwidth : measure word fontSize ≤ maxWidth
  · simp [wrapWord, hwidth]
  · simp [wrapWord, hwidth]

theorem wrapWord_room
    (hroom : measure (currentLine ++ [space] ++ word) fontSize ≤ maxWidth) :
    wrapWord measure maxWidth fontSize ⟨result, currentLine, false⟩ word =
      ⟨result, currentLine ++ [space] ++ word, false⟩ := by
  unfold wrapWord
  simp only [Bool.false_eq_true, if_false]
  rw [if_pos hroom]

theorem wrapWord_full (hopen : currentLine ≠ [])
    (hfull : ¬ measure (currentLine ++ [space] ++ word) fontSize ≤ maxWidth) :
    wrapWord measure maxWidth fontSize ⟨result, currentLine, false⟩ word =
      ⟨result ++ [currentLine], word, false⟩ := by
  have hpos : 0 < currentLine.length := List.length_pos_of_ne_nil hopen
  unfold wrapWord
  simp only [Bool.false_eq_true, if_false]
  rw [if_neg hfull, if_pos hpos]
  rfl

/-- The flag of the loop is set as long as the current line is empty. -/
theorem isBuilder_wrapWord (measure : TextMeasure) (maxWidth fontSize : ℚ) :
    LineBuilder.IsBuilder space (fun line => measure line fontSize ≤ maxWidth) (fun line => line)
      WrapState.result WrapState.currentLine
      (fun st => st.isFirstWord = true ↔ st.currentLine = []) (wrapWord measure maxWidth fontSize) where
  good_step := by
    rintro ⟨result, currentLine, isFirstWord⟩ word hgood hword
    simp only at hgood ⊢
    by_cases hopen : currentLine = []
    · obtain rfl : isFirstWord = true := hgood.mpr hopen
      rw [hopen, wrapWord_start]
      simpa using hword
    · obtain rfl : isFirstWord = false := by simpa [hopen] using hgood
      by_cases hroom : measure (currentLine ++ [space] ++ word) fontSize ≤ maxWidth
      · rw [wrapWord_room hroom]
        simp
      · rw [wrapWord_full hopen hroom]
        simpa using hword
  start := by
    rintro ⟨result, currentLine, isFirstWord⟩ word hgood - hnil
    obtain rfl : currentLine = [] := hnil
    obtain rfl : isFirstWord = true := hgood.mpr rfl
    rw [wrapWord_start]
    exact ⟨rfl, rfl⟩
  room := by
    rintro ⟨result, currentLine, isFirstWord⟩ word hgood - hopen hroom
    simp only at hgood hopen
    obtain rfl : isFirstWord = false := by simpa [hopen] using hgood
    rw [wrapWord_room hroom]
    exact ⟨rfl, rfl⟩
  full := by
    rintro ⟨result, currentLine, isFirstWord⟩ word hgood - hopen hfull
    simp only at hgood hopen
    obtain rfl : isFirstWord = false := by simpa [hopen] using hgood
    rw [wrapWord_full hopen hfull]
    exact ⟨rfl, rfl⟩

end Loop

/-- Words at blanks are not empty and hold no blank. -/
theorem mem_splitWords {paragraph word : Text} (h : word ∈ splitWords paragraph) :
    word ≠ [] ∧ ∀ c ∈ word, (c == space) = false :=
  Segment.mem_words h

/-- The words of a joined line are those that were joined. -/
theorem splitWords_joinWith {words : List Text}
    (h : ∀ word ∈ words, word ≠ [] ∧ ∀ c ∈ word, (c == space) = false) :
    splitWords (joinWith [space] words) = words :=
  Segment.words_intercalate_of_clean (by simp) h

/-- Lines made of groups of words give the words back. -/
theorem flatMap_splitWords_groups {fits : List Text → Prop} {words : List Text}
    {groups : List (List Text)} (h : FirstFit.IsFirstFit fits words groups)
    (hwords : ∀ word ∈ words, word ≠ [] ∧ ∀ c ∈ word, (c == space) = false) :
    (groups.map (joinWith [space])).flatMap splitWords = words := by
  have hline : ∀ g ∈ groups, splitWords (joinWith [space] g) = g :=
    fun g hg => splitWords_joinWith fun word hword => hwords word (h.mem_of_mem_group hg hword)
  calc (groups.map (joinWith [space])).flatMap splitWords
      = groups.flatMap fun g => splitWords (joinWith [space] g) := List.flatMap_map _ _ _
    _ = groups.flatMap fun g => g := List.flatMap_congr hline
    _ = groups.flatten := List.flatten_eq_flatMap.symm
    _ = words := h.flatten

theorem wrapParagraph_eq (measure : TextMeasure) (maxWidth fontSize : ℚ) (result : List Text)
    (paragraph : Text) :
    wrapParagraph measure maxWidth fontSize result paragraph =
      result ++ markLast (paragraphLines measure maxWidth fontSize paragraph) := by
  have hrun := (isBuilder_wrapWord measure maxWidth fontSize).foldl ⟨result, [], true⟩
    (by simp) rfl rfl fun _ (hword : _ ∈ splitWords paragraph) => (mem_splitWords hword).1
  unfold wrapParagraph paragraphLines
  rcases hrun with ⟨hgroups, hlines, hcurrent⟩ | ⟨gs, g, hgroups, hlines, hcurrent, hne⟩
  · rw [if_neg (by simp [hcurrent]), hlines, hgroups, List.map_nil, markLast_nil, List.append_nil]
  · rw [if_pos (List.length_pos_of_ne_nil hne), hlines, hcurrent, hgroups, List.map_append,
      List.map_singleton, markLast_concat, List.append_assoc]
    rfl

/-- The paragraphs are broken one after another. -/
theorem wrapLinesToWidth_eq (measure : TextMeasure) (paragraphs : List Text)
    (maxWidth fontSize : ℚ) :
    wrapLinesToWidth measure paragraphs maxWidth fontSize =
      paragraphs.flatMap fun paragraph =>
        markLast (paragraphLines measure maxWidth fontSize paragraph) := by
  unfold wrapLinesToWidth
  simp only [funext₂ (wrapParagraph_eq measure maxWidth fontSize)]
  rw [List.foldl_append_eq_append, List.nil_append, List.flatMap_def]

/-! ## The lines of a paragraph -/

/-- No part of a line of the paragraph is wider than the line. -/
def PartsNarrower (measure : TextMeasure) (fontSize : ℚ) (paragraph : Text) : Prop :=
  ∀ line part, line <:+: splitWords paragraph → part <:+: line → part ≠ [] →
    measure (joinWith [space] part) fontSize ≤ measure (joinWith [space] line) fontSize

/-- A paragraph and its lines, without the marker. -/
structure BrokenParagraph (measure : TextMeasure) (maxWidth fontSize : ℚ) (paragraph : Text)
    (lines : List Text) : Prop where
  words : lines.flatMap splitWords = splitWords paragraph
  none : splitWords paragraph = [] → lines = []
  nonempty : ∀ line ∈ lines, splitWords line ≠ []
  width : ∀ line ∈ lines, 2 ≤ (splitWords line).length → measure line fontSize ≤ maxWidth
  /-- The first word of a line would have made the line before it too wide. -/
  full : lines.IsChain fun line next => ∀ word, (splitWords next).head? = some word →
    maxWidth < measure (line ++ [space] ++ word) fontSize
  least : PartsNarrower measure fontSize paragraph →
    IsLeast {n | ∃ groups,
        FirstFit.Breaking (FitsWidth measure maxWidth fontSize) (splitWords paragraph) groups ∧
          groups.length = n}
      lines.length

section Paragraph

variable {measure : TextMeasure} {maxWidth fontSize : ℚ} {paragraph : Text}
  {groups : List (List Text)}

/-- The words of a line are those of its group. -/
theorem splitWords_line (h : FirstFit.IsFirstFit (FitsWidth measure maxWidth fontSize)
    (splitWords paragraph) groups) {g : List Text} (hg : g ∈ groups) :
    splitWords (joinWith [space] g) = g :=
  splitWords_joinWith fun _ hword => mem_splitWords (h.mem_of_mem_group hg hword)

theorem brokenParagraph_of_isFirstFit (h : FirstFit.IsFirstFit
    (FitsWidth measure maxWidth fontSize) (splitWords paragraph) groups) :
    BrokenParagraph measure maxWidth fontSize paragraph (groups.map (joinWith [space])) where
  words := flatMap_splitWords_groups h fun _ hword => mem_splitWords hword
  none := by
    intro hnone
    rw [hnone] at h
    rw [h.eq_nil, List.map_nil]
  nonempty := by
    intro line hmem
    obtain ⟨g, hg, rfl⟩ := List.mem_map.mp hmem
    rw [splitWords_line h hg]
    exact h.nonempty g hg
  width := by
    intro line hmem hlen
    obtain ⟨g, hg, rfl⟩ := List.mem_map.mp hmem
    rw [splitWords_line h hg] at hlen
    exact h.fit g hg g List.prefix_rfl hlen
  full := by
    rw [List.isChain_map]
    refine h.full.imp_of_mem_imp fun g g' hg hg' hfull word hword => ?_
    rw [splitWords_line h hg'] at hword
    have hjoin : joinWith [space] (g ++ [word]) = joinWith [space] g ++ [space] ++ word :=
      Segment.intercalate_concat (h.nonempty g hg) word
    rw [← hjoin]
    exact not_le.mp (hfull word hword)
  least := by
    intro hparts
    rw [List.length_map]
    refine h.isLeast_length fun g hg hfits k hk hlen => ?_
    have hne : k ≠ [] := by
      rintro rfl
      simp at hlen
    exact (hparts g k hg hk hne).trans hfits

theorem brokenParagraph_paragraphLines (measure : TextMeasure) (maxWidth fontSize : ℚ)
    (paragraph : Text) :
    BrokenParagraph measure maxWidth fontSize paragraph
      (paragraphLines measure maxWidth fontSize paragraph) :=
  brokenParagraph_of_isFirstFit (FirstFit.isFirstFit_firstFit _ _)

end Paragraph

/-- `WrapLinesToWidth` breaks each paragraph, in order, and marks its last line. -/
theorem wrapLinesToWidth_lines (measure : TextMeasure) (paragraphs : List Text)
    (maxWidth fontSize : ℚ) :
    ∃ broken : List (List Text),
      wrapLinesToWidth measure paragraphs maxWidth fontSize = broken.flatMap markLast ∧
        List.Forall₂ (BrokenParagraph measure maxWidth fontSize) paragraphs broken := by
  refine ⟨paragraphs.map (paragraphLines measure maxWidth fontSize), ?_, ?_⟩
  · rw [wrapLinesToWidth_eq, List.flatMap_map]
  · rw [List.forall₂_map_right_iff, List.forall₂_same]
    intro paragraph _
    exact brokenParagraph_paragraphLines measure maxWidth fontSize paragraph

end TextParser

end Typesetting
