/-
# Typesetting.Services.PointedLines -- lines of a text with vowel points

A pointed text and the text without its points are broken alike, as long as no word consists of
points: their words correspond, and a line measures what it measures without its points. First fit
decides by the measure alone.
-/
import Typesetting.Services.LineBreaking
import Typesetting.Services.MeasureTextWidth

namespace Typesetting

namespace TextParser

/-- No word of the paragraph consists of points and accents. -/
def KeepsWords (paragraph : Text) : Prop :=
  ∀ word ∈ splitWords paragraph, removeNikkud word ≠ []

theorem isNikkudChar_space : isNikkudChar space = false := by decide

/-! ## The words without points -/

theorem filter_not_isNikkudChar :
    (List.filter fun c => !isNikkudChar c) = removeNikkud :=
  funext fun text => (removeNikkud_eq text).symm

theorem splitWords_removeNikkud {paragraph : Text} (h : KeepsWords paragraph) :
    splitWords (removeNikkud paragraph) = (splitWords paragraph).map removeNikkud := by
  have hkeep : ∀ c : UInt16, (c == space) = true → (!isNikkudChar c) = true := by
    intro c hc
    rw [beq_iff_eq.mp hc, isNikkudChar_space]
    rfl
  have hwords : splitWords (removeNikkud paragraph) =
      ((splitWords paragraph).map removeNikkud).filter fun w => !w.isEmpty := by
    rw [removeNikkud_eq, ← filter_not_isNikkudChar]
    exact Segment.words_filter hkeep paragraph
  rw [hwords, List.filter_eq_self]
  intro w hw
  obtain ⟨word, hword, rfl⟩ := List.mem_map.mp hw
  simpa using h word hword

theorem removeNikkud_joinWith (words : List Text) :
    removeNikkud (joinWith [space] words) = joinWith [space] (words.map removeNikkud) := by
  rw [removeNikkud_eq, ← filter_not_isNikkudChar]
  exact Segment.filter_intercalate (by simp [isNikkudChar_space]) words

theorem removeNikkud_ne_nil {text : Text} (h : removeNikkud text ≠ []) : text ≠ [] := by
  rintro rfl
  exact h rfl

/-- Joined words that keep a character measure the same without their points. -/
theorem measuredWidth_joinWith (fonts : Fonts) (fontFamily : Text) (fontSize : ℚ)
    {words : List Text} (hne : words ≠ []) (hwords : ∀ word ∈ words, removeNikkud word ≠ []) :
    measuredWidth fonts fontFamily (joinWith [space] (words.map removeNikkud)) fontSize =
      measuredWidth fonts fontFamily (joinWith [space] words) fontSize := by
  have hstripped : ∀ word ∈ words.map removeNikkud, word ≠ [] := by
    intro w hw
    obtain ⟨word, hword, rfl⟩ := List.mem_map.mp hw
    exact hwords word hword
  have hjoined : removeNikkud (joinWith [space] words) ≠ [] := by
    rw [removeNikkud_joinWith]
    exact (Segment.intercalate_eq_nil_iff hstripped).not.mpr (by simpa using hne)
  rw [← removeNikkud_joinWith]
  exact measuredWidth_congr fontFamily fontSize hjoined (removeNikkud_ne_nil hjoined)
    (removeNikkud_idem _)

/-! ## The lines without points -/

theorem paragraphLines_removeNikkud (fonts : Fonts) (fontFamily : Text) (maxWidth fontSize : ℚ)
    {paragraph : Text} (h : KeepsWords paragraph) :
    paragraphLines (measuredWidth fonts fontFamily) maxWidth fontSize (removeNikkud paragraph) =
      (paragraphLines (measuredWidth fonts fontFamily) maxWidth fontSize paragraph).map
        removeNikkud := by
  have hgroups : FirstFit.firstFit (FitsWidth (measuredWidth fonts fontFamily) maxWidth fontSize)
        ((splitWords paragraph).map removeNikkud) =
      (FirstFit.firstFit (FitsWidth (measuredWidth fonts fontFamily) maxWidth fontSize)
        (splitWords paragraph)).map (List.map removeNikkud) := by
    refine FirstFit.firstFit_map removeNikkud (splitWords paragraph) fun g hne hg => ?_
    show measuredWidth fonts fontFamily (joinWith [space] (g.map removeNikkud)) fontSize ≤ _ ↔ _
    rw [measuredWidth_joinWith fonts fontFamily fontSize hne fun word hword =>
      h word (hg word hword)]
    rfl
  unfold paragraphLines
  rw [splitWords_removeNikkud h, hgroups, List.map_map, List.map_map]
  exact List.map_congr_left fun g _ => (removeNikkud_joinWith g).symm

theorem markLast_removeNikkud (lines : List Text) :
    (markLast lines).map removeNikkud = markLast (lines.map removeNikkud) := by
  have hmarker : removeNikkud [lastLineMarker] = [lastLineMarker] := by decide
  rcases markLast_cases lines with ⟨rfl, -⟩ | ⟨before, line, rfl, hmarked⟩
  · rfl
  · rw [hmarked, List.map_append, List.map_singleton, removeNikkud_append, hmarker,
      List.map_append, List.map_singleton, markLast_concat]

/-- Lines without points are the lines of the text without points. -/
theorem wrapLinesToWidth_removeNikkud (fonts : Fonts) (fontFamily : Text)
    (paragraphs : List Text) (maxWidth fontSize : ℚ)
    (hwords : ∀ paragraph ∈ paragraphs, ∀ word ∈ splitWords paragraph, removeNikkud word ≠ []) :
    (wrapLinesToWidth (measuredWidth fonts fontFamily) paragraphs maxWidth fontSize).map
        removeNikkud =
      wrapLinesToWidth (measuredWidth fonts fontFamily) (paragraphs.map removeNikkud) maxWidth
        fontSize := by
  rw [wrapLinesToWidth_eq, wrapLinesToWidth_eq, List.map_flatMap, List.flatMap_map]
  refine List.flatMap_congr fun paragraph hparagraph => ?_
  rw [markLast_removeNikkud,
    paragraphLines_removeNikkud fonts fontFamily maxWidth fontSize (hwords paragraph hparagraph)]

/-- Two words with points, of which a line takes one. -/
theorem wrapLinesToWidth_removeNikkud_two_words :
    (wrapLinesToWidth (measuredWidth monospaced LayoutConstants.fontMain)
          [utf16 "שָׁלוֹם עוֹלָם"] 40 13).map removeNikkud =
      wrapLinesToWidth (measuredWidth monospaced LayoutConstants.fontMain)
        ([utf16 "שָׁלוֹם עוֹלָם"].map removeNikkud) 40 13 :=
  wrapLinesToWidth_removeNikkud monospaced LayoutConstants.fontMain _ 40 13 (by decide +kernel)

end TextParser

end Typesetting
