/-
# Typesetting.Rendering.DrawnWidth -- lines as they are measured and as they are drawn

The line breaker measures a line without the characters from U+05B0 to U+05C7, the renderer draws
all of it. Most of these characters are points and accents, which take no room. Four of them are
punctuation and do: maqaf, paseq, sof pasuq and nun hafukha. A line with one of them may be drawn
wider than it was measured; without them what is drawn is what was measured, in a font size that is
given in points for measuring and used as pixels for drawing.

A font is known by the advances of its characters. They are zero exactly for nonspacing marks and
do not shrink when the font grows.
-/
import Mathlib.Algebra.Order.BigOperators.Group.List
import Mathlib.Tactic.FieldSimp
import Mathlib.Tactic.Linarith
import Typesetting.Rendering.PageRenderer
import Typesetting.Services.LastLineMarker
import Typesetting.Services.PointedLines
import Typesetting.Services.WrapText

namespace Typesetting

namespace PageRenderer

open TextParser

/-- The characters between the first and the last point that are no nonspacing marks. -/
def isPunctuation (c : UInt16) : Bool :=
  c == 0x05BE || c == 0x05C0 || c == 0x05C3 || c == 0x05C6

/-- The Unicode category Mn, of which two things are used. -/
structure NonspacingMarks where
  isNonspacing : UInt16 → Bool
  nikkud : ∀ c, isNikkudChar c = true → isNonspacing c = !isPunctuation c
  blank : isNonspacing space = false

/-- The advances of the characters of a font, by the size in pixels. -/
structure FontAdvances (marks : NonspacingMarks) where
  advance : ℚ → UInt16 → ℚ
  nonspacing : ∀ pixels c, marks.isNonspacing c = true → advance pixels c = 0
  spacing : ∀ pixels c, 0 < pixels → marks.isNonspacing c = false → 0 < advance pixels c
  grows : ∀ c small large, 0 < small → small ≤ large → advance small c ≤ advance large c

section Advances

variable {marks : NonspacingMarks} (font : FontAdvances marks)

/-- The width of a text is the sum of the advances. -/
def textAdvance (pixels : ℚ) (text : Text) : ℚ :=
  (text.map (font.advance pixels)).sum

/-- What the machine answers with such a font. -/
def FontAdvances.fonts (formatSize : ℚ → Text) : Fonts where
  formattedWidth text pixels _ := some (textAdvance font pixels text)
  formatSize := formatSize

/-- The width of a child of the canvas; a text block uses its font size as pixels. -/
def drawnWidth (c : Child) : ℚ :=
  match c.shape with
  | .rectangle _ _ width _ => width
  | .line x1 _ x2 _ _ => |x2 - x1|
  | .textBlock text _ _ fontSize => textAdvance font fontSize text

/-- Lines of two or more words fit the column when a word of their text is drawn. -/
def FitsAsDrawn (culture : CompareInfo) (formatSize : ℚ → Text) (fontFamily : Text)
    (paragraphs : List Text) (maxWidth fontSize : ℚ) : Prop :=
  let measure := measuredWidth (font.fonts formatSize) fontFamily
  ∀ line ∈ wrapLinesToWidth measure paragraphs maxWidth fontSize,
    2 ≤ (splitWords (removeLastLineMarker culture line)).length →
      ∀ layer x y, drawnWidth font
        (drawWord measure layer (removeLastLineMarker culture line) x y fontSize) ≤ maxWidth

/-! ## Sums of advances -/

variable {font} {pixels : ℚ} {text part : Text}

theorem advance_nonneg (hpixels : 0 < pixels) (c : UInt16) : 0 ≤ font.advance pixels c := by
  cases hc : marks.isNonspacing c with
  | true => rw [font.nonspacing pixels c hc]
  | false => exact (font.spacing pixels c hpixels hc).le

theorem textAdvance_le_of_sublist (hpixels : 0 < pixels) (h : part.Sublist text) :
    textAdvance font pixels part ≤ textAdvance font pixels text := by
  refine (h.map (font.advance pixels)).sum_le_sum fun width hwidth => ?_
  obtain ⟨c, -, rfl⟩ := List.mem_map.mp hwidth
  exact advance_nonneg hpixels c

theorem advance_le_textAdvance (hpixels : 0 < pixels) {c : UInt16} (hc : c ∈ text) :
    font.advance pixels c ≤ textAdvance font pixels text := by
  have hsingle : textAdvance font pixels [c] ≤ textAdvance font pixels text :=
    textAdvance_le_of_sublist hpixels (List.singleton_sublist.mpr hc)
  simpa [textAdvance] using hsingle

theorem textAdvance_mono {small large : ℚ} (hsmall : 0 < small) (hle : small ≤ large) :
    textAdvance font small text ≤ textAdvance font large text :=
  List.sum_le_sum fun c _ => font.grows c small large hsmall hle

/-- A text without punctuation loses no width with its points. -/
theorem textAdvance_removeNikkud (h : ∀ c ∈ text, isPunctuation c = false) :
    textAdvance font pixels (removeNikkud text) = textAdvance font pixels text := by
  rw [removeNikkud_eq]
  unfold textAdvance
  induction text with
  | nil => rfl
  | cons c cs ih =>
      have hrest := ih fun d hd => h d (List.mem_cons_of_mem c hd)
      cases hc : isNikkudChar c with
      | true =>
          have hzero : font.advance pixels c = 0 := by
            apply font.nonspacing
            rw [marks.nikkud c hc, h c List.mem_cons_self]
            rfl
          rw [List.filter_cons_of_neg (by simp [hc]), hrest, List.map_cons, List.sum_cons, hzero,
            zero_add]
      | false =>
          rw [List.filter_cons_of_pos (by simp [hc]), List.map_cons, List.sum_cons, hrest,
            List.map_cons, List.sum_cons]

/-- What is measured is what is left without the points, in pixels. -/
theorem measuredWidth_fonts (formatSize : ℚ → Text) (fontFamily text : Text) (fontSize : ℚ) :
    measuredWidth (font.fonts formatSize) fontFamily text fontSize =
      textAdvance font (fontSize * (96 / 72)) (removeNikkud text) := by
  unfold measuredWidth
  by_cases hnil : text = []
  · subst hnil
    rfl
  · rw [measureTextWidth_of_ne_nil _ hnil, Memo.call_empty_fst]
    rfl

end Advances

/-! ## The lines of the breaker -/

section Lines

variable {measure : TextMeasure} {maxWidth fontSize : ℚ} {paragraph : Text}
  {paragraphs : List Text}

/-- A line without its marker begins a line of a paragraph. -/
theorem prefix_of_mem_wrapLinesToWidth (culture : CompareInfo) {line : Text}
    (h : line ∈ wrapLinesToWidth measure paragraphs maxWidth fontSize) :
    ∃ paragraph ∈ paragraphs, ∃ l ∈ paragraphLines measure maxWidth fontSize paragraph,
      removeLastLineMarker culture line <+: l := by
  rw [wrapLinesToWidth_eq, List.mem_flatMap] at h
  obtain ⟨paragraph, hparagraph, hline⟩ := h
  obtain ⟨l, hl, rfl | rfl⟩ := mem_markLast hline
  · refine ⟨paragraph, hparagraph, line, hl, ?_⟩
    unfold removeLastLineMarker
    split
    · exact List.dropLast_prefix line
    · exact List.prefix_rfl
  · refine ⟨paragraph, hparagraph, l, hl, ?_⟩
    rw [removeLastLineMarker_marked]

/-- The words of a line are words of its paragraph. -/
theorem words_of_mem_paragraphLines {l : Text}
    (h : l ∈ paragraphLines measure maxWidth fontSize paragraph) :
    (splitWords l).Sublist (splitWords paragraph) := by
  have hbroken := brokenParagraph_paragraphLines measure maxWidth fontSize paragraph
  rw [← hbroken.words, List.flatMap_def]
  exact List.sublist_flatten_of_mem (List.mem_map_of_mem h)

theorem exists_mem_splitWords_iff {text : Text} {c : UInt16} :
    (∃ word ∈ splitWords text, c ∈ word) ↔ c ∈ text ∧ (c == space) = false :=
  Segment.exists_mem_words_iff

theorem mem_paragraph_of_mem_line {l : Text}
    (h : l ∈ paragraphLines measure maxWidth fontSize paragraph) {c : UInt16} (hc : c ∈ l)
    (hspace : (c == space) = false) : c ∈ paragraph := by
  obtain ⟨word, hword, hmem⟩ := exists_mem_splitWords_iff.mpr ⟨hc, hspace⟩
  exact (exists_mem_splitWords_iff.mp
    ⟨word, (words_of_mem_paragraphLines h).subset hword, hmem⟩).1

/-- A paragraph of which every beginning is narrow enough has one line. -/
theorem mem_wrapLinesToWidth_of_fits (hmem : paragraph ∈ paragraphs)
    (hwords : splitWords paragraph ≠ [])
    (hfits : ∀ k, k <+: splitWords paragraph → measure (joinWith [space] k) fontSize ≤ maxWidth) :
    joinWith [space] (splitWords paragraph) ++ [lastLineMarker] ∈
      wrapLinesToWidth measure paragraphs maxWidth fontSize := by
  have hfirst := FirstFit.isFirstFit_firstFit (FitsWidth measure maxWidth fontSize)
    (splitWords paragraph)
  rw [wrapLinesToWidth_eq, List.mem_flatMap]
  refine ⟨paragraph, hmem, ?_⟩
  rw [paragraphLines, hfirst.eq_singleton hwords fun k hk _ => hfits k hk, List.map_singleton]
  exact List.mem_cons_self

end Lines

/-! ## A font that lets only the punctuation be seen -/

/-- Punctuation of the given width, everything else that takes room as narrow as given. -/
def wideFont (marks : NonspacingMarks) (wide narrow : ℚ) (hwide : 0 < wide) (hnarrow : 0 < narrow) :
    FontAdvances marks where
  advance pixels c :=
    if marks.isNonspacing c then 0
    else if isPunctuation c then pixels * wide
    else pixels * narrow
  nonspacing _ _ hc := if_pos hc
  spacing pixels c hpixels hc := by
    simp only [hc, Bool.false_eq_true, if_false]
    split
    · exact mul_pos hpixels hwide
    · exact mul_pos hpixels hnarrow
  grows c small large _ hle := by
    split
    · exact le_rfl
    · split
      · exact mul_le_mul_of_nonneg_right hle hwide.le
      · exact mul_le_mul_of_nonneg_right hle hnarrow.le

section Fits

variable {marks : NonspacingMarks} {font : FontAdvances marks} {culture : CompareInfo}
  {formatSize : ℚ → Text} {fontFamily : Text} {paragraphs : List Text} {maxWidth fontSize : ℚ}

/-- The paragraphs of two or more words hold no punctuation. -/
def NoPunctuation (paragraphs : List Text) : Prop :=
  ∀ paragraph ∈ paragraphs, 2 ≤ (splitWords paragraph).length →
    ∀ c ∈ paragraph, isPunctuation c = false

/-- Two words are separated by a blank. -/
theorem space_mem_of_two_words {l : Text} (h : 2 ≤ (splitWords l).length) : space ∈ l := by
  by_contra hnone
  have hclean : ∀ c ∈ l, (c == space) = false := by
    intro c hc
    rw [beq_eq_false_iff_ne]
    rintro rfl
    exact hnone hc
  have hwords : splitWords l = if l = [] then [] else [l] := Segment.words_clean_eq hclean
  rw [hwords] at h
  split at h
  · cases h
  · rw [List.length_singleton] at h
    omega

/-- A line of two words has a blank, and with it a width. -/
theorem measured_pos (hsize : 0 < fontSize) {l : Text} (h : 2 ≤ (splitWords l).length) :
    0 < measuredWidth (font.fonts formatSize) fontFamily l fontSize := by
  have hpixels : 0 < fontSize * (96 / 72) := by linarith
  have hkept : space ∈ removeNikkud l := by
    rw [removeNikkud_eq, List.mem_filter]
    exact ⟨space_mem_of_two_words h, by rw [isNikkudChar_space]; rfl⟩
  rw [measuredWidth_fonts]
  exact (font.spacing _ space hpixels marks.blank).trans_le (advance_le_textAdvance hpixels hkept)

/-- Without punctuation a line is drawn no wider than it was measured. -/
theorem fitsAsDrawn_of_noPunctuation (hsize : 0 < fontSize)
    (h : maxWidth ≤ 0 ∨ NoPunctuation paragraphs) :
    FitsAsDrawn font culture formatSize fontFamily paragraphs maxWidth fontSize := by
  rintro line hline hwords layer x y
  obtain ⟨paragraph, hparagraph, l, hl, hpre⟩ := prefix_of_mem_wrapLinesToWidth culture hline
  have htwo : 2 ≤ (splitWords l).length := by
    obtain ⟨rest, rfl⟩ := hpre
    exact hwords.trans (Segment.length_words_le_append _ rest)
  have hmeasured : measuredWidth (font.fonts formatSize) fontFamily l fontSize ≤ maxWidth :=
    (brokenParagraph_paragraphLines _ maxWidth fontSize paragraph).width l hl htwo
  rcases h with hnarrow | hnone
  · exact absurd (hmeasured.trans hnarrow) (not_le.mpr (measured_pos hsize htwo))
  · have htwoParagraph := htwo.trans (words_of_mem_paragraphLines hl).length_le
    have hclean : ∀ c ∈ l, isPunctuation c = false := by
      intro c hc
      cases hspace : c == space with
      | true =>
          rw [beq_iff_eq.mp hspace]
          decide
      | false =>
          exact hnone paragraph hparagraph htwoParagraph c (mem_paragraph_of_mem_line hl hc hspace)
    calc textAdvance font fontSize (removeLastLineMarker culture line)
        ≤ textAdvance font fontSize l := textAdvance_le_of_sublist hsize hpre.sublist
      _ = textAdvance font fontSize (removeNikkud l) := (textAdvance_removeNikkud hclean).symm
      _ ≤ textAdvance font (fontSize * (96 / 72)) (removeNikkud l) :=
          textAdvance_mono hsize (by linarith)
      _ = measuredWidth (font.fonts formatSize) fontFamily l fontSize :=
          (measuredWidth_fonts formatSize fontFamily l fontSize).symm
      _ ≤ maxWidth := hmeasured

theorem isNikkudChar_of_isPunctuation {c : UInt16} (h : isPunctuation c = true) :
    isNikkudChar c = true := by
  have hcases : ((c = 0x05BE ∨ c = 0x05C0) ∨ c = 0x05C3) ∨ c = 0x05C6 := by
    simpa [isPunctuation] using h
  rcases hcases with ((rfl | rfl) | rfl) | rfl <;> decide

section WideFont

variable {wide narrow : ℚ} (hwide : 0 < wide) (hnarrow : 0 < narrow)

/-- What is measured has no punctuation, so it is narrow. -/
theorem measured_wideFont_le (hsize : 0 < fontSize) (text : Text) :
    measuredWidth ((wideFont marks wide narrow hwide hnarrow).fonts formatSize) fontFamily text
        fontSize ≤ text.length * (fontSize * (96 / 72) * narrow) := by
  have hpixels : 0 < fontSize * (96 / 72) * narrow := mul_pos (by linarith) hnarrow
  have hchar : ∀ width ∈ (removeNikkud text).map
      ((wideFont marks wide narrow hwide hnarrow).advance (fontSize * (96 / 72))),
      width ≤ fontSize * (96 / 72) * narrow := by
    intro width hwidth
    obtain ⟨c, hc, rfl⟩ := List.mem_map.mp hwidth
    rw [removeNikkud_eq, List.mem_filter] at hc
    have hplain : isPunctuation c = false := by
      by_contra hpunctuation
      rw [Bool.not_eq_false] at hpunctuation
      simp [isNikkudChar_of_isPunctuation hpunctuation] at hc
    show (if marks.isNonspacing c then 0 else if isPunctuation c then _ else _) ≤ _
    rw [hplain]
    split
    · exact hpixels.le
    · exact le_rfl
  have hlen : (removeNikkud text).length ≤ text.length := by
    rw [removeNikkud_eq]
    exact List.length_filter_le _ _
  rw [measuredWidth_fonts]
  calc textAdvance (wideFont marks wide narrow hwide hnarrow) (fontSize * (96 / 72))
        (removeNikkud text)
      ≤ (removeNikkud text).length • (fontSize * (96 / 72) * narrow) := by
        have hsum := List.sum_le_card_nsmul _ _ hchar
        rwa [List.length_map] at hsum
    _ ≤ text.length * (fontSize * (96 / 72) * narrow) := by
        rw [nsmul_eq_mul]
        exact mul_le_mul_of_nonneg_right (Nat.cast_le.mpr hlen) hpixels.le

/-- What is drawn has it all. -/
theorem le_textAdvance_wideFont (hsize : 0 < fontSize) {text : Text} {c : UInt16} (hc : c ∈ text)
    (hpunctuation : isPunctuation c = true) :
    fontSize * wide ≤ textAdvance (wideFont marks wide narrow hwide hnarrow) fontSize text := by
  have hspacing : marks.isNonspacing c = false := by
    rw [marks.nikkud c (isNikkudChar_of_isPunctuation hpunctuation), hpunctuation]
    rfl
  have hadvance : (wideFont marks wide narrow hwide hnarrow).advance fontSize c =
      fontSize * wide := by
    show (if marks.isNonspacing c then 0 else if isPunctuation c then _ else _) = _
    rw [hspacing, hpunctuation]
    rfl
  rw [← hadvance]
  exact advance_le_textAdvance hsize hc

end WideFont

/-- The whole paragraph as a line has the words of the paragraph, and all its characters but
blanks. -/
theorem splitWords_wholeLine (paragraph : Text) :
    splitWords (joinWith [space] (splitWords paragraph)) = splitWords paragraph :=
  splitWords_joinWith fun _ hword => mem_splitWords hword

theorem mem_wholeLine {paragraph : Text} {c : UInt16} (hc : c ∈ paragraph)
    (hspace : (c == space) = false) : c ∈ joinWith [space] (splitWords paragraph) := by
  obtain ⟨word, hword, hcword⟩ := exists_mem_splitWords_iff.mpr ⟨hc, hspace⟩
  rw [← splitWords_wholeLine] at hword
  exact (exists_mem_splitWords_iff.mp ⟨word, hword, hcword⟩).1

/-- A line that begins another is no longer. -/
theorem length_joinWith_le {words k : List Text} (h : k <+: words) :
    (joinWith [space] k).length ≤ (joinWith [space] words).length := by
  have hall : FitsChars (joinWith [space] words).length words := le_refl _
  have hpart : ((joinWith [space] k).length : Int) ≤ (joinWith [space] words).length :=
    hall.infix h.isInfix
  exact_mod_cast hpart

/-- Characters can be so narrow that a text just takes the width of the column. -/
theorem exists_narrow {n pixels : ℚ} (hn : 0 < n) (hpixels : 0 < pixels) (hwidth : 0 < maxWidth) :
    ∃ narrow : ℚ, 0 < narrow ∧ n * (pixels * narrow) = maxWidth := by
  refine ⟨maxWidth / (pixels * n), div_pos hwidth (mul_pos hpixels hn), ?_⟩
  field_simp

/-- With punctuation in a paragraph of two words some font draws a line too wide. -/
theorem exists_not_fitsAsDrawn (hsize : 0 < fontSize) (hwidth : 0 < maxWidth)
    (h : ¬ NoPunctuation paragraphs) :
    ∃ font : FontAdvances marks,
      ¬ FitsAsDrawn font culture formatSize fontFamily paragraphs maxWidth fontSize := by
  simp only [NoPunctuation, not_forall, Bool.not_eq_false] at h
  obtain ⟨paragraph, hparagraph, htwo, c, hc, hpunctuation⟩ := h
  have hne : splitWords paragraph ≠ [] := List.ne_nil_of_length_pos (by omega)
  have hcspace : (c == space) = false := by
    rw [beq_eq_false_iff_ne]
    rintro rfl
    exact absurd hpunctuation (by decide)
  have hmem := mem_wholeLine hc hcspace
  have hlen : (0 : ℚ) < (joinWith [space] (splitWords paragraph)).length :=
    Nat.cast_pos.mpr (List.length_pos_of_mem hmem)
  have hpixels : 0 < fontSize * (96 / 72) := by linarith
  -- a font in which the whole paragraph just fits a line when it is measured
  obtain ⟨narrow, hnarrow, hfull⟩ := exists_narrow hlen hpixels hwidth
  have hwide : 0 < maxWidth / fontSize + 1 := add_pos (div_pos hwidth hsize) one_pos
  refine ⟨wideFont marks _ narrow hwide hnarrow, fun hfits => ?_⟩
  have hline := hfits _ (mem_wrapLinesToWidth_of_fits hparagraph hne fun k hk => by
    refine (measured_wideFont_le hwide hnarrow hsize _).trans ?_
    rw [← hfull]
    exact mul_le_mul_of_nonneg_right (Nat.cast_le.mpr (length_joinWith_le hk))
      (mul_pos hpixels hnarrow).le)
  rw [removeLastLineMarker_marked, splitWords_wholeLine] at hline
  -- and the punctuation alone fills the column when it is drawn
  have hdrawn := (le_textAdvance_wideFont hwide hnarrow hsize hmem hpunctuation).trans
    (hline htwo .mainText 0 0)
  rw [mul_add, mul_div_cancel₀ _ hsize.ne', mul_one] at hdrawn
  linarith

/-- Whatever the advances of the font, every line of two or more words fits the column as it is
drawn exactly when the column has no width or no paragraph of two or more words has a maqaf, a
paseq, a sof pasuq or a nun hafukha. -/
theorem wrapLinesToWidth_fitsAsDrawn_iff (marks : NonspacingMarks) (culture : CompareInfo)
    (formatSize : ℚ → Text) (fontFamily : Text) (paragraphs : List Text) (maxWidth : ℚ)
    (hsize : 0 < fontSize) :
    (∀ font : FontAdvances marks,
        FitsAsDrawn font culture formatSize fontFamily paragraphs maxWidth fontSize) ↔
      maxWidth ≤ 0 ∨ ∀ paragraph ∈ paragraphs, 2 ≤ (splitWords paragraph).length →
        ∀ c ∈ paragraph, isPunctuation c = false := by
  constructor
  · intro hall
    by_contra hnot
    rw [not_or, not_le] at hnot
    obtain ⟨font, hfont⟩ := exists_not_fitsAsDrawn hsize hnot.1 hnot.2
    exact hfont (hall font)
  · intro h font
    exact fitsAsDrawn_of_noPunctuation hsize h

end Fits

/-- The nonspacing marks among the points and accents. -/
def hebrewMarks : NonspacingMarks where
  isNonspacing c := isNikkudChar c && !isPunctuation c
  nikkud c hc := by rw [hc, Bool.true_and]
  blank := by decide

/-- A font in which every character that takes room is half as wide as the font is high. -/
def halfEm : FontAdvances hebrewMarks where
  advance pixels c := if hebrewMarks.isNonspacing c then 0 else pixels / 2
  nonspacing _ _ hc := if_pos hc
  spacing pixels c hpixels hc := by
    simp only [hc, Bool.false_eq_true, if_false]
    linarith
  grows c small large _ hle := by
    split
    · exact le_rfl
    · linarith

/-- A pointed text without punctuation. -/
theorem wrapLinesToWidth_fitsAsDrawn_points :
    FitsAsDrawn halfEm .ordinal monospaced.formatSize LayoutConstants.fontMain
      [utf16 "שָׁלוֹם עוֹלָם"] 40 12 := by
  have hclean : ((utf16 "שָׁלוֹם עוֹלָם").all fun c => !isPunctuation c) = true := by
    decide +kernel
  refine (wrapLinesToWidth_fitsAsDrawn_iff hebrewMarks .ordinal monospaced.formatSize
    LayoutConstants.fontMain [utf16 "שָׁלוֹם עוֹלָם"] 40 (by norm_num)).mpr (.inr ?_) halfEm
  intro paragraph hparagraph _ c hc
  obtain rfl := List.mem_singleton.mp hparagraph
  rw [← Bool.not_eq_true']
  exact List.all_eq_true.mp hclean c hc

/-- Two words with a maqaf each: 40 pixels are measured, 42 are drawn. -/
theorem drawn_wider_than_measured :
    ¬ FitsAsDrawn halfEm .ordinal monospaced.formatSize LayoutConstants.fontMain
      [utf16 "א־ב ג־ד"] 40 12 := by
  intro h
  have hline := h (utf16 "א־ב ג־ד" ++ [lastLineMarker]) (by decide +kernel) (by decide +kernel)
    .mainText 0 0
  exact absurd hline (by decide +kernel)

end PageRenderer

end Typesetting
