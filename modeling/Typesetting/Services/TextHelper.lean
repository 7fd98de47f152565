/-
# Typesetting.Services.TextHelper -- separating the main text from the notes, and wrapping

`ExtractContentAndFootnotes` runs `ExtractByTag` three times, for the tags `$$`, `%%` and `&&`,
each pass on the text the pass before left, and then cleans up the white space of what remains.
`ExtractByTag` scans from the left: where a tag opens and a closing tag follows, the trimmed
content between them becomes a note and the whole span is skipped; any other character, also
that of a tag nothing closes, goes to the remaining text.

`WrapText` fills lines of at most `maxCharsPerLine` characters word by word.

The search for the closing tag goes through a `CompareInfo`, so what is proved here holds for
every culture unless it names `CompareInfo.ordinal`.
-/
import Typesetting.Text.Utf16

namespace Typesetting

/-! ## `ExtractByTag` -/

/-- A tag is never empty; this is what lets every note move the scan forward. -/
structure Tag where
  text : Text
  nonempty : text ≠ []

/-- `"$$"`, the notes of system A -/
def footnoteTagA : Tag := ⟨utf16 "$$", by decide⟩

/-- `"%%"`, the notes of system B -/
def footnoteTagB : Tag := ⟨utf16 "%%", by decide⟩

/-- `"&&"`, the notes of system C -/
def footnoteTagC : Tag := ⟨utf16 "&&", by decide⟩

/-- The position of the closing tag when a tag opens at `i` and `IndexOf` finds one. -/
def closingTag? (culture : CompareInfo) (text : Text) (tag : Tag) (i : Nat) : Option Nat :=
  if i + tag.text.length ≤ text.length ∧ substring text i tag.text.length = tag.text then
    let start := i + tag.text.length
    let close := culture.indexOf text tag.text start
    -- the code asks for a positive index; none lies before the end of the opening tag
    if 0 < close then some close.toNat else none
  else none

/-- The closing tag stands after the opening one and inside the text. -/
theorem closingTag?_range {culture : CompareInfo} {text : Text} {tag : Tag} {i close : Nat}
    (h : closingTag? culture text tag i = some close) :
    substring text i tag.text.length = tag.text ∧
      i + tag.text.length ≤ close ∧ close ≤ text.length := by
  unfold closingTag? at h
  split at h
  · rename_i hopen
    simp only at h
    split at h
    · rename_i hpos
      have hrange := culture.indexOf_range text tag.text _ hopen.1 (by omega)
      rw [← Option.some.inj h]
      exact ⟨hopen.2, hrange.1, hrange.2⟩
    · cases h
  · cases h

/-- The scan from position `i`: the text kept so far and the notes found so far. -/
def extractByTagLoop (culture : CompareInfo) (text : Text) (tag : Tag)
    (i : Nat) (builder : Text) (results : List Text) : Text × List Text :=
  if hi : i < text.length then
    match hclose : closingTag? culture text tag i with
    | some close =>
      let start := i + tag.text.length
      let content := trim (substring text start (close - start))
      extractByTagLoop culture text tag (close + tag.text.length) builder (results ++ [content])
    | none =>
      -- also the characters of a tag that nothing closes stay in the text
      extractByTagLoop culture text tag (i + 1) (builder ++ [text[i]]) results
  else (builder, results)
termination_by text.length - i
decreasing_by
  · have hrange := closingTag?_range hclose
    have htag := List.length_pos_of_ne_nil tag.nonempty
    omega
  · omega

/-- `ExtractByTag(text, tag, results)` with an empty list of results: the remaining text and the
notes. -/
def extractByTag (culture : CompareInfo) (text : Text) (tag : Tag) : Text × List Text :=
  extractByTagLoop culture text tag 0 [] []

/-! ## `ExtractContentAndFootnotes` -/

/-- The result tuple `(mainText, footnotesA, footnotesB, footnotesC)`. -/
structure Extracted where
  mainText : Text
  footnotesA : List Text
  footnotesB : List Text
  footnotesC : List Text

/-- The three passes, before the white space is cleaned up. -/
def extractPasses (culture : CompareInfo) (rawText : Text) : Extracted :=
  let passA := extractByTag culture rawText footnoteTagA
  let passB := extractByTag culture passA.1 footnoteTagB
  let passC := extractByTag culture passB.1 footnoteTagC
  ⟨passC.1, passA.2, passB.2, passC.2⟩

def extractContentAndFootnotes (culture : CompareInfo) (rawText : Text) : Extracted :=
  let passes := extractPasses culture rawText
  { passes with mainText := trim (replaceWhiteSpaceRuns passes.mainText) }

/-! ## `WrapText` -/

/-- The body of the loop over the words; the state is `(lines, currentLine)`. -/
def wrapTextStep (maxCharsPerLine : Int) (st : List Text × Text) (word : Text) :
    List Text × Text :=
  let flushed :=
    -- one character for the blank is counted even at the start of a line
    if maxCharsPerLine < (st.2.length + word.length + 1 : Int) then
      if 0 < st.2.length then (st.1 ++ [trim st.2], []) else st
    else st
  let currentLine := if 0 < flushed.2.length then flushed.2 ++ [space] else flushed.2
  (flushed.1, currentLine ++ word)

/-- `c == ' ' || c == '\t'` -/
def isBlank (u : UInt16) : Bool :=
  u == 0x20 || u == 0x09

theorem isWhiteSpace_of_isBlank (c : UInt16) (h : isBlank c = true) : isWhiteSpace c = true := by
  rcases (by simpa [isBlank] using h : c = 0x20 ∨ c = 0x09) with rfl | rfl <;> decide

def wrapText (text : Text) (maxCharsPerLine : Int) : List Text :=
  if isNullOrWhiteSpace text then []
  else
    let st := (splitRemoveEmpty isBlank text).foldl (wrapTextStep maxCharsPerLine) ([], [])
    if 0 < st.2.length then st.1 ++ [trim st.2] else st.1

/-! ## What extraction leaves and where it comes from -/

section AnyCulture

variable {culture : CompareInfo}

theorem extractByTagLoop_sublist (text : Text) (tag : Tag) (i : Nat) (builder : Text)
    (results : List Text) :
    ∃ kept, (extractByTagLoop culture text tag i builder results).1 = builder ++ kept ∧
      kept.Sublist (text.drop i) := by
  fun_induction extractByTagLoop culture text tag i builder results with
  | case1 i builder results hi close hclose start content ih =>
      obtain ⟨kept, heq, hsub⟩ := ih
      have hrange := closingTag?_range hclose
      refine ⟨kept, heq, hsub.trans ?_⟩
      have hdrop : text.drop (close + tag.text.length) =
          (text.drop i).drop (close + tag.text.length - i) := by
        rw [List.drop_drop]
        congr 1
        omega
      rw [hdrop]
      exact List.drop_sublist _ _
  | case2 i builder results hi hclose ih =>
      obtain ⟨kept, heq, hsub⟩ := ih
      refine ⟨text[i] :: kept, by simpa using heq, ?_⟩
      rw [List.drop_eq_getElem_cons hi]
      exact hsub.cons_cons _
  | case3 i builder results hi => exact ⟨[], by simp, by simp⟩

/-- The remaining text is part of the text, in the same order. -/
theorem extractByTag_sublist (text : Text) (tag : Tag) :
    (extractByTag culture text tag).1.Sublist text := by
  obtain ⟨kept, heq, hsub⟩ := @extractByTagLoop_sublist culture text tag 0 [] []
  rw [List.drop_zero] at hsub
  rw [extractByTag, heq, List.nil_append]
  exact hsub

theorem extractPasses_sublist (rawText : Text) :
    (extractPasses culture rawText).mainText.Sublist rawText :=
  ((extractByTag_sublist _ footnoteTagC).trans (extractByTag_sublist _ footnoteTagB)).trans
    (extractByTag_sublist _ footnoteTagA)

/-- Without the first character of a tag there is no note. -/
theorem extractByTagLoop_of_not_mem {text : Text} {tag : Tag}
    (hnot : tag.text.head tag.nonempty ∉ text) (i : Nat) (builder : Text) (results : List Text) :
    extractByTagLoop culture text tag i builder results = (builder ++ text.drop i, results) := by
  fun_induction extractByTagLoop culture text tag i builder results with
  | case1 i builder results hi close hclose start content ih =>
      obtain ⟨hopen, -, -⟩ := closingTag?_range hclose
      refine absurd ?_ hnot
      have hmem : tag.text.head tag.nonempty ∈ substring text i tag.text.length := by
        rw [hopen]
        exact List.head_mem tag.nonempty
      exact List.mem_of_mem_drop (List.mem_of_mem_take hmem)
  | case2 i builder results hi hclose ih =>
      rw [ih, List.drop_eq_getElem_cons hi]
      simp
  | case3 i builder results hi => simp [List.drop_eq_nil_of_le (by omega : text.length ≤ i)]

theorem extractByTag_of_not_mem {text : Text} {tag : Tag}
    (hnot : tag.text.head tag.nonempty ∉ text) : extractByTag culture text tag = (text, []) := by
  rw [extractByTag, extractByTagLoop_of_not_mem hnot]
  simp

/-- A text without any of the characters `$`, `%` and `&` is all main text. -/
theorem extractPasses_of_no_tag {rawText : Text}
    (hA : footnoteTagA.text.head footnoteTagA.nonempty ∉ rawText)
    (hB : footnoteTagB.text.head footnoteTagB.nonempty ∉ rawText)
    (hC : footnoteTagC.text.head footnoteTagC.nonempty ∉ rawText) :
    extractPasses culture rawText = ⟨rawText, [], [], []⟩ := by
  simp only [extractPasses, extractByTag_of_not_mem hA, extractByTag_of_not_mem hB,
    extractByTag_of_not_mem hC]

/-- A blank text holds no note and no main text. -/
theorem extractPasses_of_blank {rawText : Text} (hblank : isNullOrWhiteSpace rawText = true) :
    extractPasses culture rawText = ⟨rawText, [], [], []⟩ := by
  have hws : ∀ c, isWhiteSpace c = false → c ∉ rawText := by
    intro c hc hmem
    have hall := List.all_eq_true.mp hblank c hmem
    rw [hc] at hall
    exact Bool.false_ne_true hall
  exact extractPasses_of_no_tag (hws _ (by decide)) (hws _ (by decide)) (hws _ (by decide))

/-! ## The main text is a single line -/

/-- The cleaned-up main text: the words outside the notes, with single blanks between them. -/
theorem extract_mainText (rawText : Text) :
    (extractContentAndFootnotes culture rawText).mainText =
      joinWith [space]
        (splitRemoveEmpty isWhiteSpace (extractPasses culture rawText).mainText) :=
  trim_replaceWhiteSpaceRuns _

/-- The only white space left in the main text is the blank. -/
theorem mem_mainText_isWhiteSpace {rawText : Text} {c : UInt16}
    (hc : c ∈ (extractContentAndFootnotes culture rawText).mainText)
    (hws : isWhiteSpace c = true) : c = space := by
  rw [extract_mainText] at hc
  rcases Segment.mem_intercalate hc with h | ⟨w, hw, hcw⟩
  · exact h
  · have hfalse := (Segment.mem_words hw).2 c hcw
    rw [hws] at hfalse
    cases hfalse

/-- Splitting the main text at separators other than the blank cannot cut it. -/
theorem split_mainText {isSeparator : UInt16 → Bool}
    (hsep : ∀ c, isSeparator c = true → isWhiteSpace c = true)
    (hspace : isSeparator space = false) (rawText : Text) :
    splitRemoveEmpty isSeparator (extractContentAndFootnotes culture rawText).mainText =
      if (extractContentAndFootnotes culture rawText).mainText = [] then []
      else [(extractContentAndFootnotes culture rawText).mainText] := by
  refine Segment.words_clean_eq fun c hc => ?_
  by_contra hne
  have htrue : isSeparator c = true := by simpa using hne
  have heq := mem_mainText_isWhiteSpace hc (hsep c htrue)
  rw [heq, hspace] at htrue
  cases htrue

theorem mainText_eq_nil_iff (rawText : Text) :
    (extractContentAndFootnotes culture rawText).mainText = [] ↔
      isNullOrWhiteSpace (extractPasses culture rawText).mainText = true := by
  rw [extract_mainText, isNullOrWhiteSpace_iff_words]
  exact Segment.intercalate_eq_nil_iff fun _ hw => (Segment.mem_words hw).1

end AnyCulture

end Typesetting
