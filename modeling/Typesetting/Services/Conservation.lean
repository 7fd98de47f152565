/-
# Typesetting.Services.Conservation -- extraction accounts for every character

Searching ordinally, each note an extraction pass finds is enclosed by two copies of the tag, and
nothing but these copies and white space is dropped. Counting one character `c` that is not white
space, the loop of `ExtractByTag` keeps a balance: what is in the kept text, in the notes and in
the unread rest, and twice the tag for every note, together never change. The three passes then
balance against the raw text, and the clean-up of the white space does not touch `c` at all.
-/
import Typesetting.Services.TextHelper

namespace Typesetting

/-! ## White space does not count -/

section Visible

variable {c : UInt16}

theorem count_visible (hc : isWhiteSpace c = false) (text : Text) :
    (visible text).count c = text.count c :=
  List.count_filter (by simp [hc])

theorem count_trim (hc : isWhiteSpace c = false) (text : Text) :
    (trim text).count c = text.count c := by
  rw [← count_visible hc, visible_trim, count_visible hc]

theorem count_replaceWhiteSpaceRuns (hc : isWhiteSpace c = false) (text : Text) :
    (replaceWhiteSpaceRuns text).count c = text.count c := by
  rw [← count_visible hc, visible_replaceWhiteSpaceRuns, count_visible hc]

end Visible

/-! ## The balance of one pass -/

/-- Where an ordinal search finds a note, the text reads: opening tag, content, closing tag. -/
theorem drop_eq_of_closingTag? {text : Text} {tag : Tag} {i close : Nat}
    (h : closingTag? .ordinal text tag i = some close) :
    text.drop i = tag.text ++ substring text (i + tag.text.length) (close - (i + tag.text.length))
      ++ tag.text ++ text.drop (close + tag.text.length) := by
  obtain ⟨hopen, hstart, -⟩ := closingTag?_range h
  have hclose : tag.text <+: text.drop close := by
    unfold closingTag? at h
    split at h
    · simp only at h
      split at h
      · rename_i hpos
        have hspec := indexOfOrdinal_spec (Int.le_of_lt hpos)
        rw [← Option.some.inj h]
        exact hspec.2.2
      · cases h
    · cases h
  -- cut the text at the end of the opening tag and at both ends of the closing one
  have hhead : text.drop i = tag.text ++ text.drop (i + tag.text.length) := by
    calc text.drop i
        = substring text i tag.text.length ++ (text.drop i).drop tag.text.length :=
          (List.take_append_drop _ _).symm
      _ = tag.text ++ text.drop (i + tag.text.length) := by rw [hopen, List.drop_drop]
  have hbody : text.drop (i + tag.text.length) =
      substring text (i + tag.text.length) (close - (i + tag.text.length)) ++ text.drop close := by
    have hsum : close = i + tag.text.length + (close - (i + tag.text.length)) := by omega
    conv_rhs => rw [hsum, ← List.drop_drop]
    rw [← hsum]
    exact (List.take_append_drop _ _).symm
  have htail : text.drop close = tag.text ++ text.drop (close + tag.text.length) := by
    obtain ⟨rest, hrest⟩ := hclose
    rw [← List.drop_drop, ← hrest, List.drop_left]
  rw [hhead, hbody, htail]
  simp only [List.append_assoc]

/-- The loop balance: kept text, notes, two tags for each note and the unread rest. -/
theorem extractByTagLoop_balance {c : UInt16} (hc : isWhiteSpace c = false) (text : Text)
    (tag : Tag) (i : Nat) (builder : Text) (results : List Text) :
    let final := extractByTagLoop .ordinal text tag i builder results
    builder.count c + results.flatten.count c + results.length * (2 * tag.text.count c)
        + (text.drop i).count c =
      final.1.count c + final.2.flatten.count c + final.2.length * (2 * tag.text.count c) := by
  fun_induction extractByTagLoop .ordinal text tag i builder results with
  | case1 i builder results hi close hclose start content ih =>
      have hcontent : content.count c =
          (substring text (i + tag.text.length) (close - (i + tag.text.length))).count c :=
        count_trim hc _
      rw [drop_eq_of_closingTag? hclose]
      simp only [List.flatten_append, List.flatten_cons, List.flatten_nil, List.append_nil,
        List.count_append, List.length_append, List.length_singleton, Nat.add_mul,
        Nat.one_mul] at ih ⊢
      rw [hcontent] at ih
      omega
  | case2 i builder results hi hclose ih =>
      rw [List.drop_eq_getElem_cons hi]
      simp only [List.count_append, List.count_cons, List.count_nil] at ih ⊢
      rw [← ih]
      omega
  | case3 i builder results hi =>
      rw [List.drop_eq_nil_of_le (by omega : text.length ≤ i)]
      simp

/-- One pass: the character is in the remaining text, in a note or in one of the tags. -/
theorem count_extractByTag {c : UInt16} (hc : isWhiteSpace c = false) (text : Text) (tag : Tag) :
    text.count c = (extractByTag .ordinal text tag).1.count c
      + (extractByTag .ordinal text tag).2.flatten.count c
      + (extractByTag .ordinal text tag).2.length * (2 * tag.text.count c) := by
  have h := extractByTagLoop_balance hc text tag 0 [] []
  simpa [extractByTag] using h

/-! ## The balance of the three passes -/

/-- How often a character stands in the main text and in all notes together. -/
def Extracted.count (x : Extracted) (c : UInt16) : Nat :=
  x.mainText.count c + x.footnotesA.flatten.count c + x.footnotesB.flatten.count c
    + x.footnotesC.flatten.count c

theorem count_extractContentAndFootnotes {c : UInt16} (hc : isWhiteSpace c = false)
    (rawText : Text) :
    let x := extractContentAndFootnotes .ordinal rawText
    rawText.count c = x.count c
      + x.footnotesA.length * (2 * footnoteTagA.text.count c)
      + x.footnotesB.length * (2 * footnoteTagB.text.count c)
      + x.footnotesC.length * (2 * footnoteTagC.text.count c) := by
  have hA := count_extractByTag hc rawText footnoteTagA
  have hB := count_extractByTag hc (extractByTag .ordinal rawText footnoteTagA).1 footnoteTagB
  have hC := count_extractByTag hc (extractByTag .ordinal
    (extractByTag .ordinal rawText footnoteTagA).1 footnoteTagB).1 footnoteTagC
  simp only [extractContentAndFootnotes, extractPasses, Extracted.count, count_trim hc,
    count_replaceWhiteSpaceRuns hc]
  omega

theorem visible_mainText_sublist (culture : CompareInfo) (rawText : Text) :
    (visible (extractContentAndFootnotes culture rawText).mainText).Sublist (visible rawText) := by
  have hclean : visible (extractContentAndFootnotes culture rawText).mainText =
      visible (extractPasses culture rawText).mainText := by
    simp only [extractContentAndFootnotes, visible_trim, visible_replaceWhiteSpaceRuns]
  rw [hclean]
  exact (extractPasses_sublist rawText).filter _

/-- A tag is one character twice. -/
theorem count_pair (c d : UInt16) : [d, d].count c = if c = d then 2 else 0 := by
  by_cases h : c = d
  · simp [h]
  · rw [if_neg h]
    apply List.count_eq_zero_of_not_mem
    simp [h]

/-- Extraction conserves the text: outside `$`, `%` and `&` every character that is not white
space occurs in the result exactly as often as in the raw text, each note accounts for four of
its tag characters, and the main text keeps the order of the raw text. -/
theorem extraction_conserves_characters (rawText : Text) :
    let x := extractContentAndFootnotes .ordinal rawText
    (∀ c, isWhiteSpace c = false → c ∉ [0x24, 0x25, 0x26] → rawText.count c = x.count c) ∧
      rawText.count 0x24 = x.count 0x24 + 4 * x.footnotesA.length ∧
      rawText.count 0x25 = x.count 0x25 + 4 * x.footnotesB.length ∧
      rawText.count 0x26 = x.count 0x26 + 4 * x.footnotesC.length ∧
      (visible x.mainText).Sublist (visible rawText) := by
  have hA : footnoteTagA.text = [0x24, 0x24] := by decide
  have hB : footnoteTagB.text = [0x25, 0x25] := by decide
  have hC : footnoteTagC.text = [0x26, 0x26] := by decide
  refine ⟨fun c hc hother => ?_, ?_, ?_, ?_, visible_mainText_sublist _ rawText⟩
  · have h := count_extractContentAndFootnotes hc rawText
    simp only [List.mem_cons, List.not_mem_nil, or_false, not_or] at hother
    obtain ⟨hnA, hnB, hnC⟩ := hother
    simpa [hA, hB, hC, count_pair, hnA, hnB, hnC] using h
  · have h := count_extractContentAndFootnotes (c := 0x24) (by decide) rawText
    simp only [hA, hB, hC, count_pair] at h
    simpa [Nat.mul_comm] using h
  · have h := count_extractContentAndFootnotes (c := 0x25) (by decide) rawText
    simp only [hA, hB, hC, count_pair] at h
    simpa [Nat.mul_comm] using h
  · have h := count_extractContentAndFootnotes (c := 0x26) (by decide) rawText
    simp only [hA, hB, hC, count_pair] at h
    simpa [Nat.mul_comm] using h

end Typesetting
