/-
# Typesetting.Text.Utf16 -- .NET strings as lists of UTF-16 code units

A `string` is a list of 16-bit code units; its `Length` and its indices count these units, and
surrogates are ordinary elements. The library members the services call are given here under
one name each, at the arguments they are called with: `char.IsWhiteSpace`, `Trim`, `Split` with
`StringSplitOptions.RemoveEmptyEntries`, `Substring`, `Regex.Replace` of `\s+` by a blank, and
`string.IndexOf`.

`text.IndexOf(value, startIndex)` and `text.EndsWith(value)` with string arguments compare by the
current culture. They are therefore a parameter, `CompareInfo`: of the search only the documented
range of the result is assumed, of the test only that it sees the one marker the code appends.
`CompareInfo.ordinal` is the comparison unit by unit.
-/
import Mathlib.Data.List.Infix
import Typesetting.Lib.Regex

namespace Typesetting

/-- A .NET `string`: its UTF-16 code units in order. -/
abbrev Text := List UInt16

/-! ## Literals -/

/-- The code units of one Unicode character. -/
def utf16Units (c : Char) : Text :=
  if c.toNat < 0x10000 then [UInt16.ofNat c.toNat]
  else
    let v := c.toNat - 0x10000
    [UInt16.ofNat (0xD800 + v / 0x400), UInt16.ofNat (0xDC00 + v % 0x400)]

/-- A string literal of the source. -/
def utf16 (s : String) : Text :=
  s.toList.flatMap utf16Units

/-- `' '` -/
def space : UInt16 := 0x20

/-- `int.ToString()` of a number that is never negative here. -/
def natToText (n : Nat) : Text :=
  utf16 (toString n)

/-! ## White space -/

/-- `char.IsWhiteSpace`, which is also the class `\s` of `Regex`: the separators of Unicode
(categories Zs, Zl and Zp) and U+0009 to U+000D, U+0085. -/
def isWhiteSpace (u : UInt16) : Bool :=
  let c := u.toNat
  (0x09 ≤ c && c ≤ 0x0D) || c == 0x20 || c == 0x85 || c == 0xA0 || c == 0x1680 ||
    (0x2000 ≤ c && c ≤ 0x200A) || c == 0x2028 || c == 0x2029 || c == 0x202F || c == 0x205F ||
    c == 0x3000

theorem isWhiteSpace_space : isWhiteSpace space = true := by decide

/-- `char.IsControl`: U+0000 to U+001F and U+007F to U+009F -/
def isControl (u : UInt16) : Bool :=
  let c := u.toNat
  c ≤ 0x1F || (0x7F ≤ c && c ≤ 0x9F)

/-- `string.IsNullOrWhiteSpace` -/
def isNullOrWhiteSpace (text : Text) : Bool :=
  text.all isWhiteSpace

/-- `text.Trim()` -/
def trim (text : Text) : Text :=
  Segment.trim isWhiteSpace text

/-- The characters of a text that are not white space. -/
def visible (text : Text) : Text :=
  text.filter fun c => !isWhiteSpace c

/-- What is left of a text that is trimmed is not blank, unless nothing is left. -/
theorem isNullOrWhiteSpace_trim (text : Text) :
    isNullOrWhiteSpace (trim text) = (trim text).isEmpty := by
  cases htrim : trim text with
  | nil => rfl
  | cons c rest =>
      have hhead : c ∈ (trim text).head? := by
        rw [htrim]
        rfl
      have hc : isWhiteSpace c = false := Segment.head_trim hhead
      simp [isNullOrWhiteSpace, hc]

theorem visible_trim (text : Text) : visible (trim text) = visible text :=
  Segment.filter_trim text

/-! ## Splitting and joining -/

/-- `'\n'` -/
def lineFeed : UInt16 := 0x0A

/-- `'\r'` -/
def carriageReturn : UInt16 := 0x0D

/-- `c == '\n' || c == '\r'` -/
def isLineEnd (u : UInt16) : Bool :=
  u == 0x0A || u == 0x0D

/-- `c == '\n'` -/
def isLineFeed (u : UInt16) : Bool :=
  u == 0x0A

theorem isWhiteSpace_of_isLineEnd (u : UInt16) (h : isLineEnd u = true) :
    isWhiteSpace u = true := by
  rcases (by simpa [isLineEnd] using h : u = 0x0A ∨ u = 0x0D) with rfl | rfl <;> decide

theorem isLineEnd_of_isLineFeed (u : UInt16) (h : isLineFeed u = true) :
    isLineEnd u = true := by
  simp only [isLineFeed, beq_iff_eq] at h
  simp [isLineEnd, h]

/-- `text.Split(separators, StringSplitOptions.RemoveEmptyEntries)` -/
def splitRemoveEmpty (isSeparator : UInt16 → Bool) (text : Text) : List Text :=
  Segment.words isSeparator text

/-- `string.Join(separator, values)` -/
def joinWith (separator : Text) (values : List Text) : Text :=
  separator.intercalate values

/-- `Regex.Replace(text, @"\s+", " ")` -/
def replaceWhiteSpaceRuns (text : Text) : Text :=
  Segment.collapse isWhiteSpace space text

/-- The pattern `\s+` matches the runs of white space. -/
theorem replace_whiteSpacePattern (text : Text) :
    Regex.replace (Regex.plus isWhiteSpace) [space] text = replaceWhiteSpaceRuns text :=
  Regex.replace_plus isWhiteSpace space text

theorem visible_replaceWhiteSpaceRuns (text : Text) :
    visible (replaceWhiteSpaceRuns text) = visible text :=
  Segment.filter_collapseFrom isWhiteSpace_space false text

/-- The cleaned-up text is its words, with single blanks between them. -/
theorem trim_replaceWhiteSpaceRuns (text : Text) :
    trim (replaceWhiteSpaceRuns text) = joinWith [space] (splitRemoveEmpty isWhiteSpace text) :=
  Segment.trim_collapse isWhiteSpace_space text

theorem words_trim_replaceWhiteSpaceRuns (text : Text) :
    splitRemoveEmpty isWhiteSpace (trim (replaceWhiteSpaceRuns text)) =
      splitRemoveEmpty isWhiteSpace text := by
  rw [trim_replaceWhiteSpaceRuns]
  exact Segment.words_intercalate_of_clean isWhiteSpace_space fun _ hw => Segment.mem_words hw

/-- A text is blank when it has no word. -/
theorem isNullOrWhiteSpace_iff_words (text : Text) :
    isNullOrWhiteSpace text = true ↔ splitRemoveEmpty isWhiteSpace text = [] := by
  rw [isNullOrWhiteSpace, List.all_eq_true]
  exact Segment.words_eq_nil_iff.symm

/-- `text.Substring(startIndex, length)` -/
def substring (text : Text) (startIndex length : Nat) : Text :=
  (text.drop startIndex).take length

/-! ## Searching -/

/-- The string comparison behind `text.IndexOf(value, startIndex)`, a negative number when
`value` does not occur, else a position between `startIndex` and the end of the text, and behind
`text.EndsWith(value)`. -/
structure CompareInfo where
  indexOf : Text → Text → Nat → Int
  indexOf_range : ∀ source value startIndex, startIndex ≤ source.length →
    0 ≤ indexOf source value startIndex →
      startIndex ≤ (indexOf source value startIndex).toNat ∧
        (indexOf source value startIndex).toNat ≤ source.length
  isSuffix : Text → Text → Bool
  /-- U+00A4, which combines with no character before it, is seen where it is the last unit. -/
  isSuffix_currencySign : ∀ source, isSuffix (source ++ [0xA4]) [0xA4] = true

/-- The first position from `startIndex` on at which the units of `value` stand. -/
def indexOfOrdinal (source value : Text) (startIndex : Nat) : Int :=
  match (List.range' startIndex (source.length + 1 - startIndex)).find? fun i =>
      value.isPrefixOf (source.drop i) with
  | some i => i
  | none => -1

/-- What an ordinal search that succeeds has found. -/
theorem indexOfOrdinal_spec {source value : Text} {startIndex : Nat}
    (h : 0 ≤ indexOfOrdinal source value startIndex) :
    startIndex ≤ (indexOfOrdinal source value startIndex).toNat ∧
      (indexOfOrdinal source value startIndex).toNat ≤ source.length ∧
      value <+: source.drop (indexOfOrdinal source value startIndex).toNat := by
  unfold indexOfOrdinal at h ⊢
  split at h
  · rename_i i hfind
    have hmem := List.mem_of_find?_eq_some hfind
    have hpre := List.find?_some hfind
    rw [List.mem_range'_1] at hmem
    simp only [Int.toNat_natCast]
    exact ⟨hmem.1, by omega, List.isPrefixOf_iff_prefix.mp hpre⟩
  · omega

/-- An ordinal search for a single unit: there is none from the start on, or the first one is
found. -/
theorem indexOfOrdinal_singleton_cases (source : Text) (c : UInt16) (startIndex : Nat) :
    (indexOfOrdinal source [c] startIndex = -1 ∧ ∀ j, startIndex ≤ j → source[j]? ≠ some c) ∨
      ∃ idx : Nat, indexOfOrdinal source [c] startIndex = idx ∧ startIndex ≤ idx ∧
        source[idx]? = some c ∧ ∀ j, startIndex ≤ j → j < idx → source[j]? ≠ some c := by
  have hstands : ∀ j, [c].isPrefixOf (source.drop j) = true ↔ source[j]? = some c := by
    intro j
    rw [List.isPrefixOf_iff_prefix, List.singleton_prefix_iff_head?_eq_some, List.head?_drop]
  unfold indexOfOrdinal
  split
  · rename_i idx hfind
    rw [List.find?_range'_eq_some] at hfind
    obtain ⟨hidx, hmem, hfirst⟩ := hfind
    rw [List.mem_range'_1] at hmem
    refine .inr ⟨idx, rfl, hmem.1, (hstands idx).mp hidx, fun j hj hlt hc => ?_⟩
    have hnot := hfirst j hj hlt
    rw [(hstands j).mpr hc] at hnot
    cases hnot
  · rename_i hnone
    rw [List.find?_range'_eq_none] at hnone
    refine .inl ⟨rfl, fun j hj hc => ?_⟩
    obtain ⟨hlt, -⟩ := List.getElem?_eq_some_iff.mp hc
    have hnot := hnone j hj (by omega)
    rw [(hstands j).mpr hc] at hnot
    cases hnot

/-- Search unit by unit, with no rule of any language. -/
def CompareInfo.ordinal : CompareInfo where
  indexOf := indexOfOrdinal
  indexOf_range _ _ _ _ h := ⟨(indexOfOrdinal_spec h).1, (indexOfOrdinal_spec h).2.1⟩
  isSuffix source value := value.isSuffixOf source
  isSuffix_currencySign source := List.isSuffixOf_iff_suffix.mpr (List.suffix_append source _)

end Typesetting
