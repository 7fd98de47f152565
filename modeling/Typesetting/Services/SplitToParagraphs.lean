/-
# Typesetting.Services.SplitToParagraphs -- paragraphs and the two styles of line ends

`SplitToParagraphs` cuts a text at an empty line, in the style `\n` of line ends and in the style
`\r\n`, and returns what is left of the pieces when they are trimmed.

To write the line ends in one style before the call is to write them so in the paragraphs, if the
same gaps between two visible characters cut in both texts. Of the four ways to write two line ends,
one is not seen in the text as it is: a line end `\n` and then one `\r\n`. Two carriage returns
before each line feed are the other difference: the rewritten text has one of them left.

Paragraphs written one below the other with an empty line between them, in either style, are read
back by `SplitToParagraphs`. This works for all lists of texts that could have come out of it and
for no others: a paragraph is not empty, has no white space at its ends and no empty line inside.
-/
import Typesetting.Lib.Splitter
import Typesetting.Text.Utf16

namespace Typesetting

/-- `"\n\n"` and `"\r\n\r\n"` -/
def paragraphSeparators : List Text :=
  [[lineFeed, lineFeed], [carriageReturn, lineFeed, carriageReturn, lineFeed]]

/-- `SplitToParagraphs(text)` -/
def splitToParagraphs (text : Text) : List Text :=
  if isNullOrWhiteSpace text then []
  else
    let pieces := (Splitter.split paragraphSeparators text).filter fun piece => !piece.isEmpty
    (pieces.map trim).filter fun paragraph => !isNullOrWhiteSpace paragraph

theorem paragraphSeparators_within : Splitter.Within paragraphSeparators isWhiteSpace := by
  have hall : (paragraphSeparators.all fun s => !s.isEmpty && s.all isWhiteSpace) = true := by
    decide
  intro s hs
  have hsep := List.all_eq_true.mp hall s hs
  simpa using hsep

/-- The first test of the code says nothing that the second does not say. -/
theorem filter_trim_pieces (pieces : List Text) :
    ((pieces.filter fun piece => !piece.isEmpty).map trim).filter
        (fun paragraph => !isNullOrWhiteSpace paragraph) =
      Splitter.trimmed isWhiteSpace pieces := by
  have hempty : ∀ piece : Text, piece.isEmpty = true → (trim piece).isEmpty = true := by
    intro piece h
    rw [List.isEmpty_iff.mp h]
    rfl
  unfold Splitter.trimmed
  rw [List.filter_map, List.filter_map, List.filter_filter]
  refine congrArg (List.map trim) (List.filter_congr fun piece _ => ?_)
  show ((!isNullOrWhiteSpace (trim piece)) && !piece.isEmpty) = !(trim piece).isEmpty
  rw [isNullOrWhiteSpace_trim]
  cases hpiece : piece.isEmpty with
  | true => simp [hempty piece hpiece]
  | false => simp

/-- The paragraphs are the trimmed pieces that are not empty. -/
theorem splitToParagraphs_eq (text : Text) :
    splitToParagraphs text =
      Splitter.trimmed isWhiteSpace (Splitter.split paragraphSeparators text) := by
  unfold splitToParagraphs
  split
  · rename_i hblank
    have hgap := Splitter.trimmed_split_gap (l := []) paragraphSeparators_within
      (List.all_eq_true.mp hblank) (by simp)
    rw [List.append_nil] at hgap
    rw [hgap]
    rfl
  · exact filter_trim_pieces _

/-! ## One style of line ends -/

/-- `\r\n` -/
def crLfPattern : Regex.Pattern UInt16 :=
  ⟨fun c => c == carriageReturn, [.one fun c => c == lineFeed]⟩

/-- `text.Replace("\r\n", "\n")` -/
def replaceCrLf (text : Text) : Text :=
  Regex.replace crLfPattern [lineFeed] text

theorem gapwise_replaceCrLf : Spacing.Gapwise isWhiteSpace replaceCrLf := by
  refine Regex.gapwise_replace ⟨fun c hc => ?_, fun item hitem c hc => ?_⟩ (List.cons_ne_nil _ _)
    (List.all_eq_true.mp (by decide))
  · rw [beq_iff_eq.mp hc]
    decide
  · obtain rfl := List.mem_singleton.mp hitem
    rw [beq_iff_eq.mp hc]
    decide

@[simp]
theorem replaceCrLf_crLf (l : Text) :
    replaceCrLf (carriageReturn :: lineFeed :: l) = lineFeed :: replaceCrLf l := by
  have hmatch : crLfPattern.behind carriageReturn (lineFeed :: l) = some 1 := rfl
  show Regex.replace crLfPattern [lineFeed] _ = _
  rw [Regex.replace_cons_of_some hmatch]
  rfl

theorem replaceCrLf_cons {c : UInt16} {l : Text}
    (h : ∀ l', c :: l ≠ carriageReturn :: lineFeed :: l') :
    replaceCrLf (c :: l) = c :: replaceCrLf l := by
  refine Regex.replace_cons_of_none ?_
  unfold Regex.Pattern.behind
  split
  · rename_i hc
    obtain rfl := beq_iff_eq.mp hc
    cases l with
    | nil => rfl
    | cons d l =>
        have hd : d ≠ lineFeed := by
          rintro rfl
          exact h l rfl
        show (if d == lineFeed then _ else none) = none
        rw [if_neg (by simpa using hd)]
  · rfl

/-- Induction along a text whose line ends `\r\n` are taken as one. -/
theorem crLf_induction {P : Text → Prop} (nil : P [])
    (crLf : ∀ l, P (lineFeed :: l) → P (carriageReturn :: lineFeed :: l))
    (cons : ∀ c l, (∀ l', c :: l ≠ carriageReturn :: lineFeed :: l') → P l → P (c :: l))
    (text : Text) : P text := by
  induction text with
  | nil => exact nil
  | cons c l ih =>
      by_cases hc : ∃ l', c :: l = carriageReturn :: lineFeed :: l'
      · obtain ⟨l', hl⟩ := hc
        obtain ⟨rfl, rfl⟩ := List.cons.inj hl
        exact crLf l' ih
      · exact cons c l (not_exists.mp hc) ih

theorem replaceCrLf_lineFeed (l : Text) : replaceCrLf (lineFeed :: l) = lineFeed :: replaceCrLf l :=
  replaceCrLf_cons fun _ h => absurd (List.cons.inj h).1 (by decide)

theorem replaceCrLf_crCr (l : Text) :
    replaceCrLf (carriageReturn :: carriageReturn :: l) =
      carriageReturn :: replaceCrLf (carriageReturn :: l) :=
  replaceCrLf_cons fun _ h => absurd (List.cons.inj (List.cons.inj h).2).1 (by decide)

/-- What the rewritten text can begin with: a line end of two characters, or a character that is
left as it is. -/
theorem cons_prefix_replaceCrLf {c : UInt16} {w l : Text} (h : c :: w <+: replaceCrLf l) :
    (c = lineFeed ∧ ∃ l', l = carriageReturn :: lineFeed :: l' ∧ w <+: replaceCrLf l') ∨
      ∃ l', l = c :: l' ∧ (∀ l'', l ≠ carriageReturn :: lineFeed :: l'') ∧ w <+: replaceCrLf l' := by
  induction l using crLf_induction with
  | nil => exact absurd (List.prefix_nil.mp h) (List.cons_ne_nil c w)
  | crLf l ih =>
      rw [replaceCrLf_crLf, List.cons_prefix_cons] at h
      exact .inl ⟨h.1, l, rfl, h.2⟩
  | cons d l hd ih =>
      rw [replaceCrLf_cons hd, List.cons_prefix_cons] at h
      obtain ⟨rfl, hw⟩ := h
      exact .inr ⟨l, rfl, hd, hw⟩

/-- A line feed at the start of the rewritten text was a line end of either style. -/
theorem lineFeed_cons_prefix {w l : Text} (h : lineFeed :: w <+: replaceCrLf l) :
    ∃ l', (l = lineFeed :: l' ∨ l = carriageReturn :: lineFeed :: l') ∧ w <+: replaceCrLf l' := by
  rcases cons_prefix_replaceCrLf h with ⟨-, l', hl, hw⟩ | ⟨l', hl, -, hw⟩
  · exact ⟨l', .inr hl, hw⟩
  · exact ⟨l', .inl hl, hw⟩

/-- A line feed of the rewritten text that keeps a carriage return before it had two. -/
theorem crLf_cons_prefix {w l : Text}
    (h : carriageReturn :: lineFeed :: w <+: replaceCrLf l) :
    ∃ l', l = carriageReturn :: carriageReturn :: lineFeed :: l' ∧ w <+: replaceCrLf l' := by
  rcases cons_prefix_replaceCrLf h with ⟨hc, -⟩ | ⟨l₁, rfl, hlone, hrest⟩
  · exact absurd hc (by decide)
  · obtain ⟨l₂, rfl | rfl, hw⟩ := lineFeed_cons_prefix hrest
    · exact absurd rfl (hlone l₂)
    · exact ⟨l₂, rfl, hw⟩

/-- What the rewritten text contains begins with the rewriting of some end of the text. -/
theorem infix_replaceCrLf_iff {w : Text} (hw : w ≠ []) {l : Text} :
    w <:+: replaceCrLf l ↔ ∃ l', l' <:+ l ∧ w <+: replaceCrLf l' := by
  induction l using crLf_induction with
  | nil =>
      have hnil : replaceCrLf [] = [] := rfl
      rw [hnil, List.infix_nil]
      refine iff_of_false hw ?_
      rintro ⟨l', hl', h⟩
      rw [List.suffix_nil.mp hl', hnil, List.prefix_nil] at h
      exact hw h
  | crLf l ih =>
      -- the line end is rewritten to what its line feed alone is rewritten to
      have hsame : replaceCrLf (carriageReturn :: lineFeed :: l) = replaceCrLf (lineFeed :: l) := by
        rw [replaceCrLf_crLf, replaceCrLf_lineFeed]
      rw [hsame, ih]
      constructor
      · rintro ⟨l', hl', h⟩
        exact ⟨l', hl'.trans (List.suffix_cons _ _), h⟩
      · rintro ⟨l', hl', h⟩
        rcases List.suffix_cons_iff.mp hl' with rfl | hl'
        · exact ⟨lineFeed :: l, List.suffix_rfl, hsame ▸ h⟩
        · exact ⟨l', hl', h⟩
  | cons c l hc ih =>
      rw [replaceCrLf_cons hc, List.infix_cons_iff, ih, ← replaceCrLf_cons hc]
      constructor
      · rintro (h | ⟨l', hl', h⟩)
        · exact ⟨c :: l, List.suffix_rfl, h⟩
        · exact ⟨l', hl'.trans (List.suffix_cons _ _), h⟩
      · rintro ⟨l', hl', h⟩
        rcases List.suffix_cons_iff.mp hl' with rfl | hl'
        · exact .inl h
        · exact .inr ⟨l', hl', h⟩

/-! ## The gaps that cut -/

theorem contains_paragraphSeparators_iff {gap : Text} :
    Splitter.Contains paragraphSeparators gap ↔
      [lineFeed, lineFeed] <:+: gap ∨
        [carriageReturn, lineFeed, carriageReturn, lineFeed] <:+: gap := by
  simp [Splitter.Contains, paragraphSeparators]

theorem lineFeeds_infix_iff {gap : Text} :
    [lineFeed, lineFeed] <:+: replaceCrLf gap ↔
      [lineFeed, lineFeed] <:+: gap ∨ [lineFeed, carriageReturn, lineFeed] <:+: gap := by
  rw [infix_replaceCrLf_iff (List.cons_ne_nil _ _)]
  constructor
  · rintro ⟨l, hl, h⟩
    obtain ⟨l₁, hl₁, hrest⟩ := lineFeed_cons_prefix h
    obtain ⟨l₂, hl₂, -⟩ := lineFeed_cons_prefix hrest
    -- the first line end may be of either style: its line feed is what counts
    have hstart : lineFeed :: l₁ <:+ gap := by
      rcases hl₁ with rfl | rfl
      · exact hl
      · exact (List.suffix_cons _ _).trans hl
    rcases hl₂ with rfl | rfl
    · exact .inl ((List.prefix_append [lineFeed, lineFeed] l₂).isInfix.trans hstart.isInfix)
    · exact .inr ((List.prefix_append [lineFeed, carriageReturn, lineFeed] l₂).isInfix.trans
        hstart.isInfix)
  · rintro (⟨a, b, rfl⟩ | ⟨a, b, rfl⟩)
    · refine ⟨lineFeed :: lineFeed :: b, ⟨a, by simp⟩, replaceCrLf b, ?_⟩
      rw [replaceCrLf_lineFeed, replaceCrLf_lineFeed]
      rfl
    · refine ⟨lineFeed :: carriageReturn :: lineFeed :: b, ⟨a, by simp⟩, replaceCrLf b, ?_⟩
      rw [replaceCrLf_lineFeed, replaceCrLf_crLf]
      rfl

theorem crLfs_infix_iff {gap : Text} :
    [carriageReturn, lineFeed, carriageReturn, lineFeed] <:+: replaceCrLf gap ↔
      [carriageReturn, carriageReturn, lineFeed, carriageReturn, carriageReturn, lineFeed] <:+:
        gap := by
  rw [infix_replaceCrLf_iff (List.cons_ne_nil _ _)]
  constructor
  · rintro ⟨l, hl, h⟩
    obtain ⟨l₁, rfl, hrest⟩ := crLf_cons_prefix h
    obtain ⟨l₂, rfl, -⟩ := crLf_cons_prefix hrest
    exact (List.prefix_append [carriageReturn, carriageReturn, lineFeed, carriageReturn,
      carriageReturn, lineFeed] l₂).isInfix.trans hl.isInfix
  · rintro ⟨a, b, rfl⟩
    refine ⟨carriageReturn :: carriageReturn :: lineFeed :: carriageReturn :: carriageReturn ::
      lineFeed :: b, ⟨a, by simp⟩, replaceCrLf b, ?_⟩
    rw [replaceCrLf_crCr, replaceCrLf_crLf, replaceCrLf_crCr, replaceCrLf_crLf]
    rfl

/-- The gaps that cut the rewritten text. -/
theorem contains_replaceCrLf_iff {gap : Text} :
    Splitter.Contains paragraphSeparators (replaceCrLf gap) ↔
      Splitter.Contains paragraphSeparators gap ∨
        [lineFeed, carriageReturn, lineFeed] <:+: gap ∨
          [carriageReturn, carriageReturn, lineFeed, carriageReturn, carriageReturn, lineFeed] <:+:
            gap := by
  have hcrLf : [carriageReturn, lineFeed, carriageReturn, lineFeed] <:+: gap →
      [lineFeed, carriageReturn, lineFeed] <:+: gap :=
    (List.suffix_cons carriageReturn [lineFeed, carriageReturn, lineFeed]).isInfix.trans
  rw [contains_paragraphSeparators_iff, contains_paragraphSeparators_iff, lineFeeds_infix_iff,
    crLfs_infix_iff]
  tauto

/-- To write `\n` for each `\r\n` before the call is to write it in the paragraphs exactly when no
gap between two visible characters has a `\n` before a `\r\n`, or two line feeds each with two
carriage returns before it, but no empty line in one of the two styles. -/
theorem splitToParagraphs_replaceCrLf_iff (text : Text) :
    splitToParagraphs (replaceCrLf text) = (splitToParagraphs text).map replaceCrLf ↔
      ∀ gap, Spacing.InnerGap isWhiteSpace text gap →
        [lineFeed, carriageReturn, lineFeed] <:+: gap ∨
            [carriageReturn, carriageReturn, lineFeed, carriageReturn, carriageReturn, lineFeed] <:+:
              gap →
          [lineFeed, lineFeed] <:+: gap ∨
            [carriageReturn, lineFeed, carriageReturn, lineFeed] <:+: gap := by
  rw [splitToParagraphs_eq, splitToParagraphs_eq,
    Splitter.trimmed_split_gapwise_iff paragraphSeparators_within gapwise_replaceCrLf]
  refine forall₂_congr fun gap _ => ?_
  rw [contains_replaceCrLf_iff, contains_paragraphSeparators_iff]
  tauto

/-- An empty line whose line ends are a `\n` and a `\r\n` is seen only when both are `\n`. -/
theorem splitToParagraphs_mixed_line_ends :
    ¬ ∀ text : Text,
      splitToParagraphs (replaceCrLf text) = (splitToParagraphs text).map replaceCrLf := by
  intro h
  exact absurd (h [0x61, lineFeed, carriageReturn, lineFeed, 0x62]) (by decide)

/-! ## Writing paragraphs and reading them back -/

/-- `string.Join(separator, paragraphs)` -/
def joinParagraphs (separator : Text) (paragraphs : List Text) : Text :=
  joinWith separator paragraphs

/-- What a paragraph is. -/
abbrev IsParagraph : Text → Prop :=
  Splitter.Piece isWhiteSpace paragraphSeparators

/-- A text of visible ends in which no empty line stands is a paragraph, and the other way round. -/
theorem isParagraph_iff {paragraph : Text} :
    IsParagraph paragraph ↔
      paragraph ≠ [] ∧ trim paragraph = paragraph ∧ ¬ [lineFeed, lineFeed] <:+: paragraph ∧
        ¬ [carriageReturn, lineFeed, carriageReturn, lineFeed] <:+: paragraph := by
  rw [← not_or, ← contains_paragraphSeparators_iff]
  constructor
  · rintro ⟨hne, htrim, hwhole⟩
    exact ⟨hne, htrim, hwhole⟩
  · rintro ⟨hne, htrim, hwhole⟩
    exact ⟨hne, htrim, hwhole⟩

/-- The paragraphs of every text are paragraphs. -/
theorem isParagraph_of_mem {text paragraph : Text} (h : paragraph ∈ splitToParagraphs text) :
    IsParagraph paragraph := by
  rw [splitToParagraphs_eq] at h
  exact Splitter.piece_of_mem_trimmed_split paragraphSeparators_within h

/-- Joined with an empty line in one of the two styles, texts are read back exactly when each of
them is not empty, has no white space at its ends and no empty line inside. These are the lists of
paragraphs there are, so to join the paragraphs of a text and to split them again changes none. -/
theorem splitToParagraphs_join_iff {separator : Text} (hsep : separator ∈ paragraphSeparators)
    (paragraphs : List Text) :
    (splitToParagraphs (joinParagraphs separator paragraphs) = paragraphs ↔
        ∀ paragraph ∈ paragraphs, paragraph ≠ [] ∧ trim paragraph = paragraph ∧
          ¬ [lineFeed, lineFeed] <:+: paragraph ∧
            ¬ [carriageReturn, lineFeed, carriageReturn, lineFeed] <:+: paragraph) ∧
      (splitToParagraphs (joinParagraphs separator paragraphs) = paragraphs ↔
        ∃ text, splitToParagraphs text = paragraphs) := by
  have hback : splitToParagraphs (joinParagraphs separator paragraphs) = paragraphs ↔
      ∀ paragraph ∈ paragraphs, IsParagraph paragraph := by
    rw [splitToParagraphs_eq]
    exact Splitter.trimmed_split_intercalate_iff paragraphSeparators_within hsep paragraphs
  constructor
  · rw [hback]
    exact forall₂_congr fun _ _ => isParagraph_iff
  · constructor
    · intro h
      exact ⟨_, h⟩
    · rintro ⟨text, rfl⟩
      exact hback.mpr fun paragraph hparagraph => isParagraph_of_mem hparagraph

/-- Two paragraphs, the first of two lines, in the style `\r\n`. -/
theorem splitToParagraphs_join_two :
    splitToParagraphs (joinParagraphs [carriageReturn, lineFeed, carriageReturn, lineFeed]
      [[0x61, lineFeed, 0x62], [0x63]]) = [[0x61, lineFeed, 0x62], [0x63]] := by
  have hsep : [carriageReturn, lineFeed, carriageReturn, lineFeed] ∈ paragraphSeparators :=
    List.mem_cons_of_mem _ List.mem_cons_self
  exact (splitToParagraphs_join_iff hsep [[0x61, lineFeed, 0x62], [0x63]]).1.mpr (by decide)

end Typesetting
