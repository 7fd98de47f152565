/-
# Typesetting.Services.CleanTextForLayout -- a text made ready for the layout

`CleanTextForLayout` takes out the control characters but the line ends, makes one blank of blanks
and tabs in a row, leaves at most one empty line between two others, and trims.

What it returns is in a normal form (`CleanText`), which a second call does not change. It is the
blank lines' pattern that needs the run of white space as a whole: a match goes on to the last line
feed of the run.

The tabs are control characters themselves. They are gone before the second step looks for them,
and so are a form feed and the other white space that is a control character: words that only such
white space keeps apart become one.
-/
import Typesetting.Services.TextHelper

namespace Typesetting

/-- `!char.IsControl(c) || c == '\n' || c == '\r'` -/
def staysForLayout (c : UInt16) : Bool :=
  !isControl c || c == lineFeed || c == carriageReturn

/-- `[ \t]+` -/
def blanksPattern : Regex.Pattern UInt16 :=
  Regex.plus isBlank

/-- `\n\s*\n\s*\n` -/
def blankLinesPattern : Regex.Pattern UInt16 :=
  ⟨isLineFeed, [.star isWhiteSpace, .one isLineFeed, .star isWhiteSpace, .one isLineFeed]⟩

/-- The two calls of `Regex.Replace`. -/
def replaceSpacing (text : Text) : Text :=
  Regex.replace blankLinesPattern [lineFeed, lineFeed] (Regex.replace blanksPattern [space] text)

/-- `CleanTextForLayout(text)` -/
def cleanTextForLayout (text : Text) : Text :=
  if isNullOrWhiteSpace text then []
  else trim (replaceSpacing (text.filter staysForLayout))

/-! ## The two patterns -/

theorem isWhiteSpace_of_isLineFeed (u : UInt16) (h : isLineFeed u = true) :
    isWhiteSpace u = true :=
  isWhiteSpace_of_isLineEnd u (isLineEnd_of_isLineFeed u h)

theorem replaceBlanks_eq (text : Text) :
    Regex.replace blanksPattern [space] text = Segment.collapse isBlank space text :=
  Regex.replace_plus isBlank space text

theorem gapwise_replaceBlanks :
    Spacing.Gapwise isWhiteSpace (Regex.replace blanksPattern [space]) :=
  Regex.gapwise_replace (Regex.plus_within isWhiteSpace_of_isBlank) (List.cons_ne_nil _ _)
    (List.all_eq_true.mp (by decide))

theorem blankLinesPattern_within : blankLinesPattern.Within isWhiteSpace where
  first := isWhiteSpace_of_isLineFeed
  rest item hitem c hc := by
    have hcls : ∀ item ∈ blankLinesPattern.rest, item.cls = isWhiteSpace ∨ item.cls = isLineFeed := by
      simp [blankLinesPattern, Regex.Item.cls]
    rcases hcls item hitem with h | h
    · exact h ▸ hc
    · exact isWhiteSpace_of_isLineFeed c (h ▸ hc)

theorem gapwise_replaceBlankLines :
    Spacing.Gapwise isWhiteSpace (Regex.replace blankLinesPattern [lineFeed, lineFeed]) :=
  Regex.gapwise_replace blankLinesPattern_within (List.cons_ne_nil _ _)
    (List.all_eq_true.mp (by decide))

/-- A match needs three line feeds, and takes all white space up to the last one. -/
theorem blankLinesPattern_reachesLast :
    blankLinesPattern.ReachesLast isWhiteSpace isLineFeed 2 where
  first := rfl
  rest := by
    have hone := Regex.findsLast_starThen_oneThen
      (Regex.findsExactly_zero (p := isWhiteSpace) (q := isLineFeed))
    exact Regex.findsLast_starThen_oneThen hone.findsExactly

/-! ## The normal form -/

/-- A text with no control characters but line ends, no two blanks in a row, at most two line
feeds in any run of white space, and no white space at its ends. -/
structure CleanText (text : Text) : Prop where
  controls : ∀ c ∈ text, isControl c = true → c = carriageReturn ∨ c = lineFeed
  blanks : ¬ [space, space] <:+: text
  lineFeeds : ∀ run, run <:+: text → (∀ c ∈ run, isWhiteSpace c = true) →
    run.countP isLineFeed ≤ 2
  start : ∀ c ∈ text.head?, isWhiteSpace c = false
  finish : ∀ c ∈ text.getLast?, isWhiteSpace c = false

theorem staysForLayout_iff {c : UInt16} :
    staysForLayout c = true ↔ (isControl c = true → c = carriageReturn ∨ c = lineFeed) := by
  unfold staysForLayout
  cases isControl c <;> simp [or_comm]

/-- A clean text is left as it is. -/
theorem CleanText.cleanTextForLayout_eq {text : Text} (h : CleanText text) :
    cleanTextForLayout text = text := by
  have htrim : trim text = text := Segment.trim_eq_self h.start h.finish
  unfold cleanTextForLayout
  split
  · rename_i hblank
    rw [← htrim, isNullOrWhiteSpace_trim, htrim, List.isEmpty_iff] at hblank
    exact hblank.symm
  · have hstays : text.filter staysForLayout = text :=
      List.filter_eq_self.mpr fun c hc => staysForLayout_iff.mpr (h.controls c hc)
    have hblanks : ∀ c ∈ text, isBlank c = true → c = space := by
      intro c hc hblank
      rcases (by simpa [isBlank] using hblank : c = 0x20 ∨ c = 0x09) with rfl | rfl
      · rfl
      · -- a tab is a control character
        exact absurd (h.controls _ hc (by decide)) (by decide)
    have hlines : Regex.replace blankLinesPattern [lineFeed, lineFeed] text = text :=
      gapwise_replaceBlankLines.eq_self fun g hg hspace =>
        blankLinesPattern_reachesLast.replace_eq_self hspace (h.lineFeeds g hg hspace)
    rw [hstays, replaceSpacing, replaceBlanks_eq, Segment.collapse_eq_self hblanks h.blanks, hlines,
      htrim]

/-- What the two calls of `Regex.Replace` leave, before the text is trimmed. -/
theorem replaceSpacing_spec (text : Text) (hstays : ∀ c ∈ text, staysForLayout c = true) :
    (∀ c ∈ replaceSpacing text, staysForLayout c = true) ∧
      (¬ [space, space] <:+: replaceSpacing text) ∧
      ∀ run, run <:+: replaceSpacing text → (∀ c ∈ run, isWhiteSpace c = true) →
        run.countP isLineFeed ≤ 2 := by
  have hne : [lineFeed, lineFeed] ≠ [] := List.cons_ne_nil _ _
  refine ⟨fun c hc => ?_, fun hpair => ?_, fun run hrun hspace => ?_⟩
  · rcases Regex.mem_replace hne hc with hc | hc
    · obtain rfl : c = lineFeed := by simpa using hc
      decide
    · rcases Regex.mem_replace (List.cons_ne_nil _ _) hc with hc | hc
      · obtain rfl := List.mem_singleton.mp hc
        decide
      · exact hstays c hc
  · have hother : ∀ d ∈ [space, space], d ∉ [lineFeed, lineFeed] := by
      intro d hd
      obtain rfl : d = space := by simpa using hd
      decide
    have hbefore := Regex.infix_of_infix_replace hne hpair hother
    rw [replaceBlanks_eq] at hbefore
    exact Segment.not_infix_collapse (by decide) text hbefore
  · obtain ⟨w, hw, hlater⟩ := gapwise_replaceBlankLines.infix_of_seps hrun hspace
    calc run.countP isLineFeed
        ≤ (Regex.replace blankLinesPattern [lineFeed, lineFeed] w).countP isLineFeed :=
          hlater.sublist.countP_le
      _ ≤ 2 := blankLinesPattern_reachesLast.countP_replace_le hw (by decide)

theorem cleanText_cleanTextForLayout (text : Text) : CleanText (cleanTextForLayout text) := by
  unfold cleanTextForLayout
  split
  · exact ⟨by simp, by simp, fun run hrun _ => by simp [List.infix_nil.mp hrun], by simp, by simp⟩
  · obtain ⟨hstays, hpair, hlines⟩ := replaceSpacing_spec (text.filter staysForLayout)
      fun c hc => (List.mem_filter.mp hc).2
    have htrim := Segment.infix_trim (p := isWhiteSpace)
      (replaceSpacing (text.filter staysForLayout))
    exact
      { controls := fun c hc => staysForLayout_iff.mp (hstays c (htrim.subset hc))
        blanks := fun h => hpair (h.trans htrim)
        lineFeeds := fun run hrun => hlines run (hrun.trans htrim)
        start := fun c hc => Segment.head_trim hc
        finish := fun c hc => Segment.getLast_trim hc }

/-- The cleaned-up text is in normal form, and cleaning it up once more changes nothing. -/
theorem cleanText_normalForm (text : Text) :
    cleanTextForLayout (cleanTextForLayout text) = cleanTextForLayout text ∧
      CleanText (cleanTextForLayout text) :=
  ⟨(cleanText_cleanTextForLayout text).cleanTextForLayout_eq, cleanText_cleanTextForLayout text⟩

/-! ## The words -/

/-- A text without its control characters, except white space. -/
def withoutControls (text : Text) : Text :=
  text.filter fun c => !isControl c || isWhiteSpace c

/-- The white space that the first step leaves, in a text without other control characters. -/
def leaveSpacing (text : Text) : Text :=
  text.filter fun c => !isWhiteSpace c || staysForLayout c

theorem filter_staysForLayout (text : Text) :
    text.filter staysForLayout = leaveSpacing (withoutControls text) := by
  have hspace : isWhiteSpace lineFeed = true ∧ isWhiteSpace carriageReturn = true := by decide
  rw [leaveSpacing, withoutControls, List.filter_filter]
  refine List.filter_congr fun c _ => ?_
  unfold staysForLayout
  by_cases hlf : c = lineFeed
  · simp [hlf, hspace.1]
  · by_cases hcr : c = carriageReturn
    · simp [hcr, hspace.2]
    · cases isControl c <;> cases isWhiteSpace c <;> simp [hlf, hcr]

theorem gapwise_leaveSpacing : Spacing.Gapwise isWhiteSpace leaveSpacing :=
  Spacing.Gapwise.filter fun c hc => by simp [hc]

/-- The two patterns match white space only, and put something in its place. -/
theorem words_replaceSpacing (text : Text) :
    Segment.words isWhiteSpace (replaceSpacing text) = Segment.words isWhiteSpace text := by
  have hgapwise : Spacing.Gapwise isWhiteSpace replaceSpacing :=
    gapwise_replaceBlankLines.comp gapwise_replaceBlanks
  rw [hgapwise.words_eq_iff]
  intro gap _
  unfold replaceSpacing
  rw [Regex.replace_eq_nil_iff (List.cons_ne_nil _ _),
    Regex.replace_eq_nil_iff (List.cons_ne_nil _ _)]

/-- The words of the cleaned-up text are those the first step leaves. -/
theorem words_cleanTextForLayout (text : Text) :
    splitRemoveEmpty isWhiteSpace (cleanTextForLayout text) =
      splitRemoveEmpty isWhiteSpace (text.filter staysForLayout) := by
  unfold cleanTextForLayout
  split
  · rename_i hblank
    have hall : ∀ c ∈ text, isWhiteSpace c = true := List.all_eq_true.mp hblank
    rw [splitRemoveEmpty, splitRemoveEmpty, Segment.words_nil]
    exact (Segment.words_eq_nil_iff.mpr fun c hc => hall c (List.mem_filter.mp hc).1).symm
  · rw [splitRemoveEmpty, splitRemoveEmpty, trim, Segment.words_trim, words_replaceSpacing]

/-- The words of a text stay, but for control characters in them, exactly when in each gap between
two of them there is something that the first step leaves. -/
theorem words_cleanTextForLayout_iff (text : Text) :
    splitRemoveEmpty isWhiteSpace (cleanTextForLayout text) =
        splitRemoveEmpty isWhiteSpace (withoutControls text) ↔
      ∀ gap, Spacing.InnerGap isWhiteSpace (withoutControls text) gap → gap ≠ [] →
        ∃ c ∈ gap, staysForLayout c = true := by
  rw [words_cleanTextForLayout, filter_staysForLayout]
  refine (gapwise_leaveSpacing.words_eq_iff (withoutControls text)).trans ?_
  refine forall₂_congr fun gap hgap => ?_
  have hspace : ∀ c ∈ gap, isWhiteSpace c = true := by
    obtain ⟨-, -, -, -, -, -, -, hspace⟩ := hgap
    exact hspace
  have hleft : leaveSpacing gap = [] ↔ ∀ c ∈ gap, ¬ staysForLayout c = true := by
    rw [leaveSpacing, List.filter_eq_nil_iff]
    exact forall₂_congr fun c hc => by simp [hspace c hc]
  rw [hleft]
  constructor
  · intro h hne
    by_contra hnone
    push Not at hnone
    exact hne (h.mp hnone)
  · intro h
    constructor
    · intro hnone
      by_contra hne
      obtain ⟨c, hc, hstays⟩ := h hne
      exact hnone c hc hstays
    · rintro rfl
      simp

/-- A tab between two words is taken out, and the words are one. -/
theorem cleanTextForLayout_joins_words :
    ¬ ∀ text : Text, splitRemoveEmpty isWhiteSpace (cleanTextForLayout text) =
      splitRemoveEmpty isWhiteSpace (withoutControls text) := by
  intro h
  exact absurd (h [0x61, 0x09, 0x62]) (by decide)

end Typesetting
