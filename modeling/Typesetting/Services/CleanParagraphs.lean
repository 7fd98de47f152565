/-
# Typesetting.Services.CleanParagraphs -- cleaning a text and cutting it into paragraphs

`CleanTextForLayout` is meant to come before `SplitToParagraphs`, and every empty line that cuts the
text cuts the cleaned text as well. The other way round it makes breaks: a tab between two line feeds
is a control character and goes, and of three line feeds with blanks between them the two that are
left stand side by side. Cleaning the text and then cutting it gives the cleaned paragraphs exactly
when no gap between two visible characters is of these kinds.
-/
import Typesetting.Services.CleanTextForLayout
import Typesetting.Services.SplitToParagraphs

namespace Typesetting

/-- What cleaning does to white space, before the text is trimmed. -/
def cleanSpacing (text : Text) : Text :=
  replaceSpacing (leaveSpacing text)

theorem gapwise_cleanSpacing : Spacing.Gapwise isWhiteSpace cleanSpacing :=
  (gapwise_replaceBlankLines.comp gapwise_replaceBlanks).comp gapwise_leaveSpacing

/-- Cleaning takes the control characters out, changes the gaps and trims. -/
theorem cleanTextForLayout_eq_trim (text : Text) :
    cleanTextForLayout text = trim (cleanSpacing (withoutControls text)) := by
  unfold cleanTextForLayout
  split
  · rename_i hblank
    have hall : ∀ c ∈ withoutControls text, isWhiteSpace c = true :=
      fun c hc => List.all_eq_true.mp hblank c (List.mem_filter.mp hc).1
    have hgap := Spacing.trim_seps_append (gapwise_cleanSpacing.seps _ hall) []
    rw [List.append_nil] at hgap
    exact hgap.symm
  · rw [filter_staysForLayout]
    rfl

/-! ## The paragraphs of the cleaned text -/

theorem splitToParagraphs_cleanTextForLayout (text : Text) :
    splitToParagraphs (cleanTextForLayout text) =
      splitToParagraphs (cleanSpacing (withoutControls text)) := by
  rw [cleanTextForLayout_eq_trim, splitToParagraphs_eq, splitToParagraphs_eq]
  exact Splitter.trimmed_split_trim paragraphSeparators_within _

/-- Cleaning a paragraph changes its gaps only. -/
theorem cleanTextForLayout_paragraph {text paragraph : Text}
    (h : paragraph ∈ splitToParagraphs (withoutControls text)) :
    cleanTextForLayout paragraph = cleanSpacing paragraph := by
  rw [splitToParagraphs_eq] at h
  obtain ⟨hmem, -⟩ := List.mem_filter.mp h
  obtain ⟨piece, hpiece, rfl⟩ := List.mem_map.mp hmem
  have hcontrols : withoutControls (Segment.trim isWhiteSpace piece) =
      Segment.trim isWhiteSpace piece := by
    refine List.filter_eq_self.mpr fun c hc => ?_
    have hin := Splitter.mem_of_mem_split hpiece c ((Segment.trim_sublist piece).subset hc)
    exact (List.mem_filter.mp hin).2
  rw [cleanTextForLayout_eq_trim, hcontrols, trim, gapwise_cleanSpacing.trim, Segment.trim_trim]

/-! ## The gaps that cut -/

theorem staysForLayout_of_mem_separator {separator : Text} (h : separator ∈ paragraphSeparators) :
    ∀ c ∈ separator, staysForLayout c = true ∧ isBlank c = false := by
  have hall : (paragraphSeparators.all fun separator =>
      separator.all fun c => staysForLayout c && !isBlank c) = true := by decide
  intro c hc
  have hchar := List.all_eq_true.mp (List.all_eq_true.mp hall separator h) c hc
  simpa using hchar

/-- A run of white space cuts the cleaned text when an empty line is in it, be it behind white space
that is a control character, or when there are three line feeds. -/
theorem contains_cleanSpacing_iff {gap : Text} (hgap : ∀ c ∈ gap, isWhiteSpace c = true) :
    Splitter.Contains paragraphSeparators (cleanSpacing gap) ↔
      Splitter.Contains paragraphSeparators (gap.filter staysForLayout) ∨ 2 < gap.count lineFeed := by
  have hleft : leaveSpacing gap = gap.filter staysForLayout :=
    List.filter_congr fun c hc => by simp [hgap c hc]
  have hspace : ∀ c ∈ Regex.replace blanksPattern [space] (leaveSpacing gap),
      isWhiteSpace c = true :=
    gapwise_replaceBlanks.seps _ (gapwise_leaveSpacing.seps gap hgap)
  -- neither the first step nor the blanks have to do with line feeds
  have hcount : (Regex.replace blanksPattern [space] (leaveSpacing gap)).countP isLineFeed =
      gap.count lineFeed := by
    have hblank : ∀ c : UInt16, isLineFeed c = true → (!isBlank c) = true := by
      intro c hc
      rw [beq_iff_eq.mp hc]
      decide
    have hstays : ∀ c : UInt16, isLineFeed c = true → staysForLayout c = true := by
      intro c hc
      rw [beq_iff_eq.mp hc]
      decide
    have hfilter : ∀ l : Text, (l.filter fun c => !isBlank c).countP isLineFeed =
        l.countP isLineFeed := by
      intro l
      rw [List.countP_filter]
      exact List.countP_congr fun c _ => by
        constructor
        · intro hc
          exact (Bool.and_eq_true_iff.mp hc).1
        · intro hc
          exact Bool.and_eq_true_iff.mpr ⟨hc, hblank c hc⟩
    rw [replaceBlanks_eq, ← hfilter, Segment.collapse, Segment.filter_collapseFrom (by decide),
      hfilter, hleft, List.countP_filter]
    refine List.countP_congr fun c _ => ?_
    constructor
    · intro hc
      exact (Bool.and_eq_true_iff.mp hc).1
    · intro hc
      exact Bool.and_eq_true_iff.mpr ⟨hc, hstays c hc⟩
  have hblanks : Splitter.Contains paragraphSeparators
      (Regex.replace blanksPattern [space] (leaveSpacing gap)) ↔
        Splitter.Contains paragraphSeparators (gap.filter staysForLayout) := by
    rw [← hleft]
    refine exists_congr fun separator => and_congr_right fun hsep => ?_
    have hclean := staysForLayout_of_mem_separator hsep
    constructor
    · intro hinfix
      refine Regex.infix_of_infix_replace (List.cons_ne_nil _ _) hinfix fun c hc hmem => ?_
      obtain rfl := List.mem_singleton.mp hmem
      exact absurd (hclean _ hc).2 (by decide)
    · intro hinfix
      have hgapwise : Spacing.Gapwise isBlank (Regex.replace blanksPattern [space]) :=
        Regex.gapwise_replace (Regex.plus_within fun c hc => hc) (List.cons_ne_nil _ _)
          (List.all_eq_true.mp (by decide))
      exact hgapwise.infix_of_clean (fun c hc => (hclean c hc).2) hinfix
  rw [← hblanks, ← hcount]
  show Splitter.Contains paragraphSeparators (Regex.replace blankLinesPattern [lineFeed, lineFeed]
    (Regex.replace blanksPattern [space] (leaveSpacing gap))) ↔ _
  generalize Regex.replace blanksPattern [space] (leaveSpacing gap) = run at hspace ⊢
  by_cases hmany : 2 < run.countP isLineFeed
  · refine iff_of_true ⟨[lineFeed, lineFeed], List.mem_cons_self, ?_⟩ (.inr hmany)
    exact blankLinesPattern_reachesLast.infix_replace hspace hmany
  · rw [blankLinesPattern_reachesLast.replace_eq_self hspace (not_lt.mp hmany)]
    exact ⟨.inl, fun h => h.resolve_right hmany⟩

/-- Cleaning a text and cutting it into paragraphs is cutting it and cleaning the paragraphs exactly
when in every gap between two visible characters that has three line feeds, or an empty line once
its control characters are taken out, there is an empty line as it is. -/
theorem splitToParagraphs_cleanTextForLayout_iff (text : Text) :
    splitToParagraphs (cleanTextForLayout text) =
        (splitToParagraphs (withoutControls text)).map cleanTextForLayout ↔
      ∀ gap, Spacing.InnerGap isWhiteSpace (withoutControls text) gap →
        Splitter.Contains paragraphSeparators (gap.filter staysForLayout) ∨
            2 < gap.count lineFeed →
          Splitter.Contains paragraphSeparators gap := by
  have hmap : (splitToParagraphs (withoutControls text)).map cleanTextForLayout =
      (splitToParagraphs (withoutControls text)).map cleanSpacing :=
    List.map_congr_left fun paragraph hparagraph => cleanTextForLayout_paragraph hparagraph
  rw [splitToParagraphs_cleanTextForLayout, hmap, splitToParagraphs_eq, splitToParagraphs_eq,
    Splitter.trimmed_split_gapwise_iff paragraphSeparators_within gapwise_cleanSpacing]
  refine forall₂_congr fun gap hgap => ?_
  have hspace : ∀ c ∈ gap, isWhiteSpace c = true := by
    obtain ⟨-, -, -, -, -, -, -, hspace⟩ := hgap
    exact hspace
  rw [contains_cleanSpacing_iff hspace]
  refine ⟨fun h => h.mp, fun h => ⟨h, ?_⟩⟩
  -- an empty line stays one when characters beside it are taken out
  rintro ⟨separator, hsep, hinfix⟩
  refine .inl ⟨separator, hsep, ?_⟩
  have hfilter := hinfix.filter staysForLayout
  rwa [List.filter_eq_self.mpr fun c hc => (staysForLayout_of_mem_separator hsep c hc).1] at hfilter

/-- Three line feeds with blanks between them are no empty line, and become one. -/
example : splitToParagraphs (cleanTextForLayout
    [0x61, lineFeed, space, lineFeed, space, lineFeed, 0x62]) = [[0x61], [0x62]] := by
  decide

end Typesetting
