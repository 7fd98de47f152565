/-
# Typesetting.Services.WrapText -- `WrapText` breaks a text by first fit

The loop over the words keeps the lines written so far and the current line. The current line is
the open group of words joined by blanks, and the lines are the closed groups, joined and trimmed.
The test of the loop counts the blank before the word also at the start of a line, where it has no
effect: there is nothing to be written yet.

A word may consist of white space other than blanks and tabs. Trimming leaves nothing of it, so a
line may be empty.
-/
import Mathlib.Algebra.GroupWithZero.Nat
import Typesetting.Lib.LineBuilder
import Typesetting.Services.TextHelper

namespace Typesetting

/-- Words that fill at most `maxCharsPerLine` characters when they are joined by blanks. -/
abbrev FitsChars (maxCharsPerLine : Int) : List Text → Prop :=
  LineBuilder.FitsJoined space fun line => (line.length : Int) ≤ maxCharsPerLine

/-! ## The loop and first fit -/

section Simulation

variable {maxCharsPerLine : Int} {lines : List Text} {currentLine word : Text}

/-- At the start of a line nothing is written, whatever the test says. -/
theorem wrapTextStep_start :
    wrapTextStep maxCharsPerLine (lines, []) word = (lines, word) := by
  simp [wrapTextStep]

theorem wrapTextStep_room (hopen : currentLine ≠ [])
    (hroom : ((currentLine ++ [space] ++ word).length : Int) ≤ maxCharsPerLine) :
    wrapTextStep maxCharsPerLine (lines, currentLine) word =
      (lines, currentLine ++ [space] ++ word) := by
  have hpos : 0 < currentLine.length := List.length_pos_of_ne_nil hopen
  have htest : ¬ maxCharsPerLine < (currentLine.length + word.length + 1 : Int) := by
    simp only [List.length_append, List.length_singleton] at hroom
    omega
  simp [wrapTextStep, htest, hpos]

theorem wrapTextStep_full (hopen : currentLine ≠ [])
    (hfull : ¬ ((currentLine ++ [space] ++ word).length : Int) ≤ maxCharsPerLine) :
    wrapTextStep maxCharsPerLine (lines, currentLine) word = (lines ++ [trim currentLine], word) := by
  have hpos : 0 < currentLine.length := List.length_pos_of_ne_nil hopen
  have htest : maxCharsPerLine < (currentLine.length + word.length + 1 : Int) := by
    simp only [List.length_append, List.length_singleton] at hfull
    omega
  simp [wrapTextStep, htest, hpos]

/-- The local variables of the loop are the lines and the current line. -/
theorem isBuilder_wrapTextStep (maxCharsPerLine : Int) :
    LineBuilder.IsBuilder space (fun line => (line.length : Int) ≤ maxCharsPerLine) trim
      Prod.fst Prod.snd (fun _ => True) (wrapTextStep maxCharsPerLine) where
  good_step _ _ _ _ := trivial
  start := by
    rintro ⟨lines, currentLine⟩ word - - rfl
    rw [wrapTextStep_start]
    exact ⟨rfl, rfl⟩
  room := by
    rintro ⟨lines, currentLine⟩ word - - hopen hroom
    rw [wrapTextStep_room hopen hroom]
    exact ⟨rfl, rfl⟩
  full := by
    rintro ⟨lines, currentLine⟩ word - - hopen hfull
    rw [wrapTextStep_full hopen hfull]
    exact ⟨rfl, rfl⟩

end Simulation

/-- The lines of a text that is not blank: the first-fit groups of its words, joined by blanks and
trimmed. -/
theorem wrapText_eq_firstFit {text : Text} (htext : isNullOrWhiteSpace text = false)
    (maxCharsPerLine : Int) :
    wrapText text maxCharsPerLine =
      (FirstFit.firstFit (FitsChars maxCharsPerLine) (splitRemoveEmpty isBlank text)).map
        fun g => trim (joinWith [space] g) := by
  have hwords : ∀ word ∈ splitRemoveEmpty isBlank text, word ≠ [] :=
    fun _ hword => (Segment.mem_words hword).1
  rw [wrapText, if_neg (by simp [htext])]
  exact (isBuilder_wrapTextStep maxCharsPerLine).written ([], []) trivial rfl rfl hwords

/-! ## The lines of a text -/

/-- Every word takes its characters and a blank, except that no blank follows the last one. -/
theorem length_joinWith_space (words : List Text) :
    (joinWith [space] words).length = (words.map fun w => w.length + 1).sum - 1 := by
  induction words with
  | nil => rfl
  | cons w ws ih =>
      cases ws with
      | nil => simp [joinWith]
      | cons v vs =>
          have hcons : joinWith [space] (w :: v :: vs) = w ++ [space] ++ joinWith [space] (v :: vs) :=
            List.intercalate_cons_cons
          rw [hcons]
          simp only [List.length_append, List.length_singleton, ih, List.map_cons, List.sum_cons]
          omega

/-- Fewer words take no more characters. -/
theorem FitsChars.infix {maxCharsPerLine : Int} {words part : List Text}
    (h : FitsChars maxCharsPerLine words) (hpart : part <:+: words) :
    FitsChars maxCharsPerLine part := by
  obtain ⟨before, after, rfl⟩ := hpart
  have hlen : ((joinWith [space] (before ++ part ++ after)).length : Int) ≤ maxCharsPerLine := h
  show ((joinWith [space] part).length : Int) ≤ maxCharsPerLine
  rw [length_joinWith_space] at hlen ⊢
  simp only [List.map_append, List.sum_append] at hlen
  omega

/-- The words at white space of lines made of words at blanks are those of the words. -/
theorem flatMap_words_lines (groups : List (List Text)) :
    (groups.map fun g => trim (joinWith [space] g)).flatMap (splitRemoveEmpty isWhiteSpace) =
      groups.flatten.flatMap (splitRemoveEmpty isWhiteSpace) := by
  have hline : ∀ g : List Text, splitRemoveEmpty isWhiteSpace (trim (joinWith [space] g)) =
      g.flatMap (splitRemoveEmpty isWhiteSpace) := by
    intro g
    show Segment.words isWhiteSpace (Segment.trim isWhiteSpace (List.intercalate [space] g)) = _
    rw [Segment.words_trim, Segment.words_intercalate isWhiteSpace_space]
    rfl
  induction groups with
  | nil => rfl
  | cons g gs ih =>
      rw [List.map_cons, List.flatMap_cons, ih, hline, List.flatten_cons, List.flatMap_append]

/-- The words at white space are found in the words at blanks and tabs. -/
theorem flatMap_words_isBlank (text : Text) :
    (splitRemoveEmpty isBlank text).flatMap (splitRemoveEmpty isWhiteSpace) =
      splitRemoveEmpty isWhiteSpace text := by
  show _ = Segment.words isWhiteSpace text
  rw [Segment.words_eq_flatMap_words isWhiteSpace_of_isBlank]
  show ((text.splitOnP isBlank).filter fun w => !w.isEmpty).flatMap (Segment.words isWhiteSpace) = _
  -- the empty pieces between separators hold no word
  induction text.splitOnP isBlank with
  | nil => rfl
  | cons piece pieces ih =>
      cases piece with
      | nil => simpa using ih
      | cons c cs => simpa using ih

/-- The lines hold the words of the text, in their order. -/
theorem words_wrapText (text : Text) (maxCharsPerLine : Int) :
    (wrapText text maxCharsPerLine).flatMap (splitRemoveEmpty isWhiteSpace) =
      splitRemoveEmpty isWhiteSpace text := by
  cases hblank : isNullOrWhiteSpace text with
  | true =>
      have hwords : splitRemoveEmpty isWhiteSpace text = [] :=
        (isNullOrWhiteSpace_iff_words text).mp hblank
      rw [wrapText, if_pos hblank, hwords]
      rfl
  | false =>
      have hfirst := FirstFit.isFirstFit_firstFit (FitsChars maxCharsPerLine)
        (splitRemoveEmpty isBlank text)
      rw [wrapText_eq_firstFit hblank, flatMap_words_lines, hfirst.flatten, flatMap_words_isBlank]

/-- Blanks apart, the lines hold no other characters than the text. -/
theorem mem_wrapText {text line : Text} {maxCharsPerLine : Int} {c : UInt16}
    (hline : line ∈ wrapText text maxCharsPerLine) (hc : c ∈ line) : c = space ∨ c ∈ text := by
  cases hblank : isNullOrWhiteSpace text with
  | true =>
      rw [wrapText, if_pos hblank] at hline
      cases hline
  | false =>
      have hfirst := FirstFit.isFirstFit_firstFit (FitsChars maxCharsPerLine)
        (splitRemoveEmpty isBlank text)
      rw [wrapText_eq_firstFit hblank] at hline
      obtain ⟨g, hg, rfl⟩ := List.mem_map.mp hline
      rcases Segment.mem_intercalate ((Segment.trim_sublist _).subset hc) with h | ⟨word, hw, hcw⟩
      · exact .inl h
      · have hword := hfirst.mem_of_mem_group hg hw
        exact .inr (Segment.exists_mem_words_iff.mp ⟨word, hword, hcw⟩).1

/-- Trimming a word leaves a single word, or nothing of a word of other white space. -/
theorem words_trim_word {text word : Text} (hword : word ∈ splitRemoveEmpty isBlank text) :
    splitRemoveEmpty isBlank (trim word) = if trim word = [] then [] else [trim word] := by
  apply Segment.words_clean_eq
  intro c hc
  exact (Segment.mem_words hword).2 c ((Segment.trim_sublist word).subset hc)

/-- A line is narrow enough unless it is a single word. -/
theorem length_line_le_or_word {maxCharsPerLine : Int} {text : Text} {g : List Text}
    (hwords : ∀ word ∈ g, word ∈ splitRemoveEmpty isBlank text)
    (hg : g.length = 1 ∨ g ≠ [] ∧ FitsChars maxCharsPerLine g) :
    ((trim (joinWith [space] g)).length : Int) ≤ maxCharsPerLine ∨
      ∃ word ∈ splitRemoveEmpty isBlank text, trim (joinWith [space] g) = trim word ∧
        (splitRemoveEmpty isBlank (trim word) = [trim word] ∨
          maxCharsPerLine < 0 ∧ trim word = []) := by
  rcases hg with hsingle | ⟨-, hfits⟩
  · obtain ⟨word, rfl⟩ := List.length_eq_one_iff.mp hsingle
    have hword := hwords word List.mem_cons_self
    have hjoin : joinWith [space] [word] = word := by simp [joinWith]
    rw [hjoin]
    by_cases hnil : trim word = []
    · by_cases hwidth : maxCharsPerLine < 0
      · exact .inr ⟨word, hword, rfl, .inr ⟨hwidth, hnil⟩⟩
      · left
        rw [hnil, List.length_nil]
        omega
    · refine .inr ⟨word, hword, rfl, .inl ?_⟩
      rw [words_trim_word hword, if_neg hnil]
  · left
    have hle : (trim (joinWith [space] g)).length ≤ (joinWith [space] g).length :=
      (Segment.trim_sublist _).length_le
    have hmax : ((joinWith [space] g).length : Int) ≤ maxCharsPerLine := hfits
    omega

/-- `WrapText` keeps the words. A line has at most `maxCharsPerLine` characters, or it is what
trimming leaves of a single word; that is a single word again, except that at a negative width
nothing may be left. A text that is not blank has as few lines as any way to cut its words into
lines. -/
theorem wrapText_lines (text : Text) (maxCharsPerLine : Int) :
    (wrapText text maxCharsPerLine).flatMap (splitRemoveEmpty isWhiteSpace) =
        splitRemoveEmpty isWhiteSpace text ∧
      (∀ line ∈ wrapText text maxCharsPerLine, (line.length : Int) ≤ maxCharsPerLine ∨
        ∃ word ∈ splitRemoveEmpty isBlank text, line = trim word ∧
          (splitRemoveEmpty isBlank line = [line] ∨ maxCharsPerLine < 0 ∧ line = [])) ∧
      (isNullOrWhiteSpace text = true → wrapText text maxCharsPerLine = []) ∧
      (isNullOrWhiteSpace text = false →
        IsLeast {n | ∃ groups,
            FirstFit.Breaking (FitsChars maxCharsPerLine) (splitRemoveEmpty isBlank text) groups ∧
              groups.length = n}
          (wrapText text maxCharsPerLine).length) := by
  cases hblank : isNullOrWhiteSpace text with
  | true =>
      have hlines : wrapText text maxCharsPerLine = [] := by rw [wrapText, if_pos hblank]
      have hwords : splitRemoveEmpty isWhiteSpace text = [] :=
        (isNullOrWhiteSpace_iff_words text).mp hblank
      rw [hlines, hwords]
      exact ⟨rfl, by simp, fun _ => rfl, (fun h => nomatch h)⟩
  | false =>
      have hfirst := FirstFit.isFirstFit_firstFit (FitsChars maxCharsPerLine)
        (splitRemoveEmpty isBlank text)
      rw [wrapText_eq_firstFit hblank]
      generalize FirstFit.firstFit (FitsChars maxCharsPerLine) (splitRemoveEmpty isBlank text) =
        groups at hfirst ⊢
      refine ⟨?_, ?_, (fun h => nomatch h), fun _ => ?_⟩
      · rw [flatMap_words_lines, hfirst.flatten, flatMap_words_isBlank]
      · intro line hline
        obtain ⟨g, hg, rfl⟩ := List.mem_map.mp hline
        have hwords : ∀ word ∈ g, word ∈ splitRemoveEmpty isBlank text :=
          fun _ hword => hfirst.mem_of_mem_group hg hword
        rcases length_line_le_or_word hwords (hfirst.breaking.group g hg) with
          hle | ⟨word, hword, heq, hsingle⟩
        · exact .inl hle
        · rw [heq]
          exact .inr ⟨word, hword, rfl, hsingle⟩
      · rw [List.length_map]
        exact hfirst.isLeast_length fun g _ hfits k hk _ => hfits.infix hk

/-- A word of other white space and a negative width: the line is empty, so it holds no word, and
still has too many characters. -/
theorem wrapText_empty_line :
    ¬ ∀ (text : Text) (maxCharsPerLine : Int), ∀ line ∈ wrapText text maxCharsPerLine,
        (line.length : Int) ≤ maxCharsPerLine ∨ splitRemoveEmpty isBlank line = [line] := by
  intro hall
  have hlines : wrapText [0x0B, 0x20, 0x61] (-1) = [[], [0x61]] := by decide +kernel
  have hline := hall [0x0B, 0x20, 0x61] (-1) [] (by rw [hlines]; exact List.mem_cons_self)
  exact absurd hline (by decide +kernel)

end Typesetting
