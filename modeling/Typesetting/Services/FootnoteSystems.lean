/-
# Typesetting.Services.FootnoteSystems -- what the columns get of the notes of each system

The notes of a system that a range of lines should carry are the entries of its list with the
numbers of these lines. `GetFootnotesForRange` returns them for every range exactly when the joined
list of all notes begins with the notes of the system that have a line of their own. System A is
joined first, so this always holds for it.

For the notes of a raw text there is a second loss. Extraction leaves one main line, notes are
attached to lines by number, so no note after the first of a system reaches any range.
-/
import Typesetting.Services.FootnotePlacement

namespace Typesetting

/-- The non-empty notes with the numbers of the lines of a range, in order. -/
def notesInRange (notes : List Text) (lineCount : Nat) (startLine count : Int) : List Text :=
  ((numbersInRange (min notes.length lineCount) startLine count).map fun i =>
    notes.getD i []).filter fun note => !note.isEmpty

/-! ## One system -/

section OneSystem

variable {doc : Services.ParsedDocument} {notes mainLines : List Text}

theorem numbersInRange_single {n i : Nat} (h : i < n) : numbersInRange n i 1 = [i] := by
  refine List.Pairwise.eq_of_mem_iff (pairwise_numbersInRange n i 1) (List.pairwise_singleton _ i) ?_
  intro k
  rw [mem_numbersInRange, List.mem_singleton]
  omega

/-- Two texts that are dropped or kept alike when empty are the same. -/
theorem eq_of_filter_singleton {a b : Text}
    (h : [a].filter (fun note => !note.isEmpty) = [b].filter fun note => !note.isEmpty) :
    a = b := by
  cases a <;> cases b <;> simp_all

/-- An index below the length of the joined list stands for its entry. -/
theorem getFootnoteByIndex_of_lt {i : Nat} (h : i < doc.joinedFootnotes.length) :
    getFootnoteByIndex doc i = doc.joinedFootnotes[i] := by
  rw [getFootnoteByIndex_eq, List.getElem?_eq_getElem h, Option.getD_some]

theorem take_prefix_iff (hlength : notes.length ≤ doc.joinedFootnotes.length) (n : Nat) :
    notes.take n <+: doc.joinedFootnotes ↔
      ∀ i < min notes.length n, getFootnoteByIndex doc i = notes.getD i [] := by
  rw [List.prefix_iff_getElem?]
  constructor
  · intro h i hi
    have hnotes : i < notes.length := by omega
    have hentry := h i (by rw [List.length_take]; omega)
    rw [getFootnoteByIndex_eq, hentry, Option.getD_some, List.getElem_take]
    simp [List.getD_eq_getElem?_getD, hnotes]
  · intro h i hi
    rw [List.length_take] at hi
    have hnotes : i < notes.length := by omega
    have hjoined : i < doc.joinedFootnotes.length := by omega
    have hentry := h i (by omega)
    rw [getFootnoteByIndex_of_lt hjoined] at hentry
    rw [List.getElem?_eq_getElem hjoined, hentry, List.getElem_take]
    simp [List.getD_eq_getElem?_getD, hnotes]

/-- Every range gets the notes of a system exactly when the joined list begins with those of them
that have a line. -/
theorem getFootnotesForRange_system_iff (hlength : notes.length ≤ doc.joinedFootnotes.length) :
    (∀ startLine count, getFootnotesForRange doc startLine count (noteLocations notes mainLines) =
        notesInRange notes mainLines.length startLine count) ↔
      notes.take mainLines.length <+: doc.joinedFootnotes := by
  rw [take_prefix_iff hlength]
  constructor
  · intro h i hi
    -- the range of the single line `i`
    have hline := h i 1
    rw [getFootnotesForRange_noteLocations, notesInRange, numbersInRange_single hi] at hline
    exact eq_of_filter_singleton hline
  · intro h startLine count
    rw [getFootnotesForRange_noteLocations, notesInRange]
    congr 1
    apply List.map_congr_left
    intro i hi
    exact h i (mem_numbersInRange.mp hi).1

end OneSystem

/-! ## The three systems of a document -/

section Document

variable (main : Text) (fA fB fC : List Text)

theorem joinedFootnotes_createParsedDocument :
    (createParsedDocument main fA fB fC).joinedFootnotes = fA ++ fB ++ fC := rfl

theorem getFootnotesForRange_A (startLine count : Int) :
    getFootnotesForRange (createParsedDocument main fA fB fC) startLine count
        (createParsedDocument main fA fB fC).footnoteALocations =
      notesInRange fA (createParsedDocument main fA fB fC).mainLines.length startLine count := by
  have hprefix : fA.take (createParsedDocument main fA fB fC).mainLines.length <+:
      (createParsedDocument main fA fB fC).joinedFootnotes := by
    rw [joinedFootnotes_createParsedDocument, List.append_assoc]
    exact (List.take_prefix _ _).trans (List.prefix_append _ _)
  refine (getFootnotesForRange_system_iff ?_).mpr hprefix startLine count
  simp only [joinedFootnotes_createParsedDocument, List.length_append]
  omega

/-- Each range gets the notes of all three systems exactly when the joined list begins with the
notes of B that have a line, and with the notes of C that have a line. -/
theorem getFootnotesForRange_systems_iff :
    (∀ startLine count : Int,
        let doc := createParsedDocument main fA fB fC
        getFootnotesForRange doc startLine count doc.footnoteALocations =
            notesInRange fA doc.mainLines.length startLine count ∧
          getFootnotesForRange doc startLine count doc.footnoteBLocations =
            notesInRange fB doc.mainLines.length startLine count ∧
          getFootnotesForRange doc startLine count doc.footnoteCLocations =
            notesInRange fC doc.mainLines.length startLine count) ↔
      fB.take (createParsedDocument main fA fB fC).mainLines.length <+: fA ++ fB ++ fC ∧
        fC.take (createParsedDocument main fA fB fC).mainLines.length <+: fA ++ fB ++ fC := by
  have hB : fB.length ≤ (createParsedDocument main fA fB fC).joinedFootnotes.length := by
    simp only [joinedFootnotes_createParsedDocument, List.length_append]
    omega
  have hC : fC.length ≤ (createParsedDocument main fA fB fC).joinedFootnotes.length := by
    simp only [joinedFootnotes_createParsedDocument, List.length_append]
    omega
  rw [← joinedFootnotes_createParsedDocument main, ← getFootnotesForRange_system_iff hB,
    ← getFootnotesForRange_system_iff hC, ← forall_and]
  apply forall_congr'
  intro startLine
  rw [← forall_and]
  apply forall_congr'
  intro count
  exact ⟨fun h => h.2, fun h => ⟨getFootnotesForRange_A main fA fB fC startLine count, h⟩⟩

end Document

/-- A note of B behind one of A: the range of the first line gets the note of A twice. -/
theorem getFootnotesForRange_mixes_systems :
    ¬ ∀ (main : Text) (fA fB fC : List Text) (startLine count : Int),
        let doc := createParsedDocument main fA fB fC
        getFootnotesForRange doc startLine count doc.footnoteALocations =
            notesInRange fA doc.mainLines.length startLine count ∧
          getFootnotesForRange doc startLine count doc.footnoteBLocations =
            notesInRange fB doc.mainLines.length startLine count ∧
          getFootnotesForRange doc startLine count doc.footnoteCLocations =
            notesInRange fC doc.mainLines.length startLine count := by
  intro hall
  exact absurd (hall (utf16 "x") [utf16 "a"] [utf16 "b"] [] 0 1).2.1 (by decide +kernel)

/-! ## Pages one after the other -/

/-- Consecutive ranges of lines with the given lengths: their start lines and lengths. -/
def consecutiveRanges (startLine : Nat) : List Nat → List (Nat × Nat)
  | [] => []
  | count :: counts => (startLine, count) :: consecutiveRanges (startLine + count) counts

theorem numbersInRange_append (n : Nat) (startLine : Int) {c d : Int} (hc : 0 ≤ c) (hd : 0 ≤ d) :
    numbersInRange n startLine c ++ numbersInRange n (startLine + c) d =
      numbersInRange n startLine (c + d) := by
  refine List.Pairwise.eq_of_mem_iff ?_ (pairwise_numbersInRange n startLine (c + d)) ?_
  · apply List.pairwise_append.mpr
    refine ⟨pairwise_numbersInRange _ _ _, pairwise_numbersInRange _ _ _, ?_⟩
    intro i hi j hj
    rw [mem_numbersInRange] at hi hj
    omega
  · intro k
    rw [List.mem_append, mem_numbersInRange, mem_numbersInRange, mem_numbersInRange]
    omega

/-- The notes of consecutive ranges are those of the range they make up. -/
theorem flatMap_consecutiveRanges (notes : List Text) (lineCount startLine : Nat)
    (counts : List Nat) :
    (consecutiveRanges startLine counts).flatMap
        (fun range => notesInRange notes lineCount range.1 range.2) =
      notesInRange notes lineCount startLine counts.sum := by
  induction counts generalizing startLine with
  | nil =>
      have hnone : numbersInRange (min notes.length lineCount) startLine 0 = [] := by
        apply List.eq_nil_iff_forall_not_mem.mpr
        intro k hk
        rw [mem_numbersInRange] at hk
        omega
      show [] = notesInRange notes lineCount startLine 0
      rw [notesInRange, hnone]
      rfl
  | cons count counts ih =>
      have happend := numbersInRange_append (min notes.length lineCount) startLine
        (Int.natCast_nonneg count) (Int.natCast_nonneg counts.sum)
      rw [consecutiveRanges, List.flatMap_cons, ih, List.sum_cons, Int.natCast_add,
        Int.natCast_add]
      rw [notesInRange, notesInRange, notesInRange, ← List.filter_append, ← List.map_append,
        happend]

/-- The range of all lines gets the notes that have a line. -/
theorem notesInRange_all (notes : List Text) (lineCount : Nat) :
    notesInRange notes lineCount 0 lineCount =
      (notes.take lineCount).filter fun note => !note.isEmpty := by
  have hall : numbersInRange (min notes.length lineCount) 0 lineCount =
      List.range (min notes.length lineCount) := by
    apply List.filter_eq_self.mpr
    intro i hi
    rw [List.mem_range] at hi
    simp only [decide_eq_true_eq]
    omega
  have hnotes : (List.range (min notes.length lineCount)).map (fun i => notes.getD i []) =
      notes.take lineCount := by
    apply List.ext_getElem
    · simp [Nat.min_comm]
    · intro i hi hi'
      rw [List.length_map, List.length_range] at hi
      have hlt : i < notes.length := by omega
      simp [List.getD_eq_getElem?_getD, hlt]
  rw [notesInRange, hall, hnotes]

/-- Whatever the cut into pages, the pages together carry the notes of A that have a line. -/
theorem flatMap_ranges_footnotesA (main : Text) (fA fB fC : List Text) {counts : List Nat}
    (hsum : counts.sum = (createParsedDocument main fA fB fC).mainLines.length) :
    (consecutiveRanges 0 counts).flatMap (fun range =>
        getFootnotesForRange (createParsedDocument main fA fB fC) range.1 range.2
          (createParsedDocument main fA fB fC).footnoteALocations) =
      (fA.take (createParsedDocument main fA fB fC).mainLines.length).filter fun note =>
        !note.isEmpty := by
  have hrange : ∀ range : Nat × Nat,
      getFootnotesForRange (createParsedDocument main fA fB fC) range.1 range.2
          (createParsedDocument main fA fB fC).footnoteALocations =
        notesInRange fA (createParsedDocument main fA fB fC).mainLines.length range.1 range.2 :=
    fun range => getFootnotesForRange_A main fA fB fC range.1 range.2
  rw [funext hrange]
  have hranges := flatMap_consecutiveRanges fA
    (createParsedDocument main fA fB fC).mainLines.length 0 counts
  rw [Nat.cast_zero, hsum, notesInRange_all] at hranges
  exact hranges

/-- For a text with a main text and without empty notes of A: over any pages that cut its main
lines, the notes of A come out as they were extracted exactly when there is at most one. -/
theorem pages_carry_A_notes_iff (culture : CompareInfo) (rawText : Text)
    (hnotes : ∀ note ∈ (extractContentAndFootnotes culture rawText).footnotesA, note ≠ [])
    (hmain : (extractContentAndFootnotes culture rawText).mainText ≠ []) :
    let x := extractContentAndFootnotes culture rawText
    let doc := createParsedDocument x.mainText x.footnotesA x.footnotesB x.footnotesC
    (∀ counts : List Nat, counts.sum = doc.mainLines.length →
        (consecutiveRanges 0 counts).flatMap (fun range =>
          getFootnotesForRange doc range.1 range.2 doc.footnoteALocations) = x.footnotesA) ↔
      x.footnotesA.length ≤ 1 := by
  intro x doc
  have hone : doc.mainLines.length = 1 := by
    have hlines : doc.mainLines = [x.mainText] := by
      show splitRemoveEmpty isLineFeed x.mainText = _
      rw [split_mainText (fun c hc => isWhiteSpace_of_isLineEnd c (isLineEnd_of_isLineFeed c hc))
        (by decide), if_neg hmain]
    rw [hlines, List.length_singleton]
  have hkept : (x.footnotesA.take 1).filter (fun note => !note.isEmpty) = x.footnotesA.take 1 := by
    apply List.filter_eq_self.mpr
    intro note hnote
    simpa using hnotes note (List.mem_of_mem_take hnote)
  -- whatever the cut, the pages together are the range of all lines
  have hpages : ∀ counts : List Nat, counts.sum = doc.mainLines.length →
      (consecutiveRanges 0 counts).flatMap (fun range =>
        getFootnotesForRange doc range.1 range.2 doc.footnoteALocations) =
      x.footnotesA.take 1 := by
    intro counts hsum
    rw [flatMap_ranges_footnotesA x.mainText x.footnotesA x.footnotesB x.footnotesC hsum]
    show (x.footnotesA.take doc.mainLines.length).filter _ = _
    rw [hone, hkept]
  constructor
  · intro h
    have htake := (hpages [1] (by simp [hone])).symm.trans (h [1] (by simp [hone]))
    rw [← htake, List.length_take]
    omega
  · intro hle counts hsum
    rw [hpages counts hsum, List.take_of_length_le hle]

/-- One note behind one line, over a page with the line and an empty one. -/
theorem pages_carry_single_A_note :
    let x := extractContentAndFootnotes .ordinal (utf16 "a$$b$$")
    let doc := createParsedDocument x.mainText x.footnotesA x.footnotesB x.footnotesC
    (consecutiveRanges 0 [1, 0]).flatMap (fun range =>
      getFootnotesForRange doc range.1 range.2 doc.footnoteALocations) = x.footnotesA :=
  (pages_carry_A_notes_iff .ordinal (utf16 "a$$b$$") (by decide +kernel) (by decide +kernel)).mpr
    (by decide +kernel) [1, 0] (by decide +kernel)

/-- Two notes, each behind its own line of the text: the second reaches no page. -/
theorem pages_lose_second_A_note :
    ¬ ∀ (culture : CompareInfo) (rawText : Text),
        (∀ note ∈ (extractContentAndFootnotes culture rawText).footnotesA, note ≠ []) →
        (extractContentAndFootnotes culture rawText).mainText ≠ [] →
        let x := extractContentAndFootnotes culture rawText
        let doc := createParsedDocument x.mainText x.footnotesA x.footnotesB x.footnotesC
        ∀ counts : List Nat, counts.sum = doc.mainLines.length →
          (consecutiveRanges 0 counts).flatMap (fun range =>
            getFootnotesForRange doc range.1 range.2 doc.footnoteALocations) = x.footnotesA := by
  intro hall
  have hlost := hall .ordinal (utf16 "a$$b$$\nc$$d$$") (by decide +kernel) (by decide +kernel) [1]
    (by decide +kernel)
  exact absurd hlost (by decide +kernel)

end Typesetting
