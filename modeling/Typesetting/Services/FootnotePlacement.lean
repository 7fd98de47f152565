/-
# Typesetting.Services.FootnotePlacement -- which notes go to a range of lines

`CreateParsedDocument` attaches the note `i` of each system to the main line `i`, under the index
`i` of its own list. `GetFootnotesForRange` collects the notes attached to a range of lines, and
`GetFootnoteByIndex` reads an index as a position in the three lists joined. The two agree for
system A, whose list comes first. For the other two they agree only where the joined list happens
to begin with the notes meant.

Line numbers are `int`s in the code. The sum of a start line and a count may pass the largest of
them, and goes on at negative numbers then. No note is attached to these, nor to the large numbers
of an unbounded integer, so `getFootnotesForRange` adds without a bound, and
`getFootnotesForRange_addInt32` says that it finds what the sums of 32 bits find.
-/
import Mathlib.Data.List.Sort
import Typesetting.Lib.FirstOccurrence
import Typesetting.Services.SingleLine

namespace Typesetting

/-! ## The document -/

/-- `Dictionary<int, T>` -/
abbrev Dictionary (α : Type*) : Type _ :=
  Int → Option α

namespace Dictionary

variable {α : Type*}

def empty : Dictionary α :=
  fun _ => none

/-- `dictionary[key] = value` -/
def insert (d : Dictionary α) (key : Int) (value : α) : Dictionary α :=
  fun k => if k = key then some value else d k

/-- `for (int i = 0; i < count; i++) dictionary[i] = value(i)` on an empty dictionary. -/
def fill (count : Nat) (value : Nat → α) : Dictionary α :=
  (List.range count).foldl (fun d (i : Nat) => d.insert i (value i)) empty

theorem fill_apply (count : Nat) (value : Nat → α) (key : Int) :
    fill count value key =
      if 0 ≤ key ∧ key < count then some (value key.toNat) else none := by
  induction count with
  | zero =>
      have hno : ¬ (0 ≤ key ∧ key < ((0 : Nat) : Int)) := by omega
      rw [if_neg hno]
      rfl
  | succ count ih =>
      have hlast : fill (count + 1) value = (fill count value).insert count (value count) := by
        simp [fill, List.range_succ]
      rw [hlast]
      unfold insert
      by_cases hkey : key = count
      · subst hkey
        have hin : (0 : Int) ≤ count ∧ (count : Int) < ((count + 1 : Nat) : Int) := by omega
        rw [if_pos rfl, if_pos hin, Int.toNat_natCast]
      · have hiff : (0 ≤ key ∧ key < ((count + 1 : Nat) : Int)) ↔ (0 ≤ key ∧ key < count) := by
          omega
        rw [if_neg hkey, ih]
        simp only [hiff]

end Dictionary

structure VerseLocation where
  bookName : Text := []
  parashaName : Text := []
  chapter : Nat
  verse : Nat

/-- The document `ColumnLayoutEngine` declares for itself. -/
structure Services.ParsedDocument where
  mainLines : List Text := []
  lineToVerseLocation : Dictionary VerseLocation := .empty
  footnoteALocations : Dictionary (List Nat) := .empty
  footnoteBLocations : Dictionary (List Nat) := .empty
  footnoteCLocations : Dictionary (List Nat) := .empty
  allFootnotesA : List Text := []
  allFootnotesB : List Text := []
  allFootnotesC : List Text := []

/-- `for (int i = 0; i < notes.Count && i < doc.MainLines.Count; i++) locations[i] = { i }` -/
def noteLocations (notes mainLines : List Text) : Dictionary (List Nat) :=
  .fill (min notes.length mainLines.length) fun i => [i]

/-- `CreateParsedDocument(main, fA, fB, fC)` -/
def createParsedDocument (main : Text) (fA fB fC : List Text) : Services.ParsedDocument :=
  let mainLines := splitRemoveEmpty isLineFeed main
  { mainLines := mainLines
    lineToVerseLocation := .fill mainLines.length fun i =>
      { bookName := utf16 "ספר", chapter := 1, verse := i + 1 }
    allFootnotesA := fA
    allFootnotesB := fB
    allFootnotesC := fC
    -- each system counts its notes from 0
    footnoteALocations := noteLocations fA mainLines
    footnoteBLocations := noteLocations fB mainLines
    footnoteCLocations := noteLocations fC mainLines }

/-! ## Looking up the notes of a range -/

/-- `GetFootnoteByIndex(doc, index)` -/
def getFootnoteByIndex (doc : Services.ParsedDocument) (index : Nat) : Text :=
  if h : index < doc.allFootnotesA.length then doc.allFootnotesA[index]
  else
    let adjustedIndex : Int := index - doc.allFootnotesA.length
    if 0 ≤ adjustedIndex ∧ adjustedIndex < doc.allFootnotesB.length then
      doc.allFootnotesB.getD adjustedIndex.toNat []
    else
      let adjustedIndex : Int := index - doc.allFootnotesA.length - doc.allFootnotesB.length
      if 0 ≤ adjustedIndex ∧ adjustedIndex < doc.allFootnotesC.length then
        doc.allFootnotesC.getD adjustedIndex.toNat []
      else utf16 "הערה מספר " ++ natToText index

/-- The body of `foreach (int footnoteIndex in …)` on `(result, addedIndices)`. -/
def collectFootnote (doc : Services.ParsedDocument) (st : List Text × List Nat)
    (footnoteIndex : Nat) : List Text × List Nat :=
  if footnoteIndex ∉ st.2 then
    let note := getFootnoteByIndex doc footnoteIndex
    -- the index of an empty note is not remembered
    if note ≠ [] then (st.1 ++ [note], st.2 ++ [footnoteIndex]) else st
  else st

/-- The body of `for (int i = 0; i < count; i++)` for the line `lineIndex`. -/
def collectLine (doc : Services.ParsedDocument) (footnoteLocations : Dictionary (List Nat))
    (st : List Text × List Nat) (lineIndex : Int) : List Text × List Nat :=
  match footnoteLocations lineIndex with
  | some indices => indices.foldl (collectFootnote doc) st
  | none => st

/-- `GetFootnotesForRange(doc, startLine, count, footnoteLocations)` -/
def getFootnotesForRange (doc : Services.ParsedDocument) (startLine count : Int)
    (footnoteLocations : Dictionary (List Nat)) : List Text :=
  ((List.range count.toNat).foldl
    (fun st (i : Nat) => collectLine doc footnoteLocations st (startLine + i)) ([], [])).1

/-! ## Sums of 32 bits -/

/-- `a + b` for two `int`s -/
def addInt32 (a b : Int) : Int :=
  (a + b).bmod (2 ^ 32)

/-- A sum past the largest `int` is negative, and no line has a negative number. -/
theorem lookup_addInt32 {α : Type*} {d : Dictionary α}
    (hkeys : ∀ key, d key ≠ none → 0 ≤ key ∧ key < 2 ^ 31) {startLine : Int} {i : Nat}
    (hstart : -2 ^ 31 ≤ startLine ∧ startLine < 2 ^ 31) (hi : i < 2 ^ 31) :
    d (addInt32 startLine i) = d (startLine + i) := by
  have hnone : ∀ key, ¬ (0 ≤ key ∧ key < 2 ^ 31) → d key = none := by
    intro key hkey
    by_contra hsome
    exact hkey (hkeys key hsome)
  by_cases hwraps : startLine + i < 2 ^ 31
  · have hsame : addInt32 startLine i = startLine + i := by
      unfold addInt32
      rw [Int.bmod_eq_iff (by norm_num)]
      omega
    rw [hsame]
  · have hneg : addInt32 startLine i = startLine + i - 2 ^ 32 := by
      unfold addInt32
      rw [Int.bmod_eq_iff (by norm_num)]
      omega
    rw [hneg, hnone _ (by omega), hnone _ (by omega)]

/-- The notes of a range are those the loop finds when `startLine + i` is a sum of two `int`s. -/
theorem getFootnotesForRange_addInt32 (doc : Services.ParsedDocument)
    {footnoteLocations : Dictionary (List Nat)}
    (hkeys : ∀ key, footnoteLocations key ≠ none → 0 ≤ key ∧ key < 2 ^ 31)
    {startLine count : Int} (hstart : -2 ^ 31 ≤ startLine ∧ startLine < 2 ^ 31)
    (hcount : count < 2 ^ 31) :
    ((List.range count.toNat).foldl
      (fun st (i : Nat) => collectLine doc footnoteLocations st (addInt32 startLine i))
        ([], [])).1 = getFootnotesForRange doc startLine count footnoteLocations := by
  unfold getFootnotesForRange
  congr 1
  apply List.foldl_ext
  intro st i hi
  rw [List.mem_range] at hi
  unfold collectLine
  rw [lookup_addInt32 hkeys hstart (by omega)]

/-! ## What is collected -/

/-- The joined list an index refers to. -/
def Services.ParsedDocument.joinedFootnotes (doc : Services.ParsedDocument) : List Text :=
  doc.allFootnotesA ++ doc.allFootnotesB ++ doc.allFootnotesC

/-- The three cases of the lookup are the three parts of the joined list. -/
theorem getFootnoteByIndex_eq (doc : Services.ParsedDocument) (index : Nat) :
    getFootnoteByIndex doc index =
      (doc.joinedFootnotes[index]?).getD (utf16 "הערה מספר " ++ natToText index) := by
  unfold getFootnoteByIndex Services.ParsedDocument.joinedFootnotes
  rw [List.append_assoc]
  split
  · rename_i hA
    rw [List.getElem?_append_left hA, List.getElem?_eq_getElem hA, Option.getD_some]
  · rename_i hA
    rw [List.getElem?_append_right (not_lt.mp hA)]
    simp only
    split
    · rename_i hB
      have hadjusted : ((index : Int) - doc.allFootnotesA.length).toNat =
          index - doc.allFootnotesA.length := by omega
      have hlt : index - doc.allFootnotesA.length < doc.allFootnotesB.length := by omega
      rw [hadjusted, List.getElem?_append_left hlt, List.getElem?_eq_getElem hlt]
      simp [List.getD_eq_getElem?_getD, hlt]
    · rename_i hB
      have hge : doc.allFootnotesB.length ≤ index - doc.allFootnotesA.length := by omega
      rw [List.getElem?_append_right hge]
      split
      · rename_i hC
        have hadjusted :
            ((index : Int) - doc.allFootnotesA.length - doc.allFootnotesB.length).toNat =
              index - doc.allFootnotesA.length - doc.allFootnotesB.length := by omega
        have hlt : index - doc.allFootnotesA.length - doc.allFootnotesB.length <
            doc.allFootnotesC.length := by omega
        rw [hadjusted, List.getElem?_eq_getElem hlt]
        simp [List.getD_eq_getElem?_getD, hlt]
      · rename_i hC
        have hge' : doc.allFootnotesC.length ≤
            index - doc.allFootnotesA.length - doc.allFootnotesB.length := by omega
        rw [List.getElem?_eq_none hge', Option.getD_none]

/-- The indices attached to the lines of a range, line after line. -/
def attachedIndices (startLine count : Int) (footnoteLocations : Dictionary (List Nat)) :
    List Nat :=
  (List.range count.toNat).flatMap fun (i : Nat) => (footnoteLocations (startLine + i)).getD []

theorem collectFootnote_eq (doc : Services.ParsedDocument) :
    collectFootnote doc =
      FirstOccurrence.collectStep (getFootnoteByIndex doc) fun note => !note.isEmpty := by
  funext st index
  unfold collectFootnote FirstOccurrence.collectStep
  by_cases hseen : index ∈ st.2
  · simp [hseen]
  · by_cases hnote : getFootnoteByIndex doc index = []
    · simp [hseen, hnote]
    · simp [hseen, hnote]

/-- The notes of a range: the non-empty ones attached to its lines, each index once. -/
theorem getFootnotesForRange_eq (doc : Services.ParsedDocument) (startLine count : Int)
    (footnoteLocations : Dictionary (List Nat)) :
    getFootnotesForRange doc startLine count footnoteLocations =
      (FirstOccurrence.newKeys (getFootnoteByIndex doc) (fun note => !note.isEmpty) []
        (attachedIndices startLine count footnoteLocations)).map (getFootnoteByIndex doc) := by
  have hfold : ∀ st : List Text × List Nat,
      (List.range count.toNat).foldl
        (fun st (i : Nat) => collectLine doc footnoteLocations st (startLine + i)) st =
      (attachedIndices startLine count footnoteLocations).foldl (collectFootnote doc) st := by
    intro st
    unfold attachedIndices
    rw [List.foldl_flatMap]
    congr 1
    funext st i
    unfold collectLine
    cases footnoteLocations (startLine + i) <;> rfl
  unfold getFootnotesForRange
  rw [hfold, collectFootnote_eq, FirstOccurrence.foldl_collectStep, List.nil_append]

/-- The notes of a range are those of its indices in the joined list, each index at its first
occurrence only and empty notes left out. An index behind the end has a placeholder. -/
theorem getFootnotesForRange_firstOccurrences (doc : Services.ParsedDocument)
    (startLine count : Int) (footnoteLocations : Dictionary (List Nat)) :
    getFootnotesForRange doc startLine count footnoteLocations =
      ((attachedIndices startLine count footnoteLocations).eraseDups.map fun index =>
        (doc.joinedFootnotes[index]?).getD (utf16 "הערה מספר " ++ natToText index)).filter
          fun note => !note.isEmpty := by
  have hlookup : getFootnoteByIndex doc = fun index =>
      (doc.joinedFootnotes[index]?).getD (utf16 "הערה מספר " ++ natToText index) :=
    funext (getFootnoteByIndex_eq doc)
  rw [getFootnotesForRange_eq, FirstOccurrence.newKeys_nil, hlookup, List.filter_map]
  rfl

/-! ## Notes attached one to a line -/

/-- The numbers below `n` in a range of lines. -/
def numbersInRange (n : Nat) (startLine count : Int) : List Nat :=
  (List.range n).filter fun (i : Nat) => startLine ≤ i ∧ (i : Int) < startLine + count

theorem mem_numbersInRange {n : Nat} {startLine count : Int} {i : Nat} :
    i ∈ numbersInRange n startLine count ↔
      i < n ∧ startLine ≤ i ∧ (i : Int) < startLine + count := by
  simp [numbersInRange]

theorem pairwise_numbersInRange (n : Nat) (startLine count : Int) :
    (numbersInRange n startLine count).Pairwise (· < ·) :=
  (List.pairwise_lt_range).filter _

theorem attachedIndices_fill (n : Nat) (startLine count : Int) :
    attachedIndices startLine count (.fill n fun i => [i]) =
      numbersInRange n startLine count := by
  have hline : ∀ i : Nat, (Dictionary.fill n (fun i => [i]) (startLine + i)).getD [] =
      if 0 ≤ startLine + i ∧ startLine + i < n then [(startLine + i).toNat] else [] := by
    intro i
    rw [Dictionary.fill_apply]
    split <;> rfl
  -- both lists rise, so it is enough to compare their members
  refine List.Pairwise.eq_of_mem_iff ?_ (pairwise_numbersInRange n startLine count) ?_
  · unfold attachedIndices
    apply List.pairwise_flatMap.mpr
    constructor
    · intro i _
      rw [hline]
      split <;> simp
    · apply (List.pairwise_lt_range).imp
      intro i j hij x hx y hy
      rw [hline] at hx hy
      split at hx <;> split at hy <;> simp at hx hy
      omega
  · intro k
    rw [mem_numbersInRange, attachedIndices, List.mem_flatMap]
    constructor
    · rintro ⟨i, hi, hk⟩
      rw [List.mem_range] at hi
      rw [hline] at hk
      split at hk
      · rw [List.mem_singleton] at hk
        omega
      · cases hk
    · rintro ⟨hn, hstart, hend⟩
      refine ⟨(k - startLine).toNat, List.mem_range.mpr (by omega), ?_⟩
      have hk : startLine + ((k - startLine).toNat : Int) = k := by omega
      rw [hline, hk, if_pos (by omega)]
      simp

/-- The notes found in a range when the note `i` is attached to the line `i`. -/
theorem getFootnotesForRange_noteLocations (doc : Services.ParsedDocument)
    (notes mainLines : List Text) (startLine count : Int) :
    getFootnotesForRange doc startLine count (noteLocations notes mainLines) =
      ((numbersInRange (min notes.length mainLines.length) startLine count).map
        (getFootnoteByIndex doc)).filter fun note => !note.isEmpty := by
  have hnodup : (numbersInRange (min notes.length mainLines.length) startLine count).Nodup :=
    (pairwise_numbersInRange _ _ _).imp fun h => Nat.ne_of_lt h
  rw [getFootnotesForRange_eq, noteLocations, attachedIndices_fill,
    FirstOccurrence.newKeys_of_nodup _ _ hnodup, List.filter_map]
  rfl

end Typesetting
