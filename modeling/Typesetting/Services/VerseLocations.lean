/-
# Typesetting.Services.VerseLocations -- which verse a line belongs to, in two notations

`VerseId` writes the place of a verse as `book_chapter_verse`, and the running header as
`book chapter:verse`. The name of a book is any text and may hold underscores, blanks and numbers
itself, but the two numbers stand at the end, so each notation tells the place. A page is therefore
cut in the middle of a verse exactly when the right part of the header, which is where the place
stands, would be the same for its successor and for its last line, and the dash that stands for an
unknown place is never taken for one. The middle part is the name of the section, which `VerseId`
leaves out; nothing is said about it.

The document the window makes gives every line a verse of its own, so no cut is in the middle of
one.
-/
import Typesetting.Lib.Segment
import Typesetting.Services.FootnotePlacement
import Typesetting.Text.Numerals

namespace Typesetting

/-! ## The two notations -/

/-- `VerseId` -/
def VerseLocation.verseId (location : VerseLocation) : Text :=
  location.bookName ++ utf16 "_" ++ natToText location.chapter ++ utf16 "_" ++
    natToText location.verse

/-- What the running header says of a place. -/
def VerseLocation.headerText (location : VerseLocation) : Text :=
  location.bookName ++ utf16 " " ++ natToText location.chapter ++ utf16 ":" ++
    natToText location.verse

/-- Book, chapter and verse. -/
def VerseLocation.place (location : VerseLocation) : Text × ℕ × ℕ :=
  (location.bookName, location.chapter, location.verse)

/-- The name of the book and the two numbers, each behind a separator. -/
def placeText (before between : UInt16) (place : Text × ℕ × ℕ) : Text :=
  place.1 ++ before :: natToText place.2.1 ++ between :: natToText place.2.2

theorem not_mem_natToText {c : UInt16} (hc : ¬ (48 ≤ c.toNat ∧ c.toNat ≤ 57)) (n : ℕ) :
    c ∉ natToText n :=
  fun hmem => hc (mem_natToText hmem)

/-- Separators that are no digits tell the place, whatever the name of the book. -/
theorem placeText_injective {before between : UInt16}
    (hbefore : ¬ (48 ≤ before.toNat ∧ before.toNat ≤ 57))
    (hbetween : ¬ (48 ≤ between.toNat ∧ between.toNat ≤ 57)) :
    Function.Injective (placeText before between) := by
  rintro ⟨book, chapter, verse⟩ ⟨book', chapter', verse'⟩ h
  obtain ⟨hfront, hverse⟩ := Segment.append_sep_inj h (not_mem_natToText hbetween verse)
    (not_mem_natToText hbetween verse')
  obtain ⟨hbook, hchapter⟩ := Segment.append_sep_inj hfront (not_mem_natToText hbefore chapter)
    (not_mem_natToText hbefore chapter')
  dsimp only at hbook hchapter hverse
  rw [hbook, natToText_injective hchapter, natToText_injective hverse]

theorem verseId_eq (location : VerseLocation) :
    location.verseId = placeText 0x5F 0x5F location.place := by
  have hsep : utf16 "_" = [0x5F] := by decide
  simp [VerseLocation.verseId, VerseLocation.place, placeText, hsep]

theorem headerText_eq (location : VerseLocation) :
    location.headerText = placeText 0x20 0x3A location.place := by
  have hblank : utf16 " " = [0x20] := by decide
  have hcolon : utf16 ":" = [0x3A] := by decide
  simp [VerseLocation.headerText, VerseLocation.place, placeText, hblank, hcolon]

theorem verseId_eq_iff {a b : VerseLocation} : a.verseId = b.verseId ↔ a.place = b.place := by
  rw [verseId_eq, verseId_eq]
  exact (placeText_injective (by decide) (by decide)).eq_iff

theorem headerText_eq_iff {a b : VerseLocation} :
    a.headerText = b.headerText ↔ a.place = b.place := by
  rw [headerText_eq, headerText_eq]
  exact (placeText_injective (by decide) (by decide)).eq_iff

/-! ## The functions of the engine -/

namespace ColumnLayoutEngine

/-- `IsCuttingMidVerse(doc, startLine, count)` -/
def isCuttingMidVerse (doc : Services.ParsedDocument) (startLine count : ℤ) : Bool :=
  let lastLine := addInt32 (addInt32 startLine count) (-1)
  let nextLine := addInt32 startLine count
  if nextLine ≥ doc.mainLines.length then false
  else
    match doc.lineToVerseLocation lastLine, doc.lineToVerseLocation nextLine with
    | some last, some next => last.verseId == next.verseId
    | _, _ => false

/-- `SetRunningHeader(page, doc, startLine)` -/
def setRunningHeaderFromVerses (page : PageModel) (doc : Services.ParsedDocument)
    (startLine : ℤ) : PageModel :=
  match doc.lineToVerseLocation startLine with
  | some location =>
    { page with
      runningHeaderCenter := location.parashaName
      runningHeaderRight := location.headerText
      runningHeaderLeft := utf16 "עמוד " ++ natToText page.pageNumber }
  | none =>
    { page with
      runningHeaderCenter := utf16 "—"
      runningHeaderRight := utf16 "—"
      runningHeaderLeft := utf16 "עמוד " ++ natToText page.pageNumber }

/-- The place of a line, if the document knows it. -/
def placeOf (doc : Services.ParsedDocument) (line : ℤ) : Option (Text × ℕ × ℕ) :=
  (doc.lineToVerseLocation line).map VerseLocation.place

/-- The right part of the header of a page that starts at a line. -/
def headerRight (doc : Services.ParsedDocument) (line : ℤ) : Text :=
  (setRunningHeaderFromVerses {} doc line).runningHeaderRight

section Verses

variable {doc : Services.ParsedDocument}

/-- The dash is no place: a place ends in a digit. -/
theorem headerText_ne_dash (location : VerseLocation) : location.headerText ≠ utf16 "—" := by
  intro h
  have hdash : utf16 "—" = [0x2014] := by decide
  have hmem : ∃ c ∈ natToText location.verse, c = 0x2014 := by
    obtain ⟨c, hc⟩ := List.exists_mem_of_ne_nil _ (natToText_ne_nil location.verse)
    have hin : c ∈ location.headerText := List.mem_append_right _ hc
    rw [h, hdash] at hin
    exact ⟨c, hc, List.mem_singleton.mp hin⟩
  obtain ⟨c, hc, rfl⟩ := hmem
  exact not_mem_natToText (by decide) _ hc

theorem headerRight_eq (line : ℤ) :
    headerRight doc line =
      ((doc.lineToVerseLocation line).map VerseLocation.headerText).getD (utf16 "—") := by
  unfold headerRight setRunningHeaderFromVerses
  cases doc.lineToVerseLocation line <;> rfl

/-- The right parts of the headers of two pages are the same exactly when the pages start in one
verse, or at lines of which the place is not known. -/
theorem headerRight_eq_iff (line line' : ℤ) :
    headerRight doc line = headerRight doc line' ↔ placeOf doc line = placeOf doc line' := by
  rw [headerRight_eq, headerRight_eq]
  unfold placeOf
  cases doc.lineToVerseLocation line with
  | none =>
      cases doc.lineToVerseLocation line' with
      | none => exact iff_of_true rfl rfl
      | some b => exact iff_of_false (headerText_ne_dash b).symm nofun
  | some a =>
      cases doc.lineToVerseLocation line' with
      | none => exact iff_of_false (headerText_ne_dash a) nofun
      | some b =>
          show a.headerText = b.headerText ↔ some a.place = some b.place
          rw [headerText_eq_iff, Option.some.injEq]

theorem isCuttingMidVerse_iff_place (startLine count : ℤ) :
    isCuttingMidVerse doc startLine count = true ↔
      addInt32 startLine count < doc.mainLines.length ∧
        (placeOf doc (addInt32 startLine count)).isSome = true ∧
          placeOf doc (addInt32 (addInt32 startLine count) (-1)) =
            placeOf doc (addInt32 startLine count) := by
  unfold isCuttingMidVerse placeOf
  dsimp only
  generalize addInt32 startLine count = nextLine
  generalize addInt32 nextLine (-1) = lastLine
  by_cases hend : nextLine ≥ doc.mainLines.length
  · rw [if_pos hend]
    exact iff_of_false nofun fun h => absurd h.1 (not_lt.mpr hend)
  · rw [if_neg hend]
    cases doc.lineToVerseLocation nextLine with
    | none =>
        refine iff_of_false ?_ fun h => Bool.noConfusion h.2.1
        cases doc.lineToVerseLocation lastLine <;> exact nofun
    | some next =>
        cases doc.lineToVerseLocation lastLine with
        | none => exact iff_of_false nofun fun h => nomatch h.2.2
        | some last =>
            show (last.verseId == next.verseId) = true ↔
              nextLine < doc.mainLines.length ∧ true = true ∧ some last.place = some next.place
            rw [beq_iff_eq, verseId_eq_iff, Option.some.injEq]
            exact ⟨fun h => ⟨not_le.mp hend, rfl, h⟩, fun h => h.2.2⟩

end Verses

/-- A cut lies in the middle of a verse exactly when the number behind it is below the number of
lines, the place of this line is known, and a page that starts there has the right part of the
header of one that starts at the line before it: the two notations never disagree about a place.
The numbers of the two lines are `int`s. -/
theorem isCuttingMidVerse_iff_header (doc : Services.ParsedDocument) (startLine count : ℤ) :
    let nextLine := addInt32 startLine count
    let lastLine := addInt32 nextLine (-1)
    isCuttingMidVerse doc startLine count = true ↔
      nextLine < doc.mainLines.length ∧ headerRight doc nextLine ≠ utf16 "—" ∧
        headerRight doc lastLine = headerRight doc nextLine := by
  intro nextLine lastLine
  have hknown : headerRight doc nextLine ≠ utf16 "—" ↔ (placeOf doc nextLine).isSome = true := by
    rw [headerRight_eq]
    unfold placeOf
    cases doc.lineToVerseLocation nextLine with
    | none => exact iff_of_false (fun h => h rfl) nofun
    | some location => exact iff_of_true (headerText_ne_dash location) rfl
  rw [isCuttingMidVerse_iff_place, hknown, headerRight_eq_iff]

/-! ## The document of the window -/

/-- An `int` and the one before it differ, also where the one before it wraps around. -/
theorem addInt32_neg_one_ne (line : ℤ) : addInt32 line (-1) ≠ line := by
  intro hsame
  unfold addInt32 at hsame
  obtain ⟨k, hk⟩ := Int.dvd_self_sub_bmod (x := line + -1) (m := 2 ^ 32)
  rw [hsame] at hk
  omega

/-- Every line of the document made of a text is a verse of its own: no cut of it lies in the middle
of a verse, and the headers of pages that start at different lines differ in their right part. -/
theorem createParsedDocument_verses (main : Text) (fA fB fC : List Text) :
    let doc := createParsedDocument main fA fB fC
    (∀ startLine count : ℤ, isCuttingMidVerse doc startLine count = false) ∧
      ∀ line line' : ℕ, line < doc.mainLines.length → line' < doc.mainLines.length →
        headerRight doc line = headerRight doc line' → line = line' := by
  intro doc
  have hplace : ∀ line : ℤ, placeOf doc line =
      if 0 ≤ line ∧ line < doc.mainLines.length then
        some (utf16 "ספר", 1, line.toNat + 1) else none := by
    intro line
    show ((Dictionary.fill doc.mainLines.length fun i =>
      ({ bookName := utf16 "ספר", chapter := 1, verse := i + 1 } : VerseLocation)) line).map _ = _
    rw [Dictionary.fill_apply]
    split <;> rfl
  constructor
  · intro startLine count
    rw [Bool.eq_false_iff, ne_eq, isCuttingMidVerse_iff_place, hplace, hplace]
    rintro ⟨hend, hknown, hsame⟩
    split at hknown
    · rename_i hnext
      rw [if_pos hnext] at hsame
      split at hsame
      · rename_i hlast
        have hverse : (addInt32 (addInt32 startLine count) (-1)).toNat + 1 =
            (addInt32 startLine count).toNat + 1 := by
          injection hsame with htriple
          exact congrArg (fun p : Text × ℕ × ℕ => p.2.2) htriple
        exact addInt32_neg_one_ne (addInt32 startLine count) (by omega)
      · cases hsame
    · cases hknown
  · intro line line' hline hline' hsame
    rw [headerRight_eq_iff, hplace, hplace, if_pos (by omega), if_pos (by omega)] at hsame
    have hverse : (line : ℤ).toNat + 1 = (line' : ℤ).toNat + 1 := by
      injection hsame with htriple
      exact congrArg (fun p : Text × ℕ × ℕ => p.2.2) htriple
    omega

end ColumnLayoutEngine

end Typesetting
