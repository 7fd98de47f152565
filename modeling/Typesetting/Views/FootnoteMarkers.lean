/-
# Typesetting.Views.FootnoteMarkers -- the markers the window and the page renderer put on notes

`RenderFootnoteSectionTwoColumn` of the window splits the notes of a section into two columns and
marks each note by its position in the whole section; after twenty letters it goes on with numbers,
and it has seven symbols. The page renderer is given the two columns, starts again in each, has no
marker after the twentieth letter and repeats its symbols after four. Where the two agree is
therefore a matter of how many notes there are, and of whether one column is empty.
-/
import Typesetting.Rendering.LayerStacking
import Typesetting.Services.ColumnLayoutEngine
import Typesetting.Text.Numerals

namespace Typesetting

namespace MainWindow

/-! ## The texts of the window -/

def letters : List Text :=
  ["א", "ב", "ג", "ד", "ה", "ו", "ז", "ח", "ט", "י",
    "יא", "יב", "יג", "יד", "טו", "טז", "יז", "יח", "יט", "כ"].map utf16

/-- `GetHebrewLetter(index)` -/
def getHebrewLetter (index : Nat) : Text :=
  if h : index < letters.length then letters[index] else natToText (index + 1)

def symbols : List Text :=
  ["*", "†", "‡", "§", "¶", "‖", "#"].map utf16

/-- `GetSymbolMarker(index)` -/
def getSymbolMarker (index : Nat) : Text :=
  symbols.get ⟨index % symbols.length, Nat.mod_lt _ (by decide)⟩

/-- The marker of the note at `index`, without its parentheses. -/
def markerAt (markerType : Text) (index : Nat) : Text :=
  if markerType = utf16 "א" then getHebrewLetter index
  else if markerType = utf16 "1" then natToText (index + 1)
  else getSymbolMarker index

/-- The loop of `BuildRunOnTextWithMarkers` from note `i` on. -/
def appendNotes (markerType : Text) (startIndex : Nat) : Nat → List Text → Text → Text
  | _, [], sb => sb
  | i, note :: notes, sb =>
    let sb := if 0 < i then sb ++ [space] else sb
    let marker := markerAt markerType (startIndex + i)
    appendNotes markerType startIndex (i + 1) notes
      (sb ++ (utf16 "(" ++ marker ++ utf16 ") ") ++ note)

/-- `BuildRunOnTextWithMarkers(notes, markerType, startIndex)` -/
def buildRunOnTextWithMarkers (notes : List Text) (markerType : Text) (startIndex : Nat) : Text :=
  if notes.length = 0 then [] else appendNotes markerType startIndex 0 notes []

/-- The notes of the two columns of `RenderFootnoteSectionTwoColumn`. -/
def noteColumns (notes : List Text) : List Text × List Text :=
  let halfCount := ⌈(notes.length : ℚ) / 2⌉₊
  (notes.take halfCount, notes.drop halfCount)

/-- The texts `RenderFootnoteSectionTwoColumn(title, notes, …, markerType)` draws in the right and
the left column. -/
def columnTexts (notes : List Text) (markerType : Text) : Text × Text :=
  let rightNotes := (noteColumns notes).1
  let leftNotes := (noteColumns notes).2
  (buildRunOnTextWithMarkers rightNotes markerType 0,
    buildRunOnTextWithMarkers leftNotes markerType rightNotes.length)

/-- The marker type of the three calls of `DrawGlyphs`. -/
def markerTypeOf : NoteSystem → Text
  | .A => utf16 "א"
  | .B => utf16 "1"
  | .C => utf16 "*"

/-- The markers of the two columns, without their parentheses. -/
def sectionMarkers (notes : List Text) (markerType : Text) : List Text :=
  let rightNotes := (noteColumns notes).1
  let leftNotes := (noteColumns notes).2
  (List.range rightNotes.length).map (markerAt markerType) ++
    (List.range leftNotes.length).map fun i => markerAt markerType (rightNotes.length + i)

end MainWindow

namespace PageRenderer

/-- The markers `RenderRunOnColumn` puts on the notes from note `i` on. -/
def columnMarkers (marker : Nat → Option Text) : Nat → List Text → Option (List Text)
  | _, [] => some []
  | i, _ :: notes => do
    let m ← marker i
    let ms ← columnMarkers marker (i + 1) notes
    some (m :: ms)

/-- The markers of the right column and then those of the left one; `none` if the table of letters
is too short for one of them. -/
def sectionMarkers (sectionMarker : Text) (rightLines leftLines : List Text) :
    Option (List Text) := do
  let right ← columnMarkers (noteMarker sectionMarker) 0 rightLines
  let left ← columnMarkers (noteMarker sectionMarker) 0 leftLines
  some (right ++ left)

/-! ## The texts are the notes behind their markers -/

/-- Each note behind its marker, with blanks between them. -/
def markedNotes (markers notes : List Text) : Text :=
  joinWith [space] (List.zipWith (fun m note => m ++ [space] ++ note) markers notes)

section Column

variable {marker : Nat → Option Text}

theorem columnMarkers_cons_eq_some_iff {i : Nat} {note : Text} {notes ms : List Text} :
    columnMarkers marker i (note :: notes) = some ms ↔
      ∃ m rest, ms = m :: rest ∧ marker i = some m ∧
        columnMarkers marker (i + 1) notes = some rest := by
  simp only [columnMarkers, Option.bind_eq_bind, Option.bind_eq_some_iff, Option.some.injEq]
  constructor
  · rintro ⟨m, hm, rest, hrest, rfl⟩
    exact ⟨m, rest, rfl, hm, hrest⟩
  · rintro ⟨m, rest, rfl, hm, hrest⟩
    exact ⟨m, hm, rest, hrest, rfl⟩

theorem length_columnMarkers {i : Nat} {notes ms : List Text}
    (h : columnMarkers marker i notes = some ms) : ms.length = notes.length := by
  induction notes generalizing i ms with
  | nil =>
      obtain rfl := Option.some.inj h
      rfl
  | cons note notes ih =>
      obtain ⟨m, rest, rfl, -, hrest⟩ := columnMarkers_cons_eq_some_iff.mp h
      rw [List.length_cons, List.length_cons, ih hrest]

/-- The markers of a column, one by one. -/
theorem columnMarkers_eq_some_iff (i : Nat) (notes : List Text) (f : Nat → Text) :
    columnMarkers marker i notes = some ((List.range notes.length).map f) ↔
      ∀ k < notes.length, marker (i + k) = some (f k) := by
  induction notes generalizing i f with
  | nil => simp [columnMarkers]
  | cons note notes ih =>
      have hnext : ∀ k, i + 1 + k = i + (k + 1) := by omega
      rw [columnMarkers_cons_eq_some_iff, List.length_cons, Nat.forall_lt_succ_left,
        List.range_succ_eq_map, List.map_cons, List.map_map, Nat.add_zero]
      constructor
      · rintro ⟨m, rest, heq, hm, hrest⟩
        obtain ⟨rfl, rfl⟩ := List.cons.inj heq
        refine ⟨hm, fun k hk => ?_⟩
        rw [← hnext]
        exact (ih (i + 1) (f ∘ Nat.succ)).mp hrest k hk
      · rintro ⟨hm, hrest⟩
        refine ⟨f 0, _, rfl, hm, (ih (i + 1) (f ∘ Nat.succ)).mpr fun k hk => ?_⟩
        rw [hnext]
        exact hrest k hk

/-- Behind the first note every note brings a blank with it. -/
theorem runOnText_of_pos {i : Nat} (hi : 0 < i) (notes : List Text) (sb : Text) :
    runOnText marker i notes sb =
      (columnMarkers marker i notes).map fun ms =>
        sb ++ (List.zipWith (fun m note => m ++ [space] ++ note) ms notes).flatMap
          fun text => space :: text := by
  induction notes generalizing i sb with
  | nil => simp [runOnText, columnMarkers]
  | cons note notes ih =>
      rw [runOnText, columnMarkers]
      cases hm : marker i with
      | none => rfl
      | some m =>
          simp only [if_pos hi, ih (Nat.succ_pos i)]
          cases hms : columnMarkers marker (i + 1) notes with
          | none => rfl
          | some ms => simp

theorem flatMap_cons_space (text : Text) (texts : List Text) :
    text ++ texts.flatMap (fun t => space :: t) = joinWith [space] (text :: texts) := by
  induction texts generalizing text with
  | nil => simp [joinWith]
  | cons next texts ih =>
      rw [List.flatMap_cons, List.cons_append, ih next]
      show _ = [space].intercalate (text :: next :: texts)
      rw [List.intercalate_cons_cons, List.append_assoc]
      rfl

/-- The text of a column is made of its notes behind their markers. -/
theorem runOnText_eq_markedNotes (marker : Nat → Option Text) (notes : List Text) :
    runOnText marker 0 notes [] =
      (columnMarkers marker 0 notes).map fun ms => markedNotes ms notes := by
  cases notes with
  | nil => rfl
  | cons note notes =>
      rw [runOnText, columnMarkers]
      cases hm : marker 0 with
      | none => rfl
      | some m =>
          simp only [lt_irrefl, if_false, runOnText_of_pos (Nat.succ_pos 0)]
          cases hms : columnMarkers marker (0 + 1) notes with
          | none => rfl
          | some ms =>
              simp only [Option.map_some, flatMap_cons_space]
              rfl

/-- A marker that is always found. -/
theorem columnMarkers_some (f : Nat → Text) (notes : List Text) :
    columnMarkers (fun i => some (f i)) 0 notes = some ((List.range notes.length).map f) := by
  rw [columnMarkers_eq_some_iff]
  intro k _
  rw [Nat.zero_add]

end Column

end PageRenderer

namespace MainWindow

open PageRenderer (runOnText markedNotes bracketed)

/-- The marker of the note at `index`, in its parentheses. -/
def parenthesised (markerType : Text) (index : Nat) : Text :=
  utf16 "(" ++ markerAt markerType index ++ utf16 ")"

theorem appendNotes_eq_runOnText (markerType : Text) (startIndex i : Nat) (notes : List Text)
    (sb : Text) :
    runOnText (fun i => some (parenthesised markerType (startIndex + i))) i notes sb =
      some (appendNotes markerType startIndex i notes sb) := by
  induction notes generalizing i sb with
  | nil => rfl
  | cons note notes ih =>
      have hspace : utf16 ") " = utf16 ")" ++ [space] := by decide
      simp only [runOnText, appendNotes, ih]
      simp only [parenthesised, hspace, List.append_assoc]

/-- The text of a column of the window is made of its notes behind their markers. -/
theorem buildRunOnTextWithMarkers_eq (notes : List Text) (markerType : Text) (startIndex : Nat) :
    buildRunOnTextWithMarkers notes markerType startIndex =
      markedNotes ((List.range notes.length).map fun i => parenthesised markerType (startIndex + i))
        notes := by
  have hloop : some (appendNotes markerType startIndex 0 notes []) =
      some (markedNotes ((List.range notes.length).map fun i =>
        parenthesised markerType (startIndex + i)) notes) := by
    rw [← appendNotes_eq_runOnText, PageRenderer.runOnText_eq_markedNotes,
      PageRenderer.columnMarkers_some]
    rfl
  unfold buildRunOnTextWithMarkers
  split
  · rename_i hnone
    rw [List.eq_nil_of_length_eq_zero hnone]
    rfl
  · exact Option.some.inj hloop

/-- What the window draws in the two columns: each note behind its marker. -/
theorem columnTexts_eq (notes : List Text) (markerType : Text) :
    columnTexts notes markerType =
      (markedNotes ((List.range (noteColumns notes).1.length).map (parenthesised markerType))
          (noteColumns notes).1,
        markedNotes ((List.range (noteColumns notes).2.length).map fun i =>
          parenthesised markerType ((noteColumns notes).1.length + i)) (noteColumns notes).2) := by
  unfold columnTexts
  simp only [buildRunOnTextWithMarkers_eq, Nat.zero_add]

/-- However the columns are cut, a note is marked by its position in the section. -/
theorem sectionMarkers_eq (notes : List Text) (markerType : Text) :
    sectionMarkers notes markerType = (List.range notes.length).map (markerAt markerType) := by
  have hlength : notes.length =
      (noteColumns notes).1.length + (noteColumns notes).2.length := by
    show notes.length = (notes.take _).length + (notes.drop _).length
    rw [← List.length_append, List.take_append_drop]
  unfold sectionMarkers
  rw [hlength, List.range_add, List.map_append, List.map_map]
  rfl

/-! ## What the columns of the window make up -/

theorem noteColumns_append (notes : List Text) :
    (noteColumns notes).1 ++ (noteColumns notes).2 = notes :=
  List.take_append_drop _ _

/-- The page renderer puts on notes in two columns, in the order of the columns, what the window
puts on them, apart from the brackets. -/
def MarkedAlike (system : NoteSystem) (rightLines leftLines : List Text) : Prop :=
  PageRenderer.sectionMarkers (PageRenderer.sectionMarker system) rightLines leftLines =
    some ((sectionMarkers (rightLines ++ leftLines) (markerTypeOf system)).map bracketed)

/-- The two renderers have the same marker for the note at `i` of a column and at `index` of the
section. -/
def SameMarker (system : NoteSystem) (i index : Nat) : Prop :=
  PageRenderer.noteMarker (PageRenderer.sectionMarker system) i =
    some (bracketed (markerAt (markerTypeOf system) index))

/-- The notes of the left column are counted on in the window only. -/
theorem markedAlike_iff_sameMarker (system : NoteSystem) (rightLines leftLines : List Text) :
    MarkedAlike system rightLines leftLines ↔
      (∀ i < rightLines.length, SameMarker system i i) ∧
        ∀ i < leftLines.length, SameMarker system i (rightLines.length + i) := by
  have htarget : (sectionMarkers (rightLines ++ leftLines) (markerTypeOf system)).map bracketed =
      ((List.range rightLines.length).map fun i => bracketed (markerAt (markerTypeOf system) i)) ++
        (List.range leftLines.length).map fun i =>
          bracketed (markerAt (markerTypeOf system) (rightLines.length + i)) := by
    rw [sectionMarkers_eq, List.length_append, List.range_add, List.map_append, List.map_append,
      List.map_map, List.map_map, List.map_map]
    rfl
  have hright := @PageRenderer.columnMarkers_eq_some_iff
    (PageRenderer.noteMarker (PageRenderer.sectionMarker system)) 0 rightLines fun i =>
      bracketed (markerAt (markerTypeOf system) i)
  have hleft := @PageRenderer.columnMarkers_eq_some_iff
    (PageRenderer.noteMarker (PageRenderer.sectionMarker system)) 0 leftLines fun i =>
      bracketed (markerAt (markerTypeOf system) (rightLines.length + i))
  simp only [Nat.zero_add] at hright hleft
  unfold MarkedAlike PageRenderer.sectionMarkers
  simp only [Option.bind_eq_bind, Option.bind_eq_some_iff, Option.some.injEq, htarget]
  constructor
  · rintro ⟨ms, hms, ns, hns, heq⟩
    obtain ⟨rfl, rfl⟩ := List.append_inj heq (by
      rw [PageRenderer.length_columnMarkers hms, List.length_map, List.length_range])
    exact ⟨hright.mp hms, hleft.mp hns⟩
  · rintro ⟨hms, hns⟩
    exact ⟨_, hright.mpr hms, _, hleft.mpr hns, rfl⟩

/-! ## The tables -/

theorem sameMarker_B_iff (i index : Nat) : SameMarker .B i index ↔ i = index := by
  have hpage : PageRenderer.noteMarker (PageRenderer.sectionMarker .B) i =
      some (bracketed (natToText (i + 1))) := by
    unfold PageRenderer.noteMarker
    rw [if_neg (by decide), if_pos (by decide)]
  have hwindow : markerAt (markerTypeOf .B) index = natToText (index + 1) := by
    unfold markerAt
    rw [if_neg (by decide), if_pos (by decide)]
  unfold SameMarker
  rw [hpage, hwindow, Option.some.injEq]
  constructor
  · intro h
    have hnumbers : natToText (i + 1) = natToText (index + 1) :=
      List.append_cancel_left (List.append_cancel_right h)
    exact Nat.succ_injective (natToText_injective hnumbers)
  · rintro rfl
    rfl

instance (system : NoteSystem) (i index : Nat) : Decidable (SameMarker system i index) :=
  inferInstanceAs (Decidable (_ = _))

/-- So many notes of one column have the same markers in both renderers. -/
def InTables : NoteSystem → Nat → Prop
  | .A, n => n ≤ 20
  | .B, _ => True
  | .C, n => n ≤ 4

theorem sameMarker_column_iff (system : NoteSystem) (n : Nat) :
    (∀ i < n, SameMarker system i i) ↔ InTables system n := by
  cases system with
  | A =>
      have hletters : ∀ i < 20, SameMarker .A i i := by decide +kernel
      constructor
      · intro h
        by_contra hmore
        have hsome : (PageRenderer.noteMarker (PageRenderer.sectionMarker .A) 20).isSome := by
          rw [h 20 (not_le.mp hmore)]
          rfl
        exact absurd ((PageRenderer.letters_isSome_iff 20).mp hsome) (lt_irrefl 20)
      · intro (hle : n ≤ 20) i hi
        exact hletters i (by omega)
  | B =>
      constructor
      · intro _
        trivial
      · intro _ i _
        exact (sameMarker_B_iff i i).mpr rfl
  | C =>
      have hsymbols : ∀ i < 4, SameMarker .C i i := by decide +kernel
      have hfifth : ¬ SameMarker .C 4 4 := by decide +kernel
      constructor
      · intro h
        by_contra hmore
        exact hfifth (h 4 (not_le.mp hmore))
      · intro (hle : n ≤ 4) i hi
        exact hsymbols i (by omega)

/-- Within the tables no marker but the first is that of the first note. -/
theorem not_sameMarker_first {system : NoteSystem} {n : Nat} (hn : InTables system n)
    (hpos : 0 < n) : ¬ SameMarker system 0 n := by
  cases system with
  | A =>
      have hletters : ∀ k < 21, 0 < k → ¬ SameMarker .A 0 k := by decide +kernel
      exact hletters n (Nat.lt_succ_of_le hn) hpos
  | B =>
      rw [sameMarker_B_iff]
      omega
  | C =>
      have hsymbols : ∀ k < 5, 0 < k → ¬ SameMarker .C 0 k := by decide +kernel
      exact hsymbols n (Nat.lt_succ_of_le hn) hpos

/-- The two renderers mark the notes of a section alike exactly when one column is empty and there
are at most twenty notes of system A, or at most four of system C. -/
theorem markedAlike_iff (system : NoteSystem) (rightLines leftLines : List Text) :
    MarkedAlike system rightLines leftLines ↔
      (rightLines = [] ∨ leftLines = []) ∧
        InTables system (rightLines.length + leftLines.length) := by
  rw [markedAlike_iff_sameMarker, sameMarker_column_iff]
  cases rightLines with
  | nil =>
      simp only [List.length_nil, Nat.zero_add, sameMarker_column_iff]
      constructor
      · rintro ⟨-, hleft⟩
        exact ⟨.inl trivial, hleft⟩
      · rintro ⟨-, hleft⟩
        refine ⟨?_, hleft⟩
        cases system with
        | A => exact Nat.zero_le 20
        | B => trivial
        | C => exact Nat.zero_le 4
  | cons note rightLines =>
      cases leftLines with
      | nil =>
          constructor
          · rintro ⟨hright, -⟩
            exact ⟨.inr rfl, hright⟩
          · rintro ⟨-, hright⟩
            exact ⟨hright, fun _ h => nomatch h⟩
      | cons next leftLines =>
          constructor
          · rintro ⟨hright, hleft⟩
            -- the left column starts with the first marker again
            exact absurd (hleft 0 (Nat.succ_pos _)) (not_sameMarker_first hright (Nat.succ_pos _))
          · rintro ⟨hempty, -⟩
            rcases hempty with h | h
            · cases h
            · cases h

/-- Two numbered notes, one in each column: the window numbers them 1 and 2, the page renderer
gives both the number 1. -/
theorem not_markedAlike_two_notes : ¬ MarkedAlike .B [utf16 "a"] [utf16 "b"] := by
  unfold MarkedAlike
  decide +kernel

end MainWindow

end Typesetting
