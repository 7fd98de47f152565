/-
# Typesetting.Services.Parse -- a raw text sorted by the markers of its lines

`Parse` goes through the lines of a text. The marker at the start of a line says where it goes: to
one of the three lists of notes, to the name of the book or of the portion, of which the last one
counts, and without a marker to the main text. No two markers begin alike, so a line has one at
most, and the order in which the code asks for them does not matter.

`StartsWith` compares by the current culture and is a parameter.
-/
import Typesetting.Services.TextParser

namespace Typesetting

namespace TextParser

/-- `text.StartsWith(value)`, unit by unit -/
def startsWithOrdinal (text value : Text) : Bool :=
  value.isPrefixOf text

/-- The body of `foreach (var line in lines)`. A marker that is found is not longer than the line,
so what is cut off is there. -/
def parseLine (startsWith : Text → Text → Bool) (doc : ParsedDocument) (line : Text) :
    ParsedDocument :=
  let trimmed := trim line
  if startsWith trimmed LayoutConstants.markerBookName then
    { doc with bookName := trim (trimmed.drop LayoutConstants.markerBookName.length) }
  else if startsWith trimmed LayoutConstants.markerParasha then
    { doc with parashaName := trim (trimmed.drop LayoutConstants.markerParasha.length) }
  else if startsWith trimmed LayoutConstants.markerFootnoteA then
    { doc with
      footnotesA := doc.footnotesA ++ [trim (trimmed.drop LayoutConstants.markerFootnoteA.length)] }
  else if startsWith trimmed LayoutConstants.markerFootnoteB then
    { doc with
      footnotesB := doc.footnotesB ++ [trim (trimmed.drop LayoutConstants.markerFootnoteB.length)] }
  else if startsWith trimmed LayoutConstants.markerFootnoteC then
    { doc with
      footnotesC := doc.footnotesC ++ [trim (trimmed.drop LayoutConstants.markerFootnoteC.length)] }
  else { doc with mainLines := doc.mainLines ++ [trimmed] }

/-- `Parse(rawText)` -/
def parse (startsWith : Text → Text → Bool) (rawText : Text) : ParsedDocument :=
  (splitRemoveEmpty isLineEnd rawText).foldl (parseLine startsWith) { rawText := rawText }

/-! ## The six places of a document -/

inductive Place where
  | mainLines
  | footnotesA
  | footnotesB
  | footnotesC
  | bookName
  | parashaName
  deriving DecidableEq

/-- The marker of the lines that go to a place; the main text has none. -/
def Place.marker : Place → Option Text
  | .mainLines => none
  | .footnotesA => some LayoutConstants.markerFootnoteA
  | .footnotesB => some LayoutConstants.markerFootnoteB
  | .footnotesC => some LayoutConstants.markerFootnoteC
  | .bookName => some LayoutConstants.markerBookName
  | .parashaName => some LayoutConstants.markerParasha

def Place.all : List Place :=
  [.mainLines, .footnotesA, .footnotesB, .footnotesC, .bookName, .parashaName]

/-- The markers of all places. -/
def markers : List Text :=
  Place.all.filterMap Place.marker

/-- A line belongs to the place whose marker it begins with, to the main text if there is none. -/
def Place.takes (place : Place) (line : Text) : Bool :=
  match place.marker with
  | some marker => startsWithOrdinal (trim line) marker
  | none => markers.all fun marker => !startsWithOrdinal (trim line) marker

/-- What a place keeps of a line. -/
def Place.content (place : Place) (line : Text) : Text :=
  match place.marker with
  | some marker => trim ((trim line).drop marker.length)
  | none => trim line

/-- What a place receives of a text. -/
def Place.received (place : Place) (text : Text) : List Text :=
  ((splitRemoveEmpty isLineEnd text).filter place.takes).map place.content

/-- The document of a text whose lists hold what their places receive, and whose names are the last
of it. -/
def documentOf (rawText : Text) (received : Place → List Text) : ParsedDocument where
  mainLines := received .mainLines
  footnotesA := received .footnotesA
  footnotesB := received .footnotesB
  footnotesC := received .footnotesC
  bookName := (received .bookName).getLastD []
  parashaName := (received .parashaName).getLastD []
  rawText := rawText

/-! ## Each line goes to one place -/

theorem Place.mem_all (place : Place) : place ∈ Place.all := by
  cases place <;> decide

theorem mem_markers_iff {m : Text} : m ∈ markers ↔ ∃ place : Place, place.marker = some m := by
  unfold markers
  rw [List.mem_filterMap]
  exact exists_congr fun place => and_iff_right place.mem_all

theorem Place.marker_injective : Function.Injective Place.marker := by
  have hall : ∀ place ∈ Place.all, ∀ other ∈ Place.all,
      place.marker = other.marker → place = other := by decide
  exact fun place other h => hall place place.mem_all other other.mem_all h

/-- A text does not begin with two markers: no marker begins with another one. -/
theorem marker_unique {text m m' : Text} (hm : m ∈ markers) (hm' : m' ∈ markers)
    (h : startsWithOrdinal text m = true) (h' : startsWithOrdinal text m' = true) : m = m' := by
  have hapart : ∀ m ∈ markers, ∀ m' ∈ markers, m <+: m' → m = m' := by decide
  rcases List.prefix_or_prefix_of_prefix (List.isPrefixOf_iff_prefix.mp h)
    (List.isPrefixOf_iff_prefix.mp h') with hle | hge
  · exact hapart m hm m' hm' hle
  · exact (hapart m' hm' m hm hge).symm

theorem Place.takes_of_marker {place : Place} {m : Text} (h : place.marker = some m)
    (line : Text) : place.takes line = startsWithOrdinal (trim line) m := by
  unfold Place.takes
  rw [h]

/-- The main text takes what no other place takes. -/
theorem takes_mainLines_iff {line : Text} :
    Place.mainLines.takes line = true ↔
      ∀ place : Place, place ≠ .mainLines → place.takes line = false := by
  have hmain : Place.mainLines.takes line = true ↔
      ∀ m ∈ markers, startsWithOrdinal (trim line) m = false := by
    show (markers.all fun marker => !startsWithOrdinal (trim line) marker) = true ↔ _
    simp only [List.all_eq_true, Bool.not_eq_true']
  rw [hmain]
  constructor
  · intro hnone place hplace
    cases hm : place.marker with
    | none => exact absurd (Place.marker_injective (hm.trans rfl)) hplace
    | some m =>
        rw [Place.takes_of_marker hm]
        exact hnone m (mem_markers_iff.mpr ⟨place, hm⟩)
  · intro hnone m hm
    obtain ⟨place, hplace⟩ := mem_markers_iff.mp hm
    rw [← Place.takes_of_marker hplace]
    apply hnone place
    rintro rfl
    cases hplace

/-- A line goes to exactly one place. -/
theorem existsUnique_takes (line : Text) : ∃! place : Place, place.takes line = true := by
  by_cases hmain : Place.mainLines.takes line = true
  · refine ⟨.mainLines, hmain, fun other (hother : other.takes line = true) => ?_⟩
    by_contra hne
    rw [takes_mainLines_iff.mp hmain other hne] at hother
    cases hother
  · have hsome : ∃ place : Place, place ≠ .mainLines ∧ place.takes line = true := by
      rw [takes_mainLines_iff] at hmain
      simpa using hmain
    obtain ⟨place, hplace, htakes⟩ := hsome
    refine ⟨place, htakes, fun other (hother : other.takes line = true) => ?_⟩
    cases hm : place.marker with
    | none => exact absurd (Place.marker_injective (hm.trans rfl)) hplace
    | some m =>
        cases hm' : other.marker with
        | none =>
            obtain rfl : other = .mainLines := Place.marker_injective (hm'.trans rfl)
            exact absurd hother hmain
        | some m' =>
            rw [Place.takes_of_marker hm] at htakes
            rw [Place.takes_of_marker hm'] at hother
            have heq := marker_unique (mem_markers_iff.mpr ⟨place, hm⟩)
              (mem_markers_iff.mpr ⟨other, hm'⟩) htakes hother
            exact Place.marker_injective (by rw [hm, hm', heq])

/-! ## The document is what its places receive -/

/-- A line is added to what its place has received. -/
theorem parseLine_documentOf (rawText : Text) (received : Place → List Text) (line : Text) :
    parseLine startsWithOrdinal (documentOf rawText received) line =
      documentOf rawText fun place =>
        received place ++ if place.takes line then [place.content line] else [] := by
  obtain ⟨place, htakes, hunique⟩ := existsUnique_takes line
  have hdecide : ∀ other : Place, other.takes line = decide (other = place) := by
    intro other
    by_cases hother : other = place
    · rw [hother, htakes, decide_eq_true rfl]
    · rw [decide_eq_false hother, ← Bool.not_eq_true]
      exact fun h => hother (hunique other h)
  show (if Place.bookName.takes line then _ else if Place.parashaName.takes line then _
    else if Place.footnotesA.takes line then _ else if Place.footnotesB.takes line then _
    else if Place.footnotesC.takes line then _ else _) = _
  simp only [hdecide]
  cases place <;> simp [documentOf, Place.content, Place.marker]

theorem parse_eq (text : Text) :
    parse startsWithOrdinal text = documentOf text fun place => place.received text := by
  have hrun : ∀ (lines : List Text) (received : Place → List Text),
      lines.foldl (parseLine startsWithOrdinal) (documentOf text received) =
        documentOf text fun place =>
          received place ++ (lines.filter place.takes).map place.content := by
    intro lines
    induction lines with
    | nil =>
        intro received
        simp
    | cons line lines ih =>
        intro received
        rw [List.foldl_cons, parseLine_documentOf, ih]
        congr 1
        funext place
        rw [List.filter_cons, List.append_assoc]
        split <;> simp
  exact hrun (splitRemoveEmpty isLineEnd text) fun _ => []

/-! ## Two texts, one after the other -/

theorem Place.received_append (place : Place) (x y : Text) :
    place.received (x ++ lineFeed :: y) = place.received x ++ place.received y := by
  have hlines : splitRemoveEmpty isLineEnd (x ++ lineFeed :: y) =
      splitRemoveEmpty isLineEnd x ++ splitRemoveEmpty isLineEnd y :=
    Segment.words_append_sep (by decide) x y
  unfold Place.received
  rw [hlines, List.filter_append, List.map_append]

/-- `text.Replace("\n", "\r\n")` -/
def replaceLineFeeds (text : Text) : Text :=
  text.flatMap fun c => if c == lineFeed then [carriageReturn, lineFeed] else [c]

theorem splitRemoveEmpty_replaceLineFeeds (text : Text) :
    splitRemoveEmpty isLineEnd (replaceLineFeeds text) = splitRemoveEmpty isLineEnd text := by
  refine Segment.words_flatMap_seps (fun c hc => ?_) (fun c hc => ?_) text
  · rw [if_neg]
    intro heq
    rw [beq_iff_eq.mp heq] at hc
    cases hc
  · split
    · exact ⟨List.cons_ne_nil _ _, List.all_eq_true.mp (by decide)⟩
    · exact ⟨List.cons_ne_nil _ _, by simpa using hc⟩

/-- The lists of a text made of two are those of the two, one after the other, and the names are
those of the last lines with their markers; line ends of two characters change none of the six; and
every line goes to exactly one of the six places, which make up the document with its text. -/
theorem parse_compositional :
    (∀ x y : Text,
        let doc := parse startsWithOrdinal (x ++ lineFeed :: y)
        let docX := parse startsWithOrdinal x
        let docY := parse startsWithOrdinal y
        doc.mainLines = docX.mainLines ++ docY.mainLines ∧
          doc.footnotesA = docX.footnotesA ++ docY.footnotesA ∧
          doc.footnotesB = docX.footnotesB ++ docY.footnotesB ∧
          doc.footnotesC = docX.footnotesC ++ docY.footnotesC ∧
          doc.bookName = (Place.bookName.received (x ++ lineFeed :: y)).getLastD [] ∧
          doc.parashaName = (Place.parashaName.received (x ++ lineFeed :: y)).getLastD []) ∧
      (∀ text : Text, carriageReturn ∉ text →
        parse startsWithOrdinal (replaceLineFeeds text) =
          { parse startsWithOrdinal text with rawText := replaceLineFeeds text }) ∧
      ∀ text : Text,
        (∀ line ∈ splitRemoveEmpty isLineEnd text, ∃! place : Place, place.takes line = true) ∧
          parse startsWithOrdinal text = documentOf text fun place => place.received text := by
  refine ⟨fun x y => ?_, fun text _ => ?_, fun text => ⟨fun line _ => existsUnique_takes line,
    parse_eq text⟩⟩
  · simp only [parse_eq, documentOf, Place.received_append, and_self]
  · simp only [parse_eq, documentOf, Place.received, splitRemoveEmpty_replaceLineFeeds]

end TextParser

end Typesetting
