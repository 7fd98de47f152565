/-
# Typesetting.Services.ParsedFormat -- the raw text as a format for documents

A document can be written as a raw text: the two names, the main lines and the notes, each on a line
of its own behind the marker of its place. An empty main line is written as a blank, since empty
lines are dropped before they are looked at. Parsing gives the document back exactly when no part of
it could be taken for anything else: parts are trimmed, no part has a line end in it, and no main
line begins with a marker. Every document that `Parse` makes is of this kind.
-/
import Typesetting.Services.Parse

namespace Typesetting

namespace TextParser

/-! ## Writing -/

/-- A part of a document, as a line. -/
def writePart (part : Place × Text) : Text :=
  match part.1.marker with
  | some marker => marker ++ part.2
  | none => if part.2 = [] then [space] else part.2

/-- The parts of a document with their places. -/
def parts (doc : ParsedDocument) : List (Place × Text) :=
  [(.bookName, doc.bookName), (.parashaName, doc.parashaName)] ++
    doc.mainLines.map (Prod.mk .mainLines) ++ doc.footnotesA.map (Prod.mk .footnotesA) ++
    doc.footnotesB.map (Prod.mk .footnotesB) ++ doc.footnotesC.map (Prod.mk .footnotesC)

/-- A raw text for a document. -/
def writeDocument (doc : ParsedDocument) : Text :=
  joinWith [lineFeed] ((parts doc).map writePart)

/-- What can stand in a place. -/
structure Place.Holds (place : Place) (text : Text) : Prop where
  trimmed : trim text = text
  noLineEnd : ∀ c ∈ text, isLineEnd c = false
  noMarker : place = .mainLines → ∀ m ∈ markers, startsWithOrdinal text m = false

/-- Every part of the document can stand in its place. -/
def WellFormed (doc : ParsedDocument) : Prop :=
  ∀ part ∈ parts doc, part.1.Holds part.2

/-! ## One part -/

section Part

theorem trim_trim (text : Text) : trim (trim text) = trim text :=
  Segment.trim_eq_self (fun _ hc => Segment.head_trim hc) (fun _ hc => Segment.getLast_trim hc)

/-- Markers are visible throughout. -/
theorem visible_marker {m : Text} (h : m ∈ markers) :
    m ≠ [] ∧ ∀ c ∈ m, isWhiteSpace c = false ∧ isLineEnd c = false := by
  have hall : ∀ m ∈ markers, m ≠ [] ∧
      (m.all fun c => !isWhiteSpace c && !isLineEnd c) = true := by decide
  obtain ⟨hne, hclean⟩ := hall m h
  refine ⟨hne, fun c hc => ?_⟩
  simpa using List.all_eq_true.mp hclean c hc

/-- A trimmed text stays so behind a marker. -/
theorem trim_marker_append {m text : Text} (hm : m ∈ markers) (h : trim text = text) :
    trim (m ++ text) = m ++ text := by
  obtain ⟨hne, hclean⟩ := visible_marker hm
  apply Segment.trim_eq_self
  · intro c hc
    rw [List.head?_append_of_ne_nil _ hne] at hc
    exact (hclean c (List.mem_of_mem_head? hc)).1
  · intro c hc
    by_cases hnil : text = []
    · rw [hnil, List.append_nil] at hc
      exact (hclean c (List.mem_of_mem_getLast? hc)).1
    · rw [List.getLast?_append_of_ne_nil _ hnil, ← h] at hc
      exact Segment.getLast_trim hc

theorem trim_writePart_mainLines {text : Text} (h : trim text = text) :
    trim (writePart (.mainLines, text)) = text := by
  show trim (if text = [] then [space] else text) = text
  split
  · rename_i hnil
    rw [hnil]
    decide
  · exact h

/-- A part that can stand in its place is read back from its line. -/
theorem Place.Holds.takes {place : Place} {text : Text} (h : place.Holds text) :
    place.takes (writePart (place, text)) = true ∧
      place.content (writePart (place, text)) = text := by
  cases hmarker : place.marker with
  | none =>
      obtain rfl : place = .mainLines := Place.marker_injective (hmarker.trans rfl)
      have htrim := trim_writePart_mainLines h.trimmed
      refine ⟨?_, htrim⟩
      show (markers.all fun marker => !startsWithOrdinal (trim _) marker) = true
      rw [htrim, List.all_eq_true]
      intro m hm
      rw [h.noMarker rfl m hm]
      rfl
  | some m =>
      have hm : m ∈ markers := mem_markers_iff.mpr ⟨place, hmarker⟩
      have hwrite : writePart (place, text) = m ++ text := by
        unfold writePart
        simp only [hmarker]
      rw [Place.takes_of_marker hmarker, hwrite, trim_marker_append hm h.trimmed]
      refine ⟨List.isPrefixOf_iff_prefix.mpr (List.prefix_append m text), ?_⟩
      unfold Place.content
      simp only [hmarker]
      rw [trim_marker_append hm h.trimmed, List.drop_left, h.trimmed]

theorem Place.Holds.takes_iff {place other : Place} {text : Text} (h : place.Holds text) :
    other.takes (writePart (place, text)) = decide (place = other) := by
  by_cases hother : place = other
  · rw [← hother, h.takes.1, decide_eq_true rfl]
  · rw [decide_eq_false hother, ← Bool.not_eq_true]
    intro htakes
    exact hother ((existsUnique_takes _).unique h.takes.1 htakes)

/-- The line of a part is one line. -/
theorem Place.Holds.line {place : Place} {text : Text} (h : place.Holds text) :
    writePart (place, text) ≠ [] ∧ ∀ c ∈ writePart (place, text), isLineEnd c = false := by
  unfold writePart
  cases hmarker : place.marker with
  | none =>
      dsimp only
      split
      · refine ⟨List.cons_ne_nil _ _, fun c hc => ?_⟩
        rw [List.mem_singleton.mp hc]
        decide
      · rename_i hne
        exact ⟨hne, h.noLineEnd⟩
  | some m =>
      obtain ⟨hne, hclean⟩ := visible_marker (mem_markers_iff.mpr ⟨place, hmarker⟩)
      refine ⟨List.append_ne_nil_of_left_ne_nil hne _, fun c hc => ?_⟩
      rcases List.mem_append.mp hc with hc | hc
      · exact (hclean c hc).2
      · exact h.noLineEnd c hc

end Part

/-! ## The document -/

/-- What a place receives of a written document: the parts that stand in it. -/
theorem received_writeDocument {doc : ParsedDocument} (h : WellFormed doc) (place : Place) :
    place.received (writeDocument doc) =
      ((parts doc).filter fun part => decide (part.1 = place)).map Prod.snd := by
  have hlines : splitRemoveEmpty isLineEnd (writeDocument doc) = (parts doc).map writePart := by
    apply Segment.words_intercalate_of_clean (by decide)
    intro line hline
    obtain ⟨part, hpart, rfl⟩ := List.mem_map.mp hline
    exact (h part hpart).line
  have htakes : ∀ part ∈ parts doc,
      (place.takes ∘ writePart) part = decide (part.1 = place) :=
    fun part hpart => (h part hpart).takes_iff
  unfold Place.received
  rw [hlines, List.filter_map, List.map_map, List.filter_congr htakes]
  refine List.map_congr_left fun part hpart => ?_
  obtain ⟨hmem, hplace⟩ := List.mem_filter.mp hpart
  rw [Function.comp_apply, ← of_decide_eq_true hplace]
  exact (h part hmem).takes.2

theorem parse_writeDocument_of_wellFormed {doc : ParsedDocument} (h : WellFormed doc) :
    parse startsWithOrdinal (writeDocument doc) = { doc with rawText := writeDocument doc } := by
  have hmapped : ∀ (place other : Place) (texts : List Text),
      ((texts.map (Prod.mk other)).filter fun part => decide (part.1 = place)).map Prod.snd =
        if other = place then texts else [] := by
    intro place other texts
    rw [List.filter_map, List.map_map]
    split
    · rename_i hsame
      simp [hsame, Function.comp_def]
    · rename_i hother
      simp [hother, Function.comp_def]
  rw [parse_eq]
  simp only [received_writeDocument h, parts, List.filter_append, List.map_append, hmapped]
  simp [documentOf]

/-- What is kept of a line can stand in the place that takes it. -/
theorem Place.holds_content {place : Place} {line : Text} (htakes : place.takes line = true)
    (hline : ∀ c ∈ line, isLineEnd c = false) : place.Holds (place.content line) := by
  have htrim : ∀ c ∈ trim line, isLineEnd c = false :=
    fun c hc => hline c ((Segment.trim_sublist line).subset hc)
  cases hmarker : place.marker with
  | none =>
      obtain rfl : place = .mainLines := Place.marker_injective (hmarker.trans rfl)
      refine ⟨trim_trim line, htrim, fun _ m hm => ?_⟩
      have hnone : (markers.all fun marker => !startsWithOrdinal (trim line) marker) = true :=
        htakes
      show startsWithOrdinal (trim line) m = false
      simpa using List.all_eq_true.mp hnone m hm
  | some m =>
      have hcontent : place.content line = trim ((trim line).drop m.length) := by
        unfold Place.content
        simp only [hmarker]
      rw [hcontent]
      refine ⟨trim_trim _, fun c hc => ?_, ?_⟩
      · exact htrim c (List.mem_of_mem_drop ((Segment.trim_sublist _).subset hc))
      · rintro rfl
        cases hmarker

/-- What a place receives can stand in it. -/
theorem Place.holds_received {place : Place} {rawText text : Text}
    (h : text ∈ place.received rawText) : place.Holds text := by
  obtain ⟨line, hline, rfl⟩ := List.mem_map.mp h
  obtain ⟨hmem, htakes⟩ := List.mem_filter.mp hline
  exact Place.holds_content htakes (Segment.mem_words hmem).2

theorem wellFormed_parse (rawText : Text) : WellFormed (parse startsWithOrdinal rawText) := by
  have hname : ∀ place : Place, place ≠ .mainLines →
      place.Holds ((place.received rawText).getLastD []) := by
    intro place hplace
    rcases List.eq_nil_or_concat (place.received rawText) with hnil | ⟨before, last, hlast⟩
    · rw [hnil]
      exact ⟨rfl, (fun _ hc => nomatch hc), fun h => absurd h hplace⟩
    · rw [hlast, List.concat_eq_append, List.getLastD_concat]
      apply @Place.holds_received place rawText
      rw [hlast, List.concat_eq_append]
      exact List.mem_append_right _ List.mem_cons_self
  rw [parse_eq]
  intro part hpart
  simp only [parts, documentOf, List.mem_append, List.mem_map, List.mem_cons, List.not_mem_nil,
    or_false] at hpart
  rcases hpart with ((((rfl | rfl) | ⟨text, htext, rfl⟩) | ⟨text, htext, rfl⟩) |
    ⟨text, htext, rfl⟩) | ⟨text, htext, rfl⟩
  · exact hname .bookName (by decide)
  · exact hname .parashaName (by decide)
  · exact Place.holds_received htext
  · exact Place.holds_received htext
  · exact Place.holds_received htext
  · exact Place.holds_received htext

/-- A document that is written and parsed is the same document, but for the text it keeps, exactly
when it is well formed, and parsing any text gives a document that is. -/
theorem parse_writeDocument_iff :
    (∀ doc, parse startsWithOrdinal (writeDocument doc) =
        { doc with rawText := writeDocument doc } ↔ WellFormed doc) ∧
      ∀ rawText, let doc := parse startsWithOrdinal rawText
        parse startsWithOrdinal (writeDocument doc) =
          { doc with rawText := writeDocument doc } := by
  refine ⟨fun doc => ⟨fun h => ?_, parse_writeDocument_of_wellFormed⟩, fun rawText => ?_⟩
  · have hwell := wellFormed_parse (writeDocument doc)
    rw [h] at hwell
    exact hwell
  · exact parse_writeDocument_of_wellFormed (wellFormed_parse rawText)

end TextParser

end Typesetting
