/-
# Typesetting.Services.NoteFormat -- texts with notes, written and extracted

A text with notes of three systems is written by putting each note between two tags of its system,
wherever it belongs in the text. The three passes of the extraction read this back: the main text
and, for each system, its notes in their order. The contents may hold single characters of a tag.
What they may not hold are two of them in a row, or one at the end, where it would run into the tag
that follows. The passes come one after the other, and a note is gone once its own pass is over, so
this is asked of a note for its own system and the systems before it only.
-/
import Typesetting.Models.PageModel
import Typesetting.Services.Idempotence

namespace Typesetting

/-! ## Writing -/

/-- A piece of a text with notes. -/
inductive TextItem where
  | text (content : Text)
  | note (system : NoteSystem) (content : Text)

def noteTag : NoteSystem → Tag
  | .A => footnoteTagA
  | .B => footnoteTagB
  | .C => footnoteTagC

/-- The character a tag is made of. -/
def tagUnit : NoteSystem → UInt16
  | .A => 0x24
  | .B => 0x25
  | .C => 0x26

namespace TextItem

def write : TextItem → Text
  | text content => content
  | note system content => (noteTag system).text ++ content ++ (noteTag system).text

def content : TextItem → Text
  | text content => content
  | note _ content => content

/-- The item is a note of the system. -/
def isNoteOf (system : NoteSystem) : TextItem → Bool
  | text _ => false
  | note other _ => decide (other = system)

/-- No tag of the system is in the content, and none begins at its end. -/
def Clean (system : NoteSystem) (item : TextItem) : Prop :=
  Delimiter.NoPair (tagUnit system) item.content

/-- The content is clean for all passes the item goes through. -/
def Writable : TextItem → Prop
  | text content => ∀ system, (text content).Clean system
  | note .A content => (note .A content).Clean .A
  | note .B content => (note .B content).Clean .A ∧ (note .B content).Clean .B
  | note .C content => ∀ system, (note .C content).Clean system

end TextItem

def writeItems (items : List TextItem) : Text :=
  items.flatMap TextItem.write

/-- The notes of a system. -/
def notesOf (system : NoteSystem) (items : List TextItem) : List Text :=
  (items.filter (TextItem.isNoteOf system)).map TextItem.content

/-- What is left when the notes of a system are gone. -/
def withoutNotes (system : NoteSystem) (items : List TextItem) : List TextItem :=
  items.filter fun item => !item.isNoteOf system

/-- The text outside the notes. -/
def textOf (items : List TextItem) : Text :=
  items.flatMap fun
    | .text content => content
    | .note _ _ => []

/-! ## One pass -/

section Pass

variable {items : List TextItem} {system : NoteSystem}

theorem noteTag_text (system : NoteSystem) :
    (noteTag system).text = [tagUnit system, tagUnit system] := by
  cases system <;> decide

/-- The tags of other systems do not matter in a pass. -/
theorem TextItem.Clean.write {item : TextItem} (h : item.Clean system)
    (hother : item.isNoteOf system = false) : Delimiter.NoPair (tagUnit system) item.write := by
  cases item with
  | text content => exact h
  | note other content =>
      have hne : other ≠ system := of_decide_eq_false hother
      have htag : Delimiter.NoPair (tagUnit system) (noteTag other).text := by
        apply Delimiter.noPair_of_not_mem
        rw [noteTag_text]
        revert hne
        cases other <;> cases system <;> decide
      exact (htag.append h).append htag

/-- An item as a part for the pass of a system. -/
def TextItem.part (system : NoteSystem) (item : TextItem) : Delimiter.Part UInt16 :=
  if item.isNoteOf system then ⟨item.content, true⟩ else ⟨item.write, false⟩

theorem TextItem.write_part (item : TextItem) (system : NoteSystem) :
    (item.part system).write [tagUnit system, tagUnit system] = item.write := by
  cases item with
  | text content => rfl
  | note other content =>
      unfold TextItem.part
      cases hnote : (note other content).isNoteOf system with
      | true =>
          have hsame : other = system := of_decide_eq_true hnote
          rw [if_pos rfl, ← noteTag_text, ← hsame]
          rfl
      | false =>
          rw [if_neg (by decide)]
          rfl

/-- A pass takes the notes of its system out and leaves everything else. -/
theorem extractByTag_writeItems (h : ∀ item ∈ items, item.Clean system) :
    extractByTag .ordinal (writeItems items) (noteTag system) =
      (writeItems (withoutNotes system items), (notesOf system items).map trim) := by
  have hparts : ∀ part ∈ items.map (TextItem.part system),
      Delimiter.NoPair (tagUnit system) part.content := by
    intro part hpart
    obtain ⟨item, hitem, rfl⟩ := List.mem_map.mp hpart
    unfold TextItem.part
    cases hnote : item.isNoteOf system with
    | true => exact h item hitem
    | false => exact (h item hitem).write hnote
  have hwritten : (items.map (TextItem.part system)).flatMap
      (Delimiter.Part.write [tagUnit system, tagUnit system]) = writeItems items := by
    rw [List.flatMap_map]
    exact List.flatMap_congr fun item _ => item.write_part system
  have hdelimited : ∀ item : TextItem, (item.part system).delimited = item.isNoteOf system := by
    intro item
    unfold TextItem.part
    cases item.isNoteOf system <;> rfl
  obtain ⟨houtside, henclosed⟩ := Delimiter.outside_pieces_write hparts
  rw [hwritten, List.filter_map, List.flatMap_map] at houtside
  rw [hwritten, List.filter_map, List.map_map] at henclosed
  rw [extractByTag_ordinal]
  unfold tagPieces
  simp only [noteTag_text]
  rw [houtside, henclosed]
  simp only [Function.comp_def, hdelimited]
  congr 1
  · refine List.flatMap_congr fun item hitem => ?_
    have hnot : item.isNoteOf system = false := by
      simpa using (List.mem_filter.mp hitem).2
    unfold TextItem.part
    rw [hnot]
    rfl
  · congr 1
    refine List.map_congr_left fun item hitem => ?_
    have hnote : item.isNoteOf system = true := (List.mem_filter.mp hitem).2
    unfold TextItem.part
    rw [if_pos hnote]

theorem notesOf_withoutNotes {other : NoteSystem} (hne : other ≠ system) :
    notesOf system (withoutNotes other items) = notesOf system items := by
  unfold notesOf withoutNotes
  rw [List.filter_filter]
  congr 1
  apply List.filter_congr
  intro item _
  cases item with
  | text content => rfl
  | note owner content =>
      cases owner <;> cases system <;> cases other <;> first | rfl | exact absurd rfl hne

theorem mem_withoutNotes {item : TextItem} :
    item ∈ withoutNotes system items ↔ item ∈ items ∧ item.isNoteOf system = false := by
  unfold withoutNotes
  rw [List.mem_filter]
  simp

/-- After the three passes only text is left. -/
theorem writeItems_withoutNotes (items : List TextItem) :
    writeItems (withoutNotes .C (withoutNotes .B (withoutNotes .A items))) = textOf items := by
  unfold writeItems withoutNotes textOf
  induction items with
  | nil => rfl
  | cons item items ih =>
      cases item with
      | text content => exact congrArg (content ++ ·) ih
      | note system content => cases system <;> exact ih

end Pass

/-! ## The three passes -/

/-- A text with notes is read back: its main text with the white space cleaned up, and the notes of
each system, trimmed, in their order. -/
theorem extract_writeItems (culture : CompareInfo) (items : List TextItem)
    (hculture : SearchesOrdinally culture (writeItems items))
    (hitems : ∀ item ∈ items, item.Writable) :
    extractContentAndFootnotes culture (writeItems items) =
      ⟨cleanedUp (textOf items), (notesOf .A items).map trim, (notesOf .B items).map trim,
        (notesOf .C items).map trim⟩ := by
  have hA : ∀ item ∈ items, item.Clean .A := by
    intro item hitem
    have hwritable := hitems item hitem
    match item, hwritable with
    | .text _, h => exact h .A
    | .note .A _, h => exact h
    | .note .B _, h => exact h.1
    | .note .C _, h => exact h .A
  have hB : ∀ item ∈ withoutNotes .A items, item.Clean .B := by
    intro item hitem
    obtain ⟨hmem, hnot⟩ := mem_withoutNotes.mp hitem
    have hwritable := hitems item hmem
    match item, hwritable, hnot with
    | .text _, h, _ => exact h .B
    | .note .B _, h, _ => exact h.2
    | .note .C _, h, _ => exact h .B
  have hC : ∀ item ∈ withoutNotes .B (withoutNotes .A items), item.Clean .C := by
    intro item hitem
    obtain ⟨hmemB, hnotB⟩ := mem_withoutNotes.mp hitem
    obtain ⟨hmem, hnotA⟩ := mem_withoutNotes.mp hmemB
    have hwritable := hitems item hmem
    match item, hwritable, hnotA, hnotB with
    | .text _, h, _, _ => exact h .C
    | .note .C _, h, _, _ => exact h .C
  have hpassA := extractByTag_writeItems hA
  have hpassB := extractByTag_writeItems hB
  have hpassC := extractByTag_writeItems hC
  rw [notesOf_withoutNotes (by decide)] at hpassB
  rw [notesOf_withoutNotes (by decide), notesOf_withoutNotes (by decide),
    writeItems_withoutNotes] at hpassC
  rw [hculture.extract_eq]
  unfold extractContentAndFootnotes extractPasses
  show (⟨trim (replaceWhiteSpaceRuns (extractByTag .ordinal (extractByTag .ordinal
    (extractByTag .ordinal (writeItems items) (noteTag .A)).1 (noteTag .B)).1 (noteTag .C)).1),
    (extractByTag .ordinal (writeItems items) (noteTag .A)).2,
    (extractByTag .ordinal (extractByTag .ordinal (writeItems items) (noteTag .A)).1
      (noteTag .B)).2,
    (extractByTag .ordinal (extractByTag .ordinal (extractByTag .ordinal (writeItems items)
      (noteTag .A)).1 (noteTag .B)).1 (noteTag .C)).2⟩ : Extracted) = _
  rw [hpassA, hpassB, hpassC]
  rfl

/-- A price in the text, and a tag of the third system in a note of the second. -/
theorem extract_writeItems_prices :
    let items : List TextItem :=
      [.text (utf16 "ab $5 "), .note .B (utf16 " c && d "), .text (utf16 "e"), .note .A (utf16 "f")]
    extractContentAndFootnotes .ordinal (writeItems items) =
      ⟨utf16 "ab $5 e", [utf16 "f"], [utf16 "c && d"], []⟩ := by
  intro items
  have hclean : ∀ system ∈ [NoteSystem.A, .B, .C], ∀ content ∈ [utf16 "ab $5 ", utf16 "e"],
      ¬ [tagUnit system, tagUnit system] <:+: content ++ [tagUnit system] := by decide
  have hitems : ∀ item ∈ items, item.Writable := by
    intro item hitem
    simp only [items, List.mem_cons, List.not_mem_nil, or_false] at hitem
    rcases hitem with rfl | rfl | rfl | rfl
    · exact fun system => hclean system (by cases system <;> decide) _ (by decide)
    · refine ⟨?_, ?_⟩
      · show ¬ [tagUnit .A, tagUnit .A] <:+: utf16 " c && d " ++ [tagUnit .A]
        decide
      · show ¬ [tagUnit .B, tagUnit .B] <:+: utf16 " c && d " ++ [tagUnit .B]
        decide
    · exact fun system => hclean system (by cases system <;> decide) _ (by decide)
    · show ¬ [tagUnit .A, tagUnit .A] <:+: utf16 "f" ++ [tagUnit .A]
      decide
  rw [extract_writeItems .ordinal items (searchesOrdinally_ordinal _) hitems,
    Extracted.mk.injEq]
  decide +kernel

end Typesetting
