/-
# Typesetting.Services.TagParity -- `ExtractByTag` as a split by parity

The occurrences of a tag, found from the left, cut a text into pieces. With an ordinal search
`ExtractByTag` keeps the pieces at even positions and makes notes of those at odd ones; a last tag
without a partner stays in the text, together with what follows it. Where a tag opens and nothing
closes it, the loop goes on one character further and looks at positions inside that tag again:
what it finds there is not closed either.
-/
import Mathlib.Data.List.Infix
import Typesetting.Lib.Delimiter
import Typesetting.Services.TextHelper

namespace Typesetting

/-- The text between the occurrences of a tag. -/
def tagPieces (tag : Tag) (text : Text) : List Text :=
  Delimiter.pieces tag.text tag.nonempty text

/-- The text and the notes, by the position of the pieces. With an even number of pieces there is
an odd number of tags. -/
def splitByParity (text : Text) (tag : Tag) : Text × List Text :=
  let p := tagPieces tag text
  if p.length % 2 = 1 then
    ((Delimiter.evens p).flatten, (Delimiter.odds p).map trim)
  else
    ((Delimiter.evens p).flatten ++ tag.text ++ p.getLast (Delimiter.pieces_ne_nil _ text),
      (Delimiter.odds p).dropLast.map trim)

/-! ## The search for the closing tag -/

section Search

variable {text : Text} {tag : Tag} {i : Nat}

/-- An ordinal search finds the first occurrence. -/
theorem indexOfOrdinal_of_cut? {source value before behind : Text} {startIndex : Nat}
    (hstart : startIndex ≤ source.length)
    (h : Delimiter.cut? value (source.drop startIndex) = some (before, behind)) :
    indexOfOrdinal source value startIndex = (startIndex + before.length : Nat) := by
  have heq := Delimiter.eq_of_cut? h
  have hlen := congrArg List.length heq
  rw [List.length_drop, List.length_append, List.length_append] at hlen
  have hfind : (List.range' startIndex (source.length + 1 - startIndex)).find?
      (fun i => value.isPrefixOf (source.drop i)) = some (startIndex + before.length) := by
    rw [List.find?_range'_eq_some]
    refine ⟨?_, ?_, ?_⟩
    · rw [List.isPrefixOf_iff_prefix, ← List.drop_drop, heq, List.append_assoc, List.drop_left]
      exact List.prefix_append value behind
    · rw [List.mem_range'_1]
      omega
    · intro j hj hlt
      rw [Bool.not_eq_true', ← Bool.not_eq_true, List.isPrefixOf_iff_prefix]
      rintro ⟨rest, hrest⟩
      -- an occurrence at `j` would be further left
      have hleft : source.drop startIndex =
          (source.drop startIndex).take (j - startIndex) ++ value ++ rest := by
        rw [List.append_assoc, hrest]
        conv_lhs => rw [← List.take_append_drop (j - startIndex) (source.drop startIndex)]
        rw [List.drop_drop, Nat.add_sub_cancel' hj]
      have hle := Delimiter.length_le_of_cut? h hleft
      rw [List.length_take] at hle
      omega
  rw [indexOfOrdinal, hfind]

theorem indexOfOrdinal_of_none {source value : Text} {startIndex : Nat}
    (h : Delimiter.cut? value (source.drop startIndex) = none) :
    indexOfOrdinal source value startIndex = -1 := by
  have hfind : (List.range' startIndex (source.length + 1 - startIndex)).find?
      (fun i => value.isPrefixOf (source.drop i)) = none := by
    rw [List.find?_range'_eq_none]
    intro j hj hlt
    rw [Bool.not_eq_true', ← Bool.not_eq_true, List.isPrefixOf_iff_prefix]
    intro hpre
    refine Delimiter.cut?_eq_none_iff.mp h (hpre.isInfix.trans ?_)
    have hdrop : source.drop j = (source.drop startIndex).drop (j - startIndex) := by
      rw [List.drop_drop, Nat.add_sub_cancel' hj]
    rw [hdrop]
    exact (List.drop_suffix _ _).isInfix
  rw [indexOfOrdinal, hfind]

/-- The test for an opening tag. -/
theorem tagOpens_iff :
    (i + tag.text.length ≤ text.length ∧ substring text i tag.text.length = tag.text) ↔
      tag.text <+: text.drop i := by
  rw [List.prefix_iff_eq_take]
  constructor
  · rintro ⟨-, heq⟩
    exact heq.symm
  · intro heq
    have hlen := congrArg List.length heq
    have hpos := List.length_pos_of_ne_nil tag.nonempty
    rw [List.length_take, List.length_drop] at hlen
    exact ⟨by omega, heq.symm⟩

theorem drop_opening {rest : Text} (h : text.drop i = tag.text ++ rest) :
    text.drop (i + tag.text.length) = rest := by
  rw [← List.drop_drop, h, List.drop_left]

/-- Where a tag opens, the closing one is the first occurrence behind it. -/
theorem closingTag?_of_opens {rest : Text} (h : text.drop i = tag.text ++ rest) :
    closingTag? .ordinal text tag i =
      (Delimiter.cut? tag.text rest).map fun p => i + tag.text.length + p.1.length := by
  have hopen := tagOpens_iff.mpr ⟨rest, h.symm⟩
  have hrest := drop_opening h
  have hpos := List.length_pos_of_ne_nil tag.nonempty
  unfold closingTag?
  rw [if_pos hopen]
  show (if 0 < indexOfOrdinal text tag.text (i + tag.text.length) then
    some (indexOfOrdinal text tag.text (i + tag.text.length)).toNat else none) = _
  cases hcut : Delimiter.cut? tag.text rest with
  | none =>
      rw [indexOfOrdinal_of_none (by rw [hrest, hcut])]
      rfl
  | some p =>
      rw [indexOfOrdinal_of_cut? hopen.1 (by rw [hrest, hcut]), Int.toNat_natCast, if_pos (by omega)]
      rfl

theorem closingTag?_of_not_opens (h : ¬ tag.text <+: text.drop i) :
    closingTag? .ordinal text tag i = none := by
  unfold closingTag?
  rw [if_neg (tagOpens_iff.not.mpr h)]

end Search

/-! ## A note -/

section Note

variable {text rest before behind : Text} {tag : Tag} {i : Nat}

/-- The text of the note is what stands before the closing tag. -/
theorem substring_note (h : text.drop i = tag.text ++ rest)
    (hcut : Delimiter.cut? tag.text rest = some (before, behind)) :
    substring text (i + tag.text.length)
      (i + tag.text.length + before.length - (i + tag.text.length)) = before := by
  unfold substring
  rw [drop_opening h, Delimiter.eq_of_cut? hcut, Nat.add_sub_cancel_left, List.append_assoc,
    List.take_left]

/-- The loop goes on behind the closing tag. -/
theorem drop_closing (h : text.drop i = tag.text ++ rest)
    (hcut : Delimiter.cut? tag.text rest = some (before, behind)) :
    text.drop (i + tag.text.length + before.length + tag.text.length) = behind := by
  rw [Nat.add_assoc _ before.length, ← List.drop_drop, drop_opening h, Delimiter.eq_of_cut? hcut,
    ← List.length_append, List.drop_left]

theorem tagPieces_note (h : text.drop i = tag.text ++ rest)
    (hcut : Delimiter.cut? tag.text rest = some (before, behind)) :
    tagPieces tag (text.drop i) = [] :: before :: tagPieces tag behind := by
  unfold tagPieces
  rw [h, Delimiter.pieces_of_some (Delimiter.cut?_append_left _ _), Delimiter.pieces_of_some hcut]

/-- A tag that nothing closes is no tag of a note: the text holds no two. -/
theorem not_twice_unclosed (h : text.drop i = tag.text ++ rest)
    (hcut : Delimiter.cut? tag.text rest = none) :
    ¬ Delimiter.Twice tag.text (text.drop i) := by
  rw [h, Delimiter.twice_iff tag.nonempty,
    Delimiter.occurrences_of_some (Delimiter.cut?_append_left _ _),
    Delimiter.occurrences_of_none hcut]
  omega

end Note

/-! ## The loop -/

/-- From every position on, the loop splits the rest of the text. -/
theorem extractByTagLoop_ordinal (text : Text) (tag : Tag) (i : Nat) (builder : Text)
    (results : List Text) :
    extractByTagLoop .ordinal text tag i builder results =
      (builder ++ Delimiter.outside tag.text (tagPieces tag (text.drop i)),
        results ++ (Delimiter.enclosed (tagPieces tag (text.drop i))).map trim) := by
  fun_induction extractByTagLoop .ordinal text tag i builder results with
  | case1 i builder results hi close hclose start content ih =>
      by_cases hopen : tag.text <+: text.drop i
      · obtain ⟨rest, hrest⟩ := hopen
        have hnote := hrest.symm
        rw [closingTag?_of_opens hnote, Option.map_eq_some_iff] at hclose
        obtain ⟨⟨before, behind⟩, hcut, rfl⟩ := hclose
        have hcontent : content = trim before := congrArg trim (substring_note hnote hcut)
        have hne : tagPieces tag behind ≠ [] := Delimiter.pieces_ne_nil _ behind
        rw [ih, drop_closing hnote hcut, hcontent, tagPieces_note hnote hcut,
          Delimiter.outside_cons_cons_of_ne_nil hne, Delimiter.enclosed_cons_cons_of_ne_nil hne]
        simp
      · rw [closingTag?_of_not_opens hopen] at hclose
        cases hclose
  | case2 i builder results hi hclose ih =>
      rw [ih, List.drop_eq_getElem_cons hi]
      by_cases hopen : tag.text <+: text.drop i
      · -- a tag nothing closes: neither from here nor from the next position on is there a note
        obtain ⟨rest, hrest⟩ := hopen
        rw [closingTag?_of_opens hrest.symm, Option.map_eq_none_iff] at hclose
        have hone : ¬ Delimiter.Twice tag.text (text[i] :: text.drop (i + 1)) := by
          rw [← List.drop_eq_getElem_cons hi]
          exact not_twice_unclosed hrest.symm hclose
        have hnext : ¬ Delimiter.Twice tag.text (text.drop (i + 1)) := fun h => hone (h.cons _)
        unfold tagPieces
        rw [(Delimiter.outside_pieces_of_not_twice tag.nonempty hone).1,
          (Delimiter.outside_pieces_of_not_twice tag.nonempty hone).2,
          (Delimiter.outside_pieces_of_not_twice tag.nonempty hnext).1,
          (Delimiter.outside_pieces_of_not_twice tag.nonempty hnext).2]
        simp
      · rw [List.drop_eq_getElem_cons hi] at hopen
        obtain ⟨p, ps, hpieces, hcons⟩ := Delimiter.pieces_cons tag.nonempty hopen
        unfold tagPieces
        rw [hpieces, hcons, Delimiter.outside_cons_cons, Delimiter.enclosed_cons_cons]
        simp
  | case3 i builder results hi =>
      rw [List.drop_eq_nil_of_le (by omega : text.length ≤ i)]
      unfold tagPieces
      rw [Delimiter.pieces_of_none (Delimiter.cut?_nil tag.nonempty)]
      simp [Delimiter.outside, Delimiter.enclosed]

theorem extractByTag_ordinal (text : Text) (tag : Tag) :
    extractByTag .ordinal text tag =
      (Delimiter.outside tag.text (tagPieces tag text),
        (Delimiter.enclosed (tagPieces tag text)).map trim) := by
  rw [extractByTag, extractByTagLoop_ordinal]
  simp

/-- `ExtractByTag` splits by parity. -/
theorem extractByTag_eq_splitByParity (text : Text) (tag : Tag) :
    extractByTag .ordinal text tag = splitByParity text tag := by
  rw [extractByTag_ordinal]
  unfold splitByParity
  by_cases hodd : (tagPieces tag text).length % 2 = 1
  · obtain ⟨houtside, henclosed⟩ := Delimiter.outside_of_odd (d := tag.text) _ hodd
    rw [if_pos hodd, houtside, henclosed]
  · have heven : (tagPieces tag text).length % 2 = 0 := by omega
    obtain ⟨houtside, henclosed⟩ :=
      Delimiter.outside_of_even (d := tag.text) _ (Delimiter.pieces_ne_nil tag.nonempty text) heven
    rw [if_neg hodd]
    exact Prod.ext houtside (congrArg (List.map trim) henclosed)

end Typesetting
