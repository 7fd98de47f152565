/-
# Typesetting.Services.FootnoteReferences -- the numbers of the notes a text refers to

`FindFootnoteReferences` searches for a prefix, reads the digits behind it and goes on behind the
digits. A prefix of one character that is no digit does not stand among the digits that are passed
over, so every place it stands at is looked at once.
-/
import Typesetting.Lib.WhileLoop
import Typesetting.Text.Numerals

namespace Typesetting

namespace TextParser

/-! ## The loop -/

/-- The local variables of the loop. -/
structure FindState where
  i : Nat
  result : List Nat

/-- `while (numEnd < text.Length && char.IsDigit(text[numEnd])) numEnd++;` from `numStart` on -/
def skipDigits (text : Text) (numStart : Nat) : Nat :=
  numStart + ((text.drop numStart).takeWhile isDigit).length

/-- One pass of the loop of `FindFootnoteReferences(text, prefix)`. -/
def findStep (culture : CompareInfo) (text refPrefix : Text) (s : FindState) :
    FindState ⊕ List Nat :=
  if s.i < text.length then
    let idx := culture.indexOf text refPrefix s.i
    -- break
    if idx = -1 then .inr s.result
    else
      let numStart := idx.toNat + refPrefix.length
      let numEnd := skipDigits text numStart
      let num :=
        if numStart < numEnd then tryParseInt (substring text numStart (numEnd - numStart)) else none
      match num with
      | some num => .inl ⟨numEnd, s.result ++ [num]⟩
      | none => .inl ⟨numEnd, s.result⟩
  else .inr s.result

/-- `FindFootnoteReferences(text, prefix)` ends and returns the numbers. -/
def FindsFootnoteReferences (culture : CompareInfo) (text refPrefix : Text)
    (numbers : List Nat) : Prop :=
  WhileLoop.Returns (findStep culture text refPrefix) ⟨0, []⟩ numbers

/-! ## What a reference is -/

/-- The number referred to at a position: the prefix stands there, with digits behind it that are
of ASCII and make an `int`. -/
def referenceAt (text : Text) (c : UInt16) (position : Nat) : Option Nat :=
  if text[position]? = some c then
    let digits := (text.drop (position + 1)).takeWhile isDigit
    if digits ≠ [] ∧ digits.all isAsciiDigit = true ∧ decimalValue digits ≤ int32Max then
      some (decimalValue digits)
    else none
  else none

section Ordinal

variable {text : Text} {c : UInt16}

theorem referenceAt_of_ne {position : Nat} (h : text[position]? ≠ some c) :
    referenceAt text c position = none := by
  rw [referenceAt, if_neg h]

/-- The code asks for a digit and tries to read, which is what a reference is. -/
theorem referenceAt_eq {position : Nat} (h : text[position]? = some c) :
    referenceAt text c position =
      if position + 1 < skipDigits text (position + 1) then
        tryParseInt (substring text (position + 1) (skipDigits text (position + 1) - (position + 1)))
      else none := by
  have hread : substring text (position + 1) (skipDigits text (position + 1) - (position + 1)) =
      (text.drop (position + 1)).takeWhile isDigit := by
    unfold substring skipDigits
    rw [Nat.add_sub_cancel_left]
    exact (List.prefix_iff_eq_take.mp (List.takeWhile_prefix isDigit)).symm
  have hsome : position + 1 < skipDigits text (position + 1) ↔
      (text.drop (position + 1)).takeWhile isDigit ≠ [] := by
    rw [← List.length_pos_iff]
    unfold skipDigits
    omega
  rw [referenceAt, if_pos h, hread, tryParseInt_eq]
  by_cases hdigits : (text.drop (position + 1)).takeWhile isDigit = []
  · rw [if_neg (by simp [hdigits]), if_neg (by simp [hsome, hdigits])]
  · rw [if_pos (hsome.mpr hdigits)]
    simp only [ne_eq, hdigits, not_false_eq_true, true_and]

/-- What is passed over are digits. -/
theorem isDigit_of_lt_skipDigits {numStart j : Nat} (hstart : numStart ≤ j)
    (hend : j < skipDigits text numStart) : ∃ u, text[j]? = some u ∧ isDigit u = true := by
  have hlt : j - numStart < ((text.drop numStart).takeWhile isDigit).length := by
    unfold skipDigits at hend
    omega
  refine ⟨((text.drop numStart).takeWhile isDigit)[j - numStart], ?_, ?_⟩
  · have hprefix := List.takeWhile_prefix (l := text.drop numStart) isDigit
    have hget := hprefix.getElem hlt
    rw [hget, List.getElem_drop]
    have hj : numStart + (j - numStart) = j := by omega
    simp only [hj]
    exact List.getElem?_eq_getElem _
  · exact List.mem_takeWhile_imp (List.getElem_mem hlt)

theorem skipDigits_le {numStart : Nat} (h : numStart ≤ text.length) :
    skipDigits text numStart ≤ text.length := by
  have hle : ((text.drop numStart).takeWhile isDigit).length ≤ (text.drop numStart).length :=
    (List.takeWhile_prefix isDigit).length_le
  rw [List.length_drop] at hle
  unfold skipDigits
  omega

/-! ## The references are found -/

/-- So far the loop has found the references before position `i`. -/
def FoundBefore (text : Text) (c : UInt16) (s : FindState) : Prop :=
  s.i ≤ text.length ∧ s.result = (List.range s.i).filterMap (referenceAt text c)

/-- Positions without a reference add nothing. -/
theorem filterMap_range_eq {i j : Nat} (hle : i ≤ j)
    (hnone : ∀ k, i ≤ k → k < j → referenceAt text c k = none) :
    (List.range j).filterMap (referenceAt text c) =
      (List.range i).filterMap (referenceAt text c) := by
  induction j, hle using Nat.le_induction with
  | base => rfl
  | succ j hle ih =>
      rw [List.range_succ, List.filterMap_append, ih fun k hk hlt => hnone k hk (by omega)]
      simp [hnone j hle (by omega)]

/-- Up to the end of the digits behind the next place of the prefix there is no other reference:
none before the prefix, and none among the digits. -/
theorem filterMap_range_skipDigits (hc : isDigit c = false) {i idx : Nat} (hge : i ≤ idx)
    (hfirst : ∀ j, i ≤ j → j < idx → text[j]? ≠ some c) :
    (List.range (skipDigits text (idx + 1))).filterMap (referenceAt text c) =
      (List.range i).filterMap (referenceAt text c) ++ (referenceAt text c idx).toList := by
  have hdigits : ∀ k, idx + 1 ≤ k → k < skipDigits text (idx + 1) → referenceAt text c k = none := by
    intro k hk hend
    obtain ⟨u, hu, hdigit⟩ := isDigit_of_lt_skipDigits hk hend
    apply referenceAt_of_ne
    rw [hu]
    rintro ⟨⟩
    rw [hc] at hdigit
    cases hdigit
  have hstart : idx + 1 ≤ skipDigits text (idx + 1) := Nat.le_add_right _ _
  rw [filterMap_range_eq hstart hdigits, List.range_succ, List.filterMap_append,
    filterMap_range_eq hge fun k hk hk' => referenceAt_of_ne (hfirst k hk hk')]
  cases href : referenceAt text c idx <;> simp [href]

/-- A pass of the loop ends it with all references, or moves on past one place of the prefix. -/
theorem findStep_cases (hc : isDigit c = false) {s : FindState} (h : FoundBefore text c s) :
    findStep .ordinal text [c] s = .inr ((List.range text.length).filterMap (referenceAt text c)) ∨
      ∃ s', findStep .ordinal text [c] s = .inl s' ∧ FoundBefore text c s' ∧ s.i < s'.i := by
  obtain ⟨hle, hresult⟩ := h
  unfold findStep
  by_cases hi : s.i < text.length
  · rw [if_pos hi]
    rcases indexOfOrdinal_singleton_cases text c s.i with
      ⟨hnone, hnowhere⟩ | ⟨idx, hidx, hge, hstands, hfirst⟩
    · left
      have hbreak : CompareInfo.ordinal.indexOf text [c] s.i = -1 := hnone
      simp only [hbreak, if_true]
      rw [hresult, filterMap_range_eq hle fun k hk _ => referenceAt_of_ne (hnowhere k hk)]
    · right
      have hfound : CompareInfo.ordinal.indexOf text [c] s.i = idx := hidx
      have hgo : ¬ ((idx : Int) = -1) := by omega
      obtain ⟨hlt, -⟩ := List.getElem?_eq_some_iff.mp hstands
      have hstart : idx + 1 ≤ skipDigits text (idx + 1) := Nat.le_add_right _ _
      have hrange := filterMap_range_skipDigits hc hge hfirst
      rw [← hresult] at hrange
      have hnum := referenceAt_eq hstands
      simp only [hfound, hgo, if_false, Int.toNat_natCast, List.length_singleton, ← hnum]
      have hend : skipDigits text (idx + 1) ≤ text.length := skipDigits_le hlt
      cases href : referenceAt text c idx with
      | some num =>
          refine ⟨_, rfl, ⟨hend, ?_⟩, by simp only; omega⟩
          rw [hrange, href]
          rfl
      | none =>
          refine ⟨_, rfl, ⟨hend, ?_⟩, by simp only; omega⟩
          rw [hrange, href]
          simp
  · left
    have hend : s.i = text.length := by omega
    rw [if_neg hi, hresult, hend]

theorem FoundBefore.next (hc : isDigit c = false) {s s' : FindState} (h : FoundBefore text c s)
    (hstep : findStep .ordinal text [c] s = .inl s') : FoundBefore text c s' ∧ s.i < s'.i := by
  rcases findStep_cases hc h with hexit | ⟨t, hnext, ht⟩
  · rw [hexit] at hstep
    cases hstep
  · rw [hnext, Sum.inl.injEq] at hstep
    exact hstep ▸ ht

theorem FoundBefore.exit (hc : isDigit c = false) {s : FindState} {numbers : List Nat}
    (h : FoundBefore text c s) (hstep : findStep .ordinal text [c] s = .inr numbers) :
    numbers = (List.range text.length).filterMap (referenceAt text c) := by
  rcases findStep_cases hc h with hexit | ⟨t, hnext, -⟩
  · rw [hexit, Sum.inr.injEq] at hstep
    exact hstep.symm
  · rw [hnext] at hstep
    cases hstep

end Ordinal

/-- The search for a prefix of one character that is no digit ends and returns the references at
all positions of the text, in their order. -/
theorem findsFootnoteReferences (text : Text) (c : UInt16) (hc : isDigit c = false) :
    FindsFootnoteReferences .ordinal text [c]
      ((List.range text.length).filterMap (referenceAt text c)) := by
  have hstart : FoundBefore text c ⟨0, []⟩ := ⟨Nat.zero_le _, rfl⟩
  obtain ⟨numbers, hnumbers⟩ : ∃ numbers, FindsFootnoteReferences .ordinal text [c] numbers := by
    refine WhileLoop.returns_of_measure (fun s => text.length - s.i) (fun s s' hs hstep => ?_) hstart
    obtain ⟨hs', hlt⟩ := hs.next hc hstep
    have hle := hs'.1
    exact ⟨hs', by omega⟩
  have hall : numbers = (List.range text.length).filterMap (referenceAt text c) :=
    hnumbers.of_invariant (fun s s' hs hstep => (hs.next hc hstep).1)
      (fun s r hs hstep => hs.exit hc hstep) hstart
  exact hall ▸ hnumbers

/-- Note tags, a leading zero, a digit of another script and a number that is no `int`. -/
theorem findsFootnoteReferences_mixed :
    FindsFootnoteReferences .ordinal (utf16 "$$7 $012$3٤$2147483648 $") (utf16 "$") [7, 12] :=
  findsFootnoteReferences (utf16 "$$7 $012$3٤$2147483648 $") 0x24 (by decide)

end TextParser

end Typesetting
