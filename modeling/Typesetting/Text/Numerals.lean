/-
# Typesetting.Text.Numerals -- decimal numerals as texts

`int.ToString()` of a number that is not negative consists of ASCII digits and tells the number.
Digits are no white space, so a numeral is a word.

`char.IsDigit` knows the decimal digits of all scripts. `int.TryParse` knows those of ASCII only,
and no value past the largest `int`.
-/
import Mathlib.Data.Nat.Digits.Defs
import Mathlib.Logic.Function.Defs
import Typesetting.Text.Utf16

namespace Typesetting

/-- The code unit of an ASCII character. -/
def asciiUnit (c : Char) : UInt16 :=
  UInt16.ofNat c.toNat

/-- An ASCII digit is a single code unit. -/
theorem utf16Units_of_isDigit {c : Char} (h : c.isDigit = true) :
    utf16Units c = [asciiUnit c] ∧ 48 ≤ (asciiUnit c).toNat ∧ (asciiUnit c).toNat ≤ 57 ∧
      Char.ofNat (asciiUnit c).toNat = c := by
  have hrange : 48 ≤ c.toNat ∧ c.toNat ≤ 57 := by
    simp only [Char.isDigit, Bool.and_eq_true, decide_eq_true_eq] at h
    exact ⟨h.1, h.2⟩
  have hunit : (asciiUnit c).toNat = c.toNat := by
    have hlt : c.toNat < 2 ^ 16 := by omega
    exact UInt16.toNat_ofNat_of_lt' hlt
  refine ⟨?_, by omega, by omega, ?_⟩
  · unfold utf16Units
    rw [if_pos (by omega)]
    rfl
  · rw [hunit, Char.ofNat_toNat]

theorem isDigit_of_mem_digits {n : Nat} {c : Char} (h : c ∈ Nat.toDigits 10 n) :
    c.isDigit = true :=
  Nat.isDigit_of_mem_toDigits (by decide) (by decide) h

theorem natToText_eq (n : Nat) : natToText n = (Nat.toDigits 10 n).map asciiUnit := by
  have hunits : ∀ c ∈ Nat.toDigits 10 n, utf16Units c = [asciiUnit c] :=
    fun c hc => (utf16Units_of_isDigit (isDigit_of_mem_digits hc)).1
  unfold natToText utf16
  rw [Nat.toString_eq_repr, Nat.toList_repr]
  generalize Nat.toDigits 10 n = digits at hunits
  induction digits with
  | nil => rfl
  | cons c cs ih =>
      rw [List.flatMap_cons, hunits c List.mem_cons_self,
        ih fun d hd => hunits d (List.mem_cons_of_mem c hd)]
      rfl

theorem natToText_ne_nil (n : Nat) : natToText n ≠ [] := by
  rw [natToText_eq]
  intro h
  exact Nat.toDigits_ne_nil (List.map_eq_nil_iff.mp h)

theorem mem_natToText {n : Nat} {u : UInt16} (h : u ∈ natToText n) :
    48 ≤ u.toNat ∧ u.toNat ≤ 57 := by
  rw [natToText_eq] at h
  obtain ⟨c, hc, rfl⟩ := List.mem_map.mp h
  obtain ⟨-, hlow, hhigh, -⟩ := utf16Units_of_isDigit (isDigit_of_mem_digits hc)
  exact ⟨hlow, hhigh⟩

theorem isWhiteSpace_of_mem_natToText {n : Nat} {u : UInt16} (h : u ∈ natToText n) :
    isWhiteSpace u = false := by
  have hrange := mem_natToText h
  simp only [isWhiteSpace, Bool.or_eq_false_iff, Bool.and_eq_false_iff, decide_eq_false_iff_not,
    beq_eq_false_iff_ne]
  omega

theorem natToText_no_space (n : Nat) : ∀ c ∈ natToText n, (c == space) = false := by
  intro c hc
  have hrange := mem_natToText hc
  rw [beq_eq_false_iff_ne]
  rintro rfl
  rw [show space.toNat = 32 from rfl] at hrange
  omega

theorem natToText_injective : Function.Injective natToText := by
  have hback : ∀ n, (natToText n).map (fun u => Char.ofNat u.toNat) = Nat.toDigits 10 n := by
    intro n
    rw [natToText_eq, List.map_map]
    have hmap : (Nat.toDigits 10 n).map ((fun u => Char.ofNat u.toNat) ∘ asciiUnit) =
        (Nat.toDigits 10 n).map id :=
      List.map_congr_left fun c hc => (utf16Units_of_isDigit (isDigit_of_mem_digits hc)).2.2.2
    rw [hmap, List.map_id]
  intro m n h
  have hdigits : Nat.toDigits 10 m = Nat.toDigits 10 n := by rw [← hback, ← hback, h]
  simpa using congrArg (fun digits => Nat.ofDigitChars 10 digits 0) hdigits

/-! ## Reading numerals -/

/-- The zeros of the scripts: the first of ten digits each (Unicode category Nd) among the
characters of one code unit. -/
def digitZeros : List Nat :=
  [0x0030, 0x0660, 0x06F0, 0x07C0, 0x0966, 0x09E6, 0x0A66, 0x0AE6, 0x0B66, 0x0BE6, 0x0C66, 0x0CE6,
    0x0D66, 0x0DE6, 0x0E50, 0x0ED0, 0x0F20, 0x1040, 0x1090, 0x17E0, 0x1810, 0x1946, 0x19D0, 0x1A80,
    0x1A90, 0x1B50, 0x1BB0, 0x1C40, 0x1C50, 0xA620, 0xA8D0, 0xA900, 0xA9D0, 0xA9F0, 0xAA50, 0xABF0,
    0xFF10]

/-- `char.IsDigit` -/
def isDigit (u : UInt16) : Bool :=
  digitZeros.any fun first => first ≤ u.toNat && u.toNat < first + 10

/-- `'0'` to `'9'` -/
def isAsciiDigit (u : UInt16) : Bool :=
  0x30 ≤ u.toNat && u.toNat ≤ 0x39

/-- `int.MaxValue` -/
def int32Max : Nat := 2147483647

/-- One digit more. A digit of another script and a value past `int.MaxValue` make the attempt
fail. -/
def parseDigit (value : Nat) (u : UInt16) : Option Nat :=
  if isAsciiDigit u then
    if value * 10 + (u.toNat - 0x30) ≤ int32Max then some (value * 10 + (u.toNat - 0x30)) else none
  else none

/-- `int.TryParse(text, out num)` for a text of one digit or more and of nothing but digits, so
without a sign and without white space. -/
def tryParseInt (text : Text) : Option Nat :=
  text.foldlM parseDigit 0

/-- The value of a numeral. -/
def decimalValue (text : Text) : Nat :=
  Nat.ofDigits 10 (text.reverse.map fun u => u.toNat - 0x30)

theorem decimalValue_concat (text : Text) (u : UInt16) :
    decimalValue (text ++ [u]) = decimalValue text * 10 + (u.toNat - 0x30) := by
  unfold decimalValue
  rw [List.reverse_append, List.reverse_singleton, List.singleton_append, List.map_cons,
    Nat.ofDigits_cons]
  omega

/-- A text of digits is read exactly when it is of ASCII digits and its value is an `int`. -/
theorem tryParseInt_eq (text : Text) :
    tryParseInt text =
      if text.all isAsciiDigit = true ∧ decimalValue text ≤ int32Max then some (decimalValue text)
      else none := by
  induction text using List.reverseRecOn with
  | nil => rfl
  | append_singleton text u ih =>
      have hstep : tryParseInt (text ++ [u]) =
          (tryParseInt text).bind fun value => parseDigit value u := by
        simp [tryParseInt, List.foldlM_append]
      have hall : (text ++ [u]).all isAsciiDigit = (text.all isAsciiDigit && isAsciiDigit u) := by
        simp
      rw [hstep, ih, decimalValue_concat, hall]
      split
      · rename_i h
        rw [Option.bind_some, parseDigit]
        by_cases hu : isAsciiDigit u = true
        · simp [hu, h.1]
        · simp [hu]
      · rename_i h
        -- the value of the digits before is no larger
        rw [Option.bind_none, if_neg]
        rintro ⟨hdigits, hvalue⟩
        rw [Bool.and_eq_true] at hdigits
        exact h ⟨hdigits.1, by omega⟩

end Typesetting
