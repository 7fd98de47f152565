/-
# Typesetting.Core.InteropInterface -- the native `LayoutText`

The marshaller passes the string with a terminating NUL and the glyph array with its capacity in
`count`. `LayoutText` measures the string with `wcslen`, so up to its first U+0000, cuts this at
the capacity and writes one glyph for each unit: its number as the glyph's id, a multiple of
`glyphWidth` as its x and `baselineY` as its y. It leaves the number of glyphs in `count`.

Coordinates are `float`s in the code; here they are rationals, and the conversions and the product
go through a rounding function of which only monotonicity is known. Exact coordinates are the case
of the identity.
-/
import Mathlib.Algebra.Order.Field.Rat
import Mathlib.Data.List.TakeWhile
import Typesetting.Text.Utf16

namespace Typesetting

/-- Rounding to a floating-point format keeps the order. -/
structure FloatRounding where
  round : ℚ → ℚ
  mono : Monotone round

/-- Coordinates without rounding. -/
def FloatRounding.exact : FloatRounding := ⟨id, monotone_id⟩

/-- `GlyphInfo`, the same on both sides of the boundary. -/
structure GlyphInfo where
  id : Nat
  x : ℚ
  y : ℚ
  deriving DecidableEq, Repr, Inhabited

def glyphWidth : ℚ := 20

def baselineY : ℚ := 50

/-- `wcslen` of the marshalled string. -/
def wcslen (text : Text) : Nat :=
  (text.takeWhile (· != 0)).length

/-- The glyph written for unit `unit` at index `i`. -/
def glyphAt (rounding : FloatRounding) (i : Nat) (unit : UInt16) : GlyphInfo where
  id := unit.toNat
  x := rounding.round (rounding.round i * glyphWidth)
  y := baselineY

/-- `for (int i = 0; i < glyphCount; ++i)`; behind the last unit the memory holds the NUL. -/
def writeGlyphs (rounding : FloatRounding) (text : Text) (glyphCount : Nat)
    (outGlyphs : List GlyphInfo) : List GlyphInfo :=
  (List.range glyphCount).foldl
    (fun glyphs i => glyphs.set i (glyphAt rounding i (text.getD i 0))) outGlyphs

/-- `LayoutText(text, outGlyphs, &count)`: the array and the count it leaves behind. -/
def layoutText (rounding : FloatRounding) (text : Text) (outGlyphs : List GlyphInfo)
    (count : Nat) : List GlyphInfo × Nat :=
  let textLength := wcslen text
  let glyphCount := if count < textLength then count else textLength
  (writeGlyphs rounding text glyphCount outGlyphs, glyphCount)

/-! ## What the caller finds in the array -/

section Written

variable {rounding : FloatRounding} {text : Text}

theorem writeGlyphs_succ (n : Nat) (outGlyphs : List GlyphInfo) :
    writeGlyphs rounding text (n + 1) outGlyphs =
      (writeGlyphs rounding text n outGlyphs).set n (glyphAt rounding n (text.getD n 0)) := by
  simp [writeGlyphs, List.range_succ]

theorem length_writeGlyphs (n : Nat) (outGlyphs : List GlyphInfo) :
    (writeGlyphs rounding text n outGlyphs).length = outGlyphs.length := by
  induction n with
  | zero => rfl
  | succ n ih => rw [writeGlyphs_succ, List.length_set, ih]

theorem getElem?_writeGlyphs (n : Nat) (outGlyphs : List GlyphInfo) (j : Nat) :
    (writeGlyphs rounding text n outGlyphs)[j]? =
      if j < n ∧ j < outGlyphs.length then some (glyphAt rounding j (text.getD j 0))
      else outGlyphs[j]? := by
  induction n with
  | zero => simp [writeGlyphs]
  | succ n ih =>
      rw [writeGlyphs_succ, List.getElem?_set, length_writeGlyphs, ih]
      by_cases hj : n = j
      · subst hj
        by_cases hlt : n < outGlyphs.length
        · simp [hlt]
        · simp [hlt]
      · have hiff : j < n + 1 ↔ j < n := by omega
        simp only [if_neg hj, hiff]

/-- The first `n` cells hold the glyphs of the first `n` units. -/
theorem take_writeGlyphs {n : Nat} {outGlyphs : List GlyphInfo} (htext : n ≤ text.length)
    (hout : n ≤ outGlyphs.length) :
    (writeGlyphs rounding text n outGlyphs).take n = (text.take n).mapIdx (glyphAt rounding) := by
  apply List.ext_getElem?
  intro j
  rw [List.getElem?_mapIdx, List.getElem?_take, List.getElem?_take]
  by_cases hj : j < n
  · have hjtext : j < text.length := by omega
    rw [if_pos hj, if_pos hj, getElem?_writeGlyphs, if_pos ⟨hj, by omega⟩]
    simp [List.getD_eq_getElem?_getD, hjtext]
  · rw [if_neg hj, if_neg hj]
    rfl

end Written

/-- The glyphs of a text whose array holds a cell for each of its units. -/
def layoutResult (rounding : FloatRounding) (text : Text) : List GlyphInfo :=
  let result := layoutText rounding text (List.replicate text.length default) text.length
  result.1.take result.2

theorem wcslen_le (text : Text) : wcslen text ≤ text.length :=
  (List.takeWhile_sublist _).length_le

/-- The capacity is never what ends the text. -/
theorem layoutText_count (rounding : FloatRounding) (text : Text) :
    (layoutText rounding text (List.replicate text.length default) text.length).2 =
      wcslen text := by
  have hnot : ¬ text.length < wcslen text := not_lt.mpr (wcslen_le text)
  simp only [layoutText, if_neg hnot]

/-- One glyph for each unit up to the first U+0000. -/
theorem layoutResult_eq (rounding : FloatRounding) (text : Text) :
    layoutResult rounding text = (text.takeWhile (· != 0)).mapIdx (glyphAt rounding) := by
  have hnot : ¬ text.length < wcslen text := not_lt.mpr (wcslen_le text)
  have htake : text.take (wcslen text) = text.takeWhile (· != 0) :=
    (List.prefix_iff_eq_take.mp (List.takeWhile_prefix _)).symm
  simp only [layoutResult, layoutText, if_neg hnot]
  rw [take_writeGlyphs (wcslen_le text) (by simpa using wcslen_le text), htake]

theorem length_layoutResult (rounding : FloatRounding) (text : Text) :
    (layoutResult rounding text).length = wcslen text := by
  rw [layoutResult_eq, List.length_mapIdx, wcslen]

end Typesetting
