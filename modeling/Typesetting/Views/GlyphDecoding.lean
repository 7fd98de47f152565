/-
# Typesetting.Views.GlyphDecoding -- the window reads the lines back from the glyphs

`DrawGlyphs` does not get the text of the page. It groups the glyphs by their y, rounded to tens,
orders the groups from top to bottom and each group by x, and turns the ids back into characters.
The native side writes x in the order of the characters and one y for all of them, so the window
sees a single line: the text of the page as far as the native side saw it.
-/
import Mathlib.Algebra.Order.Floor.Ring
import Mathlib.Tactic.NormNum
import Mathlib.Data.Rat.Floor
import Typesetting.Lib.FirstOccurrence
import Typesetting.ViewModels.GlyphsInStep

namespace Typesetting

namespace MainWindow

/-- `Math.Round`: to the nearest integer, halves to the even one. -/
def mathRound (q : ℚ) : Int :=
  let below := ⌊q⌋
  let rest := q - below
  if rest < 1 / 2 then below
  else if 1 / 2 < rest then below + 1
  else if below % 2 = 0 then below
  else below + 1

/-- `Math.Round(g.Y / 10.0) * 10` -/
def lineKey (g : GlyphInfo) : ℚ :=
  mathRound (g.y / 10) * 10

/-- `(char)g.Id` -/
def glyphChar (g : GlyphInfo) : UInt16 :=
  UInt16.ofNat g.id

/-- The texts of the line groups of `DrawGlyphs`, which returns at once for an empty list. -/
def lineTexts (glyphs : List GlyphInfo) : List Text :=
  if glyphs.length = 0 then []
  else
    let lines := Grouping.orderBy Prod.fst (Grouping.groupBy lineKey glyphs)
    lines.map fun lineGroup => (Grouping.orderBy GlyphInfo.x lineGroup.2).map glyphChar

section Encoded

variable {rounding : FloatRounding} {text : Text}

/-- All glyphs share the baseline, and with it the key. -/
theorem lineKey_glyphAt (i : Nat) (unit : UInt16) : lineKey (glyphAt rounding i unit) = 50 := by
  have hround : mathRound (50 / 10) = 5 := by
    have hfive : (50 / 10 : ℚ) = ((5 : Int) : ℚ) := by norm_num
    unfold mathRound
    rw [hfive, Int.floor_intCast]
    norm_num
  show ((mathRound (50 / 10) : Int) : ℚ) * 10 = 50
  rw [hround]
  norm_num

/-- Rounding keeps the order of the positions. -/
theorem x_glyphAt_mono {i j : Nat} (h : i ≤ j) (u v : UInt16) :
    (glyphAt rounding i u).x ≤ (glyphAt rounding j v).x := by
  apply rounding.mono
  apply mul_le_mul_of_nonneg_right _ (by norm_num [glyphWidth])
  apply rounding.mono
  exact_mod_cast h

theorem glyphChar_glyphAt (i : Nat) (unit : UInt16) : glyphChar (glyphAt rounding i unit) = unit :=
  UInt16.ofNat_toNat

theorem lineTexts_encoded (hne : text ≠ []) :
    lineTexts (text.mapIdx (glyphAt rounding)) = [text] := by
  have hglyphs : text.mapIdx (glyphAt rounding) ≠ [] := by
    simpa using hne
  have hgroups : Grouping.groupBy lineKey (text.mapIdx (glyphAt rounding)) =
      [(50, text.mapIdx (glyphAt rounding))] := by
    apply Grouping.groupBy_of_const hglyphs
    intro g hg
    obtain ⟨i, hi, rfl⟩ := List.mem_mapIdx.mp hg
    exact lineKey_glyphAt i _
  have hsorted : Grouping.orderBy GlyphInfo.x (text.mapIdx (glyphAt rounding)) =
      text.mapIdx (glyphAt rounding) := by
    apply Grouping.orderBy_of_sorted
    apply List.pairwise_iff_getElem.mpr
    intro i j hi hj hij
    rw [List.getElem_mapIdx, List.getElem_mapIdx]
    exact x_glyphAt_mono (Nat.le_of_lt hij) _ _
  have hchars : (text.mapIdx (glyphAt rounding)).map glyphChar = text := by
    apply List.ext_getElem
    · simp
    · intro i hi hi'
      simp [glyphChar_glyphAt]
  have hone : Grouping.orderBy Prod.fst [((50 : ℚ), text.mapIdx (glyphAt rounding))] =
      [(50, text.mapIdx (glyphAt rounding))] :=
    Grouping.orderBy_of_sorted (List.pairwise_singleton _ _)
  have hlength : (text.mapIdx (glyphAt rounding)).length ≠ 0 :=
    mt List.eq_nil_of_length_eq_zero hglyphs
  unfold lineTexts
  rw [if_neg hlength, hgroups]
  simp only [hone, List.map_cons, List.map_nil, hsorted, hchars]

end Encoded

/-- The glyphs of a page, one for each character before the first U+0000. -/
theorem glyphs_loadGlyphsForPage (rounding : FloatRounding) (page : PageModel)
    (vm : EditorViewModel) :
    (EditorViewModel.loadGlyphsForPage rounding none page vm).1.glyphs =
      ((EditorViewModel.mainContent page).takeWhile (· != 0)).mapIdx (glyphAt rounding) := by
  by_cases hlines : page.allMainLines = []
  · rw [EditorViewModel.loadGlyphsForPage_of_no_lines hlines]
    simp only [EditorViewModel.mainContent, hlines]
    rfl
  · rw [EditorViewModel.loadGlyphsForPage_none hlines]
    exact layoutResult_eq rounding _

/-- Loading the glyphs of a page and reading its lines back gives the content of the page up to
its first U+0000, as one line, or as none when nothing comes before it. There is one glyph for
each of its characters. -/
theorem lineTexts_loadGlyphsForPage (rounding : FloatRounding) (page : PageModel)
    (vm : EditorViewModel) :
    let content := (EditorViewModel.mainContent page).takeWhile (· != 0)
    let glyphs := (EditorViewModel.loadGlyphsForPage rounding none page vm).1.glyphs
    lineTexts glyphs = (if content = [] then [] else [content]) ∧
      glyphs.length = content.length := by
  intro content glyphs
  have hglyphs : glyphs = content.mapIdx (glyphAt rounding) :=
    glyphs_loadGlyphsForPage rounding page vm
  rw [hglyphs, List.length_mapIdx]
  refine ⟨?_, rfl⟩
  split
  · rename_i hnil
    rw [hnil]
    rfl
  · rename_i hne
    exact lineTexts_encoded hne

end MainWindow

end Typesetting
