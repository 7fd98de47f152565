/-
# Typesetting.Models.PageModel -- one page, as the pagination engines fill it

`PageModel.cs` declares the members of the first three groups below. `ColumnLayoutEngine` and
`PageRenderer` are written against a later version of the class and use the members of the last
group, which `PageModel.cs` does not declare at this commit; they are given here with the types
and the empty defaults these two classes rely on. Heights and widths are exact rationals.

The per-line footnote maps, the titles and the computed column width are not read by any function
modelled here and are left out.
-/
import Mathlib.Data.Rat.Defs
import Mathlib.Algebra.Order.Ring.Rat
import Typesetting.Text.Utf16

namespace Typesetting

/-- The notes of a document or a page come in three systems. -/
inductive NoteSystem where
  | A
  | B
  | C
  deriving DecidableEq, Repr

structure PageModel where
  pageNumber : Nat := 0
  runningHeaderRight : Text := []
  runningHeaderCenter : Text := []
  runningHeaderLeft : Text := []
  allMainLines : List Text := []
  allFootnotesA : List Text := []
  allFootnotesB : List Text := []
  allFootnotesC : List Text := []
  pageWidth : ℚ := 700
  pageHeight : ℚ := 950
  marginOuter : ℚ := 40
  marginInner : ℚ := 15
  headerHeight : ℚ := 50
  usedHeight : ℚ := 0
  -- the members of the two-column engine
  mainRight : List Text := []
  mainLeft : List Text := []
  footnotesARight : List Text := []
  footnotesALeft : List Text := []
  footnotesBRight : List Text := []
  footnotesBLeft : List Text := []
  footnotesCRight : List Text := []
  footnotesCLeft : List Text := []
  footnoteAHeight : ℚ := 0
  footnoteBHeight : ℚ := 0
  footnoteCHeight : ℚ := 0

namespace PageModel

/-- Height available on the page below the header. -/
def availableHeight (page : PageModel) : ℚ :=
  page.pageHeight - page.headerHeight - page.marginOuter

/-- Height left for further lines. -/
def remainingHeight (page : PageModel) : ℚ :=
  page.availableHeight - page.usedHeight

/-- `ReserveHeight(height)` -/
def reserveHeight (page : PageModel) (height : ℚ) : PageModel :=
  { page with usedHeight := page.usedHeight + height }

/-- The notes of one system the page carries. -/
def allFootnotes (page : PageModel) : NoteSystem → List Text
  | .A => page.allFootnotesA
  | .B => page.allFootnotesB
  | .C => page.allFootnotesC

end PageModel

end Typesetting
