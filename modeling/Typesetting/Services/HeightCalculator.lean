/-
# Typesetting.Services.HeightCalculator -- the heights the layout reserves

`MeasureFootnoteSectionHeight` breaks every note into lines of its own, one note below the other,
and adds the height of the title and of the separator line. `AvailableMainHeight` is what the page
leaves to the main text, and `HowManyLinesFit` counts the lines for which a height is enough.
-/
import Mathlib.Data.Rat.Cast.Defs
import Mathlib.Data.Rat.Floor
import Typesetting.Models.PageModel
import Typesetting.Services.TextParser

namespace Typesetting

namespace HeightCalculator

/-- `MeasureBlockHeight(lines, fontSize, lineHeightMultiplier)` -/
def measureBlockHeight (lines : List Text) (fontSize lineHeightMultiplier : ℚ) : ℚ :=
  if lines.length = 0 then 0
  else
    let lineHeightPx := fontSize * (96 / 72) * lineHeightMultiplier
    lines.length * lineHeightPx

/-- `MeasureFootnoteSectionHeight(footnotes, fontSize, columnWidth)` -/
def measureFootnoteSectionHeight (measure : TextMeasure) (footnotes : List Text)
    (fontSize columnWidth : ℚ) : ℚ :=
  if footnotes.length = 0 then 0
  else
    let wrapped := TextParser.wrapLinesToWidth measure footnotes columnWidth fontSize
    let contentHeight := measureBlockHeight wrapped fontSize LayoutConstants.lineHeightFootnote
    let titleHeight := LayoutConstants.footnoteSectionTitleHeight
    let separatorHeight := 2
    contentHeight + titleHeight + separatorHeight

/-- `HowManyLinesFit(availableHeight, fontSize, lineHeightMultiplier)`; the cast to `int` cuts off
what is behind the point. -/
def howManyLinesFit (availableHeight fontSize lineHeightMultiplier : ℚ) : Int :=
  if availableHeight ≤ 0 then 0
  else
    let lineHeightPx := fontSize * (96 / 72) * lineHeightMultiplier
    let quotient := availableHeight / lineHeightPx
    let lines := if 0 ≤ quotient then ⌊quotient⌋ else ⌈quotient⌉
    if 0 < lines then lines else 0

/-- What the notes of one system take of the page: title, separator line and notes. -/
def sectionDeduction (notesRight notesLeft : List Text) (height : ℚ) : ℚ :=
  if 0 < notesRight.length ∨ 0 < notesLeft.length then
    LayoutConstants.footnoteSectionTitleHeight + 2 + height
  else 0

/-- `AvailableMainHeight(page)` -/
def availableMainHeight (page : PageModel) : ℚ :=
  let baseHeight :=
    LayoutConstants.pageHeightPx - LayoutConstants.marginTop - LayoutConstants.marginBottom
  let deductions :=
    LayoutConstants.runningHeaderHeight +
      (LayoutConstants.runningHeaderOffset - LayoutConstants.pageNumberOffset) +
      sectionDeduction page.footnotesARight page.footnotesALeft page.footnoteAHeight +
      sectionDeduction page.footnotesBRight page.footnotesBLeft page.footnoteBHeight +
      sectionDeduction page.footnotesCRight page.footnotesCLeft page.footnoteCHeight +
      10
  baseHeight - deductions

/-- `CalculateMainHeight(mainLines)` -/
def calculateMainHeight (mainLines : List Text) : ℚ :=
  measureBlockHeight mainLines LayoutConstants.fontSizeMain LayoutConstants.lineHeightMain

theorem measureBlockHeight_eq (lines : List Text) (fontSize lineHeightMultiplier : ℚ) :
    measureBlockHeight lines fontSize lineHeightMultiplier =
      lines.length * (fontSize * (96 / 72) * lineHeightMultiplier) := by
  unfold measureBlockHeight
  split
  · rename_i hnone
    rw [hnone, Nat.cast_zero, zero_mul]
  · rfl

end HeightCalculator

end Typesetting
