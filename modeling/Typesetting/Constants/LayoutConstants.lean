/-
# Typesetting.Constants.LayoutConstants -- the measures of the two-column layout

Those of the constants that the layout and the renderer compute with, in pixels of an A4 page at
96 dpi, font sizes in points, and the markers of the lines of a raw text.
-/
import Mathlib.Algebra.Order.Field.Rat
import Typesetting.Text.Utf16

namespace Typesetting

namespace LayoutConstants

def pageWidthPx : ℚ := 794
def pageHeightPx : ℚ := 1123

def marginTop : ℚ := 72
def marginBottom : ℚ := 80
def marginOuter : ℚ := 60
def marginInner : ℚ := 50
def columnGap : ℚ := 24

def columnWidth : ℚ :=
  (pageWidthPx - marginOuter - marginInner - columnGap) / 2

def fontMain : Text := utf16 "Frank Ruehl CLM"

def fontSizeMain : ℚ := 13
def fontSizeFootnoteA : ℚ := 21 / 2
def fontSizeFootnoteB : ℚ := 19 / 2
def fontSizeFootnoteC : ℚ := 9
def fontSizeRunningHeader : ℚ := 9
def fontSizePageNumber : ℚ := 9

def lineHeightMain : ℚ := 7 / 5
def lineHeightFootnote : ℚ := 13 / 10

def separatorLineThickness : ℚ := 1 / 2
def headerLineThickness : ℚ := 1 / 2

def runningHeaderHeight : ℚ := 24
def runningHeaderOffset : ℚ := 20
def pageNumberOffset : ℚ := 18
def footnoteSectionTitleHeight : ℚ := 20

/-! What stands at the start of a line of a raw text, and where it goes. -/

def markerFootnoteA : Text := utf16 "$$"
def markerFootnoteB : Text := utf16 "%%"
def markerFootnoteC : Text := utf16 "&&"
def markerBookName : Text := utf16 "==="
def markerParasha : Text := utf16 "---"

/-- The code units left out of what is measured, first and last. -/
def nikudStart : Nat := 0x05B0
def nikudEnd : Nat := 0x05C7

end LayoutConstants

end Typesetting
