/-
# Typesetting.Services.TextParser -- breaking paragraphs into lines by measured width

`WrapLinesToWidth` fills lines word by word as long as they measure at most the column width and
marks the last line of each paragraph by appending U+00A4. What a text measures depends on the
fonts of the machine; `MeasureTextWidth` is a parameter, a function of the text and the font size.
The font family is the same in every call.
-/
import Typesetting.Constants.LayoutConstants
import Typesetting.Text.Utf16

namespace Typesetting

/-- The document `Parse` returns: the text separated into its parts, and the text itself. -/
structure ParsedDocument where
  mainLines : List Text := []
  footnotesA : List Text := []
  footnotesB : List Text := []
  footnotesC : List Text := []
  bookName : Text := []
  parashaName : Text := []
  rawText : Text := []

/-- `MeasureTextWidth(text, fontSize, FONT_MAIN)` -/
abbrev TextMeasure := Text → ℚ → ℚ

namespace TextParser

/-- U+00A4 at the end of the last line of a paragraph. -/
def lastLineMarker : UInt16 := 0xA4

/-- `paragraph.Split(new[] { ' ' }, StringSplitOptions.RemoveEmptyEntries)` -/
def splitWords (paragraph : Text) : List Text :=
  splitRemoveEmpty (· == space) paragraph

/-- The local variables of the loop over the words. -/
structure WrapState where
  result : List Text
  currentLine : Text
  isFirstWord : Bool

/-- The body of `foreach (var word in words)`. -/
def wrapWord (measure : TextMeasure) (maxWidth fontSize : ℚ) (st : WrapState) (word : Text) :
    WrapState :=
  let testLine := if st.isFirstWord then word else st.currentLine ++ [space] ++ word
  let width := measure testLine fontSize
  if width ≤ maxWidth then
    let currentLine := if st.isFirstWord then st.currentLine else st.currentLine ++ [space]
    { st with currentLine := currentLine ++ word, isFirstWord := false }
  else
    -- a word wider than the column has a line of its own
    let st :=
      if 0 < st.currentLine.length then
        { st with result := st.result ++ [st.currentLine], currentLine := [] }
      else st
    { st with currentLine := st.currentLine ++ word, isFirstWord := false }

/-- The body of `foreach (var paragraph in paragraphs)`. -/
def wrapParagraph (measure : TextMeasure) (maxWidth fontSize : ℚ) (result : List Text)
    (paragraph : Text) : List Text :=
  let st := (splitWords paragraph).foldl (wrapWord measure maxWidth fontSize)
    ⟨result, [], true⟩
  if 0 < st.currentLine.length then st.result ++ [st.currentLine ++ [lastLineMarker]]
  else st.result

/-- `WrapLinesToWidth(paragraphs, maxWidth, fontSize, fontFamily)` -/
def wrapLinesToWidth (measure : TextMeasure) (paragraphs : List Text) (maxWidth fontSize : ℚ) :
    List Text :=
  paragraphs.foldl (wrapParagraph measure maxWidth fontSize) []

/-- `IsLastLine(line)` -/
def isLastLine (culture : CompareInfo) (line : Text) : Bool :=
  culture.isSuffix line [lastLineMarker]

/-- `RemoveLastLineMarker(line)` -/
def removeLastLineMarker (culture : CompareInfo) (line : Text) : Text :=
  if isLastLine culture line then line.dropLast else line

end TextParser

end Typesetting
