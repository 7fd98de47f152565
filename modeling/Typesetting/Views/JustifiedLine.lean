/-
# Typesetting.Views.JustifiedLine -- the window justifies a line without looking at its width

`RenderJustifiedLine` of the window gives each word its distance from the right edge: behind the
word before it and an equal share of what the words leave of the column. Where the words are wider
than the column together the share is negative, and unlike the page renderer the window draws the
words over one another then.

Widths and positions are `double`s in the code and exact rational numbers here: that a line ends
exactly at the edge holds up to what the code's sums and quotients are rounded by.
-/
import Typesetting.Lib.Justify
import Typesetting.Services.TextParser

namespace Typesetting

namespace MainWindow

/-- A text block on the canvas: `Canvas.SetRight` and `Canvas.SetTop`. -/
structure PlacedText where
  text : Text
  right : ℚ
  top : ℚ
  fontSize : ℚ

/-- `MeasureWordWidth(word, fontSize)`; `measure` is `WidthIncludingTrailingWhitespace` in the font
of the window. -/
def measureWordWidth (measure : TextMeasure) (word : Text) (fontSize : ℚ) : ℚ :=
  let clean := word.filter fun c => c < 0x05B0 || 0x05C7 < c
  measure clean fontSize

/-- `text.Split(' ', StringSplitOptions.RemoveEmptyEntries)` -/
def splitAtSpaces (text : Text) : List Text :=
  splitRemoveEmpty (· == space) text

/-- The loop that places the words, each behind the one before it. -/
def placeWords (measure : TextMeasure) (y fontSize spaceBetweenWords : ℚ) :
    List Text → ℚ → List PlacedText
  | [], _ => []
  | word :: words, currentX =>
    ⟨word, currentX, y, fontSize⟩ ::
      placeWords measure y fontSize spaceBetweenWords words
        (currentX + (measureWordWidth measure word fontSize + spaceBetweenWords))

/-- `RenderJustifiedLine(text, x, y, maxWidth, fontSize, justify)` -/
def renderJustifiedLine (measure : TextMeasure) (text : Text) (x y maxWidth fontSize : ℚ)
    (justify : Bool) : List PlacedText :=
  if isNullOrWhiteSpace text then []
  else
    let words := splitAtSpaces text
    if words.length = 1 ∨ justify = false then [⟨text, x, y, fontSize⟩]
    else
      let totalWordsWidth := (words.map fun word => measureWordWidth measure word fontSize).sum
      let extraSpace := maxWidth - totalWordsWidth
      -- the share is not bounded from below
      let spaceBetweenWords := extraSpace / (words.length - 1 : ℕ)
      placeWords measure y fontSize spaceBetweenWords words x

/-! ## The places of the words -/

/-- What a text block takes of the line, from its distance from the right edge on. -/
def PlacedText.span (measure : TextMeasure) (t : PlacedText) : Justify.Span ℚ :=
  ⟨t.right, measureWordWidth measure t.text t.fontSize⟩

/-- The widths of the words of a line. -/
def wordWidths (measure : TextMeasure) (text : Text) (fontSize : ℚ) : List ℚ :=
  (splitAtSpaces text).map fun word => measureWordWidth measure word fontSize

section Line

variable {measure : TextMeasure} {text : Text} {x y maxWidth fontSize : ℚ}

theorem span_placeWords (gap : ℚ) (words : List Text) :
    (placeWords measure y fontSize gap words x).map (PlacedText.span measure) =
      Justify.place gap x (words.map fun word => measureWordWidth measure word fontSize) := by
  induction words generalizing x with
  | nil => rfl
  | cons word words ih =>
      rw [placeWords, List.map_cons, List.map_cons, ih, Justify.place_cons, ← add_assoc]
      rfl

/-- A justified line of two or more words. -/
theorem span_renderJustifiedLine (hdrawn : isNullOrWhiteSpace text = false)
    (hwords : 2 ≤ (splitAtSpaces text).length) :
    (renderJustifiedLine measure text x y maxWidth fontSize true).map (PlacedText.span measure) =
      Justify.place (Justify.gapOf maxWidth (wordWidths measure text fontSize)) x
        (wordWidths measure text fontSize) := by
  have hjustified : ¬ ((splitAtSpaces text).length = 1 ∨ true = false) := by
    rintro (hone | h)
    · omega
    · cases h
  unfold renderJustifiedLine
  rw [if_neg (by simp [hdrawn])]
  simp only [if_neg hjustified]
  rw [span_placeWords, Justify.gapOf, wordWidths, List.length_map]

/-- The words follow one another, and words that fit the column fill it. -/
structure FillsColumn (x maxWidth : ℚ) (widths : List ℚ) (spans : List (Justify.Span ℚ)) :
    Prop where
  apart : spans.IsChain fun a b => a.stop ≤ b.start
  starts : widths.sum ≤ maxWidth → ∀ a ∈ spans.head?, a.start = x
  ends : widths.sum ≤ maxWidth → ∀ a ∈ spans.getLast?, a.stop = x + maxWidth

/-- The words of a justified line lie side by side and fill the column exactly when they are no
wider than the column together. -/
theorem renderJustifiedLine_fillsColumn_iff (hdrawn : isNullOrWhiteSpace text = false)
    (hwords : 2 ≤ (splitAtSpaces text).length) :
    FillsColumn x maxWidth (wordWidths measure text fontSize)
        ((renderJustifiedLine measure text x y maxWidth fontSize true).map
          (PlacedText.span measure)) ↔
      (wordWidths measure text fontSize).sum ≤ maxWidth := by
  have hlen : 2 ≤ (wordWidths measure text fontSize).length := by
    rwa [wordWidths, List.length_map]
  rw [span_renderJustifiedLine hdrawn hwords]
  constructor
  · intro h
    exact (Justify.gapOf_nonneg_iff hlen).mp ((Justify.apart_place_iff hlen).mp h.apart)
  · intro hsum
    refine ⟨(Justify.apart_place_iff hlen).mpr ((Justify.gapOf_nonneg_iff hlen).mpr hsum), ?_, ?_⟩
    · intro _ a ha
      rw [Justify.head?_place, Option.mem_map] at ha
      obtain ⟨w, -, rfl⟩ := ha
      rfl
    · intro _
      exact Justify.stop_getLast?_place hlen

/-- Two words that leave room for one gap. -/
theorem renderJustifiedLine_fillsColumn_two_words :
    FillsColumn 0 9 (wordWidths (fun t _ => t.length) (utf16 "ab cd") 10)
      ((renderJustifiedLine (fun t _ => t.length) (utf16 "ab cd") 0 0 9 10 true).map
        (PlacedText.span fun t _ => t.length)) :=
  (renderJustifiedLine_fillsColumn_iff (by decide) (by decide +kernel)).mpr (by decide +kernel)

/-- Two words that are wider than the column: the second starts on the first. -/
theorem renderJustifiedLine_words_overlap :
    ¬ FillsColumn 0 3 (wordWidths (fun t _ => t.length) (utf16 "ab cd") 10)
      ((renderJustifiedLine (fun t _ => t.length) (utf16 "ab cd") 0 0 3 10 true).map
        (PlacedText.span fun t _ => t.length)) := by
  rintro ⟨hapart, -, -⟩
  have hspans : (renderJustifiedLine (fun t _ => t.length) (utf16 "ab cd") 0 0 3 10 true).map
      (PlacedText.span fun t _ => t.length) = [⟨0, 2⟩, ⟨1, 2⟩] := by decide +kernel
  rw [hspans, List.isChain_pair] at hapart
  exact absurd hapart (by decide +kernel)

end Line

end MainWindow

end Typesetting
