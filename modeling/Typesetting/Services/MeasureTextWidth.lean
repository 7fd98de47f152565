/-
# Typesetting.Services.MeasureTextWidth -- measuring without vowel points, and the width cache

`MeasureTextWidth` leaves the points and accents out of a text and asks the font for the width of
the rest. Widths are kept in a dictionary under the text, the font size and the font family,
joined by bars. A text may hold bars itself; the size and the family hold none, so the last two
bars of a key are those between its parts, and no two calls share a key.

Fonts and number formatting are those of the machine and therefore parameters. A font may fail to
measure, and then a width is estimated and not kept.
-/
import Mathlib.Data.Set.Function
import Typesetting.Lib.Memo
import Typesetting.Services.TextParser
import Typesetting.Text.Numerals

namespace Typesetting

/-- What `MeasureTextWidth` asks the machine for. -/
structure Fonts where
  /-- `new FormattedText(text, …, pixels, …).Width` in a font family; `none` is an exception. -/
  formattedWidth : Text → ℚ → Text → Option ℚ
  /-- The text of a font size in an interpolated string. -/
  formatSize : ℚ → Text

namespace TextParser

/-! ## Points and accents -/

/-- `IsNikkudChar(c)` -/
def isNikkudChar (c : UInt16) : Bool :=
  LayoutConstants.nikudStart ≤ c.toNat && c.toNat ≤ LayoutConstants.nikudEnd

/-- `RemoveNikkud(text)` -/
def removeNikkud (text : Text) : Text :=
  if text = [] then text
  else text.filter fun c =>
    c.toNat < LayoutConstants.nikudStart || LayoutConstants.nikudEnd < c.toNat

theorem removeNikkud_eq (text : Text) :
    removeNikkud text = text.filter fun c => !isNikkudChar c := by
  have htest : ∀ c : UInt16, (decide (c.toNat < LayoutConstants.nikudStart) ||
      decide (LayoutConstants.nikudEnd < c.toNat)) = !isNikkudChar c := by
    intro c
    rw [isNikkudChar, Bool.not_and, ← decide_not, ← decide_not]
    simp only [not_le]
  unfold removeNikkud
  split
  · rename_i hnil
    rw [hnil]
    rfl
  · exact List.filter_congr fun c _ => htest c

@[simp] theorem removeNikkud_nil : removeNikkud [] = [] := rfl

theorem removeNikkud_append (a b : Text) :
    removeNikkud (a ++ b) = removeNikkud a ++ removeNikkud b := by
  simp only [removeNikkud_eq, List.filter_append]

theorem removeNikkud_idem (text : Text) : removeNikkud (removeNikkud text) = removeNikkud text := by
  simp only [removeNikkud_eq, List.filter_filter, Bool.and_self]

/-! ## The width cache -/

/-- The arguments of a call. -/
structure MeasureCall where
  text : Text
  fontSize : ℚ
  fontFamily : Text

/-- `_widthCache` -/
abbrev WidthCache := Memo.Table Text ℚ

/-- `'|'` -/
def bar : UInt16 := 0x7C

/-- `$"{text}|{fontSize}|{fontFamily}"` -/
def cacheKey (fonts : Fonts) (c : MeasureCall) : Text :=
  c.text ++ bar :: (fonts.formatSize c.fontSize ++ bar :: c.fontFamily)

/-- `MeasureTextWidth(text, fontSize, fontFamily)` and the cache it leaves. -/
def measureTextWidth (fonts : Fonts) (cache : WidthCache) (c : MeasureCall) : ℚ × WidthCache :=
  if c.text = [] then (0, cache)
  else
    match cache (cacheKey fonts c) with
    | some cached => (cached, cache)
    | none =>
      let textWithoutNikkud := removeNikkud c.text
      match fonts.formattedWidth textWithoutNikkud (c.fontSize * (96 / 72)) c.fontFamily with
      | some width => (width, cache.put (cacheKey fonts c) width)
      | none => (textWithoutNikkud.length * c.fontSize * (3 / 5), cache)

/-- What `MeasureTextWidth` returns when it remembers nothing. -/
def measuredWidth (fonts : Fonts) (fontFamily : Text) : TextMeasure := fun text fontSize =>
  (measureTextWidth fonts Memo.Table.empty ⟨text, fontSize, fontFamily⟩).1

/-- The width the font gives the text without its points. -/
def fontWidth (fonts : Fonts) (c : MeasureCall) : Option ℚ :=
  fonts.formattedWidth (removeNikkud c.text) (c.fontSize * (96 / 72)) c.fontFamily

/-- The width where the font fails. -/
def estimatedWidth (c : MeasureCall) : ℚ :=
  (removeNikkud c.text).length * c.fontSize * (3 / 5)

section Cache

variable {fonts : Fonts} {sizes : Set ℚ}

/-- Calls in a font size of the program and a family without bars. -/
def GoodCall (sizes : Set ℚ) (c : MeasureCall) : Prop :=
  c.fontSize ∈ sizes ∧ bar ∉ c.fontFamily

theorem measureTextWidth_of_nil (cache : WidthCache) {c : MeasureCall} (h : c.text = []) :
    measureTextWidth fonts cache c = (0, cache) := by
  rw [measureTextWidth, if_pos h]

theorem measureTextWidth_of_ne_nil (cache : WidthCache) {c : MeasureCall} (h : c.text ≠ []) :
    measureTextWidth fonts cache c =
      Memo.call (cacheKey fonts) (fontWidth fonts) estimatedWidth cache c := by
  unfold measureTextWidth Memo.call fontWidth estimatedWidth
  rw [if_neg h]
  cases cache (cacheKey fonts c) with
  | some cached => rfl
  | none =>
      simp only
      cases fonts.formattedWidth (removeNikkud c.text) (c.fontSize * (96 / 72)) c.fontFamily with
      | some width => rfl
      | none => rfl

/-- Only what is left without the points is measured. -/
theorem measuredWidth_congr (fontFamily : Text) (fontSize : ℚ) {a b : Text} (ha : a ≠ [])
    (hb : b ≠ []) (h : removeNikkud a = removeNikkud b) :
    measuredWidth fonts fontFamily a fontSize = measuredWidth fonts fontFamily b fontSize := by
  unfold measuredWidth
  rw [measureTextWidth_of_ne_nil _ ha, measureTextWidth_of_ne_nil _ hb, Memo.call_empty_fst,
    Memo.call_empty_fst]
  unfold Memo.fresh fontWidth estimatedWidth
  rw [h]

/-- A key gives back the text, the size and the family it was made of. -/
theorem cacheKey_inj (hinj : Set.InjOn fonts.formatSize sizes)
    (hbar : ∀ size ∈ sizes, bar ∉ fonts.formatSize size) {c d : MeasureCall}
    (hc : GoodCall sizes c) (hd : GoodCall sizes d) (h : cacheKey fonts c = cacheKey fonts d) :
    c = d := by
  obtain ⟨text, fontSize, fontFamily⟩ := c
  obtain ⟨text', fontSize', fontFamily'⟩ := d
  -- the family stands behind the last bar
  have hfamily : (text ++ bar :: fonts.formatSize fontSize) ++ bar :: fontFamily =
      (text' ++ bar :: fonts.formatSize fontSize') ++ bar :: fontFamily' := by
    simpa [cacheKey] using h
  obtain ⟨hrest, rfl⟩ := Segment.append_sep_inj hfamily hc.2 hd.2
  -- and the size behind the last bar before it
  obtain ⟨rfl, hsize⟩ := Segment.append_sep_inj hrest (hbar _ hc.1) (hbar _ hd.1)
  obtain rfl : fontSize = fontSize' := hinj hc.1 hd.1 hsize
  rfl

theorem determines_cacheKey (hinj : Set.InjOn fonts.formatSize sizes)
    (hbar : ∀ size ∈ sizes, bar ∉ fonts.formatSize size) :
    Memo.Determines (cacheKey fonts) (fontWidth fonts) (GoodCall sizes) := by
  intro c d hc hd h
  rw [cacheKey_inj hinj hbar hc hd h]

/-- A cache that holds widths of good calls. -/
abbrev FaithfulCache (fonts : Fonts) (sizes : Set ℚ) (cache : WidthCache) : Prop :=
  Memo.Faithful (cacheKey fonts) (fontWidth fonts) (GoodCall sizes) cache

theorem measureTextWidth_fst (hinj : Set.InjOn fonts.formatSize sizes)
    (hbar : ∀ size ∈ sizes, bar ∉ fonts.formatSize size) {cache : WidthCache} {c : MeasureCall}
    (hcache : FaithfulCache fonts sizes cache) (hc : GoodCall sizes c) :
    (measureTextWidth fonts cache c).1 = (measureTextWidth fonts Memo.Table.empty c).1 := by
  by_cases hnil : c.text = []
  · rw [measureTextWidth_of_nil _ hnil, measureTextWidth_of_nil _ hnil]
  · rw [measureTextWidth_of_ne_nil _ hnil, measureTextWidth_of_ne_nil _ hnil, Memo.call_empty_fst]
    exact hcache.call_fst estimatedWidth (determines_cacheKey hinj hbar) hc

theorem faithful_measureTextWidth {cache : WidthCache} {c : MeasureCall}
    (hcache : FaithfulCache fonts sizes cache) (hc : GoodCall sizes c) :
    FaithfulCache fonts sizes (measureTextWidth fonts cache c).2 := by
  by_cases hnil : c.text = []
  · rwa [measureTextWidth_of_nil _ hnil]
  · rw [measureTextWidth_of_ne_nil _ hnil]
    exact hcache.call_snd estimatedWidth hc

/-- The cache is never noticed: each call of a sequence returns what it returns with an empty
cache. -/
theorem measureTextWidth_cache_transparent (fonts : Fonts) {sizes : Set ℚ}
    (hinj : Set.InjOn fonts.formatSize sizes)
    (hbar : ∀ size ∈ sizes, bar ∉ fonts.formatSize size) (calls : List MeasureCall)
    (hcalls : ∀ c ∈ calls, c.fontSize ∈ sizes ∧ bar ∉ c.fontFamily) :
    Memo.answers (measureTextWidth fonts) Memo.Table.empty calls =
      calls.map fun c => (measureTextWidth fonts Memo.Table.empty c).1 := by
  have hvalue : ∀ cache c, FaithfulCache fonts sizes cache → GoodCall sizes c →
      (measureTextWidth fonts cache c).1 = (measureTextWidth fonts Memo.Table.empty c).1 :=
    fun _ _ hcache hc => measureTextWidth_fst hinj hbar hcache hc
  have hfaithful : ∀ cache c, FaithfulCache fonts sizes cache → GoodCall sizes c →
      FaithfulCache fonts sizes (measureTextWidth fonts cache c).2 :=
    fun _ _ hcache hc => faithful_measureTextWidth hcache hc
  exact Memo.answers_eq_map hvalue hfaithful (Memo.faithful_empty _ _) hcalls

end Cache

/-- A font in which every character is half as wide as the font is high, with whole sizes. -/
def monospaced : Fonts where
  formattedWidth text pixels _ := some (text.length * pixels / 2)
  formatSize size := natToText size.num.toNat

theorem bar_notMem_natToText (n : Nat) : bar ∉ natToText n := by
  intro h
  have hrange := mem_natToText h
  rw [show bar.toNat = 124 from rfl] at hrange
  omega

/-- Texts with a bar and with what looks like the rest of a key. -/
theorem measureTextWidth_cache_transparent_bars :
    Memo.answers (measureTextWidth monospaced) Memo.Table.empty
        [⟨utf16 "א|13", 9, LayoutConstants.fontMain⟩, ⟨utf16 "א", 13, LayoutConstants.fontMain⟩,
          ⟨utf16 "א|13", 9, LayoutConstants.fontMain⟩] =
      [⟨utf16 "א|13", 9, LayoutConstants.fontMain⟩, ⟨utf16 "א", 13, LayoutConstants.fontMain⟩,
          ⟨utf16 "א|13", 9, LayoutConstants.fontMain⟩].map fun c =>
        (measureTextWidth monospaced Memo.Table.empty c).1 := by
  refine @measureTextWidth_cache_transparent monospaced (Set.range fun n : ℕ => (n : ℚ))
    ?_ ?_ _ ?_
  · rintro _ ⟨m, rfl⟩ _ ⟨n, rfl⟩ h
    have hmn : natToText m = natToText n := h
    rw [natToText_injective hmn]
  · rintro _ ⟨n, rfl⟩
    exact bar_notMem_natToText _
  · have hfamily : bar ∉ LayoutConstants.fontMain := by decide
    simp only [List.forall_mem_cons]
    exact ⟨⟨⟨9, rfl⟩, hfamily⟩, ⟨⟨13, rfl⟩, hfamily⟩, ⟨⟨9, rfl⟩, hfamily⟩, by simp⟩

end TextParser

end Typesetting
