/-
# Typesetting.Services.Idempotence -- when extraction finds notes in its own main text

One pass leaves at most one copy of its tag: the parts it joins do not make a new one. The passes
behind it join parts as well, and there a `$` may meet a `$`, or a `%` a `%`, whose pass is already
over. The clean-up of the white space neither makes nor breaks a tag. So what decides is whether
`$$` or `%%` stands twice in the text outside the notes; `&&`, the last tag, never does.

`IndexOf` compares by the culture. A culture may overlook characters, and then it finds a tag where
its units do not stand together; in the texts that are searched it is assumed to find the tags as
they stand.
-/
import Typesetting.Services.TagParity

namespace Typesetting

/-- The text outside the notes of one tag. -/
def outsideTag (tag : Tag) (text : Text) : Text :=
  Delimiter.outside tag.text (tagPieces tag text)

/-- The text outside all notes: those of `$$`, then those of `%%`, then those of `&&` are left
out. -/
def outsideNotes (rawText : Text) : Text :=
  outsideTag footnoteTagC (outsideTag footnoteTagB (outsideTag footnoteTagA rawText))

/-- `tag` stands in the text twice, so that it would open and close a note. -/
def TagTwice (tag : Tag) (text : Text) : Prop :=
  Delimiter.Twice tag.text text

/-! ## One pass -/

section Pass

variable {tag : Tag} {text : Text}

theorem extractByTag_fst (tag : Tag) (text : Text) :
    (extractByTag .ordinal text tag).1 = outsideTag tag text := by
  rw [extractByTag_ordinal]
  rfl

theorem extractByTag_of_not_twice (h : ¬ TagTwice tag text) :
    extractByTag .ordinal text tag = (text, []) := by
  obtain ⟨houtside, henclosed⟩ := Delimiter.outside_pieces_of_not_twice tag.nonempty h
  rw [extractByTag_ordinal]
  unfold tagPieces
  rw [houtside, henclosed]
  rfl

/-- A pass without notes has met no two tags. -/
theorem not_twice_of_extractByTag (h : (extractByTag .ordinal text tag).2 = []) :
    ¬ TagTwice tag text := by
  rw [extractByTag_ordinal] at h
  exact (Delimiter.enclosed_pieces_eq_nil_iff tag.nonempty).mp (List.map_eq_nil_iff.mp h)

end Pass

theorem mainText_extractPasses (rawText : Text) :
    (extractPasses .ordinal rawText).mainText = outsideNotes rawText := by
  unfold extractPasses outsideNotes
  simp only [extractByTag_fst]

/-- No tag stands twice in the text. -/
structure NoTagTwice (text : Text) : Prop where
  A : ¬ TagTwice footnoteTagA text
  B : ¬ TagTwice footnoteTagB text
  C : ¬ TagTwice footnoteTagC text

theorem NoTagTwice.extractPasses {text : Text} (h : NoTagTwice text) :
    extractPasses .ordinal text = ⟨text, [], [], []⟩ := by
  simp only [Typesetting.extractPasses, extractByTag_of_not_twice h.A,
    extractByTag_of_not_twice h.B, extractByTag_of_not_twice h.C]

/-- Three passes without notes have met no two tags. -/
theorem noTagTwice_of_extractPasses {text : Text}
    (hA : (extractPasses .ordinal text).footnotesA = [])
    (hB : (extractPasses .ordinal text).footnotesB = [])
    (hC : (extractPasses .ordinal text).footnotesC = []) : NoTagTwice text := by
  have hnotA : ¬ TagTwice footnoteTagA text := not_twice_of_extractByTag hA
  unfold extractPasses at hB hC
  simp only [extractByTag_of_not_twice hnotA] at hB hC
  have hnotB : ¬ TagTwice footnoteTagB text := not_twice_of_extractByTag hB
  simp only [extractByTag_of_not_twice hnotB] at hC
  exact ⟨hnotA, hnotB, not_twice_of_extractByTag hC⟩

/-! ## The clean-up -/

/-- The cleaned-up text: words with single blanks between them. -/
def cleanedUp (text : Text) : Text :=
  trim (replaceWhiteSpaceRuns text)

theorem cleanedUp_eq (text : Text) :
    cleanedUp text = joinWith [space] (splitRemoveEmpty isWhiteSpace text) :=
  trim_replaceWhiteSpaceRuns text

theorem cleanedUp_cleanedUp (text : Text) : cleanedUp (cleanedUp text) = cleanedUp text := by
  have hwords : splitRemoveEmpty isWhiteSpace (cleanedUp text) =
      splitRemoveEmpty isWhiteSpace text := words_trim_replaceWhiteSpaceRuns text
  rw [cleanedUp_eq (cleanedUp text), hwords, ← cleanedUp_eq]

/-- White space is in no tag, so cleaning it up changes no tag. -/
theorem tagTwice_cleanedUp_iff {tag : Tag} (htag : ∀ c, isWhiteSpace c = true → c ∉ tag.text)
    (text : Text) : TagTwice tag (cleanedUp text) ↔ TagTwice tag text := by
  have hcount : Delimiter.occurrences tag.text tag.nonempty (cleanedUp text) =
      Delimiter.occurrences tag.text tag.nonempty text := by
    rw [cleanedUp_eq]
    show Delimiter.occurrences tag.text tag.nonempty
      ([space].intercalate (Segment.words isWhiteSpace text)) = _
    rw [Delimiter.occurrences_intercalate tag.nonempty (htag space isWhiteSpace_space),
      ← Delimiter.occurrences_words tag.nonempty htag]
  unfold TagTwice
  rw [Delimiter.twice_iff tag.nonempty, Delimiter.twice_iff tag.nonempty, hcount]

theorem noTagTwice_cleanedUp_iff (text : Text) : NoTagTwice (cleanedUp text) ↔ NoTagTwice text := by
  have htag : ∀ c, isWhiteSpace c = true →
      c ∉ footnoteTagA.text ∧ c ∉ footnoteTagB.text ∧ c ∉ footnoteTagC.text := by
    intro c hc
    have hnot : ∀ x, isWhiteSpace x = false → c ∉ [x, x] := by
      intro x hx hmem
      obtain rfl : c = x := by simpa using hmem
      rw [hx] at hc
      cases hc
    exact ⟨hnot 0x24 (by decide), hnot 0x25 (by decide), hnot 0x26 (by decide)⟩
  have hA := tagTwice_cleanedUp_iff (fun c hc => (htag c hc).1) text
  have hB := tagTwice_cleanedUp_iff (fun c hc => (htag c hc).2.1) text
  have hC := tagTwice_cleanedUp_iff (fun c hc => (htag c hc).2.2) text
  constructor
  · rintro ⟨h₁, h₂, h₃⟩
    exact ⟨hA.not.mp h₁, hB.not.mp h₂, hC.not.mp h₃⟩
  · rintro ⟨h₁, h₂, h₃⟩
    exact ⟨hA.not.mpr h₁, hB.not.mpr h₂, hC.not.mpr h₃⟩

/-! ## Extracting again -/

/-- The last pass leaves no two of its tags. -/
theorem not_tagTwice_outsideNotes (rawText : Text) :
    ¬ TagTwice footnoteTagC (outsideNotes rawText) :=
  Delimiter.not_twice_outside_pieces 0x26 _

/-- Extracting from the main text gives it back, without any notes. -/
def ExtractedOnce (culture : CompareInfo) (rawText : Text) : Prop :=
  let mainText := (extractContentAndFootnotes culture rawText).mainText
  extractContentAndFootnotes culture mainText = ⟨mainText, [], [], []⟩

theorem extractedOnce_iff_noTagTwice (rawText : Text) :
    ExtractedOnce .ordinal rawText ↔ NoTagTwice (outsideNotes rawText) := by
  have hmain : (extractContentAndFootnotes .ordinal rawText).mainText =
      cleanedUp (outsideNotes rawText) := by
    rw [← mainText_extractPasses]
    rfl
  unfold ExtractedOnce
  rw [hmain, ← noTagTwice_cleanedUp_iff]
  constructor
  · intro h
    exact noTagTwice_of_extractPasses (congrArg Extracted.footnotesA h)
      (congrArg Extracted.footnotesB h) (congrArg Extracted.footnotesC h)
  · intro h
    show { extractPasses .ordinal (cleanedUp (outsideNotes rawText)) with
      mainText := cleanedUp (extractPasses .ordinal (cleanedUp (outsideNotes rawText))).mainText } = _
    rw [h.extractPasses]
    simp only [cleanedUp_cleanedUp]

/-! ## Searching by the culture -/

section Culture

variable {culture culture' : CompareInfo} {text rawText : Text} {tag : Tag}

theorem closingTag?_congr (h : ∀ i ≤ text.length,
    culture.indexOf text tag.text i = culture'.indexOf text tag.text i) (i : Nat) :
    closingTag? culture text tag i = closingTag? culture' text tag i := by
  unfold closingTag?
  split
  · rename_i hopen
    simp only [h _ hopen.1]
  · rfl

/-- The scan asks the culture for nothing but the closing tags. -/
theorem extractByTagLoop_congr (h : ∀ i ≤ text.length,
    culture.indexOf text tag.text i = culture'.indexOf text tag.text i) (i : Nat) (builder : Text)
    (results : List Text) :
    extractByTagLoop culture text tag i builder results =
      extractByTagLoop culture' text tag i builder results := by
  fun_induction extractByTagLoop culture text tag i builder results with
  | case1 i builder results hi close hclose start content ih =>
      rw [closingTag?_congr h] at hclose
      rw [ih]
      conv_rhs => rw [extractByTagLoop, dif_pos hi]
      split
      · rename_i close' hclose'
        rw [hclose] at hclose'
        obtain rfl := Option.some.inj hclose'
        rfl
      · rename_i hclose'
        rw [hclose] at hclose'
        cases hclose'
  | case2 i builder results hi hclose ih =>
      rw [closingTag?_congr h] at hclose
      rw [ih]
      conv_rhs => rw [extractByTagLoop, dif_pos hi]
      split
      · rename_i close' hclose'
        rw [hclose] at hclose'
        cases hclose'
      · rfl
  | case3 i builder results hi => rw [extractByTagLoop, dif_neg hi]

/-- The culture finds the tag in the text where its units stand. -/
def FindsTag (culture : CompareInfo) (tag : Tag) (text : Text) : Prop :=
  ∀ startIndex ≤ text.length,
    culture.indexOf text tag.text startIndex = indexOfOrdinal text tag.text startIndex

/-- In the text each pass searches the culture finds the tag of the pass where its units stand. -/
structure SearchesOrdinally (culture : CompareInfo) (rawText : Text) : Prop where
  passA : FindsTag culture footnoteTagA rawText
  passB : FindsTag culture footnoteTagB (outsideTag footnoteTagA rawText)
  passC : FindsTag culture footnoteTagC (outsideTag footnoteTagB (outsideTag footnoteTagA rawText))

theorem searchesOrdinally_ordinal (rawText : Text) : SearchesOrdinally .ordinal rawText :=
  ⟨fun _ _ => rfl, fun _ _ => rfl, fun _ _ => rfl⟩

theorem FindsTag.extractByTag_eq (h : FindsTag culture tag text) :
    extractByTag culture text tag = extractByTag .ordinal text tag := by
  have hordinal : ∀ i ≤ text.length,
      culture.indexOf text tag.text i = CompareInfo.ordinal.indexOf text tag.text i := h
  exact extractByTagLoop_congr hordinal 0 [] []

/-- Each pass searches what the pass before it left. -/
theorem SearchesOrdinally.extractPasses_eq (h : SearchesOrdinally culture rawText) :
    extractPasses culture rawText = extractPasses .ordinal rawText := by
  unfold extractPasses
  simp only [h.passA.extractByTag_eq, extractByTag_fst, h.passB.extractByTag_eq,
    h.passC.extractByTag_eq]

theorem SearchesOrdinally.extract_eq (h : SearchesOrdinally culture rawText) :
    extractContentAndFootnotes culture rawText = extractContentAndFootnotes .ordinal rawText := by
  unfold extractContentAndFootnotes
  rw [h.extractPasses_eq]

theorem SearchesOrdinally.extractedOnce_congr (h : SearchesOrdinally culture rawText)
    (hmain : SearchesOrdinally culture (extractContentAndFootnotes culture rawText).mainText) :
    ExtractedOnce culture rawText ↔ ExtractedOnce .ordinal rawText := by
  unfold ExtractedOnce
  rw [h.extract_eq] at hmain ⊢
  simp only [hmain.extract_eq]

end Culture

/-- Extracting again changes nothing exactly when neither `$$` nor `%%` stands twice in the text
outside the notes. -/
theorem extractedOnce_iff (culture : CompareInfo) (rawText : Text)
    (h : SearchesOrdinally culture rawText)
    (hmain : SearchesOrdinally culture (extractContentAndFootnotes culture rawText).mainText) :
    ExtractedOnce culture rawText ↔
      ¬ TagTwice footnoteTagA (outsideNotes rawText) ∧
        ¬ TagTwice footnoteTagB (outsideNotes rawText) := by
  rw [h.extractedOnce_congr hmain, extractedOnce_iff_noTagTwice]
  constructor
  · intro h
    exact ⟨h.A, h.B⟩
  · rintro ⟨hA, hB⟩
    exact ⟨hA, hB, not_tagTwice_outsideNotes rawText⟩

/-- A text with one note, and a single tag left in its main text. -/
theorem extractedOnce_one_note : ExtractedOnce .ordinal (utf16 "a$$b$$ c%%d") := by
  refine (extractedOnce_iff .ordinal (utf16 "a$$b$$ c%%d")
    (searchesOrdinally_ordinal _) (searchesOrdinally_ordinal _)).mpr ⟨?_, ?_⟩
  · unfold TagTwice
    rw [Delimiter.twice_iff footnoteTagA.nonempty]
    decide +kernel
  · unfold TagTwice
    rw [Delimiter.twice_iff footnoteTagB.nonempty]
    decide +kernel

/-- Two notes of system B, each between two `$`: without them these are tags around a new note. -/
theorem extract_makes_note :
    ¬ ExtractedOnce .ordinal (utf16 "$%%x%%$a$%%y%%$") := by
  intro h
  have hmain : (extractContentAndFootnotes .ordinal (utf16 "$%%x%%$a$%%y%%$")).mainText =
      utf16 "$$a$$" := by decide +kernel
  unfold ExtractedOnce at h
  simp only [hmain] at h
  exact absurd (congrArg Extracted.footnotesA h) (by decide +kernel)

end Typesetting
