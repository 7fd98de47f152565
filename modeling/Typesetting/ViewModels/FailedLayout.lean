/-
# Typesetting.ViewModels.FailedLayout -- what a layout leaves when the native call throws

`ExecuteLayout` replaces the pages and selects the first new one before the setter of `CurrentPage`
calls the native engine. When the call throws, the pages and the selection are already those of the
new text, while the glyphs and their number are still the old ones. The new page is a new object,
so the selection never is what it was; with the same text laid out again it only looks the same.
-/
import Typesetting.ViewModels.GlyphsInStep

namespace Typesetting

namespace EditorViewModel

/-- The message of the exception `ExecuteLayout` catches from the native call, if it makes this call
and the call throws. -/
def caughtMessage (rounding : FloatRounding) (pages : List PageModel)
    (nativeError : Option Text) (vm : EditorViewModel) : Option Text :=
  if vm.text = [] then none
  else
    let vm := vm.withNewPages pages
    (setCurrentPage rounding nativeError vm.pages.head? vm).2

section Failure

variable {rounding : FloatRounding} {vm : EditorViewModel} {pages : List PageModel}
  {nativeError : Option Text} {message : Text}

/-- A native call that throws leaves the new selection and the old glyphs. -/
theorem setCurrentPage_throws {value : Option PageObject}
    (h : (setCurrentPage rounding nativeError value vm).2 = some message) :
    ∃ object, value = some object ∧ vm.currentPage.map PageObject.id ≠ some object.id ∧
      setCurrentPage rounding nativeError value vm =
        ({ vm with currentPage := some object }, some message) := by
  rw [setCurrentPage_eq] at h ⊢
  split at h
  · rename_i hnew
    rw [if_pos hnew]
    cases value with
    | none => cases h
    | some object =>
        refine ⟨object, rfl, hnew, ?_⟩
        dsimp only at h ⊢
        by_cases hlines : object.page.allMainLines = []
        · rw [loadGlyphsForPage_of_no_lines hlines] at h
          cases h
        · cases nativeError with
          | none =>
              rw [loadGlyphsForPage_none hlines] at h
              cases h
          | some error =>
              rw [loadGlyphsForPage_throws hlines] at h ⊢
              obtain rfl := Option.some.inj h
              rfl
  · cases h

/-- What a failed layout leaves in the four fields. -/
theorem executeLayout_throws (databaseError : Option Text)
    (h : caughtMessage rounding pages nativeError vm = some message) :
    ∃ first rest, pages = first :: rest ∧
      vm.currentPage.map PageObject.id ≠ some vm.nextId ∧
      (vm.executeLayout rounding pages nativeError databaseError).display =
        ⟨newObjects vm.nextId pages, some ⟨vm.nextId, first⟩, vm.glyphs, vm.lastGlyphCount⟩ := by
  unfold caughtMessage at h
  split at h
  · cases h
  · rename_i htext
    obtain ⟨object, hhead, hnew, hset⟩ := setCurrentPage_throws h
    cases pages with
    | nil => cases hhead
    | cons first rest =>
        obtain rfl : ⟨vm.nextId, first⟩ = object :=
          Option.some.inj ((head?_newObjects _ _ _).symm.trans hhead)
        refine ⟨first, rest, rfl, hnew, ?_⟩
        rw [executeLayout_of_text htext, hset]
        rfl

end Failure

/-! ## What is on display afterwards -/

/-- The contents of the fields shown, whatever objects hold them. -/
structure Contents where
  pages : List PageModel
  currentPage : Option PageModel
  glyphs : List GlyphInfo
  lastGlyphCount : Nat

def Display.contents (d : Display) : Contents :=
  ⟨d.pages.map PageObject.page, d.currentPage.map PageObject.page, d.glyphs, d.lastGlyphCount⟩

theorem map_page_newObjects (nextId : Nat) (pages : List PageModel) :
    (newObjects nextId pages).map PageObject.page = pages := by
  unfold newObjects
  apply List.ext_getElem
  · simp
  · intro i hi hi'
    simp

/-- A layout whose native call throws never leaves the fields as they were: another page object is
selected, and the glyphs and their number are still the old ones. The contents are the same exactly
when the pages of this text were on display already, with the first of them selected. -/
theorem display_executeLayout_of_throws (rounding : FloatRounding) (pages : List PageModel)
    (nativeError databaseError : Option Text) (vm : EditorViewModel) (message : Text)
    (h : caughtMessage rounding pages nativeError vm = some message) :
    (vm.executeLayout rounding pages nativeError databaseError).display ≠ vm.display ∧
      ((vm.executeLayout rounding pages nativeError databaseError).display.contents =
          vm.display.contents ↔
        vm.pages.map PageObject.page = pages ∧
          vm.currentPage.map PageObject.page = pages.head?) := by
  obtain ⟨first, rest, rfl, hnew, hdisplay⟩ := executeLayout_throws databaseError h
  constructor
  · intro hsame
    rw [hdisplay] at hsame
    have hcurrent : some ⟨vm.nextId, first⟩ = vm.currentPage :=
      congrArg Display.currentPage hsame
    rw [← hcurrent] at hnew
    exact hnew rfl
  · rw [hdisplay]
    simp only [Display.contents, display, map_page_newObjects, Option.map_some, List.head?_cons,
      Contents.mk.injEq, and_true]
    constructor
    · rintro ⟨hpages, hcurrent⟩
      exact ⟨hpages.symm, hcurrent.symm⟩
    · rintro ⟨hpages, hcurrent⟩
      exact ⟨hpages.symm, hcurrent.symm⟩

/-- The page of the typed letter. -/
def typedPage : PageModel :=
  paginationEngine.onlyPage (extractContentAndFootnotes .ordinal typed.text)

/-- The letter is laid out without the native library. -/
theorem display_executeLayout_of_throws_typed :
    caughtMessage .exact [typedPage] (some (utf16 "x")) typed = some (utf16 "x") ∧
      (typed.executeLayout .exact [typedPage] (some (utf16 "x")) none).display ≠ typed.display := by
  have hcaught : caughtMessage .exact [typedPage] (some (utf16 "x")) typed = some (utf16 "x") := by
    decide +kernel
  have hfailed := display_executeLayout_of_throws .exact [typedPage] (some (utf16 "x")) none typed
    (utf16 "x") hcaught
  exact ⟨hcaught, hfailed.1⟩

/-- Before there was no page, afterwards there is one, selected and without its glyph. -/
theorem failed_layout_shows_page :
    paginationEngine.Paginates .ordinal typed.text [typedPage] ∧
      caughtMessage .exact [typedPage] (some (utf16 "x")) typed = some (utf16 "x") ∧
      typed.pages.length = 0 ∧
      (typed.executeLayout .exact [typedPage] (some (utf16 "x")) none).pages.length = 1 ∧
      (typed.executeLayout .exact [typedPage] (some (utf16 "x")) none).glyphs.length = 0 := by
  refine ⟨?_, by decide +kernel, by decide +kernel, by decide +kernel, by decide +kernel⟩
  exact PaginationEngine.paginates_of_mainText_fits mainText_typed
    (PaginationEngine.calculateLineHeight_default_le _)

end EditorViewModel

end Typesetting
