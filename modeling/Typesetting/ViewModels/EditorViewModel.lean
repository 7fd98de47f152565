/-
# Typesetting.ViewModels.EditorViewModel -- the state behind the editor window

The operations change the fields of the view model one after the other, and the setters raise
`PropertyChanged` after they have stored the value and before they do anything else. A listener
therefore sees the fields as they are at that moment: when `CurrentPage` is announced, the glyphs
are still those of the page before. `Glyphs` is announced where they have been loaded and nowhere
else, not where `Clear` empties the collection.

Each operation is a function of the state and of the notifications raised so far, each with the
state in which it was raised. Where the native call may throw, the function returns what has been
reached at that moment together with the message of the exception, so what a failed command leaves
behind can be read off. A call that may fail (the native one, the database, the two-column engine)
gets its outcome as an argument. No operation looks at the notifications: what it does to the fields
is a function of the fields, and most of what there is to say about the view model is about these.

`PageModel` is a class: the setter of `CurrentPage` compares references. A page in the state is
therefore an object, a page with the identity it received when it was created, and two pages are
the same when their identities are.

Message boxes leave the fields alone and are left out, and so are the notifications the collections
raise by themselves, but for what a control may do when the pages are cleared.
-/
import Typesetting.Core.InteropInterface
import Typesetting.Services.SingleLine

namespace Typesetting

/-- A page on the heap. -/
structure PageObject where
  id : Nat
  page : PageModel

structure EditorViewModel where
  text : Text := []
  glyphs : List GlyphInfo := []
  pages : List PageObject := []
  currentPage : Option PageObject := none
  lastGlyphCount : Nat := 0
  statusMessage : Text := utf16 "מוכן"
  extractedMainText : Text := []
  extractedFootnotesA : List Text := []
  extractedFootnotesB : List Text := []
  extractedFootnotesC : List Text := []
  /-- What `_database.SaveContent` has been given since the view model was created. -/
  savedContent : List Text := []
  /-- The identity the next page object receives. -/
  nextId : Nat := 0

namespace EditorViewModel

/-- The engine the constructor creates. -/
def paginationEngine : PaginationEngine where
  pageWidth := 800
  pageHeight := 600

/-- `string.Join("\n", page.AllMainLines)` -/
def mainContent (page : PageModel) : Text :=
  joinWith (utf16 "\n") page.allMainLines

/-- The page objects created for the pages of a layout. -/
def newObjects (nextId : Nat) (pages : List PageModel) : List PageObject :=
  pages.mapIdx fun i page => ⟨nextId + i, page⟩

end EditorViewModel

/-! ## Notifications -/

/-- The view model with `ChapterTitle`, which no layout reads. -/
structure TitledViewModel where
  vm : EditorViewModel := {}
  chapterTitle : Text := []

/-- The properties that are ever announced. -/
inductive Property where
  | statusMessage
  | text
  | extractedMainText
  | chapterTitle
  | glyphs
  | currentPage
  deriving DecidableEq

/-- A call of the listeners: the property and the state they find. -/
structure Notification where
  property : Property
  state : TitledViewModel

/-- A state on the way through an operation, with the notifications raised so far. -/
structure Traced where
  state : TitledViewModel
  raised : List Notification

namespace Traced

/-- An operation starts. -/
def start (state : TitledViewModel) : Traced :=
  ⟨state, []⟩

/-- Fields are assigned. -/
def change (f : EditorViewModel → EditorViewModel) (t : Traced) : Traced :=
  { t with state := { t.state with vm := f t.state.vm } }

/-- `OnPropertyChanged(property)` -/
def raise (property : Property) (t : Traced) : Traced :=
  { t with raised := t.raised ++ [⟨property, t.state⟩] }

/-! ## The operations -/

/-- The setter of `StatusMessage`. -/
def setStatusMessage (value : Text) (t : Traced) : Traced :=
  if t.state.vm.statusMessage ≠ value then
    (t.change fun vm => { vm with statusMessage := value }).raise .statusMessage
  else t

/-- The setter of `ChapterTitle`, which does not compare. -/
def setChapterTitle (value : Text) (t : Traced) : Traced :=
  { t with state := { t.state with chapterTitle := value } }.raise .chapterTitle

/-- `UpdateTextAnalysis()`; the lists of notes are filled after the main text is announced. -/
def updateTextAnalysis (culture : CompareInfo) (t : Traced) : Traced :=
  if t.state.vm.text = [] then
    let t := (t.change fun vm => { vm with extractedMainText := [] }).raise .extractedMainText
    t.change fun vm =>
      { vm with extractedFootnotesA := [], extractedFootnotesB := [], extractedFootnotesC := [] }
  else
    let x := extractContentAndFootnotes culture t.state.vm.text
    let t := (t.change fun vm => { vm with extractedMainText := x.mainText }).raise
      .extractedMainText
    t.change fun vm =>
      { vm with
        extractedFootnotesA := x.footnotesA
        extractedFootnotesB := x.footnotesB
        extractedFootnotesC := x.footnotesC }

/-- The setter of `Text`. -/
def setText (culture : CompareInfo) (value : Text) (t : Traced) : Traced :=
  if t.state.vm.text ≠ value then
    let t := (t.change fun vm => { vm with text := value }).raise .text
    t.updateTextAnalysis culture
  else t

/-- `LoadGlyphsForPage(page)`; the native call throws when `nativeError` holds a message. -/
def loadGlyphsForPage (rounding : FloatRounding) (nativeError : Option Text) (page : PageModel)
    (t : Traced) : Traced × Option Text :=
  if page.allMainLines.length = 0 then
    -- the listeners are not told that the glyphs are gone, and their number stays as it was
    (t.change fun vm => { vm with glyphs := [] }, none)
  else
    let maxGlyphs := (EditorViewModel.mainContent page).length
    let glyphArray : List GlyphInfo := List.replicate maxGlyphs default
    match nativeError with
    | some message => (t, some message)
    | none =>
      let result := layoutText rounding (EditorViewModel.mainContent page) glyphArray maxGlyphs
      let t := t.change fun vm => { vm with lastGlyphCount := result.2 }
      ((t.change fun vm => { vm with glyphs := result.1.take result.2 }).raise .glyphs, none)

/-- The setter of `CurrentPage`. -/
def setCurrentPage (rounding : FloatRounding) (nativeError : Option Text)
    (value : Option PageObject) (t : Traced) : Traced × Option Text :=
  if t.state.vm.currentPage.map PageObject.id ≠ value.map PageObject.id then
    let t := (t.change fun vm => { vm with currentPage := value }).raise .currentPage
    match value with
    | some object => t.loadGlyphsForPage rounding nativeError object.page
    | none => (t, none) -- no glyphs are loaded and none are cleared
  else (t, none)

/-- `SaveToDatabase()`; saving throws when `databaseError` holds a message. -/
def saveToDatabase (databaseError : Option Text) (t : Traced) : Traced :=
  let vm := t.state.vm
  let content := vm.text ++ utf16 " (Pages: " ++ natToText vm.pages.length ++
    utf16 ", Glyphs: " ++ natToText vm.lastGlyphCount ++ utf16 ")"
  match databaseError with
  | none => t.change fun vm => { vm with savedContent := vm.savedContent ++ [content] }
  | some message => t.setStatusMessage (utf16 "שגיאה: " ++ message)

/-- The pages become new objects. -/
def setPages (pages : List PageModel) (t : Traced) : Traced :=
  t.change fun vm =>
    { vm with
      pages := EditorViewModel.newObjects vm.nextId pages
      nextId := vm.nextId + pages.length }

/-- What both layouts do after the first page was selected; the exception of a native call that
threw there is caught. -/
def finishLayout (summary : Text) (databaseError : Option Text) : Traced × Option Text → Traced
  | (t, some message) => t.setStatusMessage (utf16 "שגיאה: " ++ message)
  | (t, none) => (t.setStatusMessage summary).saveToDatabase databaseError

/-- What both layouts do with the pages they get: the old pages are cleared, which the controls may
answer by `onCleared`, the new ones are added, and the first of them is selected. -/
def showPagesWith (onCleared : Traced → Traced) (rounding : FloatRounding)
    (pages : List PageModel) (summary : Text) (nativeError databaseError : Option Text)
    (t : Traced) : Traced :=
  let t := onCleared (t.change fun vm => { vm with pages := [] })
  let t := t.setPages pages
  finishLayout summary databaseError
    (t.setCurrentPage rounding nativeError t.state.vm.pages.head?)

/-- `ExecuteLayout()`, where `pages` is what `Paginate(Text)` returns. -/
def executeLayoutWith (onCleared : Traced → Traced) (rounding : FloatRounding)
    (pages : List PageModel) (nativeError databaseError : Option Text) (t : Traced) : Traced :=
  if t.state.vm.text = [] then
    let t := t.change fun vm => { vm with glyphs := [] }
    let t := onCleared (t.change fun vm => { vm with pages := [] })
    let t := (t.setCurrentPage rounding nativeError none).1
    let t := t.change fun vm => { vm with lastGlyphCount := 0 }
    t.setStatusMessage (utf16 "אין טקסט לעימוד")
  else
    (t.setStatusMessage (utf16 "מבצע עימוד...")).showPagesWith onCleared rounding pages
      (PaginationEngine.getPaginationSummary pages) nativeError databaseError

/-- `ExecuteColumnLayout()`; `mainWindow` tells whether there is a main window, `result` is what
`engine.Paginate(doc)` returns or the message of what it throws. -/
def executeColumnLayoutWith (onCleared : Traced → Traced) (rounding : FloatRounding)
    (mainWindow : Bool) (result : Except Text (List PageModel))
    (nativeError databaseError : Option Text) (t : Traced) : Traced :=
  -- unlike `ExecuteLayout` this leaves pages and glyphs as they are
  if t.state.vm.text = [] then t.setStatusMessage (utf16 "אין טקסט לעימוד")
  else
    let t := t.setStatusMessage (utf16 "מבצע עימוד דו-טורי...")
    if mainWindow = false then t.setStatusMessage (utf16 "שגיאה: לא ניתן למצוא חלון ראשי")
    else
      match result with
      | .error message => t.setStatusMessage (utf16 "שגיאה: " ++ message)
      | .ok pages =>
        t.showPagesWith onCleared rounding pages
          (utf16 "עימוד דו-טורי הושלם: " ++ natToText pages.length ++ utf16 " עמודים")
          nativeError databaseError

/-! Where no control answers the clearing of the pages: -/

abbrev showPages (rounding : FloatRounding) (pages : List PageModel) (summary : Text)
    (nativeError databaseError : Option Text) (t : Traced) : Traced :=
  t.showPagesWith id rounding pages summary nativeError databaseError

abbrev executeLayout (rounding : FloatRounding) (pages : List PageModel)
    (nativeError databaseError : Option Text) (t : Traced) : Traced :=
  t.executeLayoutWith id rounding pages nativeError databaseError

abbrev executeColumnLayout (rounding : FloatRounding) (mainWindow : Bool)
    (result : Except Text (List PageModel)) (nativeError databaseError : Option Text)
    (t : Traced) : Traced :=
  t.executeColumnLayoutWith id rounding mainWindow result nativeError databaseError

section Layouts

variable {rounding : FloatRounding} {t : Traced}

theorem showPages_eq (pages : List PageModel) (summary : Text)
    (nativeError databaseError : Option Text) (t : Traced) :
    t.showPages rounding pages summary nativeError databaseError =
      finishLayout summary databaseError ((t.setPages pages).setCurrentPage rounding nativeError
        (t.setPages pages).state.vm.pages.head?) := rfl

theorem executeLayout_of_empty (htext : t.state.vm.text = []) (pages : List PageModel)
    (nativeError databaseError : Option Text) :
    t.executeLayout rounding pages nativeError databaseError =
      (((t.change fun vm => { vm with glyphs := [], pages := [] }).setCurrentPage rounding
        nativeError none).1.change fun vm => { vm with lastGlyphCount := 0 }).setStatusMessage
          (utf16 "אין טקסט לעימוד") :=
  if_pos htext

theorem executeLayout_of_text (htext : t.state.vm.text ≠ []) (pages : List PageModel)
    (nativeError databaseError : Option Text) :
    t.executeLayout rounding pages nativeError databaseError =
      (t.setStatusMessage (utf16 "מבצע עימוד...")).showPages rounding pages
        (PaginationEngine.getPaginationSummary pages) nativeError databaseError :=
  if_neg htext

/-- Only the status changes. -/
def StatusOnly (t t' : Traced) : Prop :=
  ∃ messages : List Text, t' = messages.foldl (fun t message => t.setStatusMessage message) t

theorem StatusOnly.keeps {t' : Traced} (h : StatusOnly t t') (P : Traced → Prop)
    (hstatus : ∀ u message, P u → P (u.setStatusMessage message)) (ht : P t) : P t' := by
  obtain ⟨messages, rfl⟩ := h
  induction messages generalizing t with
  | nil => exact ht
  | cons message messages ih => exact ih (hstatus t message ht)

/-- The two-column layout shows its pages unless there is no text, no window or no page list. -/
theorem executeColumnLayout_cases (mainWindow : Bool) (result : Except Text (List PageModel))
    (nativeError databaseError : Option Text) (t : Traced) :
    let t' := t.executeColumnLayout rounding mainWindow result nativeError databaseError
    (∃ pages summary, (t.state.vm.text ≠ [] ∧ mainWindow = true ∧ result = .ok pages) ∧
        t' = (t.setStatusMessage (utf16 "מבצע עימוד דו-טורי...")).showPages rounding pages summary
          nativeError databaseError) ∨
      ((t.state.vm.text ≠ [] → mainWindow = true → ∀ pages, result ≠ .ok pages) ∧
        t.StatusOnly t') := by
  unfold executeColumnLayout executeColumnLayoutWith
  by_cases htext : t.state.vm.text = []
  · rw [if_pos htext]
    exact .inr ⟨fun hne => absurd htext hne, [_], rfl⟩
  · rw [if_neg htext]
    cases mainWindow with
    | false => exact .inr ⟨(fun _ hwindow => nomatch hwindow), [_, _], rfl⟩
    | true =>
        cases result with
        | error message => exact .inr ⟨(fun _ _ _ hresult => nomatch hresult), [_, _], rfl⟩
        | ok pages => exact .inl ⟨pages, _, ⟨htext, rfl, rfl⟩, rfl⟩

end Layouts

/-! ## What the operations cannot tell apart -/

/-- Fields are read, assigned and announced, and nothing else is done: a relation that these three
keep is kept by every operation. -/
structure Congruence (R : Traced → Traced → Prop) : Prop where
  vm_eq : ∀ {t t'}, R t t' → t.state.vm = t'.state.vm
  change : ∀ {t t'} (f : EditorViewModel → EditorViewModel), R t t' → R (t.change f) (t'.change f)
  raise : ∀ {t t'} (property : Property), R t t' → R (t.raise property) (t'.raise property)

namespace Congruence

variable {R : Traced → Traced → Prop} {t t' : Traced} {culture : CompareInfo}
  {rounding : FloatRounding}

theorem setStatusMessage (hR : Congruence R) (value : Text) (h : R t t') :
    R (t.setStatusMessage value) (t'.setStatusMessage value) := by
  unfold Traced.setStatusMessage
  rw [hR.vm_eq h]
  split
  · exact hR.raise _ (hR.change _ h)
  · exact h

theorem setText (hR : Congruence R) (value : Text) (h : R t t') :
    R (t.setText culture value) (t'.setText culture value) := by
  have htext := hR.raise .text (hR.change (fun vm => { vm with text := value }) h)
  unfold Traced.setText Traced.updateTextAnalysis
  simp only
  rw [hR.vm_eq h, hR.vm_eq htext]
  split
  · split
    · exact hR.change _ (hR.raise _ (hR.change _ htext))
    · exact hR.change _ (hR.raise _ (hR.change _ htext))
  · exact h

theorem loadGlyphsForPage (hR : Congruence R) (nativeError : Option Text) (page : PageModel)
    (h : R t t') :
    R (t.loadGlyphsForPage rounding nativeError page).1
        (t'.loadGlyphsForPage rounding nativeError page).1 ∧
      (t.loadGlyphsForPage rounding nativeError page).2 =
        (t'.loadGlyphsForPage rounding nativeError page).2 := by
  unfold Traced.loadGlyphsForPage
  split
  · exact ⟨hR.change (fun vm => { vm with glyphs := [] }) h, rfl⟩
  · cases nativeError with
    | none => exact ⟨hR.raise _ (hR.change _ (hR.change _ h)), rfl⟩
    | some message => exact ⟨h, rfl⟩

theorem setCurrentPage (hR : Congruence R) (nativeError : Option Text)
    (value : Option PageObject) (h : R t t') :
    R (t.setCurrentPage rounding nativeError value).1
        (t'.setCurrentPage rounding nativeError value).1 ∧
      (t.setCurrentPage rounding nativeError value).2 =
        (t'.setCurrentPage rounding nativeError value).2 := by
  have hraised :=
    hR.raise .currentPage (hR.change (fun vm => { vm with currentPage := value }) h)
  unfold Traced.setCurrentPage
  rw [hR.vm_eq h]
  split
  · cases value with
    | none => exact ⟨hraised, rfl⟩
    | some object => exact hR.loadGlyphsForPage nativeError object.page hraised
  · exact ⟨h, rfl⟩

theorem saveToDatabase (hR : Congruence R) (databaseError : Option Text) (h : R t t') :
    R (t.saveToDatabase databaseError) (t'.saveToDatabase databaseError) := by
  unfold Traced.saveToDatabase
  rw [hR.vm_eq h]
  cases databaseError with
  | none => exact hR.change _ h
  | some message => exact hR.setStatusMessage _ h

theorem finishLayout (hR : Congruence R) (summary : Text) (databaseError : Option Text)
    {result result' : Traced × Option Text} (h : R result.1 result'.1 ∧ result.2 = result'.2) :
    R (Traced.finishLayout summary databaseError result)
      (Traced.finishLayout summary databaseError result') := by
  obtain ⟨u, error⟩ := result
  obtain ⟨u', error'⟩ := result'
  obtain ⟨hu, rfl⟩ := h
  cases error with
  | none => exact hR.saveToDatabase databaseError (hR.setStatusMessage summary hu)
  | some message => exact hR.setStatusMessage _ hu

theorem showPages (hR : Congruence R) (pages : List PageModel) (summary : Text)
    (nativeError databaseError : Option Text) (h : R t t') :
    R (t.showPages rounding pages summary nativeError databaseError)
      (t'.showPages rounding pages summary nativeError databaseError) := by
  have hpages : R (t.setPages pages) (t'.setPages pages) := hR.change _ h
  rw [showPages_eq, showPages_eq, ← hR.vm_eq hpages]
  exact hR.finishLayout summary databaseError (hR.setCurrentPage nativeError _ hpages)

theorem executeLayout (hR : Congruence R) (pages : List PageModel)
    (nativeError databaseError : Option Text) (h : R t t') :
    R (t.executeLayout rounding pages nativeError databaseError)
      (t'.executeLayout rounding pages nativeError databaseError) := by
  by_cases htext : t.state.vm.text = []
  · have hcleared := hR.change (fun vm => { vm with glyphs := [], pages := [] }) h
    rw [executeLayout_of_empty htext, executeLayout_of_empty (hR.vm_eq h ▸ htext)]
    exact hR.setStatusMessage _ (hR.change _ (hR.setCurrentPage nativeError none hcleared).1)
  · rw [executeLayout_of_text htext, executeLayout_of_text (hR.vm_eq h ▸ htext)]
    exact hR.showPages pages _ nativeError databaseError (hR.setStatusMessage _ h)

end Congruence

/-- The fields agree, whatever was raised and whatever the title is. -/
theorem congruence_fields : Congruence fun t t' => t.state.vm = t'.state.vm where
  vm_eq h := h
  change f h := congrArg f h
  raise _ h := h

end Traced

/-! ## On the fields alone -/

namespace EditorViewModel

/-- The setter of `Text`. -/
def setText (culture : CompareInfo) (value : Text) (vm : EditorViewModel) : EditorViewModel :=
  ((Traced.start ⟨vm, []⟩).setText culture value).state.vm

/-- `LoadGlyphsForPage(page)` -/
def loadGlyphsForPage (rounding : FloatRounding) (nativeError : Option Text) (page : PageModel)
    (vm : EditorViewModel) : EditorViewModel × Option Text :=
  let result := (Traced.start ⟨vm, []⟩).loadGlyphsForPage rounding nativeError page
  (result.1.state.vm, result.2)

/-- The setter of `CurrentPage`. -/
def setCurrentPage (rounding : FloatRounding) (nativeError : Option Text)
    (value : Option PageObject) (vm : EditorViewModel) : EditorViewModel × Option Text :=
  let result := (Traced.start ⟨vm, []⟩).setCurrentPage rounding nativeError value
  (result.1.state.vm, result.2)

/-- `SaveToDatabase()` -/
def saveToDatabase (databaseError : Option Text) (vm : EditorViewModel) : EditorViewModel :=
  ((Traced.start ⟨vm, []⟩).saveToDatabase databaseError).state.vm

/-- `ExecuteLayout()` -/
def executeLayout (rounding : FloatRounding) (pages : List PageModel)
    (nativeError databaseError : Option Text) (vm : EditorViewModel) : EditorViewModel :=
  ((Traced.start ⟨vm, []⟩).executeLayout rounding pages nativeError databaseError).state.vm

/-- The state in which `ExecuteLayout` sets `CurrentPage`. -/
def withNewPages (pages : List PageModel) (vm : EditorViewModel) : EditorViewModel :=
  { vm with
    statusMessage := utf16 "מבצע עימוד..."
    pages := newObjects vm.nextId pages
    nextId := vm.nextId + pages.length }

end EditorViewModel

namespace Traced

variable {culture : CompareInfo} {rounding : FloatRounding}

@[simp] theorem vm_change (f : EditorViewModel → EditorViewModel) (t : Traced) :
    (t.change f).state.vm = f t.state.vm := rfl

@[simp] theorem vm_setStatusMessage (value : Text) (t : Traced) :
    (t.setStatusMessage value).state.vm = { t.state.vm with statusMessage := value } := by
  unfold setStatusMessage
  split
  · rfl
  · rename_i hsame
    have heq : t.state.vm.statusMessage = value := not_not.mp hsame
    rw [← heq]

@[simp] theorem vm_setText (value : Text) (t : Traced) :
    (t.setText culture value).state.vm = t.state.vm.setText culture value :=
  congruence_fields.setText value rfl

theorem vm_loadGlyphsForPage (nativeError : Option Text) (page : PageModel) (t : Traced) :
    ((t.loadGlyphsForPage rounding nativeError page).1.state.vm,
        (t.loadGlyphsForPage rounding nativeError page).2) =
      EditorViewModel.loadGlyphsForPage rounding nativeError page t.state.vm := by
  obtain ⟨hvm, herror⟩ := @Congruence.loadGlyphsForPage _ t (start ⟨t.state.vm, []⟩) rounding
    congruence_fields nativeError page rfl
  exact Prod.ext hvm herror

theorem vm_setCurrentPage (nativeError : Option Text) (value : Option PageObject) (t : Traced) :
    ((t.setCurrentPage rounding nativeError value).1.state.vm,
        (t.setCurrentPage rounding nativeError value).2) =
      EditorViewModel.setCurrentPage rounding nativeError value t.state.vm := by
  obtain ⟨hvm, herror⟩ := @Congruence.setCurrentPage _ t (start ⟨t.state.vm, []⟩) rounding
    congruence_fields nativeError value rfl
  exact Prod.ext hvm herror

theorem vm_setCurrentPage_fst (nativeError : Option Text) (value : Option PageObject)
    (t : Traced) :
    (t.setCurrentPage rounding nativeError value).1.state.vm =
      (t.state.vm.setCurrentPage rounding nativeError value).1 :=
  congrArg Prod.fst (vm_setCurrentPage nativeError value t)

@[simp] theorem vm_saveToDatabase (databaseError : Option Text) (t : Traced) :
    (t.saveToDatabase databaseError).state.vm = t.state.vm.saveToDatabase databaseError :=
  congruence_fields.saveToDatabase databaseError rfl

/-- Both layouts show their pages in the same way. -/
theorem vm_showPages (pages : List PageModel) (summary : Text)
    (nativeError databaseError : Option Text) (t : Traced) :
    (t.showPages rounding pages summary nativeError databaseError).state.vm =
      let vm := { t.state.vm with
        pages := EditorViewModel.newObjects t.state.vm.nextId pages
        nextId := t.state.vm.nextId + pages.length }
      match EditorViewModel.setCurrentPage rounding nativeError vm.pages.head? vm with
      | (vm, some message) => { vm with statusMessage := utf16 "שגיאה: " ++ message }
      | (vm, none) =>
        EditorViewModel.saveToDatabase databaseError { vm with statusMessage := summary } := by
  rw [showPages_eq]
  show _ = match EditorViewModel.setCurrentPage rounding nativeError
    (t.setPages pages).state.vm.pages.head? (t.setPages pages).state.vm with
    | (vm, some message) => { vm with statusMessage := utf16 "שגיאה: " ++ message }
    | (vm, none) =>
      EditorViewModel.saveToDatabase databaseError { vm with statusMessage := summary }
  rw [← vm_setCurrentPage nativeError _ (t.setPages pages)]
  cases (t.setPages pages).setCurrentPage rounding nativeError
      (t.setPages pages).state.vm.pages.head? with
  | mk t' error =>
      cases error with
      | none =>
          show ((t'.setStatusMessage summary).saveToDatabase databaseError).state.vm = _
          rw [vm_saveToDatabase, vm_setStatusMessage]
      | some message => exact vm_setStatusMessage _ t'

theorem vm_executeLayout (pages : List PageModel) (nativeError databaseError : Option Text)
    (t : Traced) :
    (t.executeLayout rounding pages nativeError databaseError).state.vm =
      t.state.vm.executeLayout rounding pages nativeError databaseError :=
  congruence_fields.executeLayout pages nativeError databaseError rfl

end Traced

namespace EditorViewModel

section Fields

variable {rounding : FloatRounding} {vm : EditorViewModel}

/-! ### What the operations come to -/

/-- The setter of `Text` changes the text and its analysis. -/
theorem exists_setText (culture : CompareInfo) (value : Text) (vm : EditorViewModel) :
    ∃ x : Extracted, vm.setText culture value =
      { vm with
        text := value
        extractedMainText := x.mainText
        extractedFootnotesA := x.footnotesA
        extractedFootnotesB := x.footnotesB
        extractedFootnotesC := x.footnotesC } := by
  by_cases hsame : (Traced.start ⟨vm, []⟩).state.vm.text ≠ value
  · by_cases hnil : value = []
    · refine ⟨⟨[], [], [], []⟩, ?_⟩
      unfold setText Traced.setText Traced.updateTextAnalysis
      rw [if_pos hsame]
      exact congrArg (fun t : Traced => t.state.vm) (if_pos hnil)
    · refine ⟨extractContentAndFootnotes culture value, ?_⟩
      unfold setText Traced.setText Traced.updateTextAnalysis
      rw [if_pos hsame]
      exact congrArg (fun t : Traced => t.state.vm) (if_neg hnil)
  · refine ⟨⟨vm.extractedMainText, vm.extractedFootnotesA, vm.extractedFootnotesB,
      vm.extractedFootnotesC⟩, ?_⟩
    unfold setText Traced.setText
    rw [if_neg hsame, ← not_not.mp hsame]
    rfl

/-- A page without main lines has no glyphs. -/
theorem loadGlyphsForPage_of_no_lines {page : PageModel} (hlines : page.allMainLines = [])
    (nativeError : Option Text) :
    loadGlyphsForPage rounding nativeError page vm = ({ vm with glyphs := [] }, none) := by
  have hlength : page.allMainLines.length = 0 := by rw [hlines, List.length_nil]
  unfold loadGlyphsForPage Traced.loadGlyphsForPage
  rw [if_pos hlength]
  rfl

/-- A call that throws leaves everything as it was. -/
theorem loadGlyphsForPage_throws {page : PageModel} (hlines : page.allMainLines ≠ [])
    (message : Text) : loadGlyphsForPage rounding (some message) page vm = (vm, some message) := by
  have hlength : page.allMainLines.length ≠ 0 := mt List.eq_nil_of_length_eq_zero hlines
  unfold loadGlyphsForPage Traced.loadGlyphsForPage
  rw [if_neg hlength]
  rfl

/-- A successful call fills the glyphs and their number. -/
theorem loadGlyphsForPage_none {page : PageModel} (hlines : page.allMainLines ≠ []) :
    loadGlyphsForPage rounding none page vm =
      ({ vm with
          lastGlyphCount := (layoutResult rounding (mainContent page)).length
          glyphs := layoutResult rounding (mainContent page) }, none) := by
  have hlength : page.allMainLines.length ≠ 0 := mt List.eq_nil_of_length_eq_zero hlines
  unfold loadGlyphsForPage Traced.loadGlyphsForPage
  rw [if_neg hlength]
  show ({ vm with
      lastGlyphCount := (layoutText rounding (mainContent page)
        (List.replicate (mainContent page).length default) (mainContent page).length).2
      glyphs := layoutResult rounding (mainContent page) }, none) = _
  rw [layoutText_count, length_layoutResult]

/-- The exception is that of the native call, which is made for a page with main lines. -/
theorem loadGlyphsForPage_error (nativeError : Option Text) (page : PageModel) :
    (loadGlyphsForPage rounding nativeError page vm).2 =
      if page.allMainLines = [] then none else nativeError := by
  by_cases hlines : page.allMainLines = []
  · rw [loadGlyphsForPage_of_no_lines hlines, if_pos hlines]
  · rw [if_neg hlines]
    cases nativeError with
    | none => rw [loadGlyphsForPage_none hlines]
    | some message => rw [loadGlyphsForPage_throws hlines]

theorem setCurrentPage_eq (nativeError : Option Text) (value : Option PageObject) :
    setCurrentPage rounding nativeError value vm =
      if vm.currentPage.map PageObject.id ≠ value.map PageObject.id then
        match value with
        | some object =>
          loadGlyphsForPage rounding nativeError object.page { vm with currentPage := value }
        | none => ({ vm with currentPage := value }, none)
      else (vm, none) := by
  unfold setCurrentPage Traced.setCurrentPage
  by_cases hnew : vm.currentPage.map PageObject.id ≠ value.map PageObject.id
  · have hstart : (Traced.start ⟨vm, []⟩).state.vm.currentPage.map PageObject.id ≠
        value.map PageObject.id := hnew
    rw [if_pos hnew, if_pos hstart]
    cases value with
    | none => rfl
    | some object => exact Traced.vm_loadGlyphsForPage nativeError object.page _
  · have hstart : ¬(Traced.start ⟨vm, []⟩).state.vm.currentPage.map PageObject.id ≠
        value.map PageObject.id := hnew
    rw [if_neg hnew, if_neg hstart]
    rfl

/-- Another page than the current one is always loaded. -/
theorem setCurrentPage_of_ne {object : PageObject}
    (hnew : vm.currentPage.map PageObject.id ≠ some object.id) (nativeError : Option Text) :
    setCurrentPage rounding nativeError (some object) vm =
      loadGlyphsForPage rounding nativeError object.page
        { vm with currentPage := some object } := by
  rw [setCurrentPage_eq]
  exact if_pos hnew

theorem saveToDatabase_throws (message : Text) :
    vm.saveToDatabase (some message) = { vm with statusMessage := utf16 "שגיאה: " ++ message } :=
  Traced.vm_setStatusMessage _ _

/-- The layout of an empty text clears what is shown. -/
theorem executeLayout_of_empty (htext : vm.text = []) (pages : List PageModel)
    (nativeError databaseError : Option Text) :
    vm.executeLayout rounding pages nativeError databaseError =
      { (setCurrentPage rounding nativeError none { vm with glyphs := [], pages := [] }).1 with
        lastGlyphCount := 0
        statusMessage := utf16 "אין טקסט לעימוד" } := by
  have hempty : (Traced.start ⟨vm, []⟩).state.vm.text = [] := htext
  unfold executeLayout
  rw [Traced.executeLayout_of_empty hempty]
  exact Traced.vm_setStatusMessage _ _

/-- The layout of a text shows its pages. -/
theorem executeLayout_of_text (htext : vm.text ≠ []) (pages : List PageModel)
    (nativeError databaseError : Option Text) :
    vm.executeLayout rounding pages nativeError databaseError =
      match setCurrentPage rounding nativeError (vm.withNewPages pages).pages.head?
        (vm.withNewPages pages) with
      | (vm, some message) => { vm with statusMessage := utf16 "שגיאה: " ++ message }
      | (vm, none) =>
        saveToDatabase databaseError
          { vm with statusMessage := PaginationEngine.getPaginationSummary pages } := by
  have hshown := @Traced.vm_showPages rounding pages (PaginationEngine.getPaginationSummary pages)
    nativeError databaseError ((Traced.start ⟨vm, []⟩).setStatusMessage (utf16 "מבצע עימוד..."))
  have hne : (Traced.start ⟨vm, []⟩).state.vm.text ≠ [] := htext
  rw [Traced.vm_setStatusMessage] at hshown
  unfold executeLayout
  rw [Traced.executeLayout_of_text hne]
  exact hshown

end Fields

/-! ## Operations -/

/-- What the window does with its view model. -/
inductive Operation where
  | assignText (value : Text)
  | layout (nativeError databaseError : Option Text)
  | assignCurrentPage (page : Option PageObject) (nativeError : Option Text)

/-- The native call does not throw. -/
def Operation.NativeSucceeds : Operation → Prop
  | .assignText _ => True
  | .layout nativeError _ => nativeError = none
  | .assignCurrentPage _ nativeError => nativeError = none

/-- One operation. `CurrentPage` is assigned one of the pages or null. -/
inductive Step (culture : CompareInfo) (rounding : FloatRounding) :
    EditorViewModel → Operation → EditorViewModel → Prop
  | assignText (vm : EditorViewModel) (value : Text) :
      Step culture rounding vm (.assignText value) (vm.setText culture value)
  | layout (vm : EditorViewModel) (nativeError databaseError : Option Text)
      (pages : List PageModel) :
      paginationEngine.Paginates culture vm.text pages →
      Step culture rounding vm (.layout nativeError databaseError)
        (vm.executeLayout rounding pages nativeError databaseError)
  | assignCurrentPage (vm : EditorViewModel) (page : Option PageObject)
      (nativeError : Option Text) :
      (∀ object, page = some object → object ∈ vm.pages) →
      Step culture rounding vm (.assignCurrentPage page nativeError)
        (vm.setCurrentPage rounding nativeError page).1

end EditorViewModel

end Typesetting
