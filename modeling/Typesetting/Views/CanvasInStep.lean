/-
# Typesetting.Views.CanvasInStep -- the window follows its view model by notifications

The window draws when `Glyphs` or `CurrentPage` is announced, and only then. What is on the canvas
is therefore what the view model held at the last of these announcements. It is out of date where
one of the fields that are drawn changes and nothing is announced: where `Clear` empties the glyphs,
which happens in the layout of an empty text and for a page without main lines, and where another
`ChapterTitle` is announced, to which the window does not listen.

A failed native call is no such case: the window has drawn the old glyphs with the notes of the new
page before the call, and this is what the view model holds afterwards.
-/
import Typesetting.Lib.Transition
import Typesetting.ViewModels.FailedLayout
import Typesetting.Views.DrawGlyphs

namespace Typesetting

namespace MainWindow

/-! ## The window as a listener -/

/-- `BookName`, which nothing assigns. -/
def bookName (_ : PageModel) : Text :=
  []

/-- `vm.CurrentPage?.AllFootnotesA` and the other two; null is no notes. -/
def shownNotes : Option PageObject → NoteSystem → List Text
  | some object => object.page.allFootnotes
  | none => fun _ => []

/-- `vm.CurrentPage?.BookName ?? vm.ChapterTitle` -/
def shownTitle (currentPage : Option PageObject) (chapterTitle : Text) : Text :=
  match currentPage with
  | some object => bookName object.page
  | none => chapterTitle

/-- `vm.CurrentPage?.PageNumber ?? 1` -/
def shownNumber : Option PageObject → Nat
  | some object => object.page.pageNumber
  | none => 1

/-- `OnViewModelPropertyChanged(sender, e)` -/
def onViewModelPropertyChanged (wpf : WpfMeasures) (canvas : GlyphCanvas) (e : Notification) :
    GlyphCanvas :=
  if e.property = .glyphs ∨ e.property = .currentPage then
    let vm := e.state.vm
    drawGlyphs wpf vm.glyphs (shownNotes vm.currentPage)
      (shownTitle vm.currentPage e.state.chapterTitle) (shownNumber vm.currentPage) canvas
  else canvas

/-- The window with the view model it listens to. -/
structure WindowState where
  model : TitledViewModel := {}
  canvas : GlyphCanvas := {}

/-- After an operation the window has been told everything it raised, in this order. -/
def WindowState.told (wpf : WpfMeasures) (s : WindowState) (t : Traced) : WindowState :=
  ⟨t.state, t.raised.foldl (onViewModelPropertyChanged wpf) s.canvas⟩

/-- What is done with the view model. -/
inductive WindowOperation where
  | assignText (value : Text)
  | assignChapterTitle (value : Text)
  | layout (nativeError databaseError : Option Text)
  | columnLayout (mainWindow : Bool) (result : Except Text (List PageModel))
    (nativeError databaseError : Option Text)
  | assignCurrentPage (page : Option PageObject) (nativeError : Option Text)

/-- One operation; native and database calls may throw, and the pages of the two-column engine are
any. -/
inductive WindowStep (culture : CompareInfo) (rounding : FloatRounding) (wpf : WpfMeasures) :
    WindowState → WindowOperation → WindowState → Prop
  | assignText (s : WindowState) (value : Text) :
      WindowStep culture rounding wpf s (.assignText value)
        (s.told wpf ((Traced.start s.model).setText culture value))
  | assignChapterTitle (s : WindowState) (value : Text) :
      WindowStep culture rounding wpf s (.assignChapterTitle value)
        (s.told wpf ((Traced.start s.model).setChapterTitle value))
  | layout (s : WindowState) (nativeError databaseError : Option Text) (pages : List PageModel) :
      EditorViewModel.paginationEngine.Paginates culture s.model.vm.text pages →
      WindowStep culture rounding wpf s (.layout nativeError databaseError)
        (s.told wpf ((Traced.start s.model).executeLayout rounding pages nativeError
          databaseError))
  | columnLayout (s : WindowState) (mainWindow : Bool) (result : Except Text (List PageModel))
      (nativeError databaseError : Option Text) :
      WindowStep culture rounding wpf s (.columnLayout mainWindow result nativeError databaseError)
        (s.told wpf ((Traced.start s.model).executeColumnLayout rounding mainWindow result
          nativeError databaseError))
  | assignCurrentPage (s : WindowState) (page : Option PageObject) (nativeError : Option Text) :
      (∀ object, page = some object → object ∈ s.model.vm.pages) →
      WindowStep culture rounding wpf s (.assignCurrentPage page nativeError)
        (s.told wpf ((Traced.start s.model).setCurrentPage rounding nativeError page).1)

/-! ## What a state looks like when it is drawn -/

/-- The drawing of what the view model holds. -/
def drawing (wpf : WpfMeasures) (glyphs : List GlyphInfo) (currentPage : Option PageObject)
    (chapterTitle : Text) : List WindowChild :=
  (drawGlyphs wpf glyphs (shownNotes currentPage) (shownTitle currentPage chapterTitle)
    (shownNumber currentPage) {}).children

/-- The drawing of a state. -/
def drawingOf (wpf : WpfMeasures) (s : TitledViewModel) : List WindowChild :=
  drawing wpf s.vm.glyphs s.vm.currentPage s.chapterTitle

/-- The canvas shows what the view model holds. -/
def CanvasInStep (wpf : WpfMeasures) (s : WindowState) : Prop :=
  s.canvas.children = drawingOf wpf s.model

/-- An operation changes nothing that is drawn without announcing it. -/
def NothingChangesUnannounced (s : TitledViewModel) : WindowOperation → Prop
  | .assignText _ => True
  -- the title is drawn while no page is selected
  | .assignChapterTitle value =>
    s.vm.currentPage = none → s.vm.glyphs ≠ [] → value = s.chapterTitle
  -- glyphs are cleared, and no selection is announced
  | .layout _ _ => s.vm.text = [] → s.vm.currentPage = none → s.vm.glyphs = []
  -- the glyphs are cleared behind the announcement
  | .columnLayout mainWindow result _ _ =>
    s.vm.text ≠ [] → mainWindow = true → ∀ first rest, result = .ok (first :: rest) →
      first.allMainLines = [] → s.vm.glyphs = []
  | .assignCurrentPage page _ =>
    ∀ object, page = some object → s.vm.currentPage.map PageObject.id ≠ some object.id →
      object.page.allMainLines = [] → s.vm.glyphs = []

section Drawing

variable {wpf : WpfMeasures}

/-- The children do not depend on what was on the canvas before. -/
theorem children_drawGlyphs (glyphs : List GlyphInfo) (footnotes : NoteSystem → List Text)
    (chapterTitle : Text) (pageNumber : Nat) (canvas canvas' : GlyphCanvas) :
    (drawGlyphs wpf glyphs footnotes chapterTitle pageNumber canvas).children =
      (drawGlyphs wpf glyphs footnotes chapterTitle pageNumber canvas').children := by
  unfold drawGlyphs
  split <;> rfl

theorem drawing_eq_nil_iff {glyphs : List GlyphInfo} {currentPage : Option PageObject}
    {chapterTitle : Text} : drawing wpf glyphs currentPage chapterTitle = [] ↔ glyphs = [] := by
  constructor
  · intro h
    by_contra hglyphs
    have hlength : glyphs.length ≠ 0 := mt List.eq_nil_of_length_eq_zero hglyphs
    unfold drawing drawGlyphs at h
    rw [if_neg hlength] at h
    exact List.cons_ne_nil _ _ (List.append_eq_nil_iff.mp h).2
  · rintro rfl
    rfl

theorem headerBlocks_injective {a b : Text} (h : headerBlocks a = headerBlocks b) : a = b := by
  unfold headerBlocks at h
  split at h
  · split at h
    · have hblock := WindowChild.text.inj (List.singleton_inj.mp h)
      exact congrArg PlacedText.text hblock
    · cases h
  · rename_i ha
    split at h
    · cases h
    · rename_i hb
      exact (not_not.mp ha).trans (not_not.mp hb).symm

/-- While no page is selected the title can be told from the drawing, unless there is none. -/
theorem drawing_title_iff {glyphs : List GlyphInfo} {a b : Text} :
    drawing wpf glyphs none a = drawing wpf glyphs none b ↔ (glyphs ≠ [] → a = b) := by
  by_cases hglyphs : glyphs = []
  · subst hglyphs
    exact iff_of_true rfl fun h => absurd rfl h
  · have hlength : glyphs.length ≠ 0 := mt List.eq_nil_of_length_eq_zero hglyphs
    constructor
    · intro h _
      unfold drawing drawGlyphs at h
      rw [if_neg hlength, if_neg hlength] at h
      exact headerBlocks_injective (List.append_cancel_right h)
    · intro h
      rw [h hglyphs]

end Drawing

/-! ## What is on the canvas on the way through an operation -/

section Following

variable (wpf : WpfMeasures) (canvas : GlyphCanvas)

/-- What is on the canvas when everything raised so far has been handled. -/
def shown (t : Traced) : List WindowChild :=
  (t.raised.foldl (onViewModelPropertyChanged wpf) canvas).children

/-- The canvas shows the state reached. -/
def Followed (t : Traced) : Prop :=
  shown wpf canvas t = drawingOf wpf t.state

variable {wpf canvas} {rounding : FloatRounding} {t : Traced}

/-- An announcement of `Glyphs` or `CurrentPage` draws the state, any other leaves the canvas. -/
theorem shown_raise (property : Property) (t : Traced) :
    shown wpf canvas (t.raise property) =
      if property = .glyphs ∨ property = .currentPage then drawingOf wpf t.state
      else shown wpf canvas t := by
  unfold shown Traced.raise
  rw [List.foldl_append]
  show (onViewModelPropertyChanged wpf _ ⟨property, t.state⟩).children = _
  unfold onViewModelPropertyChanged
  split
  · exact children_drawGlyphs _ _ _ _ _ _
  · rfl

theorem followed_raise_glyphs (t : Traced) : Followed wpf canvas (t.raise .glyphs) :=
  shown_raise .glyphs t

theorem followed_raise_currentPage (t : Traced) : Followed wpf canvas (t.raise .currentPage) :=
  shown_raise .currentPage t

theorem followed_setStatusMessage (value : Text) (t : Traced) :
    Followed wpf canvas (t.setStatusMessage value) ↔ Followed wpf canvas t := by
  unfold Traced.setStatusMessage
  split
  · unfold Followed
    rw [shown_raise]
    exact Iff.rfl
  · exact Iff.rfl

theorem followed_saveToDatabase (databaseError : Option Text) (t : Traced) :
    Followed wpf canvas (t.saveToDatabase databaseError) ↔ Followed wpf canvas t := by
  cases databaseError with
  | none => exact Iff.rfl
  | some message => exact followed_setStatusMessage _ t

theorem followed_setText (culture : CompareInfo) (value : Text) (t : Traced) :
    Followed wpf canvas (t.setText culture value) ↔ Followed wpf canvas t := by
  unfold Traced.setText Traced.updateTextAnalysis
  split
  · have htext : shown wpf canvas ((t.change fun vm => { vm with text := value }).raise .text) =
        shown wpf canvas t := shown_raise .text _
    simp only
    split
    · unfold Followed
      rw [← htext]
      show shown wpf canvas (Traced.raise .extractedMainText _) = _ ↔ _
      rw [shown_raise]
      exact Iff.rfl
    · unfold Followed
      rw [← htext]
      show shown wpf canvas (Traced.raise .extractedMainText _) = _ ↔ _
      rw [shown_raise]
      exact Iff.rfl
  · exact Iff.rfl

/-- Another selection than the current one is drawn, and again with its glyphs if it has main
lines. -/
theorem followed_setCurrentPage {value : Option PageObject} (nativeError : Option Text)
    (hnew : t.state.vm.currentPage.map PageObject.id ≠ value.map PageObject.id)
    (hlines : ∀ object, value = some object → object.page.allMainLines ≠ []) :
    Followed wpf canvas (t.setCurrentPage rounding nativeError value).1 := by
  unfold Traced.setCurrentPage
  rw [if_pos hnew]
  cases value with
  | none => exact followed_raise_currentPage _
  | some object =>
      have hlength : object.page.allMainLines.length ≠ 0 :=
        mt List.eq_nil_of_length_eq_zero (hlines object rfl)
      unfold Traced.loadGlyphsForPage
      simp only
      rw [if_neg hlength]
      cases nativeError with
      | none => exact followed_raise_glyphs _
      -- the selection has been drawn with the glyphs that stay
      | some message => exact followed_raise_currentPage _

/-- A page without main lines has been drawn with the old glyphs when they are cleared. -/
theorem followed_setCurrentPage_iff_of_no_lines {object : PageObject} (nativeError : Option Text)
    (hnew : t.state.vm.currentPage.map PageObject.id ≠ some object.id)
    (hlines : object.page.allMainLines = []) :
    Followed wpf canvas (t.setCurrentPage rounding nativeError (some object)).1 ↔
      t.state.vm.glyphs = [] := by
  let drawn := (t.change fun vm => { vm with currentPage := some object }).raise .currentPage
  have hset : (t.setCurrentPage rounding nativeError (some object)).1 =
      drawn.change fun vm => { vm with glyphs := [] } := by
    have hlength : object.page.allMainLines.length = 0 := by rw [hlines, List.length_nil]
    have hdiff : t.state.vm.currentPage.map PageObject.id ≠ (some object).map PageObject.id := hnew
    unfold Traced.setCurrentPage
    rw [if_pos hdiff]
    unfold Traced.loadGlyphsForPage
    simp only
    rw [if_pos hlength]
  have hshown : shown wpf canvas (drawn.change fun vm => { vm with glyphs := [] }) =
      drawing wpf t.state.vm.glyphs (some object) t.state.chapterTitle :=
    shown_raise .currentPage _
  rw [hset]
  unfold Followed
  rw [hshown]
  exact drawing_eq_nil_iff

/-- The setter of `CurrentPage` keeps the canvas in step unless it clears glyphs. -/
theorem followed_setCurrentPage_iff (h : Followed wpf canvas t) (nativeError : Option Text)
    (value : Option PageObject) :
    Followed wpf canvas (t.setCurrentPage rounding nativeError value).1 ↔
      ∀ object, value = some object →
        t.state.vm.currentPage.map PageObject.id ≠ some object.id →
        object.page.allMainLines = [] → t.state.vm.glyphs = [] := by
  by_cases hnew : t.state.vm.currentPage.map PageObject.id ≠ value.map PageObject.id
  · by_cases hlines : ∃ object, value = some object ∧ object.page.allMainLines = []
    · obtain ⟨object, rfl, hnil⟩ := hlines
      rw [followed_setCurrentPage_iff_of_no_lines nativeError hnew hnil]
      constructor
      · intro hglyphs _ _ _ _
        exact hglyphs
      · intro hall
        exact hall object rfl hnew hnil
    · refine iff_of_true (followed_setCurrentPage nativeError hnew ?_) ?_
      · intro object hobject hnil
        exact hlines ⟨object, hobject, hnil⟩
      · intro object hobject _ hnil
        exact absurd ⟨object, hobject, hnil⟩ hlines
  · have hsame : (t.setCurrentPage rounding nativeError value).1 = t := by
      unfold Traced.setCurrentPage
      rw [if_neg hnew]
    rw [hsame]
    refine iff_of_true h ?_
    rintro object rfl hdiff
    exact absurd hdiff hnew

/-- What follows the selection of the first page is not drawn. -/
theorem followed_showPages_iff_select (pages : List PageModel) (summary : Text)
    (nativeError databaseError : Option Text) :
    Followed wpf canvas (t.showPages rounding pages summary nativeError databaseError) ↔
      Followed wpf canvas ((t.setPages pages).setCurrentPage rounding nativeError
        (t.setPages pages).state.vm.pages.head?).1 := by
  rw [Traced.showPages_eq]
  cases (t.setPages pages).setCurrentPage rounding nativeError
    (t.setPages pages).state.vm.pages.head? with
  | mk t' error =>
      cases error with
      | none => exact (followed_saveToDatabase _ _).trans (followed_setStatusMessage _ _)
      | some message => exact followed_setStatusMessage _ _

theorem head?_setPages (first : PageModel) (rest : List PageModel) :
    (t.setPages (first :: rest)).state.vm.pages.head? = some ⟨t.state.vm.nextId, first⟩ :=
  EditorViewModel.head?_newObjects _ first rest

/-- A new page is not the one selected. -/
theorem currentPage_ne_new {currentPage : Option PageObject} {nextId id : ℕ}
    (hfresh : ∀ object, currentPage = some object → object.id < nextId) (hnew : nextId ≤ id) :
    currentPage.map PageObject.id ≠ some id := by
  intro hsame
  obtain ⟨object, hcurrent, hid⟩ := Option.map_eq_some_iff.mp hsame
  have hlt := hfresh object hcurrent
  omega

/-- Showing pages whose first one has main lines draws it, whatever was on the canvas. -/
theorem followed_showPages {first : PageModel} (hlines : first.allMainLines ≠ [])
    (rest : List PageModel) (summary : Text) (nativeError databaseError : Option Text)
    (hfresh : ∀ object, t.state.vm.currentPage = some object → object.id < t.state.vm.nextId) :
    Followed wpf canvas
      (t.showPages rounding (first :: rest) summary nativeError databaseError) := by
  rw [followed_showPages_iff_select, head?_setPages]
  apply followed_setCurrentPage
  · exact currentPage_ne_new hfresh le_rfl
  · rintro _ ⟨⟩
    exact hlines

/-- A layout keeps the canvas in step unless its first page has no main lines and clears glyphs. -/
theorem followed_showPages_iff (h : Followed wpf canvas t) (pages : List PageModel)
    (summary : Text) (nativeError databaseError : Option Text)
    (hfresh : ∀ object, t.state.vm.currentPage = some object → object.id < t.state.vm.nextId) :
    Followed wpf canvas (t.showPages rounding pages summary nativeError databaseError) ↔
      ∀ first rest, pages = first :: rest → first.allMainLines = [] → t.state.vm.glyphs = [] := by
  have hpages : Followed wpf canvas (t.setPages pages) := h
  rw [followed_showPages_iff_select, followed_setCurrentPage_iff hpages]
  cases pages with
  | nil => exact iff_of_true (fun _ hhead => nomatch hhead) (fun _ _ hnil => nomatch hnil)
  | cons first rest =>
      rw [head?_setPages]
      constructor
      · rintro hall _ _ ⟨⟩ hnil
        exact hall _ rfl (currentPage_ne_new hfresh le_rfl) hnil
      · rintro hall _ ⟨⟩ _ hnil
        exact hall first rest rfl hnil

end Following

/-! ## Identities are handed out once -/

/-- The pages and the selection have identities that were handed out. -/
structure FreshIds (vm : EditorViewModel) : Prop where
  pages : ∀ object ∈ vm.pages, object.id < vm.nextId
  current : ∀ object, vm.currentPage = some object → object.id < vm.nextId

section Fresh

variable {rounding : FloatRounding} {vm : EditorViewModel}

/-- Selecting a page leaves the pages alone, and the text and what was saved with them, and the
selection is the old or the new one. -/
theorem setCurrentPage_frame (nativeError : Option Text) (value : Option PageObject)
    (vm : EditorViewModel) :
    let vm' := (vm.setCurrentPage rounding nativeError value).1
    vm'.pages = vm.pages ∧ vm'.nextId = vm.nextId ∧ vm'.text = vm.text ∧
      vm'.savedContent = vm.savedContent ∧
      (vm'.currentPage = vm.currentPage ∨ vm'.currentPage = value) := by
  rw [EditorViewModel.setCurrentPage_eq]
  split
  · cases value with
    | none => exact ⟨rfl, rfl, rfl, rfl, .inr rfl⟩
    | some object =>
        dsimp only
        by_cases hlines : object.page.allMainLines = []
        · rw [EditorViewModel.loadGlyphsForPage_of_no_lines hlines]
          exact ⟨rfl, rfl, rfl, rfl, .inr rfl⟩
        · cases nativeError with
          | none =>
              rw [EditorViewModel.loadGlyphsForPage_none hlines]
              exact ⟨rfl, rfl, rfl, rfl, .inr rfl⟩
          | some message =>
              rw [EditorViewModel.loadGlyphsForPage_throws hlines]
              exact ⟨rfl, rfl, rfl, rfl, .inr rfl⟩
  · exact ⟨rfl, rfl, rfl, rfl, .inl rfl⟩

theorem FreshIds.setCurrentPage (h : FreshIds vm) (rounding : FloatRounding)
    (nativeError : Option Text) (value : Option PageObject)
    (hvalue : ∀ object, value = some object → object ∈ vm.pages) :
    FreshIds (vm.setCurrentPage rounding nativeError value).1 := by
  obtain ⟨hpages, hid, -, -, hcurrent⟩ := @setCurrentPage_frame rounding nativeError value vm
  constructor
  · rw [hpages, hid]
    exact h.pages
  · intro object hobject
    rw [hid]
    rcases hcurrent with hold | hnew
    · exact h.current object (hold ▸ hobject)
    · exact h.pages object (hvalue object (hnew ▸ hobject))

theorem FreshIds.saveToDatabase (h : FreshIds vm) (databaseError : Option Text) :
    FreshIds (vm.saveToDatabase databaseError) := by
  cases databaseError with
  | none => exact ⟨h.pages, h.current⟩
  | some message =>
      rw [EditorViewModel.saveToDatabase_throws]
      exact ⟨h.pages, h.current⟩

theorem FreshIds.setText (h : FreshIds vm) (culture : CompareInfo) (value : Text) :
    FreshIds (vm.setText culture value) := by
  obtain ⟨x, hset⟩ := EditorViewModel.exists_setText culture value vm
  rw [hset]
  exact ⟨h.pages, h.current⟩

theorem FreshIds.newObjects (h : FreshIds vm) (pages : List PageModel) :
    FreshIds { vm with
      pages := EditorViewModel.newObjects vm.nextId pages
      nextId := vm.nextId + pages.length } := by
  constructor
  · intro object hobject
    obtain ⟨i, hi, rfl⟩ := List.mem_mapIdx.mp hobject
    show vm.nextId + i < vm.nextId + pages.length
    omega
  · intro object hobject
    have hlt := h.current object hobject
    show object.id < vm.nextId + pages.length
    omega

theorem FreshIds.showPages {t : Traced} (h : FreshIds t.state.vm) (pages : List PageModel)
    (summary : Text) (nativeError databaseError : Option Text) :
    FreshIds (t.showPages rounding pages summary nativeError databaseError).state.vm := by
  have hset := (h.newObjects pages).setCurrentPage rounding nativeError
    (EditorViewModel.newObjects t.state.vm.nextId pages).head?
    fun object hobject => List.mem_of_head? hobject
  rw [Traced.vm_showPages]
  simp only
  cases hresult : EditorViewModel.setCurrentPage rounding nativeError
      (EditorViewModel.newObjects t.state.vm.nextId pages).head? _ with
  | mk vm' error =>
      rw [hresult] at hset
      cases error with
      | none =>
          have hsummary : FreshIds { vm' with statusMessage := summary } :=
            ⟨hset.pages, hset.current⟩
          exact hsummary.saveToDatabase databaseError
      | some message => exact ⟨hset.pages, hset.current⟩

theorem FreshIds.setStatusMessage {t : Traced} (h : FreshIds t.state.vm) (value : Text) :
    FreshIds (t.setStatusMessage value).state.vm := by
  rw [Traced.vm_setStatusMessage]
  exact ⟨h.pages, h.current⟩

theorem FreshIds.executeLayout {t : Traced} (h : FreshIds t.state.vm) (pages : List PageModel)
    (nativeError databaseError : Option Text) :
    FreshIds (t.executeLayout rounding pages nativeError databaseError).state.vm := by
  by_cases htext : t.state.vm.text = []
  · rw [Traced.executeLayout_of_empty htext]
    apply FreshIds.setStatusMessage
    have hfresh : FreshIds { t.state.vm with glyphs := [], pages := [] } :=
      ⟨(fun _ hobject => nomatch hobject), h.current⟩
    have hnone := hfresh.setCurrentPage rounding nativeError none fun _ hobject => nomatch hobject
    simp only [Traced.vm_change]
    rw [Traced.vm_setCurrentPage_fst]
    exact ⟨hnone.pages, hnone.current⟩
  · rw [Traced.executeLayout_of_text htext]
    exact (h.setStatusMessage _).showPages pages _ nativeError databaseError

theorem FreshIds.executeColumnLayout {t : Traced} (h : FreshIds t.state.vm) (mainWindow : Bool)
    (result : Except Text (List PageModel)) (nativeError databaseError : Option Text) :
    FreshIds (t.executeColumnLayout rounding mainWindow result nativeError
      databaseError).state.vm := by
  rcases @Traced.executeColumnLayout_cases rounding mainWindow result nativeError databaseError
    t with
    ⟨pages, summary, -, heq⟩ | ⟨-, hstatus⟩
  · rw [heq]
    exact (h.setStatusMessage _).showPages pages summary nativeError databaseError
  · exact hstatus.keeps (fun u => FreshIds u.state.vm)
      (fun _ message hu => hu.setStatusMessage message) h

theorem FreshIds.step {culture : CompareInfo} {wpf : WpfMeasures} {s s' : WindowState}
    {op : WindowOperation} (h : FreshIds s.model.vm)
    (hstep : WindowStep culture rounding wpf s op s') : FreshIds s'.model.vm := by
  cases hstep with
  | assignText value =>
      have hvm := @Traced.vm_setText culture value (Traced.start s.model)
      show FreshIds (Traced.setText culture value (Traced.start s.model)).state.vm
      rw [hvm]
      exact h.setText culture value
  | assignChapterTitle value => exact h
  | layout nativeError databaseError pages _ =>
      exact FreshIds.executeLayout (t := Traced.start s.model) h pages nativeError databaseError
  | columnLayout mainWindow result nativeError databaseError =>
      exact FreshIds.executeColumnLayout (t := Traced.start s.model) h mainWindow result
        nativeError databaseError
  | assignCurrentPage page nativeError hmem =>
      show FreshIds (Traced.setCurrentPage rounding nativeError page
        (Traced.start s.model)).1.state.vm
      rw [Traced.vm_setCurrentPage_fst]
      exact h.setCurrentPage rounding nativeError page hmem

/-- Every move keeps this, in the form the rules for runs take it. -/
theorem freshIds_step (culture : CompareInfo) (rounding : FloatRounding) (wpf : WpfMeasures) :
    ∀ s op s', FreshIds s.model.vm → WindowStep culture rounding wpf s op s' →
      FreshIds s'.model.vm :=
  fun _ _ _ hfresh hstep => hfresh.step hstep

end Fresh

/-! ## One operation -/

section OneStep

variable {culture : CompareInfo} {rounding : FloatRounding} {wpf : WpfMeasures}

/-- The title is drawn while no page is selected. -/
theorem followed_setChapterTitle_iff {canvas : GlyphCanvas} {t : Traced}
    (h : Followed wpf canvas t) (value : Text) :
    Followed wpf canvas (t.setChapterTitle value) ↔
      (t.state.vm.currentPage = none → t.state.vm.glyphs ≠ [] → value = t.state.chapterTitle) := by
  have hshown : shown wpf canvas (t.setChapterTitle value) = drawingOf wpf t.state :=
    (shown_raise .chapterTitle _).trans h
  unfold Followed
  rw [hshown]
  show drawing wpf t.state.vm.glyphs t.state.vm.currentPage t.state.chapterTitle =
    drawing wpf t.state.vm.glyphs t.state.vm.currentPage value ↔ _
  cases t.state.vm.currentPage with
  | some object => exact iff_of_true rfl fun hnone => nomatch hnone
  | none =>
      rw [drawing_title_iff]
      constructor
      · intro heq _ hglyphs
        exact (heq hglyphs).symm
      · intro hall hglyphs
        exact (hall rfl hglyphs).symm

/-- In the layout of an empty text clearing the selection announces that the glyphs are gone. -/
theorem followed_executeLayout_of_text_nil_iff {canvas : GlyphCanvas} {t : Traced}
    (h : Followed wpf canvas t) (htext : t.state.vm.text = []) (pages : List PageModel)
    (nativeError databaseError : Option Text) :
    Followed wpf canvas (t.executeLayout rounding pages nativeError databaseError) ↔
      (t.state.vm.currentPage = none → t.state.vm.glyphs = []) := by
  rw [Traced.executeLayout_of_empty htext, followed_setStatusMessage]
  show Followed wpf canvas (Traced.setCurrentPage rounding nativeError none _).1 ↔ _
  by_cases hnone : t.state.vm.currentPage = none
  · have hsame : (Traced.setCurrentPage rounding nativeError none
        (t.change fun vm => { vm with glyphs := [], pages := [] })).1 =
          t.change fun vm => { vm with glyphs := [], pages := [] } := by
      unfold Traced.setCurrentPage
      rw [if_neg (by simp [hnone])]
    have hshown : shown wpf canvas (t.change fun vm => { vm with glyphs := [], pages := [] }) =
        drawingOf wpf t.state := h
    rw [hsame]
    unfold Followed
    rw [hshown]
    show drawing wpf t.state.vm.glyphs t.state.vm.currentPage t.state.chapterTitle = [] ↔ _
    rw [drawing_eq_nil_iff]
    exact ⟨fun hglyphs _ => hglyphs, fun hall => hall hnone⟩
  · refine iff_of_true ?_ fun h => absurd h hnone
    apply followed_setCurrentPage
    · intro hsame
      exact hnone (Option.map_eq_none_iff.mp hsame)
    · intro _ hobject
      cases hobject

/-- The layout of a text draws its first page with its glyphs. -/
theorem followed_executeLayout_of_text {canvas : GlyphCanvas} {t : Traced}
    (h : Followed wpf canvas t) (hfresh : FreshIds t.state.vm) (htext : t.state.vm.text ≠ [])
    {pages : List PageModel}
    (hlines : ∀ first rest, pages = first :: rest → first.allMainLines ≠ [])
    (nativeError databaseError : Option Text) :
    Followed wpf canvas (t.executeLayout rounding pages nativeError databaseError) := by
  have hstatus := (followed_setStatusMessage (utf16 "מבצע עימוד...") t).mpr h
  have hcurrent := (hfresh.setStatusMessage (utf16 "מבצע עימוד...")).current
  rw [Traced.executeLayout_of_text htext, followed_showPages_iff hstatus _ _ _ _ hcurrent]
  intro first rest hfirst hnil
  exact absurd hnil (hlines first rest hfirst)

theorem followed_executeColumnLayout_iff {canvas : GlyphCanvas} {t : Traced}
    (h : Followed wpf canvas t) (hfresh : FreshIds t.state.vm) (mainWindow : Bool)
    (result : Except Text (List PageModel)) (nativeError databaseError : Option Text) :
    Followed wpf canvas (t.executeColumnLayout rounding mainWindow result nativeError
        databaseError) ↔
      (t.state.vm.text ≠ [] → mainWindow = true → ∀ first rest, result = .ok (first :: rest) →
        first.allMainLines = [] → t.state.vm.glyphs = []) := by
  rcases @Traced.executeColumnLayout_cases rounding mainWindow result nativeError databaseError
    t with
    ⟨pages, summary, ⟨htext, rfl, rfl⟩, heq⟩ | ⟨hnone, hstatus⟩
  · have hstatus := (followed_setStatusMessage (utf16 "מבצע עימוד דו-טורי...") t).mpr h
    have hcurrent := (hfresh.setStatusMessage (utf16 "מבצע עימוד דו-טורי...")).current
    have hglyphs : (t.setStatusMessage (utf16 "מבצע עימוד דו-טורי...")).state.vm.glyphs =
        t.state.vm.glyphs := by rw [Traced.vm_setStatusMessage]
    rw [heq, followed_showPages_iff hstatus _ _ _ _ hcurrent, hglyphs]
    constructor
    · rintro hall _ _ first rest ⟨⟩ hnil
      exact hall first rest rfl hnil
    · rintro hall first rest rfl hnil
      exact hall htext rfl first rest rfl hnil
  · refine iff_of_true ?_ fun htext hwindow first rest hok => absurd hok (hnone htext hwindow _)
    exact hstatus.keeps (Followed wpf canvas)
      (fun u message hu => (followed_setStatusMessage message u).mpr hu) h

/-- A text with a main text is laid out on one page: the main text is one line, and a line fits. -/
theorem paginates_onlyPage {rawText : Text} {pages : List PageModel}
    (hpages : EditorViewModel.paginationEngine.Paginates culture rawText pages)
    (hmain : (extractContentAndFootnotes culture rawText).mainText ≠ []) :
    pages = [EditorViewModel.paginationEngine.onlyPage
      (extractContentAndFootnotes culture rawText)] :=
  hpages.unique (PaginationEngine.paginates_of_mainText_fits hmain
    (PaginationEngine.calculateLineHeight_default_le _))

theorem onlyPage_lines_ne_nil (x : Extracted) :
    (EditorViewModel.paginationEngine.onlyPage x).allMainLines ≠ [] := by
  rw [PaginationEngine.onlyPage_allMainLines]
  exact List.cons_ne_nil _ _

theorem mainContent_onlyPage (x : Extracted) :
    EditorViewModel.mainContent (EditorViewModel.paginationEngine.onlyPage x) = x.mainText := by
  unfold EditorViewModel.mainContent
  rw [PaginationEngine.onlyPage_allMainLines]
  exact List.intercalate_singleton

/-- The pages of a layout have main lines. -/
theorem paginates_main_lines {rawText : Text} {pages : List PageModel}
    (hpages : EditorViewModel.paginationEngine.Paginates culture rawText pages) :
    ∀ first rest, pages = first :: rest → first.allMainLines ≠ [] := by
  intro first rest hfirst
  by_cases hmain : (extractContentAndFootnotes culture rawText).mainText = []
  · rw [EditorViewModel.paginates_no_page hpages hmain] at hfirst
    cases hfirst
  · rw [paginates_onlyPage hpages hmain] at hfirst
    obtain ⟨rfl, -⟩ := List.cons.inj hfirst
    exact onlyPage_lines_ne_nil _

/-- After an operation the canvas is in step exactly when what changed was announced. -/
theorem canvasInStep_step_iff {s s' : WindowState} {op : WindowOperation}
    (hfresh : FreshIds s.model.vm) (hin : CanvasInStep wpf s)
    (hstep : WindowStep culture rounding wpf s op s') :
    CanvasInStep wpf s' ↔ NothingChangesUnannounced s.model op := by
  have hstart : Followed wpf s.canvas (Traced.start s.model) := hin
  have hids : FreshIds (Traced.start s.model).state.vm := hfresh
  cases hstep with
  | assignText value =>
      exact iff_of_true ((followed_setText culture value _).mpr hstart) trivial
  | assignChapterTitle value => exact followed_setChapterTitle_iff hstart value
  | layout nativeError databaseError pages hpages =>
      by_cases htext : s.model.vm.text = []
      · refine (followed_executeLayout_of_text_nil_iff hstart htext pages nativeError
          databaseError).trans ⟨fun hall _ => hall, fun hall => hall htext⟩
      · refine iff_of_true ?_ fun hnil => absurd hnil htext
        exact followed_executeLayout_of_text hstart hids htext (paginates_main_lines hpages)
          nativeError databaseError
  | columnLayout mainWindow result nativeError databaseError =>
      exact followed_executeColumnLayout_iff hstart hids mainWindow result nativeError
        databaseError
  | assignCurrentPage page nativeError hmem =>
      exact followed_setCurrentPage_iff hstart nativeError page

end OneStep

/-! ## Runs -/

theorem freshIds_initial : FreshIds {} :=
  ⟨(fun _ hobject => nomatch hobject), (fun _ hobject => nomatch hobject)⟩

/-- In every run the canvas shows in all states what the view model holds exactly when no operation
clears glyphs, or changes the title drawn, without an announcement the window listens to. -/
theorem canvas_in_step_iff (culture : CompareInfo) (rounding : FloatRounding) (wpf : WpfMeasures)
    (moves : List (Transition.Move WindowState WindowOperation))
    (hrun : Transition.Run (WindowStep culture rounding wpf) {} moves) :
    (∀ s ∈ Transition.visited {} moves, CanvasInStep wpf s) ↔
      ∀ move ∈ moves, NothingChangesUnannounced move.before.model move.action := by
  have hexact : ∀ s op s', FreshIds s.model.vm → CanvasInStep wpf s →
      WindowStep culture rounding wpf s op s' →
      (CanvasInStep wpf s' ↔ NothingChangesUnannounced s.model op) :=
    fun _ _ _ hfresh hin hstep => canvasInStep_step_iff hfresh hin hstep
  exact Transition.Run.forall_visited_iff (freshIds_step culture rounding wpf) hexact hrun
    freshIds_initial rfl

/-! ## A session: a letter is typed and laid out -/

/-- Nothing has an extent. -/
def flatWpf : WpfMeasures where
  textWidth _ _ := 0
  titleWidth _ _ := 0
  panelHeight _ _ := 0

def typedWindow : WindowState :=
  WindowState.told flatWpf {} ((Traced.start {}).setText .ordinal (utf16 "a"))

def laidOutWindow : WindowState :=
  typedWindow.told flatWpf
    ((Traced.start typedWindow.model).executeLayout .exact [EditorViewModel.typedPage] none none)

def windowSession : List (Transition.Move WindowState WindowOperation) :=
  [⟨{}, .assignText (utf16 "a"), typedWindow⟩, ⟨typedWindow, .layout none none, laidOutWindow⟩]

theorem text_typedWindow : typedWindow.model.vm.text = utf16 "a" := by decide +kernel

theorem mainText_typedWindow :
    (extractContentAndFootnotes .ordinal typedWindow.model.vm.text).mainText ≠ [] := by
  rw [text_typedWindow]
  decide +kernel

theorem run_windowSession :
    Transition.Run (WindowStep .ordinal .exact flatWpf) {} windowSession := by
  have hlayout : WindowStep .ordinal .exact flatWpf typedWindow (.layout none none)
      laidOutWindow := by
    apply WindowStep.layout
    exact PaginationEngine.paginates_of_mainText_fits mainText_typedWindow
      (PaginationEngine.calculateLineHeight_default_le _)
  exact .move (WindowStep.assignText {} _) (.move hlayout (.stop laidOutWindow))

theorem canvas_in_step_session :
    (∀ move ∈ windowSession, NothingChangesUnannounced move.before.model move.action) ∧
      ∀ s ∈ Transition.visited {} windowSession, CanvasInStep flatWpf s := by
  have hok : ∀ move ∈ windowSession, NothingChangesUnannounced move.before.model move.action := by
    intro move hmove
    rcases List.mem_pair.mp hmove with rfl | rfl
    · exact trivial
    · intro htext
      rw [text_typedWindow] at htext
      exact absurd htext (by decide)
  exact ⟨hok, (canvas_in_step_iff .ordinal .exact flatWpf windowSession
    run_windowSession).mpr hok⟩

end MainWindow

end Typesetting
