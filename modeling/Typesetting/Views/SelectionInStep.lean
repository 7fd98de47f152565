/-
# Typesetting.Views.SelectionInStep -- whose glyphs the window shows

Both layouts and the list of pages end in the setter of `CurrentPage`, and the glyphs follow the
selection only there: the native call fills them in, or a page without lines clears them. A call
that throws, and a selection that is cleared, leave the glyphs of the page before; a page without
lines leaves their number. Over the whole window, the two-column layout and the calls that throw
included, pages, selection, glyphs and their number agree in every state of a run exactly when no
selection was left with glyphs that are not its own. Where they have come apart, the next native
call that succeeds brings them together again, and the canvas with them.
-/
import Typesetting.Views.LaidOutText

namespace Typesetting

namespace MainWindow

open EditorViewModel (InStep glyphsFor newObjects)

/-! ## What an operation selects -/

/-- A page or null for `CurrentPage`, with the outcome of the native call this may lead to. -/
structure Selection where
  value : Option PageObject
  nativeError : Option Text

/-- The native call is made and does not throw. -/
def Selection.Loads (selection : Selection) : Prop :=
  ∃ object, selection.value = some object ∧ object.page.allMainLines ≠ [] ∧
    selection.nativeError = none

/-- The pages of a layout: the main text is one line and a line fits the page. -/
def laidOutPages (culture : CompareInfo) (text : Text) : List PageModel :=
  let x := extractContentAndFootnotes culture text
  if x.mainText = [] then [] else [EditorViewModel.paginationEngine.onlyPage x]

/-- What an operation selects, if it comes to the setter and this does not return at once. -/
def selects (culture : CompareInfo) (vm : EditorViewModel) : WindowOperation → Option Selection
  | .assignText _ => none
  | .assignChapterTitle _ => none
  | .layout nativeError _ =>
    -- an empty text clears everything
    if vm.text = [] then none
    else some ⟨(newObjects vm.nextId (laidOutPages culture vm.text)).head?, nativeError⟩
  | .columnLayout mainWindow result nativeError _ =>
    if vm.text = [] ∨ mainWindow = false then none
    else
      match result with
      | .error _ => none
      | .ok pages => some ⟨(newObjects vm.nextId pages).head?, nativeError⟩
  | .assignCurrentPage page nativeError =>
    if vm.currentPage.map PageObject.id ≠ page.map PageObject.id then some ⟨page, nativeError⟩
    else none

/-- The glyphs become those of what is selected, or they are these already. -/
def Selection.GetsOwnGlyphs (rounding : FloatRounding) (vm : EditorViewModel)
    (selection : Selection) : Prop :=
  selection.Loads ∨ vm.glyphs = glyphsFor rounding selection.value

/-- What an operation selects is not left with the glyphs of another page. -/
def SelectsWithOwnGlyphs (culture : CompareInfo) (rounding : FloatRounding) (vm : EditorViewModel)
    (op : WindowOperation) : Prop :=
  ∀ selection, selects culture vm op = some selection → selection.GetsOwnGlyphs rounding vm

section Selects

variable {culture : CompareInfo} {rounding : FloatRounding} {vm : EditorViewModel}
  {op : WindowOperation}

theorem selectsWithOwnGlyphs_iff {selection : Selection}
    (h : selects culture vm op = some selection) :
    SelectsWithOwnGlyphs culture rounding vm op ↔ selection.GetsOwnGlyphs rounding vm := by
  unfold SelectsWithOwnGlyphs
  rw [h]
  constructor
  · intro hall
    exact hall selection rfl
  · rintro hok _ ⟨⟩
    exact hok

theorem selectsWithOwnGlyphs_of_none (h : selects culture vm op = none) :
    SelectsWithOwnGlyphs culture rounding vm op := by
  intro selection hselects
  rw [h] at hselects
  cases hselects

end Selects

theorem laidOutPages_eq {culture : CompareInfo} {text : Text} {pages : List PageModel}
    (hpages : EditorViewModel.paginationEngine.Paginates culture text pages) :
    pages = laidOutPages culture text := by
  unfold laidOutPages
  by_cases hmain : (extractContentAndFootnotes culture text).mainText = []
  · rw [if_pos hmain]
    exact EditorViewModel.paginates_no_page hpages hmain
  · rw [if_neg hmain]
    exact paginates_onlyPage hpages hmain

/-- A layout selects the first of the pages it gets. -/
theorem selects_of_text {culture : CompareInfo} {vm : EditorViewModel} (htext : vm.text ≠ [])
    {pages : List PageModel}
    (hpages : EditorViewModel.paginationEngine.Paginates culture vm.text pages)
    (nativeError databaseError : Option Text) :
    selects culture vm (.layout nativeError databaseError) =
      some ⟨(newObjects vm.nextId pages).head?, nativeError⟩ := by
  rw [laidOutPages_eq hpages]
  exact if_neg htext

theorem selects_of_column_pages {culture : CompareInfo} {vm : EditorViewModel}
    (htext : vm.text ≠ []) (pages : List PageModel) (nativeError databaseError : Option Text) :
    selects culture vm (.columnLayout true (.ok pages) nativeError databaseError) =
      some ⟨(newObjects vm.nextId pages).head?, nativeError⟩ := by
  have hwindow : ¬(vm.text = [] ∨ true = false) := by simp [htext]
  exact if_neg hwindow

/-- A two-column layout that gets no pages selects nothing. -/
theorem selects_of_no_column_pages {culture : CompareInfo} {vm : EditorViewModel}
    {mainWindow : Bool} {result : Except Text (List PageModel)}
    (hnone : vm.text ≠ [] → mainWindow = true → ∀ pages, result ≠ .ok pages)
    (nativeError databaseError : Option Text) :
    selects culture vm (.columnLayout mainWindow result nativeError databaseError) = none := by
  unfold selects
  dsimp only
  split
  · rfl
  · rename_i hwindow
    obtain ⟨htext, hmain⟩ := not_or.mp hwindow
    cases result with
    | error message => rfl
    | ok pages => exact absurd rfl (hnone htext (by simpa using hmain) pages)

/-- A text with a main text selects its page, and a native call that succeeds loads it. -/
theorem selects_layout {culture : CompareInfo} {vm : EditorViewModel}
    (hmain : (extractContentAndFootnotes culture vm.text).mainText ≠ [])
    (nativeError databaseError : Option Text) :
    ∃ selection, selects culture vm (.layout nativeError databaseError) = some selection ∧
      (nativeError = none → selection.Loads) := by
  have htext : vm.text ≠ [] := text_ne_nil_of_mainText hmain
  refine ⟨_, if_neg htext, fun hnative => ?_⟩
  refine ⟨⟨vm.nextId, EditorViewModel.paginationEngine.onlyPage
    (extractContentAndFootnotes culture vm.text)⟩, ?_, onlyPage_lines_ne_nil _, hnative⟩
  unfold laidOutPages
  dsimp only
  rw [if_neg hmain]
  exact EditorViewModel.head?_newObjects _ _ []

/-! ## The setter -/

section Setter

variable {rounding : FloatRounding} {vm : EditorViewModel} {selection : Selection}

/-- Glyphs without a selection are in step only if there are none. -/
theorem inStep_none_iff {pages : List PageObject} {glyphs : List GlyphInfo} {lastGlyphCount : ℕ}
    (hcount : lastGlyphCount = glyphs.length) :
    InStep rounding ⟨pages, none, glyphs, lastGlyphCount⟩ ↔ glyphs = [] := by
  constructor
  · intro h
    exact h.glyphs_eq
  · intro h
    exact ⟨(fun _ hsome => nomatch hsome), h, hcount⟩

/-- The same for a selected page, which is one of the pages. -/
theorem inStep_some_iff {pages : List PageObject} {object : PageObject} (hmem : object ∈ pages)
    (glyphs : List GlyphInfo) (lastGlyphCount : ℕ) :
    InStep rounding ⟨pages, some object, glyphs, lastGlyphCount⟩ ↔
      glyphs = glyphsFor rounding (some object) ∧ lastGlyphCount = glyphs.length := by
  constructor
  · intro h
    exact ⟨h.glyphs_eq, h.count_eq⟩
  · rintro ⟨hglyphs, hcount⟩
    refine ⟨?_, hglyphs, hcount⟩
    rintro other ⟨⟩
    exact hmem

/-- What the setter leaves in the four fields when another page is selected. -/
theorem setCurrentPage_display {object : PageObject} (nativeError : Option Text)
    (hnew : vm.currentPage.map PageObject.id ≠ some object.id) :
    (vm.setCurrentPage rounding nativeError (some object)).1.display =
      if object.page.allMainLines = [] then ⟨vm.pages, some object, [], vm.lastGlyphCount⟩
      else if nativeError = none then
        ⟨vm.pages, some object, glyphsFor rounding (some object),
          (glyphsFor rounding (some object)).length⟩
      else ⟨vm.pages, some object, vm.glyphs, vm.lastGlyphCount⟩ := by
  rw [EditorViewModel.setCurrentPage_of_ne hnew]
  by_cases hlines : object.page.allMainLines = []
  · rw [if_pos hlines, EditorViewModel.loadGlyphsForPage_of_no_lines hlines]
    rfl
  · rw [if_neg hlines]
    have hglyphs : glyphsFor rounding (some object) =
        layoutResult rounding (EditorViewModel.mainContent object.page) := if_neg hlines
    cases nativeError with
    | none =>
        rw [EditorViewModel.loadGlyphsForPage_none hlines, if_pos rfl, hglyphs]
        rfl
    | some message =>
        rw [EditorViewModel.loadGlyphsForPage_throws hlines, if_neg nofun]
        rfl

/-- A native call that succeeds brings the fields in step, whatever was in them. -/
theorem inStep_of_loads (hloads : selection.Loads)
    (hmem : ∀ object, selection.value = some object → object ∈ vm.pages)
    (hnew : vm.currentPage.map PageObject.id ≠ selection.value.map PageObject.id) :
    InStep rounding
      (vm.setCurrentPage rounding selection.nativeError selection.value).1.display := by
  obtain ⟨object, hvalue, hlines, hnative⟩ := hloads
  rw [hvalue] at hnew ⊢
  rw [setCurrentPage_display _ hnew, if_neg hlines, if_pos hnative,
    inStep_some_iff (hmem object hvalue)]
  exact ⟨rfl, rfl⟩

/-- After the setter the fields are in step exactly when the glyphs were filled in or right
before. -/
theorem inStep_setCurrentPage_iff (hcount : vm.lastGlyphCount = vm.glyphs.length)
    (hmem : ∀ object, selection.value = some object → object ∈ vm.pages)
    (hnew : ∀ object, selection.value = some object →
      vm.currentPage.map PageObject.id ≠ some object.id) :
    InStep rounding
        (vm.setCurrentPage rounding selection.nativeError selection.value).1.display ↔
      selection.GetsOwnGlyphs rounding vm := by
  unfold Selection.GetsOwnGlyphs
  by_cases hloads : selection.Loads
  · refine iff_of_true ?_ (.inl hloads)
    obtain ⟨object, hvalue, -⟩ := id hloads
    apply inStep_of_loads hloads hmem
    rw [hvalue]
    exact hnew object hvalue
  · rw [or_iff_right hloads]
    cases hvalue : selection.value with
    | none =>
        rw [EditorViewModel.setCurrentPage_none]
        exact inStep_none_iff hcount
    | some object =>
        rw [setCurrentPage_display _ (hnew object hvalue)]
        by_cases hlines : object.page.allMainLines = []
        · -- the glyphs are cleared, their number is not
          have hnone : glyphsFor rounding (some object) = [] := if_pos hlines
          rw [if_pos hlines, inStep_some_iff (hmem object hvalue), hnone, hcount]
          simp
        · have hthrows : selection.nativeError ≠ none :=
            fun hnative => hloads ⟨object, hvalue, hlines, hnative⟩
          rw [if_neg hlines, if_neg hthrows, inStep_some_iff (hmem object hvalue)]
          exact and_iff_left hcount

/-- Showing pages leaves in the fields what selecting the first of them leaves. -/
theorem display_showPages {t : Traced} (pages : List PageModel) (summary : Text)
    (nativeError databaseError : Option Text) :
    (t.showPages rounding pages summary nativeError databaseError).state.vm.display =
      ((t.setPages pages).state.vm.setCurrentPage rounding nativeError
        (newObjects t.state.vm.nextId pages).head?).1.display := by
  rw [Traced.vm_showPages]
  simp only
  show _ = (EditorViewModel.setCurrentPage rounding nativeError _
    { t.state.vm with
      pages := newObjects t.state.vm.nextId pages
      nextId := t.state.vm.nextId + pages.length }).1.display
  cases EditorViewModel.setCurrentPage rounding nativeError
      (newObjects t.state.vm.nextId pages).head?
      { t.state.vm with
        pages := newObjects t.state.vm.nextId pages
        nextId := t.state.vm.nextId + pages.length } with
  | mk vm' error =>
      cases error with
      | none => exact EditorViewModel.saveToDatabase_display _
      | some message => rfl

/-- As the layouts do it, behind a message. -/
theorem display_showPages_status {t : Traced} (status : Text) (pages : List PageModel)
    (summary : Text) (nativeError databaseError : Option Text) :
    ((t.setStatusMessage status).showPages rounding pages summary nativeError
        databaseError).state.vm.display =
      (EditorViewModel.setCurrentPage rounding nativeError
        (newObjects t.state.vm.nextId pages).head?
        { t.state.vm with
          statusMessage := status
          pages := newObjects t.state.vm.nextId pages
          nextId := t.state.vm.nextId + pages.length }).1.display := by
  rw [display_showPages]
  unfold Traced.setPages
  rw [Traced.vm_change, Traced.vm_setStatusMessage]

end Setter

/-! ## One operation -/

section OneStep

variable {culture : CompareInfo} {rounding : FloatRounding} {wpf : WpfMeasures}

/-- A page among new ones is not the one selected. -/
theorem currentPage_ne_newObject {vm : EditorViewModel} (h : FreshIds vm) (pages : List PageModel) :
    ∀ object, (newObjects vm.nextId pages).head? = some object →
      vm.currentPage.map PageObject.id ≠ some object.id := by
  intro object hhead
  obtain ⟨i, _, rfl⟩ := List.mem_mapIdx.mp (List.mem_of_head? hhead)
  exact currentPage_ne_new h.current (Nat.le_add_right _ i)

/-- New pages are shown: the fields are in step exactly when the first one gets its glyphs. -/
theorem inStep_showPages_iff {t : Traced} (hfresh : FreshIds t.state.vm)
    (hcount : t.state.vm.lastGlyphCount = t.state.vm.glyphs.length) (status : Text)
    (pages : List PageModel) (summary : Text) (nativeError databaseError : Option Text) :
    InStep rounding ((t.setStatusMessage status).showPages rounding pages summary nativeError
        databaseError).state.vm.display ↔
      Selection.GetsOwnGlyphs rounding t.state.vm
        ⟨(newObjects t.state.vm.nextId pages).head?, nativeError⟩ := by
  rw [display_showPages_status]
  exact @inStep_setCurrentPage_iff rounding _
    ⟨(newObjects t.state.vm.nextId pages).head?, nativeError⟩ hcount
    (fun _ hhead => List.mem_of_head? hhead) (currentPage_ne_newObject hfresh pages)

/-- Two-column pages are shown unless there is no text, no window or no page list. -/
theorem inStep_executeColumnLayout_iff {t : Traced} (hfresh : FreshIds t.state.vm)
    (hin : InStep rounding t.state.vm.display) (mainWindow : Bool)
    (result : Except Text (List PageModel)) (nativeError databaseError : Option Text) :
    InStep rounding (t.executeColumnLayout rounding mainWindow result nativeError
        databaseError).state.vm.display ↔
      SelectsWithOwnGlyphs culture rounding t.state.vm
        (.columnLayout mainWindow result nativeError databaseError) := by
  rcases @Traced.executeColumnLayout_cases rounding mainWindow result nativeError databaseError
    t with
    ⟨pages, summary, ⟨htext, rfl, rfl⟩, heq⟩ | ⟨hnone, hstatus⟩
  · rw [heq, inStep_showPages_iff hfresh hin.count_eq,
      selectsWithOwnGlyphs_iff (selects_of_column_pages htext pages nativeError databaseError)]
  · refine iff_of_true ?_ (selectsWithOwnGlyphs_of_none
      (selects_of_no_column_pages hnone nativeError databaseError))
    refine hstatus.keeps (fun u => InStep rounding u.state.vm.display) (fun u message hu => ?_) hin
    rw [Traced.vm_setStatusMessage]
    exact hu

/-- After an operation the fields agree exactly when the glyphs of what it selects are shown. -/
theorem selection_step_iff {s s' : WindowState} {op : WindowOperation}
    (hfresh : FreshIds s.model.vm) (hin : InStep rounding s.model.vm.display)
    (hstep : WindowStep culture rounding wpf s op s') :
    InStep rounding s'.model.vm.display ↔ SelectsWithOwnGlyphs culture rounding s.model.vm op := by
  have hids : FreshIds (Traced.start s.model).state.vm := hfresh
  have hcount : (Traced.start s.model).state.vm.lastGlyphCount =
      (Traced.start s.model).state.vm.glyphs.length := hin.count_eq
  cases hstep with
  | assignText value =>
      show InStep rounding
        (Traced.setText culture value (Traced.start s.model)).state.vm.display ↔ _
      rw [Traced.vm_setText, EditorViewModel.setText_display]
      exact iff_of_true hin (selectsWithOwnGlyphs_of_none rfl)
  | assignChapterTitle value => exact iff_of_true hin (selectsWithOwnGlyphs_of_none rfl)
  | layout nativeError databaseError pages hpages =>
      by_cases htext : s.model.vm.text = []
      · have hdisplay := (@EditorViewModel.executeLayout_of_text_nil rounding s.model.vm htext pages
          nativeError databaseError).1
        have hvm := @Traced.vm_executeLayout rounding pages nativeError databaseError
          (Traced.start s.model)
        show InStep rounding (Traced.executeLayout rounding pages nativeError databaseError
          (Traced.start s.model)).state.vm.display ↔ _
        rw [hvm]
        refine iff_of_true ?_ (selectsWithOwnGlyphs_of_none (if_pos htext))
        show InStep rounding (s.model.vm.executeLayout rounding pages nativeError
          databaseError).display
        rw [hdisplay]
        exact (inStep_none_iff rfl).mpr rfl
      · have hne : (Traced.start s.model).state.vm.text ≠ [] := htext
        show InStep rounding (Traced.executeLayout rounding pages nativeError databaseError
          (Traced.start s.model)).state.vm.display ↔ _
        rw [Traced.executeLayout_of_text hne, inStep_showPages_iff hids hcount,
          selectsWithOwnGlyphs_iff (selects_of_text htext hpages nativeError databaseError)]
        exact Iff.rfl
  | columnLayout mainWindow result nativeError databaseError =>
      exact @inStep_executeColumnLayout_iff culture rounding _ hids hin mainWindow result nativeError
        databaseError
  | assignCurrentPage page nativeError hmem =>
      show InStep rounding (Traced.setCurrentPage rounding nativeError page
        (Traced.start s.model)).1.state.vm.display ↔ _
      rw [Traced.vm_setCurrentPage_fst]
      by_cases hnew : s.model.vm.currentPage.map PageObject.id ≠ page.map PageObject.id
      · have hselects : selects culture s.model.vm (.assignCurrentPage page nativeError) =
            some ⟨page, nativeError⟩ := if_pos hnew
        rw [selectsWithOwnGlyphs_iff hselects]
        apply @inStep_setCurrentPage_iff rounding s.model.vm ⟨page, nativeError⟩ hin.count_eq hmem
        rintro object rfl
        exact hnew
      · have hsame : (EditorViewModel.setCurrentPage rounding nativeError page
            s.model.vm).1 = s.model.vm := by
          rw [EditorViewModel.setCurrentPage_eq, if_neg hnew]
        refine iff_of_true ?_ (selectsWithOwnGlyphs_of_none (if_neg hnew))
        show InStep rounding (EditorViewModel.setCurrentPage rounding nativeError page
          s.model.vm).1.display
        rw [hsame]
        exact hin

/-! ## A native call that succeeds -/

/-- New pages whose first one gets its glyphs are shown as they are, whatever was there before. -/
theorem restored_showPages {t : Traced} (hfresh : FreshIds t.state.vm) (canvas : GlyphCanvas)
    (status : Text) {pages : List PageModel} (summary : Text)
    {nativeError : Option Text} (databaseError : Option Text)
    (hloads : Selection.Loads ⟨(newObjects t.state.vm.nextId pages).head?, nativeError⟩) :
    let t' := (t.setStatusMessage status).showPages rounding pages summary nativeError databaseError
    InStep rounding t'.state.vm.display ∧ Followed wpf canvas t' := by
  intro t'
  obtain ⟨object, hhead, hlines, -⟩ := id hloads
  constructor
  · show InStep rounding (Traced.showPages rounding pages summary nativeError databaseError
      (t.setStatusMessage status)).state.vm.display
    rw [display_showPages_status]
    refine @inStep_of_loads rounding _ ⟨_, nativeError⟩ hloads
      (fun _ hobject => List.mem_of_head? hobject) ?_
    show t.state.vm.currentPage.map PageObject.id ≠
      (newObjects t.state.vm.nextId pages).head?.map PageObject.id
    dsimp only at hhead
    rw [hhead]
    exact currentPage_ne_newObject hfresh pages object hhead
  · cases pages with
    | nil => cases hhead
    | cons first rest =>
        rw [EditorViewModel.head?_newObjects] at hhead
        obtain rfl := Option.some.inj hhead
        exact followed_showPages hlines rest summary nativeError databaseError
          (hfresh.setStatusMessage status).current

/-- The step: after an operation whose native call succeeds the fields agree and are drawn. -/
theorem restored_step {s s' : WindowState} {op : WindowOperation} {selection : Selection}
    (hfresh : FreshIds s.model.vm) (hstep : WindowStep culture rounding wpf s op s')
    (hselects : selects culture s.model.vm op = some selection) (hloads : selection.Loads) :
    InStep rounding s'.model.vm.display ∧ CanvasInStep wpf s' := by
  have hids : FreshIds (Traced.start s.model).state.vm := hfresh
  cases hstep with
  | assignText value => cases hselects
  | assignChapterTitle value => cases hselects
  | layout nativeError databaseError pages hpages =>
      by_cases htext : s.model.vm.text = []
      · rw [show selects culture s.model.vm (.layout nativeError databaseError) = none from
          if_pos htext] at hselects
        cases hselects
      · have hne : (Traced.start s.model).state.vm.text ≠ [] := htext
        rw [selects_of_text htext hpages] at hselects
        obtain rfl := Option.some.inj hselects
        have hrestored := @restored_showPages rounding wpf _ hids s.canvas
          (utf16 "מבצע עימוד...") pages (PaginationEngine.getPaginationSummary pages) nativeError
          databaseError hloads
        dsimp only at hrestored
        rw [← Traced.executeLayout_of_text hne] at hrestored
        exact hrestored
  | columnLayout mainWindow result nativeError databaseError =>
      rcases @Traced.executeColumnLayout_cases rounding mainWindow result nativeError databaseError
        (Traced.start s.model) with ⟨pages, summary, ⟨htext, rfl, rfl⟩, heq⟩ | ⟨hnone, -⟩
      · have hne : s.model.vm.text ≠ [] := htext
        rw [selects_of_column_pages hne] at hselects
        obtain rfl := Option.some.inj hselects
        have hrestored := @restored_showPages rounding wpf _ hids s.canvas
          (utf16 "מבצע עימוד דו-טורי...") pages summary nativeError databaseError hloads
        dsimp only at hrestored
        rw [← heq] at hrestored
        exact hrestored
      · have hne : s.model.vm.text ≠ [] → mainWindow = true → ∀ pages, result ≠ .ok pages := hnone
        rw [selects_of_no_column_pages hne] at hselects
        cases hselects
  | assignCurrentPage page nativeError hmem =>
      unfold selects at hselects
      dsimp only at hselects
      split at hselects
      · rename_i hnew
        obtain rfl := Option.some.inj hselects
        obtain ⟨object, hvalue, hlines, -⟩ := id hloads
        constructor
        · show InStep rounding (Traced.setCurrentPage rounding nativeError page
            (Traced.start s.model)).1.state.vm.display
          rw [Traced.vm_setCurrentPage_fst]
          exact @inStep_of_loads rounding s.model.vm ⟨page, nativeError⟩ hloads hmem hnew
        · refine followed_setCurrentPage nativeError hnew fun other hother => ?_
          obtain rfl := Option.some.inj (hvalue.symm.trans hother)
          exact hlines
      · cases hselects

end OneStep

/-! ## Runs -/

/-- In every run pages, selection, glyphs and their number agree in all states exactly when no
operation leaves what it selects with the glyphs of another page. -/
theorem selection_in_step_iff (culture : CompareInfo) (rounding : FloatRounding)
    (wpf : WpfMeasures) (moves : List (Transition.Move WindowState WindowOperation))
    (hrun : Transition.Run (WindowStep culture rounding wpf) {} moves) :
    (∀ s ∈ Transition.visited {} moves, InStep rounding s.model.vm.display) ↔
      ∀ move ∈ moves, SelectsWithOwnGlyphs culture rounding move.before.model.vm move.action := by
  have hexact : ∀ s op s', FreshIds s.model.vm → InStep rounding s.model.vm.display →
      WindowStep culture rounding wpf s op s' →
      (InStep rounding s'.model.vm.display ↔ SelectsWithOwnGlyphs culture rounding s.model.vm op) :=
    fun _ _ _ hfresh hin hstep => selection_step_iff hfresh hin hstep
  exact Transition.Run.forall_visited_iff (freshIds_step culture rounding wpf) hexact hrun
    freshIds_initial
    (EditorViewModel.inStep_initial rounding)

theorem selection_in_step_session :
    (∀ move ∈ windowSession,
        SelectsWithOwnGlyphs .ordinal .exact move.before.model.vm move.action) ∧
      ∀ s ∈ Transition.visited {} windowSession, InStep .exact s.model.vm.display := by
  have hok : ∀ move ∈ windowSession,
      SelectsWithOwnGlyphs .ordinal .exact move.before.model.vm move.action := by
    intro move hmove
    rcases List.mem_pair.mp hmove with rfl | rfl
    · exact selectsWithOwnGlyphs_of_none rfl
    · obtain ⟨selection, hselects, hloads⟩ := selects_layout mainText_typedWindow none none
      rw [selectsWithOwnGlyphs_iff hselects]
      exact .inl (hloads rfl)
  exact ⟨hok, (selection_in_step_iff .ordinal .exact flatWpf windowSession
    run_windowSession).mpr hok⟩

/-- In every run, whatever has come apart before, an operation whose native call succeeds leaves
pages, selection, glyphs and their number in agreement, and the canvas showing them. -/
theorem restored_by_load (culture : CompareInfo) (rounding : FloatRounding) (wpf : WpfMeasures)
    (moves : List (Transition.Move WindowState WindowOperation))
    (hrun : Transition.Run (WindowStep culture rounding wpf) {} moves)
    (move : Transition.Move WindowState WindowOperation) (hmove : move ∈ moves)
    (selection : Selection)
    (hselects : selects culture move.before.model.vm move.action = some selection)
    (hloads : selection.Loads) :
    InStep rounding move.after.model.vm.display ∧ CanvasInStep wpf move.after := by
  obtain ⟨hfresh, hstep⟩ := hrun.forall_move (freshIds_step culture rounding wpf) freshIds_initial
    move hmove
  exact restored_step hfresh hstep hselects hloads

/-! ## A session: the native library fails once -/

def failedWindow : WindowState :=
  typedWindow.told flatWpf ((Traced.start typedWindow.model).executeLayout .exact
    [EditorViewModel.typedPage] (some (utf16 "x")) none)

def retriedWindow : WindowState :=
  failedWindow.told flatWpf ((Traced.start failedWindow.model).executeLayout .exact
    [EditorViewModel.typedPage] none none)

def retriedSession : List (Transition.Move WindowState WindowOperation) :=
  [⟨{}, .assignText (utf16 "a"), typedWindow⟩,
    ⟨typedWindow, .layout (some (utf16 "x")) none, failedWindow⟩,
    ⟨failedWindow, .layout none none, retriedWindow⟩]

theorem text_failedWindow : failedWindow.model.vm.text = utf16 "a" := by decide +kernel

theorem mainText_failedWindow :
    (extractContentAndFootnotes .ordinal failedWindow.model.vm.text).mainText ≠ [] := by
  rw [text_failedWindow]
  decide +kernel

theorem run_retriedSession :
    Transition.Run (WindowStep .ordinal .exact flatWpf) {} retriedSession := by
  have htyped : WindowStep .ordinal .exact flatWpf typedWindow
      (.layout (some (utf16 "x")) none) failedWindow := by
    apply WindowStep.layout
    exact PaginationEngine.paginates_of_mainText_fits mainText_typedWindow
      (PaginationEngine.calculateLineHeight_default_le _)
  have hfailed : WindowStep .ordinal .exact flatWpf failedWindow (.layout none none)
      retriedWindow := by
    apply WindowStep.layout
    exact PaginationEngine.paginates_of_mainText_fits mainText_failedWindow
      (PaginationEngine.calculateLineHeight_default_le _)
  exact .move (WindowStep.assignText {} _) (.move htyped (.move hfailed (.stop retriedWindow)))

/-- After the failure a page without its glyph is selected; the second try repairs it. -/
theorem restored_by_load_session :
    ¬InStep .exact failedWindow.model.vm.display ∧
      InStep .exact retriedWindow.model.vm.display ∧ CanvasInStep flatWpf retriedWindow := by
  constructor
  · intro hin
    have hglyphs : failedWindow.model.vm.glyphs =
        glyphsFor .exact failedWindow.model.vm.currentPage := hin.glyphs_eq
    have hshown : failedWindow.model.vm.glyphs.length = 0 := by decide +kernel
    have hpage : (glyphsFor .exact failedWindow.model.vm.currentPage).length = 1 := by
      decide +kernel
    rw [hglyphs, hpage] at hshown
    exact absurd hshown (by decide)
  · have hmem : (⟨failedWindow, .layout none none, retriedWindow⟩ :
        Transition.Move WindowState WindowOperation) ∈ retriedSession :=
      List.mem_cons_of_mem _ (List.mem_cons_of_mem _ List.mem_cons_self)
    obtain ⟨selection, hselects, hloads⟩ := selects_layout mainText_failedWindow none none
    exact restored_by_load .ordinal .exact flatWpf retriedSession run_retriedSession _ hmem
      selection hselects (hloads rfl)

end MainWindow

end Typesetting
