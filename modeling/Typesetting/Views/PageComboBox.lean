/-
# Typesetting.Views.PageComboBox -- the list of pages writes back, and nothing comes of it

The combo box of the pages is bound to `Pages` and `CurrentPage`, to the latter both ways. When a
layout clears the pages, the page selected is gone from its items, so it selects nothing and assigns
null to `CurrentPage` in the middle of the layout. The setter announces this, and the window draws
the old glyphs without their notes.

All of this is undone before the layout is over. The setter makes no native call for null, the
layout selects a page or null itself, and the drawing that follows leaves nothing of the one before,
not even its height: both are drawn from the same glyphs. So the states a window goes through, with
what is on its canvas, are the same with the combo box and without it.
-/
import Typesetting.Views.CanvasInStep

namespace Typesetting

namespace MainWindow

/-- `SelectedItem="{Binding CurrentPage}"` when the items are cleared. -/
def comboBoxCleared (rounding : FloatRounding) (t : Traced) : Traced :=
  (t.setCurrentPage rounding none none).1

/-- The pages are left alone. -/
def LeavesPages : WindowOperation → Prop
  | .layout _ _ => False
  | .columnLayout _ _ _ _ => False
  | _ => True

/-- One operation in a window with the combo box. -/
inductive ComboBoxStep (culture : CompareInfo) (rounding : FloatRounding) (wpf : WpfMeasures) :
    WindowState → WindowOperation → WindowState → Prop
  | layout (s : WindowState) (nativeError databaseError : Option Text) (pages : List PageModel) :
      EditorViewModel.paginationEngine.Paginates culture s.model.vm.text pages →
      ComboBoxStep culture rounding wpf s (.layout nativeError databaseError)
        (s.told wpf ((Traced.start s.model).executeLayoutWith (comboBoxCleared rounding) rounding
          pages nativeError databaseError))
  | columnLayout (s : WindowState) (mainWindow : Bool) (result : Except Text (List PageModel))
      (nativeError databaseError : Option Text) :
      ComboBoxStep culture rounding wpf s
        (.columnLayout mainWindow result nativeError databaseError)
        (s.told wpf ((Traced.start s.model).executeColumnLayoutWith (comboBoxCleared rounding)
          rounding mainWindow result nativeError databaseError))
  | other {s s' : WindowState} {op : WindowOperation} :
      LeavesPages op → WindowStep culture rounding wpf s op s' →
      ComboBoxStep culture rounding wpf s op s'

section WriteBack

variable {culture : CompareInfo} {rounding : FloatRounding} {wpf : WpfMeasures}
  {canvas : GlyphCanvas} {t : Traced}

/-! ## What the window cannot tell apart -/

/-- The same state, and the same on the canvas when everything raised has been handled. -/
def SameTold (wpf : WpfMeasures) (canvas : GlyphCanvas) (t t' : Traced) : Prop :=
  t.state = t'.state ∧
    t.raised.foldl (onViewModelPropertyChanged wpf) canvas =
      t'.raised.foldl (onViewModelPropertyChanged wpf) canvas

theorem SameTold.refl (t : Traced) : SameTold wpf canvas t t :=
  ⟨rfl, rfl⟩

theorem congruence_told (wpf : WpfMeasures) (canvas : GlyphCanvas) :
    Traced.Congruence (SameTold wpf canvas) where
  vm_eq h := congrArg TitledViewModel.vm h.1
  change f h := by
    refine ⟨?_, h.2⟩
    unfold Traced.change
    rw [h.1]
  raise property h := by
    refine ⟨h.1, ?_⟩
    unfold Traced.raise
    rw [List.foldl_append, List.foldl_append, h.1, h.2]

/-- A drawing leaves nothing of the one before that was made of the same glyphs. -/
theorem drawGlyphs_drawGlyphs (glyphs : List GlyphInfo)
    (footnotes footnotes' : NoteSystem → List Text) (chapterTitle chapterTitle' : Text)
    (pageNumber pageNumber' : Nat) (canvas : GlyphCanvas) :
    drawGlyphs wpf glyphs footnotes chapterTitle pageNumber
        (drawGlyphs wpf glyphs footnotes' chapterTitle' pageNumber' canvas) =
      drawGlyphs wpf glyphs footnotes chapterTitle pageNumber canvas := by
  unfold drawGlyphs
  split <;> rfl

/-- An announcement of `CurrentPage` makes up for one before it. -/
theorem sameTold_raise_twice {u : Traced} {before : TitledViewModel} (hstate : u.state = t.state)
    (hraised : u.raised = t.raised ++ [⟨.currentPage, before⟩])
    (hglyphs : before.vm.glyphs = t.state.vm.glyphs) :
    SameTold wpf canvas (u.raise .currentPage) (t.raise .currentPage) := by
  refine ⟨hstate, ?_⟩
  unfold Traced.raise
  rw [hraised, hstate, List.foldl_append, List.foldl_append, List.foldl_append]
  show onViewModelPropertyChanged wpf (onViewModelPropertyChanged wpf _ ⟨.currentPage, before⟩)
    ⟨.currentPage, t.state⟩ = onViewModelPropertyChanged wpf _ ⟨.currentPage, t.state⟩
  unfold onViewModelPropertyChanged
  rw [if_pos (.inr rfl), if_pos (.inr rfl), if_pos (.inr rfl)]
  dsimp only
  rw [hglyphs]
  exact drawGlyphs_drawGlyphs _ _ _ _ _ _ _ _

/-! ## The layouts -/

theorem comboBoxCleared_of_none (hcurrent : t.state.vm.currentPage = none) :
    comboBoxCleared rounding t = t := by
  unfold comboBoxCleared Traced.setCurrentPage
  rw [if_neg (by simp [hcurrent])]

theorem comboBoxCleared_of_some (hcurrent : t.state.vm.currentPage ≠ none) :
    comboBoxCleared rounding t =
      (t.change fun vm => { vm with currentPage := none }).raise .currentPage := by
  unfold comboBoxCleared Traced.setCurrentPage
  rw [if_pos (by simpa using hcurrent)]

theorem nextId_comboBoxCleared (t : Traced) :
    (comboBoxCleared rounding t).state.vm.nextId = t.state.vm.nextId := by
  by_cases hcurrent : t.state.vm.currentPage = none
  · rw [comboBoxCleared_of_none hcurrent]
  · rw [comboBoxCleared_of_some hcurrent]
    rfl

/-- Selecting null twice is selecting null. -/
theorem setCurrentPage_comboBoxCleared (nativeError : Option Text) (t : Traced) :
    (comboBoxCleared rounding t).setCurrentPage rounding nativeError none =
      t.setCurrentPage rounding nativeError none := by
  by_cases hcurrent : t.state.vm.currentPage = none
  · rw [comboBoxCleared_of_none hcurrent]
  · have hsome : t.state.vm.currentPage.map PageObject.id ≠
        (none : Option PageObject).map PageObject.id := by simpa using hcurrent
    rw [comboBoxCleared_of_some hcurrent]
    unfold Traced.setCurrentPage
    rw [if_pos hsome]
    rfl

/-- Selecting the first of the new pages leads to the same, and to the same message. -/
theorem sameTold_select (hfresh : FreshIds t.state.vm) (pages : List PageModel)
    (nativeError : Option Text) :
    let written := comboBoxCleared rounding (t.change fun vm => { vm with pages := [] })
    let value := (EditorViewModel.newObjects t.state.vm.nextId pages).head?
    SameTold wpf canvas ((written.setPages pages).setCurrentPage rounding nativeError value).1
        ((t.setPages pages).setCurrentPage rounding nativeError value).1 ∧
      ((written.setPages pages).setCurrentPage rounding nativeError value).2 =
        ((t.setPages pages).setCurrentPage rounding nativeError value).2 := by
  intro written value
  by_cases hcurrent : t.state.vm.currentPage = none
  · have hsame : written = t.change fun vm => { vm with pages := [] } :=
      comboBoxCleared_of_none hcurrent
    rw [hsame]
    exact ⟨SameTold.refl _, rfl⟩
  · have hwritten : written = ((t.change fun vm => { vm with pages := [] }).change fun vm =>
        { vm with currentPage := none }).raise .currentPage := comboBoxCleared_of_some hcurrent
    cases pages with
    | nil =>
        -- null is selected in both, in one of them already before
        have hdone : (written.setPages []).setCurrentPage rounding nativeError none =
            (written.setPages [], none) := by
          rw [hwritten]
          exact if_neg (not_not.mpr rfl)
        have hselect : (t.setPages []).setCurrentPage rounding nativeError none =
            (written.setPages [], none) := by
          have hsome : t.state.vm.currentPage.map PageObject.id ≠
              (none : Option PageObject).map PageObject.id := by simpa using hcurrent
          rw [hwritten]
          exact if_pos hsome
        have hvalue : value = none := rfl
        rw [hvalue, hdone, hselect]
        exact ⟨SameTold.refl _, rfl⟩
    | cons first rest =>
        have hvalue : value = some ⟨t.state.vm.nextId, first⟩ :=
          EditorViewModel.head?_newObjects _ first rest
        let select := fun u : Traced =>
          (u.change fun vm => { vm with currentPage := value }).raise .currentPage
        have hdrawn : SameTold wpf canvas (select (written.setPages (first :: rest)))
            (select (t.setPages (first :: rest))) := by
          rw [hwritten]
          exact sameTold_raise_twice rfl rfl rfl
        have hold : t.state.vm.currentPage.map PageObject.id ≠ value.map PageObject.id := by
          rw [hvalue]
          exact currentPage_ne_new hfresh.current le_rfl
        have hnew : ∀ u : Traced, u.state.vm.currentPage.map PageObject.id ≠
            value.map PageObject.id → u.setCurrentPage rounding nativeError value =
              (select u).loadGlyphsForPage rounding nativeError first := by
          intro u hne
          unfold Traced.setCurrentPage
          rw [if_pos hne]
          simp only [select, hvalue]
        have hnone : (written.setPages (first :: rest)).state.vm.currentPage.map PageObject.id ≠
            value.map PageObject.id := by
          rw [hwritten, hvalue]
          exact nofun
        rw [hnew _ hnone, hnew (t.setPages (first :: rest)) hold]
        exact (congruence_told wpf canvas).loadGlyphsForPage nativeError first hdrawn

/-- The pages are shown as they are without the combo box. -/
theorem sameTold_showPagesWith (hfresh : FreshIds t.state.vm) (pages : List PageModel)
    (summary : Text) (nativeError databaseError : Option Text) :
    SameTold wpf canvas
      (t.showPagesWith (comboBoxCleared rounding) rounding pages summary nativeError databaseError)
      (t.showPages rounding pages summary nativeError databaseError) := by
  have hid : (comboBoxCleared rounding
      (t.change fun vm => { vm with pages := [] })).state.vm.nextId = t.state.vm.nextId :=
    nextId_comboBoxCleared _
  have hselect := @sameTold_select rounding wpf canvas t hfresh pages nativeError
  rw [Traced.showPages_eq]
  unfold Traced.showPagesWith
  dsimp only [Traced.setPages, Traced.vm_change] at hselect ⊢
  rw [hid]
  exact (congruence_told wpf canvas).finishLayout summary databaseError hselect

/-- The layout of an empty text selects null where the combo box has selected it. -/
theorem executeLayoutWith_of_empty (htext : t.state.vm.text = []) (pages : List PageModel)
    (nativeError databaseError : Option Text) :
    t.executeLayoutWith (comboBoxCleared rounding) rounding pages nativeError databaseError =
      t.executeLayout rounding pages nativeError databaseError := by
  rw [Traced.executeLayout_of_empty htext]
  unfold Traced.executeLayoutWith
  rw [if_pos htext]
  dsimp only
  rw [setCurrentPage_comboBoxCleared]
  rfl

theorem sameTold_executeLayoutWith (hfresh : FreshIds t.state.vm) (pages : List PageModel)
    (nativeError databaseError : Option Text) :
    SameTold wpf canvas
      (t.executeLayoutWith (comboBoxCleared rounding) rounding pages nativeError databaseError)
      (t.executeLayout rounding pages nativeError databaseError) := by
  by_cases htext : t.state.vm.text = []
  · rw [executeLayoutWith_of_empty htext]
    exact SameTold.refl _
  · rw [Traced.executeLayout_of_text htext]
    unfold Traced.executeLayoutWith
    rw [if_neg htext]
    exact sameTold_showPagesWith (hfresh.setStatusMessage _) pages _ nativeError databaseError

theorem sameTold_executeColumnLayoutWith (hfresh : FreshIds t.state.vm) (mainWindow : Bool)
    (result : Except Text (List PageModel)) (nativeError databaseError : Option Text) :
    SameTold wpf canvas
      (t.executeColumnLayoutWith (comboBoxCleared rounding) rounding mainWindow result nativeError
        databaseError)
      (t.executeColumnLayout rounding mainWindow result nativeError databaseError) := by
  unfold Traced.executeColumnLayout Traced.executeColumnLayoutWith
  split
  · exact SameTold.refl _
  · dsimp only
    split
    · exact SameTold.refl _
    · cases result with
      | error message => exact SameTold.refl _
      | ok pages =>
          exact sameTold_showPagesWith (hfresh.setStatusMessage _) pages _ nativeError databaseError

/-! ## Steps and runs -/

theorem told_eq {s : WindowState} {t t' : Traced} (h : SameTold wpf s.canvas t t') :
    s.told wpf t = s.told wpf t' := by
  unfold WindowState.told
  rw [h.1, h.2]

/-- The step: an operation leads to the same window. -/
theorem comboBoxStep_iff {s s' : WindowState} {op : WindowOperation}
    (hfresh : FreshIds s.model.vm) :
    ComboBoxStep culture rounding wpf s op s' ↔ WindowStep culture rounding wpf s op s' := by
  have hids : FreshIds (Traced.start s.model).state.vm := hfresh
  have hlayout : ∀ nativeError databaseError pages, _ := fun nativeError databaseError pages =>
    told_eq (@sameTold_executeLayoutWith rounding wpf s.canvas _ hids pages nativeError
      databaseError)
  have hcolumns : ∀ mainWindow result nativeError databaseError, _ :=
    fun mainWindow result nativeError databaseError =>
      told_eq (@sameTold_executeColumnLayoutWith rounding wpf s.canvas _ hids mainWindow result
        nativeError databaseError)
  constructor
  · intro hstep
    cases hstep with
    | layout nativeError databaseError pages hpages =>
        rw [hlayout]
        exact .layout s nativeError databaseError pages hpages
    | columnLayout mainWindow result nativeError databaseError =>
        rw [hcolumns]
        exact .columnLayout s mainWindow result nativeError databaseError
    | other _ hstep => exact hstep
  · intro hstep
    cases hstep with
    | layout nativeError databaseError pages hpages =>
        rw [← hlayout]
        exact .layout s nativeError databaseError pages hpages
    | columnLayout mainWindow result nativeError databaseError =>
        rw [← hcolumns]
        exact .columnLayout s mainWindow result nativeError databaseError
    | assignText value => exact .other trivial (.assignText s value)
    | assignChapterTitle value => exact .other trivial (.assignChapterTitle s value)
    | assignCurrentPage page nativeError hmem =>
        exact .other trivial (.assignCurrentPage s page nativeError hmem)

end WriteBack

/-- The runs of the window are the same with the combo box and without it: whatever is done, the
fields, the title and the canvas are the same after every operation. -/
theorem comboBox_run_iff (culture : CompareInfo) (rounding : FloatRounding) (wpf : WpfMeasures)
    (moves : List (Transition.Move WindowState WindowOperation)) :
    Transition.Run (ComboBoxStep culture rounding wpf) {} moves ↔
      Transition.Run (WindowStep culture rounding wpf) {} moves :=
  Transition.run_congr (freshIds_step culture rounding wpf)
    (fun _ _ _ hfresh => comboBoxStep_iff hfresh) freshIds_initial

end MainWindow

end Typesetting
