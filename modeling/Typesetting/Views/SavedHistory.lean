/-
# Typesetting.Views.SavedHistory -- what the database tells of the layouts

Every layout that is not interrupted saves one line of text: the text that was laid out, with the
number of pages and a number of glyphs behind it. The text may hold the same words itself, but the
two numbers are read from the end, so each line tells these three. In every run the lines a window
has saved are those of its layouts that got this far, in order.

The number of glyphs is that of the last native call that succeeded, unless a layout without a text
has set it to 0 since. The call is made for the page the layout shows first; where this page has no
lines, or there is none, the number is left over from what was done before. What the database held
when the window was opened is not looked at.
-/
import Typesetting.Text.Numerals
import Typesetting.Views.SelectionInStep

namespace Typesetting

namespace MainWindow

open EditorViewModel (glyphsFor newObjects)

/-! ## One line -/

/-- What is saved of a layout; `glyphs` is the number of glyphs counted last. -/
structure SavedLayout where
  text : Text
  pages : ℕ
  glyphs : ℕ

/-- `content.Content` of `SaveToDatabase()` -/
def SavedLayout.content (saved : SavedLayout) : Text :=
  saved.text ++ utf16 " (Pages: " ++ natToText saved.pages ++ utf16 ", Glyphs: " ++
    natToText saved.glyphs ++ utf16 ")"

/-- A numeral behind a text that ends in a blank is told from it. -/
theorem append_natToText_injective {u v : Text} {m n : ℕ} (hu : u.getLast? = some space)
    (hv : v.getLast? = some space) (h : u ++ natToText m = v ++ natToText n) : u = v ∧ m = n := by
  have hdigit : ∀ k, ∀ c ∈ natToText k, 48 ≤ c.toNat := fun k c hc => (mem_natToText hc).1
  have hblank : ∀ {w : Text}, w.getLast? = some space → ∀ c ∈ w.getLast?, ¬ 48 ≤ c.toNat := by
    intro w hw c hc
    rw [hw] at hc
    obtain rfl := Option.mem_some_iff.mp hc
    decide
  obtain ⟨hsame, hnumerals⟩ := Segment.append_injective_of_kind h (hdigit m) (hdigit n)
    (hblank hu) (hblank hv)
  exact ⟨hsame, natToText_injective hnumerals⟩

/-- A line tells the layout. -/
theorem content_injective : Function.Injective SavedLayout.content := by
  rintro ⟨text, pages, glyphs⟩ ⟨text', pages', glyphs'⟩ h
  have hblank : ∀ (t : Text) (s : Text), s.getLast? = some space →
      (t ++ s).getLast? = some space := by
    intro t s hs
    rw [List.getLast?_append, hs]
    rfl
  have hglyphs := append_natToText_injective
    (hblank _ (utf16 ", Glyphs: ") (by decide)) (hblank _ (utf16 ", Glyphs: ") (by decide))
    (List.append_cancel_right h)
  have hpages := append_natToText_injective
    (hblank _ (utf16 " (Pages: ") (by decide)) (hblank _ (utf16 " (Pages: ") (by decide))
    (List.append_cancel_right hglyphs.1)
  have htext := List.append_cancel_right hpages.1
  dsimp only at hglyphs hpages htext
  rw [hglyphs.2, hpages.2, htext]

/-! ## Which layouts are saved -/

/-- The glyphs the native call counts for a page, if it is made and does not throw. -/
def glyphsCounted (nativeError : Option Text) (page : PageModel) : Option ℕ :=
  if page.allMainLines = [] then none
  else if nativeError = none then
    some ((EditorViewModel.mainContent page).takeWhile (· != 0)).length
  else none

/-- The glyphs counted for what is selected. -/
def Selection.counted (selection : Selection) : Option ℕ :=
  selection.value.bind fun object => glyphsCounted selection.nativeError object.page

/-- What an operation makes the number of glyphs, if anything. -/
def countedBy (culture : CompareInfo) (vm : EditorViewModel) : WindowOperation → Option ℕ
  | .layout nativeError databaseError =>
    if vm.text = [] then some 0
    else (selects culture vm (.layout nativeError databaseError)).bind Selection.counted
  | op => (selects culture vm op).bind Selection.counted

/-- What is saved when pages are shown; a native call that throws ends the layout. -/
def savedPages (text : Text) (glyphs : ℕ) (nativeError : Option Text) :
    List PageModel → Option SavedLayout
  | [] => some ⟨text, 0, glyphs⟩
  | first :: rest =>
    if first.allMainLines ≠ [] ∧ nativeError ≠ none then none
    else some ⟨text, rest.length + 1, glyphs⟩

/-- What an operation saves, where it leaves the number of glyphs at `glyphs`. -/
def savedBy (culture : CompareInfo) (glyphs : ℕ) (vm : EditorViewModel) :
    WindowOperation → Option SavedLayout
  | .layout nativeError none =>
    if vm.text = [] then none
    else savedPages vm.text glyphs nativeError (laidOutPages culture vm.text)
  | .columnLayout true (.ok pages) nativeError none =>
    if vm.text = [] then none else savedPages vm.text glyphs nativeError pages
  | _ => none

/-- What the layouts of a run save; the number of glyphs is handed on from move to move. -/
def savedHistory (culture : CompareInfo)
    (moves : List (Transition.Move WindowState WindowOperation)) : List SavedLayout :=
  let next := fun glyphs (move : Transition.Move WindowState WindowOperation) =>
    (countedBy culture move.before.model.vm move.action).getD glyphs
  Transition.recorded next
    (fun glyphs move =>
      (savedBy culture (next glyphs move) move.before.model.vm move.action).toList) 0 moves

/-! ### The number of glyphs -/

section Counted

variable {culture : CompareInfo} {rounding : FloatRounding} {wpf : WpfMeasures}

/-- The setter leaves the number of glyphs it has counted, or the one that was there. -/
theorem counted_setCurrentPage {vm : EditorViewModel} (selection : Selection)
    (hnew : ∀ object, selection.value = some object →
      vm.currentPage.map PageObject.id ≠ some object.id) :
    (vm.setCurrentPage rounding selection.nativeError selection.value).1.lastGlyphCount =
      selection.counted.getD vm.lastGlyphCount := by
  obtain ⟨value, nativeError⟩ := selection
  cases value with
  | none =>
      rw [EditorViewModel.setCurrentPage_none]
      rfl
  | some object =>
      have hdisplay := @setCurrentPage_display rounding vm object nativeError (hnew object rfl)
      have hcount := congrArg EditorViewModel.Display.lastGlyphCount hdisplay
      refine hcount.trans ?_
      show _ = (glyphsCounted nativeError object.page).getD _
      unfold glyphsCounted
      by_cases hlines : object.page.allMainLines = []
      · rw [if_pos hlines, if_pos hlines]
        rfl
      · rw [if_neg hlines, if_neg hlines]
        by_cases hnative : nativeError = none
        · rw [if_pos hnative, if_pos hnative]
          show (glyphsFor rounding (some object)).length = _
          rw [glyphsFor, if_neg hlines, length_layoutResult]
          rfl
        · rw [if_neg hnative, if_neg hnative]
          rfl

theorem counted_showPages {t : Traced} (hfresh : FreshIds t.state.vm) (status : Text)
    (pages : List PageModel) (summary : Text) (nativeError databaseError : Option Text) :
    ((t.setStatusMessage status).showPages rounding pages summary nativeError
        databaseError).state.vm.lastGlyphCount =
      (Selection.counted ⟨(newObjects t.state.vm.nextId pages).head?, nativeError⟩).getD
        t.state.vm.lastGlyphCount := by
  have hdisplay := @display_showPages_status rounding t status pages summary nativeError
    databaseError
  refine (congrArg EditorViewModel.Display.lastGlyphCount hdisplay).trans ?_
  exact counted_setCurrentPage ⟨(newObjects t.state.vm.nextId pages).head?, nativeError⟩
    (currentPage_ne_newObject hfresh pages)

theorem counted_of_status {t t' : Traced} (h : t.StatusOnly t') :
    t'.state.vm.lastGlyphCount = t.state.vm.lastGlyphCount ∧
      t'.state.vm.savedContent = t.state.vm.savedContent := by
  refine h.keeps (fun u => u.state.vm.lastGlyphCount = t.state.vm.lastGlyphCount ∧
    u.state.vm.savedContent = t.state.vm.savedContent) (fun u message hu => ?_) ⟨rfl, rfl⟩
  rw [Traced.vm_setStatusMessage]
  exact hu

/-- Every operation leaves the number it has counted, or the one that was there. -/
theorem counted_step {s s' : WindowState} {op : WindowOperation} (hfresh : FreshIds s.model.vm)
    (hstep : WindowStep culture rounding wpf s op s') :
    s'.model.vm.lastGlyphCount =
      (countedBy culture s.model.vm op).getD s.model.vm.lastGlyphCount := by
  have hids : FreshIds (Traced.start s.model).state.vm := hfresh
  cases hstep with
  | assignText value =>
      have hdisplay : (Traced.setText culture value (Traced.start s.model)).state.vm.display =
          s.model.vm.display := by
        rw [Traced.vm_setText, EditorViewModel.setText_display]
        rfl
      exact congrArg EditorViewModel.Display.lastGlyphCount hdisplay
  | assignChapterTitle value => rfl
  | layout nativeError databaseError pages hpages =>
      by_cases htext : s.model.vm.text = []
      · have hdisplay : (Traced.executeLayout rounding pages nativeError databaseError
            (Traced.start s.model)).state.vm.display = ⟨[], none, [], 0⟩ := by
          rw [Traced.vm_executeLayout]
          exact (@EditorViewModel.executeLayout_of_text_nil rounding s.model.vm htext pages
            nativeError databaseError).1
        dsimp only [countedBy]
        rw [if_pos htext]
        exact congrArg EditorViewModel.Display.lastGlyphCount hdisplay
      · have hne : (Traced.start s.model).state.vm.text ≠ [] := htext
        dsimp only [countedBy]
        rw [if_neg htext, selects_of_text htext hpages]
        show (Traced.executeLayout rounding pages nativeError databaseError
          (Traced.start s.model)).state.vm.lastGlyphCount = _
        rw [Traced.executeLayout_of_text hne]
        exact counted_showPages hids _ pages _ nativeError databaseError
  | columnLayout mainWindow result nativeError databaseError =>
      show (Traced.executeColumnLayout rounding mainWindow result nativeError databaseError
        (Traced.start s.model)).state.vm.lastGlyphCount =
          ((selects culture s.model.vm _).bind Selection.counted).getD _
      rcases @Traced.executeColumnLayout_cases rounding mainWindow result nativeError databaseError
        (Traced.start s.model) with ⟨pages, summary, ⟨htext, rfl, rfl⟩, heq⟩ | ⟨hnone, hstatus⟩
      · have hne : s.model.vm.text ≠ [] := htext
        rw [heq, selects_of_column_pages hne]
        exact counted_showPages hids _ pages summary nativeError databaseError
      · have hne : s.model.vm.text ≠ [] → mainWindow = true → ∀ pages, result ≠ .ok pages := hnone
        rw [selects_of_no_column_pages hne]
        exact (counted_of_status hstatus).1
  | assignCurrentPage page nativeError hmem =>
      show (Traced.setCurrentPage rounding nativeError page
        (Traced.start s.model)).1.state.vm.lastGlyphCount =
          ((selects culture s.model.vm _).bind Selection.counted).getD _
      rw [Traced.vm_setCurrentPage_fst]
      by_cases hnew : s.model.vm.currentPage.map PageObject.id ≠ page.map PageObject.id
      · have hselects : selects culture s.model.vm (.assignCurrentPage page nativeError) =
            some ⟨page, nativeError⟩ := if_pos hnew
        rw [hselects]
        apply counted_setCurrentPage ⟨page, nativeError⟩
        rintro object rfl
        exact hnew
      · have hselects : selects culture s.model.vm (.assignCurrentPage page nativeError) = none :=
          if_neg hnew
        have hsame : (Traced.start s.model).state.vm.currentPage.map PageObject.id =
            page.map PageObject.id := not_not.mp hnew
        rw [hselects, EditorViewModel.setCurrentPage_eq, if_neg (not_not.mpr hsame)]
        rfl

end Counted

/-! ### The lines -/

section Saved

variable {culture : CompareInfo} {rounding : FloatRounding} {wpf : WpfMeasures}

/-- A layout is interrupted where the setter returns with the message of the native call. -/
theorem savedPages_eq {vm vm' : EditorViewModel} {error nativeError : Option Text}
    (hfresh : FreshIds vm) {pages : List PageModel}
    (hset : EditorViewModel.setCurrentPage rounding nativeError (newObjects vm.nextId pages).head?
      { vm with
        pages := newObjects vm.nextId pages
        nextId := vm.nextId + pages.length } = (vm', error)) (text : Text) (glyphs : ℕ) :
    savedPages text glyphs nativeError pages =
      if error = none then some ⟨text, pages.length, glyphs⟩ else none := by
  have herror := congrArg Prod.snd hset
  cases pages with
  | nil =>
      have hnone : none = error := by
        rwa [show (newObjects vm.nextId []).head? = none from rfl,
          EditorViewModel.setCurrentPage_none] at herror
      rw [← hnone]
      rfl
  | cons first rest =>
      have hnew : vm.currentPage.map PageObject.id ≠ some vm.nextId :=
        currentPage_ne_new hfresh.current le_rfl
      rw [EditorViewModel.head?_newObjects, EditorViewModel.setCurrentPage_of_ne hnew,
        EditorViewModel.loadGlyphsForPage_error] at herror
      dsimp only [savedPages] at herror ⊢
      rw [← herror]
      by_cases hlines : first.allMainLines = []
      · rw [if_neg (fun h => h.1 hlines), if_pos hlines, if_pos rfl]
        rfl
      · rw [if_neg hlines]
        by_cases hnative : nativeError = none
        · rw [if_neg (fun h => h.2 hnative), if_pos hnative]
          rfl
        · rw [if_pos ⟨hlines, hnative⟩, if_neg hnative]

/-- What `SaveToDatabase()` adds; the number of glyphs stays. -/
theorem saveToDatabase_saved (databaseError : Option Text) (vm : EditorViewModel) :
    let vm' := vm.saveToDatabase databaseError
    vm'.lastGlyphCount = vm.lastGlyphCount ∧
      vm'.savedContent = vm.savedContent ++
        if databaseError = none then
          [SavedLayout.content ⟨vm.text, vm.pages.length, vm.lastGlyphCount⟩]
        else [] := by
  cases databaseError with
  | none => exact ⟨rfl, rfl⟩
  | some message =>
      dsimp only
      rw [EditorViewModel.saveToDatabase_throws, if_neg nofun]
      exact ⟨rfl, (List.append_nil _).symm⟩

/-- The line saved by showing pages. -/
theorem savedContent_showPages {t : Traced} (hfresh : FreshIds t.state.vm)
    (pages : List PageModel) (summary : Text) (nativeError databaseError : Option Text) :
    let vm' := (t.showPages rounding pages summary nativeError databaseError).state.vm
    vm'.savedContent = t.state.vm.savedContent ++
      if databaseError = none then
        (savedPages t.state.vm.text vm'.lastGlyphCount nativeError pages).toList.map
          SavedLayout.content
      else [] := by
  have hframe := @setCurrentPage_frame rounding nativeError
    (newObjects t.state.vm.nextId pages).head?
    { t.state.vm with
      pages := newObjects t.state.vm.nextId pages
      nextId := t.state.vm.nextId + pages.length }
  have hlength : (newObjects t.state.vm.nextId pages).length = pages.length := List.length_mapIdx
  rw [Traced.vm_showPages]
  dsimp only at hframe ⊢
  cases hset : EditorViewModel.setCurrentPage rounding nativeError
      (newObjects t.state.vm.nextId pages).head?
      { t.state.vm with
        pages := newObjects t.state.vm.nextId pages
        nextId := t.state.vm.nextId + pages.length } with
  | mk vm' error =>
      rw [savedPages_eq hfresh hset]
      rw [hset] at hframe
      obtain ⟨hpages, -, htext, hsaved, -⟩ := hframe
      dsimp only at hpages htext hsaved ⊢
      cases error with
      | some message =>
          rw [if_neg (Option.some_ne_none message), hsaved]
          cases databaseError <;> exact (List.append_nil _).symm
      | none =>
          obtain ⟨hcount, hcontent⟩ :=
            saveToDatabase_saved databaseError { vm' with statusMessage := summary }
          rw [if_pos rfl, ← hlength, ← hpages, ← htext, ← hsaved]
          dsimp only at hcount hcontent ⊢
          rw [hcount, hcontent]
          rfl

/-- The status is not saved. -/
theorem savedContent_showPages_status {t : Traced} (hfresh : FreshIds t.state.vm) (status : Text)
    (pages : List PageModel) (summary : Text) (nativeError databaseError : Option Text) :
    let vm' := ((t.setStatusMessage status).showPages rounding pages summary nativeError
      databaseError).state.vm
    vm'.savedContent = t.state.vm.savedContent ++
      if databaseError = none then
        (savedPages t.state.vm.text vm'.lastGlyphCount nativeError pages).toList.map
          SavedLayout.content
      else [] := by
  have hsaved := @savedContent_showPages rounding _ (hfresh.setStatusMessage status) pages summary
    nativeError databaseError
  rw [Traced.vm_setStatusMessage] at hsaved
  exact hsaved

/-- The step: an operation adds the line it saves, and nothing else changes what was saved. -/
theorem savedContent_step {s s' : WindowState} {op : WindowOperation}
    (hfresh : FreshIds s.model.vm) (hstep : WindowStep culture rounding wpf s op s') :
    s'.model.vm.savedContent = s.model.vm.savedContent ++
      (savedBy culture s'.model.vm.lastGlyphCount s.model.vm op).toList.map
        SavedLayout.content := by
  have hids : FreshIds (Traced.start s.model).state.vm := hfresh
  cases hstep with
  | assignText value =>
      obtain ⟨x, hset⟩ := EditorViewModel.exists_setText culture value s.model.vm
      show (Traced.setText culture value (Traced.start s.model)).state.vm.savedContent = _
      rw [Traced.vm_setText]
      show (s.model.vm.setText culture value).savedContent = _
      rw [hset]
      exact (List.append_nil _).symm
  | assignChapterTitle value => exact (List.append_nil _).symm
  | layout nativeError databaseError pages hpages =>
      by_cases htext : s.model.vm.text = []
      · have hnone : ∀ glyphs,
            savedBy culture glyphs s.model.vm (.layout nativeError databaseError) = none := by
          intro glyphs
          cases databaseError with
          | some message => rfl
          | none => exact if_pos htext
        have hempty : (Traced.start s.model).state.vm.text = [] := htext
        rw [hnone]
        show (Traced.executeLayout rounding pages nativeError databaseError
          (Traced.start s.model)).state.vm.savedContent = _
        rw [Traced.vm_executeLayout, EditorViewModel.executeLayout_of_empty hempty,
          EditorViewModel.setCurrentPage_none]
        exact (List.append_nil _).symm
      · have hne : (Traced.start s.model).state.vm.text ≠ [] := htext
        show (Traced.executeLayout rounding pages nativeError databaseError
          (Traced.start s.model)).state.vm.savedContent = _ ++ (savedBy culture
            (Traced.executeLayout rounding pages nativeError databaseError
              (Traced.start s.model)).state.vm.lastGlyphCount _ _).toList.map _
        rw [Traced.executeLayout_of_text hne, savedContent_showPages_status hids]
        cases databaseError with
        | some message => rfl
        | none =>
            dsimp only [savedBy]
            rw [if_pos rfl, if_neg htext, ← laidOutPages_eq hpages]
            rfl
  | columnLayout mainWindow result nativeError databaseError =>
      show (Traced.executeColumnLayout rounding mainWindow result nativeError databaseError
        (Traced.start s.model)).state.vm.savedContent = _ ++ (savedBy culture
          (Traced.executeColumnLayout rounding mainWindow result nativeError databaseError
            (Traced.start s.model)).state.vm.lastGlyphCount _ _).toList.map _
      rcases @Traced.executeColumnLayout_cases rounding mainWindow result nativeError databaseError
        (Traced.start s.model) with ⟨pages, summary, ⟨htext, rfl, rfl⟩, heq⟩ | ⟨hnone, hstatus⟩
      · rw [heq, savedContent_showPages_status hids]
        cases databaseError with
        | some message => rfl
        | none =>
            have hne : s.model.vm.text ≠ [] := htext
            dsimp only [savedBy]
            rw [if_pos rfl, if_neg hne]
            rfl
      · have hnothing : ∀ glyphs, savedBy culture glyphs s.model.vm
            (.columnLayout mainWindow result nativeError databaseError) = none := by
          intro glyphs
          unfold savedBy
          split
          · rename_i heq
            cases heq
          · rename_i heq
            cases heq
            split
            · rfl
            · rename_i htext
              exact absurd rfl (hnone htext rfl _)
          · rfl
        rw [hnothing, (counted_of_status hstatus).2]
        exact (List.append_nil _).symm
  | assignCurrentPage page nativeError _ =>
      have hsaved := (@setCurrentPage_frame rounding nativeError page s.model.vm).2.2.2.1
      show (Traced.setCurrentPage rounding nativeError page
        (Traced.start s.model)).1.state.vm.savedContent = _
      rw [Traced.vm_setCurrentPage_fst]
      exact hsaved.trans (List.append_nil _).symm

end Saved

/-- In every run the lines the window has saved are those of the layouts that got this far, in
order, each with its text, the number of its pages and the number of glyphs counted last, and no
other list of layouts has these lines. -/
theorem saved_content_iff (culture : CompareInfo) (rounding : FloatRounding) (wpf : WpfMeasures)
    (moves : List (Transition.Move WindowState WindowOperation))
    (hrun : Transition.Run (WindowStep culture rounding wpf) {} moves)
    (history : List SavedLayout) :
    (Transition.last {} moves).model.vm.savedContent = history.map SavedLayout.content ↔
      history = savedHistory culture moves := by
  let next := fun glyphs (move : Transition.Move WindowState WindowOperation) =>
    (countedBy culture move.before.model.vm move.action).getD glyphs
  have hsaved : ∀ s op s', FreshIds s.model.vm → WindowStep culture rounding wpf s op s' →
      s'.model.vm.savedContent = s.model.vm.savedContent ++
        (savedBy culture (next s.model.vm.lastGlyphCount ⟨s, op, s'⟩) s.model.vm op).toList.map
          SavedLayout.content := by
    intro s op s' hfresh hstep
    rw [savedContent_step hfresh hstep, counted_step hfresh hstep]
  have hrecord : (Transition.last {} moves).model.vm.savedContent =
      [] ++ Transition.recorded next (fun glyphs move =>
        (savedBy culture (next glyphs move) move.before.model.vm move.action).toList.map
          SavedLayout.content) 0 moves :=
    @Transition.Run.record_last _ _ _ _ _ _ (fun s => s.model.vm.savedContent)
      (fun s => s.model.vm.lastGlyphCount) _ _ (freshIds_step culture rounding wpf)
      (fun _ _ _ hfresh hstep => counted_step hfresh hstep)
      hsaved _ _ hrun freshIds_initial
  rw [hrecord, List.nil_append, ← Transition.recorded_map]
  constructor
  · intro hlines
    exact (List.map_injective_iff.mpr content_injective hlines).symm
  · intro hhistory
    rw [hhistory]
    rfl

theorem saved_content_session :
    (Transition.last {} windowSession).model.vm.savedContent =
      [utf16 "a (Pages: 1, Glyphs: 1)"] ∧
    ∀ history : List SavedLayout,
      (Transition.last {} windowSession).model.vm.savedContent =
          history.map SavedLayout.content ↔
        history = savedHistory .ordinal windowSession := by
  refine ⟨by decide +kernel, fun history => ?_⟩
  exact saved_content_iff .ordinal .exact flatWpf windowSession run_windowSession history

end MainWindow

end Typesetting
