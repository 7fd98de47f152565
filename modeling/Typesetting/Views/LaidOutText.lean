/-
# Typesetting.Views.LaidOutText -- what is typed is what is drawn

A text goes a long way before it is on the canvas: the notes are taken out of it, the rest is put on
pages, the native engine makes glyphs of the page selected, the view model announces them, and the
window reads the text back from their coordinates. After every `ExecuteLayout` in which the native
call succeeds, whatever was done before, the words on the canvas are those of the main text and the
notes are those that were taken out, in their order and with their numbers. What is lost is what
follows a U+0000, where the native engine stops. A main text that begins with one has no glyphs, and
without glyphs nothing is drawn, the notes included.

`ExecuteColumnLayout` is another matter: it fills in the glyphs of its first page only.
-/
import Typesetting.Views.CanvasInStep

namespace Typesetting

namespace MainWindow

section LaidOut

variable {culture : CompareInfo} {rounding : FloatRounding} {wpf : WpfMeasures}

/-- After a layout the canvas shows the first page, whatever it showed before. -/
theorem canvas_layout {s : WindowState} (hfresh : FreshIds s.model.vm)
    (htext : s.model.vm.text ≠ []) {first : PageModel} (hlines : first.allMainLines ≠ [])
    (rest : List PageModel) (databaseError : Option Text) :
    (s.told wpf ((Traced.start s.model).executeLayout rounding (first :: rest) none
        databaseError)).canvas.children =
      (drawGlyphs wpf (layoutResult rounding (EditorViewModel.mainContent first))
        first.allFootnotes [] first.pageNumber {}).children := by
  have hids : FreshIds (Traced.start s.model).state.vm := hfresh
  have hne : (Traced.start s.model).state.vm.text ≠ [] := htext
  have hstatus := hids.setStatusMessage (utf16 "מבצע עימוד...")
  have hfollowed : Followed wpf s.canvas ((Traced.start s.model).executeLayout rounding
      (first :: rest) none databaseError) := by
    rw [Traced.executeLayout_of_text hne]
    exact followed_showPages hlines rest _ _ _ hstatus.current
  have hvm := @Traced.vm_executeLayout rounding (first :: rest) none databaseError
    (Traced.start s.model)
  have hdisplay := (@EditorViewModel.executeLayout_first_page rounding _ htext hfresh.current _ rest
    hlines databaseError).1
  obtain ⟨-, hcurrent, hglyphs, -⟩ := EditorViewModel.Display.mk.inj hdisplay
  refine hfollowed.trans ?_
  unfold drawingOf
  rw [hvm]
  show drawing wpf (s.model.vm.executeLayout _ _ _ _).glyphs
    (s.model.vm.executeLayout _ _ _ _).currentPage _ = _
  rw [hglyphs, hcurrent]
  rfl

/-- An empty text has no main text. -/
theorem text_ne_nil_of_mainText {text : Text}
    (hmain : (extractContentAndFootnotes culture text).mainText ≠ []) : text ≠ [] := by
  rintro rfl
  apply hmain
  rw [mainText_eq_nil_iff, extractPasses_of_blank rfl]
  rfl

/-- The step: whatever was on the canvas, `ExecuteLayout` draws the words and the notes of its
text. -/
theorem canvas_layoutStep {s s' : WindowState} {databaseError : Option Text}
    (hfresh : FreshIds s.model.vm)
    (hstep : WindowStep culture rounding wpf s (.layout none databaseError) s') :
    let x := extractContentAndFootnotes culture s.model.vm.text
    let content := x.mainText.takeWhile (· != 0)
    x.mainText ≠ [] →
      readWords s'.canvas.children = splitRemoveEmpty isWhiteSpace content ∧
        readNotes s'.canvas.children =
          if content = [] then []
          else numberedNotes x.footnotesA ++ numberedNotes x.footnotesB ++
            numberedNotes x.footnotesC := by
  intro x content hmain
  have htext : s.model.vm.text ≠ [] := text_ne_nil_of_mainText hmain
  cases hstep with
  | layout _ _ pages hpages =>
      obtain rfl : pages = [EditorViewModel.paginationEngine.onlyPage x] :=
        paginates_onlyPage hpages hmain
      have hnotes : (EditorViewModel.paginationEngine.onlyPage x).allFootnotes = x.footnotes :=
        funext fun system => PaginationEngine.onlyPage_allFootnotes x system
      have hcanvas := @canvas_layout rounding wpf s hfresh htext _ (onlyPage_lines_ne_nil x) []
        databaseError
      rw [mainContent_onlyPage, hnotes, layoutResult_eq] at hcanvas
      rw [hcanvas]
      exact drawGlyphs_encoded rounding content

/-- In every run the canvas after an `ExecuteLayout` shows the words of the main text, up to the
first U+0000, and the notes of the text that was laid out, unless nothing stands before the
U+0000. -/
theorem canvas_after_layout (culture : CompareInfo) (rounding : FloatRounding)
    (wpf : WpfMeasures) (moves : List (Transition.Move WindowState WindowOperation))
    (hrun : Transition.Run (WindowStep culture rounding wpf) {} moves)
    (move : Transition.Move WindowState WindowOperation) (hmove : move ∈ moves)
    (databaseError : Option Text) (hlayout : move.action = .layout none databaseError) :
    let x := extractContentAndFootnotes culture move.before.model.vm.text
    let content := x.mainText.takeWhile (· != 0)
    x.mainText ≠ [] →
      readWords move.after.canvas.children = splitRemoveEmpty isWhiteSpace content ∧
        readNotes move.after.canvas.children =
          if content = [] then []
          else numberedNotes x.footnotesA ++ numberedNotes x.footnotesB ++
            numberedNotes x.footnotesC := by
  intro x content hmain
  obtain ⟨hfresh, hstep⟩ := hrun.forall_move (freshIds_step culture rounding wpf) freshIds_initial
    move hmove
  rw [hlayout] at hstep
  exact canvas_layoutStep hfresh hstep hmain

end LaidOut

theorem canvas_after_layout_session :
    (⟨typedWindow, .layout none none, laidOutWindow⟩ : Transition.Move WindowState WindowOperation)
        ∈ windowSession ∧
      readWords laidOutWindow.canvas.children = [utf16 "a"] ∧
      readNotes laidOutWindow.canvas.children = [] := by
  have hmem : (⟨typedWindow, .layout none none, laidOutWindow⟩ :
      Transition.Move WindowState WindowOperation) ∈ windowSession :=
    List.mem_cons_of_mem _ List.mem_cons_self
  obtain ⟨hwords, hnotes⟩ := canvas_after_layout .ordinal .exact flatWpf windowSession
    run_windowSession ⟨typedWindow, .layout none none, laidOutWindow⟩ hmem none rfl
      mainText_typedWindow
  rw [text_typedWindow] at hwords hnotes
  refine ⟨hmem, hwords.trans ?_, hnotes.trans ?_⟩
  · decide +kernel
  · decide +kernel

end MainWindow

end Typesetting
