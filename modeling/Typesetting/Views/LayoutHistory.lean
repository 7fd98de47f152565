/-
# Typesetting.Views.LayoutHistory -- `ExecuteLayout` forgets what was there before

Two windows with different pasts lay out the same text by `ExecuteLayout`, and nothing fails. When
the text has a main text they show the same from then on: the layout replaces whatever the window
showed, two-column pages included, and everything it puts there is made of the text. When there is
no main text this is not so. A text of notes alone leaves the glyphs that were there; without a text
the glyphs are cleared, but the canvas is not told.

`ExecuteColumnLayout` does not forget: without a text it leaves everything as it is.
-/
import Typesetting.Views.AnalysisInStep
import Typesetting.Views.LaidOutText

namespace Typesetting

namespace MainWindow

/-! ## What the window shows -/

/-- The text, its analysis, the pages with the page shown and its glyphs, the status line and the
canvas. -/
@[ext]
structure Screen where
  text : Text
  analysis : Extracted
  contents : EditorViewModel.Contents
  statusMessage : Text
  children : List WindowChild

def WindowState.screen (s : WindowState) : Screen where
  text := s.model.vm.text
  analysis := ⟨s.model.vm.extractedMainText, s.model.vm.extractedFootnotesA,
    s.model.vm.extractedFootnotesB, s.model.vm.extractedFootnotesC⟩
  contents := s.model.vm.display.contents
  statusMessage := s.model.vm.statusMessage
  children := s.canvas.children

/-- The screen made of a text alone. -/
def screenOf (culture : CompareInfo) (rounding : FloatRounding) (wpf : WpfMeasures) (text : Text) :
    Screen :=
  let x := extractContentAndFootnotes culture text
  let page := EditorViewModel.paginationEngine.onlyPage x
  let glyphs := layoutResult rounding x.mainText
  { text := text
    analysis := x
    contents := ⟨[page], some page, glyphs, glyphs.length⟩
    statusMessage := PaginationEngine.getPaginationSummary [page]
    children := (drawGlyphs wpf glyphs page.allFootnotes [] page.pageNumber {}).children }

/-- An `ExecuteLayout` of the text in which nothing fails has led to this state, at the end of some
run. -/
def LaidOut (culture : CompareInfo) (rounding : FloatRounding) (wpf : WpfMeasures) (text : Text)
    (s : WindowState) : Prop :=
  ∃ before, Transition.Reachable (WindowStep culture rounding wpf) {} before ∧
    before.model.vm.text = text ∧ WindowStep culture rounding wpf before (.layout none none) s

section Forgets

variable {culture : CompareInfo} {rounding : FloatRounding} {wpf : WpfMeasures}

/-- What a layout leaves in the fields when it shows one page. -/
theorem executeLayout_contents {vm : EditorViewModel} (htext : vm.text ≠ [])
    (hfresh : FreshIds vm) {page : PageModel} (hlines : page.allMainLines ≠ []) :
    let vm' := vm.executeLayout rounding [page] none none
    let glyphs := layoutResult rounding (EditorViewModel.mainContent page)
    vm'.text = vm.text ∧ vm'.statusMessage = PaginationEngine.getPaginationSummary [page] ∧
      vm'.display.contents = ⟨[page], some page, glyphs, glyphs.length⟩ := by
  have hnew : vm.currentPage.map PageObject.id ≠ some vm.nextId :=
    currentPage_ne_new hfresh.current le_rfl
  rw [EditorViewModel.executeLayout_of_text htext]
  simp only [EditorViewModel.withNewPages, EditorViewModel.head?_newObjects]
  rw [EditorViewModel.setCurrentPage_new hlines hnew]
  exact ⟨rfl, rfl, rfl⟩

theorem freshIds_of_reachable {s : WindowState}
    (h : Transition.Reachable (WindowStep culture rounding wpf) {} s) : FreshIds s.model.vm :=
  @Transition.Reachable.invariant _ _ _ _ _ (fun s : WindowState => FreshIds s.model.vm)
    (freshIds_step culture rounding wpf) h freshIds_initial

theorem analysed_of_reachable {s : WindowState}
    (h : Transition.Reachable (WindowStep culture rounding wpf) {} s) :
    Analysed culture s.model.vm :=
  @Transition.Reachable.invariant _ _ _ _ _
    (fun s : WindowState => Analysed culture s.model.vm) (analysed_step culture rounding wpf) h
    (extract_nil culture)

/-- After the layout of a text with a main text the screen is the one made of the text. -/
theorem screen_layoutStep {s s' : WindowState} (hfresh : FreshIds s.model.vm)
    (hanalysed : Analysed culture s.model.vm)
    (hmain : (extractContentAndFootnotes culture s.model.vm.text).mainText ≠ [])
    (hstep : WindowStep culture rounding wpf s (.layout none none) s') :
    s'.screen = screenOf culture rounding wpf s.model.vm.text := by
  have htext : s.model.vm.text ≠ [] := text_ne_nil_of_mainText hmain
  have hanalysed' : Analysed culture s'.model.vm :=
    analysed_step culture rounding wpf _ _ _ hanalysed hstep
  cases hstep with
  | layout _ _ pages hpages =>
      obtain rfl := paginates_onlyPage hpages hmain
      have hlines := onlyPage_lines_ne_nil (extractContentAndFootnotes culture s.model.vm.text)
      have hvm := @Traced.vm_executeLayout rounding [EditorViewModel.paginationEngine.onlyPage
        (extractContentAndFootnotes culture s.model.vm.text)] none none (Traced.start s.model)
      obtain ⟨hsame, hstatus, hshown⟩ :=
        @executeLayout_contents rounding s.model.vm htext hfresh _ hlines
      rw [mainContent_onlyPage] at hshown
      have htext' : (Traced.executeLayout rounding [EditorViewModel.paginationEngine.onlyPage
          (extractContentAndFootnotes culture s.model.vm.text)] none none
          (Traced.start s.model)).state.vm.text = s.model.vm.text := by
        rw [hvm]
        exact hsame
      apply Screen.ext
      · exact htext'
      · -- the analysis is that of the text, and the text stays
        refine hanalysed'.symm.trans ?_
        show extractContentAndFootnotes culture (Traced.executeLayout rounding _ none none
          (Traced.start s.model)).state.vm.text = _
        rw [htext']
        rfl
      · show (Traced.executeLayout rounding _ none none
          (Traced.start s.model)).state.vm.display.contents = _
        rw [hvm]
        exact hshown
      · show (Traced.executeLayout rounding _ none none
          (Traced.start s.model)).state.vm.statusMessage = _
        rw [hvm]
        exact hstatus
      · have hcanvas := @canvas_layout rounding wpf s hfresh htext _ hlines [] none
        rw [mainContent_onlyPage] at hcanvas
        exact hcanvas

/-- However the window came to lay out the text, it shows the screen made of the text. -/
theorem LaidOut.screen_eq {text : Text} {s : WindowState}
    (h : LaidOut culture rounding wpf text s)
    (hmain : (extractContentAndFootnotes culture text).mainText ≠ []) :
    s.screen = screenOf culture rounding wpf text := by
  obtain ⟨before, hreach, rfl, hstep⟩ := h
  exact screen_layoutStep (freshIds_of_reachable hreach) (analysed_of_reachable hreach) hmain hstep

/-! ## What stays without a main text -/

theorem text_setText (value : Text) (vm : EditorViewModel) :
    (vm.setText culture value).text = value := by
  obtain ⟨x, hset⟩ := EditorViewModel.exists_setText culture value vm
  rw [hset]

/-- A text can be typed anywhere; page and glyphs stay. -/
theorem exists_typed {s : WindowState}
    (hreach : Transition.Reachable (WindowStep culture rounding wpf) {} s)
    (hin : CanvasInStep wpf s) (text : Text) :
    ∃ s', Transition.Reachable (WindowStep culture rounding wpf) {} s' ∧ CanvasInStep wpf s' ∧
      s'.model.vm.text = text ∧ s'.model.vm.display = s.model.vm.display := by
  have hstep : WindowStep culture rounding wpf s (.assignText text) _ := .assignText s text
  have hfresh : FreshIds s.model.vm := freshIds_of_reachable hreach
  refine ⟨_, hreach.next hstep, (canvasInStep_step_iff hfresh hin hstep).mpr trivial, ?_, ?_⟩
  · show (Traced.setText culture text (Traced.start s.model)).state.vm.text = text
    rw [Traced.vm_setText, text_setText]
  · show (Traced.setText culture text (Traced.start s.model)).state.vm.display = _
    rw [Traced.vm_setText, EditorViewModel.setText_display]
    rfl

/-- A letter is main text in every culture. -/
theorem mainText_letter (culture : CompareInfo) :
    (extractContentAndFootnotes culture (utf16 "a")).mainText = utf16 "a" := by
  rw [extract_mainText,
    extractPasses_of_no_tag (by decide) (by decide) (by decide)]
  decide

/-- A letter is typed and laid out: its glyph is shown. -/
theorem exists_glyphs (culture : CompareInfo) (rounding : FloatRounding) (wpf : WpfMeasures) :
    ∃ s, Transition.Reachable (WindowStep culture rounding wpf) {} s ∧ CanvasInStep wpf s ∧
      s.model.vm.glyphs ≠ [] := by
  obtain ⟨typed, hreach, hin, htext, -⟩ :=
    @exists_typed culture rounding wpf {} (Transition.Reachable.start _) rfl (utf16 "a")
  have hmain : (extractContentAndFootnotes culture typed.model.vm.text).mainText ≠ [] := by
    rw [htext, mainText_letter]
    decide
  have hstep : WindowStep culture rounding wpf typed (.layout none none) _ :=
    .layout typed none none _ (PaginationEngine.paginates_of_mainText_fits hmain
      (PaginationEngine.calculateLineHeight_default_le _))
  have hfresh : FreshIds typed.model.vm := freshIds_of_reachable hreach
  have hredraw : NothingChangesUnannounced typed.model (.layout none none) := by
    intro hnil
    exact absurd hnil (text_ne_nil_of_mainText hmain)
  refine ⟨_, hreach.next hstep, (canvasInStep_step_iff hfresh hin hstep).mpr hredraw, ?_⟩
  intro hnone
  have hscreen := LaidOut.screen_eq ⟨typed, hreach, rfl, hstep⟩ hmain
  have hglyphs := congrArg (fun screen => screen.contents.glyphs.length) hscreen
  have hcount : (layoutResult rounding
      (extractContentAndFootnotes culture typed.model.vm.text).mainText).length = 1 := by
    rw [htext, mainText_letter, length_layoutResult]
    decide
  have hzero := hglyphs.trans hcount
  have hlength : _ = 0 := congrArg List.length hnone
  exact absurd (hlength.symm.trans hzero) (by decide)

/-- A text of notes alone can be laid out, and the glyphs stay. -/
theorem exists_layout_notes {s : WindowState} (htext : s.model.vm.text ≠ [])
    (hmain : (extractContentAndFootnotes culture s.model.vm.text).mainText = []) :
    ∃ s', WindowStep culture rounding wpf s (.layout none none) s' ∧
      s'.model.vm.glyphs = s.model.vm.glyphs := by
  have hpages : EditorViewModel.paginationEngine.Paginates culture s.model.vm.text [] :=
    PaginationEngine.paginates_of_mainText_nil hmain
  refine ⟨_, .layout s none none [] hpages, ?_⟩
  show (Traced.executeLayout rounding [] none none (Traced.start s.model)).state.vm.glyphs = _
  rw [Traced.vm_executeLayout]
  have hdisplay := (@EditorViewModel.executeLayout_no_page rounding s.model.vm htext none none).1
  exact congrArg EditorViewModel.Display.glyphs hdisplay

/-- The empty text can be laid out. No glyph is left, so the canvas is in step only if it is
empty. -/
theorem exists_layout_empty {s : WindowState} (htext : s.model.vm.text = []) :
    ∃ s', WindowStep culture rounding wpf s (.layout none none) s' ∧
      (CanvasInStep wpf s' ↔ s'.canvas.children = []) := by
  have hmain : (extractContentAndFootnotes culture s.model.vm.text).mainText = [] := by
    rw [htext, mainText_eq_nil_iff, extractPasses_of_blank rfl]
    rfl
  have hpages : EditorViewModel.paginationEngine.Paginates culture s.model.vm.text [] :=
    PaginationEngine.paginates_of_mainText_nil hmain
  have hvm := @Traced.vm_executeLayout rounding [] none none (Traced.start s.model)
  have hglyphs : (Traced.executeLayout rounding [] none none
      (Traced.start s.model)).state.vm.glyphs = [] := by
    rw [hvm]
    exact congrArg EditorViewModel.Display.glyphs
      (@EditorViewModel.executeLayout_of_text_nil rounding s.model.vm htext [] none none).1
  have hdrawing : drawingOf wpf (Traced.executeLayout rounding [] none none
      (Traced.start s.model)).state = [] := drawing_eq_nil_iff.mpr hglyphs
  refine ⟨_, .layout s none none [] hpages, ?_⟩
  show _ = drawingOf wpf (Traced.executeLayout rounding [] none none
    (Traced.start s.model)).state ↔ _
  rw [hdrawing]

/-- Two layouts of a text of notes alone that leave different glyphs. -/
theorem remembers_notes {text : Text} (htext : text ≠ [])
    (hmain : (extractContentAndFootnotes culture text).mainText = []) :
    ∃ s s', LaidOut culture rounding wpf text s ∧ LaidOut culture rounding wpf text s' ∧
      s.screen ≠ s'.screen := by
  obtain ⟨lettered, hlettered, hin, hglyphs⟩ := exists_glyphs culture rounding wpf
  obtain ⟨fresh, hfresh, -, rfl, hdisplay⟩ :=
    @exists_typed culture rounding wpf {} (Transition.Reachable.start _) rfl text
  obtain ⟨used, hused, -, hsame, hdisplay'⟩ := exists_typed hlettered hin fresh.model.vm.text
  obtain ⟨s, hstep, hs⟩ := @exists_layout_notes culture rounding wpf fresh htext hmain
  obtain ⟨s', hstep', hs'⟩ := @exists_layout_notes culture rounding wpf used
    (by rw [hsame]; exact htext) (by rw [hsame]; exact hmain)
  refine ⟨s, s', ⟨fresh, hfresh, rfl, hstep⟩, ⟨used, hused, hsame, hstep'⟩, ?_⟩
  intro hscreen
  have hleft : s.model.vm.glyphs = s'.model.vm.glyphs :=
    congrArg (fun screen => screen.contents.glyphs) hscreen
  have hnone : fresh.model.vm.glyphs = [] := congrArg EditorViewModel.Display.glyphs hdisplay
  have hkept : used.model.vm.glyphs = lettered.model.vm.glyphs :=
    congrArg EditorViewModel.Display.glyphs hdisplay'
  rw [hs, hs', hnone, hkept] at hleft
  exact hglyphs hleft.symm

/-- Two layouts of the empty text that leave different canvases. -/
theorem remembers_empty :
    ∃ s s', LaidOut culture rounding wpf [] s ∧ LaidOut culture rounding wpf [] s' ∧
      s.screen ≠ s'.screen := by
  obtain ⟨lettered, hlettered, hin, hglyphs⟩ := exists_glyphs culture rounding wpf
  have hids : FreshIds lettered.model.vm := freshIds_of_reachable hlettered
  -- the selection is cleared, which is drawn, and then the text
  have hclear : WindowStep culture rounding wpf lettered (.assignCurrentPage none none) _ :=
    .assignCurrentPage lettered none none fun _ hobject => nomatch hobject
  have hcleared := (canvasInStep_step_iff hids hin hclear).mpr fun _ hobject => nomatch hobject
  obtain ⟨used, hused, hcanvas, htext, hdisplay⟩ := exists_typed (hlettered.next hclear) hcleared []
  have hshown : used.model.vm.display = { lettered.model.vm.display with currentPage := none } := by
    refine hdisplay.trans ?_
    show (Traced.setCurrentPage rounding none none
      (Traced.start lettered.model)).1.state.vm.display = _
    rw [Traced.vm_setCurrentPage_fst, EditorViewModel.setCurrentPage_none]
    rfl
  have hpage : used.model.vm.currentPage = none :=
    congrArg EditorViewModel.Display.currentPage hshown
  have hleft : used.model.vm.glyphs = lettered.model.vm.glyphs :=
    congrArg EditorViewModel.Display.glyphs hshown
  obtain ⟨s, hstep, hempty⟩ := @exists_layout_empty culture rounding wpf {} rfl
  obtain ⟨s', hstep', hempty'⟩ := @exists_layout_empty culture rounding wpf used htext
  have hstart : CanvasInStep wpf {} := rfl
  have hs : CanvasInStep wpf s :=
    (canvasInStep_step_iff freshIds_initial hstart hstep).mpr fun _ _ => rfl
  have hs' : ¬CanvasInStep wpf s' := by
    rw [canvasInStep_step_iff (freshIds_of_reachable hused) hcanvas hstep']
    intro hredraw
    exact hglyphs (hleft.symm.trans (hredraw htext hpage))
  refine ⟨s, s', ⟨{}, Transition.Reachable.start _, rfl, hstep⟩,
    ⟨used, hused, htext, hstep'⟩, ?_⟩
  intro hscreen
  have hchildren : s.canvas.children = s'.canvas.children := congrArg Screen.children hscreen
  exact hs' (hempty'.mpr (hchildren.symm.trans (hempty.mp hs)))

end Forgets

/-- What the window shows after an `ExecuteLayout` in which nothing fails is the same whatever was
done before exactly when the text has a main text. -/
theorem layout_forgets_iff (culture : CompareInfo) (rounding : FloatRounding) (wpf : WpfMeasures)
    (text : Text) :
    (∀ s s', LaidOut culture rounding wpf text s → LaidOut culture rounding wpf text s' →
        s.screen = s'.screen) ↔
      (extractContentAndFootnotes culture text).mainText ≠ [] := by
  constructor
  · intro hall hmain
    by_cases htext : text = []
    · subst htext
      obtain ⟨s, s', hs, hs', hne⟩ := @remembers_empty culture rounding wpf
      exact hne (hall s s' hs hs')
    · obtain ⟨s, s', hs, hs', hne⟩ := @remembers_notes culture rounding wpf text htext hmain
      exact hne (hall s s' hs hs')
  · intro hmain s s' hs hs'
    rw [hs.screen_eq hmain, hs'.screen_eq hmain]

end MainWindow

end Typesetting
