/-
# Typesetting.Views.AnalysisInStep -- the analysis the window shows is that of the text

The middle of the window shows the main text and the notes as they are extracted while the text is
typed. Assigning `Text` first announces the text and then extracts, and the main text is announced
before the lists of notes are filled. So a listener to `Text` finds the old analysis beside the new
text, and a listener to `ExtractedMainText` the new main text beside the old notes. No other
listener finds anything of the kind: whatever the window does and whatever fails, the analysis is
that of the text whenever any other property is announced, and when the operation is over.

The listeners meant are those of `PropertyChanged`. The lists of notes have notifications of their
own, raised while they are emptied and filled, and what is found there is not looked at.
-/
import Typesetting.Views.CanvasInStep

namespace Typesetting

namespace MainWindow

/-- What is shown of the text is what is extracted from it. -/
def Analysed (culture : CompareInfo) (vm : EditorViewModel) : Prop :=
  extractContentAndFootnotes culture vm.text =
    ⟨vm.extractedMainText, vm.extractedFootnotesA, vm.extractedFootnotesB, vm.extractedFootnotesC⟩

/-- The notes shown are still those of an earlier state. -/
structure SameNotes (before vm : EditorViewModel) : Prop where
  footnotesA : vm.extractedFootnotesA = before.extractedFootnotesA
  footnotesB : vm.extractedFootnotesB = before.extractedFootnotesB
  footnotesC : vm.extractedFootnotesC = before.extractedFootnotesC

/-- What a listener finds when a property is announced on the way from one state to another. -/
def AnalysisWhenRaised (culture : CompareInfo) (before after : EditorViewModel)
    (e : Notification) : Prop :=
  let vm := e.state.vm
  vm.text = after.text ∧
    match e.property with
    | .text => vm.extractedMainText = before.extractedMainText ∧ SameNotes before vm
    | .extractedMainText =>
      vm.extractedMainText = after.extractedMainText ∧ SameNotes before vm
    | _ => Analysed culture vm

/-- The operation `op` and the notifications it raises. -/
inductive Operated (culture : CompareInfo) (rounding : FloatRounding) (s : TitledViewModel) :
    WindowOperation → Traced → Prop
  | assignText (value : Text) :
      Operated culture rounding s (.assignText value) ((Traced.start s).setText culture value)
  | assignChapterTitle (value : Text) :
      Operated culture rounding s (.assignChapterTitle value)
        ((Traced.start s).setChapterTitle value)
  | layout (nativeError databaseError : Option Text) (pages : List PageModel) :
      EditorViewModel.paginationEngine.Paginates culture s.vm.text pages →
      Operated culture rounding s (.layout nativeError databaseError)
        ((Traced.start s).executeLayout rounding pages nativeError databaseError)
  | columnLayout (mainWindow : Bool) (result : Except Text (List PageModel))
      (nativeError databaseError : Option Text) :
      Operated culture rounding s (.columnLayout mainWindow result nativeError databaseError)
        ((Traced.start s).executeColumnLayout rounding mainWindow result nativeError databaseError)
  | assignCurrentPage (page : Option PageObject) (nativeError : Option Text) :
      Operated culture rounding s (.assignCurrentPage page nativeError)
        ((Traced.start s).setCurrentPage rounding nativeError page).1

/-! ## The operations that leave the text alone -/

/-- The text and its analysis are those of another state. -/
structure SameAnalysis (before vm : EditorViewModel) : Prop extends SameNotes before vm where
  text : vm.text = before.text
  mainText : vm.extractedMainText = before.extractedMainText

/-- They have been so all the way, and neither of the two properties was announced. -/
structure KeepsAnalysis (before : EditorViewModel) (t : Traced) : Prop where
  state : SameAnalysis before t.state.vm
  raised : ∀ e ∈ t.raised, SameAnalysis before e.state.vm ∧
    e.property ≠ .text ∧ e.property ≠ .extractedMainText

section Keeps

variable {before : EditorViewModel} {rounding : FloatRounding} {t : Traced}

theorem KeepsAnalysis.start (s : TitledViewModel) : KeepsAnalysis s.vm (Traced.start s) :=
  ⟨⟨⟨rfl, rfl, rfl⟩, rfl, rfl⟩, fun _ he => nomatch he⟩

/-- Other fields may change. -/
theorem KeepsAnalysis.change (h : KeepsAnalysis before t)
    {f : EditorViewModel → EditorViewModel} (hf : ∀ vm, SameAnalysis vm (f vm)) :
    KeepsAnalysis before (t.change f) := by
  have hsame := hf t.state.vm
  refine ⟨⟨⟨?_, ?_, ?_⟩, ?_, ?_⟩, h.raised⟩
  · exact hsame.footnotesA.trans h.state.footnotesA
  · exact hsame.footnotesB.trans h.state.footnotesB
  · exact hsame.footnotesC.trans h.state.footnotesC
  · exact hsame.text.trans h.state.text
  · exact hsame.mainText.trans h.state.mainText

theorem KeepsAnalysis.raise (h : KeepsAnalysis before t) {property : Property}
    (htext : property ≠ .text) (hmain : property ≠ .extractedMainText) :
    KeepsAnalysis before (t.raise property) := by
  refine ⟨h.state, fun e he => ?_⟩
  rcases List.mem_append.mp he with he | he
  · exact h.raised e he
  · obtain rfl := List.mem_singleton.mp he
    exact ⟨h.state, htext, hmain⟩

theorem KeepsAnalysis.setStatusMessage (h : KeepsAnalysis before t) (value : Text) :
    KeepsAnalysis before (t.setStatusMessage value) := by
  unfold Traced.setStatusMessage
  split
  · refine KeepsAnalysis.raise ?_ nofun nofun
    exact h.change fun _ => ⟨⟨rfl, rfl, rfl⟩, rfl, rfl⟩
  · exact h

theorem KeepsAnalysis.setChapterTitle (h : KeepsAnalysis before t) (value : Text) :
    KeepsAnalysis before (t.setChapterTitle value) := by
  have htitle : KeepsAnalysis before
      { t with state := { t.state with chapterTitle := value } } := ⟨h.state, h.raised⟩
  exact htitle.raise nofun nofun

theorem KeepsAnalysis.loadGlyphsForPage (h : KeepsAnalysis before t) (nativeError : Option Text)
    (page : PageModel) :
    KeepsAnalysis before (t.loadGlyphsForPage rounding nativeError page).1 := by
  unfold Traced.loadGlyphsForPage
  split
  · show KeepsAnalysis before (t.change fun vm => { vm with glyphs := [] })
    exact h.change fun _ => ⟨⟨rfl, rfl, rfl⟩, rfl, rfl⟩
  · cases nativeError with
    | none =>
        refine KeepsAnalysis.raise ?_ nofun nofun
        apply KeepsAnalysis.change
        · exact h.change fun _ => ⟨⟨rfl, rfl, rfl⟩, rfl, rfl⟩
        · exact fun _ => ⟨⟨rfl, rfl, rfl⟩, rfl, rfl⟩
    | some message => exact h

theorem KeepsAnalysis.setCurrentPage (h : KeepsAnalysis before t) (nativeError : Option Text)
    (value : Option PageObject) :
    KeepsAnalysis before (t.setCurrentPage rounding nativeError value).1 := by
  unfold Traced.setCurrentPage
  split
  · have hraised : KeepsAnalysis before
        ((t.change fun vm => { vm with currentPage := value }).raise .currentPage) := by
      refine KeepsAnalysis.raise ?_ nofun nofun
      exact h.change fun _ => ⟨⟨rfl, rfl, rfl⟩, rfl, rfl⟩
    cases value with
    | none => exact hraised
    | some object => exact hraised.loadGlyphsForPage nativeError object.page
  · exact h

theorem KeepsAnalysis.saveToDatabase (h : KeepsAnalysis before t) (databaseError : Option Text) :
    KeepsAnalysis before (t.saveToDatabase databaseError) := by
  unfold Traced.saveToDatabase
  cases databaseError with
  | none => exact h.change fun _ => ⟨⟨rfl, rfl, rfl⟩, rfl, rfl⟩
  | some message => exact h.setStatusMessage _

theorem KeepsAnalysis.showPages (h : KeepsAnalysis before t) (pages : List PageModel)
    (summary : Text) (nativeError databaseError : Option Text) :
    KeepsAnalysis before (t.showPages rounding pages summary nativeError databaseError) := by
  have hpages : KeepsAnalysis before (t.setPages pages) :=
    h.change fun _ => ⟨⟨rfl, rfl, rfl⟩, rfl, rfl⟩
  have hset := @KeepsAnalysis.setCurrentPage before rounding _ hpages nativeError
    (t.setPages pages).state.vm.pages.head?
  rw [Traced.showPages_eq]
  cases hresult : (t.setPages pages).setCurrentPage rounding nativeError
      (t.setPages pages).state.vm.pages.head? with
  | mk t' error =>
      rw [hresult] at hset
      cases error with
      | none => exact (hset.setStatusMessage summary).saveToDatabase databaseError
      | some message => exact hset.setStatusMessage _

theorem KeepsAnalysis.executeLayout (h : KeepsAnalysis before t) (pages : List PageModel)
    (nativeError databaseError : Option Text) :
    KeepsAnalysis before (t.executeLayout rounding pages nativeError databaseError) := by
  by_cases htext : t.state.vm.text = []
  · rw [Traced.executeLayout_of_empty htext]
    have hcleared :
        KeepsAnalysis before (t.change fun vm => { vm with glyphs := [], pages := [] }) :=
      h.change fun _ => ⟨⟨rfl, rfl, rfl⟩, rfl, rfl⟩
    apply KeepsAnalysis.setStatusMessage
    apply KeepsAnalysis.change
    · exact hcleared.setCurrentPage nativeError none
    · exact fun _ => ⟨⟨rfl, rfl, rfl⟩, rfl, rfl⟩
  · rw [Traced.executeLayout_of_text htext]
    exact (h.setStatusMessage _).showPages pages _ nativeError databaseError

theorem KeepsAnalysis.executeColumnLayout (h : KeepsAnalysis before t) (mainWindow : Bool)
    (result : Except Text (List PageModel)) (nativeError databaseError : Option Text) :
    KeepsAnalysis before (t.executeColumnLayout rounding mainWindow result nativeError
      databaseError) := by
  rcases @Traced.executeColumnLayout_cases rounding mainWindow result nativeError databaseError
    t with
    ⟨pages, summary, -, heq⟩ | ⟨-, hstatus⟩
  · rw [heq]
    exact (h.setStatusMessage _).showPages pages summary nativeError databaseError
  · exact hstatus.keeps (KeepsAnalysis before) (fun _ message hu => hu.setStatusMessage message) h

end Keeps

/-! ## The analysis on the way through an operation -/

section Notifications

variable {culture : CompareInfo} {rounding : FloatRounding} {t : Traced}

/-- What the operation leaves and what it lets its listeners find. -/
structure InAnalysis (culture : CompareInfo) (before : EditorViewModel) (t : Traced) : Prop where
  analysed : Analysed culture t.state.vm
  raised : ∀ e ∈ t.raised, AnalysisWhenRaised culture before t.state.vm e

theorem Analysed.of_same {before vm : EditorViewModel} (h : Analysed culture before)
    (hsame : SameAnalysis before vm) : Analysed culture vm := by
  unfold Analysed
  rw [hsame.text, hsame.mainText, hsame.footnotesA, hsame.footnotesB, hsame.footnotesC]
  exact h

theorem KeepsAnalysis.inAnalysis {before : EditorViewModel} (hkeeps : KeepsAnalysis before t)
    (h : Analysed culture before) : InAnalysis culture before t := by
  refine ⟨h.of_same hkeeps.state, fun e he => ?_⟩
  obtain ⟨hsame, htext, hmain⟩ := hkeeps.raised e he
  refine ⟨hsame.text.trans hkeeps.state.text.symm, ?_⟩
  have hanalysed : Analysed culture e.state.vm := h.of_same hsame
  cases hproperty : e.property with
  | text => exact absurd hproperty htext
  | extractedMainText => exact absurd hproperty hmain
  | _ => exact hanalysed

/-- Nothing is extracted from an empty text. -/
theorem extract_nil (culture : CompareInfo) :
    extractContentAndFootnotes culture [] = ⟨[], [], [], []⟩ := by
  unfold extractContentAndFootnotes
  rw [extractPasses_of_blank rfl]
  rfl

/-- The analysis of a text fills the fields with what is extracted from it. -/
theorem updateTextAnalysis_eq (culture : CompareInfo) (t : Traced) :
    let x := extractContentAndFootnotes culture t.state.vm.text
    t.updateTextAnalysis culture =
      ((t.change fun vm => { vm with extractedMainText := x.mainText }).raise
        .extractedMainText).change fun vm =>
          { vm with
            extractedFootnotesA := x.footnotesA
            extractedFootnotesB := x.footnotesB
            extractedFootnotesC := x.footnotesC } := by
  intro x
  unfold Traced.updateTextAnalysis
  split
  · rename_i htext
    have hx : x = ⟨[], [], [], []⟩ := by
      show extractContentAndFootnotes culture t.state.vm.text = _
      rw [htext]
      exact extract_nil culture
    rw [hx]
  · rfl

/-- Assigning the text announces it with the old analysis, then its main text with the old notes,
and leaves the new analysis. -/
theorem inAnalysis_setText {s : TitledViewModel} (h : Analysed culture s.vm) (value : Text) :
    InAnalysis culture s.vm ((Traced.start s).setText culture value) := by
  unfold Traced.setText
  split
  · dsimp only
    rw [updateTextAnalysis_eq]
    refine ⟨rfl, fun e he => ?_⟩
    -- two notifications, of the text and of the main text
    rcases List.mem_pair.mp he with rfl | rfl
    · exact ⟨rfl, rfl, rfl, rfl, rfl⟩
    · exact ⟨rfl, rfl, rfl, rfl, rfl⟩
  · exact (KeepsAnalysis.start s).inAnalysis h

/-- Every operation leaves the analysis of the text, and its listeners find what they are meant
to. -/
theorem inAnalysis_operated {s : TitledViewModel} {op : WindowOperation} (h : Analysed culture s.vm)
    (hop : Operated culture rounding s op t) : InAnalysis culture s.vm t := by
  have hstart := KeepsAnalysis.start s
  cases hop with
  | assignText value => exact inAnalysis_setText h value
  | assignChapterTitle value => exact (hstart.setChapterTitle value).inAnalysis h
  | layout nativeError databaseError pages _ =>
      exact (hstart.executeLayout pages nativeError databaseError).inAnalysis h
  | columnLayout mainWindow result nativeError databaseError =>
      exact (hstart.executeColumnLayout mainWindow result nativeError databaseError).inAnalysis h
  | assignCurrentPage page nativeError =>
      exact (hstart.setCurrentPage nativeError page).inAnalysis h

/-- A step of the window is an operation of which it is told. -/
theorem exists_operated {wpf : WpfMeasures} {s s' : WindowState} {op : WindowOperation}
    (hstep : WindowStep culture rounding wpf s op s') :
    ∃ t, Operated culture rounding s.model op t ∧ s' = s.told wpf t := by
  cases hstep with
  | assignText value => exact ⟨_, .assignText value, rfl⟩
  | assignChapterTitle value => exact ⟨_, .assignChapterTitle value, rfl⟩
  | layout nativeError databaseError pages hpages =>
      exact ⟨_, .layout nativeError databaseError pages hpages, rfl⟩
  | columnLayout mainWindow result nativeError databaseError =>
      exact ⟨_, .columnLayout mainWindow result nativeError databaseError, rfl⟩
  | assignCurrentPage page nativeError _ => exact ⟨_, .assignCurrentPage page nativeError, rfl⟩

/-- Every move keeps the analysis in step. -/
theorem analysed_step (culture : CompareInfo) (rounding : FloatRounding) (wpf : WpfMeasures) :
    ∀ s op s', Analysed culture s.model.vm → WindowStep culture rounding wpf s op s' →
      Analysed culture s'.model.vm := by
  intro s op s' hs hstep
  obtain ⟨t, hop, rfl⟩ := exists_operated hstep
  exact (inAnalysis_operated hs hop).analysed

end Notifications

/-- In every run, whatever fails, the analysis shown before and after an operation is that of the
text. Every listener on the way finds the text that is there afterwards: the listeners to it with
the old analysis, those to its main text with the new main text and the old notes, and all others
with its own analysis. -/
theorem analysis_in_step (culture : CompareInfo) (rounding : FloatRounding) (wpf : WpfMeasures)
    (moves : List (Transition.Move WindowState WindowOperation))
    (hrun : Transition.Run (WindowStep culture rounding wpf) {} moves) :
    ∀ move ∈ moves, ∃ t, Operated culture rounding move.before.model move.action t ∧
      move.after = move.before.told wpf t ∧
      Analysed culture move.before.model.vm ∧ Analysed culture move.after.model.vm ∧
        ∀ e ∈ t.raised,
          AnalysisWhenRaised culture move.before.model.vm move.after.model.vm e := by
  intro move hmove
  obtain ⟨hbefore, hstep⟩ := hrun.forall_move (analysed_step culture rounding wpf)
    (extract_nil culture) move hmove
  obtain ⟨t, hop, hafter⟩ := exists_operated hstep
  have hanalysis := inAnalysis_operated hbefore hop
  have hvm : move.after.model.vm = t.state.vm := by
    rw [hafter]
    rfl
  refine ⟨t, hop, hafter, hbefore, ?_, ?_⟩
  · rw [hvm]
    exact hanalysis.analysed
  · rw [hvm]
    exact hanalysis.raised

theorem analysis_in_step_session :
    ∃ t, Operated .ordinal .exact ({} : WindowState).model (.assignText (utf16 "a")) t ∧
      typedWindow = ({} : WindowState).told flatWpf t ∧
      Analysed .ordinal ({} : WindowState).model.vm ∧ Analysed .ordinal typedWindow.model.vm ∧
        ∀ e ∈ t.raised,
          AnalysisWhenRaised .ordinal ({} : WindowState).model.vm typedWindow.model.vm e :=
  analysis_in_step .ordinal .exact flatWpf windowSession run_windowSession _ List.mem_cons_self

end MainWindow

end Typesetting
