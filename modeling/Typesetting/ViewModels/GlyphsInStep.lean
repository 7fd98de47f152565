/-
# Typesetting.ViewModels.GlyphsInStep -- when the glyphs shown belong to the current page

Four fields have to stay in step: the pages, the current page, its glyphs and their number. The
setter of `CurrentPage` loads the glyphs of a page but leaves them alone when the selection is
cleared, while the empty-text branch of `ExecuteLayout` clears them itself. So the fields fall out
of step exactly where the selection is cleared by another way, by an assignment of null or by a
layout without pages, while glyphs are shown.

One lemma for each operation says what it leaves in the four fields; the theorem about runs is the
exactness rule for transition systems applied to them.
-/
import Typesetting.Lib.Transition
import Typesetting.ViewModels.EditorViewModel

namespace Typesetting

namespace EditorViewModel

/-- The fields the window shows. -/
structure Display where
  pages : List PageObject
  currentPage : Option PageObject
  glyphs : List GlyphInfo
  lastGlyphCount : Nat

def display (vm : EditorViewModel) : Display :=
  ⟨vm.pages, vm.currentPage, vm.glyphs, vm.lastGlyphCount⟩

/-- The glyphs that belong to a selection: those `LayoutText` makes of the main lines. -/
def glyphsFor (rounding : FloatRounding) : Option PageObject → List GlyphInfo
  | none => []
  | some object =>
    if object.page.allMainLines = [] then []
    else layoutResult rounding (mainContent object.page)

/-- The four fields agree. -/
structure InStep (rounding : FloatRounding) (d : Display) : Prop where
  current_mem : ∀ object, d.currentPage = some object → object ∈ d.pages
  glyphs_eq : d.glyphs = glyphsFor rounding d.currentPage
  count_eq : d.lastGlyphCount = d.glyphs.length

/-- The operations after which nothing is selected although nothing clears the glyphs: null is
assigned to `CurrentPage`, or a text without main text is laid out. -/
def ClearsSelection (culture : CompareInfo) (vm : EditorViewModel) : Operation → Prop
  | .assignText _ => False
  | .layout _ _ =>
    vm.text ≠ [] ∧ (extractContentAndFootnotes culture vm.text).mainText = []
  | .assignCurrentPage page _ => page = none

/-- The selection is cleared in these ways only while no glyph is shown. -/
def ClearsOnlyWithoutGlyphs (culture : CompareInfo) (vm : EditorViewModel) (op : Operation) :
    Prop :=
  ClearsSelection culture vm op → vm.glyphs = []

/-- Pages on display carry main lines, and identities are handed out once. -/
structure Sound (vm : EditorViewModel) : Prop where
  pages_lines : ∀ object ∈ vm.pages, object.page.allMainLines ≠ []
  pages_id : ∀ object ∈ vm.pages, object.id < vm.nextId
  current_id : ∀ object, vm.currentPage = some object → object.id < vm.nextId

/-! ## What each operation leaves in the four fields -/

section Operations

variable {culture : CompareInfo} {rounding : FloatRounding} {vm : EditorViewModel}

@[simp] theorem setText_display (value : Text) :
    (vm.setText culture value).display = vm.display := by
  obtain ⟨x, hset⟩ := exists_setText culture value vm
  rw [hset]
  rfl

@[simp] theorem setText_nextId (value : Text) : (vm.setText culture value).nextId = vm.nextId := by
  obtain ⟨x, hset⟩ := exists_setText culture value vm
  rw [hset]

@[simp] theorem saveToDatabase_display (databaseError : Option Text) :
    (vm.saveToDatabase databaseError).display = vm.display := by
  cases databaseError with
  | none => rfl
  | some message =>
      rw [saveToDatabase_throws]
      rfl

@[simp] theorem saveToDatabase_nextId (databaseError : Option Text) :
    (vm.saveToDatabase databaseError).nextId = vm.nextId := by
  cases databaseError with
  | none => rfl
  | some message => rw [saveToDatabase_throws]

/-- Assigning a page with main lines: either it was the current one, or its glyphs are loaded. -/
theorem setCurrentPage_some {object : PageObject} (hlines : object.page.allMainLines ≠ []) :
    setCurrentPage rounding none (some object) vm = (vm, none) ∨
      setCurrentPage rounding none (some object) vm =
        ({ vm with
            currentPage := some object
            lastGlyphCount := (layoutResult rounding (mainContent object.page)).length
            glyphs := layoutResult rounding (mainContent object.page) }, none) := by
  rw [setCurrentPage_eq]
  split
  · right
    exact loadGlyphsForPage_none hlines
  · left
    rfl

/-- Another page than the current one is shown with its glyphs. -/
theorem setCurrentPage_new {object : PageObject} (hlines : object.page.allMainLines ≠ [])
    (hnew : vm.currentPage.map PageObject.id ≠ some object.id) :
    setCurrentPage rounding none (some object) vm =
      ({ vm with
          currentPage := some object
          lastGlyphCount := (layoutResult rounding (mainContent object.page)).length
          glyphs := layoutResult rounding (mainContent object.page) }, none) := by
  rw [setCurrentPage_of_ne hnew]
  exact loadGlyphsForPage_none hlines

/-- Assigning null clears the selection and nothing else. -/
theorem setCurrentPage_none (nativeError : Option Text) :
    setCurrentPage rounding nativeError none vm = ({ vm with currentPage := none }, none) := by
  rw [setCurrentPage_eq]
  split
  · rfl
  · rename_i hsame
    have hnone : vm.currentPage = none := by simpa using hsame
    rw [← hnone]

theorem head?_newObjects (nextId : Nat) (first : PageModel) (rest : List PageModel) :
    (newObjects nextId (first :: rest)).head? = some ⟨nextId, first⟩ := by
  simp [newObjects]

theorem executeLayout_of_text_nil (htext : vm.text = []) (pages : List PageModel)
    (nativeError databaseError : Option Text) :
    (vm.executeLayout rounding pages nativeError databaseError).display = ⟨[], none, [], 0⟩ ∧
      (vm.executeLayout rounding pages nativeError databaseError).nextId = vm.nextId := by
  rw [executeLayout_of_empty htext, setCurrentPage_none]
  exact ⟨rfl, rfl⟩

/-- A layout without pages clears the selection and leaves the glyphs. -/
theorem executeLayout_no_page (htext : vm.text ≠ []) (nativeError databaseError : Option Text) :
    (vm.executeLayout rounding [] nativeError databaseError).display =
        ⟨[], none, vm.glyphs, vm.lastGlyphCount⟩ ∧
      (vm.executeLayout rounding [] nativeError databaseError).nextId = vm.nextId := by
  rw [executeLayout_of_text htext]
  simp only [withNewPages, newObjects, List.mapIdx_nil, List.head?_nil, setCurrentPage_none]
  exact ⟨saveToDatabase_display _, saveToDatabase_nextId _⟩

/-- A layout shows the first of its pages with its glyphs, whatever was shown before. -/
theorem executeLayout_first_page (htext : vm.text ≠ [])
    (hcurrent : ∀ object, vm.currentPage = some object → object.id < vm.nextId) {first : PageModel}
    (rest : List PageModel) (hlines : first.allMainLines ≠ []) (databaseError : Option Text) :
    (vm.executeLayout rounding (first :: rest) none databaseError).display =
        ⟨newObjects vm.nextId (first :: rest), some ⟨vm.nextId, first⟩,
          layoutResult rounding (mainContent first),
          (layoutResult rounding (mainContent first)).length⟩ ∧
      (vm.executeLayout rounding (first :: rest) none databaseError).nextId =
        vm.nextId + (first :: rest).length := by
  have hnew : vm.currentPage.map PageObject.id ≠ some vm.nextId := by
    intro hsame
    obtain ⟨object, hobject, hid⟩ := Option.map_eq_some_iff.mp hsame
    have hlt := hcurrent object hobject
    omega
  rw [executeLayout_of_text htext]
  simp only [withNewPages, head?_newObjects]
  rw [setCurrentPage_new hlines hnew]
  exact ⟨saveToDatabase_display _, saveToDatabase_nextId _⟩

end Operations

/-! ## The pages a layout gets -/

theorem paginates_no_page {culture : CompareInfo} {rawText : Text} {pages : List PageModel}
    (hpages : paginationEngine.Paginates culture rawText pages)
    (hmain : (extractContentAndFootnotes culture rawText).mainText = []) : pages = [] :=
  hpages.unique (PaginationEngine.paginates_of_mainText_nil hmain)

theorem paginates_one_page {culture : CompareInfo} {rawText : Text} {pages : List PageModel}
    (hpages : paginationEngine.Paginates culture rawText pages)
    (hmain : (extractContentAndFootnotes culture rawText).mainText ≠ []) :
    ∃ page, pages = [page] ∧ page.allMainLines ≠ [] := by
  refine ⟨_, hpages.unique (PaginationEngine.paginates_of_mainText_fits hmain ?_), ?_⟩
  · exact PaginationEngine.calculateLineHeight_default_le _
  · rw [PaginationEngine.onlyPage_allMainLines]
    exact List.cons_ne_nil _ _

/-- The three outcomes of a layout: the empty text, a text of notes alone, and a text with a main
text, whose page becomes the current one. -/
theorem executeLayout_cases {culture : CompareInfo} (rounding : FloatRounding)
    {vm : EditorViewModel} (hsound : Sound vm) {pages : List PageModel}
    (hpages : paginationEngine.Paginates culture vm.text pages) (databaseError : Option Text) :
    let vm' := vm.executeLayout rounding pages none databaseError
    (vm.text = [] ∧ vm'.display = ⟨[], none, [], 0⟩ ∧ vm'.nextId = vm.nextId) ∨
      ((vm.text ≠ [] ∧ (extractContentAndFootnotes culture vm.text).mainText = []) ∧
        vm'.display = ⟨[], none, vm.glyphs, vm.lastGlyphCount⟩ ∧ vm'.nextId = vm.nextId) ∨
      ((extractContentAndFootnotes culture vm.text).mainText ≠ [] ∧
        ∃ page, page.allMainLines ≠ [] ∧ vm'.nextId = vm.nextId + 1 ∧
          vm'.display = ⟨[⟨vm.nextId, page⟩], some ⟨vm.nextId, page⟩,
            layoutResult rounding (mainContent page),
            (layoutResult rounding (mainContent page)).length⟩) := by
  by_cases htext : vm.text = []
  · left
    exact ⟨htext, executeLayout_of_text_nil htext pages none databaseError⟩
  · right
    by_cases hmain : (extractContentAndFootnotes culture vm.text).mainText = []
    · left
      obtain rfl := paginates_no_page hpages hmain
      exact ⟨⟨htext, hmain⟩, executeLayout_no_page htext none databaseError⟩
    · right
      obtain ⟨page, rfl, hlines⟩ := paginates_one_page hpages hmain
      obtain ⟨hdisplay, hid⟩ := executeLayout_first_page htext hsound.current_id [] hlines
        databaseError
      exact ⟨hmain, page, hlines, hid, hdisplay⟩

/-! ## One operation -/

/-- An operation during which no native call throws. -/
def SucceedingStep (culture : CompareInfo) (rounding : FloatRounding) (vm : EditorViewModel)
    (op : Operation) (vm' : EditorViewModel) : Prop :=
  op.NativeSucceeds ∧ Step culture rounding vm op vm'

section OneStep

variable {culture : CompareInfo} {rounding : FloatRounding} {vm vm' : EditorViewModel}
  {op : Operation}

theorem Sound.of_display (hsound : Sound vm) (hdisplay : vm'.display = vm.display)
    (hid : vm'.nextId = vm.nextId) : Sound vm' := by
  obtain ⟨hpages, hcurrent, -, -⟩ := Display.mk.inj hdisplay
  refine ⟨?_, ?_, ?_⟩
  · rw [hpages]
    exact hsound.pages_lines
  · rw [hpages, hid]
    exact hsound.pages_id
  · rw [hcurrent, hid]
    exact hsound.current_id

/-- Without pages and without a selection there is nothing to check. -/
theorem Sound.of_empty {glyphs : List GlyphInfo} {lastGlyphCount : Nat}
    (hdisplay : vm.display = ⟨[], none, glyphs, lastGlyphCount⟩) : Sound vm := by
  obtain ⟨hpages, hcurrent, -, -⟩ := Display.mk.inj hdisplay
  refine ⟨?_, ?_, ?_⟩
  · intro object hobject
    rw [hpages] at hobject
    cases hobject
  · intro object hobject
    rw [hpages] at hobject
    cases hobject
  · intro object hobject
    rw [hcurrent] at hobject
    cases hobject

theorem Sound.step (hsound : Sound vm) (hstep : SucceedingStep culture rounding vm op vm') :
    Sound vm' := by
  obtain ⟨hnative, hstep⟩ := hstep
  cases hstep with
  | assignText value => exact hsound.of_display (setText_display value) (setText_nextId value)
  | layout nativeError databaseError pages hpages =>
      obtain rfl : nativeError = none := hnative
      rcases executeLayout_cases rounding hsound hpages databaseError with
        ⟨-, hdisplay, -⟩ | ⟨-, hdisplay, -⟩ | ⟨-, page, hlines, hid, hdisplay⟩
      · exact Sound.of_empty hdisplay
      · exact Sound.of_empty hdisplay
      · obtain ⟨hpages', hcurrent', -, -⟩ := Display.mk.inj hdisplay
        refine ⟨?_, ?_, ?_⟩
        · rw [hpages']
          simpa using hlines
        · rw [hpages', hid]
          simp
        · rw [hcurrent', hid]
          simp
  | assignCurrentPage page nativeError hmem =>
      obtain rfl : nativeError = none := hnative
      cases page with
      | none =>
          rw [setCurrentPage_none]
          exact ⟨hsound.pages_lines, hsound.pages_id, (fun _ h => nomatch h)⟩
      | some object =>
          have hobject : object ∈ vm.pages := hmem object rfl
          have hset : setCurrentPage rounding none (some object) vm = (vm, none) ∨ _ :=
            setCurrentPage_some (hsound.pages_lines object hobject)
          rcases hset with heq | heq
          · rw [heq]
            exact hsound
          · rw [heq]
            refine ⟨hsound.pages_lines, hsound.pages_id, ?_⟩
            intro other hother
            obtain rfl := Option.some.inj hother
            exact hsound.pages_id object hobject

/-- After an operation the fields agree exactly when it did not clear the selection while glyphs
were shown. -/
theorem inStep_step_iff (hsound : Sound vm) (hin : InStep rounding vm.display)
    (hstep : SucceedingStep culture rounding vm op vm') :
    InStep rounding vm'.display ↔ ClearsOnlyWithoutGlyphs culture vm op := by
  obtain ⟨hnative, hstep⟩ := hstep
  -- glyphs that stay behind without a selection are in step only if there are none
  have hleft : ∀ pages, InStep rounding ⟨pages, none, vm.glyphs, vm.lastGlyphCount⟩ ↔
      vm.glyphs = [] := by
    intro pages
    constructor
    · intro h
      exact h.glyphs_eq
    · intro h
      exact ⟨(fun _ hsome => nomatch hsome), h, hin.count_eq⟩
  cases hstep with
  | assignText value =>
      rw [setText_display]
      exact ⟨fun _ hclears => hclears.elim, fun _ => hin⟩
  | layout nativeError databaseError pages hpages =>
      obtain rfl : nativeError = none := hnative
      rcases executeLayout_cases rounding hsound hpages databaseError with
        ⟨htext, hdisplay, -⟩ | ⟨hclears, hdisplay, -⟩ | ⟨hmain, page, hlines, -, hdisplay⟩
      · rw [hdisplay]
        refine ⟨fun _ hclears => absurd htext hclears.1, fun _ => ?_⟩
        exact ⟨(fun _ hsome => nomatch hsome), rfl, rfl⟩
      · rw [hdisplay, hleft]
        exact ⟨fun h _ => h, fun hok => hok hclears⟩
      · rw [hdisplay]
        refine ⟨fun _ hclears => absurd hclears.2 hmain, fun _ => ⟨?_, ?_, rfl⟩⟩
        · rintro object ⟨⟩
          exact List.mem_singleton_self _
        · exact (if_neg hlines).symm
  | assignCurrentPage page nativeError hmem =>
      obtain rfl : nativeError = none := hnative
      cases page with
      | none =>
          rw [setCurrentPage_none]
          exact (hleft vm.pages).trans ⟨fun h _ => h, fun hok => hok rfl⟩
      | some object =>
          have hobject : object ∈ vm.pages := hmem object rfl
          have hlines := hsound.pages_lines object hobject
          refine ⟨(fun _ hclears => nomatch hclears), fun _ => ?_⟩
          have hset : setCurrentPage rounding none (some object) vm = (vm, none) ∨ _ :=
            setCurrentPage_some hlines
          rcases hset with heq | heq
          · rw [heq]
            exact hin
          · rw [heq]
            refine ⟨?_, (if_neg hlines).symm, rfl⟩
            rintro other ⟨⟩
            exact hobject

end OneStep

/-! ## Runs -/

theorem sound_initial : Sound {} :=
  ⟨(fun _ h => nomatch h), (fun _ h => nomatch h), (fun _ h => nomatch h)⟩

theorem inStep_initial (rounding : FloatRounding) : InStep rounding (display {}) :=
  ⟨(fun _ h => nomatch h), rfl, rfl⟩

/-- In every run from the initial state, pages, selection, glyphs and their number agree in all
states exactly when no operation clears the selection while glyphs are shown. -/
theorem glyphs_in_step_iff (culture : CompareInfo) (rounding : FloatRounding)
    (moves : List (Transition.Move EditorViewModel Operation))
    (hrun : Transition.Run (SucceedingStep culture rounding) {} moves) :
    (∀ vm ∈ Transition.visited {} moves, InStep rounding vm.display) ↔
      ∀ move ∈ moves, ClearsOnlyWithoutGlyphs culture move.before move.action := by
  have hbase : ∀ vm op vm', Sound vm → SucceedingStep culture rounding vm op vm' → Sound vm' :=
    fun _ _ _ hsound hstep => hsound.step hstep
  have hexact : ∀ vm op vm', Sound vm → InStep rounding vm.display →
      SucceedingStep culture rounding vm op vm' →
      (InStep rounding vm'.display ↔ ClearsOnlyWithoutGlyphs culture vm op) :=
    fun _ _ _ hsound hin hstep => inStep_step_iff hsound hin hstep
  exact Transition.Run.forall_visited_iff hbase hexact hrun sound_initial (inStep_initial rounding)

/-! ## A session: a letter is typed and laid out -/

def typed : EditorViewModel := setText .ordinal (utf16 "a") {}

def laidOut : EditorViewModel :=
  typed.executeLayout .exact
    [paginationEngine.onlyPage (extractContentAndFootnotes .ordinal typed.text)] none none

def session : List (Transition.Move EditorViewModel Operation) :=
  [⟨{}, .assignText (utf16 "a"), typed⟩, ⟨typed, .layout none none, laidOut⟩]

theorem mainText_typed : (extractContentAndFootnotes .ordinal typed.text).mainText ≠ [] := by
  decide +kernel

theorem step_typed : SucceedingStep .ordinal .exact {} (.assignText (utf16 "a")) typed :=
  ⟨trivial, Step.assignText {} _⟩

theorem step_laidOut : SucceedingStep .ordinal .exact typed (.layout none none) laidOut := by
  refine ⟨rfl, Step.layout typed none none _ ?_⟩
  exact PaginationEngine.paginates_of_mainText_fits mainText_typed
    (PaginationEngine.calculateLineHeight_default_le _)

theorem run_session : Transition.Run (SucceedingStep .ordinal .exact) {} session :=
  .move step_typed (.move step_laidOut (.stop laidOut))

theorem glyphs_in_step_session :
    (∀ move ∈ session, ClearsOnlyWithoutGlyphs .ordinal move.before move.action) ∧
      ∀ vm ∈ Transition.visited {} session, InStep .exact vm.display := by
  have hok : ∀ move ∈ session, ClearsOnlyWithoutGlyphs .ordinal move.before move.action := by
    intro move hmove hclears
    rcases List.mem_pair.mp hmove with rfl | rfl
    · exact hclears.elim
    · exact absurd hclears.2 mainText_typed
  exact ⟨hok, (glyphs_in_step_iff .ordinal .exact session run_session).mpr hok⟩

/-- Then the selection is cleared: the glyph of the letter stays on display. -/
theorem glyphs_out_of_step_after_null :
    ¬ ∀ (culture : CompareInfo) (rounding : FloatRounding)
        (moves : List (Transition.Move EditorViewModel Operation)),
        Transition.Run (SucceedingStep culture rounding) {} moves →
          ∀ vm ∈ Transition.visited {} moves, InStep rounding vm.display := by
  intro hall
  have hclear : SucceedingStep .ordinal .exact laidOut (.assignCurrentPage none none)
      (laidOut.setCurrentPage .exact none none).1 :=
    ⟨rfl, Step.assignCurrentPage laidOut none none (fun _ h => nomatch h)⟩
  have hrun := Transition.Run.move step_typed (.move step_laidOut (.move hclear (.stop _)))
  have hin := hall .ordinal .exact _ hrun (laidOut.setCurrentPage .exact none none).1
    (by simp [Transition.visited])
  have hglyphs := hin.glyphs_eq
  rw [setCurrentPage_none] at hglyphs
  have hshown : laidOut.glyphs.length = 1 := by decide +kernel
  rw [show laidOut.glyphs = [] from hglyphs] at hshown
  exact absurd hshown (by decide)

end EditorViewModel

end Typesetting
