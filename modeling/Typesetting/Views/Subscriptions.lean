/-
# Typesetting.Views.Subscriptions -- whose notifications the window handles

The window draws for the view model in its `DataContext`. Another one may be put there at any time,
or none, or an object that is no view model, and the old one lives on and goes on raising events.
`OnDataContextChanged` moves the subscription, the constructor makes the first one and `OnClosing`
takes it back, together with the one to `DataContextChanged`. The handler takes it for granted that
`DataContext` holds a view model when it is called: the cast and the members it reads fail otherwise.

`OnClosing` cleans up before it asks whether the closing is cancelled. A window that stays open for
this reason never draws again.
-/
import Typesetting.Lib.Transition
import Typesetting.ViewModels.EditorViewModel

namespace Typesetting

namespace MainWindow

/-! ## Events -/

/-- The handlers of an event: the one of the window, and those of others. -/
inductive Handler where
  | window
  | other (id : ℕ)
  deriving DecidableEq

/-- `event += handler` -/
def subscribe (handler : Handler) (handlers : List Handler) : List Handler :=
  handlers ++ [handler]

/-- `event -= handler`, which takes the last one away and does nothing where there is none. -/
def unsubscribe (handler : Handler) (handlers : List Handler) : List Handler :=
  (handlers.reverse.erase handler).reverse

@[simp] theorem count_subscribe (handler other : Handler) (handlers : List Handler) :
    (subscribe other handlers).count handler =
      handlers.count handler + if other = handler then 1 else 0 := by
  simp [subscribe, List.count_singleton]

@[simp] theorem count_unsubscribe (handler other : Handler) (handlers : List Handler) :
    (unsubscribe other handlers).count handler =
      handlers.count handler - if other = handler then 1 else 0 := by
  simp [unsubscribe, List.count_erase]

/-- What `DataContext` holds. -/
inductive DataContext where
  | null
  | viewModel (id : ℕ)
  | other (id : ℕ)
  deriving DecidableEq

/-- `DataContext`, the event that tells that it changed, and `PropertyChanged` of every view
model. -/
structure EventState where
  dataContext : DataContext := .null
  dataContextChanged : List Handler := []
  propertyChanged : ℕ → List Handler := fun _ => []

namespace EventState

/-- The subscribers of a view model change. -/
def update (id : ℕ) (f : List Handler → List Handler) (s : EventState) : EventState :=
  { s with propertyChanged := fun i => if i = id then f (s.propertyChanged i)
      else s.propertyChanged i }

/-! ## The window -/

/-- `OnDataContextChanged(sender, e)` -/
def onDataContextChanged (oldValue newValue : DataContext) (s : EventState) : EventState :=
  let s := match oldValue with
    | .viewModel oldVm => s.update oldVm (unsubscribe .window)
    | _ => s
  match newValue with
  | .viewModel newVm => s.update newVm (subscribe .window)
  | _ => s

/-- The setter of `DataContext`, which raises `DataContextChanged` when the value is another. -/
def setDataContext (value : DataContext) (s : EventState) : EventState :=
  if s.dataContext = value then s
  else
    s.dataContextChanged.foldl
      (fun s' handler => match handler with
        | .window => s'.onDataContextChanged s.dataContext value
        | .other _ => s')
      { s with dataContext := value }

/-- `MainWindow()`; `InitializeComponent` has put a view model into `DataContext`. -/
def construct (s : EventState) : EventState :=
  let s := { s with dataContextChanged := subscribe .window s.dataContextChanged }
  match s.dataContext with
  | .viewModel vm => s.update vm (subscribe .window)
  | _ => s

/-- `OnClosing(e)` -/
def onClosing (s : EventState) : EventState :=
  let s := match s.dataContext with
    | .viewModel vm => s.update vm (unsubscribe .window)
    | _ => s
  { s with dataContextChanged := unsubscribe .window s.dataContextChanged }

/-- What a call of `OnViewModelPropertyChanged` comes to. -/
inductive Handled where
  | ignored
  | drawn (vm : ℕ)
  /-- `vm` is null where its members are read -/
  | nullReference
  | invalidCast
  deriving DecidableEq

/-- `OnViewModelPropertyChanged(sender, e)` -/
def onViewModelPropertyChanged (property : Property) (s : EventState) : Handled :=
  if property = .glyphs ∨ property = .currentPage then
    match s.dataContext with
    | .viewModel vm => .drawn vm
    | .null => .nullReference
    | .other _ => .invalidCast
  else .ignored

/-- A view model raises `PropertyChanged`: what the calls of the window's handler come to. -/
def announce (vm : ℕ) (property : Property) (s : EventState) : List Handled :=
  (s.propertyChanged vm).filterMap fun handler => match handler with
    | .window => some (s.onViewModelPropertyChanged property)
    | .other _ => none

end EventState

/-- What happens to the window and around it. -/
inductive WindowEvent where
  | setDataContext (value : DataContext)
  /-- the window is being closed; this may be cancelled -/
  | closing
  | otherSubscribes (vm handler : ℕ)
  | otherUnsubscribes (vm handler : ℕ)
  deriving DecidableEq

/-- The state after an event. -/
def EventState.after (s : EventState) : WindowEvent → EventState
  | .setDataContext value => s.setDataContext value
  | .closing => s.onClosing
  | .otherSubscribes vm handler => s.update vm (subscribe (.other handler))
  | .otherUnsubscribes vm handler => s.update vm (unsubscribe (.other handler))

/-- One event. -/
def EventStep (s : EventState) (event : WindowEvent) (s' : EventState) : Prop :=
  s' = s.after event

/-! ## Where the window is subscribed -/

section Subscribed

/-- The window is subscribed to the view model in `DataContext` and to `DataContext` itself, once
each and to nothing else, until it is closing. -/
structure Subscribed (closing : Bool) (s : EventState) : Prop where
  context : s.dataContextChanged.count .window = if closing then 0 else 1
  models : ∀ vm, (s.propertyChanged vm).count .window =
    if closing = false ∧ s.dataContext = .viewModel vm then 1 else 0

variable {closing : Bool} {s : EventState}

@[simp] theorem dataContext_update (id : ℕ) (f : List Handler → List Handler) (s : EventState) :
    (s.update id f).dataContext = s.dataContext := rfl

@[simp] theorem dataContextChanged_update (id : ℕ) (f : List Handler → List Handler)
    (s : EventState) : (s.update id f).dataContextChanged = s.dataContextChanged := rfl

theorem count_update (vm id : ℕ) (f : List Handler → List Handler) (handler : Handler) :
    ((s.update id f).propertyChanged vm).count handler =
      if vm = id then (f (s.propertyChanged vm)).count handler
      else (s.propertyChanged vm).count handler := by
  unfold EventState.update
  dsimp only
  split <;> rfl

/-- The handler of the window moves the subscription from the old view model to the new one. -/
theorem count_onDataContextChanged (oldValue newValue : DataContext) (vm : ℕ) :
    ((s.onDataContextChanged oldValue newValue).propertyChanged vm).count .window =
      (s.propertyChanged vm).count .window - (if oldValue = .viewModel vm then 1 else 0) +
        if newValue = .viewModel vm then 1 else 0 := by
  unfold EventState.onDataContextChanged
  cases oldValue <;> cases newValue <;>
    simp only [count_update, count_subscribe, count_unsubscribe, DataContext.viewModel.injEq,
      reduceCtorEq, if_false, if_true, Nat.sub_zero, Nat.add_zero] <;> grind

/-- Calling the subscribers runs the handler of the window as often as it is subscribed. -/
theorem foldl_handlers (f : EventState → EventState) (handlers : List Handler)
    (s : EventState) :
    handlers.foldl (fun s' handler => match handler with
        | .window => f s'
        | .other _ => s') s = f^[handlers.count .window] s := by
  induction handlers generalizing s with
  | nil => rfl
  | cons handler handlers ih =>
      rw [List.foldl_cons, ih]
      cases handler with
      | window => rw [List.count_cons_self, Function.iterate_succ_apply]
      | other id => rw [List.count_cons_of_ne Handler.noConfusion]

theorem count_setDataContext_of_ne {value : DataContext} (h : s.dataContext ≠ value) :
    s.setDataContext value =
      (EventState.onDataContextChanged s.dataContext value)^[s.dataContextChanged.count .window]
        { s with dataContext := value } := by
  unfold EventState.setDataContext
  rw [if_neg h]
  exact foldl_handlers _ _ _

theorem dataContext_onDataContextChanged (oldValue newValue : DataContext) (s : EventState) :
    (s.onDataContextChanged oldValue newValue).dataContext = s.dataContext ∧
      (s.onDataContextChanged oldValue newValue).dataContextChanged = s.dataContextChanged := by
  cases oldValue <;> cases newValue <;> exact ⟨rfl, rfl⟩

theorem Subscribed.setDataContext (h : Subscribed closing s) (value : DataContext) :
    Subscribed closing (s.setDataContext value) := by
  by_cases hsame : s.dataContext = value
  · unfold EventState.setDataContext
    rw [if_pos hsame]
    exact h
  · rw [count_setDataContext_of_ne hsame, h.context]
    cases closing with
    | true =>
        refine ⟨h.context, fun vm => ?_⟩
        have hmodels := h.models vm
        simpa using hmodels
    | false =>
        obtain ⟨hcontext, hchanged⟩ :=
          dataContext_onDataContextChanged s.dataContext value { s with dataContext := value }
        refine ⟨?_, fun vm => ?_⟩
        · show ((EventState.onDataContextChanged _ _ _).dataContextChanged).count .window = 1
          rw [hchanged]
          exact h.context
        · show ((EventState.onDataContextChanged _ _ _).propertyChanged vm).count .window =
            if false = false ∧ (EventState.onDataContextChanged _ _ _).dataContext = _ then 1 else 0
          have hmodels := h.models vm
          rw [count_onDataContextChanged, hcontext]
          simp only [true_and] at hmodels ⊢
          rw [hmodels, Nat.sub_self, Nat.zero_add]

theorem Subscribed.onClosing (h : Subscribed closing s) : Subscribed true s.onClosing := by
  have hcontext := h.context
  constructor
  · unfold EventState.onClosing
    cases s.dataContext <;> simp only [EventState.update, count_unsubscribe, if_true] <;>
      rw [hcontext] <;> split <;> rfl
  · intro vm
    have hmodels := h.models vm
    unfold EventState.onClosing
    cases hdata : s.dataContext <;> rw [hdata] at hmodels <;>
      simp only [count_update, count_unsubscribe, hmodels] <;> grind

/-- What others do with their own handlers is no matter. -/
theorem Subscribed.others (h : Subscribed closing s) (id : ℕ) {f : List Handler → List Handler}
    (hf : ∀ handlers, (f handlers).count .window = handlers.count .window) :
    Subscribed closing (s.update id f) := by
  refine ⟨h.context, fun vm => ?_⟩
  rw [count_update, hf, ite_self]
  exact h.models vm

theorem Subscribed.step {s' : EventState} {event : WindowEvent} (h : Subscribed closing s)
    (hstep : EventStep s event s') : Subscribed (closing || event == .closing) s' := by
  subst hstep
  cases event with
  | setDataContext value =>
      rw [show (WindowEvent.setDataContext value == .closing) = false from rfl, Bool.or_false]
      exact h.setDataContext value
  | closing =>
      rw [show (WindowEvent.closing == .closing) = true from rfl, Bool.or_true]
      exact h.onClosing
  | otherSubscribes vm handler =>
      rw [show (WindowEvent.otherSubscribes vm handler == .closing) = false from rfl, Bool.or_false]
      exact h.others vm fun handlers => by simp
  | otherUnsubscribes vm handler =>
      rw [show (WindowEvent.otherUnsubscribes vm handler == .closing) = false from rfl,
        Bool.or_false]
      exact h.others vm fun handlers => by simp

/-- The constructor makes the first subscription. -/
theorem subscribed_construct (hcontext : s.dataContextChanged.count .window = 0)
    (hmodels : ∀ vm, (s.propertyChanged vm).count .window = 0) :
    Subscribed false s.construct := by
  constructor
  · unfold EventState.construct
    cases s.dataContext <;> simp [EventState.update, hcontext]
  · intro vm
    unfold EventState.construct
    cases s.dataContext with
    | null => simp [hmodels]
    | other id => simp [hmodels]
    | viewModel id => simp [count_update, hmodels, eq_comm]

/-- A subscribed window handles what its own view model raises, once. -/
theorem Subscribed.announce (h : Subscribed closing s) (vm : ℕ) (property : Property) :
    s.announce vm property =
      if closing = false ∧ s.dataContext = .viewModel vm then
        if property = .glyphs ∨ property = .currentPage then [.drawn vm] else [.ignored]
      else [] := by
  have hcalls : ∀ handlers : List Handler,
      (handlers.filterMap fun handler => match handler with
        | .window => some (s.onViewModelPropertyChanged property)
        | .other _ => none) =
      List.replicate (handlers.count .window) (s.onViewModelPropertyChanged property) := by
    intro handlers
    induction handlers with
    | nil => rfl
    | cons handler handlers ih =>
        cases handler with
        | window => rw [List.count_cons_self, List.replicate_succ, ← ih]; rfl
        | other id => rw [List.count_cons_of_ne Handler.noConfusion, ← ih]; rfl
  unfold EventState.announce
  rw [hcalls, h.models vm]
  split
  · rename_i hfollowed
    unfold EventState.onViewModelPropertyChanged
    rw [hfollowed.2]
    split <;> rfl
  · rfl

end Subscribed

/-- In every run of the window the notifications of a view model are handled, each once and with the
drawing of that view model, exactly while it is the `DataContext` and the window has not begun to
close. The handler is never called where its cast or its reads would fail. -/
theorem announce_handled_once (s : EventState)
    (hcontext : s.dataContextChanged.count .window = 0)
    (hmodels : ∀ vm, (s.propertyChanged vm).count .window = 0)
    (moves : List (Transition.Move EventState WindowEvent))
    (hrun : Transition.Run EventStep s.construct moves) (vm : ℕ) (property : Property) :
    let now := Transition.last s.construct moves
    now.announce vm property =
      if (∀ move ∈ moves, move.action ≠ .closing) ∧ now.dataContext = .viewModel vm then
        if property = .glyphs ∨ property = .currentPage then [.drawn vm] else [.ignored]
      else [] := by
  have hsubscribed : Subscribed (false || moves.any fun m => m.action == .closing)
      (Transition.last s.construct moves) :=
    hrun.last_of_history (fun _ _ _ _ h hstep => h.step hstep)
      (subscribed_construct hcontext hmodels)
  have hclosing : (moves.any fun m => m.action == .closing) = false ↔
      ∀ move ∈ moves, move.action ≠ .closing := by
    simp
  intro now
  rw [Bool.false_or] at hsubscribed
  rw [hsubscribed.announce vm property]
  simp only [hclosing, now]

/-! ## A window whose view model is exchanged for another and back -/

def exchangeEvents : List WindowEvent :=
  [.setDataContext (.viewModel 1), .otherSubscribes 0 7, .setDataContext .null,
    .setDataContext (.viewModel 0)]

/-- The run with the given events. -/
def eventRun (s : EventState) : List WindowEvent → List (Transition.Move EventState WindowEvent)
  | [] => []
  | event :: events => ⟨s, event, s.after event⟩ :: eventRun (s.after event) events

theorem run_eventRun (s : EventState) (events : List WindowEvent) :
    Transition.Run EventStep s (eventRun s events) := by
  induction events generalizing s with
  | nil => exact .stop s
  | cons event events ih => exact .move rfl (ih _)

theorem announce_handled_once_exchange :
    let s : EventState := { dataContext := .viewModel 0 }
    (Transition.last s.construct (eventRun s.construct exchangeEvents)).announce 0 .glyphs =
      [.drawn 0] := by
  intro s
  rw [announce_handled_once s rfl (fun _ => rfl) _ (run_eventRun _ exchangeEvents) 0 .glyphs]
  decide

end MainWindow

end Typesetting
