/-
# Typesetting.Lib.LineBuilder -- loops that build lines word by word

A loop keeps the lines written so far and the current line. A word starts the current line, joins
it behind a separator when the longer line still fits, or sends it to the lines and starts the next
one. Whatever else the state of the loop holds, such a loop breaks the words by first fit.
-/
import Typesetting.Lib.FirstFit
import Typesetting.Lib.Segment

namespace LineBuilder

variable {α σ : Type*}

/-- A loop body on states of which `lines` and `current` are a view. It is only asked to work on
states that are `good`, for words that are not empty; a finished line is written by `write`. -/
structure IsBuilder (sep : α) (fits : List α → Prop) (write : List α → List α)
    (lines : σ → List (List α)) (current : σ → List α) (good : σ → Prop)
    (step : σ → List α → σ) : Prop where
  good_step : ∀ st w, good st → w ≠ [] → good (step st w)
  start : ∀ st w, good st → w ≠ [] → current st = [] →
    lines (step st w) = lines st ∧ current (step st w) = w
  room : ∀ st w, good st → w ≠ [] → current st ≠ [] → fits (current st ++ [sep] ++ w) →
    lines (step st w) = lines st ∧ current (step st w) = current st ++ [sep] ++ w
  full : ∀ st w, good st → w ≠ [] → current st ≠ [] → ¬ fits (current st ++ [sep] ++ w) →
    lines (step st w) = lines st ++ [write (current st)] ∧ current (step st w) = w

/-- A group of words fits when the line it makes does. -/
def FitsJoined (sep : α) (fits : List α → Prop) (words : List (List α)) : Prop :=
  fits ([sep].intercalate words)

instance (sep : α) (fits : List α → Prop) [DecidablePred fits] :
    DecidablePred (FitsJoined sep fits) := fun words =>
  inferInstanceAs (Decidable (fits ([sep].intercalate words)))

section Simulation

variable {sep : α} {fits : List α → Prop} {write : List α → List α}
  {lines : σ → List (List α)} {current : σ → List α} {good : σ → Prop}
  {body : σ → List α → σ}

/-- The lines are `before` and the closed groups, the current line is the open group. -/
structure Simulates (write : List α → List α) (sep : α) (lines : σ → List (List α))
    (current : σ → List α) (good : σ → Prop) (before : List (List α)) (st : σ)
    (s : FirstFit.State (List α)) : Prop where
  good : good st
  lines : lines st = before ++ s.closed.map fun g => write ([sep].intercalate g)
  current : current st = [sep].intercalate s.current
  nonempty : ∀ w ∈ s.current, w ≠ []

variable {before : List (List α)} {st : σ} {s : FirstFit.State (List α)}

theorem Simulates.current_eq_nil_iff
    (h : Simulates write sep lines current good before st s) :
    current st = [] ↔ s.current = [] := by
  rw [h.current]
  exact Segment.intercalate_eq_nil_iff h.nonempty

theorem Simulates.step [DecidablePred fits]
    (hbuilder : IsBuilder sep fits write lines current good body)
    (h : Simulates write sep lines current good before st s) {w : List α} (hw : w ≠ []) :
    Simulates write sep lines current good before (body st w)
      (FirstFit.place (FitsJoined sep fits) s w) := by
  have hgood := hbuilder.good_step st w h.good hw
  have hsingle : ∀ v ∈ [w], v ≠ [] := by simpa using hw
  by_cases hopen : s.current = []
  · have hnil := h.current_eq_nil_iff.mpr hopen
    obtain ⟨hlines, hcurrent⟩ := hbuilder.start st w h.good hw hnil
    rw [FirstFit.place_start hopen]
    exact ⟨hgood, hlines.trans h.lines, by simp [hcurrent], hsingle⟩
  · have hne := h.current_eq_nil_iff.not.mpr hopen
    have hjoin : [sep].intercalate (s.current ++ [w]) = current st ++ [sep] ++ w := by
      rw [h.current]
      exact Segment.intercalate_concat hopen w
    by_cases hfits : FitsJoined sep fits (s.current ++ [w])
    · rw [FirstFit.place_fits hopen hfits]
      rw [FitsJoined, hjoin] at hfits
      obtain ⟨hlines, hcurrent⟩ := hbuilder.room st w h.good hw hne hfits
      refine ⟨hgood, hlines.trans h.lines, hcurrent.trans hjoin.symm, ?_⟩
      intro v hv
      rcases List.mem_append.mp hv with hv | hv
      · exact h.nonempty v hv
      · exact hsingle v hv
    · rw [FirstFit.place_full hopen hfits]
      rw [FitsJoined, hjoin] at hfits
      obtain ⟨hlines, hcurrent⟩ := hbuilder.full st w h.good hw hne hfits
      refine ⟨hgood, ?_, by simp [hcurrent], hsingle⟩
      rw [hlines, h.lines, List.append_assoc, List.map_append, List.map_singleton, ← h.current]

/-- The loop, started without a current line, breaks the words by first fit: the last group is the
current line, the groups before it are written. -/
theorem IsBuilder.foldl [DecidablePred fits]
    (hbuilder : IsBuilder sep fits write lines current good body) (st : σ) (hgood : good st)
    (hlines : lines st = before) (hcurrent : current st = []) {words : List (List α)}
    (hwords : ∀ w ∈ words, w ≠ []) :
    (FirstFit.firstFit (FitsJoined sep fits) words = [] ∧
        lines (words.foldl body st) = before ∧ current (words.foldl body st) = []) ∨
      ∃ gs g, FirstFit.firstFit (FitsJoined sep fits) words = gs ++ [g] ∧
        lines (words.foldl body st) = before ++ gs.map (fun g => write ([sep].intercalate g)) ∧
        current (words.foldl body st) = [sep].intercalate g ∧
        current (words.foldl body st) ≠ [] := by
  have hsim : Simulates write sep lines current good before (words.foldl body st)
      (words.foldl (FirstFit.place (FitsJoined sep fits)) ⟨[], []⟩) := by
    apply List.foldl_rel
    · exact ⟨hgood, by simp [hlines], by simp [hcurrent], by simp⟩
    · intro w hw st s h
      exact h.step hbuilder (hwords w hw)
  have hplaced := FirstFit.placed_foldl (FitsJoined sep fits) words
  unfold FirstFit.firstFit
  generalize words.foldl (FirstFit.place (FitsJoined sep fits)) ⟨[], []⟩ = s at hsim hplaced ⊢
  by_cases hopen : s.current = []
  · left
    have hclosed := hplaced.start hopen
    refine ⟨?_, ?_, hsim.current_eq_nil_iff.mpr hopen⟩
    · rw [FirstFit.State.groups_of_nil hopen, hclosed]
    · rw [hsim.lines, hclosed, List.map_nil, List.append_nil]
  · right
    exact ⟨s.closed, s.current, FirstFit.State.groups_of_ne_nil hopen, hsim.lines, hsim.current,
      hsim.current_eq_nil_iff.not.mpr hopen⟩

/-- A loop that writes its last line behind the others leaves the first-fit groups as lines. -/
theorem IsBuilder.written [DecidablePred fits]
    (hbuilder : IsBuilder sep fits write lines current good body) (st : σ) (hgood : good st)
    (hlines : lines st = []) (hcurrent : current st = []) {words : List (List α)}
    (hwords : ∀ w ∈ words, w ≠ []) :
    (if 0 < (current (words.foldl body st)).length then
        lines (words.foldl body st) ++ [write (current (words.foldl body st))]
      else lines (words.foldl body st)) =
      (FirstFit.firstFit (FitsJoined sep fits) words).map fun g => write ([sep].intercalate g) := by
  rcases hbuilder.foldl st hgood hlines hcurrent hwords with
    ⟨hgroups, hwritten, hlast⟩ | ⟨gs, g, hgroups, hwritten, hlast, hne⟩
  · rw [if_neg (by simp [hlast]), hwritten, hgroups, List.map_nil]
  · rw [if_pos (List.length_pos_of_ne_nil hne), hwritten, hlast, hgroups, List.map_append,
      List.map_singleton, List.nil_append]

end Simulation

end LineBuilder
