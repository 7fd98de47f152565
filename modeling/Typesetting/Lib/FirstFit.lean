/-
# Typesetting.Lib.FirstFit -- breaking a sequence greedily into groups

A sequence is broken into consecutive groups: an element joins the open group when the group with
it still `fits`, otherwise the group is closed and the element opens the next one. Nothing is asked
of a group of a single element. `IsFirstFit` says what such a breaking is without saying how it is
made, and the rules for a group that grows and for a group that is opened make one; `firstFit`
computes it. A `Breaking` is any other way to cut the sequence into groups of one element or groups
that fit.

Where every part of an acceptable group is acceptable as well, no breaking into acceptable groups
has fewer groups: the first-fit groups stay ahead of those of every other breaking.
-/
import Mathlib.Algebra.BigOperators.Group.List.Basic
import Mathlib.Data.List.Chain
import Mathlib.Data.List.Infix
import Mathlib.Order.Bounds.Defs

namespace FirstFit

variable {α : Type*} {fits : List α → Prop} {l : List α} {gs : List (List α)}

/-- The first element of the group `g'` does not fit behind the group `g`. -/
def Full (fits : List α → Prop) (g g' : List α) : Prop :=
  ∀ a, g'.head? = some a → ¬ fits (g ++ [a])

/-- The groups are the first-fit breaking of `l`. -/
structure IsFirstFit (fits : List α → Prop) (l : List α) (gs : List (List α)) : Prop where
  flatten : gs.flatten = l
  nonempty : ∀ g ∈ gs, g ≠ []
  /-- A group fitted whenever an element joined it. -/
  fit : ∀ g ∈ gs, ∀ h, h <+: g → 2 ≤ h.length → fits h
  full : gs.IsChain (Full fits)

theorem IsFirstFit.mem_of_mem_group (h : IsFirstFit fits l gs) {g : List α} {a : α} (hg : g ∈ gs)
    (ha : a ∈ g) : a ∈ l := by
  rw [← h.flatten]
  exact List.mem_flatten_of_mem hg ha

/-! ## Making a breaking -/

theorem isFirstFit_nil : IsFirstFit fits [] [] where
  flatten := rfl
  nonempty := by simp
  fit := by simp
  full := .nil

theorem isFirstFit_singleton (a : α) : IsFirstFit fits [a] [[a]] where
  flatten := rfl
  nonempty := by simp
  fit := by
    intro g hg h hprefix hlen
    rw [List.mem_singleton.mp hg] at hprefix
    have hle := hprefix.length_le
    rw [List.length_singleton] at hle
    omega
  full := .singleton _

/-- The last group grows by an element with which it fits. -/
theorem IsFirstFit.extend {g : List α} {a : α} (h : IsFirstFit fits l (gs ++ [g]))
    (hfits : fits (g ++ [a])) : IsFirstFit fits (l ++ [a]) (gs ++ [g ++ [a]]) where
  flatten := by
    rw [← h.flatten]
    simp
  nonempty := by
    intro g' hg'
    rcases List.mem_append.mp hg' with hg' | hg'
    · exact h.nonempty g' (List.mem_append_left _ hg')
    · rw [List.mem_singleton.mp hg']
      exact List.concat_ne_nil a g
  fit := by
    intro g' hg' k hk hlen
    rcases List.mem_append.mp hg' with hg' | hg'
    · exact h.fit g' (List.mem_append_left _ hg') k hk hlen
    · rw [List.mem_singleton.mp hg'] at hk
      rcases List.prefix_concat_iff.mp hk with rfl | hk
      · exact hfits
      · exact h.fit g (by simp) k hk hlen
  full := by
    have hne : g ≠ [] := h.nonempty g (by simp)
    have hhead : (g ++ [a]).head? = g.head? := List.head?_append_of_ne_nil g hne
    obtain ⟨hgs, -, hlast⟩ := List.isChain_append.mp h.full
    refine List.isChain_append.mpr ⟨hgs, .singleton _, ?_⟩
    intro x hx y hy b hb
    obtain rfl : y = g ++ [a] := by simpa using hy.symm
    rw [hhead] at hb
    exact hlast x hx g (by simp) b hb

/-- An element that does not fit behind the last group opens the next one. -/
theorem IsFirstFit.next {g : List α} {a : α} (h : IsFirstFit fits l (gs ++ [g]))
    (hfull : ¬ fits (g ++ [a])) : IsFirstFit fits (l ++ [a]) (gs ++ [g] ++ [[a]]) where
  flatten := by
    rw [← h.flatten]
    simp
  nonempty := by
    intro g' hg'
    rcases List.mem_append.mp hg' with hg' | hg'
    · exact h.nonempty g' hg'
    · rw [List.mem_singleton.mp hg']
      exact List.cons_ne_nil a []
  fit := by
    intro g' hg'
    rcases List.mem_append.mp hg' with hg' | hg'
    · exact h.fit g' hg'
    · exact (isFirstFit_singleton a).fit g' hg'
  full := by
    refine List.isChain_append.mpr ⟨h.full, .singleton _, ?_⟩
    intro x hx y hy b hb
    obtain rfl : x = g := by simpa using hx.symm
    obtain rfl : y = [a] := by simpa using hy.symm
    obtain rfl : a = b := by simpa using hb
    exact hfull

/-! ## What follows from it -/

/-- Without its first group a first-fit breaking is one of the rest. -/
theorem IsFirstFit.tail {g : List α} (h : IsFirstFit fits l (g :: gs)) :
    IsFirstFit fits gs.flatten gs where
  flatten := rfl
  nonempty k hk := h.nonempty k (List.mem_cons_of_mem _ hk)
  fit k hk := h.fit k (List.mem_cons_of_mem _ hk)
  full := h.full.of_cons

/-- What stands behind the first group does not fit behind it. -/
theorem IsFirstFit.not_fits_next {g s : List α} {a : α} (h : IsFirstFit fits l (g :: gs))
    (hnext : gs.flatten = a :: s) : ¬ fits (g ++ [a]) := by
  cases gs with
  | nil => cases hnext
  | cons g₂ gs =>
      have hne : g₂ ≠ [] := h.nonempty g₂ (by simp)
      have hhead : g₂.head? = some a := by
        have hheads := congrArg List.head? hnext
        rw [List.flatten_cons, List.head?_append_of_ne_nil g₂ hne] at hheads
        exact hheads
      exact h.full.rel a hhead

theorem IsFirstFit.eq_nil (h : IsFirstFit fits [] gs) : gs = [] := by
  cases gs with
  | nil => rfl
  | cons g gs =>
      have hflatten := h.flatten
      rw [List.flatten_cons, List.append_eq_nil_iff] at hflatten
      exact absurd hflatten.1 (h.nonempty g List.mem_cons_self)

/-- There are no more groups than elements. -/
theorem IsFirstFit.length_le_length (h : IsFirstFit fits l gs) : gs.length ≤ l.length := by
  rw [← h.flatten, List.length_flatten, ← List.length_map List.length]
  apply List.length_le_sum_of_one_le
  intro n hn
  obtain ⟨g, hg, rfl⟩ := List.mem_map.mp hn
  exact List.length_pos_of_ne_nil (h.nonempty g hg)

theorem IsFirstFit.ne_nil (h : IsFirstFit fits l gs) (hne : l ≠ []) : gs ≠ [] := by
  rintro rfl
  exact hne h.flatten.symm

/-- Where no two elements fit together each has a group of its own. -/
theorem IsFirstFit.eq_map_singleton (h : IsFirstFit fits l gs)
    (hnone : ∀ g, 2 ≤ g.length → ¬ fits g) : gs = l.map fun a => [a] := by
  have hsingle : ∀ g ∈ gs, ∃ a, g = [a] := by
    intro g hg
    have hpos := List.length_pos_of_ne_nil (h.nonempty g hg)
    have hshort : ¬ 2 ≤ g.length := fun hlen =>
      hnone g hlen (h.fit g hg g List.prefix_rfl hlen)
    exact List.length_eq_one_iff.mp (by omega)
  rw [← h.flatten]
  clear h
  induction gs with
  | nil => rfl
  | cons g gs ih =>
      obtain ⟨a, rfl⟩ := hsingle g List.mem_cons_self
      rw [List.flatten_cons, List.singleton_append, List.map_cons,
        ← ih fun k hk => hsingle k (List.mem_cons_of_mem _ hk)]

/-- A group before the last one ends in an element before the last one. -/
theorem IsFirstFit.mem_dropLast (h : IsFirstFit fits l gs) {g : List α} (hg : g ∈ gs.dropLast) :
    ∃ init a, g = init ++ [a] ∧ a ∈ l.dropLast := by
  rcases List.eq_nil_or_concat gs with rfl | ⟨before, last, rfl⟩
  · cases hg
  · rw [List.concat_eq_append] at h hg
    rw [List.dropLast_concat] at hg
    have hne := h.nonempty g (List.mem_append_left _ hg)
    refine ⟨g.dropLast, g.getLast hne, (List.dropLast_append_getLast hne).symm, ?_⟩
    have hlast : last ≠ [] := h.nonempty last (by simp)
    rw [← h.flatten, List.flatten_append, List.flatten_singleton,
      List.dropLast_append_of_ne_nil hlast]
    exact List.mem_append_left _ (List.mem_flatten_of_mem hg (List.getLast_mem hne))

/-- A sequence of which every beginning fits stays in one group. -/
theorem IsFirstFit.eq_singleton (h : IsFirstFit fits l gs) (hne : l ≠ [])
    (hfits : ∀ k, k <+: l → 2 ≤ k.length → fits k) : gs = [l] := by
  have hflatten := h.flatten
  cases gs with
  | nil => exact absurd hflatten.symm hne
  | cons g gs =>
      rw [List.flatten_cons] at hflatten
      cases hrest : gs.flatten with
      | nil =>
          have hgs : gs = [] := (hrest ▸ h.tail).eq_nil
          rw [hrest, List.append_nil] at hflatten
          rw [hgs, hflatten]
      | cons a s =>
          -- the next element would have fitted as well
          have hpre : g ++ [a] <+: l := ⟨s, by rw [← hflatten, hrest]; simp⟩
          have hlen : 2 ≤ (g ++ [a]).length := by
            have hpos := List.length_pos_of_ne_nil (h.nonempty g List.mem_cons_self)
            rw [List.length_append, List.length_singleton]
            omega
          exact absurd (hfits _ hpre hlen) (h.not_fits_next hrest)

/-! ## Computing it -/

/-- The closed groups and the open one. -/
structure State (α : Type*) where
  closed : List (List α)
  current : List α

/-- The open group counts as soon as it holds an element. -/
def State.groups (s : State α) : List (List α) :=
  if s.current.isEmpty then s.closed else s.closed ++ [s.current]

/-- The next element joins the open group or opens the next one. -/
def place (fits : List α → Prop) [DecidablePred fits] (s : State α) (a : α) : State α :=
  if s.current.isEmpty then ⟨s.closed, [a]⟩
  else if fits (s.current ++ [a]) then ⟨s.closed, s.current ++ [a]⟩
  else ⟨s.closed ++ [s.current], [a]⟩

def firstFit (fits : List α → Prop) [DecidablePred fits] (l : List α) : List (List α) :=
  (l.foldl (place fits) ⟨[], []⟩).groups

section Place

variable {s : State α}

theorem State.groups_of_nil (h : s.current = []) : s.groups = s.closed := by
  simp [State.groups, h]

theorem State.groups_of_ne_nil (h : s.current ≠ []) : s.groups = s.closed ++ [s.current] := by
  simp [State.groups, h]

variable [DecidablePred fits] {a : α}

theorem place_start (h : s.current = []) : place fits s a = ⟨s.closed, [a]⟩ := by
  simp [place, h]

theorem place_fits (h : s.current ≠ []) (hfits : fits (s.current ++ [a])) :
    place fits s a = ⟨s.closed, s.current ++ [a]⟩ := by
  simp [place, h, hfits]

theorem place_full (h : s.current ≠ []) (hfull : ¬ fits (s.current ++ [a])) :
    place fits s a = ⟨s.closed ++ [s.current], [a]⟩ := by
  simp [place, h, hfull]

/-- The open group takes its elements from the one before and the new element. -/
theorem current_place_subset (s : State α) (a : α) :
    (place fits s a).current ⊆ s.current ++ [a] := by
  by_cases hopen : s.current = []
  · rw [place_start hopen]
    exact List.subset_append_right _ _
  · by_cases hfits : fits (s.current ++ [a])
    · rw [place_fits hopen hfits]
      exact List.Subset.refl _
    · rw [place_full hopen hfits]
      exact List.subset_append_right _ _

end Place

/-- What the elements placed so far have become. -/
structure Placed (fits : List α → Prop) (l : List α) (s : State α) : Prop where
  groups : IsFirstFit fits l s.groups
  /-- Only at the start is no group open. -/
  start : s.current = [] → s.closed = []

theorem Placed.place [DecidablePred fits] {s : State α} (h : Placed fits l s) (a : α) :
    Placed fits (l ++ [a]) (place fits s a) := by
  have hgroups := h.groups
  by_cases hopen : s.current = []
  · -- the first element of all
    rw [State.groups_of_nil hopen, h.start hopen] at hgroups
    rw [place_start hopen, h.start hopen, ← hgroups.flatten]
    exact ⟨isFirstFit_singleton a, fun hnil => nomatch hnil⟩
  · rw [State.groups_of_ne_nil hopen] at hgroups
    by_cases hfits : fits (s.current ++ [a])
    · rw [place_fits hopen hfits]
      refine ⟨?_, fun hnil => absurd hnil (List.concat_ne_nil _ _)⟩
      rw [State.groups_of_ne_nil (List.concat_ne_nil _ _)]
      exact hgroups.extend hfits
    · rw [place_full hopen hfits]
      exact ⟨hgroups.next hfits, fun hnil => nomatch hnil⟩

theorem placed_foldl (fits : List α → Prop) [DecidablePred fits] (l : List α) :
    Placed fits l (l.foldl (FirstFit.place fits) ⟨[], []⟩) := by
  have hrun : ∀ (l done : List α) (s : State α), Placed fits done s →
      Placed fits (done ++ l) (l.foldl (FirstFit.place fits) s) := by
    intro l
    induction l with
    | nil =>
        intro done s h
        simpa using h
    | cons a l ih =>
        intro done s h
        simpa using ih (done ++ [a]) _ (h.place a)
  exact hrun l [] ⟨[], []⟩ ⟨isFirstFit_nil, fun _ => rfl⟩

theorem isFirstFit_firstFit (fits : List α → Prop) [DecidablePred fits] (l : List α) :
    IsFirstFit fits l (firstFit fits l) :=
  (placed_foldl fits l).groups

/-! ## Breaking an image -/

section Image

variable {β : Type*} {fits' : List β → Prop} [DecidablePred fits] [DecidablePred fits']

/-- The groups of a state, each element replaced by its image. -/
def State.map (f : α → β) (s : State α) : State β :=
  ⟨s.closed.map (List.map f), s.current.map f⟩

theorem State.groups_map (f : α → β) (s : State α) :
    (s.map f).groups = s.groups.map (List.map f) := by
  unfold groups map
  cases s.current with
  | nil => rfl
  | cons a as => simp

theorem place_map (f : α → β) {s : State α} {a : α}
    (h : fits' ((s.current ++ [a]).map f) ↔ fits (s.current ++ [a])) :
    place fits' (s.map f) (f a) = (place fits s a).map f := by
  by_cases hopen : s.current = []
  · have hopen' : (s.map f).current = [] := by simp [State.map, hopen]
    rw [place_start hopen, place_start hopen']
    rfl
  · have hopen' : (s.map f).current ≠ [] := by simpa [State.map] using hopen
    have hjoin : (s.map f).current ++ [f a] = (s.current ++ [a]).map f := by simp [State.map]
    by_cases hfits : fits (s.current ++ [a])
    · rw [place_fits hopen hfits, place_fits hopen' (by rwa [hjoin, h])]
      simp [State.map]
    · rw [place_full hopen hfits, place_full hopen' (by rwa [hjoin, h])]
      simp [State.map]

/-- Where the images fit exactly as the elements do, the image of a sequence is broken as the
sequence is. -/
theorem firstFit_map (f : α → β) (l : List α)
    (h : ∀ g, g ≠ [] → (∀ a ∈ g, a ∈ l) → (fits' (g.map f) ↔ fits g)) :
    firstFit fits' (l.map f) = (firstFit fits l).map (List.map f) := by
  have hrun : (l.map f).foldl (place fits') ⟨[], []⟩ =
      (l.foldl (place fits) ⟨[], []⟩).map f ∧
        ∀ a ∈ (l.foldl (place fits) ⟨[], []⟩).current, a ∈ l := by
    rw [List.foldl_map]
    refine List.foldl_rel (r := fun s' s => s' = State.map f s ∧ ∀ a ∈ s.current, a ∈ l)
      ⟨rfl, by simp⟩ ?_
    rintro a ha _ s ⟨rfl, hs⟩
    have hmem : ∀ b ∈ s.current ++ [a], b ∈ l := by
      intro b hb
      rcases List.mem_append.mp hb with hb | hb
      · exact hs b hb
      · rw [List.mem_singleton.mp hb]
        exact ha
    refine ⟨place_map f (h _ (List.concat_ne_nil _ _) hmem),
      fun b hb => hmem b (current_place_subset s a hb)⟩
  unfold firstFit
  rw [hrun.1, State.groups_map]

end Image

/-! ## Optimality -/

/-- Some way to break `l`: every group is a single element or fits as a whole. -/
structure Breaking (fits : List α → Prop) (l : List α) (gs : List (List α)) : Prop where
  flatten : gs.flatten = l
  group : ∀ g ∈ gs, g.length = 1 ∨ g ≠ [] ∧ fits g

theorem IsFirstFit.breaking (h : IsFirstFit fits l gs) : Breaking fits l gs where
  flatten := h.flatten
  group g hg := by
    have hne := h.nonempty g hg
    by_cases hlen : 2 ≤ g.length
    · exact .inr ⟨hne, h.fit g hg g List.prefix_rfl hlen⟩
    · left
      have hpos := List.length_pos_of_ne_nil hne
      omega

/-- The groups of a breaking whose parts all fit reach no further than the first-fit groups, so
there are at least as many of them. It may even break a longer sequence, of which `l` is the end. -/
theorem IsFirstFit.length_le (h : IsFirstFit fits l gs) {others : List (List α)}
    (hsuffix : l <:+ others.flatten)
    (hparts : ∀ g ∈ others, ∀ k, k <:+: g → 2 ≤ k.length → fits k) :
    gs.length ≤ others.length := by
  induction others generalizing l gs with
  | nil =>
      have hl : l = [] := List.suffix_nil.mp hsuffix
      have hgs : gs = [] := (hl ▸ h).eq_nil
      rw [hgs]
  | cons g' others ih =>
      cases gs with
      | nil => exact Nat.zero_le _
      | cons g gs =>
          have hflatten := h.flatten
          rw [List.flatten_cons] at hflatten
          rw [List.flatten_cons, ← hflatten] at hsuffix
          -- it is enough that the rest of the first-fit groups is the end of the other rest
          suffices hrest : gs.flatten <:+ others.flatten by
            simpa using ih h.tail hrest fun k hk => hparts k (List.mem_cons_of_mem _ hk)
          have hends : gs.flatten <:+ g' ++ others.flatten :=
            (List.suffix_append g gs.flatten).trans hsuffix
          rcases List.suffix_or_suffix_of_suffix hends (List.suffix_append g' others.flatten) with
            hle | ⟨s, hs⟩
          · exact hle
          · cases s with
            | nil =>
                rw [← hs]
                exact List.suffix_rfl
            | cons a s =>
                -- else `g'` holds all of `g` and the element `a` that does not fit behind `g`
                obtain ⟨p, hp⟩ := hsuffix
                have hg' : p ++ (g ++ [a]) ++ s = g' := by
                  have happ : p ++ (g ++ [a]) ++ s ++ others.flatten = g' ++ others.flatten := by
                    rw [← hs] at hp
                    simpa using hp
                  exact List.append_cancel_right happ
                have hlen : 2 ≤ (g ++ [a]).length := by
                  have hpos := List.length_pos_of_ne_nil (h.nonempty g List.mem_cons_self)
                  rw [List.length_append, List.length_singleton]
                  omega
                exact absurd (hparts g' List.mem_cons_self _ ⟨p, s, hg'⟩ hlen)
                  (h.not_fits_next hs.symm)

/-- Where the parts of what fits fit too, first fit makes the fewest groups. -/
theorem IsFirstFit.isLeast_length (h : IsFirstFit fits l gs)
    (hparts : ∀ g, g <:+: l → fits g → ∀ k, k <:+: g → 2 ≤ k.length → fits k) :
    IsLeast {n | ∃ others, Breaking fits l others ∧ others.length = n} gs.length := by
  refine ⟨⟨gs, h.breaking, rfl⟩, ?_⟩
  rintro n ⟨others, hothers, rfl⟩
  refine h.length_le (by rw [hothers.flatten]) fun g hg k hk hlen => ?_
  have hinfix : g <:+: l := by
    rw [← hothers.flatten]
    exact List.infix_of_mem_flatten hg
  rcases hothers.group g hg with hsingle | ⟨-, hfits⟩
  · have hle := hk.length_le
    omega
  · exact hparts g hinfix hfits k hk hlen

end FirstFit
