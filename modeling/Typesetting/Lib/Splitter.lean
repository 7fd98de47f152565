/-
# Typesetting.Lib.Splitter -- cutting a text at several separators

`split seps l` goes through a text from the left. Where one of the texts `seps` stands, the piece
before it ends, and the next one begins behind it; a separator that would overlap with one already
found is not seen.

When the separators are made of characters with `p`, they only lie in the gaps of the text, and
whether a gap cuts does not depend on where in it they are found. Of the trimmed pieces that are not
empty there is therefore one for each group of characters between gaps that contain a separator
(`trimmed_split`).
-/
import Mathlib.Data.List.Find
import Typesetting.Lib.Delimiter
import Typesetting.Lib.Spacing

namespace Splitter

variable {α : Type*} {p : α → Bool}

/-! ## Trimmed pieces -/

/-- The trimmed pieces that are not empty. -/
def trimmed (p : α → Bool) (pieces : List (List α)) : List (List α) :=
  (pieces.map (Segment.trim p)).filter fun piece => !piece.isEmpty

theorem trimmed_cons_of_trim {piece t : List α} (h : Segment.trim p piece = t) (hne : t ≠ [])
    (ps : List (List α)) : trimmed p (piece :: ps) = t :: trimmed p ps := by
  simp [trimmed, h, hne]

theorem trimmed_cons_seps {g : List α} (hg : ∀ d ∈ g, p d = true) (ps : List (List α)) :
    trimmed p (g :: ps) = trimmed p ps := by
  have htrim : Segment.trim p g = [] := by
    rw [← List.append_nil g, Spacing.trim_seps_append hg]
    rfl
  simp [trimmed, htrim]

theorem trimmed_modifyHead {g : List α} (hg : ∀ d ∈ g, p d = true) (ps : List (List α)) :
    trimmed p (ps.modifyHead (g ++ ·)) = trimmed p ps := by
  cases ps with
  | nil => rfl
  | cons piece ps =>
      show trimmed p ((g ++ piece) :: ps) = _
      unfold trimmed
      rw [List.map_cons, List.map_cons, Spacing.trim_seps_append hg]

/-- The pieces of two texts put together, where the last of the one goes on in the other. -/
def join : List (List α) → List (List α) → List (List α)
  | [], qs => qs
  | [last], qs => qs.modifyHead (last ++ ·)
  | piece :: next :: ps, qs => piece :: join (next :: ps) qs

theorem join_cons {ps : List (List α)} (hne : ps ≠ []) (piece : List α) (qs : List (List α)) :
    join (piece :: ps) qs = piece :: join ps qs := by
  cases ps with
  | nil => exact absurd rfl hne
  | cons next ps => rfl

theorem join_modifyHead {ps : List (List α)} (hne : ps ≠ []) (c : α) (qs : List (List α)) :
    join (ps.modifyHead (c :: ·)) qs = (join ps qs).modifyHead (c :: ·) := by
  cases ps with
  | nil => exact absurd rfl hne
  | cons piece ps =>
      cases ps with
      | nil =>
          show qs.modifyHead ((c :: piece) ++ ·) = (qs.modifyHead (piece ++ ·)).modifyHead (c :: ·)
          rw [List.modifyHead_modifyHead]
          rfl
      | cons next ps => rfl

/-- Pieces of separators leave nothing when they are trimmed. -/
theorem trimmed_join {ps : List (List α)} (hps : ∀ piece ∈ ps, ∀ d ∈ piece, p d = true)
    (qs : List (List α)) : trimmed p (join ps qs) = trimmed p qs := by
  induction ps with
  | nil => rfl
  | cons piece ps ih =>
      rw [List.forall_mem_cons] at hps
      cases ps with
      | nil => exact trimmed_modifyHead hps.1 qs
      | cons next ps =>
          rw [join_cons (List.cons_ne_nil _ _), trimmed_cons_seps hps.1, ih hps.2]

/-! ## Separators -/

variable [DecidableEq α]

/-- The pieces of a text, when the first characters, as many as the number says, belong to a
separator already found. The separators are tried in their order. -/
def splitFrom (seps : List (List α)) : Nat → List α → List (List α)
  | _, [] => [[]]
  | skip + 1, _ :: l => splitFrom seps skip l
  | 0, c :: l =>
    match seps.find? fun s => s.isPrefixOf (c :: l) with
    | some s => [] :: splitFrom seps (s.length - 1) l
    | none => (splitFrom seps 0 l).modifyHead (c :: ·)

def split (seps : List (List α)) (l : List α) : List (List α) :=
  splitFrom seps 0 l

/-- One of the separators stands in the text. -/
def Contains (seps : List (List α)) (l : List α) : Prop :=
  ∃ s ∈ seps, s <:+: l

instance (seps : List (List α)) (l : List α) : Decidable (Contains seps l) :=
  inferInstanceAs (Decidable (∃ s ∈ seps, s <:+: l))

/-- The separators are not empty and made of characters with `p`. -/
def Within (seps : List (List α)) (p : α → Bool) : Prop :=
  ∀ s ∈ seps, s ≠ [] ∧ ∀ d ∈ s, p d = true

variable {seps : List (List α)}

omit [DecidableEq α] in
theorem not_contains_nil (h : Within seps p) : ¬ Contains seps [] := by
  rintro ⟨s, hs, hnil⟩
  exact (h s hs).1 (List.infix_nil.mp hnil)

theorem contains_cons_iff {c : α} {l : List α} :
    Contains seps (c :: l) ↔
      (seps.find? fun s => s.isPrefixOf (c :: l)).isSome = true ∨ Contains seps l := by
  unfold Contains
  rw [List.find?_isSome, ← exists_or]
  refine exists_congr fun s => ?_
  rw [List.infix_cons_iff, List.isPrefixOf_iff_prefix]
  tauto

/-- What stands in front of a character without `p` tells which separators begin there. -/
theorem isPrefixOf_append (h : Within seps p) {s : List α} (hs : s ∈ seps) {g l : List α}
    (hl : ∀ c ∈ l.head?, p c = false) : s.isPrefixOf (g ++ l) = s.isPrefixOf g := by
  cases l with
  | nil => rw [List.append_nil]
  | cons c l =>
      have hc : c ∉ s := by
        intro hmem
        have hpc := (h s hs).2 c hmem
        rw [hl c rfl] at hpc
        cases hpc
      rw [Bool.eq_iff_iff, List.isPrefixOf_iff_prefix, List.isPrefixOf_iff_prefix]
      exact Delimiter.prefix_append_sep_iff hc

/-! ## Cutting before a character and behind it -/

theorem splitFrom_ne_nil (seps : List (List α)) (skip : Nat) (l : List α) :
    splitFrom seps skip l ≠ [] := by
  induction l generalizing skip with
  | nil => cases skip <;> exact List.cons_ne_nil _ _
  | cons c l ih =>
      cases skip with
      | succ skip => exact ih skip
      | zero =>
          rw [splitFrom]
          split
          · exact List.cons_ne_nil _ _
          · rw [ne_eq, List.modifyHead_eq_nil_iff]
            exact ih 0

theorem split_ne_nil (seps : List (List α)) (l : List α) : split seps l ≠ [] :=
  splitFrom_ne_nil seps 0 l

theorem split_cons_of_some {c : α} {l s : List α}
    (h : (seps.find? fun s => s.isPrefixOf (c :: l)) = some s) :
    split seps (c :: l) = [] :: splitFrom seps (s.length - 1) l := by
  rw [split, splitFrom, h]

theorem split_cons_of_none {c : α} {l : List α}
    (h : (seps.find? fun s => s.isPrefixOf (c :: l)) = none) :
    split seps (c :: l) = (split seps l).modifyHead (c :: ·) := by
  rw [split, splitFrom, h, split]

/-- A character without `p` is in no separator. -/
theorem split_cons_clean (h : Within seps p) {c : α} (hc : p c = false) (l : List α) :
    split seps (c :: l) = (split seps l).modifyHead (c :: ·) := by
  refine split_cons_of_none (List.find?_eq_none.mpr fun s hs hpre => ?_)
  obtain ⟨hne, hall⟩ := h s hs
  obtain ⟨d, s', rfl⟩ := List.exists_cons_of_ne_nil hne
  rw [List.isPrefixOf_iff_prefix, List.cons_prefix_cons] at hpre
  have hpc := hall c (hpre.1 ▸ List.mem_cons_self)
  rw [hc] at hpc
  cases hpc

/-- No separator goes over from what stands before a character without `p` to that character. -/
theorem splitFrom_append (h : Within seps p) {g l : List α} (hl : ∀ c ∈ l.head?, p c = false)
    {skip : Nat} (hskip : skip ≤ g.length) :
    splitFrom seps skip (g ++ l) = join (splitFrom seps skip g) (split seps l) := by
  induction g generalizing skip with
  | nil =>
      obtain rfl : skip = 0 := Nat.le_zero.mp hskip
      exact (congrFun List.modifyHead_id (split seps l)).symm
  | cons c g ih =>
      cases skip with
      | succ skip => exact ih (Nat.le_of_succ_le_succ hskip)
      | zero =>
          have hfind : (seps.find? fun s => s.isPrefixOf (c :: (g ++ l))) =
              seps.find? fun s => s.isPrefixOf (c :: g) :=
            List.find?_congr fun s hs => isPrefixOf_append (g := c :: g) h hs hl
          show split seps (c :: (g ++ l)) = join (split seps (c :: g)) (split seps l)
          cases hsep : seps.find? fun s => s.isPrefixOf (c :: g) with
          | some s =>
              have hpre : s <+: c :: g :=
                List.isPrefixOf_iff_prefix.mp (by simpa using List.find?_some hsep)
              have hlength := hpre.length_le
              rw [List.length_cons] at hlength
              rw [split_cons_of_some (hfind.trans hsep), split_cons_of_some hsep,
                join_cons (splitFrom_ne_nil seps _ g), ih (by omega)]
          | none =>
              rw [split_cons_of_none (hfind.trans hsep), split_cons_of_none hsep,
                join_modifyHead (split_ne_nil seps g)]
              exact congrArg (List.modifyHead (c :: ·)) (ih (Nat.zero_le _))

theorem split_append (h : Within seps p) {l : List α} (hl : ∀ c ∈ l.head?, p c = false)
    (g : List α) : split seps (g ++ l) = join (split seps g) (split seps l) :=
  splitFrom_append h hl (Nat.zero_le _)

/-- The pieces have no other characters than the text. -/
theorem mem_of_mem_splitFrom {skip : Nat} {l piece : List α} (h : piece ∈ splitFrom seps skip l) :
    ∀ d ∈ piece, d ∈ l := by
  induction l generalizing skip piece with
  | nil =>
      obtain rfl : piece = [] := by cases skip <;> simpa [splitFrom] using h
      simp
  | cons c l ih =>
      have hlater : ∀ {skip : Nat} {piece : List α}, piece ∈ splitFrom seps skip l →
          ∀ d ∈ piece, d ∈ c :: l := fun h d hd => List.mem_cons_of_mem c (ih h d hd)
      cases skip with
      | succ skip => exact hlater h
      | zero =>
          rw [splitFrom] at h
          split at h
          · rcases List.mem_cons.mp h with rfl | h
            · simp
            · exact hlater h
          · obtain ⟨first, pieces, hpieces⟩ :=
              List.exists_cons_of_ne_nil (splitFrom_ne_nil seps 0 l)
            rw [hpieces, List.modifyHead_cons] at h
            rcases List.mem_cons.mp h with rfl | h
            · exact List.forall_mem_cons.mpr
                ⟨List.mem_cons_self, hlater (hpieces ▸ List.mem_cons_self)⟩
            · exact hlater (hpieces ▸ List.mem_cons_of_mem first h)

theorem mem_of_mem_split {l piece : List α} (h : piece ∈ split seps l) : ∀ d ∈ piece, d ∈ l :=
  mem_of_mem_splitFrom h

/-- A text without a separator is its only piece. -/
theorem split_of_not_contains {l : List α} (h : ¬ Contains seps l) : split seps l = [l] := by
  induction l with
  | nil => rfl
  | cons c l ih =>
      rw [contains_cons_iff, not_or] at h
      rw [split_cons_of_none (by simpa using h.1), ih h.2]
      rfl

/-- A text with a separator has a second piece. -/
theorem split_of_contains (hseps : Within seps p) {l : List α} (h : Contains seps l) :
    ∃ piece ps, split seps l = piece :: ps ∧ ps ≠ [] := by
  induction l with
  | nil => exact absurd h (not_contains_nil hseps)
  | cons c l ih =>
      cases hsep : seps.find? fun s => s.isPrefixOf (c :: l) with
      | some s => exact ⟨[], _, split_cons_of_some hsep, splitFrom_ne_nil seps _ l⟩
      | none =>
          have hlater : Contains seps l := by
            rw [contains_cons_iff, hsep] at h
            simpa using h
          obtain ⟨piece, ps, hl, hne⟩ := ih hlater
          refine ⟨c :: piece, ps, ?_, hne⟩
          rw [split_cons_of_none hsep, hl]
          rfl

/-! ## The trimmed pieces of a text -/

theorem trimmed_split_gap (h : Within seps p) {g : List α} (hg : ∀ d ∈ g, p d = true) {l : List α}
    (hl : ∀ c ∈ l.head?, p c = false) :
    trimmed p (split seps (g ++ l)) = trimmed p (split seps l) := by
  rw [split_append h hl,
    trimmed_join fun piece hpiece d hd => hg d (mem_of_mem_split hpiece d hd)]

open Spacing

/-- A separator stands in the gap behind the character. -/
def cutBehind (seps : List (List α)) (x : Spaced p) : Bool :=
  decide (Contains seps x.gap)

theorem split_render_cons (h : Within seps p) (x : Spaced p) (l : List (Spaced p)) :
    split seps (render (x :: l)) =
      (join (split seps x.gap) (split seps (render l))).modifyHead (x.char :: ·) := by
  rw [render_cons, split_cons_clean h x.char_clean, split_append h fun _ => head_render]

/-- Behind a gap that cuts a new piece begins. -/
theorem trimmed_render_cut (h : Within seps p) {x : Spaced p} (hx : Contains seps x.gap)
    (l : List (Spaced p)) :
    trimmed p (split seps (render (x :: l))) = [x.char] :: trimmed p (split seps (render l)) := by
  obtain ⟨piece, ps, hgap, hne⟩ := split_of_contains h hx
  have hseps : ∀ piece' ∈ piece :: ps, ∀ d ∈ piece', p d = true :=
    fun piece' hpiece d hd => x.gap_seps d (mem_of_mem_split (hgap ▸ hpiece) d hd)
  rw [List.forall_mem_cons] at hseps
  have htrim : Segment.trim p (x.char :: piece) = [x.char] := by
    rw [trim_eq, spaced_char_gap ⟨x.char, piece, x.char_clean, hseps.1⟩]
    rfl
  rw [split_render_cons h, hgap, join_cons hne, List.modifyHead_cons,
    trimmed_cons_of_trim htrim (List.cons_ne_nil _ _), trimmed_join hseps.2]

/-- Any other gap is in the piece that the next character begins. -/
theorem trimmed_render_uncut (h : Within seps p) {x : Spaced p} (hx : ¬ Contains seps x.gap)
    (y : Spaced p) (l : List (Spaced p)) :
    ∃ t ts, trimmed p (split seps (render (y :: l))) = t :: ts ∧
      trimmed p (split seps (render (x :: y :: l))) = (x.char :: (x.gap ++ t)) :: ts := by
  obtain ⟨piece, pieces, hrest⟩ :=
    List.exists_cons_of_ne_nil (split_ne_nil seps (y.gap ++ render l))
  have hy : split seps (render (y :: l)) = (y.char :: piece) :: pieces := by
    rw [render_cons, split_cons_clean h y.char_clean, hrest, List.modifyHead_cons]
  have hxy : split seps (render (x :: y :: l)) =
      (x.char :: (x.gap ++ y.char :: piece)) :: pieces := by
    rw [split_render_cons h, split_of_not_contains hx, hy]
    rfl
  have hpiece : Segment.trim p (y.char :: piece) ≠ [] := by
    rw [trim_eq, spaced, dif_neg (by simp [y.char_clean])]
    exact solid_cons_ne_nil _ _
  have htrim : Segment.trim p (x.char :: (x.gap ++ y.char :: piece)) =
      x.char :: (x.gap ++ Segment.trim p (y.char :: piece)) := by
    rw [trim_eq, trim_eq, spaced_cons x y.char_clean, spaced, dif_neg (by simp [y.char_clean])]
    rfl
  exact ⟨_, _, by rw [hy, trimmed_cons_of_trim rfl hpiece],
    by rw [hxy, trimmed_cons_of_trim htrim (List.cons_ne_nil _ _)]⟩

theorem trimmed_split_render (h : Within seps p) (l : List (Spaced p)) :
    trimmed p (split seps (render l)) = (groups (cutBehind seps) l).map solid := by
  induction l with
  | nil => exact trimmed_cons_seps (by simp) []
  | cons x l ih =>
      by_cases hx : Contains seps x.gap
      · have hcut : cutBehind seps x = true := decide_eq_true hx
        rw [trimmed_render_cut h hx, groups_cons_cut hcut, ih]
        rfl
      · have hcut : cutBehind seps x = false := decide_eq_false hx
        cases l with
        | nil =>
            have htrim : Segment.trim p (x.char :: (x.gap ++ [])) = [x.char] := by
              rw [List.append_nil, trim_eq, spaced_char_gap]
              rfl
            rw [split_render_cons h, split_of_not_contains hx]
            exact trimmed_cons_of_trim htrim (List.cons_ne_nil _ _) []
        | cons y l =>
            obtain ⟨t, ts, hy, hxy⟩ := trimmed_render_uncut h hx y l
            obtain ⟨g, gs, hgroups, hgroups'⟩ := groups_cons_uncut hcut y l
            rw [hy, hgroups, List.map_cons, List.cons.injEq] at ih
            rw [hxy, hgroups', ih.1, ih.2]
            rfl

/-- The trimmed pieces are the groups of characters between gaps that contain a separator. -/
theorem trimmed_split (h : Within seps p) (l : List α) :
    trimmed p (split seps l) = (groups (cutBehind seps) (spaced p l)).map solid := by
  have hgap := trimmed_split_gap h (g := l.takeWhile p) (fun _ hd => List.mem_takeWhile_imp hd)
    (l := render (spaced p l)) fun _ => head_render
  rw [takeWhile_append_render] at hgap
  rw [hgap, trimmed_split_render h]

/-- Trimming a text leaves its trimmed pieces alone. -/
theorem trimmed_split_trim (h : Within seps p) (l : List α) :
    trimmed p (split seps (Segment.trim p l)) = trimmed p (split seps l) := by
  rw [trimmed_split h, trimmed_split h, spaced_trim, map_solid_groups_closeLast]

/-- A rewriting of the gaps goes into the pieces exactly when the same gaps cut before it and after
it. -/
theorem trimmed_split_gapwise_iff (h : Within seps p) {f : List α → List α} (hf : Gapwise p f)
    (l : List α) :
    trimmed p (split seps (f l)) = (trimmed p (split seps l)).map f ↔
      ∀ g, InnerGap p l g → (Contains seps (f g) ↔ Contains seps g) := by
  have hbefore : trimmed p (split seps (f l)) =
      (groups (cutBehind seps ∘ hf.onGap) (spaced p l)).map fun g => solid (g.map hf.onGap) := by
    rw [trimmed_split h, hf.spaced_eq, groups_map, List.map_map]
    rfl
  have hafter : (trimmed p (split seps l)).map f =
      (groups (cutBehind seps) (spaced p l)).map fun g => solid (g.map hf.onGap) := by
    rw [trimmed_split h, List.map_map]
    exact List.map_congr_left fun g _ => (hf.solid_map g).symm
  have hcut : ∀ x : Spaced p, (cutBehind seps ∘ hf.onGap) x = cutBehind seps x ↔
      (Contains seps (f x.gap) ↔ Contains seps x.gap) := by
    intro x
    show decide (Contains seps (f x.gap)) = decide (Contains seps x.gap) ↔ _
    exact decide_eq_decide
  rw [hbefore, hafter, forall_innerGap_iff]
  constructor
  · intro heq
    -- what is visible of a piece is as long as its group
    have hlengths := congrArg
      (List.map fun piece : List α => (piece.filter fun c => !p c).length) heq
    simp only [List.map_map, Function.comp_def, filter_solid, List.length_map] at hlengths
    exact fun x hx => (hcut x).mp (cut_eq_of_lengths hlengths x hx)
  · intro hall
    rw [groups_congr fun x hx => (hcut x).mpr (hall x hx)]

/-! ## Joining pieces -/

/-- What the trimmed pieces of a text are. -/
structure Piece (p : α → Bool) (seps : List (List α)) (piece : List α) : Prop where
  ne_nil : piece ≠ []
  trimmed : Segment.trim p piece = piece
  whole : ¬ Contains seps piece

/-- The first piece begins the text. -/
theorem prefix_of_head_split {l first : List α} {pieces : List (List α)}
    (h : split seps l = first :: pieces) : first <+: l := by
  induction l generalizing first pieces with
  | nil =>
      obtain ⟨rfl, -⟩ := List.cons.inj h
      exact List.prefix_rfl
  | cons c l ih =>
      cases hsep : seps.find? fun s => s.isPrefixOf (c :: l) with
      | some s =>
          rw [split_cons_of_some hsep] at h
          obtain ⟨rfl, -⟩ := List.cons.inj h
          exact List.nil_prefix
      | none =>
          obtain ⟨start, rest, hrest⟩ := List.exists_cons_of_ne_nil (split_ne_nil seps l)
          rw [split_cons_of_none hsep, hrest, List.modifyHead_cons] at h
          obtain ⟨rfl, -⟩ := List.cons.inj h
          exact List.cons_prefix_cons.mpr ⟨rfl, ih hrest⟩

/-- A piece contains no separator: the text would have been cut there. -/
theorem not_contains_of_mem_splitFrom (h : Within seps p) {skip : Nat} {l piece : List α}
    (hpiece : piece ∈ splitFrom seps skip l) : ¬ Contains seps piece := by
  induction l generalizing skip piece with
  | nil =>
      obtain rfl : piece = [] := by cases skip <;> simpa [splitFrom] using hpiece
      exact not_contains_nil h
  | cons c l ih =>
      cases skip with
      | succ skip => exact ih hpiece
      | zero =>
          cases hsep : seps.find? fun s => s.isPrefixOf (c :: l) with
          | some s =>
              rw [splitFrom, hsep] at hpiece
              rcases List.mem_cons.mp hpiece with rfl | hpiece
              · exact not_contains_nil h
              · exact ih hpiece
          | none =>
              obtain ⟨first, pieces, hpieces⟩ := List.exists_cons_of_ne_nil (split_ne_nil seps l)
              have hsplit : splitFrom seps 0 (c :: l) = (c :: first) :: pieces := by
                show split seps (c :: l) = _
                rw [split_cons_of_none hsep, hpieces, List.modifyHead_cons]
              rw [hsplit] at hpiece
              rcases List.mem_cons.mp hpiece with rfl | hpiece
              · -- a separator at its start would stand at the start of the text
                have hstart : c :: first <+: c :: l :=
                  List.cons_prefix_cons.mpr ⟨rfl, prefix_of_head_split hpieces⟩
                rw [contains_cons_iff]
                rintro (hfound | hlater)
                · obtain ⟨s, hs, hpre⟩ := List.find?_isSome.mp hfound
                  have hnone := List.find?_eq_none.mp hsep s hs
                  rw [List.isPrefixOf_iff_prefix] at hpre hnone
                  exact hnone (hpre.trans hstart)
                · exact ih (show first ∈ split seps l from hpieces ▸ List.mem_cons_self) hlater
              · exact ih (show piece ∈ split seps l from
                  hpieces ▸ List.mem_cons_of_mem first hpiece)

theorem piece_of_mem_trimmed_split (h : Within seps p) {l piece : List α}
    (hpiece : piece ∈ trimmed p (split seps l)) : Piece p seps piece := by
  obtain ⟨hmem, hne⟩ := List.mem_filter.mp hpiece
  obtain ⟨whole, hwhole, rfl⟩ := List.mem_map.mp hmem
  refine ⟨?_, Segment.trim_trim whole, ?_⟩
  · rintro hnil
    rw [hnil] at hne
    cases hne
  · rintro ⟨s, hs, hinfix⟩
    exact not_contains_of_mem_splitFrom h hwhole ⟨s, hs, hinfix.trans (Segment.infix_trim whole)⟩

/-- No separator goes over the end of a text that ends in a character without `p`. -/
theorem split_whole_append (h : Within seps p) {a : List α} (hlast : ∀ c ∈ a.getLast?, p c = false)
    (hwhole : ¬ Contains seps a) (l : List α) :
    split seps (a ++ l) = (split seps l).modifyHead (a ++ ·) := by
  induction a with
  | nil => exact (congrFun List.modifyHead_id (split seps l)).symm
  | cons c a ih =>
      rw [contains_cons_iff, not_or] at hwhole
      have hnone : (seps.find? fun s => s.isPrefixOf (c :: (a ++ l))) = none := by
        refine List.find?_eq_none.mpr fun s hs hpre => hwhole.1 ?_
        rw [List.isPrefixOf_iff_prefix] at hpre
        -- the separator is no longer than what stands before the last character
        have hshort : s <+: c :: a := by
          rcases List.prefix_or_prefix_of_prefix hpre (List.prefix_append (c :: a) l) with hs' | ha
          · exact hs'
          · have hmem : (c :: a).getLast (List.cons_ne_nil c a) ∈ s :=
              ha.subset (List.getLast_mem _)
            have hpc := (h s hs).2 _ hmem
            rw [hlast _ (List.getLast?_eq_some_getLast (List.cons_ne_nil c a))] at hpc
            cases hpc
        exact List.find?_isSome.mpr ⟨s, hs, List.isPrefixOf_iff_prefix.mpr hshort⟩
      have hlast' : ∀ d ∈ a.getLast?, p d = false := by
        intro d hd
        apply hlast d
        cases a with
        | nil => cases hd
        | cons e a => exact hd
      rw [List.cons_append, split_cons_of_none hnone, ih hlast' hwhole.2, List.modifyHead_modifyHead]
      rfl

/-- A piece before a separator and more pieces. -/
theorem trimmed_split_piece_append (h : Within seps p) {a sep l : List α} (ha : Piece p seps a)
    (hsep : sep ∈ seps) (hl : ∀ c ∈ l.head?, p c = false) :
    trimmed p (split seps (a ++ sep ++ l)) = a :: trimmed p (split seps l) := by
  have hlast : ∀ c ∈ a.getLast?, p c = false := by
    rw [← ha.trimmed]
    exact fun c hc => Segment.getLast_trim hc
  obtain ⟨piece, ps, hcut, hne⟩ := split_of_contains h ⟨sep, hsep, List.infix_rfl⟩
  have hblank : ∀ piece' ∈ piece :: ps, ∀ d ∈ piece', p d = true :=
    fun piece' hmem d hd => (h sep hsep).2 d (mem_of_mem_split (hcut ▸ hmem) d hd)
  rw [List.forall_mem_cons] at hblank
  rw [List.append_assoc, split_whole_append h hlast ha.whole, split_append h hl, hcut,
    join_cons hne, List.modifyHead_cons,
    trimmed_cons_of_trim (Segment.trim_append_seps ha.trimmed ha.ne_nil hblank.1) ha.ne_nil,
    trimmed_join hblank.2]

/-- Joined by a separator, pieces are read back; other texts are not. -/
theorem trimmed_split_intercalate_iff (h : Within seps p) {sep : List α} (hsep : sep ∈ seps)
    (pieces : List (List α)) :
    trimmed p (split seps (sep.intercalate pieces)) = pieces ↔
      ∀ piece ∈ pieces, Piece p seps piece := by
  constructor
  · intro hback piece hpiece
    rw [← hback] at hpiece
    exact piece_of_mem_trimmed_split h hpiece
  · intro hpieces
    induction pieces with
    | nil => exact trimmed_cons_seps (by simp) []
    | cons a pieces ih =>
        obtain ⟨ha, hrest⟩ := List.forall_mem_cons.mp hpieces
        cases pieces with
        | nil =>
            rw [List.intercalate_singleton, split_of_not_contains ha.whole]
            exact trimmed_cons_of_trim ha.trimmed ha.ne_nil []
        | cons b pieces =>
            have hhead : ∀ c ∈ (sep.intercalate (b :: pieces)).head?, p c = false := by
              obtain ⟨hb, -⟩ := List.forall_mem_cons.mp hrest
              obtain ⟨c, b', rfl⟩ := List.exists_cons_of_ne_nil hb.ne_nil
              have hc : p c = false := by
                have hfirst : c ∈ (Segment.trim p (c :: b')).head? := by
                  rw [hb.trimmed]
                  rfl
                exact Segment.head_trim hfirst
              intro d hd
              cases pieces with
              | nil =>
                  obtain rfl := Option.some.inj hd
                  exact hc
              | cons e pieces =>
                  obtain rfl := Option.some.inj hd
                  exact hc
            rw [List.intercalate_cons_cons, trimmed_split_piece_append h ha hsep hhead,
              ih hrest]

end Splitter
