/-
# Typesetting.Lib.Delimiter -- cutting a list at a delimiter of several elements

The occurrences of a delimiter `d` are found from the left, each behind the end of the one before;
`pieces` are what stands between them. No way to read a list as parts with `d` between them has
more parts. An element that is not in `d` separates: no occurrence lies across it.

Where every second delimiter closes what the one before it opens, a list has parts `outside` the
delimiters and parts `enclosed` by them; an opening delimiter that nothing closes stays outside.
For a delimiter made of one element twice, what is outside holds no pair of delimiters any more.
-/
import Mathlib.Algebra.GroupWithZero.Nat
import Mathlib.Data.List.Infix
import Typesetting.Lib.Segment

namespace Delimiter

variable {α : Type*} {d : List α}

/-! ## Occurrences -/

/-- `d` stands in the list twice, without an overlap. -/
def Twice (d l : List α) : Prop :=
  ∃ u v w, l = u ++ d ++ v ++ d ++ w

theorem Twice.cons {l : List α} (h : Twice d l) (a : α) : Twice d (a :: l) := by
  obtain ⟨u, v, w, rfl⟩ := h
  exact ⟨a :: u, v, w, rfl⟩

/-- An occurrence at the start of a list ends before a separator. -/
theorem prefix_append_sep_iff {c : α} (hc : c ∉ d) {a l : List α} :
    d <+: a ++ c :: l ↔ d <+: a := by
  constructor
  · intro h
    have hsep : a ++ [c] <+: a ++ c :: l := by
      rw [List.prefix_append_right_inj]
      exact List.prefix_append [c] l
    rcases List.prefix_or_prefix_of_prefix h hsep with hle | hge
    · rcases List.prefix_concat_iff.mp hle with rfl | hpre
      · exact absurd (List.mem_append_right a List.mem_cons_self) hc
      · exact hpre
    · exact absurd (hge.subset (List.mem_append_right a List.mem_cons_self)) hc
  · intro h
    exact h.trans (List.prefix_append a _)

/-! ## Delimiters that open and close -/

/-- The parts outside the delimiters, put together. A delimiter that nothing closes is kept. -/
def outside (d : List α) : List (List α) → List α
  | [] => []
  | [p] => p
  | [p, q] => p ++ d ++ q
  | p :: _ :: q :: ps => p ++ outside d (q :: ps)

/-- The parts between an opening and a closing delimiter. -/
def enclosed : List (List α) → List (List α)
  | _ :: q :: r :: ps => q :: enclosed (r :: ps)
  | _ => []

theorem outside_cons_cons (a : α) (p : List α) (ps : List (List α)) :
    outside d ((a :: p) :: ps) = a :: outside d (p :: ps) := by
  match ps with
  | [] => rfl
  | [_] => rfl
  | _ :: _ :: _ => rfl

theorem enclosed_cons_cons (a : α) (p : List α) (ps : List (List α)) :
    enclosed ((a :: p) :: ps) = enclosed (p :: ps) := by
  match ps with
  | [] => rfl
  | [_] => rfl
  | _ :: _ :: _ => rfl

theorem outside_cons_cons_of_ne_nil {p q : List α} {ps : List (List α)} (h : ps ≠ []) :
    outside d (p :: q :: ps) = p ++ outside d ps := by
  match ps with
  | [] => exact absurd rfl h
  | _ :: _ => rfl

theorem enclosed_cons_cons_of_ne_nil {p q : List α} {ps : List (List α)} (h : ps ≠ []) :
    enclosed (p :: q :: ps) = q :: enclosed ps := by
  match ps with
  | [] => exact absurd rfl h
  | _ :: _ => rfl

/-- The parts at the even positions, counted from zero. -/
def evens {β : Type*} : List β → List β
  | [] => []
  | [p] => [p]
  | p :: _ :: ps => p :: evens ps

/-- The parts at the odd positions. -/
def odds {β : Type*} : List β → List β
  | [] => []
  | [_] => []
  | _ :: q :: ps => q :: odds ps

/-- Every delimiter has its partner: the parts are outside and enclosed in turn. -/
theorem outside_of_odd (ps : List (List α)) (h : ps.length % 2 = 1) :
    outside d ps = (evens ps).flatten ∧ enclosed ps = odds ps := by
  match ps with
  | [] => cases h
  | [p] => exact ⟨by simp [outside, evens], rfl⟩
  | [p, q] => simp at h
  | p :: q :: r :: ps =>
      have hrest : (r :: ps).length % 2 = 1 := by
        simp only [List.length_cons] at h ⊢
        omega
      obtain ⟨houtside, henclosed⟩ := outside_of_odd (r :: ps) hrest
      constructor
      · rw [outside_cons_cons_of_ne_nil (List.cons_ne_nil _ _), houtside]
        rfl
      · rw [enclosed_cons_cons_of_ne_nil (List.cons_ne_nil _ _), henclosed]
        rfl

/-- The last delimiter has no partner: it is kept, and so is the part behind it. -/
theorem outside_of_even (ps : List (List α)) (hne : ps ≠ []) (h : ps.length % 2 = 0) :
    outside d ps = (evens ps).flatten ++ d ++ ps.getLast hne ∧
      enclosed ps = (odds ps).dropLast := by
  match ps with
  | [] => exact absurd rfl hne
  | [p] => cases h
  | [p, q] => exact ⟨by simp [outside, evens], rfl⟩
  | p :: q :: r :: ps =>
      have hrest : (r :: ps).length % 2 = 0 := by
        simp only [List.length_cons] at h ⊢
        omega
      obtain ⟨houtside, henclosed⟩ := outside_of_even (r :: ps) (List.cons_ne_nil _ _) hrest
      constructor
      · rw [outside_cons_cons_of_ne_nil (List.cons_ne_nil _ _), houtside]
        simp [evens]
      · rw [enclosed_cons_cons_of_ne_nil (List.cons_ne_nil _ _), henclosed]
        match ps with
        | [] => cases hrest
        | s :: ps => rfl

/-! ## A delimiter of one element twice -/

section Pair

variable {x : α}

/-- No pair stands in the list, nor begins in it where something follows. -/
def NoPair (x : α) (p : List α) : Prop :=
  ¬ [x, x] <:+: p ++ [x]

theorem NoPair.not_infix_append {p l : List α} (hp : NoPair x p) (hl : ¬ [x, x] <:+: l) :
    ¬ [x, x] <:+: p ++ l := by
  induction p with
  | nil => exact hl
  | cons a p ih =>
      unfold NoPair at hp ih
      rw [List.cons_append, List.infix_cons_iff, not_or] at hp ⊢
      refine ⟨?_, ih hp.2⟩
      intro hpre
      refine hp.1 ?_
      rw [List.cons_prefix_cons] at hpre ⊢
      refine ⟨hpre.1, ?_⟩
      cases p with
      | nil => exact List.prefix_rfl
      | cons b p =>
          have hb := (List.cons_prefix_cons.mp hpre.2).1
          rw [hb]
          exact List.prefix_append [b] (p ++ [b])

theorem NoPair.append {p q : List α} (hp : NoPair x p) (hq : NoPair x q) :
    NoPair x (p ++ q) := by
  unfold NoPair
  rw [List.append_assoc]
  exact hp.not_infix_append hq

/-- At most one delimiter stands in the list. -/
theorem not_twice_of_noPair {u v : List α} (hu : NoPair x u) (hv : ¬ [x, x] <:+: v) :
    ¬ Twice [x, x] (u ++ [x, x] ++ v) := by
  rintro ⟨a, b, c, heq⟩
  by_cases hlt : a.length < u.length
  · -- the first of two would begin in `u`
    have hfirst : a ++ [x, x] <+: u ++ [x] := by
      have hleft : a ++ [x, x] <+: u ++ [x, x] ++ v := by
        rw [heq]
        exact ⟨b ++ [x, x] ++ c, by simp⟩
      have hright : u ++ [x] <+: u ++ [x, x] ++ v := ⟨[x] ++ v, by simp⟩
      refine List.prefix_of_prefix_length_le hleft hright ?_
      simp only [List.length_append, List.length_cons, List.length_nil]
      omega
    exact hu ((List.suffix_append a [x, x]).isInfix.trans hfirst.isInfix)
  · -- the second of two would stand in `v`
    have hsecond : [x, x] ++ c <:+ v := by
      have hright : [x, x] ++ c <:+ u ++ [x, x] ++ v := by
        rw [heq]
        exact ⟨a ++ [x, x] ++ b, by simp⟩
      refine List.suffix_of_suffix_length_le hright (List.suffix_append _ v) ?_
      have hlen := congrArg List.length heq
      simp only [List.length_append, List.length_cons, List.length_nil] at hlen ⊢
      omega
    exact hv ((List.prefix_append [x, x] c).isInfix.trans hsecond.isInfix)

end Pair

variable [DecidableEq α]

/-! ## The first occurrence -/

/-- What stands before and behind the first occurrence of `d`. -/
def cut? (d l : List α) : Option (List α × List α) :=
  if d <+: l then some ([], l.drop d.length)
  else
    match l with
    | [] => none
    | a :: l => (cut? d l).map fun p => (a :: p.1, p.2)

theorem cut?_append_left (d l : List α) : cut? d (d ++ l) = some ([], l) := by
  unfold cut?
  rw [if_pos (List.prefix_append d l), List.drop_left]

theorem cut?_cons {a : α} {l : List α} (h : ¬ d <+: a :: l) :
    cut? d (a :: l) = (cut? d l).map fun p => (a :: p.1, p.2) := by
  rw [cut?, if_neg h]

theorem cut?_nil (hd : d ≠ []) : cut? d [] = none := by
  rw [cut?, if_neg (by simpa using hd)]

/-- The delimiter stands at the start of the list, or is found behind its first element. -/
theorem cut?_cons_cases {a : α} {l before behind : List α}
    (h : cut? d (a :: l) = some (before, behind)) :
    (before = [] ∧ a :: l = d ++ behind) ∨
      (¬ d <+: a :: l ∧ ∃ before', before = a :: before' ∧ cut? d l = some (before', behind)) := by
  by_cases hpre : d <+: a :: l
  · obtain ⟨rest, hrest⟩ := hpre
    rw [← hrest, cut?_append_left] at h
    obtain ⟨rfl, rfl⟩ := Prod.mk.inj (Option.some.inj h)
    exact .inl ⟨rfl, hrest.symm⟩
  · rw [cut?_cons hpre, Option.map_eq_some_iff] at h
    obtain ⟨⟨before', behind'⟩, hcut, hpair⟩ := h
    obtain ⟨rfl, rfl⟩ := Prod.mk.inj hpair
    exact .inr ⟨hpre, before', rfl, hcut⟩

theorem eq_of_cut? {l before behind : List α} (h : cut? d l = some (before, behind)) :
    l = before ++ d ++ behind := by
  induction l generalizing before with
  | nil =>
      by_cases hd : d = []
      · simp_all [cut?]
      · rw [cut?_nil hd] at h
        cases h
  | cons a l ih =>
      rcases cut?_cons_cases h with ⟨rfl, hstart⟩ | ⟨-, before', rfl, hcut⟩
      · rw [hstart, List.nil_append]
      · rw [ih hcut]
        rfl

/-- No occurrence stands further left. -/
theorem length_le_of_cut? {l before behind : List α} (h : cut? d l = some (before, behind))
    {u v : List α} (hl : l = u ++ d ++ v) : before.length ≤ u.length := by
  induction l generalizing before u with
  | nil =>
      have hlen := congrArg List.length (eq_of_cut? h)
      simp only [List.length_nil, List.length_append] at hlen
      omega
  | cons a l ih =>
      rcases cut?_cons_cases h with ⟨rfl, -⟩ | ⟨hpre, before', rfl, hcut⟩
      · exact Nat.zero_le _
      · cases u with
        | nil => exact absurd ⟨v, hl.symm⟩ hpre
        | cons b u =>
            obtain ⟨-, htail⟩ := List.cons.inj hl
            have hle := ih hcut htail
            simpa using hle

theorem cut?_eq_none_iff {l : List α} : cut? d l = none ↔ ¬ d <:+: l := by
  induction l with
  | nil =>
      by_cases hd : d = []
      · simp [hd, cut?]
      · simp [cut?_nil hd, hd]
  | cons a l ih =>
      rw [List.infix_cons_iff]
      by_cases hpre : d <+: a :: l
      · have hsome : cut? d (a :: l) = some ([], (a :: l).drop d.length) := by
          rw [cut?, if_pos hpre]
        simp [hsome, hpre]
      · rw [cut?_cons hpre, Option.map_eq_none_iff, ih]
        simp [hpre]

/-! ## The pieces -/

theorem length_behind_lt (hd : d ≠ []) {l before behind : List α}
    (h : cut? d l = some (before, behind)) : behind.length < l.length := by
  have hlen := congrArg List.length (eq_of_cut? h)
  have hpos := List.length_pos_of_ne_nil hd
  rw [List.length_append, List.length_append] at hlen
  omega

/-- What the occurrences of `d` cut the list into. -/
def pieces (d : List α) (hd : d ≠ []) (l : List α) : List (List α) :=
  match _ : cut? d l with
  | none => [l]
  | some (before, behind) => before :: pieces d hd behind
termination_by l.length
decreasing_by exact length_behind_lt hd (by assumption)

section Pieces

variable {hd : d ≠ []}

theorem pieces_of_none {l : List α} (h : cut? d l = none) : pieces d hd l = [l] := by
  rw [pieces]
  split
  · rfl
  · rename_i hsome
    rw [h] at hsome
    cases hsome

theorem pieces_of_some {l before behind : List α} (h : cut? d l = some (before, behind)) :
    pieces d hd l = before :: pieces d hd behind := by
  rw [pieces]
  split
  · rename_i hnone
    rw [h] at hnone
    cases hnone
  · rename_i hsome
    rw [h] at hsome
    obtain ⟨rfl, rfl⟩ := Prod.mk.inj (Option.some.inj hsome)
    rfl

/-- Cutting and going on behind the occurrence, as a rule of induction. -/
theorem cut_induction {P : List α → Prop} (hd : d ≠ []) (l : List α)
    (none : ∀ l, cut? d l = none → P l)
    (some : ∀ l before behind, cut? d l = some (before, behind) → P behind → P l) : P l := by
  induction hlen : l.length using Nat.strong_induction_on generalizing l with
  | h n ih =>
      cases h : cut? d l with
      | none => exact none l h
      | some p =>
          have hlt := length_behind_lt hd h
          exact some l p.1 p.2 h (ih _ (by omega) p.2 rfl)

theorem pieces_ne_nil (hd : d ≠ []) (l : List α) : pieces d hd l ≠ [] := by
  cases h : cut? d l with
  | none =>
      rw [pieces_of_none h]
      exact List.cons_ne_nil _ _
  | some p =>
      rw [pieces_of_some h]
      exact List.cons_ne_nil _ _

/-- The pieces, put together again with `d` between them, are the list. -/
theorem intercalate_pieces (hd : d ≠ []) (l : List α) : d.intercalate (pieces d hd l) = l := by
  induction l using cut_induction hd with
  | none l h => rw [pieces_of_none h, List.intercalate_singleton]
  | some l before behind h ih =>
      rw [pieces_of_some h, List.intercalate_cons_of_ne_nil (pieces_ne_nil _ behind), ih]
      exact (eq_of_cut? h).symm

/-- The pieces of the rest of a list whose first element is no delimiter. -/
theorem pieces_cons (hd : d ≠ []) {a : α} {l : List α} (h : ¬ d <+: a :: l) :
    ∃ p ps, pieces d hd l = p :: ps ∧ pieces d hd (a :: l) = (a :: p) :: ps := by
  cases hcut : cut? d l with
  | none =>
      refine ⟨l, [], pieces_of_none hcut, pieces_of_none ?_⟩
      rw [cut?_cons h, hcut]
      rfl
  | some p =>
      refine ⟨p.1, pieces d hd p.2, pieces_of_some hcut, pieces_of_some ?_⟩
      rw [cut?_cons h, hcut]
      rfl

/-- However a list is read as parts with `d` between them, there are no more parts than pieces. -/
theorem length_le_pieces (hd : d ≠ []) (ps : List (List α)) :
    ps.length ≤ (pieces d hd (d.intercalate ps)).length := by
  induction hlen : ps.length generalizing ps with
  | zero => exact Nat.zero_le _
  | succ n ih =>
      match ps with
      | [] => cases hlen
      | [p] =>
          obtain rfl : n = 0 := by simpa using hlen.symm
          exact List.length_pos_of_ne_nil (pieces_ne_nil _ _)
      | p :: q :: ps =>
          rw [List.intercalate_cons_cons]
          cases hcut : cut? d (p ++ d ++ d.intercalate (q :: ps)) with
          | none => exact absurd ⟨p, _, rfl⟩ (cut?_eq_none_iff.mp hcut)
          | some cut =>
              obtain ⟨before, behind⟩ := cut
              -- the first occurrence leaves all later parts, the first of them maybe longer
              have hle : before.length ≤ p.length := length_le_of_cut? hcut rfl
              have heq := eq_of_cut? hcut
              obtain ⟨mid, hmid⟩ : ∃ mid, behind = mid ++ d.intercalate (q :: ps) := by
                have hsuffix : d.intercalate (q :: ps) <:+ behind := by
                  refine List.suffix_of_suffix_length_le ⟨p ++ d, rfl⟩ ⟨before ++ d, heq.symm⟩ ?_
                  have hlens := congrArg List.length heq
                  simp only [List.length_append] at hlens
                  omega
                obtain ⟨mid, hmid⟩ := hsuffix
                exact ⟨mid, hmid.symm⟩
              have hparts : behind = d.intercalate ((mid ++ q) :: ps) := by
                rw [hmid]
                cases ps with
                | nil => simp
                | cons r ps => simp [List.intercalate_cons_cons]
              have hrest := ih ((mid ++ q) :: ps) (by simpa using hlen)
              rw [pieces_of_some hcut, List.length_cons, hparts]
              omega

/-! ## Counting occurrences -/

/-- How many occurrences of `d` are found. -/
def occurrences (d : List α) (hd : d ≠ []) (l : List α) : Nat :=
  (pieces d hd l).length - 1

theorem occurrences_of_none {l : List α} (h : cut? d l = none) : occurrences d hd l = 0 := by
  rw [occurrences, pieces_of_none h, List.length_singleton]

theorem occurrences_of_some {l before behind : List α} (h : cut? d l = some (before, behind)) :
    occurrences d hd l = occurrences d hd behind + 1 := by
  have hpos := List.length_pos_of_ne_nil (pieces_ne_nil hd behind)
  rw [occurrences, occurrences, pieces_of_some h, List.length_cons]
  omega

theorem twice_iff (hd : d ≠ []) {l : List α} : Twice d l ↔ 2 ≤ occurrences d hd l := by
  constructor
  · rintro ⟨u, v, w, rfl⟩
    have hle := length_le_pieces hd [u, v, w]
    rw [List.intercalate_cons_cons, List.intercalate_cons_cons, List.intercalate_singleton] at hle
    rw [List.append_assoc (u ++ d), List.append_assoc (u ++ d), occurrences]
    exact Nat.le_sub_one_of_lt hle
  · intro h
    have hjoin := intercalate_pieces hd l
    unfold occurrences at h
    generalize pieces d hd l = ps at h hjoin
    match ps with
    | [] => simp at h
    | [_] => simp at h
    | [_, _] => simp at h
    | p :: q :: r :: ps =>
        refine ⟨p, q, d.intercalate (r :: ps), ?_⟩
        rw [← hjoin, List.intercalate_cons_cons, List.intercalate_cons_cons]
        simp only [List.append_assoc]

end Pieces

/-! ## Separators -/

section Separator

variable {c : α}

theorem cut?_append_sep_of_some (hc : c ∉ d) {a before behind : List α} (l : List α)
    (h : cut? d a = some (before, behind)) :
    cut? d (a ++ c :: l) = some (before, behind ++ c :: l) := by
  induction a generalizing before with
  | nil =>
      have hnil := eq_of_cut? h
      obtain ⟨hfront, rfl⟩ := List.append_eq_nil_iff.mp hnil.symm
      obtain ⟨rfl, rfl⟩ := List.append_eq_nil_iff.mp hfront
      exact cut?_append_left [] (c :: l)
  | cons x a ih =>
      by_cases hpre : d <+: x :: a
      · obtain ⟨rest, hrest⟩ := hpre
        rw [← hrest, cut?_append_left] at h
        obtain ⟨rfl, rfl⟩ := Prod.mk.inj (Option.some.inj h)
        rw [← hrest, List.append_assoc, cut?_append_left]
      · rw [cut?_cons hpre, Option.map_eq_some_iff] at h
        obtain ⟨⟨before', behind'⟩, hcut, hpair⟩ := h
        obtain ⟨rfl, rfl⟩ := Prod.mk.inj hpair
        have hnot : ¬ d <+: x :: (a ++ c :: l) :=
          fun hp => hpre ((prefix_append_sep_iff hc).mp hp)
        rw [List.cons_append, cut?_cons hnot, ih hcut]
        rfl

theorem cut?_append_sep_of_none (hc : c ∉ d) {a : List α} (l : List α) (h : cut? d a = none) :
    cut? d (a ++ c :: l) = (cut? d l).map fun p => (a ++ c :: p.1, p.2) := by
  induction a with
  | nil =>
      have hnot : ¬ d <+: c :: l := by
        intro hp
        have hnil : d <+: [] := (prefix_append_sep_iff (a := []) hc).mp hp
        exact cut?_eq_none_iff.mp h hnil.isInfix
      rw [List.nil_append, cut?_cons hnot]
      rfl
  | cons x a ih =>
      have hinfix := cut?_eq_none_iff.mp h
      rw [List.infix_cons_iff, not_or] at hinfix
      have hnot : ¬ d <+: x :: (a ++ c :: l) :=
        fun hp => hinfix.1 ((prefix_append_sep_iff hc).mp hp)
      rw [List.cons_append, cut?_cons hnot, ih (cut?_eq_none_iff.mpr hinfix.2), Option.map_map]
      rfl

/-- Across a separator the occurrences add up. -/
theorem occurrences_append_sep {hd : d ≠ []} (hc : c ∉ d) (a l : List α) :
    occurrences d hd (a ++ c :: l) = occurrences d hd a + occurrences d hd l := by
  induction a using cut_induction hd with
  | none a h =>
      have hcut := cut?_append_sep_of_none hc l h
      rw [occurrences_of_none h, Nat.zero_add]
      cases hl : cut? d l with
      | none =>
          rw [hl] at hcut
          rw [occurrences_of_none hcut, occurrences_of_none hl]
      | some p =>
          rw [hl] at hcut
          rw [occurrences_of_some hcut, occurrences_of_some hl]
  | some a before behind h ih =>
      rw [occurrences_of_some h, occurrences_of_some (cut?_append_sep_of_some hc l h), ih]
      omega

theorem occurrences_nil (hd : d ≠ []) : occurrences d hd [] = 0 :=
  occurrences_of_none (cut?_nil hd)

/-- All occurrences stand in the words, where the separators of the words are not in `d`. -/
theorem occurrences_words {p : α → Bool} (hd : d ≠ []) (hp : ∀ c, p c = true → c ∉ d)
    (l : List α) : occurrences d hd l = ((Segment.words p l).map (occurrences d hd)).sum := by
  have hclean : ∀ w, (∀ c ∈ w, p c = false) →
      occurrences d hd w = ((Segment.words p w).map (occurrences d hd)).sum := by
    intro w hw
    rw [Segment.words_clean_eq hw]
    by_cases hnil : w = []
    · rw [if_pos hnil, hnil, occurrences_nil]
      rfl
    · rw [if_neg hnil]
      simp
  induction l using Segment.pieces_induction p with
  | clean w hw => exact hclean w hw
  | sep w c rest hw hc ih =>
      rw [occurrences_append_sep (hp c hc), Segment.words_append_sep hc, List.map_append,
        List.sum_append, ← ih, hclean w hw]

theorem occurrences_intercalate (hd : d ≠ []) (hc : c ∉ d) (ws : List (List α)) :
    occurrences d hd ([c].intercalate ws) = (ws.map (occurrences d hd)).sum := by
  induction ws with
  | nil => exact occurrences_nil hd
  | cons w ws ih =>
      cases ws with
      | nil => simp
      | cons v vs =>
          rw [List.intercalate_cons_cons, List.append_assoc, List.singleton_append,
            occurrences_append_sep hc, ih, List.map_cons (l := v :: vs), List.sum_cons]

end Separator

/-! ## What stands outside -/

section Outside

variable (hd : d ≠ [])

/-- Fewer than two delimiters enclose nothing. -/
theorem outside_pieces_of_not_twice {l : List α} (h : ¬ Twice d l) :
    outside d (pieces d hd l) = l ∧ enclosed (pieces d hd l) = [] := by
  have hjoin := intercalate_pieces hd l
  rw [twice_iff hd, not_le, occurrences] at h
  generalize pieces d hd l = ps at h hjoin ⊢
  match ps with
  | [] => exact ⟨hjoin, rfl⟩
  | [p] =>
      rw [List.intercalate_singleton] at hjoin
      exact ⟨hjoin, rfl⟩
  | [p, q] =>
      rw [List.intercalate_cons_cons, List.intercalate_singleton] at hjoin
      exact ⟨hjoin, rfl⟩
  | p :: q :: r :: ps =>
      simp only [List.length_cons] at h
      omega

theorem enclosed_pieces_eq_nil_iff {l : List α} :
    enclosed (pieces d hd l) = [] ↔ ¬ Twice d l := by
  constructor
  · intro hnil htwice
    rw [twice_iff hd, occurrences] at htwice
    generalize pieces d hd l = ps at hnil htwice
    match ps with
    | [] => simp at htwice
    | [_] => simp at htwice
    | [_, _] => simp at htwice
    | p :: q :: r :: ps => cases hnil
  · intro h
    exact (outside_pieces_of_not_twice hd h).2

end Outside

/-- A part that a delimiter follows does not end like the delimiter begins. -/
theorem noPair_of_cut? {x : α} {l before behind : List α}
    (h : cut? [x, x] l = some (before, behind)) :
    NoPair x before := by
  rintro ⟨u, v, huv⟩
  have hl : l = u ++ [x, x] ++ (v ++ [x] ++ behind) := by
    calc l = before ++ [x] ++ [x] ++ behind := by simpa using eq_of_cut? h
      _ = u ++ [x, x] ++ (v ++ [x] ++ behind) := by rw [← huv]; simp
  have hle := length_le_of_cut? h hl
  have hlen := congrArg List.length huv
  simp only [List.length_append, List.length_cons, List.length_nil] at hlen
  omega

/-- What is outside the delimiters holds at most one of them, and no join makes another. -/
theorem not_twice_outside_pieces (x : α) (l : List α) :
    ¬ Twice [x, x] (outside [x, x] (pieces [x, x] (List.cons_ne_nil x [x]) l)) := by
  suffices h : ¬ [x, x] <:+: outside [x, x] (pieces [x, x] (List.cons_ne_nil x [x]) l) ∨
      ∃ u v, outside [x, x] (pieces [x, x] (List.cons_ne_nil x [x]) l) = u ++ [x, x] ++ v ∧
        NoPair x u ∧ ¬ [x, x] <:+: v by
    rcases h with hnone | ⟨u, v, heq, hu, hv⟩
    · rintro ⟨u, v, w, heq⟩
      exact hnone ⟨u, v ++ [x, x] ++ w, by rw [heq]; simp⟩
    · rw [heq]
      exact not_twice_of_noPair hu hv
  induction hlen : l.length using Nat.strong_induction_on generalizing l with
  | h n ih =>
      cases hopen : cut? [x, x] l with
      | none =>
          left
          rw [pieces_of_none hopen]
          exact cut?_eq_none_iff.mp hopen
      | some cut =>
          obtain ⟨before, rest⟩ := cut
          have hbefore := noPair_of_cut? hopen
          rw [pieces_of_some hopen]
          cases hclose : cut? [x, x] rest with
          | none =>
              right
              rw [pieces_of_none hclose]
              exact ⟨before, rest, rfl, hbefore, cut?_eq_none_iff.mp hclose⟩
          | some cut =>
              obtain ⟨content, behind⟩ := cut
              rw [pieces_of_some hclose, outside_cons_cons_of_ne_nil (pieces_ne_nil _ behind)]
              have hlt : behind.length < n := by
                have hrest := length_behind_lt (List.cons_ne_nil x [x]) hopen
                have hbehind := length_behind_lt (List.cons_ne_nil x [x]) hclose
                omega
              rcases ih _ hlt behind rfl with hnone | ⟨u, v, heq, hu, hv⟩
              · left
                exact hbefore.not_infix_append hnone
              · right
                refine ⟨before ++ u, v, ?_, hbefore.append hu, hv⟩
                rw [heq]
                simp only [List.append_assoc]

/-! ## Writing parts between delimiters -/

/-- A part of a list that is to stand between delimiters, or outside them. -/
structure Part (α : Type*) where
  content : List α
  delimited : Bool

def Part.write (d : List α) (part : Part α) : List α :=
  if part.delimited then d ++ part.content ++ d else part.content

/-- A list without the element has no pair of it. -/
theorem noPair_of_not_mem {x : α} {l : List α} (h : x ∉ l) : NoPair x l := by
  rintro ⟨u, v, huv⟩
  have hcount := congrArg (List.count x) huv
  have hone : (l ++ [x]).count x = 1 := by simp [List.count_eq_zero_of_not_mem h]
  rw [hone] at hcount
  simp [List.count_append] at hcount
  omega

/-- The first delimiter behind a part without pairs is the one that follows it. -/
theorem cut?_append_of_noPair {x : α} {u : List α} (hu : NoPair x u) (l : List α) :
    cut? [x, x] (u ++ [x, x] ++ l) = some (u, l) := by
  induction u with
  | nil => exact cut?_append_left [x, x] l
  | cons a u ih =>
      unfold NoPair at hu ih
      rw [List.cons_append, List.infix_cons_iff, not_or] at hu
      have hpre : ¬ [x, x] <+: a :: (u ++ [x, x] ++ l) := by
        intro hpre
        refine hu.1 ?_
        rw [List.cons_prefix_cons] at hpre ⊢
        refine ⟨hpre.1, ?_⟩
        cases u with
        | nil => exact List.prefix_rfl
        | cons b u =>
            have hb := (List.cons_prefix_cons.mp hpre.2).1
            rw [hb]
            exact List.prefix_append [b] (u ++ [b])
      show cut? [x, x] (a :: (u ++ [x, x] ++ l)) = _
      rw [cut?_cons hpre, ih hu.2]
      rfl

/-- Parts without pairs, some of them written between delimiters, are read back: what stands outside
is the other parts put together, and what is enclosed is those that were delimited. -/
theorem outside_pieces_write {x : α} {parts : List (Part α)}
    (hparts : ∀ part ∈ parts, NoPair x part.content) :
    outside [x, x] (pieces [x, x] (List.cons_ne_nil x [x]) (parts.flatMap (Part.write [x, x]))) =
        (parts.filter fun part => !part.delimited).flatMap Part.content ∧
      enclosed (pieces [x, x] (List.cons_ne_nil x [x]) (parts.flatMap (Part.write [x, x]))) =
        (parts.filter Part.delimited).map Part.content := by
  -- the parts read so far that stand outside are in front
  suffices h : ∀ u, NoPair x u →
      outside [x, x] (pieces [x, x] (List.cons_ne_nil x [x])
          (u ++ parts.flatMap (Part.write [x, x]))) =
        u ++ (parts.filter fun part => !part.delimited).flatMap Part.content ∧
      enclosed (pieces [x, x] (List.cons_ne_nil x [x])
          (u ++ parts.flatMap (Part.write [x, x]))) =
        (parts.filter Part.delimited).map Part.content by
    exact h [] (noPair_of_not_mem List.not_mem_nil)
  induction parts with
  | nil =>
      intro u hu
      have hnone : cut? [x, x] u = none := by
        rw [cut?_eq_none_iff]
        exact fun hpair => hu (hpair.trans (List.prefix_append u [x]).isInfix)
      rw [List.flatMap_nil, List.append_nil, pieces_of_none hnone]
      exact ⟨(List.append_nil u).symm, rfl⟩
  | cons part parts ih =>
      intro u hu
      have hrest := ih fun p hp => hparts p (List.mem_cons_of_mem _ hp)
      have hpart := hparts part List.mem_cons_self
      rw [List.flatMap_cons]
      cases hdelimited : part.delimited with
      | false =>
          obtain ⟨houtside, henclosed⟩ := hrest (u ++ part.content) (hu.append hpart)
          have hwrite : Part.write [x, x] part = part.content := by
            rw [Part.write, hdelimited, if_neg (by decide)]
          rw [hwrite, ← List.append_assoc, houtside, henclosed,
            List.filter_cons_of_pos (by simp [hdelimited]),
            List.filter_cons_of_neg (by simp [hdelimited]), List.flatMap_cons, List.append_assoc]
          exact ⟨rfl, rfl⟩
      | true =>
          obtain ⟨houtside, henclosed⟩ := hrest [] (noPair_of_not_mem List.not_mem_nil)
          rw [List.nil_append] at houtside henclosed
          have hwrite : u ++ (Part.write [x, x] part ++ parts.flatMap (Part.write [x, x])) =
              u ++ [x, x] ++ (part.content ++ [x, x] ++ parts.flatMap (Part.write [x, x])) := by
            rw [Part.write, hdelimited, if_pos rfl]
            simp only [List.append_assoc]
          have hne := pieces_ne_nil (List.cons_ne_nil x [x]) (parts.flatMap (Part.write [x, x]))
          rw [hwrite, pieces_of_some (cut?_append_of_noPair hu _),
            pieces_of_some (cut?_append_of_noPair hpart _), outside_cons_cons_of_ne_nil hne,
            enclosed_cons_cons_of_ne_nil hne, houtside, henclosed, List.nil_append,
            List.filter_cons_of_neg (by simp [hdelimited]),
            List.filter_cons_of_pos (by simp [hdelimited]), List.map_cons]
          exact ⟨rfl, rfl⟩

end Delimiter
