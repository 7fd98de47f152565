/-
# Typesetting.Lib.Regex -- replacing what a pattern matches

A pattern is a row of character classes, each for one character or, with a star, for as many as
there are. The search for a match at a given place goes back where it has to: a star takes as many
characters as it can, and gives them back one by one until the rest of the pattern matches
(`starThen`). `replace` goes through a text from the left and writes a fixed text for each match,
and goes on behind it.

A pattern whose classes only hold separators sees no further than the next character that does not
separate, so it rewrites a text gap by gap (`gapwise_replace`). What a star and a character `q`
reach in a gap is its last `q` (`findsLast_starThen_oneThen`), so that a pattern of `q` and such
pairs replaces all that stands between the first `q` of a gap and the last.
-/
import Typesetting.Lib.Spacing

namespace Regex

variable {α : Type*}

/-- A part of a pattern: one character of a class, or any number of them. -/
inductive Item (α : Type*) where
  | one (cls : α → Bool)
  | star (cls : α → Bool)

def Item.cls : Item α → α → Bool
  | .one cls => cls
  | .star cls => cls

/-- A pattern, which opens with one character, so that no match is empty. -/
structure Pattern (α : Type*) where
  first : α → Bool
  rest : List (Item α)

/-! ## The length of a match -/

/-- The length of a match of one character and of what `next` matches behind it. -/
def oneThen (cls : α → Bool) (next : List α → Option Nat) : List α → Option Nat
  | [] => none
  | c :: l => if cls c then (next l).map (· + 1) else none

/-- The length of a match of as many characters as possible and of what `next` matches behind
them. -/
def starThen (cls : α → Bool) (next : List α → Option Nat) : List α → Option Nat
  | [] => next []
  | c :: l =>
    if cls c then
      match starThen cls next l with
      | some n => some (n + 1)
      -- with this character taken the rest of the pattern matches nowhere: it is given back
      | none => next (c :: l)
    else next (c :: l)

/-- The length of the first match that the search comes to at the start of a text. -/
def matchLength : List (Item α) → List α → Option Nat
  | [] => fun _ => some 0
  | .one cls :: items => oneThen cls (matchLength items)
  | .star cls :: items => starThen cls (matchLength items)

/-- How far a match that begins with the character `c` goes on behind it. -/
def Pattern.behind (re : Pattern α) (c : α) (l : List α) : Option Nat :=
  if re.first c then matchLength re.rest l else none

/-- The text with `r` for each match, when the first characters, as many as the number says,
belong to a match already written. -/
def replaceFrom (re : Pattern α) (r : List α) : Nat → List α → List α
  | _, [] => []
  | skip + 1, _ :: l => replaceFrom re r skip l
  | 0, c :: l =>
    match re.behind c l with
    | some n => r ++ replaceFrom re r n l
    | none => c :: replaceFrom re r 0 l

def replace (re : Pattern α) (r : List α) (l : List α) : List α :=
  replaceFrom re r 0 l

variable {re : Pattern α} {r : List α}

theorem replaceFrom_drop (n : Nat) (l : List α) :
    replaceFrom re r n l = replace re r (l.drop n) := by
  induction n generalizing l with
  | zero => rfl
  | succ n ih =>
      cases l with
      | nil => rfl
      | cons c l => exact ih l

theorem replace_cons_of_none {c : α} {l : List α} (h : re.behind c l = none) :
    replace re r (c :: l) = c :: replace re r l := by
  show replaceFrom re r 0 (c :: l) = _
  rw [replaceFrom, h]
  rfl

theorem replace_cons_of_some {c : α} {l : List α} {n : Nat} (h : re.behind c l = some n) :
    replace re r (c :: l) = r ++ replace re r (l.drop n) := by
  show replaceFrom re r 0 (c :: l) = _
  rw [replaceFrom, h, ← replaceFrom_drop]

/-- No text goes away where something is written for each match. -/
theorem replace_eq_nil_iff (hr : r ≠ []) {l : List α} : replace re r l = [] ↔ l = [] := by
  cases l with
  | nil => exact iff_of_true rfl rfl
  | cons c l =>
      refine iff_of_false ?_ (List.cons_ne_nil c l)
      cases hm : re.behind c l with
      | none =>
          rw [replace_cons_of_none hm]
          exact List.cons_ne_nil _ _
      | some n =>
          rw [replace_cons_of_some hm]
          exact List.append_ne_nil_of_left_ne_nil hr _

/-! ## What is in the new text -/

/-- A run at the start of the new text that has nothing of `r` stands at the start of the text. -/
theorem prefix_of_prefix_replace (hr : r ≠ []) {g l : List α} (h : g <+: replace re r l)
    (hg : ∀ d ∈ g, d ∉ r) : g <+: l := by
  induction l generalizing g with
  | nil => exact h
  | cons c l ih =>
      cases hm : re.behind c l with
      | none =>
          rw [replace_cons_of_none hm] at h
          cases g with
          | nil => exact List.nil_prefix
          | cons d g =>
              rw [List.cons_prefix_cons] at h ⊢
              exact ⟨h.1, ih h.2 fun e he => hg e (List.mem_cons_of_mem d he)⟩
      | some n =>
          obtain ⟨e, r', rfl⟩ := List.exists_cons_of_ne_nil hr
          rw [replace_cons_of_some hm] at h
          cases g with
          | nil => exact List.nil_prefix
          | cons d g =>
              rw [List.cons_append, List.cons_prefix_cons] at h
              exact absurd (h.1 ▸ List.mem_cons_self) (hg d List.mem_cons_self)

/-- A run of the new text that has nothing of `r` is one of the text. -/
theorem infix_of_infix_replace (hr : r ≠ []) {g l : List α} (h : g <:+: replace re r l)
    (hg : ∀ d ∈ g, d ∉ r) : g <:+: l := by
  induction hn : l.length using Nat.strong_induction_on generalizing l with
  | _ n ih =>
      cases l with
      | nil => exact h
      | cons c l =>
          cases hm : re.behind c l with
          | none =>
              rw [replace_cons_of_none hm, List.infix_cons_iff] at h
              rcases h with hstart | hlater
              · rw [← replace_cons_of_none hm] at hstart
                exact (prefix_of_prefix_replace hr hstart hg).isInfix
              · have hlt : l.length < n := by simp [← hn]
                exact (ih l.length hlt hlater rfl).trans (List.infix_cons List.infix_rfl)
          | some m =>
              rw [replace_cons_of_some hm] at h
              have hrest := Segment.infix_of_infix_append h hg
              have hlt : (l.drop m).length < n := by
                simp only [← hn, List.length_drop, List.length_cons]
                omega
              exact (ih _ hlt hrest rfl).trans
                ((List.drop_suffix m l).isInfix.trans (List.infix_cons List.infix_rfl))

theorem mem_replace (hr : r ≠ []) {c : α} {l : List α} (h : c ∈ replace re r l) :
    c ∈ r ∨ c ∈ l := by
  by_cases hc : c ∈ r
  · exact .inl hc
  · have hrun : [c] <:+: replace re r l := (List.singleton_infix_iff c _).mpr h
    exact .inr ((List.singleton_infix_iff c l).mp
      (infix_of_infix_replace hr hrun (by simpa using hc)))

/-! ## Patterns of separators -/

/-- All that a pattern can match are separators. -/
structure Pattern.Within (re : Pattern α) (p : α → Bool) : Prop where
  first : ∀ c, re.first c = true → p c = true
  rest : ∀ item ∈ re.rest, ∀ c, item.cls c = true → p c = true

variable {p : α → Bool}

section Search

variable {cls : α → Bool} {next : List α → Option Nat} {l : List α}

theorem oneThen_le (hnext : ∀ {l : List α} {n : Nat}, next l = some n → n ≤ l.length) {n : Nat}
    (h : oneThen cls next l = some n) : n ≤ l.length := by
  cases l with
  | nil => cases h
  | cons c l =>
      rw [oneThen] at h
      split at h
      · obtain ⟨m, hm, rfl⟩ := Option.map_eq_some_iff.mp h
        exact Nat.succ_le_succ (hnext hm)
      · cases h

theorem starThen_le (hnext : ∀ {l : List α} {n : Nat}, next l = some n → n ≤ l.length) {n : Nat}
    (h : starThen cls next l = some n) : n ≤ l.length := by
  induction l generalizing n with
  | nil => exact hnext h
  | cons c l ih =>
      rw [starThen] at h
      split at h
      · split at h
        · rename_i m hm
          cases h
          exact Nat.succ_le_succ (ih hm)
        · exact hnext h
      · exact hnext h

variable {c : α}

theorem oneThen_append_cons (hc : cls c = false) (hnext : ∀ g, next (g ++ c :: l) = next g)
    (g : List α) : oneThen cls next (g ++ c :: l) = oneThen cls next g := by
  cases g with
  | nil =>
      show oneThen cls next (c :: l) = none
      rw [oneThen, if_neg (Bool.not_eq_true _ ▸ hc)]
  | cons d g =>
      show oneThen cls next (d :: (g ++ c :: l)) = oneThen cls next (d :: g)
      rw [oneThen, oneThen, hnext]

theorem starThen_append_cons (hc : cls c = false) (hnext : ∀ g, next (g ++ c :: l) = next g)
    (g : List α) : starThen cls next (g ++ c :: l) = starThen cls next g := by
  induction g with
  | nil =>
      show starThen cls next (c :: l) = next []
      rw [starThen, if_neg (Bool.not_eq_true _ ▸ hc)]
      exact hnext []
  | cons d g ih =>
      have hdg : next (d :: (g ++ c :: l)) = next (d :: g) := hnext (d :: g)
      show starThen cls next (d :: (g ++ c :: l)) = starThen cls next (d :: g)
      rw [starThen, starThen, ih, hdg]

end Search

theorem matchLength_le {items : List (Item α)} {l : List α} {n : Nat}
    (h : matchLength items l = some n) : n ≤ l.length := by
  induction items generalizing l n with
  | nil =>
      cases h
      exact Nat.zero_le _
  | cons item items ih =>
      cases item with
      | one cls => exact oneThen_le ih h
      | star cls => exact starThen_le ih h

/-- The search does not see what stands behind a character that no class holds. -/
theorem matchLength_append_cons {items : List (Item α)}
    (hitems : ∀ item ∈ items, ∀ c, item.cls c = true → p c = true) {c : α} (hc : p c = false)
    (g l : List α) : matchLength items (g ++ c :: l) = matchLength items g := by
  induction items generalizing g with
  | nil => rfl
  | cons item items ih =>
      rw [List.forall_mem_cons] at hitems
      have hout : item.cls c = false := by
        rw [← Bool.not_eq_true]
        intro hin
        rw [hitems.1 c hin] at hc
        cases hc
      cases item with
      | one cls => exact oneThen_append_cons hout (ih hitems.2) g
      | star cls => exact starThen_append_cons hout (ih hitems.2) g

/-- A pattern of separators rewrites each gap of a text for itself. -/
theorem gapwise_replace (hre : re.Within p) (hr : r ≠ []) (hseps : ∀ d ∈ r, p d = true) :
    Spacing.Gapwise p (replace re r) where
  nil := rfl
  seps g hg d hd := by
    rcases mem_replace hr hd with hd | hd
    · exact hseps d hd
    · exact hg d hd
  append_cons a c l hc := by
    have hfirst : re.behind c l = none := by
      rw [Pattern.behind, if_neg]
      intro hin
      rw [hre.first c hin] at hc
      cases hc
    induction hn : a.length using Nat.strong_induction_on generalizing a with
    | _ n ih =>
        cases a with
        | nil => exact replace_cons_of_none hfirst
        | cons d a =>
            have hbehind : re.behind d (a ++ c :: l) = re.behind d a := by
              rw [Pattern.behind, Pattern.behind, matchLength_append_cons hre.rest hc]
            cases hm : re.behind d a with
            | none =>
                rw [List.cons_append, replace_cons_of_none (hbehind.trans hm),
                  replace_cons_of_none hm, ih a.length (by simp [← hn]) a rfl, List.cons_append]
            | some m =>
                have hle : m ≤ a.length := by
                  unfold Pattern.behind at hm
                  split at hm
                  · exact matchLength_le hm
                  · cases hm
                have hlt : (a.drop m).length < n := by
                  simp only [← hn, List.length_drop, List.length_cons]
                  omega
                rw [List.cons_append, replace_cons_of_some (hbehind.trans hm),
                  replace_cons_of_some hm, List.drop_append_of_le_length hle,
                  ih _ hlt _ rfl, List.append_assoc]

/-! ## Runs of one class -/

/-- A star at the end of a pattern takes the whole run. -/
theorem matchLength_star (cls : α → Bool) (l : List α) :
    matchLength [.star cls] l = some (l.takeWhile cls).length := by
  show starThen cls (fun _ => some 0) l = _
  induction l with
  | nil => rfl
  | cons c l ih =>
      by_cases hc : cls c = true
      · rw [starThen, if_pos hc, ih, List.takeWhile_cons_of_pos hc, List.length_cons]
      · rw [starThen, if_neg hc, List.takeWhile_cons_of_neg hc, List.length_nil]

/-- A pattern for a run of one class, `[cls]+`. -/
def plus (cls : α → Bool) : Pattern α :=
  ⟨cls, [.star cls]⟩

theorem plus_within {cls : α → Bool} (h : ∀ c, cls c = true → p c = true) :
    (plus cls).Within p where
  first := h
  rest item hitem c hc := by
    obtain rfl := List.mem_singleton.mp hitem
    exact h c hc

/-- To write one character for each match of such a pattern is to collapse the runs. -/
theorem replace_plus (cls : α → Bool) (s : α) (l : List α) :
    replace (plus cls) [s] l = Segment.collapse cls s l := by
  induction hn : l.length using Nat.strong_induction_on generalizing l with
  | _ n ih =>
      cases l with
      | nil => rfl
      | cons c l =>
          have hbehind : (plus cls).behind c l =
              if cls c then some (l.takeWhile cls).length else none := by
            rw [Pattern.behind, ← matchLength_star]
            rfl
          by_cases hc : cls c = true
          · have hdrop : l.drop (l.takeWhile cls).length = l.dropWhile cls :=
              calc l.drop (l.takeWhile cls).length
                  = (l.takeWhile cls ++ l.dropWhile cls).drop (l.takeWhile cls).length := by
                    rw [List.takeWhile_append_dropWhile]
                _ = l.dropWhile cls := List.drop_left
            have hlt : (l.dropWhile cls).length < n := by
              rw [← hn, List.length_cons, Nat.lt_succ_iff]
              exact (List.dropWhile_sublist cls).length_le
            rw [replace_cons_of_some (hbehind.trans (if_pos hc)), hdrop, ih _ hlt _ rfl,
              Segment.collapse, Segment.collapse, Segment.collapseFrom, if_pos hc,
              Segment.collapseFrom_true]
            rfl
          · rw [replace_cons_of_none (hbehind.trans (if_neg hc)), ih l.length (by simp [← hn]) l rfl,
              Segment.collapse, Segment.collapse, Segment.collapseFrom, if_neg hc]

/-! ## Up to the last of one character -/

/-- A search that asks for `k` characters with `q`: with fewer it fails, and with as many as that
it goes on behind the last of them. -/
def FindsExactly (p q : α → Bool) (k : Nat) (find : List α → Option Nat) : Prop :=
  ∀ l : List α, (∀ d ∈ l, p d = true) → (l.countP q < k → find l = none) ∧
    (l.countP q = k → ∃ n, find l = some n ∧ (l.drop n).countP q = 0)

/-- A search that asks for `k` characters with `q` and goes on behind the last there is. -/
def FindsLast (p q : α → Bool) (k : Nat) (find : List α → Option Nat) : Prop :=
  ∀ l : List α, (∀ d ∈ l, p d = true) → (l.countP q < k → find l = none) ∧
    (k ≤ l.countP q → ∃ n, find l = some n ∧ (l.drop n).countP q = 0)

variable {q : α → Bool} {k : Nat}

theorem FindsLast.findsExactly {find : List α → Option Nat} (h : FindsLast p q k find) :
    FindsExactly p q k find :=
  fun l hl => ⟨(h l hl).1, fun hcount => (h l hl).2 hcount.ge⟩

theorem findsExactly_zero : FindsExactly p q 0 (matchLength []) :=
  fun _ _ => ⟨fun h => absurd h (Nat.not_lt_zero _), fun h => ⟨0, rfl, h⟩⟩

/-- A star takes all it can: it leaves the last characters with `q` to what comes behind it. -/
theorem findsLast_starThen_oneThen {find : List α → Option Nat} (h : FindsExactly p q k find) :
    FindsLast p q (k + 1) (starThen p (oneThen q find)) := by
  intro l hl
  induction l with
  | nil => exact ⟨fun _ => rfl, fun hcount => absurd hcount (by simp)⟩
  | cons c l ih =>
      rw [List.forall_mem_cons] at hl
      obtain ⟨ihnone, ihsome⟩ := ih hl.2
      obtain ⟨hnone, hsome⟩ := h l hl.2
      rw [starThen, if_pos hl.1]
      by_cases hmany : k + 1 ≤ l.countP q
      · obtain ⟨n, hn, hrest⟩ := ihsome hmany
        rw [hn]
        refine ⟨fun hcount => ?_, fun _ => ⟨n + 1, rfl, hrest⟩⟩
        rw [List.countP_cons] at hcount
        omega
      · rw [ihnone (by omega)]
        by_cases hq : q c = true
        · rw [List.countP_cons_of_pos hq]
          refine ⟨fun hcount => ?_, fun hcount => ?_⟩
          · show oneThen q find (c :: l) = none
            rw [oneThen, if_pos hq, hnone (by omega), Option.map_none]
          · obtain ⟨n, hn, hrest⟩ := hsome (by omega)
            refine ⟨n + 1, ?_, hrest⟩
            show oneThen q find (c :: l) = some (n + 1)
            rw [oneThen, if_pos hq, hn, Option.map_some]
        · rw [List.countP_cons_of_neg hq]
          refine ⟨fun _ => ?_, fun hcount => absurd hcount hmany⟩
          show oneThen q find (c :: l) = none
          rw [oneThen, if_neg hq]

/-- The pattern asks for one character with `q` and `k` more, and goes on to the last. -/
structure Pattern.ReachesLast (re : Pattern α) (p q : α → Bool) (k : Nat) : Prop where
  first : re.first = q
  rest : FindsLast p q k (matchLength re.rest)

/-- A gap with too few characters for a match is left as it is. -/
theorem Pattern.ReachesLast.replace_eq_self (h : re.ReachesLast p q k) {g : List α}
    (hg : ∀ d ∈ g, p d = true) (hcount : g.countP q ≤ k) : replace re r g = g := by
  induction g with
  | nil => rfl
  | cons c g ih =>
      rw [List.forall_mem_cons] at hg
      have hbehind : re.behind c g = none := by
        rw [Pattern.behind, h.first]
        split
        · rename_i hq
          rw [List.countP_cons_of_pos hq] at hcount
          exact (h.rest g hg.2).1 (by omega)
        · rfl
      have hle : g.countP q ≤ k := by
        rw [List.countP_cons] at hcount
        omega
      rw [replace_cons_of_none hbehind, ih hg.2 hle]

/-- A gap is left with no more of the characters than are too few for a match, or than `r` has. -/
theorem Pattern.ReachesLast.countP_replace_le (h : re.ReachesLast p q k) {g : List α}
    (hg : ∀ d ∈ g, p d = true) (hr : r.countP q ≤ k) : (replace re r g).countP q ≤ k := by
  induction g with
  | nil => exact Nat.zero_le _
  | cons c g ih =>
      have hall := hg
      rw [List.forall_mem_cons] at hg
      by_cases hq : q c = true
      · by_cases hmany : k ≤ g.countP q
        · obtain ⟨n, hn, hlast⟩ := (h.rest g hg.2).2 hmany
          have hbehind : re.behind c g = some n := by
            rw [Pattern.behind, h.first, if_pos hq, hn]
          have hrest : replace re r (g.drop n) = g.drop n :=
            h.replace_eq_self (fun d hd => hg.2 d (List.mem_of_mem_drop hd)) (by omega)
          rw [replace_cons_of_some hbehind, hrest, List.countP_append, hlast]
          exact hr
        · have hself : replace re r (c :: g) = c :: g :=
            h.replace_eq_self hall (by rw [List.countP_cons_of_pos hq]; omega)
          rw [hself, List.countP_cons_of_pos hq]
          omega
      · have hbehind : re.behind c g = none := by
          rw [Pattern.behind, h.first, if_neg hq]
        rw [replace_cons_of_none hbehind, List.countP_cons_of_neg hq]
        exact ih hg.2

/-- A gap with enough of the characters for a match gets what is written for it. -/
theorem Pattern.ReachesLast.infix_replace (h : re.ReachesLast p q k) {g : List α}
    (hg : ∀ d ∈ g, p d = true) (hcount : k < g.countP q) : r <:+: replace re r g := by
  induction g with
  | nil => exact absurd hcount (Nat.not_lt_zero k)
  | cons c g ih =>
      rw [List.forall_mem_cons] at hg
      by_cases hq : q c = true
      · rw [List.countP_cons_of_pos hq] at hcount
        obtain ⟨n, hn, -⟩ := (h.rest g hg.2).2 (by omega)
        have hbehind : re.behind c g = some n := by
          rw [Pattern.behind, h.first, if_pos hq, hn]
        rw [replace_cons_of_some hbehind]
        exact (List.prefix_append _ _).isInfix
      · have hbehind : re.behind c g = none := by
          rw [Pattern.behind, h.first, if_neg hq]
        rw [List.countP_cons_of_neg hq] at hcount
        rw [replace_cons_of_none hbehind]
        exact List.infix_cons (ih hg.2 hcount)

end Regex
