/-
# Typesetting.Lib.Segment -- separators, words and the normal form of a text

A text is a list over any type of characters, and a predicate `p` says which of them separate.
`words p l` are the maximal separator-free runs of `l`, that is, the non-empty pieces between
separators. Trimming (`trim`) and replacing each maximal run of separators by one fixed
separator (`collapse`) are described through the words: together they turn a text into its
words joined by that separator, and neither touches a character that does not separate.
-/
import Mathlib.Data.List.DropRight
import Mathlib.Data.List.Infix

namespace Segment

variable {α : Type*} {p : α → Bool}

/-! ## Words -/

/-- The non-empty pieces of a text between separators. -/
def words (p : α → Bool) (l : List α) : List (List α) :=
  (l.splitOnP p).filter fun w => !w.isEmpty

@[simp]
theorem words_nil : words p [] = [] := by
  simp [words]

/-- A separator cuts: what stands before it and what stands after it share no word. -/
theorem words_append_sep {c : α} (hc : p c = true) (a b : List α) :
    words p (a ++ c :: b) = words p a ++ words p b := by
  simp only [words, List.splitOnP_append_cons a b hc, List.filter_append]

@[simp]
theorem words_cons_sep {c : α} (hc : p c = true) (l : List α) :
    words p (c :: l) = words p l := by
  simpa using words_append_sep hc [] l

/-- Separators at the start of a text end no word. -/
theorem words_seps_append {g : List α} (hg : ∀ d ∈ g, p d = true) (l : List α) :
    words p (g ++ l) = words p l := by
  induction g with
  | nil => rfl
  | cons d g ih =>
      rw [List.forall_mem_cons] at hg
      rw [List.cons_append, words_cons_sep hg.1, ih hg.2]

theorem words_of_clean {w : List α} (hw : ∀ c ∈ w, p c = false) (hne : w ≠ []) :
    words p w = [w] := by
  simp [words, List.splitOnP_eq_singleton hw, hne]

/-- The first word of a text that opens with the separator-free run `w`. -/
theorem words_clean_append_sep {w : List α} (hw : ∀ c ∈ w, p c = false) (hne : w ≠ []) {c : α}
    (hc : p c = true) (l : List α) : words p (w ++ c :: l) = w :: words p l := by
  rw [words_append_sep hc, words_of_clean hw hne, List.singleton_append]

/-- A text is either separator-free or a separator-free run, a separator and a shorter text. -/
theorem clean_or_sep (p : α → Bool) (l : List α) :
    (∀ c ∈ l, p c = false) ∨
      ∃ w c rest, l = w ++ c :: rest ∧ (∀ x ∈ w, p x = false) ∧ p c = true := by
  induction l with
  | nil => exact Or.inl (by simp)
  | cons x xs ih =>
      by_cases hx : p x = true
      · exact Or.inr ⟨[], x, xs, rfl, by simp, hx⟩
      · have hx' : p x = false := by simpa using hx
        rcases ih with hclean | ⟨w, c, rest, rfl, hw, hc⟩
        · exact Or.inl (List.forall_mem_cons.mpr ⟨hx', hclean⟩)
        · exact Or.inr ⟨x :: w, c, rest, rfl, List.forall_mem_cons.mpr ⟨hx', hw⟩, hc⟩

/-- Induction along the pieces of a text: a separator-free text, or a separator-free run
followed by a separator and a text for which the property is known. -/
theorem pieces_induction {P : List α → Prop} (p : α → Bool)
    (clean : ∀ w, (∀ c ∈ w, p c = false) → P w)
    (sep : ∀ w c rest, (∀ x ∈ w, p x = false) → p c = true → P rest → P (w ++ c :: rest))
    (l : List α) : P l := by
  induction hn : l.length using Nat.strong_induction_on generalizing l with
  | _ n ih =>
      rcases clean_or_sep p l with hclean | ⟨w, c, rest, rfl, hw, hc⟩
      · exact clean l hclean
      · refine sep w c rest hw hc (ih rest.length ?_ rest rfl)
        simp only [← hn, List.length_append, List.length_cons]
        omega

theorem words_clean_eq {w : List α} (hw : ∀ c ∈ w, p c = false) :
    words p w = if w = [] then [] else [w] := by
  by_cases hne : w = []
  · simp [hne]
  · rw [words_of_clean hw hne, if_neg hne]

/-- One more character at the start of a text goes to its first word, if that begins there. -/
theorem words_cons_clean {c d : α} (hc : p c = false) (hd : p d = false) (l : List α) :
    ∃ w ws, words p (d :: l) = (d :: w) :: ws ∧ words p (c :: d :: l) = (c :: d :: w) :: ws := by
  rcases clean_or_sep p (d :: l) with hclean | ⟨w, s, rest, hl, hw, hs⟩
  · exact ⟨l, [], words_of_clean hclean (List.cons_ne_nil d l),
      words_of_clean (List.forall_mem_cons.mpr ⟨hc, hclean⟩) (List.cons_ne_nil c _)⟩
  · cases w with
    | nil =>
        -- the text would begin with the separator
        obtain ⟨rfl, -⟩ := List.cons.inj hl
        rw [hd] at hs
        cases hs
    | cons e w =>
        obtain ⟨rfl, -⟩ := List.cons.inj hl
        refine ⟨w, words p rest, ?_, ?_⟩
        · rw [hl, words_clean_append_sep hw (List.cons_ne_nil d w) hs]
        · rw [hl, ← List.cons_append, words_clean_append_sep
            (List.forall_mem_cons.mpr ⟨hc, hw⟩) (List.cons_ne_nil c _) hs]

/-- Every word is non-empty and free of separators. -/
theorem mem_words {w l : List α} (h : w ∈ words p l) : w ≠ [] ∧ ∀ c ∈ w, p c = false := by
  induction l using pieces_induction p with
  | clean v hv =>
      rw [words_clean_eq hv] at h
      by_cases hne : v = []
      · simp [hne] at h
      · rw [if_neg hne, List.mem_singleton] at h
        exact h ▸ ⟨hne, hv⟩
  | sep v c rest hv hc ih =>
      rw [words_append_sep hc, words_clean_eq hv, List.mem_append] at h
      rcases h with h | h
      · by_cases hne : v = []
        · simp [hne] at h
        · rw [if_neg hne, List.mem_singleton] at h
          exact h ▸ ⟨hne, hv⟩
      · exact ih h

/-- Splitting loses nothing but separators. -/
theorem flatten_words (l : List α) : (words p l).flatten = l.filter fun c => !p c := by
  induction l using pieces_induction p with
  | clean w hw =>
      have hkeep : w.filter (fun c => !p c) = w :=
        List.filter_eq_self.mpr fun c hc => by simp [hw c hc]
      rw [words_clean_eq hw, hkeep]
      split <;> simp_all
  | sep w c rest hw hc ih =>
      have hkeep : w.filter (fun c => !p c) = w :=
        List.filter_eq_self.mpr fun x hx => by simp [hw x hx]
      rw [words_append_sep hc, List.flatten_append, ih, List.filter_append, hkeep,
        words_clean_eq hw]
      split <;> simp_all

/-- Every character that does not separate stands in a word, and words have no others. -/
theorem exists_mem_words_iff {c : α} {l : List α} :
    (∃ w ∈ words p l, c ∈ w) ↔ c ∈ l ∧ p c = false := by
  rw [← List.mem_flatten, flatten_words, List.mem_filter, Bool.not_eq_true']

/-- A text has no word exactly when all its characters separate. -/
theorem words_eq_nil_iff {l : List α} : words p l = [] ↔ ∀ c ∈ l, p c = true := by
  have hflat : words p l = [] ↔ (words p l).flatten = [] := by
    constructor
    · intro h
      simp [h]
    · intro h
      refine List.eq_nil_iff_forall_not_mem.mpr fun w hw => ?_
      exact (mem_words hw).1 (List.flatten_eq_nil_iff.mp h w hw)
  rw [hflat, flatten_words, List.filter_eq_nil_iff]
  simp

/-- A longer text has no fewer words. -/
theorem length_words_le_append (a b : List α) :
    (words p a).length ≤ (words p (a ++ b)).length := by
  induction a using pieces_induction p with
  | clean w hw =>
      rw [words_clean_eq hw]
      split
      · exact Nat.zero_le _
      · rename_i hne
        obtain ⟨c, hc⟩ := List.exists_mem_of_ne_nil w hne
        -- the word is still a word, with what follows it
        have hword : words p (w ++ b) ≠ [] := by
          intro hnil
          have hsep := words_eq_nil_iff.mp hnil c (List.mem_append_left b hc)
          rw [hw c hc] at hsep
          cases hsep
        exact List.length_pos_of_ne_nil hword
  | sep w c rest hw hc ih =>
      rw [List.append_assoc, List.cons_append, words_append_sep hc, words_append_sep hc,
        List.length_append, List.length_append]
      omega

/-- Cutting first at some of the separators and then at all of them gives the same words. -/
theorem words_eq_flatMap_words {q : α → Bool} (hqp : ∀ c, q c = true → p c = true)
    (l : List α) : words p l = (l.splitOnP q).flatMap (words p) := by
  induction l using pieces_induction q with
  | clean w hw => simp [List.splitOnP_eq_singleton hw]
  | sep w c rest hw hc ih =>
      rw [words_append_sep (hqp c hc), ih, List.splitOnP_append_cons_of_forall_mem hw c hc,
        List.flatMap_cons]

/-- The words at some of the separators, split at all of them. -/
theorem flatMap_words_words {q : α → Bool} (hqp : ∀ c, q c = true → p c = true) (l : List α) :
    (words q l).flatMap (words p) = words p l := by
  rw [words_eq_flatMap_words hqp]
  unfold words
  -- the empty pieces between separators hold no word
  induction l.splitOnP q with
  | nil => rfl
  | cons piece pieces ih =>
      cases piece with
      | nil => simpa using ih
      | cons c cs => simpa using ih

/-- Lists that are shorter than their counterparts where they differ, joined. -/
theorem flatMap_eq_or_shorter {β γ : Type*} {f g : β → List (List γ)} {l : List β}
    (h : ∀ x ∈ l, f x = g x ∨ (f x).flatten.length < (g x).flatten.length) :
    (l.flatMap f = l.flatMap g ∨ (l.flatMap f).flatten.length < (l.flatMap g).flatten.length) ∧
      (l.flatMap f = l.flatMap g ↔ ∀ x ∈ l, f x = g x) := by
  induction l with
  | nil => exact ⟨.inl rfl, iff_of_true rfl fun _ hx => nomatch hx⟩
  | cons x l ih =>
      obtain ⟨hrest, hiff⟩ := ih fun y hy => h y (List.mem_cons_of_mem _ hy)
      have hshorter : ∀ {a b c d : List (List γ)}, (a = c ∨ a.flatten.length < c.flatten.length) →
          (b = d ∨ b.flatten.length < d.flatten.length) → ¬(a = c ∧ b = d) →
            (a ++ b).flatten.length < (c ++ d).flatten.length := by
        intro a b c d hac hbd hne
        simp only [List.flatten_append, List.length_append]
        rcases hac with rfl | hac <;> rcases hbd with rfl | hbd
        · exact absurd ⟨rfl, rfl⟩ hne
        · omega
        · omega
        · omega
      rw [List.flatMap_cons, List.flatMap_cons, List.forall_mem_cons, ← hiff]
      by_cases hsame : f x = g x ∧ l.flatMap f = l.flatMap g
      · have heq : f x ++ l.flatMap f = g x ++ l.flatMap g := by rw [hsame.1, hsame.2]
        exact ⟨.inl heq, iff_of_true heq hsame⟩
      · have hlt := hshorter (h x List.mem_cons_self) hrest hsame
        refine ⟨.inr hlt, iff_of_false (fun heq => ?_) hsame⟩
        rw [heq] at hlt
        exact Nat.lt_irrefl _ hlt

/-- Leaving out characters that do not separate leaves out what the words have of them, and the
words that have nothing else. -/
theorem words_filter {keep : α → Bool} (hkeep : ∀ c, p c = true → keep c = true) (l : List α) :
    words p (l.filter keep) = ((words p l).map (List.filter keep)).filter fun w => !w.isEmpty := by
  have hclean : ∀ w : List α, (∀ c ∈ w, p c = false) →
      words p (w.filter keep) =
        ((words p w).map (List.filter keep)).filter fun w => !w.isEmpty := by
    intro w hw
    have hkept : ∀ c ∈ w.filter keep, p c = false := fun c hc => hw c (List.mem_filter.mp hc).1
    rw [words_clean_eq hkept, words_clean_eq hw]
    by_cases hne : w = []
    · simp [hne]
    · by_cases hnone : w.filter keep = []
      · simp [hne, hnone]
      · simp [hne, hnone]
  induction l using pieces_induction p with
  | clean w hw => exact hclean w hw
  | sep w c rest hw hc ih =>
      rw [List.filter_append, List.filter_cons_of_pos (hkeep c hc), words_append_sep hc,
        words_append_sep hc, List.map_append, List.filter_append, ih, hclean w hw]

/-- Writing other separators in the place of each separator keeps the words. -/
theorem words_flatMap_seps {f : α → List α} (hclean : ∀ c, p c = false → f c = [c])
    (hsep : ∀ c, p c = true → f c ≠ [] ∧ ∀ d ∈ f c, p d = true) (l : List α) :
    words p (l.flatMap f) = words p l := by
  have hkept : ∀ w : List α, (∀ c ∈ w, p c = false) → w.flatMap f = w := by
    intro w hw
    rw [List.flatMap_congr fun c hc => hclean c (hw c hc)]
    exact List.flatMap_singleton' w
  induction l using pieces_induction p with
  | clean w hw => rw [hkept w hw]
  | sep w c rest hw hc ih =>
      obtain ⟨hne, hseps⟩ := hsep c hc
      obtain ⟨d, seps, hfc⟩ := List.exists_cons_of_ne_nil hne
      rw [hfc] at hseps
      rw [List.flatMap_append, List.flatMap_cons, hkept w hw, hfc, List.cons_append,
        words_append_sep (hseps d List.mem_cons_self),
        words_seps_append (fun e he => hseps e (List.mem_cons_of_mem d he)), ih,
        words_append_sep hc]

/-! ## Trimming -/

/-- Remove the separators at both ends. -/
def trim (p : α → Bool) (l : List α) : List α :=
  (l.dropWhile p).rdropWhile p

/-- Dropping separators from the right end of a concatenation. -/
theorem rdropWhile_append (a b : List α) :
    (a ++ b).rdropWhile p =
      if b.rdropWhile p = [] then a.rdropWhile p else a ++ b.rdropWhile p := by
  simp only [List.rdropWhile, List.reverse_append, List.dropWhile_append, List.isEmpty_iff,
    List.reverse_eq_nil_iff]
  split <;> simp

theorem filter_dropWhile (l : List α) :
    (l.dropWhile p).filter (fun c => !p c) = l.filter fun c => !p c := by
  induction l with
  | nil => rfl
  | cons c cs ih =>
      by_cases hc : p c = true
      · simp only [List.dropWhile_cons_of_pos hc, ih, List.filter_cons, hc, Bool.not_true,
          Bool.false_eq_true, if_false]
      · rw [List.dropWhile_cons_of_neg hc]

/-- Trimming keeps every character that does not separate. -/
theorem filter_trim (l : List α) :
    (trim p l).filter (fun c => !p c) = l.filter fun c => !p c := by
  simp only [trim, List.rdropWhile, List.filter_reverse, filter_dropWhile, List.reverse_reverse]

theorem words_dropWhile (l : List α) : words p (l.dropWhile p) = words p l := by
  induction l with
  | nil => rfl
  | cons c cs ih =>
      by_cases hc : p c = true
      · rw [List.dropWhile_cons_of_pos hc, ih, words_cons_sep hc]
      · rw [List.dropWhile_cons_of_neg hc]

theorem words_rdropWhile (l : List α) : words p (l.rdropWhile p) = words p l := by
  induction l using List.reverseRecOn with
  | nil => rfl
  | append_singleton cs c ih =>
      by_cases hc : p c = true
      · rw [List.rdropWhile_concat_pos p cs c hc, ih, words_append_sep hc, words_nil,
          List.append_nil]
      · rw [List.rdropWhile_concat_neg p cs c hc]

/-- Trimming keeps the words. -/
theorem words_trim (l : List α) : words p (trim p l) = words p l := by
  rw [trim, words_rdropWhile, words_dropWhile]

theorem infix_trim (l : List α) : trim p l <:+: l :=
  (List.rdropWhile_prefix p _).isInfix.trans (List.dropWhile_suffix p).isInfix

theorem trim_sublist (l : List α) : (trim p l).Sublist l :=
  (infix_trim l).sublist

theorem head_trim {c : α} {l : List α} (h : c ∈ (trim p l).head?) : p c = false := by
  have hstart : trim p l <+: l.dropWhile p := List.rdropWhile_prefix p _
  have hhead := List.head?_dropWhile_not p l
  cases htrim : trim p l with
  | nil =>
      rw [htrim] at h
      cases h
  | cons d t =>
      obtain ⟨u, hu⟩ := htrim ▸ hstart
      rw [← hu] at hhead
      rw [htrim] at h
      obtain rfl : d = c := by simpa using h
      exact hhead

theorem getLast_trim {c : α} {l : List α} (h : c ∈ (trim p l).getLast?) : p c = false := by
  have hne : (l.dropWhile p).rdropWhile p ≠ [] := by
    intro hnil
    rw [trim, hnil] at h
    cases h
  obtain ⟨_, hlast⟩ := List.mem_getLast?_eq_getLast h
  rw [hlast]
  exact Bool.not_eq_true _ ▸ List.rdropWhile_last_not p _ hne

/-- A text without separators at its ends is left as it is. -/
theorem trim_eq_self {l : List α} (hhead : ∀ c ∈ l.head?, p c = false)
    (hlast : ∀ c ∈ l.getLast?, p c = false) : trim p l = l := by
  cases l with
  | nil => rfl
  | cons c l =>
      have hc : p c = false := hhead c rfl
      rw [trim, List.dropWhile_cons_of_neg (Bool.not_eq_true _ ▸ hc), List.rdropWhile_eq_self_iff]
      exact fun hne => Bool.not_eq_true _ ▸ hlast _ (List.getLast?_eq_some_getLast hne)

theorem trim_trim (l : List α) : trim p (trim p l) = trim p l :=
  trim_eq_self (fun _ h => head_trim h) fun _ h => getLast_trim h

/-- Separators behind a trimmed text go. -/
theorem trim_append_seps {l g : List α} (hl : trim p l = l) (hne : l ≠ [])
    (hg : ∀ d ∈ g, p d = true) : trim p (l ++ g) = l := by
  have hhead : ∀ c ∈ l.head?, p c = false := by
    rw [← hl]
    exact fun c hc => head_trim hc
  have hnone : g.rdropWhile p = [] := List.rdropWhile_eq_nil_iff.mpr hg
  cases l with
  | nil => exact absurd rfl hne
  | cons c l =>
      have hc : p c = false := hhead c rfl
      have hsame : (c :: l).rdropWhile p = c :: l := by
        rw [trim, List.dropWhile_cons_of_neg (Bool.not_eq_true _ ▸ hc)] at hl
        exact hl
      rw [trim, List.cons_append, List.dropWhile_cons_of_neg (Bool.not_eq_true _ ▸ hc),
        ← List.cons_append, rdropWhile_append, if_pos hnone, hsame]

/-! ## Collapsing runs of separators -/

/-- Replace every maximal run of separators by the single separator `s`. The flag says that
the character before the rest of the text was a separator, so its run is already written. -/
def collapseFrom (p : α → Bool) (s : α) : Bool → List α → List α
  | _, [] => []
  | inRun, c :: cs =>
    if p c then
      if inRun then collapseFrom p s true cs else s :: collapseFrom p s true cs
    else c :: collapseFrom p s false cs

def collapse (p : α → Bool) (s : α) (l : List α) : List α :=
  collapseFrom p s false l

/-- Inside a run the rest of the run is skipped. -/
theorem collapseFrom_true {s : α} (l : List α) :
    collapseFrom p s true l = collapse p s (l.dropWhile p) := by
  induction l with
  | nil => rfl
  | cons c l ih =>
      by_cases hc : p c = true
      · rw [collapseFrom, if_pos hc, if_pos rfl, ih, List.dropWhile_cons_of_pos hc]
      · rw [List.dropWhile_cons_of_neg hc, collapse, collapseFrom, collapseFrom, if_neg hc, if_neg hc]

/-- Collapsing keeps every character that does not separate. -/
theorem filter_collapseFrom {s : α} (hs : p s = true) (inRun : Bool) (l : List α) :
    (collapseFrom p s inRun l).filter (fun c => !p c) = l.filter fun c => !p c := by
  induction l generalizing inRun with
  | nil => rfl
  | cons c cs ih =>
      by_cases hc : p c = true
      · cases inRun <;> simp [collapseFrom, hc, hs, ih]
      · simp [collapseFrom, hc, ih]

/-- A separator stays before what is left of a list, and goes with it where nothing is left. -/
theorem rdropWhile_sep_cons {s : α} (hs : p s = true) (l : List α) :
    (s :: l).rdropWhile p = if l.rdropWhile p = [] then [] else s :: l.rdropWhile p := by
  have happ := rdropWhile_append (p := p) [s] l
  rw [List.singleton_append, List.rdropWhile_singleton, if_pos hs] at happ
  exact happ

/-- Inside a run of separators, and after a separator-free run `w`, the collapsed rest of the
text is its words joined by `s`, up to separators at its end. -/
theorem rdropWhile_collapseFrom {s : α} (hs : p s = true) (l : List α) :
    (collapseFrom p s true l).rdropWhile p = [s].intercalate (words p l) ∧
      ∀ w : List α, (∀ c ∈ w, p c = false) → w ≠ [] →
        (w ++ collapseFrom p s false l).rdropWhile p = [s].intercalate (words p (w ++ l)) := by
  have hclean : ∀ w : List α, (∀ c ∈ w, p c = false) → w.rdropWhile p = w := fun w hw =>
    List.rdropWhile_eq_self_iff.mpr fun hne => by simp [hw _ (List.getLast_mem hne)]
  induction l with
  | nil =>
      refine ⟨by simp [collapseFrom], fun w hw hne => ?_⟩
      simp [collapseFrom, hclean w hw, words_of_clean hw hne]
  | cons c cs ih =>
      obtain ⟨ihrun, ihword⟩ := ih
      by_cases hc : p c = true
      · refine ⟨by simpa [collapseFrom, hc] using ihrun, fun w hw hne => ?_⟩
        -- the word `w` ends here: what follows is a written separator and the rest of its run
        have htail : (s :: collapseFrom p s true cs).rdropWhile p =
            if words p cs = [] then [] else s :: [s].intercalate (words p cs) := by
          rw [rdropWhile_sep_cons hs, ihrun]
          cases hws : words p cs with
          | nil => simp
          | cons v vs =>
              have hv : v ≠ [] := (mem_words (hws ▸ List.mem_cons_self)).1
              cases vs <;> simp [hv]
        rw [words_clean_append_sep hw hne hc]
        simp only [collapseFrom, hc, if_true, Bool.false_eq_true, if_false]
        rw [rdropWhile_append, htail]
        cases hws : words p cs with
        | nil => simp [hclean w hw]
        | cons v vs => simp
      · have hc' : p c = false := by simpa using hc
        refine ⟨?_, fun w hw hne => ?_⟩
        · have h := ihword [c] (by simp [hc']) (by simp)
          simpa [collapseFrom, hc] using h
        · have h := ihword (w ++ [c]) (by
            intro x hx
            rcases List.mem_append.mp hx with hx | hx
            · exact hw x hx
            · rw [List.mem_singleton.mp hx, hc']) (by simp)
          simpa [collapseFrom, hc] using h

/-- A text that starts inside a run never begins with a separator once collapsed. -/
theorem dropWhile_collapseFrom_true {s : α} (l : List α) :
    (collapseFrom p s true l).dropWhile p = collapseFrom p s true l := by
  induction l with
  | nil => rfl
  | cons c cs ih =>
      by_cases hc : p c = true
      · simpa [collapseFrom, hc] using ih
      · simp [collapseFrom, hc]

/-- The normal form: collapsing and trimming leave the words joined by single separators. -/
theorem trim_collapse {s : α} (hs : p s = true) (l : List α) :
    trim p (collapse p s l) = [s].intercalate (words p l) := by
  cases l with
  | nil => simp [trim, collapse, collapseFrom]
  | cons c cs =>
      by_cases hc : p c = true
      · have hdrop : (collapse p s (c :: cs)).dropWhile p = collapseFrom p s true cs := by
          simp [collapse, collapseFrom, hc, hs, dropWhile_collapseFrom_true]
        rw [trim, hdrop, words_cons_sep hc]
        exact (rdropWhile_collapseFrom hs cs).1
      · have hc' : p c = false := by simpa using hc
        have hdrop : (collapse p s (c :: cs)).dropWhile p = [c] ++ collapseFrom p s false cs := by
          simp [collapse, collapseFrom, hc]
        rw [trim, hdrop]
        exact (rdropWhile_collapseFrom hs cs).2 [c] (by simp [hc']) (by simp)

/-- A collapsed text has no two separators, one behind the other. -/
theorem not_infix_collapse {s : α} (hs : p s = true) (l : List α) :
    ¬ [s, s] <:+: collapse p s l := by
  have hfrom : ∀ (l : List α) (inRun : Bool), ¬ [s, s] <:+: collapseFrom p s inRun l ∧
      (inRun = true → (collapseFrom p s inRun l).head? ≠ some s) := by
    intro l
    induction l with
    | nil => exact fun inRun => ⟨by simp [collapseFrom], fun _ => by simp [collapseFrom]⟩
    | cons c l ih =>
        intro inRun
        by_cases hc : p c = true
        · obtain ⟨hpair, hhead⟩ := ih true
          cases inRun with
          | true =>
              rw [collapseFrom, if_pos hc, if_pos rfl]
              exact ⟨hpair, hhead⟩
          | false =>
              rw [collapseFrom, if_pos hc, if_neg Bool.false_ne_true]
              refine ⟨fun h => ?_, fun h => absurd h Bool.false_ne_true⟩
              rcases List.infix_cons_iff.mp h with hstart | hlater
              · rw [List.cons_prefix_cons, List.singleton_prefix_iff_head?_eq_some] at hstart
                exact hhead rfl hstart.2
              · exact hpair hlater
        · have hcs : c ≠ s := by
            rintro rfl
            exact hc hs
          rw [collapseFrom, if_neg hc]
          refine ⟨fun h => ?_, fun _ => by simpa using hcs⟩
          rcases List.infix_cons_iff.mp h with hstart | hlater
          · rw [List.cons_prefix_cons] at hstart
            exact hcs hstart.1.symm
          · exact (ih false).1 hlater
  exact (hfrom l false).1

/-- A text whose only separator is `s`, and which has no two of it one behind the other, is left
as it is. -/
theorem collapse_eq_self {s : α} {l : List α} (hs : ∀ c ∈ l, p c = true → c = s)
    (hpair : ¬ [s, s] <:+: l) : collapse p s l = l := by
  have hfrom : ∀ (l : List α) (inRun : Bool), (∀ c ∈ l, p c = true → c = s) →
      ¬ [s, s] <:+: l → (inRun = true → l.head? ≠ some s) → collapseFrom p s inRun l = l := by
    intro l
    induction l with
    | nil => exact fun _ _ _ _ => rfl
    | cons c l ih =>
        intro inRun hs hpair hhead
        rw [List.forall_mem_cons] at hs
        have hrest : ¬ [s, s] <:+: l := fun h => hpair (List.infix_cons h)
        by_cases hc : p c = true
        · obtain rfl := hs.1 hc
          cases inRun with
          | true => exact absurd rfl (hhead rfl)
          | false =>
              have hnext : l.head? ≠ some c := fun h => hpair
                (List.infix_cons_iff.mpr (.inl (List.cons_prefix_cons.mpr
                  ⟨rfl, List.singleton_prefix_iff_head?_eq_some.mpr h⟩)))
              rw [collapseFrom, if_pos hc, if_neg Bool.false_ne_true,
                ih true hs.2 hrest fun _ => hnext]
        · rw [collapseFrom, if_neg hc, ih false hs.2 hrest fun h => absurd h Bool.false_ne_true]
  exact hfrom l false hs hpair fun h => absurd h Bool.false_ne_true

/-! ## The last separator -/

/-- Texts that agree and have no separator behind a given one agree before it and behind it. -/
theorem append_sep_inj {s : α} {a b x y : List α} (h : a ++ s :: x = b ++ s :: y) (hx : s ∉ x)
    (hy : s ∉ y) : a = b ∧ x = y := by
  rcases List.append_eq_append_iff.mp h with ⟨c, hb, hcx⟩ | ⟨c, ha, hcy⟩
  · cases c with
    | nil =>
        rw [List.nil_append] at hcx
        exact ⟨by simp [hb], (List.cons.inj hcx).2⟩
    | cons d c =>
        -- the second separator would stand behind the first
        rw [List.cons_append, List.cons.injEq] at hcx
        exact absurd (by simp [hcx.2]) hx
  · cases c with
    | nil =>
        rw [List.nil_append] at hcy
        exact ⟨by simp [ha], (List.cons.inj hcy).2.symm⟩
    | cons d c =>
        rw [List.cons_append, List.cons.injEq] at hcy
        exact absurd (by simp [hcy.2]) hy

/-- A run without a given character stands before it or behind it. -/
theorem infix_of_infix_append_cons {c : α} {g a b : List α} (h : g <:+: a ++ c :: b)
    (hc : c ∉ g) : g <:+: a ∨ g <:+: b := by
  obtain ⟨s, t, hst⟩ := h
  rcases List.append_eq_append_iff.mp hst with ⟨u, ha, -⟩ | ⟨u, hsg, hcb⟩
  · exact .inl ⟨s, u, ha.symm⟩
  · cases u with
    | nil => exact .inl ⟨s, [], by simpa using hsg⟩
    | cons d u =>
        obtain ⟨rfl, rfl⟩ := List.cons.inj hcb
        rcases List.append_eq_append_iff.mp hsg with ⟨v, -, hg⟩ | ⟨v, -, hv⟩
        · exact absurd (by simp [hg]) hc
        · cases v with
          | nil => exact absurd (by simp [← (List.nil_append g ▸ hv : c :: u = g)]) hc
          | cons e v =>
              obtain ⟨-, rfl⟩ := List.cons.inj hv
              exact .inr ⟨v, t, by simp⟩

/-- A run that shares nothing with the start of a text stands behind it. -/
theorem infix_of_infix_append {g r l : List α} (h : g <:+: r ++ l) (hg : ∀ d ∈ g, d ∉ r) :
    g <:+: l := by
  induction r with
  | nil => exact h
  | cons e r ih =>
      have he : e ∉ g := fun hmem => hg e hmem List.mem_cons_self
      have hrest : ∀ d ∈ g, d ∉ r := fun d hd hdr => hg d hd (List.mem_cons_of_mem e hdr)
      rcases infix_of_infix_append_cons (show g <:+: [] ++ e :: (r ++ l) from h) he with hnil | hlater
      · rw [List.infix_nil.mp hnil]
        exact List.nil_infix
      · exact ih hlater hrest

/-! ## Words joined by a separator -/

/-- Every character of a joined list of words comes from a word or is the joint. -/
theorem mem_intercalate {s c : α} {ws : List (List α)} (h : c ∈ [s].intercalate ws) :
    c = s ∨ ∃ w ∈ ws, c ∈ w := by
  induction ws with
  | nil => simp at h
  | cons w ws ih =>
      cases ws with
      | nil =>
          rw [List.intercalate_singleton] at h
          exact Or.inr ⟨w, by simp, h⟩
      | cons v vs =>
          rw [List.intercalate_cons_cons, List.mem_append, List.mem_append,
            List.mem_singleton] at h
          rcases h with (h | h) | h
          · exact Or.inr ⟨w, by simp, h⟩
          · exact Or.inl h
          · rcases ih h with h | ⟨u, hu, hcu⟩
            · exact Or.inl h
            · exact Or.inr ⟨u, List.mem_cons_of_mem w hu, hcu⟩

/-- Words joined by separators are empty only when there is no word. -/
theorem intercalate_eq_nil_iff {s : α} {ws : List (List α)} (hne : ∀ w ∈ ws, w ≠ []) :
    [s].intercalate ws = [] ↔ ws = [] := by
  constructor
  · intro h
    cases ws with
    | nil => rfl
    | cons w ws =>
        have hw : w ≠ [] := hne w List.mem_cons_self
        cases ws <;> simp [hw] at h
  · intro h
    simp [h]

/-- Two joined lists are joined by one more separator. -/
theorem intercalate_append {s : α} {vs ws : List (List α)} (hv : vs ≠ []) (hw : ws ≠ []) :
    [s].intercalate (vs ++ ws) = [s].intercalate vs ++ [s] ++ [s].intercalate ws := by
  induction vs with
  | nil => exact absurd rfl hv
  | cons v vs ih =>
      cases vs with
      | nil =>
          rw [List.singleton_append, List.intercalate_cons_of_ne_nil hw, List.intercalate_singleton]
      | cons u us =>
          rw [List.cons_append, List.intercalate_cons_of_ne_nil (by simp), ih (List.cons_ne_nil _ _),
            List.intercalate_cons_cons]
          simp only [List.append_assoc]

/-- One more word goes behind one more separator. -/
theorem intercalate_concat {s : α} {ws : List (List α)} (hne : ws ≠ []) (w : List α) :
    [s].intercalate (ws ++ [w]) = [s].intercalate ws ++ [s] ++ w := by
  rw [intercalate_append hne (List.cons_ne_nil w []), List.intercalate_singleton]

/-- A joined list from which everything but the separator may be left out. -/
theorem filter_intercalate {s : α} {keep : α → Bool} (hs : keep s = true) (ws : List (List α)) :
    ([s].intercalate ws).filter keep = [s].intercalate (ws.map (List.filter keep)) := by
  induction ws with
  | nil => simp
  | cons w ws ih =>
      cases ws with
      | nil => simp
      | cons v vs =>
          rw [List.intercalate_cons_cons, List.map_cons, List.map_cons,
            List.intercalate_cons_cons, List.filter_append, List.filter_append, ih]
          simp [hs]

/-- The words of a joined list are the words of its members. -/
theorem words_intercalate {s : α} (hs : p s = true) (ws : List (List α)) :
    words p ([s].intercalate ws) = ws.flatMap (words p) := by
  induction ws with
  | nil => simp
  | cons w ws ih =>
      cases ws with
      | nil => simp
      | cons v vs =>
          rw [List.intercalate_cons_cons, List.append_assoc, List.singleton_append,
            words_append_sep hs, ih]
          rfl

/-- Joined words are the words of the joined text. -/
theorem words_intercalate_of_clean {s : α} (hs : p s = true) {ws : List (List α)}
    (hws : ∀ w ∈ ws, w ≠ [] ∧ ∀ c ∈ w, p c = false) : words p ([s].intercalate ws) = ws := by
  rw [words_intercalate hs]
  induction ws with
  | nil => rfl
  | cons w ws ih =>
      have hw := hws w List.mem_cons_self
      rw [List.flatMap_cons, words_of_clean hw.2 hw.1,
        ih fun v hv => hws v (List.mem_cons_of_mem w hv), List.singleton_append]

/-! ## Reading from the right -/

/-- What ends a list in characters of a kind is told from what stands before it, when this ends in
another character. -/
theorem append_injective_of_kind {kind : α → Prop} {u v d e : List α} (h : u ++ d = v ++ e)
    (hd : ∀ c ∈ d, kind c) (he : ∀ c ∈ e, kind c) (hu : ∀ c ∈ u.getLast?, ¬ kind c)
    (hv : ∀ c ∈ v.getLast?, ¬ kind c) : u = v ∧ d = e := by
  -- one of the two beginnings is longer by characters of the kind, and ends in none
  have hnone : ∀ {w f x : List α}, (∀ c ∈ (w ++ f).getLast?, ¬ kind c) →
      (∀ c ∈ f ++ x, kind c) → f = [] := by
    intro w f x hlast hkind
    by_contra hne
    obtain ⟨init, c, rfl⟩ := List.eq_nil_or_concat f |>.resolve_left hne
    rw [List.concat_eq_append] at hlast hkind
    refine hlast c ?_ (hkind c ?_)
    · rw [← List.append_assoc, List.getLast?_concat]
      rfl
    · simp
  rcases List.append_eq_append_iff.mp h with ⟨f, hvf, hdf⟩ | ⟨f, huf, hef⟩
  · rw [hvf] at hv
    rw [hdf] at hd
    obtain rfl := hnone hv hd
    rw [List.append_nil] at hvf
    exact ⟨hvf.symm, by simpa using hdf⟩
  · rw [huf] at hu
    rw [hef] at he
    obtain rfl := hnone hu he
    rw [List.append_nil] at huf
    exact ⟨huf, by simpa using hef.symm⟩

end Segment
