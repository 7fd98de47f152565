/-
# Typesetting.Lib.Spacing -- a text as its characters with the gaps behind them

A predicate `p` says which characters of a text separate. The text is what separates at its start,
and then its other characters in order, each with the gap behind it: the separators up to the next
of them (`spaced`). Trimming drops what stands at the start and the last gap; the words end at the
gaps that are not empty; and a rewriting that works on each gap for itself (`Gapwise`) is known
from what it does to a gap. Where a list is cut behind some of its members (`groups`), the lengths
of the pieces say where.
-/
import Mathlib.Data.List.SplitBy
import Typesetting.Lib.Segment

namespace Spacing

/-! ## Cutting a list behind some of its members -/

section Groups

variable {β γ : Type*}

/-- The pieces of a list that is cut behind the members with `cut`. -/
def groups (cut : β → Bool) (l : List β) : List (List β) :=
  l.splitBy fun x _ => !cut x

variable {cut cut' : β → Bool}

theorem groups_cons_cut {x : β} (hx : cut x = true) (l : List β) :
    groups cut (x :: l) = [x] :: groups cut l := by
  unfold groups
  rw [← List.singleton_append, List.splitBy_append]
  · rfl
  · intro z hz y _
    obtain rfl : x = z := by simpa using hz
    simp [hx]

theorem groups_cons_uncut {x : β} (hx : cut x = false) (y : β) (l : List β) :
    ∃ g gs, groups cut (y :: l) = (y :: g) :: gs ∧
      groups cut (x :: y :: l) = (x :: y :: g) :: gs := by
  obtain ⟨hflat, hne, hchain, hcuts⟩ := List.splitBy_eq_iff.mp (rfl : groups cut (y :: l) = _)
  cases hgroups : groups cut (y :: l) with
  | nil =>
      rw [hgroups] at hflat
      cases hflat
  | cons h gs =>
      rw [hgroups] at hflat hne hchain hcuts
      cases h with
      | nil => exact absurd List.mem_cons_self hne
      | cons z g =>
          obtain ⟨rfl, hl⟩ : y = z ∧ l = g ++ gs.flatten := by simpa using hflat
          refine ⟨g, gs, rfl, List.splitBy_eq_iff.mpr ⟨by simp [hl], ?_, ?_, ?_⟩⟩
          · simpa using hne
          · intro m hm
            rcases List.mem_cons.mp hm with rfl | hm
            · exact List.isChain_cons_cons.mpr ⟨by simp [hx], hchain _ List.mem_cons_self⟩
            · exact hchain m (List.mem_cons_of_mem _ hm)
          · rw [List.isChain_cons] at hcuts ⊢
            refine ⟨fun m hm => ?_, hcuts.2⟩
            obtain ⟨_, hm', hlast⟩ := hcuts.1 m hm
            exact ⟨List.cons_ne_nil _ _, hm', by simpa using hlast⟩

theorem groups_map (f : γ → β) (l : List γ) :
    groups cut (l.map f) = (groups (cut ∘ f) l).map (List.map f) := by
  induction l with
  | nil => rfl
  | cons x l ih =>
      cases l with
      | nil => rfl
      | cons y l =>
          rw [List.map_cons] at ih
          rw [List.map_cons, List.map_cons]
          cases hx : cut (f x) with
          | true =>
              have hx' : (cut ∘ f) x = true := hx
              rw [groups_cons_cut hx, ih, groups_cons_cut hx']
              rfl
          | false =>
              have hx' : (cut ∘ f) x = false := hx
              obtain ⟨g, gs, hl, hxl⟩ := groups_cons_uncut hx' y l
              obtain ⟨h, hs, hml, hmxl⟩ := groups_cons_uncut hx (f y) (l.map f)
              rw [hl, hml] at ih
              rw [hmxl, hxl]
              simp only [List.map_cons, List.cons.injEq] at ih ⊢
              exact ⟨⟨trivial, ih.1⟩, ih.2⟩

/-- A cut behind the last member makes no difference. -/
theorem groups_congr {l : List β} (h : ∀ x ∈ l.dropLast, cut x = cut' x) :
    groups cut l = groups cut' l := by
  induction l with
  | nil => rfl
  | cons x l ih =>
      cases l with
      | nil => rfl
      | cons y l =>
          rw [List.dropLast_cons_cons, List.forall_mem_cons] at h
          have hrest := ih h.2
          cases hx : cut x with
          | true => rw [groups_cons_cut hx, groups_cons_cut (h.1.symm.trans hx), hrest]
          | false =>
              obtain ⟨g, gs, hl, hxl⟩ := groups_cons_uncut hx y l
              obtain ⟨g', gs', hl', hxl'⟩ := groups_cons_uncut (h.1.symm.trans hx) y l
              rw [hl, hl'] at hrest
              simp only [List.cons.injEq, true_and] at hrest
              rw [hxl, hxl', hrest.1, hrest.2]

/-- The lengths of the pieces tell the cuts, up to the last. -/
theorem cut_eq_of_lengths {l : List β}
    (h : (groups cut l).map List.length = (groups cut' l).map List.length) :
    ∀ x ∈ l.dropLast, cut x = cut' x := by
  induction l with
  | nil => simp
  | cons x l ih =>
      cases l with
      | nil => simp
      | cons y l =>
          rw [List.dropLast_cons_cons, List.forall_mem_cons]
          cases hx : cut x with
          | true =>
              cases hx' : cut' x with
              | true =>
                  rw [groups_cons_cut hx, groups_cons_cut hx'] at h
                  exact ⟨rfl, ih (List.cons.inj h).2⟩
              | false =>
                  -- the first piece ends at once, and it goes on
                  obtain ⟨g, gs, -, hxl⟩ := groups_cons_uncut hx' y l
                  rw [groups_cons_cut hx, hxl] at h
                  simp at h
          | false =>
              obtain ⟨g, gs, hl, hxl⟩ := groups_cons_uncut hx y l
              cases hx' : cut' x with
              | true =>
                  rw [groups_cons_cut hx', hxl] at h
                  simp at h
              | false =>
                  obtain ⟨g', gs', hl', hxl'⟩ := groups_cons_uncut hx' y l
                  rw [hxl, hxl'] at h
                  refine ⟨rfl, ih ?_⟩
                  rw [hl, hl']
                  simpa using h

end Groups

/-! ## The characters and their gaps -/

variable {α : Type*} {p : α → Bool}

/-- A character that does not separate, with the separators behind it. -/
@[ext]
structure Spaced (p : α → Bool) where
  char : α
  gap : List α
  char_clean : p char = false
  gap_seps : ∀ d ∈ gap, p d = true

/-- There is a gap behind the character. -/
def Spaced.wide (x : Spaced p) : Bool :=
  !x.gap.isEmpty

/-- The characters of a text that do not separate, each with the gap behind it. -/
def spaced (p : α → Bool) : List α → List (Spaced p)
  | [] => []
  | c :: l =>
    if hc : p c = true then spaced p l
    else ⟨c, l.takeWhile p, Bool.not_eq_true _ ▸ hc, fun _ hd => List.mem_takeWhile_imp hd⟩ ::
      spaced p l

def render (l : List (Spaced p)) : List α :=
  l.flatMap fun x => x.char :: x.gap

/-- The characters with the gaps between them, without the last gap. -/
def solid : List (Spaced p) → List α
  | [] => []
  | [x] => [x.char]
  | x :: y :: l => x.char :: (x.gap ++ solid (y :: l))

@[simp]
theorem render_cons (x : Spaced p) (l : List (Spaced p)) :
    render (x :: l) = x.char :: (x.gap ++ render l) := by
  simp [render]

theorem head_render {c : α} {l : List (Spaced p)} (h : c ∈ (render l).head?) : p c = false := by
  cases l with
  | nil => cases h
  | cons x l =>
      rw [render_cons, List.head?_cons] at h
      obtain rfl := Option.mem_some_iff.mp h
      exact x.char_clean

theorem spaced_cons_sep {c : α} (hc : p c = true) (l : List α) :
    spaced p (c :: l) = spaced p l := by
  rw [spaced, dif_pos hc]

theorem spaced_seps_append {g : List α} (hg : ∀ d ∈ g, p d = true) (l : List α) :
    spaced p (g ++ l) = spaced p l := by
  induction g with
  | nil => rfl
  | cons d g ih =>
      rw [List.forall_mem_cons] at hg
      rw [List.cons_append, spaced_cons_sep hg.1, ih hg.2]

/-- A text is the separators at its start, and its characters with their gaps. -/
theorem takeWhile_append_render (l : List α) : l.takeWhile p ++ render (spaced p l) = l := by
  induction l with
  | nil => rfl
  | cons c l ih =>
      by_cases hc : p c = true
      · rw [List.takeWhile_cons_of_pos hc, spaced_cons_sep hc, List.cons_append, ih]
      · rw [List.takeWhile_cons_of_neg hc, spaced, dif_neg hc, render_cons, ih, List.nil_append]

theorem takeWhile_seps_append {g : List α} (hg : ∀ d ∈ g, p d = true) {c : α} (hc : p c = false)
    (l : List α) : (g ++ c :: l).takeWhile p = g := by
  rw [List.takeWhile_append_of_pos hg, List.takeWhile_cons_of_neg (by simp [hc]), List.append_nil]

/-- A character that does not separate parts what stands before it from what it begins. -/
theorem spaced_append_cons {c : α} (hc : p c = false) (a l : List α) :
    spaced p (a ++ c :: l) = spaced p a ++ spaced p (c :: l) := by
  induction a with
  | nil => rfl
  | cons d a ih =>
      by_cases hd : p d = true
      · rw [List.cons_append, spaced_cons_sep hd, spaced_cons_sep hd, ih]
      · have hgap : (a ++ c :: l).takeWhile p = a.takeWhile p := by
          rw [List.takeWhile_append]
          split
          · rename_i hall
            simp [hc, List.takeWhile_eq_self_iff.mpr (List.takeWhile_eq_self_iff.mp
              ((List.takeWhile_prefix p).eq_of_length hall))]
          · rfl
        rw [List.cons_append, spaced, dif_neg hd, spaced, dif_neg hd, ih, List.cons_append]
        simp only [hgap]

theorem spaced_cons (x : Spaced p) {d : α} (hd : p d = false) (l : List α) :
    spaced p (x.char :: (x.gap ++ d :: l)) = x :: spaced p (d :: l) := by
  have hchar : ¬ p x.char = true := by simp [x.char_clean]
  rw [spaced, dif_neg hchar, spaced_seps_append x.gap_seps, List.cons.injEq]
  exact ⟨Spaced.ext rfl (takeWhile_seps_append x.gap_seps hd l), rfl⟩

theorem spaced_char_gap (x : Spaced p) : spaced p (x.char :: x.gap) = [x] := by
  have hchar : ¬ p x.char = true := by simp [x.char_clean]
  have hgap := spaced_seps_append x.gap_seps []
  rw [List.append_nil] at hgap
  rw [spaced, dif_neg hchar, hgap]
  exact congrArg (· :: []) (Spaced.ext rfl (List.takeWhile_eq_self_iff.mpr x.gap_seps))

theorem spaced_render (l : List (Spaced p)) : spaced p (render l) = l := by
  induction l with
  | nil => rfl
  | cons x l ih =>
      cases l with
      | nil => rw [render_cons, render, List.flatMap_nil, List.append_nil, spaced_char_gap]
      | cons y l =>
          rw [render_cons] at ih ⊢
          rw [render_cons, spaced_cons x y.char_clean, ih]

/-- A gap between two characters that do not separate is one that is not the last. -/
theorem mem_dropLast_spaced_iff {x : Spaced p} {l : List α} :
    x ∈ (spaced p l).dropLast ↔
      ∃ a d b, p d = false ∧ l = a ++ x.char :: (x.gap ++ d :: b) := by
  constructor
  · intro hx
    have hl := takeWhile_append_render (p := p) l
    generalize spaced p l = sp at hx hl
    generalize l.takeWhile p = lead at hl
    subst hl
    induction sp generalizing lead with
    | nil => simp at hx
    | cons y sp ih =>
        cases sp with
        | nil => simp at hx
        | cons z sp =>
            rw [List.dropLast_cons_cons, List.mem_cons] at hx
            rw [render_cons]
            rcases hx with rfl | hx
            · exact ⟨lead, z.char, z.gap ++ render sp, z.char_clean, by rw [render_cons]⟩
            · obtain ⟨a, d, b, hd, hrest⟩ := ih hx y.gap
              exact ⟨lead ++ y.char :: a, d, b, hd, by rw [hrest]; simp⟩
  · rintro ⟨a, d, b, hd, rfl⟩
    rw [spaced_append_cons x.char_clean, spaced_cons x hd]
    have hne : spaced p (d :: b) ≠ [] := by simp [spaced, hd]
    rw [List.dropLast_append_of_ne_nil (by simp), List.dropLast_cons_of_ne_nil hne]
    simp

/-- A gap, possibly empty, between two neighbours among the characters that do not separate. -/
def InnerGap (p : α → Bool) (l g : List α) : Prop :=
  ∃ a c d b, l = a ++ c :: (g ++ d :: b) ∧ p c = false ∧ p d = false ∧ ∀ x ∈ g, p x = true

theorem forall_innerGap_iff {P : List α → Prop} {l : List α} :
    (∀ g, InnerGap p l g → P g) ↔ ∀ x ∈ (spaced p l).dropLast, P x.gap := by
  constructor
  · intro h x hx
    obtain ⟨a, d, b, hd, hl⟩ := mem_dropLast_spaced_iff.mp hx
    exact h x.gap ⟨a, x.char, d, b, hl, x.char_clean, hd, x.gap_seps⟩
  · rintro h g ⟨a, c, d, b, hl, hc, hd, hg⟩
    exact h ⟨c, g, hc, hg⟩ (mem_dropLast_spaced_iff.mpr ⟨a, d, b, hd, hl⟩)

/-! ## Words and trimming -/

/-- Words end at the gaps that are not empty. -/
theorem words_render (l : List (Spaced p)) :
    Segment.words p (render l) =
      (groups Spaced.wide l).map (List.map Spaced.char) := by
  induction l with
  | nil => rfl
  | cons x l ih =>
      cases hgap : x.gap with
      | cons d g =>
          have hseps := x.gap_seps
          rw [hgap] at hseps
          have hword : Segment.words p (render (x :: l)) =
              [x.char] :: Segment.words p (render l) := by
            rw [render_cons, hgap, ← Segment.words_seps_append hseps (render l), List.cons_append,
              Segment.words_cons_sep (hseps d List.mem_cons_self)]
            exact Segment.words_clean_append_sep (by simp [x.char_clean])
              (List.cons_ne_nil x.char []) (hseps d List.mem_cons_self) (g ++ render l)
          rw [hword, ih, groups_cons_cut (by simp [Spaced.wide, hgap])]
          rfl
      | nil =>
          cases l with
          | nil =>
              rw [render_cons, hgap]
              exact Segment.words_of_clean (by simpa [render] using x.char_clean) (by simp)
          | cons y l =>
              obtain ⟨w, ws, hl, hxl⟩ :=
                Segment.words_cons_clean x.char_clean y.char_clean (y.gap ++ render l)
              have hnarrow : x.wide = false := by simp [Spaced.wide, hgap]
              obtain ⟨g, gs, hgl, hgxl⟩ := groups_cons_uncut hnarrow y l
              rw [render_cons, hl, hgl] at ih
              rw [render_cons, hgap, List.nil_append, render_cons, hxl, hgxl]
              simp only [List.map_cons, List.cons.injEq, true_and] at ih ⊢
              exact ih

theorem words_eq (l : List α) :
    Segment.words p l =
      (groups Spaced.wide (spaced p l)).map (List.map Spaced.char) := by
  have hl := Segment.words_seps_append (g := l.takeWhile p)
    (fun _ hd => List.mem_takeWhile_imp hd) (render (spaced p l))
  rw [takeWhile_append_render] at hl
  rw [hl, words_render]

theorem solid_cons_ne_nil (x : Spaced p) (l : List (Spaced p)) : solid (x :: l) ≠ [] := by
  cases l <;> exact List.cons_ne_nil _ _

theorem filter_solid (l : List (Spaced p)) :
    (solid l).filter (fun c => !p c) = l.map Spaced.char := by
  induction l with
  | nil => rfl
  | cons x l ih =>
      cases l with
      | nil => simp [solid, x.char_clean]
      | cons y l =>
          have hgap : x.gap.filter (fun c => !p c) = [] :=
            List.filter_eq_nil_iff.mpr fun d hd => by simp [x.gap_seps d hd]
          rw [solid, List.filter_cons_of_pos (by simp [x.char_clean]), List.filter_append, hgap, ih]
          rfl

theorem rdropWhile_render (l : List (Spaced p)) : (render l).rdropWhile p = solid l := by
  induction l with
  | nil => rfl
  | cons x l ih =>
      cases l with
      | nil =>
          have hgap : x.gap.rdropWhile p = [] := List.rdropWhile_eq_nil_iff.mpr x.gap_seps
          have hchar : [x.char].rdropWhile p = [x.char] :=
            List.rdropWhile_concat_neg p [] x.char (by simp [x.char_clean])
          have happ := Segment.rdropWhile_append (p := p) [x.char] x.gap
          rw [if_pos hgap, hchar] at happ
          rw [render_cons, render, List.flatMap_nil, List.append_nil]
          exact happ
      | cons y l =>
          have happ := Segment.rdropWhile_append (p := p) (x.char :: x.gap) (render (y :: l))
          rw [ih, if_neg (solid_cons_ne_nil y l)] at happ
          exact happ

/-- Trimming keeps the characters and the gaps between them. -/
theorem trim_eq (l : List α) : Segment.trim p l = solid (spaced p l) := by
  have hdrop : l.dropWhile p = render (spaced p l) := by
    have hboth : l.takeWhile p ++ l.dropWhile p = l.takeWhile p ++ render (spaced p l) := by
      rw [takeWhile_append_render, List.takeWhile_append_dropWhile]
    exact List.append_cancel_left hboth
  rw [Segment.trim, hdrop, rdropWhile_render]

/-- Trimming drops the separators at the start of a text. -/
theorem trim_seps_append {g : List α} (hg : ∀ d ∈ g, p d = true) (l : List α) :
    Segment.trim p (g ++ l) = Segment.trim p l := by
  rw [trim_eq, trim_eq, spaced_seps_append hg]

/-- The same characters and gaps, but no gap behind the last character. -/
def closeLast : List (Spaced p) → List (Spaced p)
  | [] => []
  | [x] => [⟨x.char, [], x.char_clean, fun _ hd => absurd hd List.not_mem_nil⟩]
  | x :: y :: l => x :: closeLast (y :: l)

theorem render_closeLast (l : List (Spaced p)) : render (closeLast l) = solid l := by
  induction l with
  | nil => rfl
  | cons x l ih =>
      cases l with
      | nil => rfl
      | cons y l =>
          show render (x :: closeLast (y :: l)) = _
          rw [render_cons, ih]
          rfl

theorem spaced_trim (l : List α) : spaced p (Segment.trim p l) = closeLast (spaced p l) := by
  rw [trim_eq, ← render_closeLast, spaced_render]

/-- The last gap does not cut, and is not in the pieces. -/
theorem map_solid_groups_closeLast (cut : Spaced p → Bool) (l : List (Spaced p)) :
    (groups cut (closeLast l)).map solid = (groups cut l).map solid := by
  induction l with
  | nil => rfl
  | cons x l ih =>
      cases l with
      | nil => rfl
      | cons y l =>
          obtain ⟨y', l', hclose⟩ : ∃ y' l', closeLast (y :: l) = y' :: l' := by
            cases l <;> exact ⟨_, _, rfl⟩
          have hcons : closeLast (x :: y :: l) = x :: y' :: l' := congrArg (x :: ·) hclose
          rw [hclose] at ih
          rw [hcons]
          by_cases hx : cut x = true
          · rw [groups_cons_cut hx, groups_cons_cut hx, List.map_cons, List.map_cons, ih]
          · rw [Bool.not_eq_true] at hx
            obtain ⟨g, gs, hgroups, hx'⟩ := groups_cons_uncut hx y l
            obtain ⟨g', gs', hgroups', hx''⟩ := groups_cons_uncut hx y' l'
            rw [hgroups, hgroups', List.map_cons, List.map_cons, List.cons.injEq] at ih
            rw [hx', hx'', List.map_cons, List.map_cons, ih.2]
            show (x.char :: (x.gap ++ solid (y' :: g'))) :: _ =
              (x.char :: (x.gap ++ solid (y :: g))) :: _
            rw [ih.1]

/-! ## Rewriting the gaps -/

/-- A rewriting of a text that leaves the characters that do not separate as they are, and makes
each gap into a gap, whatever the others are. -/
structure Gapwise (p : α → Bool) (f : List α → List α) : Prop where
  nil : f [] = []
  seps : ∀ g, (∀ d ∈ g, p d = true) → ∀ d ∈ f g, p d = true
  append_cons : ∀ a c l, p c = false → f (a ++ c :: l) = f a ++ c :: f l

namespace Gapwise

variable {f h : List α → List α}

theorem comp (hh : Gapwise p h) (hf : Gapwise p f) : Gapwise p (h ∘ f) where
  nil := by simp [hf.nil, hh.nil]
  seps g hg := hh.seps (f g) (hf.seps g hg)
  append_cons a c l hc := by
    simp only [Function.comp_apply]
    rw [hf.append_cons a c l hc, hh.append_cons (f a) c (f l) hc]

/-- Leaving out some of the separators. -/
theorem filter {keep : α → Bool} (hkeep : ∀ c, p c = false → keep c = true) :
    Gapwise p (List.filter keep) where
  nil := rfl
  seps g hg d hd := hg d (List.mem_filter.mp hd).1
  append_cons a c l hc := by
    rw [List.filter_append, List.filter_cons_of_pos (hkeep c hc)]

theorem append (hf : Gapwise p f) {c : α} (hc : p c = false) (a l : List α) :
    f (a ++ c :: l) = f a ++ f (c :: l) := by
  have hcons := hf.append_cons [] c l hc
  rw [List.nil_append, hf.nil, List.nil_append] at hcons
  rw [hcons, hf.append_cons a c l hc]

/-- What the rewriting makes of a character and its gap. -/
def onGap (hf : Gapwise p f) (x : Spaced p) : Spaced p :=
  ⟨x.char, f x.gap, x.char_clean, hf.seps x.gap x.gap_seps⟩

theorem append_render (hf : Gapwise p f) (a : List α) (l : List (Spaced p)) :
    f (a ++ render l) = f a ++ render (l.map hf.onGap) := by
  induction l generalizing a with
  | nil => simp [render]
  | cons x l ih =>
      rw [render_cons, hf.append_cons a x.char _ x.char_clean, ih x.gap, List.map_cons, render_cons]
      rfl

theorem spaced_eq (hf : Gapwise p f) (l : List α) :
    spaced p (f l) = (spaced p l).map hf.onGap := by
  have hlead : ∀ d ∈ f (l.takeWhile p), p d = true :=
    hf.seps _ fun _ hd => List.mem_takeWhile_imp hd
  have hl := hf.append_render (l.takeWhile p) (spaced p l)
  rw [takeWhile_append_render] at hl
  rw [hl, spaced_seps_append hlead, spaced_render]

theorem solid_map (hf : Gapwise p f) (l : List (Spaced p)) :
    solid (l.map hf.onGap) = f (solid l) := by
  induction l with
  | nil => exact hf.nil.symm
  | cons x l ih =>
      have hchar := hf.append_cons [] x.char
      simp only [List.nil_append, hf.nil] at hchar
      cases l with
      | nil =>
          show [x.char] = f [x.char]
          rw [hchar [] x.char_clean, hf.nil]
      | cons y l =>
          obtain ⟨r, hr⟩ : ∃ r, solid (y :: l) = y.char :: r := by
            cases l <;> exact ⟨_, rfl⟩
          show x.char :: (f x.gap ++ solid ((y :: l).map hf.onGap)) =
            f (x.char :: (x.gap ++ solid (y :: l)))
          rw [ih, hchar _ x.char_clean, hr, hf.append y.char_clean]

/-- Trimming before the rewriting is trimming after it. -/
theorem trim (hf : Gapwise p f) (l : List α) :
    f (Segment.trim p l) = Segment.trim p (f l) := by
  rw [trim_eq, trim_eq, hf.spaced_eq, hf.solid_map]

/-- A run of characters that do not separate stays where it is. -/
theorem append_clean (hf : Gapwise p f) {w : List α} (hw : ∀ c ∈ w, p c = false) (hne : w ≠ [])
    (a b : List α) : f (a ++ (w ++ b)) = f a ++ (w ++ f b) := by
  induction w generalizing a with
  | nil => exact absurd rfl hne
  | cons c w ih =>
      obtain ⟨hc, hrest⟩ := List.forall_mem_cons.mp hw
      rw [List.cons_append, hf.append_cons a c _ hc]
      cases w with
      | nil => rfl
      | cons d w =>
          have hlater := ih hrest (List.cons_ne_nil d w) []
          rw [List.nil_append, hf.nil, List.nil_append] at hlater
          rw [hlater]
          rfl

theorem infix_of_clean (hf : Gapwise p f) {w l : List α} (hw : ∀ c ∈ w, p c = false)
    (h : w <:+: l) : w <:+: f l := by
  obtain ⟨a, b, rfl⟩ := h
  cases w with
  | nil => exact List.nil_infix
  | cons c w =>
      rw [List.append_assoc, hf.append_clean hw (List.cons_ne_nil c w), ← List.append_assoc]
      exact ⟨f a, f b, rfl⟩

/-- The words of the rewritten text end at the gaps of which something is left. -/
theorem words_eq_iff (hf : Gapwise p f) (l : List α) :
    Segment.words p (f l) = Segment.words p l ↔
      ∀ g, InnerGap p l g → (f g = [] ↔ g = []) := by
  rw [forall_innerGap_iff]
  have hf_words : Segment.words p (f l) =
      (groups (Spaced.wide ∘ hf.onGap) (spaced p l)).map (List.map Spaced.char) := by
    rw [words_eq, hf.spaced_eq, groups_map, List.map_map]
    refine List.map_congr_left fun g _ => ?_
    rw [Function.comp_apply, List.map_map]
    rfl
  have hcut : ∀ x : Spaced p, (Spaced.wide ∘ hf.onGap) x = x.wide ↔
      (f x.gap = [] ↔ x.gap = []) := by
    intro x
    show (!(f x.gap).isEmpty) = (!x.gap.isEmpty) ↔ _
    rw [Bool.not_inj_iff, Bool.eq_iff_iff, List.isEmpty_iff, List.isEmpty_iff]
  rw [hf_words, words_eq l]
  constructor
  · intro heq
    have hlengths := congrArg (List.map List.length) heq
    simp only [List.map_map, Function.comp_def, List.length_map] at hlengths
    exact fun x hx => (hcut x).mp (cut_eq_of_lengths hlengths x hx)
  · intro hall
    rw [groups_congr fun x hx => (hcut x).mpr (hall x hx)]

/-- A run of separators of the rewritten text comes from one of the text. -/
theorem infix_of_seps (hf : Gapwise p f) {g l : List α} (h : g <:+: f l)
    (hg : ∀ d ∈ g, p d = true) : ∃ w, (∀ d ∈ w, p d = true) ∧ g <:+: f w := by
  induction l using Segment.pieces_induction fun c => !p c with
  | clean w hw => exact ⟨w, fun d hd => by simpa using hw d hd, h⟩
  | sep w c rest hw hc ih =>
      have hc' : p c = false := by simpa using hc
      rw [hf.append_cons w c rest hc'] at h
      have hmem : c ∉ g := by
        intro hmem
        rw [hg c hmem] at hc'
        cases hc'
      rcases Segment.infix_of_infix_append_cons h hmem with hleft | hright
      · exact ⟨w, fun d hd => by simpa using hw d hd, hleft⟩
      · exact ih hright

/-- A text is left as it is when its gaps are. -/
theorem eq_self (hf : Gapwise p f) {l : List α}
    (h : ∀ g, g <:+: l → (∀ d ∈ g, p d = true) → f g = g) : f l = l := by
  induction l using Segment.pieces_induction fun c => !p c with
  | clean w hw => exact h w List.infix_rfl fun d hd => by simpa using hw d hd
  | sep w c rest hw hc ih =>
      have hw' : f w = w := h w (List.prefix_append w _).isInfix fun d hd => by simpa using hw d hd
      rw [hf.append_cons w c rest (by simpa using hc), hw',
        ih fun g hg => h g (hg.trans ⟨w ++ [c], [], by simp⟩)]

end Gapwise

end Spacing
