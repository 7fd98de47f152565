/-
# Typesetting.Lib.FirstOccurrence -- keys in the order of their first occurrence

A loop over keys looks up a value for each key it has not seen; a value that is wanted is added to
the result and its key to the keys seen. The result lists the wanted values of the keys in the
order of their first occurrence.

`groupBy` lists the keys of a list in that order, each with its elements in their order. `orderBy`
sorts by a key and keeps the order of elements with equal keys.
-/
import Mathlib.Data.List.Nodup
import Mathlib.Order.Lattice

namespace FirstOccurrence

variable {α β : Type*} [DecidableEq α] (value : α → β) (wanted : β → Bool)

/-- The loop body on the values collected and the keys seen. -/
def collectStep (st : List β × List α) (key : α) : List β × List α :=
  if key ∈ st.2 then st
  else if wanted (value key) then (st.1 ++ [value key], st.2 ++ [key])
  else st

/-- The keys the loop still adds: those not seen that have a wanted value. -/
def newKeys (seen keys : List α) : List α :=
  (keys.filter fun key => key ∉ seen ∧ wanted (value key)).eraseDups

theorem newKeys_cons_of_not {key : α} {seen keys : List α}
    (h : ¬ (key ∉ seen ∧ wanted (value key))) :
    newKeys value wanted seen (key :: keys) = newKeys value wanted seen keys := by
  unfold newKeys
  rw [List.filter_cons_of_neg (by simpa using h)]

theorem newKeys_cons_of_new {key : α} {seen keys : List α}
    (h : key ∉ seen ∧ wanted (value key)) :
    newKeys value wanted seen (key :: keys) =
      key :: newKeys value wanted (seen ++ [key]) keys := by
  unfold newKeys
  rw [List.filter_cons_of_pos (by simpa using h), List.eraseDups_cons, List.filter_filter]
  congr 2
  apply List.filter_congr
  intro other _
  rw [Bool.eq_iff_iff]
  simp only [Bool.and_eq_true, ne_eq, decide_eq_true_eq, List.mem_append,
    List.mem_singleton, not_or, Bool.not_eq_true', beq_eq_false_iff_ne]
  tauto

theorem foldl_collectStep (keys : List α) (values : List β) (seen : List α) :
    (keys.foldl (collectStep value wanted) (values, seen)).1 =
      values ++ (newKeys value wanted seen keys).map value := by
  induction keys generalizing values seen with
  | nil => simp [newKeys]
  | cons key keys ih =>
      rw [List.foldl_cons]
      by_cases hseen : key ∈ seen
      · rw [newKeys_cons_of_not value wanted (fun h => h.1 hseen), ← ih]
        simp [collectStep, hseen]
      · by_cases hwanted : wanted (value key) = true
        · rw [newKeys_cons_of_new value wanted ⟨hseen, hwanted⟩, List.map_cons,
            ← List.singleton_append, ← List.append_assoc, ← ih]
          simp [collectStep, hseen, hwanted]
        · rw [newKeys_cons_of_not value wanted (fun h => hwanted h.2), ← ih]
          simp [collectStep, hseen, hwanted]

/-- A predicate on keys keeps all occurrences of a key or none, so it does not matter whether the
repetitions go before or after. -/
theorem eraseDups_filter (p : α → Bool) (keys : List α) :
    (keys.filter p).eraseDups = keys.eraseDups.filter p := by
  induction hn : keys.length using Nat.strongRecOn generalizing keys with
  | _ n ih =>
      cases keys with
      | nil => rfl
      | cons key keys =>
          -- the rest without the key is no longer than the rest
          have hrest : ((keys.filter fun other => !other == key).filter p).eraseDups =
              (keys.filter fun other => !other == key).eraseDups.filter p := by
            refine ih _ ?_ _ rfl
            have hle := List.length_filter_le (fun other => !other == key) keys
            rw [List.length_cons] at hn
            omega
          rw [List.eraseDups_cons]
          by_cases hkey : p key = true
          · rw [List.filter_cons_of_pos hkey, List.eraseDups_cons, List.filter_cons_of_pos hkey,
              ← hrest, List.filter_filter, List.filter_filter]
            simp only [Bool.and_comm]
          · rw [List.filter_cons_of_neg hkey, List.filter_cons_of_neg hkey, ← hrest,
              List.filter_filter]
            congr 1
            apply List.filter_congr
            intro other _
            by_cases heq : other = key
            · rw [heq]
              simp [hkey]
            · simp [heq]

/-- From the start all keys are new: their first occurrences, without the unwanted. -/
theorem newKeys_nil (keys : List α) :
    newKeys value wanted [] keys = keys.eraseDups.filter fun key => wanted (value key) := by
  unfold newKeys
  rw [← eraseDups_filter]
  simp

theorem eraseDups_of_nodup {keys : List α} (h : keys.Nodup) : keys.eraseDups = keys := by
  induction keys with
  | nil => rfl
  | cons key keys ih =>
      obtain ⟨hkey, hkeys⟩ := List.nodup_cons.mp h
      have hrest : keys.filter (fun other => !other == key) = keys := by
        apply List.filter_eq_self.mpr
        intro other hother
        have hne : other ≠ key := fun heq => hkey (heq ▸ hother)
        simp [hne]
      rw [List.eraseDups_cons, hrest, ih hkeys]

/-- Without repetitions nothing is left out but the unwanted. -/
theorem newKeys_of_nodup {keys : List α} (h : keys.Nodup) :
    newKeys value wanted [] keys = keys.filter fun key => wanted (value key) := by
  rw [newKeys_nil, eraseDups_of_nodup h]

end FirstOccurrence

/-! ## Groups and stable order -/

namespace Grouping

variable {α κ : Type*}

/-- The groups of a list, in the order of their first elements. -/
def groupBy [DecidableEq κ] (key : α → κ) (l : List α) : List (κ × List α) :=
  ((l.map key).eraseDups).map fun k => (k, l.filter fun a => key a = k)

/-- The list sorted by `key`, stably. -/
def orderBy [LinearOrder κ] (key : α → κ) (l : List α) : List α :=
  l.mergeSort fun a b => decide (key a ≤ key b)

/-- Elements with one common key form a single group. -/
theorem groupBy_of_const [DecidableEq κ] {key : α → κ} {k : κ} {l : List α} (hne : l ≠ [])
    (h : ∀ a ∈ l, key a = k) : groupBy key l = [(k, l)] := by
  have hfilter : l.filter (fun a => key a = k) = l := by
    apply List.filter_eq_self.mpr
    intro a ha
    exact decide_eq_true (h a ha)
  have hkeys : (l.map key).eraseDups = [k] := by
    cases l with
    | nil => exact absurd rfl hne
    | cons a as =>
        have hrest : (as.map key).filter (fun b => !b == key a) = [] := by
          apply List.filter_eq_nil_iff.mpr
          intro b hb
          obtain ⟨c, hc, rfl⟩ := List.mem_map.mp hb
          have hsame : key c = key a := by
            rw [h c (List.mem_cons_of_mem _ hc), h a List.mem_cons_self]
          simp [hsame]
        rw [List.map_cons, List.eraseDups_cons, hrest, h a List.mem_cons_self]
        rfl
  rw [groupBy, hkeys, List.map_singleton, hfilter]

/-- A list whose keys never fall stays as it is. -/
theorem orderBy_of_sorted [LinearOrder κ] {key : α → κ} {l : List α}
    (h : l.Pairwise fun a b => key a ≤ key b) : orderBy key l = l := by
  apply List.mergeSort_of_pairwise
  apply h.imp
  intro a b hab
  exact decide_eq_true hab

/-- The groups hold elements of the list. -/
theorem mem_of_mem_groupBy [DecidableEq κ] {key : α → κ} {l : List α} {group : κ × List α}
    (hgroup : group ∈ groupBy key l) {a : α} (ha : a ∈ group.2) : a ∈ l := by
  obtain ⟨k, -, rfl⟩ := List.mem_map.mp hgroup
  exact List.mem_of_mem_filter ha

theorem mem_orderBy [LinearOrder κ] {key : α → κ} {l : List α} {a : α} :
    a ∈ orderBy key l ↔ a ∈ l :=
  List.mem_mergeSort

end Grouping
