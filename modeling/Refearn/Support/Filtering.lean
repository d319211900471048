import Mathlib.Data.List.Nodup
import Mathlib.Data.List.Infix
/-!
# Lists that are cut and filtered

Cutting a list before filtering it gives the front of what filtering it gives, and no more
entries than the cut has kept. Two partial maps that both carry the tag of the entry along give
one list exactly if they agree on each entry.
-/

namespace Refearn.Support

variable {α β κ : Type}

theorem filter_take_prefix (p : α → Bool) (l : List α) (n : Nat) :
    (l.take n).filter p <+: l.filter p :=
  (List.take_prefix n l).filter p

/-- The cut list holds the first entries of the filtered one, as many as it has kept. -/
theorem getElem?_filter_take (p : α → Bool) (l : List α) (n i : Nat) :
    ((l.take n).filter p)[i]? =
      if i < (l.take n).countP p then (l.filter p)[i]? else none := by
  obtain ⟨rest, hrest⟩ := filter_take_prefix p l n
  have hlength : ((l.take n).filter p).length = (l.take n).countP p :=
    List.countP_eq_length_filter.symm
  by_cases hi : i < (l.take n).countP p
  · rw [if_pos hi, ← hrest]
    exact (List.getElem?_append_left (by omega)).symm
  · rw [if_neg hi]
    exact List.getElem?_eq_none (by omega)

theorem getElem?_filter_isSome (p : α → Bool) (l : List α) (i : Nat) :
    (l.filter p)[i]?.isSome = true ↔ i < l.countP p := by
  rw [List.countP_eq_length_filter, isSome_getElem?]

/-- Filtering moves entries to the front, never to the back. -/
theorem exists_getElem?_of_filter {p : α → Bool} {l : List α} {i : Nat} {x : α}
    (h : (l.filter p)[i]? = some x) : ∃ j, i ≤ j ∧ l[j]? = some x := by
  induction l generalizing i with
  | nil => cases h
  | cons a l ih =>
      by_cases ha : p a = true
      · rw [List.filter_cons_of_pos ha] at h
        cases i with
        | zero => exact ⟨0, le_rfl, h⟩
        | succ i =>
            obtain ⟨j, hij, hj⟩ := ih h
            exact ⟨j + 1, Nat.succ_le_succ hij, hj⟩
      · rw [List.filter_cons_of_neg ha] at h
        obtain ⟨j, hij, hj⟩ := ih h
        exact ⟨j + 1, Nat.le_succ_of_le hij, hj⟩

theorem getElem?_filter_of_take {p : α → Bool} {l : List α} {i : Nat}
    (h : ∀ x ∈ l.take (i + 1), p x = true) (hi : i < l.length) : (l.filter p)[i]? = l[i]? := by
  have hkept : (l.take (i + 1)).filter p = l.take (i + 1) := List.filter_eq_self.mpr h
  have hlength : i < (l.take (i + 1)).length := by
    rw [List.length_take]
    omega
  calc
    (l.filter p)[i]? = ((l.take (i + 1)).filter p ++ (l.drop (i + 1)).filter p)[i]? := by
      rw [← List.filter_append, List.take_append_drop]
    _ = (l.take (i + 1))[i]? := by
      rw [hkept, List.getElem?_append_left hlength]
    _ = l[i]? := List.getElem?_take_of_lt (Nat.lt_succ_self i)

/-- An entry keeps its place exactly if nothing up to it is dropped. -/
theorem getElem?_filter_eq_iff {key : α → κ} {p : α → Bool} {l : List α}
    (hkeys : (l.map key).Nodup) (i : Nat) :
    (l.filter p)[i]?.map key = l[i]?.map key ↔
      (i < l.length → ∀ x ∈ l.take (i + 1), p x = true) := by
  constructor
  · intro h hi
    obtain ⟨x, hx⟩ : ∃ x, l[i]? = some x := ⟨l[i], List.getElem?_eq_getElem hi⟩
    -- each of the first entries is dropped only if another one takes the place
    intro y hy
    obtain ⟨j, hj⟩ := List.mem_iff_getElem?.mp hy
    have hji : j < i + 1 := by
      by_contra hge
      rw [List.getElem?_take_eq_none (by omega)] at hj
      cases hj
    rw [List.getElem?_take_of_lt hji] at hj
    by_contra hdropped
    rw [hx] at h
    obtain ⟨z, hz, hkey⟩ := Option.map_eq_some_iff.mp h
    have hfront : (l.take (j + 1)).filter p = (l.take j).filter p := by
      rw [List.take_add_one, hj, List.filter_append]
      simp [hdropped]
    have hsplit : (l.take j).filter p ++ (l.drop (j + 1)).filter p = l.filter p := by
      rw [← hfront, ← List.filter_append, List.take_append_drop]
    have hlength : ((l.take j).filter p).length ≤ j :=
      (List.length_filter_le _ _).trans (List.length_take_le _ _)
    rw [← hsplit, List.getElem?_append_right (by omega)] at hz
    obtain ⟨k, hk, hlater⟩ := exists_getElem?_of_filter hz
    rw [List.getElem?_drop] at hlater
    have hindex : j + 1 + k = i := by
      have hsame : (l.map key)[j + 1 + k]? = (l.map key)[i]? := by
        rw [List.getElem?_map, List.getElem?_map, hlater, hx]
        exact congrArg some hkey
      have hbound : i < (l.map key).length := by
        rw [List.length_map]
        exact hi
      exact ((List.getElem?_inj hbound hkeys).mp hsame.symm).symm
    omega
  · intro h
    by_cases hi : i < l.length
    · rw [getElem?_filter_of_take (h hi) hi]
    · have hfew : (l.filter p).length ≤ i := (List.length_filter_le _ _).trans (not_lt.mp hi)
      rw [List.getElem?_eq_none (not_lt.mp hi), List.getElem?_eq_none hfew]

/-- An entry is found under its own key. -/
theorem find?_key [DecidableEq κ] {key : α → κ} {l : List α} (hkeys : (l.map key).Nodup) {a : α}
    (ha : a ∈ l) : (l.find? fun b => key b = key a) = some a := by
  cases hfind : l.find? fun b => key b = key a with
  | none =>
      have hother := List.find?_eq_none.mp hfind a ha
      exact absurd (decide_eq_true rfl) hother
  | some b =>
      have hkey := List.find?_some hfind
      have hsame : b = a := List.inj_on_of_nodup_map hkeys (List.mem_of_find?_eq_some hfind) ha
        (of_decide_eq_true hkey)
      rw [hsame]

section Tagged

variable {f g : α → Option β} {key : α → κ} {tag : β → κ}

/-- The maps agree on an entry if their lists are the same: the tag leads back to it. -/
theorem eq_some_of_filterMap_eq (hf : ∀ a b, f a = some b → tag b = key a)
    (hg : ∀ a b, g a = some b → tag b = key a) {l : List α} (hkeys : (l.map key).Nodup)
    (h : l.filterMap f = l.filterMap g) {a : α} (ha : a ∈ l) {b : β} (hb : f a = some b) :
    g a = some b := by
  have hmem : b ∈ l.filterMap g := h ▸ List.mem_filterMap.mpr ⟨a, ha, hb⟩
  obtain ⟨a', ha', hb'⟩ := List.mem_filterMap.mp hmem
  have hkey : key a = key a' := (hf a b hb).symm.trans (hg a' b hb')
  have hsame : a = a' := List.inj_on_of_nodup_map hkeys ha ha' hkey
  rw [hsame]
  exact hb'

theorem filterMap_eq_filterMap_iff (hf : ∀ a b, f a = some b → tag b = key a)
    (hg : ∀ a b, g a = some b → tag b = key a) {l : List α} (hkeys : (l.map key).Nodup) :
    l.filterMap f = l.filterMap g ↔ ∀ a ∈ l, f a = g a := by
  constructor
  · intro h a ha
    cases hfa : f a with
    | some b => exact (eq_some_of_filterMap_eq hf hg hkeys h ha hfa).symm
    | none =>
        cases hga : g a with
        | none => rfl
        | some b =>
            have hsome := eq_some_of_filterMap_eq hg hf hkeys h.symm ha hga
            rw [hfa] at hsome
            cases hsome
  · exact fun h => List.filterMap_congr h

end Tagged

end Refearn.Support
