import Refearn.Support.Table
import Mathlib.Algebra.BigOperators.Group.List.Basic
import Mathlib.Data.List.Dedup
import Mathlib.Data.List.Perm.Lattice
import Mathlib.Tactic.Abel
import Mathlib.Tactic.ByContra
/-!
# Postings and groups
-/

/-!
## Totals maintained by posting differences

A report that stores one total per key is kept current by posting differences
instead of summing the rows again. The facts here say when that is exact: what
rewriting and appending rows does to a sum, and that differences collected per
key first post the same amounts as the rows they were collected from.
-/

namespace Refearn.Support

variable {α β κ M : Type} [AddCommGroup M]

/-! ## Sums of rewritten rows -/

theorem sum_map_rewrite (rows : List α) (f : α → α) (w : α → M) :
    ((rows.map f).map w).sum =
      (rows.map w).sum + (rows.map (fun r => w (f r) - w r)).sum := by
  induction rows with
  | nil => simp
  | cons r rows ih =>
      simp only [List.map_cons, List.sum_cons, ih]
      abel

theorem sum_map_ite (rows : List α) (p : α → Bool) (g : α → M) :
    (rows.map (fun r => if p r then g r else 0)).sum = ((rows.filter p).map g).sum := by
  induction rows with
  | nil => rfl
  | cons r rows ih =>
      by_cases hp : p r <;> simp [hp, ih]

/-- A sum over all rows that counts only a selection is the sum over it. -/
theorem sum_map_selected [DecidableEq α] {rows sel : List α} (hrows : rows.Nodup)
    (hsel : sel.Nodup) (hsub : sel ⊆ rows) (g : α → M) :
    (rows.map (fun r => if r ∈ sel then g r else 0)).sum = (sel.map g).sum := by
  have hperm : (rows.filter (fun r => r ∈ sel)).Perm sel := by
    rw [List.perm_ext_iff_of_nodup (hrows.filter _) hsel]
    intro r
    simpa using fun hr => hsub hr
  have hite := sum_map_ite rows (fun r => decide (r ∈ sel)) g
  simp only [decide_eq_true_eq] at hite
  rw [hite]
  exact (hperm.map g).sum_eq

/-- A narrower selection that counts as many rows has selected them all. -/
theorem forall_of_countP_eq {rows : List α} {p q : α → Bool}
    (himp : ∀ r ∈ rows, p r = true → q r = true) (hcount : rows.countP p = rows.countP q) :
    ∀ r ∈ rows, q r = true → p r = true := by
  induction rows with
  | nil => simp
  | cons r rows ih =>
      have hle : rows.countP p ≤ rows.countP q :=
        List.countP_mono_left fun x hx => himp x (List.mem_cons_of_mem _ hx)
      have hr := himp r List.mem_cons_self
      rw [List.countP_cons, List.countP_cons] at hcount
      have hhead : q r = true → p r = true := by
        intro hq
        by_contra hp
        rw [if_neg hp, if_pos hq] at hcount
        omega
      have htail : rows.countP p = rows.countP q := by
        by_cases hp : p r = true
        · rw [if_pos hp, if_pos (hr hp)] at hcount
          omega
        · rw [if_neg hp, if_neg (mt hhead hp)] at hcount
          omega
      intro x hx
      rcases List.mem_cons.mp hx with rfl | hx
      · exact hhead
      · exact ih (fun y hy => himp y (List.mem_cons_of_mem _ hy)) htail x hx

/-- A sum over the rows of a table that vanishes outside a selection, read off data
that names each selected row once. -/
theorem Table.sum_selected {ρ : Type} [Keyed ρ κ] {t : Table ρ} {xs : List β} {kf : β → κ}
    {g : ρ → M} {h : β → M} (hnodup : (xs.map kf).Nodup)
    (hmem : ∀ x ∈ xs, ∃ r ∈ t, key r = kf x ∧ g r = h x)
    (hzero : ∀ r ∈ t, key r ∉ xs.map kf → g r = 0) :
    (t.rows.map g).sum = (xs.map h).sum := by
  classical
  let sel := t.rows.filter (fun r => key r ∈ xs.map kf)
  have hselect : (t.rows.map g).sum = (sel.map g).sum := by
    rw [← sum_map_selected (g := g) t.rows_nodup (t.rows_nodup.filter _)
      (List.filter_subset_self _)]
    refine congrArg List.sum (List.map_congr_left fun r hr => ?_)
    by_cases hk : key r ∈ xs.map kf
    · rw [if_pos (List.mem_filter.mpr ⟨hr, by simpa using hk⟩)]
    · rw [if_neg (fun hsel => hk (by simpa using (List.mem_filter.mp hsel).2))]
      exact hzero r hr hk
  have hkeys : (sel.map key).Perm (xs.map kf) := by
    rw [List.perm_ext_iff_of_nodup ((List.filter_sublist.map _).nodup t.keys_nodup) hnodup]
    intro k
    constructor
    · intro hk
      obtain ⟨r, hr, rfl⟩ := List.mem_map.mp hk
      simpa using (List.mem_filter.mp hr).2
    · intro hk
      obtain ⟨x, hx, rfl⟩ := List.mem_map.mp hk
      obtain ⟨r, hr, hkey, -⟩ := hmem x hx
      exact List.mem_map.mpr ⟨r, List.mem_filter.mpr ⟨hr, by simpa [hkey] using hk⟩, hkey⟩
  let value : κ → M := fun k => ((t.find? k).map g).getD 0
  have hleft : sel.map g = (sel.map key).map value := by
    rw [List.map_map]
    refine List.map_congr_left fun r hr => ?_
    have hrt : r ∈ t := (List.mem_filter.mp hr).1
    simp [value, Table.find?_key hrt]
  have hright : xs.map h = (xs.map kf).map value := by
    rw [List.map_map]
    refine List.map_congr_left fun x hx => ?_
    obtain ⟨r, hr, hkey, hgh⟩ := hmem x hx
    simp [value, ← hkey, Table.find?_key hr, hgh]
  rw [hselect, hleft, hright]
  exact (hkeys.map value).sum_eq

/-! ## Amounts posted under a key -/

variable [DecidableEq κ]

/-- The sum of the amounts that `xs` posts under `k`. -/
def posted (key : α → κ) (amount : α → M) (xs : List α) (k : κ) : M :=
  (xs.map (fun x => if key x = k then amount x else 0)).sum

section Posted

variable (key : α → κ) (amount : α → M)

@[simp] theorem posted_nil (k : κ) : posted key amount [] k = 0 := rfl

@[simp] theorem posted_cons (x : α) (xs : List α) (k : κ) :
    posted key amount (x :: xs) k =
      (if key x = k then amount x else 0) + posted key amount xs k := by
  simp [posted]

@[simp] theorem posted_append (xs ys : List α) (k : κ) :
    posted key amount (xs ++ ys) k =
      posted key amount xs k + posted key amount ys k := by
  simp [posted]

theorem posted_map (f : β → α) (xs : List β) (k : κ) :
    posted key amount (xs.map f) k = posted (key ∘ f) (amount ∘ f) xs k := by
  simp [posted, List.map_map, Function.comp_def]

theorem posted_perm {xs ys : List α} (h : xs.Perm ys) (k : κ) :
    posted key amount xs k = posted key amount ys k :=
  (h.map _).sum_eq

/-- What is posted under the keys of a list is what the rows under these keys post. -/
theorem sum_posted {ks : List κ} (hks : ks.Nodup) (xs : List α) :
    (ks.map (posted key amount xs)).sum =
      (xs.map (fun x => if key x ∈ ks then amount x else 0)).sum := by
  induction ks with
  | nil => simp
  | cons k ks ih =>
      rw [List.nodup_cons] at hks
      rw [List.map_cons, List.sum_cons, ih hks.2, posted, ← List.sum_map_add]
      refine congrArg List.sum (List.map_congr_left fun x _ => ?_)
      by_cases hk : key x = k
      · simp [hk, hks.1]
      · simp [hk]

/-- What is additive in the amounts may be applied before or after posting. -/
theorem posted_hom {N : Type} [AddCommGroup N] (φ : M →+ N) (xs : List α) (k : κ) :
    posted key (fun x => φ (amount x)) xs k = φ (posted key amount xs k) := by
  induction xs with
  | nil => simp
  | cons x xs ih =>
      rw [posted_cons, posted_cons, ih, map_add]
      by_cases hk : key x = k <;> simp [hk]

end Posted

/-! ## Collecting amounts per key before posting them -/

/-- Add `v` to the entry of `k`, or open an entry for it at the end. -/
def addTo (k : κ) (v : M) : List (κ × M) → List (κ × M)
  | [] => [(k, v)]
  | (k', m) :: rest => if k' = k then (k', m + v) :: rest else (k', m) :: addTo k v rest

/-- One entry per key in order of first appearance, with the sum of the amounts
under it. -/
def groupTotals (key : α → κ) (amount : α → M) (xs : List α) : List (κ × M) :=
  xs.foldl (fun acc x => addTo (key x) (amount x) acc) []

theorem posted_addTo (k : κ) (v : M) (acc : List (κ × M)) (k' : κ) :
    posted Prod.fst Prod.snd (addTo k v acc) k' =
      posted Prod.fst Prod.snd acc k' + if k = k' then v else 0 := by
  induction acc with
  | nil => simp [addTo]
  | cons e rest ih =>
      obtain ⟨k₀, m⟩ := e
      by_cases hk : k₀ = k
      · subst hk
        by_cases hk' : k₀ = k'
        · simp only [addTo, if_true, posted_cons, if_pos hk']
          abel
        · simp [addTo, hk']
      · simp only [addTo, if_neg hk, posted_cons, ih]
        abel

/-- Posting the collected totals posts what the rows post one by one. -/
theorem posted_groupTotals (key : α → κ) (amount : α → M) (xs : List α) (k : κ) :
    posted Prod.fst Prod.snd (groupTotals key amount xs) k = posted key amount xs k := by
  suffices h : ∀ acc : List (κ × M),
      posted Prod.fst Prod.snd
          (xs.foldl (fun acc x => addTo (key x) (amount x) acc) acc) k =
        posted Prod.fst Prod.snd acc k + posted key amount xs k by
    simpa [groupTotals] using h []
  induction xs with
  | nil => simp
  | cons x xs ih =>
      intro acc
      rw [List.foldl_cons, ih, posted_addTo, posted_cons]
      abel

theorem mem_addTo {k : κ} {v : M} {acc : List (κ × M)} {e : κ × M}
    (h : e ∈ addTo k v acc) : e.1 = k ∨ e.1 ∈ acc.map Prod.fst := by
  induction acc with
  | nil =>
      simp only [addTo, List.mem_singleton] at h
      exact .inl (by rw [h])
  | cons e₀ rest ih =>
      obtain ⟨k₀, m⟩ := e₀
      simp only [addTo] at h
      split at h
      · rcases List.mem_cons.mp h with rfl | h
        · exact .inr (by simp)
        · exact .inr (by simp [List.mem_map_of_mem h])
      · rcases List.mem_cons.mp h with rfl | h
        · exact .inr (by simp)
        · rcases ih h with h | h
          · exact .inl h
          · exact .inr (by simp only [List.map_cons, List.mem_cons]; exact .inr h)

/-- Every collected key is the key of one of the rows. -/
theorem key_of_mem_groupTotals {key : α → κ} {amount : α → M} {xs : List α}
    {e : κ × M} (h : e ∈ groupTotals key amount xs) : ∃ x ∈ xs, key x = e.1 := by
  suffices hacc : ∀ (ys : List α) (acc : List (κ × M)),
      (∀ e ∈ acc, ∃ x ∈ xs, key x = e.1) → ys ⊆ xs →
      ∀ e ∈ ys.foldl (fun acc x => addTo (key x) (amount x) acc) acc,
        ∃ x ∈ xs, key x = e.1 from
    hacc xs [] (by simp) (fun _ hx => hx) e h
  intro ys
  induction ys with
  | nil => exact fun acc hacc _ => hacc
  | cons y ys ih =>
      intro acc hacc hys
      rw [List.foldl_cons]
      refine ih _ ?_ (fun z hz => hys (List.mem_cons_of_mem _ hz))
      intro e he
      rcases mem_addTo he with hk | hk
      · exact ⟨y, hys (by simp), hk.symm⟩
      · obtain ⟨e', he', hk⟩ := List.mem_map.mp hk
        obtain ⟨x, hx, hkx⟩ := hacc e' he'
        exact ⟨x, hx, hkx.trans hk⟩

end Refearn.Support

/-!
## Rows grouped by a key

`GROUP BY` splits the rows of a query into one group for each key that occurs. Sums
over the groups are sums over the rows, and a list with one entry for each key is read
like a map.
-/

namespace Refearn.Support

variable {ρ κ M : Type} [DecidableEq κ]

/-! ## Reading a list as a map -/

/-- The value of a key; a key that does not occur has none. -/
def lookupSum (sums : List (κ × M)) (k : κ) : Option M :=
  (sums.find? (fun g => g.1 = k)).map Prod.snd

theorem lookupSum_eq_none {sums : List (κ × M)} {k : κ} (h : k ∉ sums.map Prod.fst) :
    lookupSum sums k = none := by
  have hfind : sums.find? (fun g => g.1 = k) = none := by
    refine List.find?_eq_none.mpr fun g hg hk => h ?_
    have hk : g.1 = k := by simpa using hk
    rw [← hk]
    exact List.mem_map_of_mem hg
  rw [lookupSum, hfind]
  rfl

variable [AddCommGroup M]

/-- In a list with one entry for a key, the entry is what is posted under it. -/
theorem lookupSum_eq_posted {sums : List (κ × M)} (h : (sums.map Prod.fst).Nodup) (k : κ) :
    (lookupSum sums k).getD 0 = posted Prod.fst Prod.snd sums k := by
  induction sums with
  | nil => rfl
  | cons e rest ih =>
      rw [List.map_cons, List.nodup_cons] at h
      rw [posted_cons]
      by_cases hk : e.1 = k
      · have hnone : posted Prod.fst Prod.snd rest k = 0 := by
          refine List.sum_eq_zero fun x hx => ?_
          obtain ⟨e', he', rfl⟩ := List.mem_map.mp hx
          refine if_neg fun heq => h.1 ?_
          rw [hk, ← heq]
          exact List.mem_map_of_mem he'
        rw [hnone, if_pos hk, add_zero]
        simp [lookupSum, hk]
      · rw [if_neg hk, zero_add, ← ih h.2]
        simp [lookupSum, hk]

theorem nodup_keys_addTo (k : κ) (v : M) {acc : List (κ × M)} (h : (acc.map Prod.fst).Nodup) :
    ((addTo k v acc).map Prod.fst).Nodup := by
  induction acc with
  | nil => exact List.nodup_singleton k
  | cons e rest ih =>
      rw [List.map_cons, List.nodup_cons] at h
      unfold addTo
      split_ifs with hk
      · rw [List.map_cons, List.nodup_cons]
        exact h
      · rw [List.map_cons, List.nodup_cons]
        refine ⟨fun hmem => ?_, ih h.2⟩
        obtain ⟨e', he', hkey⟩ := List.mem_map.mp hmem
        rcases mem_addTo he' with heq | hin
        · exact hk (hkey.symm.trans heq)
        · exact h.1 (hkey ▸ hin)

theorem nodup_keys_groupTotals (f : ρ → κ) (amount : ρ → M) (rows : List ρ) :
    ((groupTotals f amount rows).map Prod.fst).Nodup := by
  have hfold : ∀ (rows : List ρ) (acc : List (κ × M)), (acc.map Prod.fst).Nodup →
      ((rows.foldl (fun acc r => addTo (f r) (amount r) acc) acc).map Prod.fst).Nodup := by
    intro rows
    induction rows with
    | nil => exact fun acc hacc => hacc
    | cons r rows ih => exact fun acc hacc => ih _ (nodup_keys_addTo _ _ hacc)
  exact hfold rows [] List.nodup_nil

/-- A map that collects the amounts of rows holds what they post. -/
theorem lookupSum_groupTotals (f : ρ → κ) (amount : ρ → M) (rows : List ρ) (k : κ) :
    (lookupSum (groupTotals f amount rows) k).getD 0 = posted f amount rows k := by
  rw [lookupSum_eq_posted (nodup_keys_groupTotals ..), posted_groupTotals]

/-! ## Groups -/

/-- The keys that occur, each with its rows. -/
def groups (f : ρ → κ) (rows : List ρ) : List (κ × List ρ) :=
  (rows.map f).dedup.map fun k => (k, rows.filter (f · = k))

/-- `SELECT f, SUM(amount) … GROUP BY f`. -/
def groupSums (f : ρ → κ) (amount : ρ → M) (rows : List ρ) : List (κ × M) :=
  (groups f rows).map fun g => (g.1, (g.2.map amount).sum)

theorem groupSums_eq (f : ρ → κ) (amount : ρ → M) (rows : List ρ) :
    groupSums f amount rows = (rows.map f).dedup.map fun k => (k, posted f amount rows k) := by
  unfold groupSums groups
  rw [List.map_map]
  refine List.map_congr_left fun k _ => Prod.ext rfl ?_
  have hsum := sum_map_ite rows (fun r => decide (f r = k)) amount
  simp only [decide_eq_true_eq] at hsum
  exact hsum.symm

@[simp] theorem keys_groupSums (f : ρ → κ) (amount : ρ → M) (rows : List ρ) :
    (groupSums f amount rows).map Prod.fst = (rows.map f).dedup := by
  rw [groupSums_eq, List.map_map]
  exact List.map_id _

/-- A sum over the groups whose key is chosen is the sum over their rows. -/
theorem sum_map_groupSums (p : κ → Bool) (f : ρ → κ) (amount : ρ → M) (rows : List ρ) :
    ((groupSums f amount rows).map (fun g => if p g.1 then g.2 else 0)).sum =
      (rows.map (fun r => if p (f r) then amount r else 0)).sum := by
  have hposted : (groupSums f amount rows).map (fun g => if p g.1 then g.2 else 0) =
      (rows.map f).dedup.map (posted f (fun r => if p (f r) then amount r else 0) rows) := by
    rw [groupSums_eq, List.map_map]
    refine List.map_congr_left fun k _ => ?_
    change (if p k then posted f amount rows k else 0) = _
    by_cases hk : p k = true
    · rw [if_pos hk]
      refine congrArg List.sum (List.map_congr_left fun r _ => ?_)
      by_cases hr : f r = k
      · rw [if_pos hr, if_pos hr]
        exact (if_pos (hr ▸ hk)).symm
      · rw [if_neg hr, if_neg hr]
    · rw [if_neg hk]
      refine (List.sum_eq_zero fun x hx => ?_).symm
      obtain ⟨r, hr, rfl⟩ := List.mem_map.mp hx
      by_cases hr : f r = k
      · rw [if_pos hr]
        exact if_neg (hr ▸ hk)
      · rw [if_neg hr]
  rw [hposted, sum_posted _ _ (List.nodup_dedup _)]
  refine congrArg List.sum (List.map_congr_left fun r hr => if_pos ?_)
  exact List.mem_dedup.mpr (List.mem_map_of_mem hr)

theorem lookupSum_groupSums (f : ρ → κ) (amount : ρ → M) (rows : List ρ) (k : κ) :
    (lookupSum (groupSums f amount rows) k).getD 0 = posted f amount rows k := by
  have hnodup : ((groupSums f amount rows).map Prod.fst).Nodup := by
    rw [keys_groupSums]
    exact List.nodup_dedup _
  have hsum := sum_map_groupSums (fun k' => decide (k' = k)) f amount rows
  simp only [decide_eq_true_eq] at hsum
  rw [lookupSum_eq_posted hnodup]
  exact hsum

/-- The sums of the groups add up to the sum of the rows. -/
theorem sum_groupSums (f : ρ → κ) (amount : ρ → M) (rows : List ρ) :
    ((groupSums f amount rows).map Prod.snd).sum = (rows.map amount).sum := by
  simpa using sum_map_groupSums (fun _ => true) f amount rows

end Refearn.Support
