import Mathlib.Data.List.Forall2
import Mathlib.Data.List.Nodup
import Mathlib.Data.List.Pairwise
import Mathlib.Data.List.Perm.Basic
import Mathlib.Algebra.BigOperators.Group.List.Basic
/-!
# Tables with their unique indexes

A table is a list of rows together with proofs that no two rows share a primary
key and that no two clash under a further unique index, so a state that violates
an index cannot be written down. Rows are only ever appended where no index
objects, rewritten by a function that leaves the indexed columns alone, replaced
after a check, or removed; each of the four carries the proofs along.
-/

namespace Refearn.Support

/-- The primary key of a row type, and which two rows its other unique indexes
do not admit together. -/
class Keyed (ρ : Type) (κ : outParam Type) where
  key : ρ → κ
  clash : ρ → ρ → Bool := fun _ _ => false

export Keyed (key clash)

/-- Rows in insertion order, no two of them under one key or in a clash. -/
structure Table (ρ : Type) {κ : Type} [Keyed ρ κ] where
  rows : List ρ
  keys_nodup : (rows.map key).Nodup
  no_clash : rows.Pairwise (fun r r' => clash r r' = false)

/-- A rewrite that keeps the key and introduces no clash. -/
structure KeepsIndexes {ρ κ : Type} [Keyed ρ κ] (f : ρ → ρ) : Prop where
  key_eq (r : ρ) : key (f r) = key r
  clash_left (r s : ρ) : clash (f r) s = true → clash r s = true
  clash_right (r s : ρ) : clash r (f s) = true → clash r s = true

theorem KeepsIndexes.ite {ρ κ : Type} [Keyed ρ κ] {f : ρ → ρ} (hf : KeepsIndexes f)
    (p : ρ → Bool) : KeepsIndexes (fun r => if p r then f r else r) where
  key_eq r := by
    by_cases hp : p r <;> simp [hp, hf.key_eq]
  clash_left r s h := by
    by_cases hp : p r
    · exact hf.clash_left r s (by simpa [hp] using h)
    · simpa [hp] using h
  clash_right r s h := by
    by_cases hp : p s
    · exact hf.clash_right r s (by simpa [hp] using h)
    · simpa [hp] using h

theorem KeepsIndexes.clash_false {ρ κ : Type} [Keyed ρ κ] {f : ρ → ρ}
    (hf : KeepsIndexes f) {r s : ρ} (h : clash r s = false) :
    clash (f r) (f s) = false := by
  by_contra hc
  have hclash := hf.clash_right _ _ (hf.clash_left _ _ (Bool.of_not_eq_false hc))
  rw [h] at hclash
  exact Bool.false_ne_true hclash

namespace Table

variable {ρ κ : Type} [Keyed ρ κ]

instance : Membership ρ (Table ρ) := ⟨fun t r => r ∈ t.rows⟩

theorem mem_def {t : Table ρ} {r : ρ} : r ∈ t ↔ r ∈ t.rows := Iff.rfl

instance decidableBall {t : Table ρ} {p : ρ → Prop} [DecidablePred p] :
    Decidable (∀ r ∈ t, p r) :=
  inferInstanceAs (Decidable (∀ r ∈ t.rows, p r))

instance decidableBex {t : Table ρ} {p : ρ → Prop} [DecidablePred p] :
    Decidable (∃ r ∈ t, p r) :=
  inferInstanceAs (Decidable (∃ r ∈ t.rows, p r))

@[ext] theorem ext {t u : Table ρ} (h : t.rows = u.rows) : t = u := by
  cases t
  cases u
  congr

theorem rows_nodup (t : Table ρ) : t.rows.Nodup :=
  List.Nodup.of_map _ t.keys_nodup

theorem eq_of_key {t : Table ρ} {r r' : ρ} (hr : r ∈ t) (hr' : r' ∈ t)
    (h : key r = key r') : r = r' :=
  List.inj_on_of_nodup_map t.keys_nodup hr hr' h

/-- Two rows of a table that clash are one row. -/
theorem eq_of_clash {t : Table ρ} (hsymm : ∀ r r' : ρ, clash r r' = clash r' r) {r r' : ρ}
    (hr : r ∈ t) (hr' : r' ∈ t) (h : clash r r' = true) : r = r' := by
  have hsymm' : Std.Symm (fun r r' : ρ => clash r r' = false) :=
    ⟨fun a b hab => (hsymm b a).trans hab⟩
  by_contra hne
  have hfalse := t.no_clash.forall hr hr' hne
  rw [h] at hfalse
  cases hfalse

/-- The table without rows. -/
def empty : Table ρ := ⟨[], List.nodup_nil, List.Pairwise.nil⟩

@[simp] theorem rows_empty : (empty : Table ρ).rows = [] := rfl

/-! ## Reading -/

section Find

variable [DecidableEq κ]

/-- The row under a key. -/
def find? (t : Table ρ) (k : κ) : Option ρ :=
  t.rows.find? (fun r => key r = k)

theorem find?_eq_some {t : Table ρ} {k : κ} {r : ρ} :
    t.find? k = some r ↔ r ∈ t ∧ key r = k := by
  constructor
  · intro h
    exact ⟨List.mem_of_find?_eq_some h, by simpa using List.find?_some h⟩
  · rintro ⟨hr, hk⟩
    cases hfind : t.find? k with
    | none =>
        have := List.find?_eq_none.mp hfind r hr
        simp [hk] at this
    | some r' =>
        have hr' : r' ∈ t := List.mem_of_find?_eq_some hfind
        have hk' : key r' = k := by simpa using List.find?_some hfind
        rw [eq_of_key hr hr' (hk.trans hk'.symm)]

theorem find?_key {t : Table ρ} {r : ρ} (hr : r ∈ t) : t.find? (key r) = some r :=
  find?_eq_some.mpr ⟨hr, rfl⟩

theorem find?_eq_none {t : Table ρ} {k : κ} :
    t.find? k = none ↔ ∀ r ∈ t, key r ≠ k := by
  simp [find?, mem_def]

end Find

/-! ## Appending -/

/-- Append a row to which no index objects. -/
def insert (t : Table ρ) (r : ρ)
    (h : ∀ r' ∈ t.rows, key r' ≠ key r ∧ clash r' r = false) : Table ρ where
  rows := t.rows ++ [r]
  keys_nodup := by
    rw [List.map_append, List.nodup_append]
    refine ⟨t.keys_nodup, List.nodup_singleton _, ?_⟩
    intro k hk k' hk'
    obtain ⟨r', hr', rfl⟩ := List.mem_map.mp hk
    simp only [List.map_cons, List.map_nil, List.mem_singleton] at hk'
    exact hk' ▸ (h r' hr').1
  no_clash := by
    rw [List.pairwise_append]
    refine ⟨t.no_clash, List.pairwise_singleton _ _, ?_⟩
    intro r' hr' s hs
    rw [List.mem_singleton] at hs
    exact hs ▸ (h r' hr').2

@[simp] theorem rows_insert (t : Table ρ) (r : ρ) (h) :
    (t.insert r h).rows = t.rows ++ [r] := rfl

/-- `INSERT`: append a row, or nothing where an index objects. -/
def insert? [DecidableEq κ] (t : Table ρ) (r : ρ) : Option (Table ρ) :=
  if h : ∀ r' ∈ t.rows, key r' ≠ key r ∧ clash r' r = false then some (t.insert r h)
  else none

theorem insert?_eq_some [DecidableEq κ] {t t' : Table ρ} {r : ρ} :
    t.insert? r = some t' ↔
      (∀ r' ∈ t, key r' ≠ key r ∧ clash r' r = false) ∧ t'.rows = t.rows ++ [r] := by
  unfold insert?
  split_ifs with h
  · constructor
    · intro ht
      cases ht
      exact ⟨h, rfl⟩
    · exact fun ⟨_, hrows⟩ => congrArg some (ext hrows.symm)
  · exact ⟨nofun, fun ⟨h', _⟩ => absurd h' h⟩

theorem exists_insert? [DecidableEq κ] {t : Table ρ} {r : ρ}
    (h : ∀ r' ∈ t, key r' ≠ key r ∧ clash r' r = false) : ∃ t', t.insert? r = some t' :=
  ⟨t.insert r h, dif_pos h⟩

/-! ## Rewriting rows -/

/-- Rewrite every row by a function that leaves the indexed columns alone. -/
def mapRows (t : Table ρ) (f : ρ → ρ) (hf : KeepsIndexes f) : Table ρ where
  rows := t.rows.map f
  keys_nodup := by
    have hkeys : (t.rows.map f).map key = t.rows.map key := by
      simp [List.map_map, Function.comp_def, hf.key_eq]
    rw [hkeys]
    exact t.keys_nodup
  no_clash := List.pairwise_map.mpr (t.no_clash.imp hf.clash_false)

@[simp] theorem rows_mapRows (t : Table ρ) (f : ρ → ρ) (hf) :
    (t.mapRows f hf).rows = t.rows.map f := rfl

/-- `UPDATE … WHERE p`: rewrite the rows that satisfy `p`. -/
def updateWhere (t : Table ρ) (p : ρ → Bool) (f : ρ → ρ) (hf : KeepsIndexes f) :
    Table ρ :=
  t.mapRows (fun r => if p r then f r else r) (hf.ite p)

@[simp] theorem rows_updateWhere (t : Table ρ) (p : ρ → Bool) (f : ρ → ρ) (hf) :
    (t.updateWhere p f hf).rows = t.rows.map (fun r => if p r then f r else r) := rfl

/-- `UPDATE … WHERE key = k`: rewrite the one row under a key. -/
def updateKey [DecidableEq κ] (t : Table ρ) (k : κ) (f : ρ → ρ)
    (hf : KeepsIndexes f) : Table ρ :=
  t.updateWhere (fun r => key r = k) f hf

@[simp] theorem rows_updateKey [DecidableEq κ] (t : Table ρ) (k : κ) (f : ρ → ρ)
    (hf) : (t.updateKey k f hf).rows =
      t.rows.map (fun r => if key r = k then f r else r) := by
  simp [updateKey]

theorem find?_map_rows [DecidableEq κ] {t t' : Table ρ} {f : ρ → ρ}
    (h : t'.rows = t.rows.map f) (hf : ∀ r, key (f r) = key r) (k : κ) :
    t'.find? k = (t.find? k).map f := by
  have hkeys : (fun r => decide (key r = k)) ∘ f = fun r => decide (key r = k) := by
    funext r
    rw [Function.comp_apply, hf]
  unfold find?
  rw [h, List.find?_map, hkeys]

theorem find?_updateKey [DecidableEq κ] (t : Table ρ) (k : κ) (f : ρ → ρ) (hf) (k' : κ) :
    (t.updateKey k f hf).find? k' =
      (t.find? k').map (fun r => if key r = k then f r else r) := by
  refine find?_map_rows (rows_updateKey ..) (fun r => ?_) k'
  split_ifs
  · exact hf.key_eq r
  · rfl

theorem mem_insert? [DecidableEq κ] {t t' : Table ρ} {r s : ρ} (h : t.insert? r = some t') :
    s ∈ t' ↔ s ∈ t ∨ s = r := by
  rw [mem_def, (insert?_eq_some.mp h).2, List.mem_append, List.mem_singleton]
  exact Iff.rfl

/-- Rewriting the row that was inserted last. -/
theorem rows_updateKey_insert? [DecidableEq κ] {t t' : Table ρ} {r : ρ} (f : ρ → ρ) (hf)
    (h : t.insert? r = some t') : (t'.updateKey (key r) f hf).rows = t.rows ++ [f r] := by
  obtain ⟨hfree, hrows⟩ := insert?_eq_some.mp h
  have hkept : t.rows.map (fun s => if key s = key r then f s else s) = t.rows := by
    conv_rhs => rw [← List.map_id t.rows]
    refine List.map_congr_left fun s hs => ?_
    simp [(hfree s hs).1]
  rw [rows_updateKey, hrows, List.map_append, hkept, List.map_singleton, if_pos rfl]

/-- A row that was found is found again after an insert. -/
theorem find?_insert? [DecidableEq κ] {t t' : Table ρ} {r s : ρ} {k : κ}
    (h : t.insert? r = some t') (hs : t.find? k = some s) : t'.find? k = some s := by
  obtain ⟨hmem, hkey⟩ := find?_eq_some.mp hs
  refine find?_eq_some.mpr ⟨?_, hkey⟩
  rw [mem_def, (insert?_eq_some.mp h).2]
  exact List.mem_append_left _ hmem

/-- `UPDATE … WHERE key = k` of indexed columns: the rewritten table, or nothing
where an index objects. -/
def replaceKey? [DecidableEq κ] (t : Table ρ) (k : κ) (f : ρ → ρ)
    (hf : ∀ r, key (f r) = key r) : Option (Table ρ) :=
  if h : (t.rows.map (fun r => if key r = k then f r else r)).Pairwise
      (fun r r' => clash r r' = false) then
    some
      { rows := t.rows.map (fun r => if key r = k then f r else r)
        keys_nodup := by
          have hkeys : (t.rows.map (fun r => if key r = k then f r else r)).map key =
              t.rows.map key := by
            simp only [List.map_map]
            refine List.map_congr_left fun r _ => ?_
            simp only [Function.comp]
            split_ifs <;> simp [hf]
          rw [hkeys]
          exact t.keys_nodup
        no_clash := h }
  else none

theorem replaceKey?_eq_some [DecidableEq κ] {t t' : Table ρ} {k : κ} {f : ρ → ρ}
    {hf} : t.replaceKey? k f hf = some t' ↔
      t'.rows = t.rows.map (fun r => if key r = k then f r else r) := by
  unfold replaceKey?
  split_ifs with h
  · exact ⟨fun ht => by cases ht; rfl, fun hrows => congrArg some (ext hrows.symm)⟩
  · exact ⟨nofun, fun hrows => absurd (hrows ▸ t'.no_clash) h⟩

/-! ## Batches of updates -/

section Batch

variable {α : Type} (p : α → ρ → Bool) (f : α → ρ → ρ)

/-- What a batch of conditional rewrites makes of one row. -/
def rewrites (as : List α) (r : ρ) : ρ := as.foldl (fun r a => if p a r then f a r else r) r

theorem rewrites_eq_self {as : List α} {r : ρ} (h : ∀ a ∈ as, p a r = false) :
    rewrites p f as r = r := by
  induction as with
  | nil => rfl
  | cons a as ih =>
      have hfirst : p a r = false := h a List.mem_cons_self
      change rewrites p f as (if p a r then f a r else r) = r
      rw [hfirst, if_neg Bool.false_ne_true]
      exact ih fun b hb => h b (List.mem_cons_of_mem _ hb)

theorem rows_foldl_updateWhere (hf : ∀ a, KeepsIndexes (f a)) (as : List α) (t : Table ρ) :
    (as.foldl (fun t a => t.updateWhere (p a) (f a) (hf a)) t).rows =
      t.rows.map (rewrites p f as) := by
  induction as generalizing t with
  | nil => exact (List.map_id t.rows).symm
  | cons a as ih =>
      rw [List.foldl_cons, ih, rows_updateWhere, List.map_map]
      rfl

/-- A batch whose members are each for a key of their own rewrites a row at most once. -/
theorem rewrites_cases {as : List α} {name : α → κ} (hnames : (as.map name).Nodup)
    (hp : ∀ a r, p a r = true → name a = key r) (hf : ∀ a r, key (f a r) = key r) (r : ρ) :
    (rewrites p f as r = r ∧ ∀ a ∈ as, p a r = false) ∨
      ∃ a ∈ as, p a r = true ∧ rewrites p f as r = f a r := by
  induction as with
  | nil => exact .inl ⟨rfl, nofun⟩
  | cons a as ih =>
      rw [List.map_cons, List.nodup_cons] at hnames
      obtain ⟨hfresh, hrest⟩ := hnames
      have hstep : rewrites p f (a :: as) r = rewrites p f as (if p a r then f a r else r) := rfl
      rw [hstep]
      by_cases ha : p a r = true
      · rw [if_pos ha]
        refine .inr ⟨a, List.mem_cons_self, ha, rewrites_eq_self p f fun b hb => ?_⟩
        -- no later member is for the row that has been rewritten
        by_contra hb'
        have hname := hp b (f a r) (Bool.of_not_eq_false hb')
        rw [hf, ← hp a r ha] at hname
        exact hfresh (hname ▸ List.mem_map_of_mem hb)
      · rw [if_neg ha]
        rcases ih hrest with ⟨hsame, hnone⟩ | ⟨b, hb, hpb, heq⟩
        · refine .inl ⟨hsame, fun b hb => ?_⟩
          rcases List.mem_cons.mp hb with rfl | hb
          · exact Bool.of_not_eq_true ha
          · exact hnone b hb
        · exact .inr ⟨b, List.mem_cons_of_mem _ hb, hpb, heq⟩

end Batch

/-! ## Removing -/

/-- `DELETE … WHERE NOT p`: keep only the rows that satisfy `p`. -/
def filter (t : Table ρ) (p : ρ → Bool) : Table ρ where
  rows := t.rows.filter p
  keys_nodup := (t.rows.filter_sublist.map key).nodup t.keys_nodup
  no_clash := t.no_clash.filter p

@[simp] theorem rows_filter (t : Table ρ) (p : ρ → Bool) :
    (t.filter p).rows = t.rows.filter p := rfl

theorem mem_filter {t : Table ρ} {p : ρ → Bool} {r : ρ} :
    r ∈ t.filter p ↔ r ∈ t ∧ p r := by
  simp [mem_def]

/-- The rows under another type that has the same indexes. -/
def project {τ : Type} [Keyed τ κ] (t : Table ρ) (f : ρ → τ) (hkey : ∀ r, key (f r) = key r)
    (hclash : ∀ r s, clash (f r) (f s) = clash r s) : Table τ where
  rows := t.rows.map f
  keys_nodup := by
    have hkeys : (t.rows.map f).map key = t.rows.map key := by
      rw [List.map_map]
      exact List.map_congr_left fun r _ => hkey r
    rw [hkeys]
    exact t.keys_nodup
  no_clash := List.pairwise_map.mpr (t.no_clash.imp fun h => (hclash _ _).trans h)

theorem find?_project {τ : Type} [Keyed τ κ] [DecidableEq κ] {t : Table ρ} {f : ρ → τ} (hkey)
    (hclash) (k : κ) : (t.project f hkey hclash).find? k = (t.find? k).map f := by
  unfold find? project
  rw [List.find?_map]
  refine congrArg (Option.map f) (congrArg (fun p => t.rows.find? p) (funext fun r => ?_))
  rw [Function.comp_apply, hkey]

end Table

/-! ## Rows made from data and a key -/

/-- `rows` are made from `as`, in order, each under some key. -/
def Drawn {α ρ κ : Type} (mk : α → κ → ρ) (as : List α) (rows : List ρ) : Prop :=
  List.Forall₂ (fun a r => ∃ k, r = mk a k) as rows

namespace Drawn

variable {α β ρ κ : Type} {mk : α → κ → ρ} {as as' : List α} {rows rows' : List ρ}

theorem nil : Drawn mk [] [] := List.Forall₂.nil

theorem cons {a : α} {k : κ} (h : Drawn mk as rows) : Drawn mk (a :: as) (mk a k :: rows) :=
  List.Forall₂.cons ⟨k, rfl⟩ h

theorem append (h : Drawn mk as rows) (h' : Drawn mk as' rows') :
    Drawn mk (as ++ as') (rows ++ rows') :=
  List.rel_append h h'

theorem exists_append (h : Drawn mk (as ++ as') rows) :
    ∃ front back, rows = front ++ back ∧ Drawn mk as front ∧ Drawn mk as' back := by
  induction as generalizing rows with
  | nil => exact ⟨[], rows, rfl, .nil, h⟩
  | cons a as ih =>
      cases h with
      | cons hmk hrest =>
          obtain ⟨front, back, rfl, hfront, hback⟩ := ih hrest
          exact ⟨_ :: front, back, rfl, List.Forall₂.cons hmk hfront, hback⟩

/-- What does not depend on the keys is read off the data. -/
theorem map_eq {f : ρ → β} {g : α → β} (h : Drawn mk as rows)
    (hfg : ∀ a k, f (mk a k) = g a) : rows.map f = as.map g := by
  induction h with
  | nil => rfl
  | cons hr _ ih =>
      obtain ⟨k, rfl⟩ := hr
      rw [List.map_cons, List.map_cons, hfg, ih]

theorem map_eq_of_mem {f : ρ → β} {g : α → β} (h : Drawn mk as rows)
    (hfg : ∀ a ∈ as, ∀ k, f (mk a k) = g a) : rows.map f = as.map g := by
  induction h with
  | nil => rfl
  | cons hr _ ih =>
      obtain ⟨k, rfl⟩ := hr
      rw [List.map_cons, List.map_cons, hfg _ List.mem_cons_self k,
        ih fun a ha => hfg a (List.mem_cons_of_mem _ ha)]

theorem length_eq (h : Drawn mk as rows) : as.length = rows.length :=
  List.Forall₂.length_eq h

theorem exists_of_mem (h : Drawn mk as rows) {r : ρ} (hr : r ∈ rows) :
    ∃ a ∈ as, ∃ k, r = mk a k := by
  induction h with
  | nil => cases hr
  | cons hmk _ ih =>
      rcases List.mem_cons.mp hr with rfl | hr
      · exact ⟨_, List.mem_cons_self, hmk⟩
      · obtain ⟨a, ha, hk⟩ := ih hr
        exact ⟨a, List.mem_cons_of_mem _ ha, hk⟩

theorem mem_of_mem (h : Drawn mk as rows) {a : α} (ha : a ∈ as) :
    ∃ k, mk a k ∈ rows := by
  induction h with
  | nil => cases ha
  | cons hmk _ ih =>
      rcases List.mem_cons.mp ha with rfl | ha
      · obtain ⟨k, rfl⟩ := hmk
        exact ⟨k, List.mem_cons_self⟩
      · obtain ⟨k, hk⟩ := ih ha
        exact ⟨k, List.mem_cons_of_mem _ hk⟩

end Drawn

end Refearn.Support
