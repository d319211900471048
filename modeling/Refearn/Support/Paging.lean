import Mathlib.Data.List.Sort
import Mathlib.Data.Prod.Lex
/-!
# Pages after a key

Rows are read in the order of a key, a page at a time, each page after the key of the last row of
the page before. Followed to the end the pages are all rows, once each and in order.
-/

namespace Refearn.Support

variable {ρ κ : Type} [LinearOrder κ] (key : ρ → κ)

/-- `ORDER BY` the key. -/
def inOrder (rows : List ρ) : List ρ := rows.insertionSort fun a b => key a ≤ key b

/-- The rows after a key, or all. -/
def afterKey (after : Option κ) (rows : List ρ) : List ρ :=
  rows.filter fun r => after.all fun k => k < key r

/-- The rows of all pages from a key on, with at most `fuel` pages. -/
def followed (size : Nat) (rows : List ρ) : Nat → Option κ → List ρ
  | 0, _ => []
  | fuel + 1, after =>
      let ahead := inOrder key (afterKey key after rows)
      match (ahead.take size).getLast? with
      | none => []
      | some last =>
          if size < ahead.length then
            ahead.take size ++ followed size rows fuel (some (key last))
          else ahead.take size

section InOrder

variable {key} {rows rows' : List ρ}

instance total_key : Std.Total fun a b : ρ => key a ≤ key b := ⟨fun a b => le_total (key a) (key b)⟩

instance isTrans_key : IsTrans ρ fun a b => key a ≤ key b := ⟨fun _ _ _ h h' => h.trans h'⟩

theorem perm_inOrder (rows : List ρ) : (inOrder key rows).Perm rows := List.perm_insertionSort _ rows

theorem pairwise_inOrder (h : (rows.map key).Nodup) :
    (inOrder key rows).Pairwise fun a b => key a < key b := by
  have hle : (inOrder key rows).Pairwise fun a b => key a ≤ key b := List.pairwise_insertionSort _ rows
  have hne : (inOrder key rows).Pairwise fun a b => key a ≠ key b :=
    List.pairwise_map.mp (((perm_inOrder rows).map key).nodup_iff.mpr h)
  exact hle.imp₂ (fun _ _ hle hne => lt_of_le_of_ne hle hne) hne

/-- There is one order. -/
theorem eq_of_pairwise_lt (h : rows.Pairwise fun a b => key a < key b)
    (h' : rows'.Pairwise fun a b => key a < key b) (hperm : rows.Perm rows') : rows = rows' :=
  hperm.eq_of_pairwise (fun _ _ _ _ hab hba => absurd hba hab.asymm) h h'

theorem inOrder_eq_of_perm (h : (rows.map key).Nodup) (hperm : rows.Perm rows') :
    inOrder key rows = inOrder key rows' := by
  refine eq_of_pairwise_lt (pairwise_inOrder h)
    (pairwise_inOrder ((hperm.map key).nodup_iff.mp h)) ?_
  exact (perm_inOrder rows).trans (hperm.trans (perm_inOrder rows').symm)

theorem inOrder_filter (h : (rows.map key).Nodup) (p : ρ → Bool) :
    inOrder key (rows.filter p) = (inOrder key rows).filter p := by
  have hsub : ((rows.filter p).map key).Nodup := h.sublist (List.filter_sublist.map key)
  refine eq_of_pairwise_lt (pairwise_inOrder hsub) ((pairwise_inOrder h).filter p) ?_
  exact (perm_inOrder _).trans ((perm_inOrder rows).filter p).symm

end InOrder

section Followed

variable {key} {size : Nat} {rows : List ρ}

/-- After the last row of the first ones come the others. -/
theorem afterKey_last {ahead : List ρ} (h : ahead.Pairwise fun a b => key a < key b) {last : ρ}
    (hlast : (ahead.take size).getLast? = some last) :
    afterKey key (some (key last)) ahead = ahead.drop size := by
  obtain ⟨front, hfront⟩ := List.getLast?_eq_some_iff.mp hlast
  have hsplit : ahead = front ++ (last :: ahead.drop size) := by
    conv_lhs => rw [← List.take_append_drop size ahead, hfront]
    simp
  rw [hsplit] at h
  obtain ⟨-, htail, hcross⟩ := List.pairwise_append.mp h
  obtain ⟨hrest, -⟩ := List.pairwise_cons.mp htail
  unfold afterKey
  conv_lhs => rw [hsplit]
  have hnone : front.filter (fun r => (some (key last)).all fun k => k < key r) = [] := by
    refine List.filter_eq_nil_iff.mpr fun r hr => ?_
    have hlt := hcross r hr last List.mem_cons_self
    simpa using hlt.le
  have hall : (ahead.drop size).filter (fun r => (some (key last)).all fun k => k < key r) =
      ahead.drop size := by
    refine List.filter_eq_self.mpr fun r hr => ?_
    simpa using hrest r hr
  rw [List.filter_append, hnone, List.nil_append, List.filter_cons_of_neg (by simp), hall]

theorem inOrder_afterKey (h : (rows.map key).Nodup) (after : Option κ) :
    inOrder key (afterKey key after rows) = afterKey key after (inOrder key rows) :=
  inOrder_filter h _

/-- A later key leaves the rows after it. -/
theorem afterKey_afterKey {after : Option κ} {k : κ} (hk : ∀ a ∈ after, a < k) :
    afterKey key (some k) (afterKey key after rows) = afterKey key (some k) rows := by
  unfold afterKey
  rw [List.filter_filter]
  refine List.filter_congr fun r _ => ?_
  cases after with
  | none => simp
  | some a =>
      have hak := hk a rfl
      by_cases hr : k < key r
      · simp [hr, hak.trans hr]
      · simp [hr]

/-- Enough pages are all rows after the key. -/
theorem followed_eq (hsize : 0 < size) (h : (rows.map key).Nodup) {fuel : Nat} {after : Option κ}
    (hfuel : (afterKey key after rows).length < fuel) :
    followed key size rows fuel after = inOrder key (afterKey key after rows) := by
  induction fuel generalizing after with
  | zero => omega
  | succ fuel ih =>
      have hsub : ((afterKey key after rows).map key).Nodup :=
        h.sublist (List.filter_sublist.map key)
      have hsorted := pairwise_inOrder hsub
      have hlength : (inOrder key (afterKey key after rows)).length =
          (afterKey key after rows).length := (perm_inOrder _).length_eq
      unfold followed
      simp only
      cases hlast : ((inOrder key (afterKey key after rows)).take size).getLast? with
      | none =>
          have hnil := List.getLast?_eq_none_iff.mp hlast
          rcases List.take_eq_nil_iff.mp hnil with hzero | hnil
          · omega
          · rw [hnil]
      | some last =>
          have hmem : last ∈ afterKey key after rows :=
            (perm_inOrder _).mem_iff.mp
              (List.mem_of_mem_take (List.mem_of_getLast? hlast))
          have hafter : ∀ a ∈ after, a < key last := by
            intro a ha
            have hpos := (List.mem_filter.mp hmem).2
            rw [Option.mem_def.mp ha] at hpos
            simpa using hpos
          -- what comes after the page, of the rows ahead and of all rows
          have hrest : inOrder key (afterKey key (some (key last)) rows) =
              (inOrder key (afterKey key after rows)).drop size := by
            rw [← afterKey_last hsorted hlast, ← inOrder_afterKey hsub, afterKey_afterKey hafter]
          simp only
          split_ifs with hmore
          · have hshort : (afterKey key (some (key last)) rows).length < fuel := by
              have hdrop := congrArg List.length hrest
              rw [(perm_inOrder _).length_eq, List.length_drop] at hdrop
              omega
            rw [ih hshort, hrest, List.take_append_drop]
          · exact List.take_of_length_le (not_lt.mp hmore)

end Followed

end Refearn.Support
