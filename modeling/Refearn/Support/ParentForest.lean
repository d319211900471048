import Mathlib.Data.List.Nodup
import Mathlib.Data.List.Perm.Subperm
import Mathlib.Data.Fintype.EquivFin
import Mathlib.Logic.Relation
/-!
# Forests of parent references

Keys that each refer to at most one parent, listed from the roots downward: a key, and then what
lies below it if it is open. The parent references may run in circles; what lies on a circle, or
below one, is listed nowhere.
-/

namespace Refearn.Support

/-- A key in a listing, with its depth and the key that it is listed under. -/
structure Place (κ : Type) where
  key : κ
  depth : Nat
  above : Option κ

namespace ParentForest

variable {κ : Type} (keys : List κ) (parent : κ → Option κ) (isOpen : κ → Bool)

section

variable [DecidableEq κ]

def children (k : κ) : List κ := keys.filter fun c => parent c = some k

def roots : List κ := keys.filter fun c => parent c = none

/-- A key and what lies below it, to a depth of `fuel`. -/
def subtree : Nat → Nat → Option κ → κ → List (Place κ)
  | 0, _, _, _ => []
  | fuel + 1, depth, above, k =>
      ⟨k, depth, above⟩ ::
        if isOpen k then (children keys parent k).flatMap (subtree fuel (depth + 1) (some k))
        else []

def listing (fuel : Nat) : List (Place κ) :=
  (roots keys parent).flatMap (subtree keys parent isOpen fuel 0 none)

end

/-- A key whose parents lead to a root, all of them open. -/
inductive Listed : κ → Nat → Prop
  | root {k : κ} (hk : k ∈ keys) (hroot : parent k = none) : Listed k 0
  | child {k p : κ} {n : Nat} (hk : k ∈ keys) (hparent : parent k = some p)
      (hopen : isOpen p = true) (hp : Listed p n) : Listed k (n + 1)

/-- `x` lies below `k`, or is `k`. -/
def Below (x k : κ) : Prop := Relation.ReflTransGen (fun c p => parent c = some p) x k

variable {keys parent isOpen} {k p x c : κ} {n m d fuel : Nat} {above : Option κ}

/-! ## Depths -/

theorem Listed.mem (h : Listed keys parent isOpen k n) : k ∈ keys := by
  cases h with
  | root hk _ => exact hk
  | child hk _ _ _ => exact hk

theorem Listed.of_parent (h : Listed keys parent isOpen k n) (hparent : parent k = some p) :
    isOpen p = true ∧ ∃ m, n = m + 1 ∧ Listed keys parent isOpen p m := by
  cases h with
  | root _ hroot =>
      rw [hroot] at hparent
      cases hparent
  | child _ hparent' hopen hp =>
      rw [hparent] at hparent'
      cases hparent'
      exact ⟨hopen, _, rfl, hp⟩

theorem Listed.unique (h : Listed keys parent isOpen k n) (h' : Listed keys parent isOpen k m) :
    n = m := by
  induction h generalizing m with
  | root _ hroot =>
      cases h' with
      | root _ _ => rfl
      | child _ hparent _ _ =>
          rw [hroot] at hparent
          cases hparent
  | child _ hparent _ _ ih =>
      obtain ⟨-, m', rfl, hp⟩ := h'.of_parent hparent
      rw [ih hp]

/-- What lies above a listed key is listed, and not deeper. -/
theorem Listed.of_below (h : Listed keys parent isOpen x n) (hbelow : Below parent x k) :
    ∃ d ≤ n, Listed keys parent isOpen k d := by
  induction hbelow with
  | refl => exact ⟨n, Nat.le_refl n, h⟩
  | tail _ hlink ih =>
      obtain ⟨d, hd, hmid⟩ := ih
      obtain ⟨-, m, rfl, hp⟩ := hmid.of_parent hlink
      exact ⟨m, by omega, hp⟩

theorem Listed.le_of_below (h : Listed keys parent isOpen x n)
    (hk : Listed keys parent isOpen k d) (hbelow : Below parent x k) : d ≤ n := by
  obtain ⟨d', hle, hk'⟩ := h.of_below hbelow
  exact hk.unique hk' ▸ hle

/-- Above a listed key there is one key of each depth. -/
theorem Listed.above_unique (h : Listed keys parent isOpen x n)
    (hk : Listed keys parent isOpen k d) (hc : Listed keys parent isOpen c d)
    (hxk : Below parent x k) (hxc : Below parent x c) : k = c := by
  induction hxk using Relation.ReflTransGen.head_induction_on generalizing n with
  | refl =>
      rcases Relation.ReflTransGen.cases_head hxc with heq | ⟨p, hlink, hrest⟩
      · exact heq
      · obtain ⟨-, m, rfl, hp⟩ := h.of_parent hlink
        have hle := hp.le_of_below hc hrest
        have heq := h.unique hk
        omega
  | head hlink hrest ih =>
      obtain ⟨-, m, rfl, hp⟩ := h.of_parent hlink
      rcases Relation.ReflTransGen.cases_head hxc with heq | ⟨q, hlink', hrest'⟩
      · have hle := hp.le_of_below hk hrest
        have heq' := h.unique (heq ▸ hc)
        omega
      · rw [hlink] at hlink'
        cases hlink'
        exact ih hp hrest'

/-- The keys above a listed key are as many as it is deep. -/
theorem Listed.exists_chain (h : Listed keys parent isOpen k n) :
    ∃ chain : List κ, chain.Nodup ∧ chain.length = n + 1 ∧
      ∀ x ∈ chain, ∃ m ≤ n, Listed keys parent isOpen x m := by
  induction h with
  | @root k hk hroot =>
      refine ⟨[k], List.nodup_singleton k, rfl, fun x hx => ?_⟩
      rw [List.mem_singleton.mp hx]
      exact ⟨0, Nat.le_refl _, .root hk hroot⟩
  | @child k p n hk hparent hopen hp ih =>
      have hself : Listed keys parent isOpen k (n + 1) := .child hk hparent hopen hp
      obtain ⟨chain, hnodup, hlength, hchain⟩ := ih
      refine ⟨k :: chain, List.nodup_cons.mpr ⟨fun hmem => ?_, hnodup⟩, by
        rw [List.length_cons, hlength], fun x hx => ?_⟩
      · obtain ⟨m, hm, hlisted⟩ := hchain k hmem
        have heq := hself.unique hlisted
        omega
      · rcases List.mem_cons.mp hx with rfl | hx
        · exact ⟨n + 1, Nat.le_refl _, hself⟩
        · obtain ⟨m, hm, hlisted⟩ := hchain x hx
          exact ⟨m, by omega, hlisted⟩

theorem Listed.lt_length (h : Listed keys parent isOpen k n) : n < keys.length := by
  obtain ⟨chain, hnodup, hlength, hchain⟩ := h.exists_chain
  have hsub : chain ⊆ keys := fun x hx => by
    obtain ⟨m, -, hlisted⟩ := hchain x hx
    exact hlisted.mem
  have hle := (List.subperm_of_subset hnodup hsub).length_le
  omega

theorem Listed.exists_root (h : Listed keys parent isOpen k n) :
    ∃ r ∈ roots keys parent, Below parent k r := by
  induction h with
  | @root k hk hroot =>
      exact ⟨k, List.mem_filter.mpr ⟨hk, decide_eq_true hroot⟩, .refl⟩
  | child _ hparent _ _ ih =>
      obtain ⟨r, hr, hbelow⟩ := ih
      exact ⟨r, hr, .head hparent hbelow⟩

/-- Where no key is above itself, the parents of each key lead to a root. -/
theorem exists_listed
    (hparents : ∀ k ∈ keys, ∀ p, parent k = some p → p ∈ keys ∧ isOpen p = true)
    (hcircle : ∀ k ∈ keys, ¬Relation.TransGen (fun c p => parent c = some p) k k)
    (hk : k ∈ keys) : ∃ n, Listed keys parent isOpen k n := by
  let above (p c : {k // k ∈ keys}) : Prop :=
    Relation.TransGen (fun c p => parent c = some p) c.1 p.1
  have htrans : IsTrans _ above := ⟨fun _ _ _ hab hbc => hbc.trans hab⟩
  have hirrefl : Std.Irrefl above := ⟨fun k h => hcircle k.1 k.2 h⟩
  have hfinite : Finite {k // k ∈ keys} :=
    .of_surjective (fun i : Fin keys.length => ⟨keys.get i, List.get_mem keys i⟩) fun k => by
      obtain ⟨i, hi⟩ := List.get_of_mem k.2
      exact ⟨i, Subtype.ext hi⟩
  have hfounded : WellFounded above := Finite.wellFounded_of_trans_of_irrefl above
  suffices h : ∀ k : {k // k ∈ keys}, ∃ n, Listed keys parent isOpen k.1 n from h ⟨k, hk⟩
  intro k
  induction k using hfounded.induction with
  | _ k ih =>
      cases hparent : parent k.1 with
      | none => exact ⟨0, .root k.2 hparent⟩
      | some p =>
          obtain ⟨hp, hopen⟩ := hparents k.1 k.2 p hparent
          obtain ⟨n, hlisted⟩ := ih ⟨p, hp⟩ (.single hparent)
          exact ⟨n + 1, .child k.2 hparent hopen hlisted⟩

/-- Links that listed keys follow lead upward, so they do not come back. -/
theorem Listed.not_circle {r : κ → κ → Prop} (hr : ∀ c p, r c p → parent c = some p)
    (h : Listed keys parent isOpen k n) : ¬Relation.TransGen r k k := by
  intro hcircle
  obtain ⟨p, hlink, hrest⟩ := Relation.TransGen.head'_iff.mp hcircle
  obtain ⟨-, m, rfl, hp⟩ := h.of_parent (hr k p hlink)
  have hle := hp.le_of_below h (Relation.ReflTransGen.mono hr p k hrest)
  omega

theorem listed_of_mem_roots (h : k ∈ roots keys parent) : Listed keys parent isOpen k 0 := by
  obtain ⟨hk, hroot⟩ := List.mem_filter.mp h
  exact .root hk (of_decide_eq_true hroot)

section

variable [DecidableEq κ]

theorem listed_of_mem_children (hk : Listed keys parent isOpen k d) (hopen : isOpen k = true)
    (h : c ∈ children keys parent k) :
    Listed keys parent isOpen c (d + 1) ∧ parent c = some k := by
  obtain ⟨hc, hparent⟩ := List.mem_filter.mp h
  have hparent : parent c = some k := of_decide_eq_true hparent
  exact ⟨.child hc hparent hopen hk, hparent⟩

/-! ## What is listed -/

theorem mem_subtree_succ {y : Place κ} :
    y ∈ subtree keys parent isOpen (fuel + 1) d above k ↔ y = ⟨k, d, above⟩ ∨
      isOpen k = true ∧ ∃ c ∈ children keys parent k,
        y ∈ subtree keys parent isOpen fuel (d + 1) (some k) c := by
  rw [subtree, List.mem_cons]
  refine or_congr_right ?_
  split_ifs with hopen
  · simp [hopen, List.mem_flatMap]
  · simp [hopen]

/-- What is listed in a subtree lies below its key, at its own depth and under its parent. -/
theorem of_mem_subtree {y : Place κ} (hk : Listed keys parent isOpen k d)
    (habove : above = parent k) (h : y ∈ subtree keys parent isOpen fuel d above k) :
    Listed keys parent isOpen y.key y.depth ∧ y.above = parent y.key ∧ Below parent y.key k := by
  induction fuel generalizing k d above with
  | zero => cases h
  | succ fuel ih =>
      rcases mem_subtree_succ.mp h with rfl | ⟨hopen, c, hc, hy⟩
      · exact ⟨hk, habove, .refl⟩
      · obtain ⟨hlisted, hparent⟩ := listed_of_mem_children hk hopen hc
        obtain ⟨hy, hyabove, hbelow⟩ := ih hlisted hparent.symm hy
        exact ⟨hy, hyabove, hbelow.tail hparent⟩

/-- All that lies below a key is listed, where the fuel lasts. -/
theorem exists_mem_subtree (hx : Listed keys parent isOpen x n)
    (hk : Listed keys parent isOpen k d) (hbelow : Below parent x k) (hfuel : n < d + fuel) :
    ∃ y ∈ subtree keys parent isOpen fuel d above k, y.key = x := by
  induction fuel generalizing k d above with
  | zero =>
      have hle := hx.le_of_below hk hbelow
      omega
  | succ fuel ih =>
      rcases Relation.ReflTransGen.cases_tail hbelow with rfl | ⟨c, hxc, hparent⟩
      · exact ⟨_, mem_subtree_succ.mpr (.inl rfl), rfl⟩
      · obtain ⟨m, -, hc⟩ := hx.of_below hxc
        obtain ⟨hopen, m', rfl, hk'⟩ := hc.of_parent hparent
        obtain rfl := hk.unique hk'
        obtain ⟨y, hy, heq⟩ : ∃ y ∈ subtree keys parent isOpen fuel (d + 1) (some k) c, y.key = x :=
          ih hc hxc (by omega)
        refine ⟨y, mem_subtree_succ.mpr (.inr ⟨hopen, c, ?_, hy⟩), heq⟩
        exact List.mem_filter.mpr ⟨hc.mem, decide_eq_true hparent⟩

/-- The subtrees of keys of one depth have nothing in common. -/
theorem nodup_flatMap_subtree {ks : List κ} (hks : ks.Nodup)
    (hlisted : ∀ k ∈ ks, Listed keys parent isOpen k d ∧ above = parent k)
    (hsub : ∀ k ∈ ks, ((subtree keys parent isOpen fuel d above k).map Place.key).Nodup) :
    ((ks.flatMap (subtree keys parent isOpen fuel d above)).map Place.key).Nodup := by
  rw [List.map_flatMap, List.nodup_flatMap]
  refine ⟨hsub, hks.imp_of_mem fun {a b} ha hb hne x hxa hxb => hne ?_⟩
  obtain ⟨y, hy, rfl⟩ := List.mem_map.mp hxa
  obtain ⟨z, hz, heq⟩ := List.mem_map.mp hxb
  obtain ⟨hya, -, hbelow⟩ := of_mem_subtree (hlisted a ha).1 (hlisted a ha).2 hy
  obtain ⟨-, -, hbelow'⟩ := of_mem_subtree (hlisted b hb).1 (hlisted b hb).2 hz
  exact hya.above_unique (hlisted a ha).1 (hlisted b hb).1 hbelow (heq ▸ hbelow')

theorem nodup_subtree (hkeys : keys.Nodup) (hk : Listed keys parent isOpen k d)
    (habove : above = parent k) :
    ((subtree keys parent isOpen fuel d above k).map Place.key).Nodup := by
  induction fuel generalizing k d above with
  | zero => exact List.nodup_nil
  | succ fuel ih =>
      rw [subtree, List.map_cons, List.nodup_cons]
      split_ifs with hopen
      · have hchildren : ∀ c ∈ children keys parent k,
            Listed keys parent isOpen c (d + 1) ∧ some k = parent c := fun c hc =>
          (listed_of_mem_children hk hopen hc).imp_right Eq.symm
        refine ⟨fun hmem => ?_, nodup_flatMap_subtree (hkeys.filter _) hchildren fun c hc =>
          ih (hchildren c hc).1 (hchildren c hc).2⟩
        -- a key below its own child would be deeper than it is
        obtain ⟨y, hy, heq⟩ := List.mem_map.mp hmem
        obtain ⟨c, hc, hy⟩ := List.mem_flatMap.mp hy
        obtain ⟨hylisted, -, hbelow⟩ := of_mem_subtree (hchildren c hc).1 (hchildren c hc).2 hy
        have hle := hylisted.le_of_below (hchildren c hc).1 hbelow
        have hsame : y.depth = d := (heq ▸ hylisted).unique hk
        omega
      · exact ⟨List.not_mem_nil, List.nodup_nil⟩

theorem nodup_listing (hkeys : keys.Nodup) :
    ((listing keys parent isOpen fuel).map Place.key).Nodup := by
  have hroots : ∀ r ∈ roots keys parent,
      Listed keys parent isOpen r 0 ∧ none = parent r := fun r hr =>
    ⟨listed_of_mem_roots hr, (of_decide_eq_true (List.mem_filter.mp hr).2).symm⟩
  exact nodup_flatMap_subtree (hkeys.filter _) hroots fun r hr =>
    nodup_subtree hkeys (hroots r hr).1 (hroots r hr).2

theorem of_mem_listing {y : Place κ} (h : y ∈ listing keys parent isOpen fuel) :
    Listed keys parent isOpen y.key y.depth ∧ y.above = parent y.key := by
  obtain ⟨r, hr, hy⟩ := List.mem_flatMap.mp h
  have hroot : none = parent r := (of_decide_eq_true (List.mem_filter.mp hr).2).symm
  obtain ⟨hlisted, habove, -⟩ := of_mem_subtree (listed_of_mem_roots hr) hroot hy
  exact ⟨hlisted, habove⟩

theorem mem_listing_iff (hfuel : keys.length ≤ fuel) :
    x ∈ (listing keys parent isOpen fuel).map Place.key ↔ ∃ n, Listed keys parent isOpen x n := by
  constructor
  · intro h
    obtain ⟨y, hy, rfl⟩ := List.mem_map.mp h
    exact ⟨_, (of_mem_listing hy).1⟩
  · rintro ⟨n, hx⟩
    obtain ⟨r, hr, hbelow⟩ := hx.exists_root
    have hlt := hx.lt_length
    obtain ⟨y, hy, rfl⟩ : ∃ y ∈ subtree keys parent isOpen fuel 0 none r, y.key = x :=
      exists_mem_subtree hx (listed_of_mem_roots hr) hbelow (by omega)
    exact List.mem_map_of_mem (List.mem_flatMap.mpr ⟨r, hr, hy⟩)

end

/-! ## Parents come first -/

/-- Each place stands after one for the key above it, one deeper. -/
def FollowsParents (seen : List (Place κ)) : List (Place κ) → Prop
  | [] => True
  | y :: ys =>
      (∀ p, y.above = some p → ∃ z ∈ seen, z.key = p ∧ y.depth = z.depth + 1) ∧
        FollowsParents (seen ++ [y]) ys

theorem FollowsParents.append {seen ys zs : List (Place κ)} (hys : FollowsParents seen ys)
    (hzs : FollowsParents (seen ++ ys) zs) : FollowsParents seen (ys ++ zs) := by
  induction ys generalizing seen with
  | nil => rwa [List.append_nil] at hzs
  | cons y ys ih =>
      refine ⟨hys.1, ih hys.2 ?_⟩
      rwa [List.append_assoc]

theorem FollowsParents.of_split {seen ys front back : List (Place κ)} {y : Place κ}
    (h : FollowsParents seen ys) (hsplit : ys = front ++ y :: back) (habove : y.above = some p) :
    ∃ z ∈ seen ++ front, z.key = p ∧ y.depth = z.depth + 1 := by
  induction front generalizing seen ys with
  | nil =>
      rw [hsplit] at h
      rw [List.append_nil]
      exact h.1 p habove
  | cons z front ih =>
      rw [hsplit] at h
      obtain ⟨w, hw, hkey⟩ := ih h.2 rfl
      rw [List.append_assoc] at hw
      exact ⟨w, hw, hkey⟩

theorem followsParents_flatMap {ks : List κ} {f : κ → List (Place κ)} {seen : List (Place κ)}
    (h : ∀ k ∈ ks, ∀ more, FollowsParents (seen ++ more) (f k)) :
    FollowsParents seen (ks.flatMap f) := by
  induction ks generalizing seen with
  | nil => trivial
  | cons k ks ih =>
      rw [List.flatMap_cons]
      refine .append ?_ (ih fun c hc more => ?_)
      · have hfirst := h k List.mem_cons_self []
        rwa [List.append_nil] at hfirst
      · rw [List.append_assoc]
        exact h c (List.mem_cons_of_mem _ hc) _

variable [DecidableEq κ]

theorem followsParents_subtree {seen : List (Place κ)}
    (h : ∀ p, above = some p → ∃ z ∈ seen, z.key = p ∧ d = z.depth + 1) :
    FollowsParents seen (subtree keys parent isOpen fuel d above k) := by
  induction fuel generalizing seen k d above with
  | zero => trivial
  | succ fuel ih =>
      rw [subtree]
      refine ⟨h, ?_⟩
      split_ifs with hopen
      · refine followsParents_flatMap fun c _ more => ih fun p hp => ?_
        obtain rfl := Option.some.inj hp
        refine ⟨⟨k, d, above⟩, ?_, rfl, rfl⟩
        exact List.mem_append_left _ (List.mem_append_right _ (List.mem_singleton_self _))
      · trivial

theorem followsParents_listing : FollowsParents [] (listing keys parent isOpen fuel) :=
  followsParents_flatMap fun _ _ _ => followsParents_subtree nofun

end ParentForest

end Refearn.Support
