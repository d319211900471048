import Mathlib.Algebra.BigOperators.Group.Finset.Basic
import Mathlib.Data.Finset.Order
import Mathlib.Logic.Relation
/-!
# Totals of a forest in one pass

Every node of a list starts with an amount of its own. The list is walked from its end, and
each node adds what it has, with something on top, to its parent, if the list has the parent.
Where parents stand before their children, every node ends with the amounts of all the nodes
below it.
-/

namespace Refearn.Support

variable {α κ M : Type}

/-! ## The pass -/

section Pass

variable [DecidableEq κ] [AddCommMonoid M]
variable (id : α → κ) (parent : α → Option κ) (own extra : α → M)

/-- A map with the own amount of every node. -/
def ownAmounts (nodes : List α) : κ → Option M :=
  nodes.foldl (fun amounts m => Function.update amounts (id m) (some (own m))) fun _ => none

/-- A node adds to its parent, if the map has it. -/
def passUp (m : α) (amounts : κ → Option M) : κ → Option M :=
  match parent m with
  | none => amounts
  | some p =>
      match amounts p with
      | none => amounts
      | some amount =>
          Function.update amounts p (some (amount + ((amounts (id m)).getD 0 + extra m)))

/-- The pass from the last node to the first. -/
def passedUp (nodes : List α) : κ → Option M :=
  nodes.foldr (passUp id parent extra) (ownAmounts id own nodes)

def total (nodes : List α) (m : α) : M := (passedUp id parent own extra nodes (id m)).getD 0

end Pass

/-! ## What a forest is -/

/-- One link between nodes of the list. -/
def LinkIn (id : α → κ) (parent : α → Option κ) (nodes : List α) (c p : α) : Prop :=
  c ∈ nodes ∧ p ∈ nodes ∧ parent c = some (id p)

/-- Nodes listed by their depth, which grows with every link. -/
structure Layered (id : α → κ) (parent : α → Option κ) (depth : α → Nat) (nodes : List α) :
    Prop where
  nodup : (nodes.map id).Nodup
  sorted : nodes.Pairwise fun a b => depth a ≤ depth b
  deeper : ∀ {c p : α}, LinkIn id parent nodes c p → depth p < depth c

/-- The nodes below one, as far as the list links them. -/
noncomputable def below (id : α → κ) (parent : α → Option κ) (nodes : List α) (m : α) :
    Finset α := by
  classical
  exact nodes.toFinset.filter fun d => Relation.TransGen (LinkIn id parent nodes) d m

section Forest

variable {id : α → κ} {parent : α → Option κ} {depth : α → Nat} {nodes : List α} {m p c d : α}

theorem mem_below :
    d ∈ below id parent nodes m ↔ Relation.TransGen (LinkIn id parent nodes) d m := by
  classical
  unfold below
  rw [Finset.mem_filter, List.mem_toFinset, and_iff_right_iff_imp]
  intro h
  obtain ⟨_, hlink, -⟩ := Relation.TransGen.head'_iff.mp h
  exact hlink.1

theorem Layered.parent_ne (h : Layered id parent depth nodes) (hc : c ∈ nodes) (hp : p ∈ nodes)
    (hdepth : depth c ≤ depth p) : parent c ≠ some (id p) := fun hlink =>
  absurd (h.deeper ⟨hc, hp, hlink⟩) (not_lt.mpr hdepth)

theorem Layered.depth_lt (h : Layered id parent depth nodes)
    (hbelow : Relation.TransGen (LinkIn id parent nodes) d m) : depth m < depth d := by
  induction hbelow with
  | single hlink => exact h.deeper hlink
  | tail _ hlink ih => exact (h.deeper hlink).trans ih

theorem Layered.link_unique (h : Layered id parent depth nodes) {p' : α}
    (hp : LinkIn id parent nodes c p) (hp' : LinkIn id parent nodes c p') : p = p' :=
  List.inj_on_of_nodup_map h.nodup hp.2.1 hp'.2.1
    (Option.some.inj (hp.2.2.symm.trans hp'.2.2))

/-- Of two children of one node, none stands below the other. -/
theorem Layered.not_below_sibling (h : Layered id parent depth nodes) {c' : α}
    (hc : LinkIn id parent nodes c m) (hc' : LinkIn id parent nodes c' m) :
    ¬Relation.TransGen (LinkIn id parent nodes) c c' := by
  intro hbelow
  obtain ⟨x, hlink, hreach⟩ := Relation.TransGen.head'_iff.mp hbelow
  have hx : x = m := h.link_unique hlink hc
  rw [hx] at hreach
  have hdeeper := h.deeper hc'
  rcases Relation.reflTransGen_iff_eq_or_transGen.mp hreach with heq | hup
  · rw [heq] at hdeeper
    exact lt_irrefl _ hdeeper
  · exact lt_asymm hdeeper (h.depth_lt hup)

/-- Below a node stand its children and what stands below them. -/
theorem mem_below_iff : d ∈ below id parent nodes m ↔
    ∃ c, LinkIn id parent nodes c m ∧ (d = c ∨ d ∈ below id parent nodes c) := by
  simp only [mem_below]
  constructor
  · intro hbelow
    obtain ⟨c, hreach, hlink⟩ := Relation.TransGen.tail'_iff.mp hbelow
    refine ⟨c, hlink, ?_⟩
    rcases Relation.reflTransGen_iff_eq_or_transGen.mp hreach with heq | hup
    · exact .inl heq.symm
    · exact .inr hup
  · rintro ⟨c, hlink, rfl | hup⟩
    · exact .single hlink
    · exact hup.tail hlink

end Forest

/-! ## The recursion -/

section Totals

variable [DecidableEq κ] {id : α → κ} {parent : α → Option κ} {depth : α → Nat}
  {own extra : α → M} {nodes : List α} {m c : α}

theorem ownAmounts_of_mem (hnodup : (nodes.map id).Nodup) (hm : m ∈ nodes) :
    ownAmounts id own nodes (id m) = some (own m) := by
  have hfold : ∀ (nodes : List α) (amounts : κ → Option M), (nodes.map id).Nodup →
      (m ∈ nodes ∨ id m ∉ nodes.map id ∧ amounts (id m) = some (own m)) →
      nodes.foldl (fun amounts m => Function.update amounts (id m) (some (own m))) amounts
        (id m) = some (own m) := by
    intro nodes
    induction nodes with
    | nil => exact fun _ _ h => h.elim (fun hm => nomatch hm) And.right
    | cons a nodes ih =>
        intro amounts hnodup h
        rw [List.map_cons, List.nodup_cons] at hnodup
        refine ih _ hnodup.2 ?_
        rcases h with hm | ⟨hnot, hamount⟩
        · rcases List.mem_cons.mp hm with rfl | hm
          · exact .inr ⟨hnodup.1, Function.update_self ..⟩
          · exact .inl hm
        · rw [List.map_cons, List.mem_cons, not_or] at hnot
          exact .inr ⟨hnot.2, (Function.update_of_ne hnot.1 ..).trans hamount⟩
  exact hfold nodes _ hnodup (.inl hm)

variable [AddCommMonoid M]

theorem passUp_of_ne {amounts : κ → Option M} {k : κ} (h : parent m ≠ some k) :
    passUp id parent extra m amounts k = amounts k := by
  unfold passUp
  cases hp : parent m with
  | none => rfl
  | some p =>
      rw [hp] at h
      cases hamount : amounts p with
      | none => simp only [hamount]
      | some amount =>
          simp only [hamount]
          exact Function.update_of_ne (fun heq => h (congrArg some heq.symm)) ..

theorem passUp_parent {amounts : κ → Option M} {k : κ} {amount : M} (h : parent m = some k)
    (hk : amounts k = some amount) : passUp id parent extra m amounts k =
      some (amount + ((amounts (id m)).getD 0 + extra m)) := by
  simp only [passUp, h, hk, Function.update_self]

/-- The pass over the end of a list, in which no parent stands after its child. -/
theorem passUp_suffix {amounts : κ → Option M} {rest : List α}
    (hparents : rest.Pairwise fun a b => parent a ≠ some (id b))
    (hself : ∀ a ∈ rest, parent a ≠ some (id a)) {k : κ} {amount : M}
    (hk : amounts k = some amount) :
    rest.foldr (passUp id parent extra) amounts k =
      some (amount + ((rest.filter fun c => parent c = some k).map fun c =>
        (rest.foldr (passUp id parent extra) amounts (id c)).getD 0 + extra c).sum) := by
  induction rest with
  | nil => simpa using hk
  | cons a rest ih =>
      rw [List.pairwise_cons] at hparents
      have ih := ih hparents.2 fun b hb => hself b (List.mem_cons_of_mem _ hb)
      rw [List.foldr_cons]
      generalize rest.foldr (passUp id parent extra) amounts = passed at ih ⊢
      -- what the first node passes on goes to none of the nodes that have been walked
      have hsame : ∀ c ∈ a :: rest, passUp id parent extra a passed (id c) = passed (id c) := by
        intro c hc
        rcases List.mem_cons.mp hc with rfl | hc
        · exact passUp_of_ne (hself c (List.mem_cons_self ..))
        · exact passUp_of_ne (hparents.1 c hc)
      have hsum : (((a :: rest).filter fun c => parent c = some k).map fun c =>
            (passUp id parent extra a passed (id c)).getD 0 + extra c) =
          ((a :: rest).filter fun c => parent c = some k).map fun c =>
            (passed (id c)).getD 0 + extra c :=
        List.map_congr_left fun c hc => by rw [hsame c (List.mem_of_mem_filter hc)]
      rw [hsum]
      by_cases ha : parent a = some k
      · rw [passUp_parent ha ih, List.filter_cons_of_pos (by simpa using ha), List.map_cons,
          List.sum_cons, add_assoc, add_comm (List.sum _)]
      · rw [passUp_of_ne ha, List.filter_cons_of_neg (by simpa using ha), ih]

/-- A node has its own amount and what its children pass on. -/
theorem Layered.total_eq (h : Layered id parent depth nodes) (hm : m ∈ nodes) :
    passedUp id parent own extra nodes (id m) = some (total id parent own extra nodes m) ∧
      total id parent own extra nodes m = own m +
        ((nodes.filter fun c => parent c = some (id m)).map fun c =>
          total id parent own extra nodes c + extra c).sum := by
  have hparents : nodes.Pairwise fun a b => parent a ≠ some (id b) :=
    h.sorted.imp_of_mem fun ha hb hdepth => h.parent_ne ha hb hdepth
  have hself : ∀ a ∈ nodes, parent a ≠ some (id a) := fun a ha => h.parent_ne ha ha (le_refl _)
  have hpassed : passedUp id parent own extra nodes (id m) =
      some (own m + ((nodes.filter fun c => parent c = some (id m)).map fun c =>
        total id parent own extra nodes c + extra c).sum) :=
    passUp_suffix hparents hself (ownAmounts_of_mem h.nodup hm)
  have htotal := congrArg (Option.getD · 0) hpassed
  exact ⟨hpassed.trans (congrArg some htotal.symm), htotal⟩

/-- A sum over the nodes below one, child by child. -/
theorem Layered.sum_below (h : Layered id parent depth nodes) (hm : m ∈ nodes) (f : α → M) :
    ∑ d ∈ below id parent nodes m, f d =
      ((nodes.filter fun c => parent c = some (id m)).map fun c =>
        f c + ∑ d ∈ below id parent nodes c, f d).sum := by
  classical
  set children := nodes.filter fun c => parent c = some (id m) with hchildren
  have hlink : ∀ c, c ∈ children ↔ LinkIn id parent nodes c m := by
    intro c
    rw [hchildren, List.mem_filter, decide_eq_true_eq]
    exact ⟨fun ⟨hc, hparent⟩ => ⟨hc, hm, hparent⟩, fun ⟨hc, _, hparent⟩ => ⟨hc, hparent⟩⟩
  have hnodup : children.Nodup := (List.Nodup.of_map _ h.nodup).filter _
  have hbelow : below id parent nodes m =
      children.toFinset.biUnion fun c => insert c (below id parent nodes c) := by
    ext d
    simp only [mem_below_iff (m := m), Finset.mem_biUnion, List.mem_toFinset, hlink,
      Finset.mem_insert]
  have hdisjoint : (children.toFinset : Set α).PairwiseDisjoint
      fun c => insert c (below id parent nodes c) := by
    intro c hc c' hc' hne
    have hc := (hlink c).mp (List.mem_toFinset.mp hc)
    have hc' := (hlink c').mp (List.mem_toFinset.mp hc')
    refine Finset.disjoint_left.mpr fun d hd hd' => ?_
    have hup : Relation.ReflTransGen (LinkIn id parent nodes) d c :=
      (Finset.mem_insert.mp hd).elim (fun heq => heq ▸ .refl)
        fun hd => (mem_below.mp hd).to_reflTransGen
    have hup' : Relation.ReflTransGen (LinkIn id parent nodes) d c' :=
      (Finset.mem_insert.mp hd').elim (fun heq => heq ▸ .refl)
        fun hd => (mem_below.mp hd).to_reflTransGen
    -- links lead upward in one way, so one child would stand below the other
    have hunique : Relator.RightUnique (LinkIn id parent nodes) :=
      fun _ _ _ hl hl' => h.link_unique hl hl'
    rcases hup.total_of_right_unique hunique hup' with hreach | hreach
    · rcases Relation.reflTransGen_iff_eq_or_transGen.mp hreach with heq | hbelow
      · exact hne heq.symm
      · exact h.not_below_sibling hc hc' hbelow
    · rcases Relation.reflTransGen_iff_eq_or_transGen.mp hreach with heq | hbelow
      · exact hne heq
      · exact h.not_below_sibling hc' hc hbelow
  rw [hbelow, Finset.sum_biUnion hdisjoint, List.sum_toFinset _ hnodup]
  refine congrArg List.sum (List.map_congr_left fun c _ => Finset.sum_insert fun hc => ?_)
  exact lt_irrefl _ (h.depth_lt (mem_below.mp hc))

/-- A node ends with its own amount and everything below it. -/
theorem Layered.total_eq_sum (h : Layered id parent depth nodes) (hm : m ∈ nodes) :
    total id parent own extra nodes m =
      own m + ∑ d ∈ below id parent nodes m, (own d + extra d) := by
  obtain ⟨bound, hbound⟩ := (nodes.map depth).toFinset.exists_le
  have hbound : ∀ m ∈ nodes, depth m ≤ bound := fun m hm =>
    hbound _ (List.mem_toFinset.mpr (List.mem_map_of_mem hm))
  -- by induction from the deepest nodes upward
  have hheight : ∀ height, ∀ m ∈ nodes, bound ≤ depth m + height →
      total id parent own extra nodes m =
        own m + ∑ d ∈ below id parent nodes m, (own d + extra d) := by
    intro height
    induction height with
    | zero =>
        intro m hm hheight
        rw [(h.total_eq hm).2, h.sum_below hm]
        have hleaf : (nodes.filter fun c => parent c = some (id m)) = [] := by
          refine List.filter_eq_nil_iff.mpr fun c hc => ?_
          rw [decide_eq_true_eq]
          exact h.parent_ne hc hm ((hbound c hc).trans hheight)
        rw [hleaf]
        rfl
    | succ height ih =>
        intro m hm hheight
        rw [(h.total_eq hm).2, h.sum_below hm]
        refine congrArg (own m + ·) (congrArg List.sum (List.map_congr_left fun c hc => ?_))
        obtain ⟨hc, hparent⟩ := List.mem_filter.mp hc
        have hdeeper := h.deeper ⟨hc, hm, of_decide_eq_true hparent⟩
        rw [ih c hc (by omega), add_right_comm]
  exact hheight bound m hm (Nat.le_add_left ..)

end Totals

end Refearn.Support
