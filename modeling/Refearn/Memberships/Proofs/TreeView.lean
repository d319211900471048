import Refearn.Memberships.Proofs.Uplines
import Refearn.Memberships.TreeView
/-!
# The totals of the tree view

A member's team size and subtree revenue are those of the members below it, as far as they
are returned; and what is returned holds the sponsor of each member, if the scope does.
-/

namespace Refearn.Memberships

open Support Engine

/-- The approved revenue of a member in a month. -/
def monthRevenue (db : Db) (tenantId : Uuid) (month : String) (id : Uuid) : Int :=
  (((Reports.approvedSales db tenantId month).filter fun s => s.sellerMembershipId = id).map
    Sale.amountCents).sum

/-- The members of a list that stand below a member. -/
noncomputable def TreeDb.team (db : TreeDb) (members : List MembershipRow) (m : MembershipRow) :
    Finset MembershipRow := by
  classical
  exact members.toFinset.filter fun d => db.StandsBelow d m

/-- The figures of the returned members are those of their teams among the members, and those
of their children with what is their own. -/
structure TotalsRight (db : TreeDb) (revenue : Uuid → Int) (members : List MembershipRow)
    (items : List TreeNode) : Prop where
  ids : (items.map TreeNode.id).Perm (members.map MembershipRow.id)
  team : ∀ m ∈ members, ∀ item ∈ items, item.id = m.id →
    item.teamSize = (db.team members m).card ∧ item.revenueCents = revenue m.id ∧
      item.subtreeRevenueCents = revenue m.id + ∑ d ∈ db.team members m, revenue d.id
  recursion : ∀ item ∈ items,
    item.teamSize = ((items.filter fun child => child.parentId = some item.id).map fun child =>
      child.teamSize + 1).sum ∧
    item.subtreeRevenueCents = item.revenueCents +
      ((items.filter fun child => child.parentId = some item.id).map
        TreeNode.subtreeRevenueCents).sum

/-- Every row is placed under its sponsor or as a root. -/
def IsForest (db : TreeDb) : Prop :=
  ∀ m ∈ db.memberships, PlacedIn db.memberships.rows m

theorem IsForest.treeInvariant {db : TreeDb} (h : IsForest db) : TreeInvariant ⟨db, []⟩ :=
  ⟨h, nofun⟩

/-! ## Figures -/

theorem TreeFigures.revenue_eq (f : TreeFigures) (id : Uuid) : f.revenue id =
    ((f.sales.filter fun s => s.sellerMembershipId = id).map Sale.amountCents).sum := by
  have hsum := sum_map_ite f.sales (fun s => decide (s.sellerMembershipId = id)) Sale.amountCents
  simp only [decide_eq_true_eq] at hsum
  exact (lookupSum_groupSums ..).trans hsum

theorem revenue_treeFigures (db : Db) (tenantId : Uuid) (month : String) (id : Uuid) :
    (treeFigures db tenantId month).revenue id = monthRevenue db tenantId month id :=
  TreeFigures.revenue_eq ..

/-- The sales of other members do not count for one that is returned. -/
theorem TreeFigures.revenue_ofMembers (f : TreeFigures) {returnedIds : List Uuid} {id : Uuid}
    (h : id ∈ returnedIds) : (f.ofMembers returnedIds).revenue id = f.revenue id := by
  rw [revenue_eq, revenue_eq, TreeFigures.ofMembers, List.filter_filter]
  refine congrArg (fun sales => (sales.map Sale.amountCents).sum)
    (List.filter_congr fun s _ => ?_)
  by_cases hs : s.sellerMembershipId = id
  · simp [hs, h]
  · simp [hs]

/-! ## Scopes -/

section Scope

variable {db : TreeDb} {tenantId : Uuid} {root : Option Uuid} {scope nodes : List MembershipRow}
  {m p d : MembershipRow}

theorem rowsOfTenant_sublist : (rowsOfTenant db tenantId).Sublist db.memberships.rows :=
  List.filter_sublist

theorem treeScope_sublist (h : treeScope db tenantId root = .ok scope) :
    scope.Sublist (rowsOfTenant db tenantId) := by
  unfold treeScope at h
  split at h
  · cases h
    exact .refl _
  · split at h
    · cases h
    · cases h
      exact List.filter_sublist

/-- A scope reaches down to the last member. -/
theorem IsForest.treeScope_down (hforest : IsForest db) (h : treeScope db tenantId root = .ok scope)
    (hd : d ∈ db.memberships) (hm : m ∈ scope) (hreach : db.Reaches d m) : d ∈ scope := by
  have hinv := hforest.treeInvariant
  have hmem := (treeScope_sublist h).mem hm
  have htenant : d ∈ rowsOfTenant db tenantId := by
    obtain ⟨-, hm⟩ := List.mem_filter.mp hmem
    refine List.mem_filter.mpr ⟨hd, ?_⟩
    rw [hinv.tenant_of_reaches hd hreach]
    exact hm
  unfold treeScope at h
  split at h
  · cases h
    exact htenant
  · split at h
    · cases h
    · rename_i r hfound
      cases h
      have hr : r ∈ db.memberships :=
        rowsOfTenant_sublist.mem (List.mem_of_find?_eq_some hfound)
      obtain ⟨hm, hbelow⟩ := List.mem_filter.mp hm
      have hup := (hinv.isDescendant_iff hr (rowsOfTenant_sublist.mem hm)).mp hbelow
      refine List.mem_filter.mpr ⟨htenant, ?_⟩
      exact (hinv.isDescendant_iff hr hd).mpr (hreach.trans hup)

/-! ## Totals -/

/-- Members in the order of their depth. -/
theorem IsForest.layered (hforest : IsForest db) (hmem : ∀ m ∈ nodes, m ∈ db.memberships)
    (hnodup : nodes.Nodup) (hsorted : nodes.Pairwise fun a b => a.depth ≤ b.depth) :
    Layered MembershipRow.id MembershipRow.sponsorMembershipId MembershipRow.depth nodes where
  nodup := hnodup.map_on fun a ha b hb hid => Table.eq_of_key (hmem a ha) (hmem b hb) hid
  sorted := hsorted
  deeper {c p} hlink := by
    obtain ⟨hc, hp, hparent⟩ := hlink
    have hunder := hforest.treeInvariant.under (hmem c hc) (sponsorOf_of_id (hmem p hp) hparent)
    omega

/-- Where the sponsors of members are kept, the links between the members are all links. -/
theorem below_eq_team (hmem : ∀ m ∈ nodes, m ∈ db.memberships)
    (hclosed : ∀ d ∈ nodes, ∀ m ∈ nodes, ∀ p, LinkedTo db.sponsorOf d p → db.Reaches p m →
      p ∈ nodes) (hm : m ∈ nodes) :
    below MembershipRow.id MembershipRow.sponsorMembershipId nodes m = db.team nodes m := by
  classical
  ext d
  rw [mem_below, TreeDb.team, Finset.mem_filter, List.mem_toFinset]
  constructor
  · intro hbelow
    obtain ⟨_, hlink, -⟩ := Relation.TransGen.head'_iff.mp hbelow
    refine ⟨hlink.1, Relation.TransGen.mono (fun c p hlink => ?_) d m hbelow⟩
    exact sponsorOf_of_id (hmem p hlink.2.1) hlink.2.2
  · rintro ⟨hd, hbelow⟩
    induction hbelow using Relation.TransGen.head_induction_on with
    | single hlink => exact .single ⟨hd, hm, (sponsorOf_eq_some hlink).2⟩
    | head hlink hrest ih =>
        have hp := hclosed _ hd m hm _ hlink hrest.to_reflTransGen
        exact .head ⟨hd, hp, (sponsorOf_eq_some hlink).2⟩ (ih hp)

/-- What a member ends with is its team and the revenue down to it. -/
theorem treeTotal_eq (f : TreeFigures)
    (h : Layered MembershipRow.id MembershipRow.sponsorMembershipId MembershipRow.depth nodes)
    (hm : m ∈ nodes) : treeTotal f nodes m =
      ((below MembershipRow.id MembershipRow.sponsorMembershipId nodes m).card,
        f.revenue m.id + ∑ d ∈ below MembershipRow.id MembershipRow.sponsorMembershipId nodes m,
          f.revenue d.id) := by
  unfold treeTotal
  rw [h.total_eq_sum hm]
  refine Prod.ext ?_ ?_
  · change 0 + AddMonoidHom.fst Nat Int _ = _
    rw [map_sum]
    simp
  · change f.revenue m.id + AddMonoidHom.snd Nat Int _ = _
    rw [map_sum]
    simp

/-- What a member ends with comes from those right below it. -/
theorem treeTotal_children (f : TreeFigures)
    (h : Layered MembershipRow.id MembershipRow.sponsorMembershipId MembershipRow.depth nodes)
    (hm : m ∈ nodes) : treeTotal f nodes m =
      (((nodes.filter fun c => c.sponsorMembershipId = some m.id).map fun c =>
          (treeTotal f nodes c).1 + 1).sum,
        f.revenue m.id +
          ((nodes.filter fun c => c.sponsorMembershipId = some m.id).map fun c =>
            (treeTotal f nodes c).2).sum) := by
  have hsum : ∀ l : List MembershipRow,
      (l.map fun c => treeTotal f nodes c + (1, 0)).sum =
        ((l.map fun c => (treeTotal f nodes c).1 + 1).sum,
          (l.map fun c => (treeTotal f nodes c).2).sum) := by
    intro l
    induction l with
    | nil => rfl
    | cons c l ih =>
        rw [List.map_cons, List.sum_cons, ih]
        exact Prod.ext rfl (congrArg (· + _) (add_zero _))
  have hchildren : treeTotal f nodes m = (0, f.revenue m.id) +
      ((nodes.filter fun c => c.sponsorMembershipId = some m.id).map fun c =>
        treeTotal f nodes c + (1, 0)).sum := (h.total_eq hm).2
  rw [hchildren, hsum]
  exact Prod.ext (Nat.zero_add _) rfl

/-- The totals of members whose sponsors are kept. -/
theorem IsForest.totalsRight (hforest : IsForest db)
    (hmem : ∀ m ∈ nodes, m ∈ db.memberships) (hnodup : nodes.Nodup)
    (hsorted : nodes.Pairwise fun a b => a.depth ≤ b.depth)
    (hclosed : ∀ d ∈ nodes, ∀ m ∈ nodes, ∀ p, LinkedTo db.sponsorOf d p → db.Reaches p m →
      p ∈ nodes) (users : Table User) (f : TreeFigures) {revenue : Uuid → Int}
    (hrevenue : ∀ m ∈ nodes, f.revenue m.id = revenue m.id) :
    TotalsRight db revenue nodes (nodes.map (treeNode users f nodes)) := by
  have hlayered := hforest.layered hmem hnodup hsorted
  constructor
  · rw [List.map_map]
    exact .refl _
  · intro m hm item hitem hid
    obtain ⟨m', hm', rfl⟩ := List.mem_map.mp hitem
    have hsame : m' = m := Table.eq_of_key (hmem m' hm') (hmem m hm) hid
    have hteam := below_eq_team hmem hclosed hm
    have htotal := treeTotal_eq f hlayered hm
    rw [hteam, hrevenue m hm] at htotal
    have hrevenues : ∑ d ∈ db.team nodes m, f.revenue d.id =
        ∑ d ∈ db.team nodes m, revenue d.id := by
      refine Finset.sum_congr rfl fun d hd => hrevenue d ?_
      rw [← hteam] at hd
      obtain ⟨_, hlink, -⟩ := Relation.TransGen.head'_iff.mp (mem_below.mp hd)
      exact hlink.1
    rw [hrevenues] at htotal
    rw [hsame]
    exact ⟨congrArg Prod.fst htotal, hrevenue m hm, congrArg Prod.snd htotal⟩
  · intro item hitem
    obtain ⟨m, hm, rfl⟩ := List.mem_map.mp hitem
    have htotal := treeTotal_children f hlayered hm
    rw [List.filter_map, List.map_map, List.map_map]
    exact ⟨congrArg Prod.fst htotal, congrArg Prod.snd htotal⟩

theorem TotalsRight.perm {nodes' : List MembershipRow} {revenue : Uuid → Int}
    {items : List TreeNode} (h : TotalsRight db revenue nodes items) (hperm : nodes.Perm nodes') :
    TotalsRight db revenue nodes' items where
  ids := h.ids.trans (hperm.map _)
  team m hm item hitem hid := by
    have hteam : db.team nodes' m = db.team nodes m := by
      classical
      unfold TreeDb.team
      rw [List.toFinset_eq_of_perm _ _ hperm]
    rw [hteam]
    exact h.team m (hperm.mem_iff.mpr hm) item hitem hid
  recursion := h.recursion

/-! ## Snapshots -/

theorem mem_inSnapshotOrder {rows : List MembershipRow} :
    m ∈ inSnapshotOrder rows ↔ m ∈ rows :=
  (List.perm_insertionSort ..).mem_iff

theorem inSnapshotOrder_sorted (rows : List MembershipRow) :
    (inSnapshotOrder rows).Pairwise fun a b => snapshotKey a ≤ snapshotKey b :=
  List.pairwise_insertionSort _ rows

theorem depth_le_of_snapshotKey {a b : MembershipRow} (h : snapshotKey a ≤ snapshotKey b) :
    a.depth ≤ b.depth := by
  rcases Prod.Lex.le_iff.mp h with hlt | ⟨heq, -⟩
  · exact le_of_lt hlt
  · exact le_of_eq heq

/-- What stands less deep than a row among the first ones is among them too. -/
theorem mem_take_inSnapshotOrder {rows : List MembershipRow} {n : Nat}
    (hd : d ∈ (inSnapshotOrder rows).take n) (hp : p ∈ rows) (hdepth : p.depth < d.depth) :
    p ∈ (inSnapshotOrder rows).take n := by
  have hsorted := inSnapshotOrder_sorted rows
  have hp := mem_inSnapshotOrder.mpr hp
  rw [← List.take_append_drop n (inSnapshotOrder rows)] at hsorted hp
  rcases List.mem_append.mp hp with hp | hp
  · exact hp
  · have hle := depth_le_of_snapshotKey ((List.pairwise_append.mp hsorted).2.2 d hd p hp)
    exact absurd hle (not_le.mpr hdepth)

/-- The first rows of a scope, with the sponsor of each that the scope has. -/
structure SnapshotRight (db : TreeDb) (revenue : Uuid → Int) (scope : List MembershipRow)
    (snapshot : TreeSnapshot) (returned : List MembershipRow) : Prop where
  within : ∀ m ∈ returned, m ∈ scope
  bounded : returned.length ≤ snapshot.limit
  closed : ∀ m ∈ returned, ∀ p ∈ scope, m.sponsorMembershipId = some p.id → p ∈ returned
  totals : TotalsRight db revenue returned snapshot.items
  complete : snapshot.complete = true ↔ ∀ m ∈ scope, m ∈ returned
  counted : snapshot.total = scope.length

/-- Of distinct rows of a list there are as many only if it has no others. -/
theorem length_eq_iff_forall_mem {rows : List MembershipRow} (hnodup : nodes.Nodup)
    (hrows : rows.Nodup) (hsub : ∀ m ∈ nodes, m ∈ rows) :
    nodes.length = rows.length ↔ ∀ m ∈ rows, m ∈ nodes := by
  constructor
  · intro hlength m hm
    exact ((hnodup.subperm hsub).perm_of_length_le (le_of_eq hlength.symm)).mem_iff.mpr hm
  · intro hall
    exact le_antisymm (hnodup.subperm hsub).length_le (hrows.subperm hall).length_le

/-- The rows that a snapshot returns are the first ones of the scope. -/
theorem mem_returned (hsub : ∀ m ∈ scope, m ∈ rowsOfTenant db tenantId) :
    m ∈ inSnapshotOrder ((rowsOfTenant db tenantId).filter fun m => decide
      (m.id ∈ ((inSnapshotOrder scope).take TREE_SNAPSHOT_LIMIT).map MembershipRow.id)) ↔
      m ∈ (inSnapshotOrder scope).take TREE_SNAPSHOT_LIMIT := by
  rw [mem_inSnapshotOrder, List.mem_filter, decide_eq_true_eq]
  constructor
  · rintro ⟨hm, hid⟩
    obtain ⟨s, hs, hid⟩ := List.mem_map.mp hid
    have hscope := hsub s (mem_inSnapshotOrder.mp (List.mem_of_mem_take hs))
    have hsame : s = m := Table.eq_of_key (rowsOfTenant_sublist.mem hscope)
      (rowsOfTenant_sublist.mem hm) hid
    rw [← hsame]
    exact hs
  · intro hm
    exact ⟨hsub m (mem_inSnapshotOrder.mp (List.mem_of_mem_take hm)), List.mem_map_of_mem hm⟩

theorem IsForest.snapshotRight (hforest : IsForest db)
    (hscope : treeScope db tenantId root = .ok scope) {store : Db} {month : String}
    (hnodes : nodes = inSnapshotOrder ((rowsOfTenant db tenantId).filter fun m => decide
      (m.id ∈ ((inSnapshotOrder scope).take TREE_SNAPSHOT_LIMIT).map MembershipRow.id)))
    {items : List TreeNode} (hitems : items = nodes.map (treeNode store.registry.users
      ((treeFigures store tenantId month).ofMembers (nodes.map MembershipRow.id)) nodes)) :
    SnapshotRight db (monthRevenue store tenantId month) scope
      { items, complete := items.length == scope.length, total := scope.length,
        limit := TREE_SNAPSHOT_LIMIT } nodes := by
  have hsub := treeScope_sublist hscope
  have hmem : ∀ m, m ∈ nodes ↔ m ∈ (inSnapshotOrder scope).take TREE_SNAPSHOT_LIMIT := by
    intro m
    rw [hnodes]
    exact mem_returned fun m hm => hsub.mem hm
  have hwithin : ∀ m ∈ nodes, m ∈ scope := fun m hm =>
    mem_inSnapshotOrder.mp (List.mem_of_mem_take ((hmem m).mp hm))
  have hrows : ∀ m ∈ scope, m ∈ db.memberships := fun m hm =>
    (hsub.trans rowsOfTenant_sublist).mem hm
  have hscopeNodup := (hsub.trans rowsOfTenant_sublist).nodup db.memberships.rows_nodup
  have hnodup : nodes.Nodup := by
    rw [hnodes]
    exact (List.perm_insertionSort ..).nodup_iff.mpr
      ((rowsOfTenant_sublist.nodup db.memberships.rows_nodup).filter _)
  -- the sponsor stands less deep, so it comes before
  have hclosed : ∀ m ∈ nodes, ∀ p ∈ scope, m.sponsorMembershipId = some p.id → p ∈ nodes := by
    intro m hm p hp hsponsor
    have hunder := hforest.treeInvariant.under (hrows m (hwithin m hm))
      (sponsorOf_of_id (hrows p hp) hsponsor)
    exact (hmem p).mpr (mem_take_inSnapshotOrder ((hmem m).mp hm) hp (by omega))
  refine ⟨hwithin, ?_, hclosed, ?_, ?_, rfl⟩
  · have hlength := (hnodup.subperm fun m hm => (hmem m).mp hm).length_le
    exact hlength.trans (List.length_take_le ..)
  · rw [hitems]
    refine hforest.totalsRight (fun m hm => hrows m (hwithin m hm)) hnodup ?_ ?_ _ _ ?_
    · rw [hnodes]
      exact (inSnapshotOrder_sorted _).imp fun hle => depth_le_of_snapshotKey hle
    · intro d hd m hm p hlink hreach
      obtain ⟨hp, hsponsor⟩ := sponsorOf_eq_some hlink
      exact hclosed d hd p (hforest.treeScope_down hscope hp (hwithin m hm) hreach) hsponsor
    · intro m hm
      rw [TreeFigures.revenue_ofMembers _ (List.mem_map_of_mem hm)]
      exact revenue_treeFigures ..
  · have hlength : items.length = nodes.length := by rw [hitems, List.length_map]
    rw [beq_iff_eq, hlength]
    exact length_eq_iff_forall_mem hnodup hscopeNodup hwithin

end Scope

/-! ## Result -/

/-- The totals of the tree view are those of the members below, in whatever order members of
one depth come; the snapshot keeps sponsors, and its totals are those of what it returns. -/
theorem treeTotals_right {db : TreeDb} (hforest : IsForest db) (env : Env) (store : Db)
    (now : Instant) {tenantId : Uuid} {root : Option Uuid} {tenant : Tenant}
    {scope : List MembershipRow}
    (htenant : store.registry.tenants.find? tenantId = some tenant)
    (hscope : treeScope db tenantId root = .ok scope) :
    (∀ m ∈ scope, db.team scope m = db.team db.memberships.rows m) ∧
      (∀ order, ∃ items, tree env order db store now tenantId root = .ok items ∧
        TotalsRight db (monthRevenue store tenantId (env.monthKey now tenant.timezone)) scope
          items) ∧
      ∃ snapshot returned,
        readMemberTreeSnapshot env db store now tenantId root = .ok snapshot ∧
          SnapshotRight db (monthRevenue store tenantId (env.monthKey now tenant.timezone)) scope
            snapshot returned := by
  have hsub := (treeScope_sublist hscope).trans rowsOfTenant_sublist
  have hmem : ∀ m ∈ scope, m ∈ db.memberships := fun m hm => hsub.mem hm
  have hnodup : scope.Nodup := hsub.nodup db.memberships.rows_nodup
  refine ⟨fun m hm => ?_, fun order => ?_, ?_⟩
  · classical
    ext d
    simp only [TreeDb.team, Finset.mem_filter, List.mem_toFinset, and_congr_left_iff]
    intro hbelow
    refine ⟨hmem d, fun hd => ?_⟩
    exact hforest.treeScope_down hscope hd hm hbelow.to_reflTransGen
  · have hperm := order.perm scope
    have hnodes : ∀ m ∈ order.order scope, m ∈ db.memberships := fun m hm =>
      hmem m (hperm.mem_iff.mp hm)
    refine ⟨_, ?_, (hforest.totalsRight hnodes (hperm.nodup_iff.mpr hnodup) ?_ ?_
      store.registry.users (treeFigures store tenantId (env.monthKey now tenant.timezone))
      fun m _ => revenue_treeFigures ..).perm hperm⟩
    · simp only [tree, htenant, hscope]
      rfl
    · exact (order.sorted scope).imp fun hle => hle.elim le_of_lt fun hle => le_of_eq hle.1
    · intro d hd m hm p hlink hreach
      refine hperm.mem_iff.mpr (hforest.treeScope_down hscope (sponsorOf_eq_some hlink).1
        (hperm.mem_iff.mp hm) hreach)
  · refine ⟨_, _, ?_, hforest.snapshotRight hscope rfl rfl⟩
    simp only [readMemberTreeSnapshot, htenant, hscope]
    rfl

namespace TreeViewDemo

/-- By depth, time and identifier. -/
def inOrder : RowOrder where
  order := inSnapshotOrder
  perm rows := List.perm_insertionSort _ rows
  sorted rows := (inSnapshotOrder_sorted rows).imp fun hle => by
    rcases Prod.Lex.le_iff.mp hle with hlt | ⟨heq, hle⟩
    · exact .inl hlt
    · refine .inr ⟨heq, ?_⟩
      rcases Prod.Lex.le_iff.mp hle with hlt | ⟨heq, -⟩
      · exact le_of_lt hlt
      · exact le_of_eq heq

theorem grown_isForest : IsForest Demo.grown.db :=
  (treeInvariant_of_reachable ((Reachable.start Demo.planted_initial).run Demo.growing)).placed

end TreeViewDemo

/-- Three members in a line, seen from the second, which has one below it. -/
theorem treeTotals_right_line :
    ∃ scope, treeScope Demo.grown.db 1 (some 101) = .ok scope ∧
      (tree Engine.Demo.env TreeViewDemo.inOrder Demo.grown.db Engine.Demo.empty 0 1
        (some 101)).toOption.map (List.map fun node => (node.id, node.teamSize)) =
          some [(101, 1), (102, 0)] ∧
      ∃ snapshot returned,
        readMemberTreeSnapshot Engine.Demo.env Demo.grown.db Engine.Demo.empty 0 1 (some 101) =
            .ok snapshot ∧
          SnapshotRight Demo.grown.db (monthRevenue Engine.Demo.empty 1 "2026-01") scope snapshot
            returned := by
  have hfound : (treeScope Demo.grown.db 1 (some 101)).toOption.isSome = true := by
    decide
  have htenant : Engine.Demo.empty.registry.tenants.find? 1 = some Engine.Demo.tenant := by
    decide
  cases hscope : treeScope Demo.grown.db 1 (some 101) with
  | error e =>
      rw [hscope] at hfound
      cases hfound
  | ok scope =>
      have hright := treeTotals_right TreeViewDemo.grown_isForest Engine.Demo.env
        Engine.Demo.empty 0 htenant hscope
      exact ⟨scope, rfl, by decide +kernel, hright.2.2⟩

end Refearn.Memberships
