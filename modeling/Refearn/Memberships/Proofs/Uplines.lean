import Refearn.Engine.Run
import Refearn.Memberships.Proofs.Paths
/-!
# The two readings of the tree

The descendants that the path texts name are the members that reach a member through sponsor
links, and the chain that the engine walks is the upline of the links.
-/

namespace Refearn.Memberships

open Support Support.Transaction Engine

/-- The row of a member's sponsor. -/
def TreeDb.sponsorOf (db : TreeDb) (m : MembershipRow) : Option MembershipRow :=
  m.sponsorMembershipId.bind db.memberships.find?

/-- Sponsor links lead from the first row to the second. -/
def TreeDb.Reaches (db : TreeDb) : MembershipRow → MembershipRow → Prop :=
  Relation.ReflTransGen (LinkedTo db.sponsorOf)

/-- At least one sponsor link leads from the first row to the second. -/
def TreeDb.StandsBelow (db : TreeDb) : MembershipRow → MembershipRow → Prop :=
  Relation.TransGen (LinkedTo db.sponsorOf)

section Tree

variable {w : TreeWorld} {m p a : MembershipRow}

theorem sponsorOf_eq_some {db : TreeDb} (h : db.sponsorOf m = some p) :
    p ∈ db.memberships ∧ m.sponsorMembershipId = some p.id := by
  unfold TreeDb.sponsorOf at h
  obtain ⟨sponsorId, hsponsor, hfound⟩ := Option.bind_eq_some_iff.mp h
  obtain ⟨hp, hid⟩ := Table.find?_eq_some.mp hfound
  have heq : p.id = sponsorId := hid
  rw [hsponsor, heq]
  exact ⟨hp, rfl⟩

theorem sponsorOf_of_id {db : TreeDb} (hp : p ∈ db.memberships)
    (h : m.sponsorMembershipId = some p.id) : db.sponsorOf m = some p := by
  unfold TreeDb.sponsorOf
  rw [h]
  exact Table.find?_key hp

/-- A row under a sponsor, read off the row it links to. -/
theorem TreeInvariant.under (h : TreeInvariant w) (hm : m ∈ w.db.memberships)
    (hlink : w.db.sponsorOf m = some p) : m.tenantId = p.tenantId ∧
      m.path = p.path ++ "." ++ ltreeLabel m.id ∧ m.depth = p.depth + 1 := by
  obtain ⟨hp, hid⟩ := sponsorOf_eq_some hlink
  rcases h.placed m hm with ⟨hroot, -⟩ | ⟨q, hq, hid', hplaced⟩
  · rw [hroot] at hid
    cases hid
  · rw [hid] at hid'
    have hsame : p = q := Table.eq_of_key hp hq (Option.some.inj hid')
    rw [hsame]
    exact hplaced

theorem TreeInvariant.at_root (h : TreeInvariant w) (hm : m ∈ w.db.memberships)
    (hnone : w.db.sponsorOf m = none) :
    m.sponsorMembershipId = none ∧ m.path = ltreeLabel m.id ∧ m.depth = 0 := by
  rcases h.placed m hm with hroot | ⟨q, hq, hid, -⟩
  · exact hroot
  · rw [sponsorOf_of_id hq hid] at hnone
    cases hnone

/-- The rows form a tree with materialised paths. -/
theorem TreeInvariant.pathTree (h : TreeInvariant w) :
    PathTree (· ∈ w.db.memberships) w.db.sponsorOf (fun m => labelChars m.id)
      (fun m => pathLabels m.path) where
  parent_mem _ hlink := (sponsorOf_eq_some hlink).1
  path_root hm hnone := by
    obtain ⟨-, hpath, -⟩ := h.at_root hm hnone
    rw [hpath, pathLabels_label]
  path_child hm hlink := by
    obtain ⟨-, hpath, -⟩ := h.under hm hlink
    rw [hpath, pathLabels_append]
  label_inj hm hm' hlabel := Table.eq_of_key hm hm' (labelChars_inj hlabel)

/-- The texts agree with the links. -/
theorem TreeInvariant.isDescendant_iff (h : TreeInvariant w) (ha : a ∈ w.db.memberships)
    (hm : m ∈ w.db.memberships) :
    isDescendant m.path a.path = true ↔ w.db.Reaches m a := by
  unfold isDescendant
  rw [List.isPrefixOf_iff_prefix]
  exact h.pathTree.prefix_iff ha hm

theorem TreeInvariant.tenant_of_reaches (h : TreeInvariant w) (hm : m ∈ w.db.memberships)
    (hreach : w.db.Reaches m a) : m.tenantId = a.tenantId := by
  induction hreach with
  | refl => rfl
  | tail hreach hlink ih =>
      have hmid := h.pathTree.reach_mem hm hreach
      exact ih.trans (h.under hmid hlink).1

theorem TreeInvariant.length_upline (h : TreeInvariant w) (hm : m ∈ w.db.memberships)
    {chain : List MembershipRow} (hchain : Upline w.db.sponsorOf m chain) :
    chain.length = m.depth + 1 := by
  induction hchain with
  | root hnone =>
      have hdepth := (h.at_root hm hnone).2.2
      rw [hdepth]
      rfl
  | child hlink hrest ih =>
      have hdepth := (h.under hm hlink).2.2
      have hlength := ih (sponsorOf_eq_some hlink).1
      rw [List.length_cons, hlength, hdepth]

/-- Below a member stand those that reach it and are not it. -/
theorem standsBelow_iff (h : TreeInvariant w) (hm : m ∈ w.db.memberships) :
    w.db.StandsBelow m a ↔ w.db.Reaches m a ∧ m ≠ a := by
  constructor
  · intro hbelow
    refine ⟨hbelow.to_reflTransGen, fun heq => ?_⟩
    rw [← heq] at hbelow
    exact h.pathTree.acyclic hm hbelow
  · rintro ⟨hreach, hne⟩
    rcases Relation.reflTransGen_iff_eq_or_transGen.mp hreach with heq | hbelow
    · exact absurd heq.symm hne
    · exact hbelow

/-! ## The engine's chain -/

theorem find?_membersRead (memberships : Table MembershipRow) (id : Uuid) :
    (membersRead memberships).find? id =
      (memberships.find? id).map MembershipRow.member := by
  change (memberships.rows.map MembershipRow.member).find? _ = _
  rw [List.find?_map]
  rfl

/-- The engine walks the upline, as far as the plan is deep. -/
theorem uplineChain_eq_take {db : TreeDb} (rest : Registry) {chain : List MembershipRow}
    (hchain : Upline db.sponsorOf m chain) (hm : m ∈ db.memberships)
    (hroots : ∀ r ∈ db.memberships, db.sponsorOf r = none → r.sponsorMembershipId = none)
    (depth : Nat) :
    uplineChain (db.registry rest) depth (some m.id) =
      .ok ((chain.take depth).map MembershipRow.member) := by
  induction hchain generalizing depth with
  | @root m hnone =>
      cases depth with
      | zero => rfl
      | succ depth =>
          have hfound : (db.registry rest).memberships.find? m.id = some m.member := by
            change (membersRead db.memberships).find? m.id = _
            rw [find?_membersRead, show db.memberships.find? m.id = some m from
              Table.find?_key hm]
            rfl
          have hstop : uplineChain (db.registry rest) depth m.member.sponsorMembershipId =
              .ok [] := by
            rw [show m.member.sponsorMembershipId = none from hroots m hm hnone]
            cases depth with
            | zero => rfl
            | succ depth => rfl
          rw [uplineChain, hfound]
          change (do
            let tail ← uplineChain (db.registry rest) depth m.member.sponsorMembershipId
            pure (m.member :: tail)) = _
          rw [hstop, List.take_succ_cons, List.take_nil]
          rfl
  | @child m p chain hlink hrest ih =>
      cases depth with
      | zero => rfl
      | succ depth =>
          obtain ⟨hp, hid⟩ := sponsorOf_eq_some hlink
          have hfound : (db.registry rest).memberships.find? m.id = some m.member := by
            change (membersRead db.memberships).find? m.id = _
            rw [find?_membersRead, show db.memberships.find? m.id = some m from
              Table.find?_key hm]
            rfl
          have htail : uplineChain (db.registry rest) depth m.member.sponsorMembershipId =
              .ok ((chain.take depth).map MembershipRow.member) := by
            rw [show m.member.sponsorMembershipId = some p.id from hid]
            exact ih hp depth
          rw [uplineChain, hfound]
          change (do
            let tail ← uplineChain (db.registry rest) depth m.member.sponsorMembershipId
            pure (m.member :: tail)) = _
          rw [htail, List.take_succ_cons, List.map_cons]
          rfl

/-! ## The team that the ranks count -/

/-- The identifiers on a path are those of the upline, the root first. -/
theorem TreeInvariant.member_path (h : TreeInvariant w) (hm : m ∈ w.db.memberships)
    {chain : List MembershipRow} (hchain : Upline w.db.sponsorOf m chain) :
    m.member.path = (chain.map MembershipRow.id).reverse := by
  have hpath := h.pathTree.path_eq_upline hm hchain
  calc
    m.member.path = (pathLabels m.path).map labelId := rfl
    _ = ((chain.map fun m => labelChars m.id).reverse).map labelId := by rw [hpath]
    _ = (chain.map MembershipRow.id).reverse := by
      rw [List.map_reverse, List.map_map]
      refine congrArg List.reverse (List.map_congr_left fun r _ => ?_)
      exact labelId_labelChars r.id

/-- The paths as lists of identifiers form the same tree. -/
theorem TreeInvariant.idTree (h : TreeInvariant w) :
    PathTree (· ∈ w.db.memberships) w.db.sponsorOf MembershipRow.id
      (fun m => m.member.path) where
  parent_mem _ hlink := (sponsorOf_eq_some hlink).1
  path_root {m} hm hnone := by
    have hchain : Upline w.db.sponsorOf m [m] := .root hnone
    exact h.member_path hm hchain
  path_child {m p} hm hlink := by
    obtain ⟨chain, hchain⟩ := h.pathTree.exists_upline (sponsorOf_eq_some hlink).1
    rw [h.member_path hm (.child hlink hchain), h.member_path (sponsorOf_eq_some hlink).1 hchain,
      List.map_cons, List.reverse_cons]
  label_inj hm hm' hid := Table.eq_of_key hm hm' hid

/-- The members that `Ranks.teamSize` counts. -/
theorem TreeInvariant.counted_iff (h : TreeInvariant w) (ha : a ∈ w.db.memberships)
    (hm : m ∈ w.db.memberships) :
    (m.member.tenantId = a.tenantId ∧ a.member.path.isPrefixOf m.member.path ∧
      m.member.id ≠ a.id) ↔ w.db.StandsBelow m a := by
  have hbegins : a.member.path.isPrefixOf m.member.path = true ↔ w.db.Reaches m a := by
    rw [List.isPrefixOf_iff_prefix]
    exact h.idTree.prefix_iff ha hm
  rw [standsBelow_iff h hm, hbegins]
  constructor
  · rintro ⟨-, hreach, hid⟩
    exact ⟨hreach, fun heq => hid (congrArg MembershipRow.id heq)⟩
  · rintro ⟨hreach, hne⟩
    have htenant := h.tenant_of_reaches hm hreach
    exact ⟨htenant, hreach, fun hid => hne (Table.eq_of_key hm ha hid)⟩

/-! ## Every reachable tree -/

/-- The paths are the sponsor links, and both readings of the tree agree. -/
structure TreeHolds (db : TreeDb) : Prop where
  at_root : ∀ m ∈ db.memberships, m.sponsorMembershipId = none →
    m.path = ltreeLabel m.id ∧ m.depth = 0
  under_sponsor : ∀ m ∈ db.memberships, ∀ sponsorId, m.sponsorMembershipId = some sponsorId →
    ∃ p ∈ db.memberships, p.id = sponsorId ∧ m.tenantId = p.tenantId ∧
      m.path = p.path ++ "." ++ ltreeLabel m.id ∧ m.depth = p.depth + 1
  acyclic : ∀ m ∈ db.memberships, ¬db.StandsBelow m m
  descendants : ∀ a ∈ db.memberships, ∀ m ∈ db.memberships,
    isDescendant m.path a.path = true ↔ db.Reaches m a
  upline : ∀ m ∈ db.memberships, ∃ chain, Upline db.sponsorOf m chain ∧
    chain.length = m.depth + 1 ∧ (∀ a, a ∈ chain ↔ db.Reaches m a) ∧
      ∀ rest depth, uplineChain (db.registry rest) depth (some m.id) =
        .ok ((chain.take depth).map MembershipRow.member)
  counted : ∀ rest, ∀ a ∈ db.memberships,
    ∃ team : List MembershipRow, team.Sublist db.memberships.rows ∧
      (∀ m ∈ db.memberships, m ∈ team ↔ db.StandsBelow m a) ∧
        Ranks.teamSize (db.registry rest) a.tenantId a.id a.member.path = team.length

/-- In every reachable tree the paths are the sponsor links. -/
theorem tree_holds (h : Reachable TreeWorld.Initial TreeStep.apply w) : TreeHolds w.db := by
  have hinv := treeInvariant_of_reachable h
  have hroots : ∀ r ∈ w.db.memberships, w.db.sponsorOf r = none →
      r.sponsorMembershipId = none := fun r hr hnone => (hinv.at_root hr hnone).1
  refine ⟨fun m hm hnone => ?_, fun m hm sponsorId hsponsor => ?_,
    fun m hm => hinv.pathTree.acyclic hm, fun a ha m hm => hinv.isDescendant_iff ha hm,
    fun m hm => ?_, fun rest a ha => ?_⟩
  · rcases hinv.placed m hm with ⟨-, hplaced⟩ | ⟨p, -, hid, -⟩
    · exact hplaced
    · rw [hnone] at hid
      cases hid
  · rcases hinv.placed m hm with ⟨hroot, -⟩ | ⟨p, hp, hid, hplaced⟩
    · rw [hroot] at hsponsor
      cases hsponsor
    · rw [hsponsor] at hid
      exact ⟨p, hp, (Option.some.inj hid).symm, hplaced⟩
  · obtain ⟨chain, hchain⟩ := hinv.pathTree.exists_upline hm
    exact ⟨chain, hchain, hinv.length_upline hm hchain, fun a => hchain.mem_iff,
      fun rest depth => uplineChain_eq_take rest hchain hm hroots depth⟩
  · let isCounted : MembershipRow → Bool := fun m => decide (m.member.tenantId = a.tenantId ∧
      a.member.path.isPrefixOf m.member.path ∧ m.member.id ≠ a.id)
    refine ⟨w.db.memberships.rows.filter isCounted, List.filter_sublist, fun m hm => ?_, ?_⟩
    · rw [List.mem_filter, decide_eq_true_eq, hinv.counted_iff ha hm]
      exact ⟨And.right, fun hbelow => ⟨hm, hbelow⟩⟩
    · unfold Ranks.teamSize
      change (((w.db.memberships.rows.map MembershipRow.member).countP _ : Nat) : Int) = _
      rw [List.countP_map, List.countP_eq_length_filter]
      rfl

namespace Demo

open Engine.Demo (uuidsFrom)

def planted : TreeWorld := ⟨⟨.empty, .empty⟩, []⟩

theorem planted_initial : planted.Initial := ⟨rfl, rfl⟩

/-- A root, a member under it and one under that; an attempt to move the last one fails. -/
def growing : List TreeStep :=
  [.createRoot ⟨1, 10, none, none⟩ ⟨uuidsFrom 100, "ROOT", 0⟩,
    .readSponsor 100,
    .createUnder 1 11 0 none ⟨uuidsFrom 101, "CHILD", 0⟩,
    .readSponsor 101,
    .createUnder 1 12 1 none ⟨uuidsFrom 102, "GRANDCHILD", 0⟩,
    .update 102 ⟨none, none, none, none, some (some 100), none⟩]

def grown : TreeWorld := run TreeStep.apply growing planted

end Demo

/-- Three members in a line. -/
theorem tree_holds_line :
    Demo.grown.db.memberships.rows.map (fun m => (m.sponsorMembershipId, m.depth)) =
        [(none, 0), (some 100, 1), (some 101, 2)] ∧ TreeHolds Demo.grown.db :=
  ⟨by decide, tree_holds ((Reachable.start Demo.planted_initial).run Demo.growing)⟩

end Tree

end Refearn.Memberships
