import Refearn.Plans.Proofs.Readers
import Refearn.Engine.Proofs.Compression
import Refearn.Engine.Proofs.Members
/-!
# The simulator and the engine

The simulator walks the same members as the engine, but it never asks for their status. It
predicts the base lines of a sale exactly if no level that pays finds its place emptied or taken
by somebody who has moved up.
-/

namespace Refearn.Plans

open Support Support.Transaction
open Engine (Session ApplyResult FinalizedPlan SponsorChain Applies AppliedSale saleLines
  sortedRates levelShare baseLines isCommissionOf approveSaleInTx effectiveBaseChain
  isActiveMember)
open Shared (PlanLevelRate CommissionLine BPS_DENOMINATOR byLevel lineAt lineAt_eq_some
  computeCommissionLines totalDistributed distribute_total)

/-! ## What the tables keep -/

/-- What the database and the services that write it keep of plans and members: sealed plans are
complete, every member has a user, sponsors are of the member's tenant, and no two members of a
tenant share a referral code. -/
structure Consistent (db : PlanTables) : Prop where
  complete : ∀ p ∈ db.plans, p.finalized = true → FinalizedPlan p.forEngine
  users : ∀ m ∈ db.registry.memberships, (db.registry.users.find? m.userId).isSome = true
  sponsors : ∀ m ∈ db.registry.memberships, ∀ s ∈ db.registry.memberships,
    m.sponsorMembershipId = some s.id → s.tenantId = m.tenantId
  codes : ∀ m ∈ db.registry.memberships, ∀ m' ∈ db.registry.memberships,
    m.tenantId = m'.tenantId → m.referralCode = m'.referralCode → m = m'

/-- How a member is shown. -/
def shownMember (registry : Registry) (m : Membership) : Shown :=
  ⟨((registry.users.find? m.userId).map User.fullName).getD "", m.referralCode⟩

def simulatedMember (registry : Registry) (m : Membership) : SimulatedMember :=
  ⟨m.id, m.sponsorMembershipId, shownMember registry m⟩

section Consistent

variable {db : PlanTables} (h : Consistent db)

include h

theorem Consistent.selectMember_eq {m : Membership} (hm : m ∈ db.registry.memberships) :
    selectMember db.registry m = .ok (simulatedMember db.registry m) := by
  obtain ⟨user, huser⟩ := Option.isSome_iff_exists.mp (h.users m hm)
  unfold selectMember simulatedMember shownMember
  rw [huser]
  rfl

theorem Consistent.selectMember?_eq {found : Option Membership}
    (hfound : ∀ m, found = some m → m ∈ db.registry.memberships) :
    selectMember? db.registry found = .ok (found.map (simulatedMember db.registry)) := by
  cases found with
  | none => rfl
  | some m =>
      change (selectMember db.registry m).map some = _
      rw [h.selectMember_eq (hfound m rfl)]
      rfl

theorem Consistent.selectSponsor_eq (start : Option Uuid) :
    selectMember? db.registry (start.bind db.registry.memberships.find?) =
      .ok ((start.bind db.registry.memberships.find?).map (simulatedMember db.registry)) := by
  refine h.selectMember?_eq fun m hm => ?_
  obtain ⟨id, -, hfound⟩ := Option.bind_eq_some_iff.mp hm
  exact (Table.find?_eq_some.mp hfound).1

/-- The simulator walks the front of the sponsor chain. -/
theorem Consistent.simulatedChain_eq {start : Option Uuid} {chain : List Membership}
    (hchain : SponsorChain db.registry start chain) (turns : Nat) :
    simulatedChain db.registry turns
        ((start.bind db.registry.memberships.find?).map (simulatedMember db.registry)) =
      .ok ((chain.take turns).map (simulatedMember db.registry)) := by
  induction hchain generalizing turns with
  | root => cases turns <;> rfl
  | @link id m chain hm hrest ih =>
      cases turns with
      | zero => rfl
      | succ turns =>
          rw [Option.bind_some, hm, Option.map_some]
          unfold simulatedChain
          change (selectMember? db.registry (m.sponsorMembershipId.bind _) >>= _) = _
          rw [h.selectSponsor_eq]
          change (simulatedChain db.registry turns _ >>= _) = _
          rw [ih turns, List.take_succ_cons, List.map_cons]
          rfl

/-- All members of a sponsor chain are of one tenant. -/
theorem Consistent.tenant_of_mem {start : Option Uuid} {chain : List Membership}
    (hchain : SponsorChain db.registry start chain) {tenantId : Uuid}
    (hfirst : ∀ id, start = some id → ∀ m, db.registry.memberships.find? id = some m →
      m.tenantId = tenantId) :
    ∀ m ∈ chain, m ∈ db.registry.memberships ∧ m.tenantId = tenantId := by
  induction hchain with
  | root => exact fun m hm => absurd hm List.not_mem_nil
  | @link id m chain hm hrest ih =>
      obtain ⟨hmem, -⟩ := Table.find?_eq_some.mp hm
      have htenant : m.tenantId = tenantId := hfirst id rfl m hm
      have hnext : ∀ id, m.sponsorMembershipId = some id →
          ∀ s, db.registry.memberships.find? id = some s → s.tenantId = tenantId := by
        intro sponsorId hsponsor s hs
        obtain ⟨hsmem, hsid⟩ := Table.find?_eq_some.mp hs
        have hlink : m.sponsorMembershipId = some s.id := hsponsor.trans (congrArg some hsid.symm)
        exact (h.sponsors m hmem s hsmem hlink).trans htenant
      intro x hx
      rcases List.mem_cons.mp hx with rfl | hx
      · exact ⟨hmem, htenant⟩
      · exact ih hnext x hx

end Consistent

/-! ## What a prediction is -/

/-- What a row of the report says that somebody is paid. -/
def paidRow (r : SimulatedLevel) : Option (Nat × Option Shown × Int) :=
  if 0 < r.amountCents then some (r.level, r.beneficiary, r.amountCents) else none

def shownById (registry : Registry) (id : Uuid) : Option Shown :=
  (registry.memberships.find? id).map (shownMember registry)

/-- A line of the ledger as the simulator would show it. -/
def shownLine (registry : Registry) (line : CommissionLine) : Nat × Option Shown × Int :=
  (line.level, shownById registry line.beneficiaryMembershipId, line.amountCents)

/-- The report names the members and the amounts of the lines, and their sum. -/
structure Predicts (registry : Registry) (report : PlanSimulation)
    (lines : List CommissionLine) : Prop where
  levels : report.levels.filterMap paidRow = lines.map (shownLine registry)
  distributed : report.distributedCents = totalDistributed lines

/-- The place of a level is left to the member whom the plain chain has there. -/
def PlaceKept (tenant : Tenant) (sponsors : List Membership) (level : Nat) : Prop :=
  if tenant.compressionEnabled then
    level ≤ sponsors.length → ∀ u ∈ sponsors.take level, u.status = .active
  else if tenant.inactiveMembersEarn then True
  else 1 ≤ level → ∀ u, sponsors[level - 1]? = some u → u.status = .active

/-- The places of all levels with a share are kept. -/
def PlacesKept (amountCents : Int) (tenant : Tenant) (plan : PlanRow)
    (sponsors : List Membership) : Prop :=
  ∀ l ∈ plan.levels, 0 < levelShare amountCents l → PlaceKept tenant sponsors l.level

/-! ## An approval and its simulation -/

/-- A draft without a plan of its own has been approved. The seller is of the tenant, and no
commission of the sale has been written before. -/
structure ApprovedDraft where
  tables : PlanTables
  consistent : Consistent tables
  env : Env
  now : Instant
  actorUserId : Option Uuid
  expectedTenantId : Option Uuid
  before : Session
  after : Session
  sale : Sale
  tenant : Tenant
  plan : PlanRow
  seller : Membership
  sponsors : List Membership
  registry_eq : before.db.registry = tables.registry
  sale_mem : sale ∈ before.db.sales
  draft : sale.status = .draft
  unpinned : sale.commissionPlanId = none
  positive : 0 < sale.amountCents
  fresh : ∀ e ∈ before.db.ledger, isCommissionOf sale.id e = false
  approved : ∃ result, Commits (approveSaleInTx env now sale.id actorUserId expectedTenantId)
    before result after
  tenant_eq : tables.registry.tenants.find? sale.tenantId = some tenant
  plan_eq : activePlan tables.plans sale.tenantId sale.saleDate = some plan
  chain_eq : SponsorChain tables.registry (some sale.sellerMembershipId) (seller :: sponsors)
  ofTenant : seller.tenantId = sale.tenantId

namespace ApprovedDraft

variable (a : ApprovedDraft)

/-- What the simulator is asked. -/
def input : SimulatePlanInput := ⟨a.sale.amountCents, some a.sale.sellerMembershipId⟩

theorem plan_mem : a.plan ∈ a.tables.plans ∧ a.plan.finalized = true := by
  have hforce := activePlan_eq_some.mp a.plan_eq
  obtain ⟨hmem, hkept⟩ := List.mem_filter.mp hforce.1
  exact ⟨hmem, Bool.and_elim_right hkept⟩

theorem finalized : FinalizedPlan a.plan.forEngine :=
  a.consistent.complete a.plan a.plan_mem.1 a.plan_mem.2

theorem resolves : Engine.resolvePlan a.tables.registry a.sale.tenantId a.sale.saleDate
    a.sale.commissionPlanId = some a.plan.forEngine := by
  rw [a.unpinned]
  change Engine.findPlan a.tables.registry a.sale.tenantId a.sale.saleDate = _
  rw [findPlan_eq a.tables.view, a.plan_eq]
  rfl

/-- The approval has distributed the sale. -/
theorem exists_applied : ∃ p : AppliedSale, p.sale.amountCents = a.sale.amountCents ∧
    p.sale.id = a.sale.id ∧ p.after = a.after ∧ p.tenant = a.tenant ∧
    p.plan = a.plan.forEngine ∧ p.seller = a.seller ∧ p.sponsors = a.sponsors := by
  obtain ⟨_, happroved⟩ := a.approved
  obtain ⟨sale, hmem, hid, -, hcases⟩ := Engine.commits_approveSaleInTx happroved
  have hsale : sale = a.sale := Table.eq_of_key hmem a.sale_mem hid
  subst hsale
  rcases hcases with ⟨hstatus, -⟩ | ⟨-, t, hmarked, happly⟩
  · rw [a.draft] at hstatus
    cases hstatus
  · have hregistry : t.db.registry = a.tables.registry :=
      hmarked.registry.trans a.registry_eq
    have hfresh : ∀ e ∈ t.db.ledger, isCommissionOf a.sale.id e = false := by
      rw [hmarked.ledger]
      exact a.fresh
    exact ⟨
      { env := a.env
        now := a.now
        sale := { a.sale with status := .approved, approvedAt := some a.now }
        before := t
        after := a.after
        tenant := a.tenant
        plan := a.plan.forEngine
        seller := a.seller
        sponsors := a.sponsors
        applies := Engine.Applies.of_fresh rfl hfresh happly
        tenant_eq := hregistry ▸ a.tenant_eq
        plan_eq := hregistry ▸ a.resolves
        finalized := a.finalized
        chain_eq := hregistry ▸ a.chain_eq }, rfl, rfl, rfl, rfl, rfl, rfl, rfl⟩

/-- The members that both walk. -/
def walked : List Membership := (a.seller :: a.sponsors).take a.plan.depth

theorem mem_walked {m : Membership} (hm : m ∈ a.walked) :
    m ∈ a.tables.registry.memberships ∧ m.tenantId = a.sale.tenantId := by
  refine a.consistent.tenant_of_mem a.chain_eq (fun id hid s hs => ?_) m
    (List.mem_of_mem_take hm)
  cases Option.some.inj hid
  have hseller : s = a.seller := by
    cases a.chain_eq with
    | link hfound _ => exact Option.some.inj (hs.symm.trans hfound)
  rw [hseller]
  exact a.ofTenant

theorem simulatedMembers_eq :
    simulatedMembers a.tables.registry a.sale.tenantId a.plan.depth
        (some a.sale.sellerMembershipId) =
      .ok (a.walked.map (simulatedMember a.tables.registry)) := by
  have hfound : a.tables.registry.memberships.find? a.sale.sellerMembershipId =
      some a.seller := by
    cases a.chain_eq with
    | link hfound _ => exact hfound
  have hdepth : min a.plan.depth 64 = a.plan.depth := by
    have hle : a.plan.depth ≤ 8 := a.finalized.depth.2
    omega
  have hfilter : (some a.seller).filter (fun m => m.tenantId == a.sale.tenantId) =
      some a.seller := by
    rw [Option.filter_some, a.ofTenant, beq_self_eq_true, if_pos rfl]
  have hchain := a.consistent.simulatedChain_eq a.chain_eq a.plan.depth
  rw [Option.bind_some, hfound] at hchain
  unfold simulatedMembers
  simp only [hfound, hfilter, hdepth]
  change (selectMember? a.tables.registry (some a.seller) >>= _) = _
  rw [a.consistent.selectMember?_eq fun m hm => by
    cases hm
    exact (Table.find?_eq_some.mp hfound).1]
  exact hchain

/-- The lines that the simulator computes. -/
def predicted : List CommissionLine :=
  saleLines a.sale.amountCents a.plan.forEngine (a.walked.map fun m => some m.id)

theorem levelRates_eq : sortedRates a.plan.forEngine = levelRates a.plan := by
  have htrans : IsTrans PlanLevelRate byLevel := ⟨fun _ _ _ => Nat.le_trans⟩
  have htotal : Std.Total byLevel := ⟨fun l l' => Nat.le_total l.level l'.level⟩
  exact List.Pairwise.insertionSort_eq (List.pairwise_insertionSort byLevel _)

theorem computes : computeCommissionLines a.sale.amountCents (levelRates a.plan)
    ((a.walked.map (simulatedMember a.tables.registry)).map fun m => some m.id) =
      .ok a.predicted := by
  have hrates : ∀ l ∈ sortedRates a.plan.forEngine,
      0 ≤ l.rateBps ∧ l.rateBps ≤ BPS_DENOMINATOR := by
    intro l hl
    obtain ⟨x, hx, rfl⟩ := Engine.mem_sortedRates.mp hl
    exact a.finalized.rates x hx
  have hchain : (a.walked.map (simulatedMember a.tables.registry)).map (fun m => some m.id) =
      a.walked.map fun m => some m.id := by
    rw [List.map_map]
    rfl
  rw [hchain]
  exact distribute_total (le_of_lt a.positive) _ hrates

/-- What the simulator reports. -/
def report : PlanSimulation where
  planName := a.plan.name
  poolRateBps := a.plan.poolRateBps
  depth := a.plan.depth
  amountCents := a.sale.amountCents
  levels := (levelRates a.plan).map (simulatedLevel a.sale.amountCents false
    (a.walked.map (simulatedMember a.tables.registry)) a.predicted)
  distributedCents := totalDistributed a.predicted
  companyKeepsCents := a.sale.amountCents - totalDistributed a.predicted

theorem simulate_eq :
    simulate a.tables a.sale.saleDate a.sale.tenantId a.input = .ok a.report := by
  unfold simulate
  rw [a.plan_eq]
  change (simulatedMembers a.tables.registry a.sale.tenantId a.plan.depth
    (some a.sale.sellerMembershipId) >>= _) = _
  rw [a.simulatedMembers_eq]
  change ((computeCommissionLines a.sale.amountCents (levelRates a.plan)
    ((a.walked.map (simulatedMember a.tables.registry)).map fun m => some m.id)).mapError
      PlanError.rangeError >>= _) = _
  rw [a.computes]
  rfl

/-! ### Rows and lines -/

theorem walked_ids_nodup : (a.walked.map Membership.id).Nodup := by
  rw [walked, List.map_take]
  exact (List.take_sublist _ _).nodup a.chain_eq.ids_nodup

theorem predicted_eq : a.predicted = (levelRates a.plan).filterMap
    (lineAt a.sale.amountCents (a.walked.map fun m => some m.id)) := by
  rw [predicted, saleLines, a.levelRates_eq]

theorem levels_nodup : ((levelRates a.plan).map PlanLevelRate.level).Nodup := by
  rw [← a.levelRates_eq]
  exact a.finalized.levels_nodup

/-- The line that the simulator finds for a level is the line of that level. -/
theorem lineByLevel_eq {l : PlanLevelRate} (hl : l ∈ levelRates a.plan) :
    lineByLevel a.predicted l.level =
      lineAt a.sale.amountCents (a.walked.map fun m => some m.id) l := by
  have honly : ∀ line ∈ a.predicted, line.level = l.level →
      lineAt a.sale.amountCents (a.walked.map fun m => some m.id) l = some line := by
    intro line hline hlevel
    rw [a.predicted_eq] at hline
    obtain ⟨l', hl', hat⟩ := List.mem_filterMap.mp hline
    have hsame : l' = l := List.inj_on_of_nodup_map a.levels_nodup hl' hl
      ((lineAt_eq_some.mp hat).2.1.symm.trans hlevel)
    rw [← hsame]
    exact hat
  unfold lineByLevel
  cases hfind : a.predicted.reverse.find? fun line => line.level == l.level with
  | some line =>
      have hmem : line ∈ a.predicted := List.mem_reverse.mp (List.mem_of_find?_eq_some hfind)
      have hlevel := List.find?_some hfind
      exact (honly line hmem (beq_iff_eq.mp hlevel)).symm
  | none =>
      cases hat : lineAt a.sale.amountCents (a.walked.map fun m => some m.id) l with
      | none => rfl
      | some line =>
          have hmem : line ∈ a.predicted := by
            rw [a.predicted_eq]
            exact List.mem_filterMap.mpr ⟨l, hl, hat⟩
          have hnone := List.find?_eq_none.mp hfind line (List.mem_reverse.mpr hmem)
          exact absurd (beq_iff_eq.mpr (lineAt_eq_some.mp hat).2.1) hnone

/-- The name that the simulator finds for a member is that of the member. -/
theorem nameById_eq {m : Membership} (hm : m ∈ a.walked) :
    nameById (a.walked.map (simulatedMember a.tables.registry)) m.id =
      shownById a.tables.registry m.id := by
  have hfound : a.tables.registry.memberships.find? m.id = some m :=
    Table.find?_key (a.mem_walked hm).1
  unfold nameById shownById
  rw [hfound]
  cases hfind : (a.walked.map (simulatedMember a.tables.registry)).reverse.find?
      fun s => s.id == m.id with
  | some s =>
      have hmem := List.mem_reverse.mp (List.mem_of_find?_eq_some hfind)
      have hid := List.find?_some hfind
      obtain ⟨m', hm', rfl⟩ := List.mem_map.mp hmem
      have hsame : m' = m :=
        List.inj_on_of_nodup_map a.walked_ids_nodup hm' hm (beq_iff_eq.mp hid)
      rw [hsame]
      rfl
  | none =>
      have hmem : simulatedMember a.tables.registry m ∈
          (a.walked.map (simulatedMember a.tables.registry)).reverse :=
        List.mem_reverse.mpr (List.mem_map_of_mem hm)
      exact absurd (beq_self_eq_true m.id) (List.find?_eq_none.mp hfind _ hmem)

/-- A row of the report says of a level what its line says. -/
theorem paidRow_eq {l : PlanLevelRate} (hl : l ∈ levelRates a.plan) :
    paidRow (simulatedLevel a.sale.amountCents false
        (a.walked.map (simulatedMember a.tables.registry)) a.predicted l) =
      (lineAt a.sale.amountCents (a.walked.map fun m => some m.id) l).map
        (shownLine a.tables.registry) := by
  unfold paidRow simulatedLevel
  dsimp only
  rw [if_neg Bool.false_ne_true, a.lineByLevel_eq hl]
  cases hat : lineAt a.sale.amountCents (a.walked.map fun m => some m.id) l with
  | none => exact if_neg (lt_irrefl 0)
  | some line =>
      obtain ⟨hplace, hlevel, -, -, hpos⟩ := lineAt_eq_some.mp hat
      rw [Option.map_some, Option.getD_some, if_pos hpos]
      have hplace' : (a.walked[l.level]?.map fun m => some m.id).join =
          some line.beneficiaryMembershipId := by
        rw [← List.getElem?_map]
        exact hplace
      cases hm : a.walked[l.level]? with
      | none =>
          rw [hm] at hplace'
          cases hplace'
      | some m =>
          rw [hm] at hplace'
          have hid : m.id = line.beneficiaryMembershipId := Option.some.inj hplace'
          have hfilled : ((a.walked.map (simulatedMember a.tables.registry)).map
              SimulatedMember.id)[l.level]? = some m.id := by
            rw [List.getElem?_map, List.getElem?_map, hm]
            rfl
          rw [hfilled, Option.bind_some, a.nameById_eq (List.mem_of_getElem? hm), hid,
            ← hlevel]
          rfl

theorem paidRows_eq : a.report.levels.filterMap paidRow =
    (levelRates a.plan).filterMap fun l =>
      (lineAt a.sale.amountCents (a.walked.map fun m => some m.id) l).map
        (shownLine a.tables.registry) := by
  rw [report, List.filterMap_map]
  exact List.filterMap_congr fun l hl => a.paidRow_eq hl

/-- What the ledger has after the approval. -/
theorem engineLines_eq : baseLines a.sale.id a.after.db.ledger.rows =
    saleLines a.sale.amountCents a.plan.forEngine (effectiveBaseChain a.walked a.tenant) := by
  obtain ⟨p, hamount, hid, hafter, htenant, hplan, hseller, hsponsors⟩ := a.exists_applied
  have hlines := p.lines_eq
  unfold AppliedSale.lines AppliedSale.rawChain at hlines
  rw [hamount, hid, hafter, htenant, hplan, hseller, hsponsors] at hlines
  exact hlines

/-! ### Places -/

theorem plain_place (i : Nat) :
    (a.walked.map fun m => some m.id)[i]?.join = a.walked[i]?.map Membership.id := by
  rw [List.getElem?_map]
  cases a.walked[i]? <;> rfl

theorem walked_succ (i : Nat) :
    a.walked[i + 1]? = (a.sponsors.take (a.plan.depth - 1))[i]? := by
  have hdepth : 1 ≤ a.plan.depth := a.finalized.depth.1
  obtain ⟨depth, heq⟩ : ∃ depth, a.plan.depth = depth + 1 :=
    Nat.exists_eq_succ_of_ne_zero (by omega)
  rw [walked, heq, List.take_succ_cons, List.getElem?_cons_succ, Nat.add_sub_cancel]

theorem sponsor_ids_nodup : (a.sponsors.map Membership.id).Nodup := by
  have hnodup := a.chain_eq.ids_nodup
  rw [List.map_cons, List.nodup_cons] at hnodup
  exact hnodup.2

/-- With compression a sponsor keeps its place exactly if all below it are active. -/
theorem compressed_place_iff (hcompression : a.tenant.compressionEnabled = true) {i : Nat}
    (hi : i + 1 < a.plan.depth) :
    a.walked[i + 1]?.map Membership.id =
        (effectiveBaseChain a.walked a.tenant)[i + 1]?.join ↔
      (i + 1 ≤ a.sponsors.length → ∀ u ∈ a.sponsors.take (i + 1), u.status = .active) := by
  obtain ⟨p, -, -, -, htenant, hplan, hseller, hsponsors⟩ := a.exists_applied
  have hplace := p.compressed_place (htenant ▸ hcompression) i
  unfold AppliedSale.rawChain at hplace
  rw [htenant, hplan, hseller, hsponsors] at hplace
  have hnodup : ((a.sponsors.take (a.plan.depth - 1)).map Membership.id).Nodup := by
    rw [List.map_take]
    exact (List.take_sublist _ _).nodup a.sponsor_ids_nodup
  have hkept := getElem?_filter_eq_iff (p := isActiveMember) hnodup i
  have hfront : (a.sponsors.take (a.plan.depth - 1)).take (i + 1) = a.sponsors.take (i + 1) := by
    rw [List.take_take]
    congr 1
    omega
  have hlength : i < (a.sponsors.take (a.plan.depth - 1)).length ↔
      i + 1 ≤ a.sponsors.length := by
    rw [List.length_take]
    omega
  rw [hfront, hlength] at hkept
  have hengine : (effectiveBaseChain a.walked a.tenant)[i + 1]?.join =
      ((a.sponsors.take (a.plan.depth - 1)).filter isActiveMember)[i]?.map Membership.id := hplace
  rw [a.walked_succ, hengine, eq_comm, hkept]
  exact forall₂_congr fun _ u => forall_congr' fun _ => decide_eq_true_iff

/-- Without it an inactive sponsor leaves its place empty. -/
theorem uncompressed_place_iff (hcompression : a.tenant.compressionEnabled = false)
    (hearn : a.tenant.inactiveMembersEarn = false) {i : Nat} (hi : i + 1 < a.plan.depth) :
    a.walked[i + 1]?.map Membership.id =
        (effectiveBaseChain a.walked a.tenant)[i + 1]?.join ↔
      ∀ u, a.sponsors[i]? = some u → u.status = .active := by
  obtain ⟨p, -, -, -, htenant, hplan, hseller, hsponsors⟩ := a.exists_applied
  have hplace := p.uncompressed_place (htenant ▸ hcompression) (htenant ▸ hearn) (i + 1)
  unfold AppliedSale.rawChain at hplace
  rw [htenant, hplan, hseller, hsponsors] at hplace
  have hwalked : a.walked[i + 1]? = a.sponsors[i]? := by
    rw [a.walked_succ]
    exact List.getElem?_take_of_lt (by omega)
  have hengine : (effectiveBaseChain a.walked a.tenant)[i + 1]?.join =
      (a.walked[i + 1]?.filter fun m => i + 1 = 0 || isActiveMember m).map Membership.id := hplace
  rw [hengine, hwalked]
  cases a.sponsors[i]? with
  | none => exact ⟨fun _ => nofun, fun _ => rfl⟩
  | some u =>
      rw [Option.filter_some]
      by_cases hactive : u.status = .active
      · have hkept : isActiveMember u = true := decide_eq_true hactive
        rw [hkept, Bool.or_true, if_pos rfl]
        exact ⟨fun _ v hv => Option.some.inj hv ▸ hactive, fun _ => rfl⟩
      · have hdropped : isActiveMember u = false := decide_eq_false hactive
        rw [hdropped, Bool.or_false]
        exact ⟨fun h => absurd h nofun, fun h => absurd (h u rfl) hactive⟩

theorem place_iff {level : Nat} (hlevel : level < a.plan.depth) :
    (a.walked.map fun m => some m.id)[level]?.join =
        (effectiveBaseChain a.walked a.tenant)[level]?.join ↔
      PlaceKept a.tenant a.sponsors level := by
  rw [a.plain_place]
  unfold PlaceKept
  cases level with
  | zero =>
      rw [Engine.effectiveBaseChain_zero]
      refine ⟨fun _ => ?_, fun _ => rfl⟩
      split_ifs
      · exact fun _ u hu => absurd hu List.not_mem_nil
      · exact fun h => absurd h (by decide)
  | succ i =>
      split_ifs with hcompression hearn
      · exact a.compressed_place_iff hcompression hlevel
      · have hsame := Engine.effectiveBaseChain_default a.walked
          (Bool.eq_false_of_not_eq_true hcompression) hearn
        rw [hsame, a.plain_place]
        exact iff_of_true rfl trivial
      · rw [a.uncompressed_place_iff (Bool.eq_false_of_not_eq_true hcompression)
          (Bool.eq_false_of_not_eq_true hearn) hlevel]
        exact ⟨fun h _ => h, fun h => h (Nat.succ_pos i)⟩

/-! ### The prediction -/

theorem exists_walked_of_place {chain : List (Option Uuid)} {l : PlanLevelRate}
    {line : CommissionLine} (hchain : ∀ id, some id ∈ chain → ∃ m ∈ a.walked, m.id = id)
    (h : lineAt a.sale.amountCents chain l = some line) :
    ∃ m ∈ a.walked, m.id = line.beneficiaryMembershipId := by
  have hplace := (lineAt_eq_some.mp h).1
  cases hentry : chain[l.level]? with
  | none =>
      rw [hentry] at hplace
      cases hplace
  | some entry =>
      rw [hentry] at hplace
      refine hchain _ ?_
      have hmem := List.mem_of_getElem? hentry
      have hsame : entry = some line.beneficiaryMembershipId := hplace
      rw [hsame] at hmem
      exact hmem

/-- Members that are shown alike are one member, so shown lines tell lines apart. -/
theorem shownLine_inj {line line' : CommissionLine}
    (hline : ∃ m ∈ a.walked, m.id = line.beneficiaryMembershipId)
    (hline' : ∃ m ∈ a.walked, m.id = line'.beneficiaryMembershipId)
    (h : shownLine a.tables.registry line = shownLine a.tables.registry line') :
    line.beneficiaryMembershipId = line'.beneficiaryMembershipId := by
  obtain ⟨m, hm, hid⟩ := hline
  obtain ⟨m', hm', hid'⟩ := hline'
  obtain ⟨hmem, htenant⟩ := a.mem_walked hm
  obtain ⟨hmem', htenant'⟩ := a.mem_walked hm'
  have hshown : shownById a.tables.registry line.beneficiaryMembershipId =
      shownById a.tables.registry line'.beneficiaryMembershipId :=
    congrArg (fun row => row.2.1) h
  have hfound : a.tables.registry.memberships.find? line.beneficiaryMembershipId = some m :=
    Table.find?_eq_some.mpr ⟨hmem, hid⟩
  have hfound' : a.tables.registry.memberships.find? line'.beneficiaryMembershipId = some m' :=
    Table.find?_eq_some.mpr ⟨hmem', hid'⟩
  unfold shownById at hshown
  rw [hfound, hfound'] at hshown
  have hcode : m.referralCode = m'.referralCode :=
    congrArg Shown.code (Option.some.inj hshown)
  have hsame : m = m' := a.consistent.codes m hmem m' hmem' (htenant.trans htenant'.symm) hcode
  rw [← hid, ← hid', hsame]

theorem shown_line_eq_iff (l : PlanLevelRate) :
    (lineAt a.sale.amountCents (a.walked.map fun m => some m.id) l).map
          (shownLine a.tables.registry) =
        (lineAt a.sale.amountCents (effectiveBaseChain a.walked a.tenant) l).map
          (shownLine a.tables.registry) ↔
      lineAt a.sale.amountCents (a.walked.map fun m => some m.id) l =
        lineAt a.sale.amountCents (effectiveBaseChain a.walked a.tenant) l := by
  refine ⟨fun h => ?_, fun h => congrArg _ h⟩
  have hplain : ∀ id, some id ∈ a.walked.map (fun m => some m.id) →
      ∃ m ∈ a.walked, m.id = id := by
    intro id hid
    obtain ⟨m, hm, heq⟩ := List.mem_map.mp hid
    exact ⟨m, hm, Option.some.inj heq⟩
  cases hline : lineAt a.sale.amountCents (a.walked.map fun m => some m.id) l with
  | none =>
      rw [hline] at h
      exact (Option.map_eq_none_iff.mp h.symm).symm
  | some line =>
      rw [hline] at h
      obtain ⟨line', hline', hshown⟩ := Option.map_eq_some_iff.mp h.symm
      rw [hline']
      have hsame := a.shownLine_inj (a.exists_walked_of_place hplain hline)
        (a.exists_walked_of_place (fun id => Engine.mem_effectiveBaseChain) hline') hshown.symm
      obtain ⟨-, hlevel, hrate, hamount, -⟩ := lineAt_eq_some.mp hline
      obtain ⟨-, hlevel', hrate', hamount', -⟩ := lineAt_eq_some.mp hline'
      congr 1
      obtain ⟨level, beneficiary, rate, amount⟩ := line
      obtain ⟨level', beneficiary', rate', amount'⟩ := line'
      simp only at hlevel hrate hamount hlevel' hrate' hamount' hsame
      rw [hlevel, hrate, hamount, hlevel', hrate', hamount', hsame]

/-- What a level shows carries the level. -/
theorem level_of_shown {chain : List (Option Uuid)} (l : PlanLevelRate)
    (row : Nat × Option Shown × Int)
    (h : (lineAt a.sale.amountCents chain l).map (shownLine a.tables.registry) = some row) :
    row.1 = l.level := by
  obtain ⟨line, hline, rfl⟩ := Option.map_eq_some_iff.mp h
  exact (lineAt_eq_some.mp hline).2.1

theorem predicted_eq_iff : a.predicted = baseLines a.sale.id a.after.db.ledger.rows ↔
    PlacesKept a.sale.amountCents a.tenant a.plan a.sponsors := by
  rw [a.engineLines_eq, predicted, Engine.saleLines_eq_iff a.finalized]
  refine forall₃_congr fun l hl _ => a.place_iff ?_
  exact a.finalized.level_lt (Engine.mem_sortedRates.mpr ⟨l, hl, rfl⟩)

theorem predicts_iff :
    Predicts a.tables.registry a.report (baseLines a.sale.id a.after.db.ledger.rows) ↔
      PlacesKept a.sale.amountCents a.tenant a.plan a.sponsors := by
  rw [← a.predicted_eq_iff]
  constructor
  · intro h
    have hrows := h.levels
    rw [a.paidRows_eq, a.engineLines_eq, saleLines, a.levelRates_eq, List.map_filterMap] at hrows
    have heach := (filterMap_eq_filterMap_iff a.level_of_shown a.level_of_shown
      a.levels_nodup).mp hrows
    rw [a.engineLines_eq, a.predicted_eq, saleLines, a.levelRates_eq]
    exact List.filterMap_congr fun l hl => (a.shown_line_eq_iff l).mp (heach l hl)
  · intro h
    refine ⟨?_, congrArg totalDistributed h⟩
    rw [a.paidRows_eq, ← h, a.predicted_eq, List.map_filterMap]

end ApprovedDraft

/-- The simulator reports, and its report is what the approval writes exactly if the places of
the levels that pay are kept. -/
theorem simulate_exact (a : ApprovedDraft) :
    ∃ report, simulate a.tables a.sale.saleDate a.sale.tenantId a.input = .ok report ∧
      (Predicts a.tables.registry report (baseLines a.sale.id a.after.db.ledger.rows) ↔
        PlacesKept a.sale.amountCents a.tenant a.plan a.sponsors) :=
  ⟨a.report, a.simulate_eq, a.predicts_iff⟩

namespace Demo

/-- The sponsor of the seller is inactive. -/
def idleSponsor : Membership := ⟨3, 1, 11, none, "SPONSOR", [3], .inactive, 0⟩

def idleTables : PlanTables where
  plans := ⟨[firstPlan], List.nodup_singleton _, List.pairwise_singleton _ _⟩
  registry :=
    { Engine.Demo.registry with
      memberships := ⟨[Engine.Demo.seller, idleSponsor], by decide, by decide⟩
      plans := enginePlans ⟨[firstPlan], List.nodup_singleton _, List.pairwise_singleton _ _⟩ }
  view := rfl

theorem idleTables_consistent : Consistent idleTables where
  complete p hp _ := by
    rw [List.mem_singleton.mp hp]
    exact Engine.Demo.plan_finalized
  users := by decide
  sponsors := by decide
  codes := by decide

/-- Ten dollars that have not been approved yet. -/
def tenDollars : Sale := Sales.draftSale ⟨1, none, 2, 1000, "USD", 0, none, none⟩ 100

def beforeApproval : Session :=
  ⟨{ Engine.Demo.empty with
      registry := idleTables.registry
      sales := ⟨[tenDollars], List.nodup_singleton _, List.pairwise_singleton _ _⟩ },
    Engine.Demo.uuidsFrom 200⟩

/-- The approval under a tenant that leaves the places of inactive members empty. -/
def idleApproval : ApprovedDraft where
  tables := idleTables
  consistent := idleTables_consistent
  env := Engine.Demo.env
  now := 0
  actorUserId := none
  expectedTenantId := none
  before := beforeApproval
  after := (approveSaleInTx Engine.Demo.env 0 100 none none).commit beforeApproval
  sale := tenDollars
  tenant := Engine.Demo.tenant
  plan := firstPlan
  seller := Engine.Demo.seller
  sponsors := [idleSponsor]
  registry_eq := rfl
  sale_mem := List.mem_singleton_self tenDollars
  draft := rfl
  unpinned := rfl
  positive := by decide
  fresh := fun _ he => absurd he List.not_mem_nil
  approved := by
    obtain ⟨result, h, -⟩ := exists_commits_of_run (p := fun _ => true)
      (m := approveSaleInTx Engine.Demo.env 0 100 none none) (s := beforeApproval)
      (by decide +kernel)
    exact ⟨result, h⟩
  tenant_eq := by decide
  plan_eq := by decide +kernel
  chain_eq := .link (by decide +kernel) (.link (by decide +kernel) .root)
  ofTenant := rfl

end Demo

/-- The simulator promises the inactive sponsor forty cents that the engine does not pay. -/
theorem simulate_pays_idle_sponsor :
    ¬∃ report, simulate Demo.idleApproval.tables Demo.idleApproval.sale.saleDate
        Demo.idleApproval.sale.tenantId Demo.idleApproval.input = .ok report ∧
      Predicts Demo.idleApproval.tables.registry report
        (baseLines Demo.idleApproval.sale.id Demo.idleApproval.after.db.ledger.rows) := by
  rintro ⟨report, hreport, hpredicts⟩
  have hsame : Demo.idleApproval.report = report :=
    Except.ok.inj (Demo.idleApproval.simulate_eq.symm.trans hreport)
  rw [← hsame] at hpredicts
  have hkept := Demo.idleApproval.predicts_iff.mp hpredicts
  have hlevel := hkept ⟨6, 1, 400⟩ (List.mem_cons_of_mem _ List.mem_cons_self)
  change 0 < levelShare 1000 ⟨6, 1, 400⟩ →
    PlaceKept Engine.Demo.tenant [Demo.idleSponsor] 1 at hlevel
  have hplace : 1 ≤ 1 → ∀ u, [Demo.idleSponsor][0]? = some u → u.status = .active :=
    hlevel (by decide)
  exact absurd (hplace le_rfl Demo.idleSponsor rfl) (by decide)

end Refearn.Plans
