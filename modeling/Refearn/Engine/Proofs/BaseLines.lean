import Refearn.Engine.Proofs.Ceiling
import Refearn.Shared.Plan
import Refearn.Support.Filtering
/-!
# The base rows of a sale

What the levels of a plan have paid for one sale, read back from the ledger: the rows below
the synthetic levels are the lines of `computeCommissionLines`, in level order.
-/

namespace Refearn.Engine

open Support Support.Transaction
open Shared (CommissionLine PlanLevelRate BPS_DENOMINATOR MIN_PLAN_DEPTH MAX_PLAN_DEPTH byLevel
  lineAt lineAt_eq_some computeCommissionLines_eq_ok)

/-! ## Finalized plans -/

/-- What the database admits as a finalized plan: the checks on its numbers, and the trigger
that seals it once its levels are complete. -/
structure FinalizedPlan (plan : CommissionPlan) : Prop extends ValidPlan plan where
  depth : MIN_PLAN_DEPTH ≤ plan.depth ∧ plan.depth ≤ MAX_PLAN_DEPTH

/-- The rates as `computeCommissionLines` walks them. -/
def sortedRates (plan : CommissionPlan) : List PlanLevelRate :=
  (planRates plan).insertionSort byLevel

section FinalizedPlan

variable {plan : CommissionPlan}

theorem sortedRates_perm (plan : CommissionPlan) :
    (sortedRates plan).Perm
      (plan.levels.map fun l => (⟨l.level, l.rateBps⟩ : PlanLevelRate)) :=
  (List.perm_insertionSort _ _).trans (List.perm_insertionSort _ _)

theorem mem_sortedRates {l : PlanLevelRate} :
    l ∈ sortedRates plan ↔ ∃ x ∈ plan.levels, ⟨x.level, x.rateBps⟩ = l := by
  rw [(sortedRates_perm plan).mem_iff, List.mem_map]

/-- The levels of a finalized plan are walked from zero up. -/
theorem FinalizedPlan.levels_sorted (h : FinalizedPlan plan) :
    (sortedRates plan).map PlanLevelRate.level = List.range plan.depth := by
  have hperm : ((sortedRates plan).map PlanLevelRate.level).Perm (List.range plan.depth) := by
    refine ((sortedRates_perm plan).map _).trans ?_
    rw [List.map_map]
    exact h.gapless
  have htotal : Std.Total byLevel := ⟨fun l l' => Nat.le_total l.level l'.level⟩
  have htrans : IsTrans PlanLevelRate byLevel := ⟨fun _ _ _ => Nat.le_trans⟩
  have hsorted : ((sortedRates plan).map PlanLevelRate.level).Pairwise (· ≤ ·) :=
    List.pairwise_map.mpr (List.pairwise_insertionSort byLevel _)
  exact hperm.eq_of_pairwise (fun _ _ _ _ h h' => Nat.le_antisymm h h') hsorted
    List.pairwise_le_range

theorem FinalizedPlan.level_lt (h : FinalizedPlan plan) {l : PlanLevelRate}
    (hl : l ∈ sortedRates plan) : l.level < plan.depth := by
  have hmem : l.level ∈ (sortedRates plan).map PlanLevelRate.level := List.mem_map_of_mem hl
  rw [h.levels_sorted] at hmem
  exact List.mem_range.mp hmem

/-- No level of a plan reaches up to the synthetic ones. -/
theorem FinalizedPlan.level_base (h : FinalizedPlan plan) {l : PlanLevelRate}
    (hl : l ∈ sortedRates plan) : l.level < 1000 := by
  have hlt := h.level_lt hl
  have hdepth : plan.depth ≤ 8 := h.depth.2
  omega

theorem FinalizedPlan.levels_nodup (h : FinalizedPlan plan) :
    ((sortedRates plan).map PlanLevelRate.level).Nodup := by
  rw [h.levels_sorted]
  exact List.nodup_range

end FinalizedPlan

/-! ## The lines of a sale -/

/-- The share of a level. -/
def levelShare (amountCents : Int) (l : CommissionPlanLevel) : Int :=
  floorShare BPS_DENOMINATOR amountCents l.rateBps

/-- The lines of a sale, from what the engine reads. -/
def saleLines (amountCents : Int) (plan : CommissionPlan) (chain : List (Option Uuid)) :
    List CommissionLine :=
  (sortedRates plan).filterMap (lineAt amountCents chain)

theorem Inputs.lines_eq_saleLines {sale : Sale} {registry : Registry}
    (i : Inputs sale registry) :
    i.lines = saleLines sale.amountCents i.plan (effectiveBaseChain i.rawChain i.tenant) :=
  computeCommissionLines_eq_ok i.lines_eq

theorem mem_saleLines {amountCents : Int} {plan : CommissionPlan} {chain : List (Option Uuid)}
    {line : CommissionLine} :
    line ∈ saleLines amountCents plan chain ↔
      ∃ l ∈ sortedRates plan, lineAt amountCents chain l = some line :=
  List.mem_filterMap

theorem level_of_lineAt {amountCents : Int} {chain : List (Option Uuid)} (l : PlanLevelRate)
    (line : CommissionLine) (h : lineAt amountCents chain l = some line) :
    line.level = l.level :=
  (lineAt_eq_some.mp h).2.1

/-- A level without a share pays nobody, whoever stands at its place. -/
theorem lineAt_of_no_share {amountCents : Int} {chain : List (Option Uuid)} {l : PlanLevelRate}
    (h : ¬0 < floorShare BPS_DENOMINATOR amountCents l.rateBps) :
    lineAt amountCents chain l = none := by
  unfold lineAt
  cases chain[l.level]?.join with
  | none => rfl
  | some beneficiary => exact if_pos (not_lt.mp h)

/-- With a share, a level pays whoever stands at its place. -/
theorem lineAt_of_share {amountCents : Int} {chain : List (Option Uuid)} {l : PlanLevelRate}
    (h : 0 < floorShare BPS_DENOMINATOR amountCents l.rateBps) :
    lineAt amountCents chain l = chain[l.level]?.join.map (fun beneficiary =>
      ⟨l.level, beneficiary, l.rateBps, floorShare BPS_DENOMINATOR amountCents l.rateBps⟩) := by
  unfold lineAt
  cases chain[l.level]?.join with
  | none => rfl
  | some beneficiary => exact if_neg (not_le.mpr h)

theorem lineAt_eq_lineAt_iff {amountCents : Int} {chain chain' : List (Option Uuid)}
    {l : PlanLevelRate} :
    lineAt amountCents chain l = lineAt amountCents chain' l ↔
      (0 < floorShare BPS_DENOMINATOR amountCents l.rateBps →
        chain[l.level]?.join = chain'[l.level]?.join) := by
  by_cases hshare : 0 < floorShare BPS_DENOMINATOR amountCents l.rateBps
  · rw [lineAt_of_share hshare, lineAt_of_share hshare]
    have hinj : Function.Injective fun beneficiary : Uuid =>
        (⟨l.level, beneficiary, l.rateBps,
          floorShare BPS_DENOMINATOR amountCents l.rateBps⟩ : CommissionLine) :=
      fun _ _ h => congrArg CommissionLine.beneficiaryMembershipId h
    exact ⟨fun h _ => Option.map_injective hinj h, fun h => congrArg _ (h hshare)⟩
  · rw [lineAt_of_no_share hshare, lineAt_of_no_share hshare]
    exact ⟨fun _ h => absurd h hshare, fun _ => rfl⟩

/-- Two chains give the same lines exactly if each level with a share finds the same member. -/
theorem saleLines_eq_iff {amountCents : Int} {plan : CommissionPlan}
    (hplan : FinalizedPlan plan) {chain chain' : List (Option Uuid)} :
    saleLines amountCents plan chain = saleLines amountCents plan chain' ↔
      ∀ l ∈ plan.levels, 0 < levelShare amountCents l →
        chain[l.level]?.join = chain'[l.level]?.join := by
  unfold saleLines
  rw [filterMap_eq_filterMap_iff (level_of_lineAt) (level_of_lineAt) hplan.levels_nodup]
  constructor
  · intro h l hl
    exact lineAt_eq_lineAt_iff.mp (h ⟨l.level, l.rateBps⟩ (mem_sortedRates.mpr ⟨l, hl, rfl⟩))
  · intro h l hl
    obtain ⟨x, hx, rfl⟩ := mem_sortedRates.mp hl
    exact lineAt_eq_lineAt_iff.mpr (h x hx)

/-! ## What an application has written -/

/-- An application has distributed the sale. -/
def Applies (env : Env) (now : Instant) (sale : Sale) (s s' : Session) : Prop :=
  ∃ r, Commits (applyCommissionsInTx env now sale) s r s' ∧ r.applied = true

theorem Applies.distributed {env : Env} {now : Instant} {sale : Sale} {s s' : Session}
    (h : Applies env now sale s s') :
    (∀ e ∈ s.db.ledger, isCommissionOf sale.id e = false) ∧
      ∃ (i : Inputs sale s.db.registry) (credits : List Credit),
        Distributed env now i credits s.db s'.db := by
  obtain ⟨r, hcommits, happlied⟩ := h
  unfold applyCommissionsInTx at hcommits
  split_ifs at hcommits with hstatus
  · obtain ⟨rfl, -⟩ := (commits_pure ..).mp hcommits
    cases happlied
  · rw [commits_bind] at hcommits
    obtain ⟨_, _, hread, hcommits⟩ := hcommits
    obtain ⟨rfl, rfl⟩ := (commits_readDb ..).mp hread
    dsimp only at hcommits
    split_ifs at hcommits with hexisting
    · obtain ⟨rfl, -⟩ := (commits_pure ..).mp hcommits
      cases happlied
    · obtain ⟨i, credits, hdist, -⟩ := commits_distributeSale hcommits
      refine ⟨fun e he => ?_, i, credits, hdist⟩
      by_contra hcom
      exact hexisting (List.countP_pos_iff.mpr ⟨e, he, Bool.of_not_eq_false hcom⟩)

/-- An approved sale without commissions is distributed. -/
theorem Applies.of_fresh {env : Env} {now : Instant} {sale : Sale} {s s' : Session}
    {r : ApplyResult} (hstatus : sale.status = .approved)
    (hfresh : ∀ e ∈ s.db.ledger, isCommissionOf sale.id e = false)
    (h : Commits (applyCommissionsInTx env now sale) s r s') : Applies env now sale s s' := by
  refine ⟨r, h, ?_⟩
  unfold applyCommissionsInTx at h
  rw [if_neg (not_not.mpr hstatus), commits_bind] at h
  obtain ⟨_, _, hread, h⟩ := h
  obtain ⟨rfl, rfl⟩ := (commits_readDb ..).mp hread
  dsimp only at h
  have hnone : s.db.ledger.rows.countP (isCommissionOf sale.id) = 0 :=
    List.countP_eq_zero.mpr fun e he => Bool.eq_false_iff.mp (hfresh e he)
  rw [hnone, if_neg (lt_irrefl 0)] at h
  obtain ⟨_, _, _, rfl⟩ := commits_distributeSale h
  rfl

/-- A commission row of a plan level; the bonuses have levels from 1000 on. -/
def isBaseOf (saleId : Uuid) (r : LedgerEntry) : Bool :=
  isCommissionOf saleId r && r.level < 1000

def lineOf (r : LedgerEntry) : CommissionLine :=
  ⟨r.level, r.beneficiaryMembershipId, r.rateBpsUsed, r.amountCents⟩

/-- The base lines of a sale as the ledger has them. -/
def baseLines (saleId : Uuid) (rows : List LedgerEntry) : List CommissionLine :=
  (rows.filter (isBaseOf saleId)).map lineOf

theorem level_of_mem_bonusCredits {sale : Sale} {sponsorId : Uuid} {level : Nat}
    {amountCents rateBps : Int} {due : Bool} {c : Credit}
    (h : c ∈ bonusCredits sale sponsorId level amountCents rateBps due) : c.level = level := by
  unfold bonusCredits at h
  dsimp only at h
  split_ifs at h
  · cases h
  · rw [List.mem_singleton.mp h]
    rfl
  · cases h

theorem level_of_mem_matchingCredits {sale : Sale} {plan : CommissionPlan} {sponsorId : Uuid}
    {lines : List CommissionLine} {c : Credit}
    (h : c ∈ matchingCredits sale plan sponsorId lines) : c.level = 1001 := by
  cases lines with
  | nil => cases h
  | cons first rest => exact level_of_mem_bonusCredits h

theorem level_of_mem_sponsorCredits {registry : Registry} {sale : Sale} {tenant : Tenant}
    {plan : CommissionPlan} {rawChain : List Membership} {lines : List CommissionLine}
    {c : Credit} (h : c ∈ sponsorCredits registry sale tenant plan rawChain lines) :
    c.level = 1000 ∨ c.level = 1001 := by
  unfold sponsorCredits at h
  cases hsponsor : earningSponsor tenant rawChain with
  | none =>
      rw [hsponsor] at h
      cases h
  | some sponsorId =>
      rw [hsponsor] at h
      rcases List.mem_append.mp h with h | h
      · exact .inl (level_of_mem_bonusCredits h)
      · exact .inr (level_of_mem_matchingCredits h)

theorem level_of_mem_overrideCredits {registry : Registry} {rows : List LedgerEntry}
    {sale : Sale} {c : Credit} (h : c ∈ overrideCredits registry rows sale) :
    c.level = 1002 := by
  unfold overrideCredits at h
  dsimp only at h
  split_ifs at h
  · rw [List.mem_singleton.mp h]
    rfl
  · cases h
  · cases h

/-- The new rows of a distribution, the base lines first and the bonuses after them. -/
theorem Distributed.rows_split {env : Env} {now : Instant} {sale : Sale} {registry : Registry}
    {i : Inputs sale registry} {credits : List Credit} {db db' : Db}
    (h : Distributed env now i credits db db') :
    ∃ base sponsor override earlier, db'.ledger.rows =
        db.ledger.rows ++ (base ++ (sponsor ++ override)) ∧
      Drawn (i.context env now).row (i.lines.map (lineCredit sale)) base ∧
      Drawn (i.context env now).row
        (sponsorCredits registry sale i.tenant i.plan i.rawChain i.lines) sponsor ∧
      Drawn (i.context env now).row (overrideCredits registry earlier sale) override := by
  obtain ⟨earlier, -, hsplit⟩ := h.split
  obtain ⟨news, hdrawn, hrows⟩ := h.ledger
  rw [hsplit, Inputs.baseCredits, List.append_assoc] at hdrawn
  obtain ⟨base, bonuses, rfl, hbase, hbonuses⟩ := hdrawn.exists_append
  obtain ⟨sponsor, override, rfl, hsponsor, hoverride⟩ := hbonuses.exists_append
  exact ⟨base, sponsor, override, _, hrows, hbase, hsponsor, hoverride⟩

theorem isCommissionOf_row {env : Env} {now : Instant} {sale : Sale} {registry : Registry}
    (i : Inputs sale registry) (c : Credit) (id : Uuid) :
    isCommissionOf sale.id ((i.context env now).row c id) = true := by
  simp [isCommissionOf, CreditContext.row, Inputs.context]

/-- The ledger has the lines of the sale after its distribution. -/
theorem Distributed.baseLines_eq {env : Env} {now : Instant} {sale : Sale}
    {registry : Registry} {i : Inputs sale registry} {credits : List Credit} {db db' : Db}
    (h : Distributed env now i credits db db') (hplan : FinalizedPlan i.plan)
    (hfresh : ∀ e ∈ db.ledger, isCommissionOf sale.id e = false) :
    baseLines sale.id db'.ledger.rows = i.lines := by
  obtain ⟨base, sponsor, override, earlier, hrows, hbase, hsponsor, hoverride⟩ := h.rows_split
  have hold : db.ledger.rows.filter (isBaseOf sale.id) = [] := by
    refine List.filter_eq_nil_iff.mpr fun r hr => ?_
    rw [isBaseOf, hfresh r hr]
    exact Bool.false_ne_true
  have hkept : base.filter (isBaseOf sale.id) = base := by
    refine List.filter_eq_self.mpr fun r hr => ?_
    obtain ⟨c, hc, id, rfl⟩ := hbase.exists_of_mem hr
    obtain ⟨line, hline, rfl⟩ := List.mem_map.mp hc
    rw [i.lines_eq_saleLines] at hline
    obtain ⟨l, hl, hlineAt⟩ := mem_saleLines.mp hline
    have hlevel : line.level < 1000 := level_of_lineAt l line hlineAt ▸ hplan.level_base hl
    rw [isBaseOf, isCommissionOf_row, Bool.true_and, decide_eq_true_eq]
    exact hlevel
  have hdropped : (sponsor ++ override).filter (isBaseOf sale.id) = [] := by
    refine List.filter_eq_nil_iff.mpr fun r hr => ?_
    have hlevel : 1000 ≤ r.level := by
      rcases List.mem_append.mp hr with hr | hr
      · obtain ⟨c, hc, id, rfl⟩ := hsponsor.exists_of_mem hr
        have hlevel : ((i.context env now).row c id).level = c.level := rfl
        have hc := level_of_mem_sponsorCredits hc
        omega
      · obtain ⟨c, hc, id, rfl⟩ := hoverride.exists_of_mem hr
        have hlevel : ((i.context env now).row c id).level = c.level := rfl
        have hc := level_of_mem_overrideCredits hc
        omega
    rw [isBaseOf, Bool.and_eq_true, decide_eq_true_eq]
    omega
  have hlines : base.map lineOf = (i.lines.map (lineCredit sale)).map
      (fun c => (⟨c.level, c.beneficiaryMembershipId, c.rateBps, c.amountCents⟩ :
        CommissionLine)) := hbase.map_eq fun _ _ => rfl
  calc
    baseLines sale.id db'.ledger.rows
        = (base.filter (isBaseOf sale.id)).map lineOf := by
          rw [baseLines, hrows, List.filter_append, List.filter_append, hold, hdropped,
            List.nil_append, List.append_nil]
    _ = base.map lineOf := by rw [hkept]
    _ = i.lines.map fun line => line := by
          rw [hlines, List.map_map]
          rfl
    _ = i.lines := List.map_id' _

/-- What an application of a sale reads decides the base lines that it writes. -/
theorem Applies.baseLines_eq {env : Env} {now : Instant} {sale : Sale} {s s' : Session}
    {tenant : Tenant} {plan : CommissionPlan} {rawChain : List Membership}
    (h : Applies env now sale s s')
    (htenant : s.db.registry.tenants.find? sale.tenantId = some tenant)
    (hresolve : resolvePlan s.db.registry sale.tenantId sale.saleDate sale.commissionPlanId =
      some plan) (hplan : FinalizedPlan plan)
    (hchain : uplineChain s.db.registry plan.depth (some sale.sellerMembershipId) =
      .ok rawChain) :
    baseLines sale.id s'.db.ledger.rows =
      saleLines sale.amountCents plan (effectiveBaseChain rawChain tenant) := by
  obtain ⟨hfresh, i, credits, hdist⟩ := h.distributed
  have hsameTenant : i.tenant = tenant := Option.some.inj (i.tenant_eq.symm.trans htenant)
  have hsamePlan : i.plan = plan := Option.some.inj (i.plan_eq.symm.trans hresolve)
  have hread := i.chain_eq
  rw [hsamePlan, hchain] at hread
  have hsameChain : rawChain = i.rawChain := Except.ok.inj hread
  rw [hdist.baseLines_eq (hsamePlan ▸ hplan) hfresh, i.lines_eq_saleLines, hsamePlan,
    hsameTenant, hsameChain]

end Refearn.Engine
