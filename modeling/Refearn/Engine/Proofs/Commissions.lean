import Refearn.Engine.Commissions
/-!
# What a committed sale transaction has done

One theorem for each transaction of the sale half: which rows it appended, which
rows it rewrote, what it posted to the summaries, and which tables it left alone.
Every later proof starts from these and never unfolds a transaction again.
-/

namespace Refearn.Engine

open Support Support.Transaction
open Shared (CommissionLine BPS_DENOMINATOR computeCommissionLines bpsAmount_eq_ok
  totalDistributed)

/-! ## Frames -/

/-- The payout tables are the same. -/
structure PayoutsKept (db db' : Db) : Prop where
  payouts : db'.payouts = db.payouts
  batches : db'.batches = db.batches
  items : db'.items = db.items

theorem PayoutsKept.refl (db : Db) : PayoutsKept db db := ⟨rfl, rfl, rfl⟩

theorem PayoutsKept.trans {db₁ db₂ db₃ : Db} (h : PayoutsKept db₁ db₂)
    (h' : PayoutsKept db₂ db₃) : PayoutsKept db₁ db₃ :=
  ⟨h'.payouts.trans h.payouts, h'.batches.trans h.batches, h'.items.trans h.items⟩

/-! ## Shared statements -/

theorem commits_lockSale {saleId : Uuid} {expected : Option Uuid} {s s' : Session}
    {sale : Sale} :
    Commits (lockSale saleId expected) s sale s' ↔
      (sale ∈ s.db.sales ∧ sale.id = saleId ∧
        expected.all (fun tenantId => sale.tenantId = tenantId) = true) ∧ s = s' := by
  unfold lockSale
  simp only [commits_bind, commits_readDb, commits_orThrow, Option.filter_eq_some_iff,
    Table.find?_eq_some]
  constructor
  · rintro ⟨_, _, ⟨rfl, rfl⟩, ⟨⟨hmem, hkey⟩, hexp⟩, rfl⟩
    exact ⟨⟨hmem, hkey, hexp⟩, rfl⟩
  · rintro ⟨⟨hmem, hkey, hexp⟩, rfl⟩
    exact ⟨_, _, ⟨rfl, rfl⟩, ⟨⟨hmem, hkey⟩, hexp⟩, rfl⟩

theorem commits_findTenant {tenantId : Uuid} {s s' : Session} {tenant : Tenant} :
    Commits (findTenant tenantId) s tenant s' ↔
      s.db.registry.tenants.find? tenantId = some tenant ∧ s = s' := by
  unfold findTenant
  simp only [commits_bind, commits_readDb, commits_orThrow]
  constructor
  · rintro ⟨_, _, ⟨rfl, rfl⟩, h, rfl⟩
    exact ⟨h, rfl⟩
  · rintro ⟨h, rfl⟩
    exact ⟨_, _, ⟨rfl, rfl⟩, h, rfl⟩

theorem commits_updateSale {saleId : Uuid} {f : Sale → Sale} {hf : KeepsIndexes f}
    {s s' : Session} {u : PUnit} :
    Commits (updateSale saleId f hf) s u s' ↔
      s' = { s with db := { s.db with sales := s.db.sales.updateKey saleId f hf } } := by
  unfold updateSale
  simp only [commits_bind, commits_readDb, commits_writeDb]
  constructor
  · rintro ⟨_, _, ⟨rfl, rfl⟩, rfl⟩
    rfl
  · rintro rfl
    exact ⟨_, _, ⟨rfl, rfl⟩, rfl⟩

theorem commits_updateLedgerEntry {id : Uuid} {f : LedgerEntry → LedgerEntry}
    {hf : KeepsIndexes f} {s s' : Session} {u : PUnit} :
    Commits (updateLedgerEntry id f hf) s u s' ↔
      s' = { s with db := { s.db with ledger := s.db.ledger.updateKey id f hf } } := by
  unfold updateLedgerEntry
  simp only [commits_bind, commits_readDb, commits_writeDb]
  constructor
  · rintro ⟨_, _, ⟨rfl, rfl⟩, rfl⟩
    rfl
  · rintro rfl
    exact ⟨_, _, ⟨rfl, rfl⟩, rfl⟩

theorem clash_entry_comm (r r' : LedgerEntry) : clash r r' = clash r' r := by
  have hcomm : ∀ a b : Option Uuid, (a.isSome && a == b) = (b.isSome && b == a) := by
    intro a b
    cases a <;> cases b <;> simp [Bool.beq_comm]
  simp only [clash, hcomm, Bool.beq_comm (a := r.level), Bool.beq_comm (a := r.type)]

/-- One level of a sale has at most one commission. -/
theorem commission_unique {ledger : Table LedgerEntry} {saleId : Uuid} {r r' : LedgerEntry}
    (hr : r ∈ ledger) (hr' : r' ∈ ledger) (h : isCommissionOf saleId r = true)
    (h' : isCommissionOf saleId r' = true) (hlevel : r.level = r'.level) : r = r' := by
  simp only [isCommissionOf, Bool.and_eq_true, decide_eq_true_eq] at h h'
  refine Table.eq_of_clash clash_entry_comm hr hr' ?_
  simp [clash, h.1, h'.1, h.2, h'.2, hlevel]

/-! ## Credits -/

def CreditContext.posting (ctx : CreditContext) (c : Credit) : Posting :=
  (⟨ctx.sale.tenantId, c.beneficiaryMembershipId, ctx.month, c.level⟩, ctx.delta c)

/-- The credits have been written: a row and a posting for each, nothing else. -/
structure Credited (ctx : CreditContext) (cs : List Credit) (db db' : Db) : Prop where
  ledger : ∃ news, Drawn ctx.row cs news ∧ db'.ledger.rows = db.ledger.rows ++ news
  summaries : db'.summaries = postAll db.summaries (cs.map ctx.posting)
  registry : db'.registry = db.registry
  sales : db'.sales = db.sales
  payouts : PayoutsKept db db'

theorem Credited.nil (ctx : CreditContext) (db : Db) : Credited ctx [] db db where
  ledger := ⟨[], .nil, by simp⟩
  summaries := rfl
  registry := rfl
  sales := rfl
  payouts := .refl db

theorem Credited.append {ctx : CreditContext} {cs cs' : List Credit} {db₁ db₂ db₃ : Db}
    (h : Credited ctx cs db₁ db₂) (h' : Credited ctx cs' db₂ db₃) :
    Credited ctx (cs ++ cs') db₁ db₃ where
  ledger := by
    obtain ⟨news, hdrawn, hrows⟩ := h.ledger
    obtain ⟨news', hdrawn', hrows'⟩ := h'.ledger
    exact ⟨news ++ news', hdrawn.append hdrawn', by rw [hrows', hrows, List.append_assoc]⟩
  summaries := by rw [h'.summaries, h.summaries, List.map_append, postAll_append]
  registry := h'.registry.trans h.registry
  sales := h'.sales.trans h.sales
  payouts := h.payouts.trans h'.payouts

theorem Credited.of_creditCommission {ctx : CreditContext} {c : Credit} {s s' : Session}
    {u : PUnit} (h : Commits (creditCommission ctx c) s u s') :
    Credited ctx [c] s.db s'.db := by
  unfold creditCommission at h
  simp only [commits_bind, commits_createLedgerEntry, commits_bumpSummary,
    commits_createNotification] at h
  obtain ⟨_, _, ⟨ledger, hins, rfl, rfl⟩, _, _, rfl, rfl⟩ := h
  exact
    { ledger := ⟨_, .cons .nil, (Table.insert?_eq_some.mp hins).2⟩
      summaries := rfl
      registry := rfl
      sales := rfl
      payouts := ⟨rfl, rfl, rfl⟩ }

theorem Credited.of_forM {ctx : CreditContext} {cs : List Credit} {s s' : Session}
    (h : Commits (forM cs (creditCommission ctx)) s ⟨⟩ s') :
    Credited ctx cs s.db s'.db := by
  induction cs generalizing s with
  | nil =>
      simp only [List.forM_nil, commits_pure, true_and] at h
      exact h ▸ .nil ctx s.db
  | cons c cs ih =>
      rw [commits_forM_cons] at h
      obtain ⟨t, hc, hcs⟩ := h
      exact (Credited.of_creditCommission hc).append (ih hcs)

theorem Credited.of_addBonus {ctx : CreditContext} {sponsorId : Uuid} {level : Nat}
    {rateBps amount : Int} {cs : List Credit} {s s' : Session}
    (h : Commits (addBonus ctx sponsorId level rateBps amount) s cs s') :
    cs = (if amount ≤ 0 then [] else [bonusCredit ctx.sale sponsorId level rateBps amount]) ∧
      Credited ctx cs s.db s'.db := by
  unfold addBonus at h
  split_ifs at h ⊢ with hamount
  · simp only [commits_pure] at h
    obtain ⟨rfl, rfl⟩ := h
    exact ⟨rfl, .nil ctx s.db⟩
  · simp only [commits_bind, commits_pure] at h
    obtain ⟨_, t, hc, rfl, rfl⟩ := h
    exact ⟨rfl, Credited.of_creditCommission hc⟩

/-! ## Bonuses -/

/-- The bonus of one synthetic level, where it is due and worth a cent. -/
def bonusCredits (sale : Sale) (sponsorId : Uuid) (level : Nat) (amountCents rateBps : Int)
    (due : Bool) : List Credit :=
  let amount := floorShare BPS_DENOMINATOR amountCents rateBps
  if due then
    if amount ≤ 0 then [] else [bonusCredit sale sponsorId level rateBps amount]
  else []

/-- The matching bonus on the first line. -/
def matchingCredits (sale : Sale) (plan : CommissionPlan) (sponsorId : Uuid)
    (lines : List CommissionLine) : List Credit :=
  match lines with
  | [] => []
  | first :: _ =>
      bonusCredits sale sponsorId 1001 first.amountCents plan.matchingBps
        (0 < plan.matchingBps)

/-- The bonuses of the direct sponsor. -/
def sponsorCredits (registry : Registry) (sale : Sale) (tenant : Tenant)
    (plan : CommissionPlan) (rawChain : List Membership) (lines : List CommissionLine) :
    List Credit :=
  match earningSponsor tenant rawChain with
  | none => []
  | some sponsorId =>
      bonusCredits sale sponsorId 1000 sale.amountCents plan.fastStartBps
          (fastStartDue registry plan sale) ++
        matchingCredits sale plan sponsorId lines

/-- The rank override of the seller, given the rows the rank is read from. -/
def overrideCredits (registry : Registry) (rows : List LedgerEntry) (sale : Sale) :
    List Credit :=
  let overrideBps :=
    Ranks.overrideBpsFor registry rows sale.tenantId sale.sellerMembershipId
  let amount := floorShare BPS_DENOMINATOR sale.amountCents overrideBps
  if 0 < overrideBps then if 0 < amount then [overrideCredit sale overrideBps amount] else []
  else []

/-- A bonus block of the source: the share is computed and added where it is due. -/
theorem commits_bonus {ctx : CreditContext} {sponsorId : Uuid} {level : Nat}
    {amountCents rateBps : Int} {due : Bool} {cs : List Credit} {s s' : Session}
    (h : Commits (if due then do
        let amount ← raiseRange (Shared.bpsAmount amountCents rateBps)
        addBonus ctx sponsorId level rateBps amount
      else pure []) s cs s') :
    cs = bonusCredits ctx.sale sponsorId level amountCents rateBps due ∧
      Credited ctx cs s.db s'.db := by
  unfold bonusCredits
  cases due with
  | true =>
      rw [if_pos rfl] at h
      simp only [commits_bind, commits_raiseRange] at h
      obtain ⟨amount, _, ⟨hbps, rfl⟩, h⟩ := h
      rw [(bpsAmount_eq_ok.mp hbps).2.2.2] at h
      exact Credited.of_addBonus h
  | false =>
      simp only [Bool.false_eq_true, if_false, commits_pure] at h
      obtain ⟨rfl, rfl⟩ := h
      exact ⟨rfl, .nil ctx s.db⟩

theorem commits_payFastStart {ctx : CreditContext} {plan : CommissionPlan}
    {sponsorId : Uuid} {cs : List Credit} {s s' : Session}
    (h : Commits (payFastStart ctx plan sponsorId) s cs s') :
    cs = bonusCredits ctx.sale sponsorId 1000 ctx.sale.amountCents plan.fastStartBps
        (fastStartDue s.db.registry plan ctx.sale) ∧
      Credited ctx cs s.db s'.db := by
  unfold payFastStart at h
  rw [commits_bind] at h
  obtain ⟨db, t, hread, h⟩ := h
  obtain ⟨rfl, rfl⟩ := (commits_readDb ..).mp hread
  exact commits_bonus h

theorem commits_payMatching {ctx : CreditContext} {plan : CommissionPlan}
    {sponsorId : Uuid} {lines : List CommissionLine} {cs : List Credit} {s s' : Session}
    (h : Commits (payMatching ctx plan sponsorId lines) s cs s') :
    cs = matchingCredits ctx.sale plan sponsorId lines ∧ Credited ctx cs s.db s'.db := by
  cases lines with
  | nil =>
      simp only [payMatching, commits_pure] at h
      obtain ⟨rfl, rfl⟩ := h
      exact ⟨rfl, .nil ctx s.db⟩
  | cons first rest =>
      refine commits_bonus ?_
      simpa [payMatching] using h

theorem commits_paySponsorBonuses {ctx : CreditContext} {tenant : Tenant}
    {plan : CommissionPlan} {rawChain : List Membership} {lines : List CommissionLine}
    {cs : List Credit} {s s' : Session}
    (h : Commits (paySponsorBonuses ctx tenant plan rawChain lines) s cs s') :
    cs = sponsorCredits s.db.registry ctx.sale tenant plan rawChain lines ∧
      Credited ctx cs s.db s'.db := by
  unfold paySponsorBonuses at h
  unfold sponsorCredits
  cases hsponsor : earningSponsor tenant rawChain with
  | none =>
      simp only [hsponsor, commits_pure] at h
      obtain ⟨rfl, rfl⟩ := h
      exact ⟨rfl, .nil ctx s.db⟩
  | some sponsorId =>
      simp only [hsponsor, commits_bind, commits_pure] at h
      obtain ⟨fast, t, hfast, matching, t', hmatching, rfl, rfl⟩ := h
      obtain ⟨rfl, hfast⟩ := commits_payFastStart hfast
      obtain ⟨rfl, hmatching⟩ := commits_payMatching hmatching
      exact ⟨rfl, hfast.append hmatching⟩

theorem commits_payRankOverride {ctx : CreditContext} {cs : List Credit} {s s' : Session}
    (h : Commits (payRankOverride ctx) s cs s') :
    cs = overrideCredits s.db.registry s.db.ledger.rows ctx.sale ∧
      Credited ctx cs s.db s'.db := by
  unfold payRankOverride at h
  simp only [commits_bind, commits_readDb] at h
  obtain ⟨_, _, ⟨rfl, rfl⟩, h⟩ := h
  unfold overrideCredits
  by_cases hdue : 0 < Ranks.overrideBpsFor s.db.registry s.db.ledger.rows ctx.sale.tenantId
      ctx.sale.sellerMembershipId
  · rw [if_pos hdue] at h ⊢
    simp only [commits_bind, commits_raiseRange] at h
    obtain ⟨amount, _, ⟨hbps, rfl⟩, h⟩ := h
    rw [(bpsAmount_eq_ok.mp hbps).2.2.2] at h
    split_ifs at h ⊢ with hamount
    · simp only [commits_bind, commits_pure] at h
      obtain ⟨_, _, hc, rfl, rfl⟩ := h
      exact ⟨rfl, Credited.of_creditCommission hc⟩
    · simp only [commits_pure] at h
      obtain ⟨rfl, rfl⟩ := h
      exact ⟨rfl, .nil ctx s.db⟩
  · rw [if_neg hdue] at h ⊢
    simp only [commits_pure] at h
    obtain ⟨rfl, rfl⟩ := h
    exact ⟨rfl, .nil ctx s.db⟩

/-! ## Applying commissions -/

/-- What the engine reads before it distributes a sale. -/
structure Inputs (sale : Sale) (registry : Registry) where
  tenant : Tenant
  plan : CommissionPlan
  rawChain : List Membership
  lines : List CommissionLine
  tenant_eq : registry.tenants.find? sale.tenantId = some tenant
  plan_eq : resolvePlan registry sale.tenantId sale.saleDate sale.commissionPlanId = some plan
  chain_eq : uplineChain registry plan.depth (some sale.sellerMembershipId) = .ok rawChain
  lines_eq : computeCommissionLines sale.amountCents (planRates plan)
    (effectiveBaseChain rawChain tenant) = .ok lines

namespace Inputs

variable {sale : Sale} {registry : Registry}

def month (i : Inputs sale registry) (env : Env) : String := saleMonth env i.tenant sale

def context (i : Inputs sale registry) (env : Env) (now : Instant) : CreditContext where
  sale := sale
  month := i.month env
  status := (maturation i.tenant sale now).1
  maturesAt := (maturation i.tenant sale now).2
  now := now

/-- The base lines and the bonuses of the sponsor. -/
def baseCredits (i : Inputs sale registry) : List Credit :=
  i.lines.map (lineCredit sale) ++
    sponsorCredits registry sale i.tenant i.plan i.rawChain i.lines

/-- The sale row with its plan pinned and its month frozen. -/
def stamp (i : Inputs sale registry) (env : Env) (x : Sale) : Sale :=
  if x.id = sale.id then freezeMonth (i.month env) (pinPlan i.plan.id x) else x

def ceilingCents (i : Inputs sale registry) : Int :=
  (sale.amountCents * ceilingBps registry i.plan sale.tenantId).tdiv BPS_DENOMINATOR

end Inputs

/-- The commissions of a sale have been written. -/
structure Distributed (env : Env) (now : Instant) {sale : Sale} {registry : Registry}
    (i : Inputs sale registry) (credits : List Credit) (db db' : Db) : Prop where
  split : ∃ news, Drawn (i.context env now).row i.baseCredits news ∧
    credits = i.baseCredits ++ overrideCredits registry (db.ledger.rows ++ news) sale
  monthOpen : lockedPeriod registry sale.tenantId [i.month env] = none
  ceiling : creditTotal credits ≤ i.ceilingCents
  ledger : ∃ news, Drawn (i.context env now).row credits news ∧
    db'.ledger.rows = db.ledger.rows ++ news
  summaries : db'.summaries =
    postAll db.summaries (credits.map (i.context env now).posting)
  sales : db'.sales.rows = db.sales.rows.map (i.stamp env)
  registry : db'.registry = db.registry
  payouts : PayoutsKept db db'

theorem creditTotal_append (cs cs' : List Credit) :
    creditTotal (cs ++ cs') = creditTotal cs + creditTotal cs' := by
  simp [creditTotal]

theorem creditTotal_lines (sale : Sale) (lines : List CommissionLine) :
    creditTotal (lines.map (lineCredit sale)) = totalDistributed lines := by
  simp [creditTotal, totalDistributed, lineCredit, Function.comp_def]

theorem commits_distributeSale {env : Env} {now : Instant} {sale : Sale}
    {s s' : Session} {r : ApplyResult} (h : Commits (distributeSale env now sale) s r s') :
    ∃ (i : Inputs sale s.db.registry) (credits : List Credit),
      Distributed env now i credits s.db s'.db ∧ r = ⟨true, none, credits.length⟩ := by
  unfold distributeSale at h
  -- the readings first, one after another
  obtain ⟨tenant, _, hread, h⟩ := (commits_bind ..).mp h
  obtain ⟨htenant, rfl⟩ := (commits_findTenant ..).mp hread
  obtain ⟨db, _, hread, h⟩ := (commits_bind ..).mp h
  obtain ⟨rfl, rfl⟩ := (commits_readDb ..).mp hread
  obtain ⟨plan, _, hread, h⟩ := (commits_bind ..).mp h
  obtain ⟨hplan, rfl⟩ := (commits_orThrow ..).mp hread
  obtain ⟨_, _, hpin, h⟩ := (commits_bind ..).mp h
  obtain rfl := (commits_updateSale ..).mp hpin
  obtain ⟨rawChain, _, hread, h⟩ := (commits_bind ..).mp h
  obtain ⟨hchain, rfl⟩ := (commits_fromExcept ..).mp hread
  obtain ⟨lines, _, hread, h⟩ := (commits_bind ..).mp h
  obtain ⟨hlines, rfl⟩ := (commits_raiseRange ..).mp hread
  obtain ⟨_, _, hread, h⟩ := (commits_bind ..).mp h
  obtain ⟨hopen, rfl⟩ := (commits_assertPeriodsOpen ..).mp hread
  obtain ⟨_, _, hfreeze, h⟩ := (commits_bind ..).mp h
  obtain rfl := (commits_updateSale ..).mp hfreeze
  simp only [commits_bind, commits_require, commits_pure] at h
  obtain ⟨_, t₁, hbase, bonuses, t₂, hbonuses, override, t₃, hoverride, _, _, ⟨hceiling, rfl⟩,
    rfl, rfl⟩ := h
  let i : Inputs sale s.db.registry :=
    ⟨tenant, plan, rawChain, lines, htenant, hplan, hchain, hlines⟩
  have hbase := Credited.of_forM hbase
  obtain ⟨hbonusEq, hbonuses⟩ := commits_paySponsorBonuses hbonuses
  obtain ⟨hoverEq, hoverride⟩ := commits_payRankOverride hoverride
  have hsponsor := hbase.append hbonuses
  have hall := hsponsor.append hoverride
  have hreg₁ : t₁.db.registry = s.db.registry := hbase.registry
  have hreg₂ : t₂.db.registry = s.db.registry := hsponsor.registry
  rw [hreg₁] at hbonusEq
  rw [hreg₂] at hoverEq
  have hcredits : lines.map (lineCredit sale) ++ bonuses = i.baseCredits := by
    rw [hbonusEq]
    rfl
  obtain ⟨news, hdrawn, hrows⟩ := hsponsor.ledger
  rw [hcredits] at hdrawn
  have hrows : t₂.db.ledger.rows = s.db.ledger.rows ++ news := hrows
  rw [hrows] at hoverEq
  refine ⟨i, i.baseCredits ++ override, ?_, ?_⟩
  · rw [hcredits] at hall
    exact
      { split := ⟨news, hdrawn, by rw [hoverEq]⟩
        monthOpen := hopen
        ceiling := by
          rw [← hcredits, creditTotal_append, creditTotal_append, creditTotal_lines]
          exact hceiling
        ledger := hall.ledger
        summaries := hall.summaries
        sales := by
          rw [hall.sales]
          simp only [Table.rows_updateKey, List.map_map]
          refine List.map_congr_left fun x _ => ?_
          simp only [Function.comp, Inputs.stamp]
          by_cases hx : key x = sale.id
          · have hx' : key (pinPlan plan.id x) = sale.id := hx
            have hx'' : x.id = sale.id := hx
            rw [if_pos hx, if_pos hx', if_pos hx'']
            rfl
          · have hx' : ¬x.id = sale.id := hx
            rw [if_neg hx, if_neg hx, if_neg hx']
        registry := hall.registry
        payouts := ⟨hall.payouts.payouts, hall.payouts.batches, hall.payouts.items⟩ }
  · rw [← hcredits]
    simp [Nat.add_assoc]

/-- An application writes nothing, or distributes an approved sale that has no
commission row. -/
theorem commits_applyCommissionsInTx {env : Env} {now : Instant} {sale : Sale}
    {s s' : Session} {r : ApplyResult}
    (h : Commits (applyCommissionsInTx env now sale) s r s') :
    s' = s ∨
      (sale.status = .approved ∧ (∀ e ∈ s.db.ledger, isCommissionOf sale.id e = false) ∧
        ∃ (i : Inputs sale s.db.registry) (credits : List Credit),
          Distributed env now i credits s.db s'.db) := by
  unfold applyCommissionsInTx at h
  split_ifs at h with hstatus
  · simp only [commits_pure] at h
    exact .inl h.2.symm
  · rw [commits_bind] at h
    obtain ⟨_, _, hread, h⟩ := h
    obtain ⟨rfl, rfl⟩ := (commits_readDb ..).mp hread
    dsimp only at h
    split_ifs at h with hexisting
    · simp only [commits_pure] at h
      exact .inl h.2.symm
    · obtain ⟨i, credits, hdist, -⟩ := commits_distributeSale h
      refine .inr ⟨not_not.mp hstatus, fun e he => ?_, i, credits, hdist⟩
      by_contra hcom
      exact hexisting (List.countP_pos_iff.mpr ⟨e, he, Bool.of_not_eq_false hcom⟩)

theorem commits_applyCommissions {env : Env} {now : Instant} {saleId : Uuid}
    {s s' : Session} {r : ApplyResult}
    (h : Commits (applyCommissions env now saleId) s r s') :
    ∃ sale ∈ s.db.sales, sale.id = saleId ∧
      Commits (applyCommissionsInTx env now sale) s r s' := by
  unfold applyCommissions at h
  simp only [commits_bind, commits_lockSale] at h
  obtain ⟨sale, _, ⟨⟨hmem, hid, -⟩, rfl⟩, h⟩ := h
  exact ⟨sale, hmem, hid, h⟩

/-! ## Approving -/

theorem commits_checkMakerChecker {sale : Sale} {actorUserId : Option Uuid}
    {s s' : Session} {u : PUnit}
    (h : Commits (checkMakerChecker sale actorUserId) s u s') :
    ∃ auditLogs, s' = { s with db := { s.db with auditLogs := auditLogs } } := by
  unfold checkMakerChecker at h
  split_ifs at h
  · simp only [commits_bind, commits_findTenant, commits_require, commits_audit] at h
    obtain ⟨_, _, ⟨_, rfl⟩, _, _, ⟨_, rfl⟩, rfl⟩ := h
    exact ⟨_, rfl⟩
  · simp only [commits_pure] at h
    exact ⟨s.db.auditLogs, h.2.symm⟩

/-- The draft has been marked approved, nothing else that money depends on. -/
structure MarkedApproved (now : Instant) (actorUserId : Option Uuid) (saleId : Uuid)
    (db db' : Db) : Prop where
  sales : db'.sales.rows =
    db.sales.rows.map (fun x => if x.id = saleId then markApproved now actorUserId x else x)
  ledger : db'.ledger = db.ledger
  summaries : db'.summaries = db.summaries
  registry : db'.registry = db.registry
  payouts : PayoutsKept db db'

theorem commits_approveSaleInTx {env : Env} {now : Instant} {saleId : Uuid}
    {actorUserId expected : Option Uuid} {s s' : Session} {r : ApplyResult}
    (h : Commits (approveSaleInTx env now saleId actorUserId expected) s r s') :
    ∃ sale ∈ s.db.sales, sale.id = saleId ∧ sale.status ≠ .void ∧
      ((sale.status = .approved ∧ Commits (applyCommissionsInTx env now sale) s r s') ∨
        (sale.status = .draft ∧ ∃ t : Session,
          MarkedApproved now actorUserId saleId s.db t.db ∧
          Commits (applyCommissionsInTx env now
            { sale with status := .approved, approvedAt := some now }) t r s')) := by
  unfold approveSaleInTx at h
  simp only [commits_bind, commits_lockSale, commits_require] at h
  obtain ⟨sale, _, ⟨⟨hmem, hid, -⟩, rfl⟩, _, _, ⟨hvoid, rfl⟩, h⟩ := h
  refine ⟨sale, hmem, hid, hvoid, ?_⟩
  split_ifs at h with hdraft
  · simp only [commits_bind, commits_updateSale, commits_audit] at h
    obtain ⟨_, t₀, hcheck, _, _, rfl, _, _, rfl, h⟩ := h
    obtain ⟨logs, rfl⟩ := commits_checkMakerChecker hcheck
    refine .inr ⟨hdraft, _, ?_, h⟩
    exact
      { sales := Table.rows_updateKey _ _ _ (markApproved_keepsIndexes now actorUserId)
        ledger := rfl
        summaries := rfl
        registry := rfl
        payouts := ⟨rfl, rfl, rfl⟩ }
  · refine .inl ⟨?_, h⟩
    cases hstatus : sale.status with
    | draft => exact absurd hstatus hdraft
    | approved => rfl
    | void => exact absurd hstatus hvoid

/-! ## Voiding -/

def reversalPosting (sale : Sale) (month : String) (entry : LedgerEntry) : Posting :=
  (⟨sale.tenantId, entry.beneficiaryMembershipId, month, entry.level⟩, reversalDelta entry)

/-- Whether a void closes the row: it is one of the entries and not paid. -/
def closes (entries : List LedgerEntry) (r : LedgerEntry) : Bool :=
  entries.any (fun e => e.id = r.id ∧ e.status ≠ .paid)

def close (entries : List LedgerEntry) (r : LedgerEntry) : LedgerEntry :=
  if closes entries r then setStatus .reversed r else r

/-- The entries have been reversed: a reversal row and a posting for each, and every
entry that was not paid is closed. -/
structure Reversed (sale : Sale) (month : String) (now : Instant)
    (entries : List LedgerEntry) (db db' : Db) : Prop where
  ledger : ∃ news, Drawn (reversalRow sale now) entries news ∧
    db'.ledger.rows = db.ledger.rows.map (close entries) ++ news
  summaries : db'.summaries =
    postAll db.summaries (entries.map (reversalPosting sale month))
  registry : db'.registry = db.registry
  sales : db'.sales = db.sales
  payouts : PayoutsKept db db'

@[simp] theorem close_nil (r : LedgerEntry) : close [] r = r := rfl

theorem close_of_notMem {entries : List LedgerEntry} {r : LedgerEntry}
    (h : ∀ e ∈ entries, e.id ≠ r.id) : close entries r = r := by
  unfold close closes
  rw [if_neg]
  simp only [List.any_eq_true, decide_eq_true_eq]
  exact fun ⟨e, he, hid, _⟩ => h e he hid

theorem close_cons (e : LedgerEntry) (entries : List LedgerEntry) (r : LedgerEntry) :
    close entries (close [e] r) = close (e :: entries) r := by
  have hkeep : closes entries (close [e] r) = closes entries r := by
    unfold close
    split_ifs <;> rfl
  conv_lhs => rw [close]
  rw [hkeep]
  have hcons : closes (e :: entries) r = (closes [e] r || closes entries r) := by
    simp [closes]
  conv_rhs => rw [close]
  rw [hcons]
  cases closes entries r <;> cases hone : closes [e] r <;> simp [close, hone, setStatus]

theorem commits_reverseEntry {sale : Sale} {month : String} {now : Instant}
    {entry : LedgerEntry} {s s' : Session} {u : PUnit}
    (h : Commits (reverseEntry sale month now entry) s u s')
    (hentry : ∃ r ∈ s.db.ledger, r.id = entry.id) :
    Reversed sale month now [entry] s.db s'.db ∧
      ∃ new, (∀ r ∈ s.db.ledger, r.id ≠ new.id) ∧
        s'.db.ledger.rows = s.db.ledger.rows.map (close [entry]) ++ [new] ∧
        new = reversalRow sale now entry new.id := by
  unfold reverseEntry at h
  simp only [commits_bind, commits_createLedgerEntry, commits_bumpSummary,
    commits_createNotification] at h
  obtain ⟨new, _, ⟨ledger, hins, rfl, rfl⟩, _, t, hclose, _, _, rfl, rfl⟩ := h
  obtain ⟨hfresh, hrows⟩ := Table.insert?_eq_some.mp hins
  have hnew : entry.id ≠ s.uuids 0 := by
    obtain ⟨r, hr, hid⟩ := hentry
    exact hid ▸ (hfresh r hr).1
  unfold closeEntry at hclose
  have hledger : t.db.ledger.rows =
      s.db.ledger.rows.map (close [entry]) ++ [reversalRow sale now entry (s.uuids 0)] := by
    split_ifs at hclose with hpaid
    · rw [commits_updateLedgerEntry] at hclose
      rw [hclose]
      simp only [Table.rows_updateKey, hrows, List.map_append, List.map_cons, List.map_nil]
      congr 1
      · refine List.map_congr_left fun r _ => ?_
        by_cases hid : r.id = entry.id
        · have hkey : key r = entry.id := hid
          rw [if_pos hkey]
          simp [close, closes, hid, hpaid]
        · have hkey : ¬key r = entry.id := hid
          rw [if_neg hkey]
          exact (close_of_notMem (by simpa using Ne.symm hid)).symm
      · have hkey : ¬key (reversalRow sale now entry (s.uuids 0)) = entry.id :=
          fun hk => hnew hk.symm
        rw [if_neg hkey]
    · simp only [commits_pure, true_and] at hclose
      rw [← hclose]
      have hsame : s.db.ledger.rows.map (close [entry]) = s.db.ledger.rows := by
        refine List.map_id'' (fun r => ?_) _
        simp [close, closes, not_not.mp hpaid]
      rw [hsame]
      exact hrows
  have hframe : t.db.summaries = s.db.summaries ∧ t.db.registry = s.db.registry ∧
      t.db.sales = s.db.sales ∧ PayoutsKept s.db t.db := by
    split_ifs at hclose
    · rw [commits_updateLedgerEntry] at hclose
      rw [hclose]
      exact ⟨rfl, rfl, rfl, ⟨rfl, rfl, rfl⟩⟩
    · simp only [commits_pure, true_and] at hclose
      rw [← hclose]
      exact ⟨rfl, rfl, rfl, ⟨rfl, rfl, rfl⟩⟩
  obtain ⟨hsum, hreg, hsales, hpayouts⟩ := hframe
  refine ⟨?_, reversalRow sale now entry (s.uuids 0),
    fun r hr => (hfresh r hr).1, hledger, rfl⟩
  exact
    { ledger := ⟨_, .cons .nil, hledger⟩
      summaries := by
        change upsertSummary t.db.summaries _ _ = _
        rw [hsum]
        rfl
      registry := hreg
      sales := hsales
      payouts := ⟨hpayouts.payouts, hpayouts.batches, hpayouts.items⟩ }

theorem Reversed.of_forM {sale : Sale} {month : String} {now : Instant}
    {entries : List LedgerEntry} {s s' : Session}
    (h : Commits (forM entries (reverseEntry sale month now)) s ⟨⟩ s')
    (hentries : ∀ e ∈ entries, ∃ r ∈ s.db.ledger, r.id = e.id) :
    Reversed sale month now entries s.db s'.db := by
  induction entries generalizing s with
  | nil =>
      simp only [List.forM_nil, commits_pure, true_and] at h
      rw [← h]
      exact
        { ledger := ⟨[], .nil, by rw [List.append_nil, List.map_id'' close_nil]⟩
          summaries := rfl
          registry := rfl
          sales := rfl
          payouts := .refl _ }
  | cons e entries ih =>
      rw [commits_forM_cons] at h
      obtain ⟨t, hone, hrest⟩ := h
      obtain ⟨hfirst, new, hfresh, hrows, hnew⟩ :=
        commits_reverseEntry hone (hentries e List.mem_cons_self)
      have hleft : ∀ e' ∈ entries, ∃ r ∈ t.db.ledger, r.id = e'.id := by
        intro e' he'
        obtain ⟨r, hr, hid⟩ := hentries e' (List.mem_cons_of_mem _ he')
        refine ⟨close [e] r, ?_, ?_⟩
        · rw [Table.mem_def, hrows]
          exact List.mem_append_left _ (List.mem_map_of_mem hr)
        · rw [← hid]
          unfold close
          split_ifs <;> rfl
      have hrest := ih hrest hleft
      obtain ⟨news, hdrawn, hrows'⟩ := hrest.ledger
      have hkeep : close entries new = new := close_of_notMem fun e' he' => by
        obtain ⟨r, hr, hid⟩ := hentries e' (List.mem_cons_of_mem _ he')
        exact hid ▸ hfresh r hr
      have hcons : Drawn (reversalRow sale now) (e :: entries) (new :: news) := by
        rw [hnew]
        exact .cons hdrawn
      exact
        { ledger := by
            refine ⟨new :: news, hcons, ?_⟩
            rw [hrows', hrows, List.map_append, List.map_map, List.map_cons, List.map_nil,
              hkeep, List.append_assoc, List.singleton_append]
            congr 1
            exact List.map_congr_left fun r _ => close_cons e entries r
          summaries := by
            rw [hrest.summaries, hfirst.summaries]
            rfl
          registry := hrest.registry.trans hfirst.registry
          sales := hrest.sales.trans hfirst.sales
          payouts := hfirst.payouts.trans hrest.payouts }

theorem mem_liveCommissions {ledger : Table LedgerEntry} {saleId : Uuid}
    {e : LedgerEntry} :
    e ∈ liveCommissions ledger saleId ↔
      e ∈ ledger ∧ isCommissionOf saleId e = true ∧ LedgerStatus.isLive e.status = true := by
  simp [liveCommissions, List.mem_insertionSort, Table.mem_def]

/-- A sale has been voided: it is void, and its live commissions are reversed. -/
structure Voided (now : Instant) (sale : Sale) (month : String) (db db' : Db) :
    Prop where
  sales : db'.sales.rows =
    db.sales.rows.map (fun x => if x.id = sale.id then markVoid x else x)
  ledger : ∃ news,
    Drawn (reversalRow sale now) (liveCommissions db.ledger sale.id) news ∧
      db'.ledger.rows =
        db.ledger.rows.map (close (liveCommissions db.ledger sale.id)) ++ news
  summaries : db'.summaries = postAll db.summaries
    ((liveCommissions db.ledger sale.id).map (reversalPosting sale month))
  registry : db'.registry = db.registry
  payouts : PayoutsKept db db'

/-- A void finds the sale void already, or no live commission of it is processing and
it voids the sale. -/
theorem commits_voidSaleInTx {env : Env} {now : Instant} {saleId : Uuid}
    {actorUserId expected : Option Uuid} {s s' : Session} {r : VoidSaleResult}
    (h : Commits (voidSaleInTx env now saleId actorUserId expected) s r s') :
    ∃ sale ∈ s.db.sales, sale.id = saleId ∧
      ((sale.status = .void ∧ s' = s ∧ r = ⟨false, 0⟩) ∨
        (sale.status ≠ .void ∧
          (∀ e ∈ liveCommissions s.db.ledger saleId, e.status ≠ .processing) ∧
          r = ⟨true, (liveCommissions s.db.ledger saleId).length⟩ ∧
          ∃ month, (∀ frozen, sale.summaryMonth = some frozen → month = frozen) ∧
            Voided now sale month s.db s'.db)) := by
  unfold voidSaleInTx at h
  simp only [commits_bind, commits_lockSale] at h
  obtain ⟨sale, _, ⟨⟨hmem, hid, -⟩, rfl⟩, h⟩ := h
  refine ⟨sale, hmem, hid, ?_⟩
  subst hid
  split_ifs at h with hvoid
  · simp only [commits_pure] at h
    exact .inl ⟨hvoid, h.2.symm, h.1.symm⟩
  · simp only [commits_bind, commits_readDb, commits_require, commits_updateSale,
      commits_audit] at h
    obtain ⟨_, _, ⟨rfl, rfl⟩, _, _, ⟨hprocessing, rfl⟩, _, _, rfl, _, _, rfl, h⟩ := h
    refine .inr ⟨hvoid, hprocessing, ?_⟩
    split_ifs at h with hempty
    · simp only [commits_pure] at h
      obtain ⟨rfl, rfl⟩ := h
      have hnil := List.length_eq_zero_iff.mp hempty
      refine ⟨by rw [hempty], sale.summaryMonth.getD "", ?_, ?_⟩
      · rintro frozen hfrozen
        rw [hfrozen]
        rfl
      · exact
          { sales := Table.rows_updateKey _ _ _ markVoid_keepsIndexes
            ledger := by
              rw [hnil]
              exact ⟨[], .nil, by rw [List.append_nil, List.map_id'' close_nil]⟩
            summaries := by rw [hnil]; rfl
            registry := rfl
            payouts := ⟨rfl, rfl, rfl⟩ }
    · simp only [commits_bind, commits_pure] at h
      obtain ⟨month, t, hmonth, _, t', hloop, rfl, rfl⟩ := h
      have hfixed : (∀ frozen, sale.summaryMonth = some frozen → month = frozen) ∧
          t = { s with db := { s.db with
            sales := s.db.sales.updateKey sale.id markVoid markVoid_keepsIndexes
            auditLogs := s.db.auditLogs ++ [⟨sale.tenantId, actorUserId, "sale.void",
              sale.id, statusJson (SaleStatus.text sale.status), statusJson "void"⟩] } } := by
        unfold voidMonth at hmonth
        split at hmonth
        · next frozen hfrozen =>
            simp only [commits_pure] at hmonth
            obtain ⟨rfl, rfl⟩ := hmonth
            refine ⟨fun frozen' hfrozen' => ?_, rfl⟩
            rw [hfrozen] at hfrozen'
            exact Option.some.inj hfrozen'
        · next hnone =>
            simp only [fallbackMonth, commits_bind, commits_findTenant,
              commits_pure] at hmonth
            obtain ⟨_, _, ⟨_, rfl⟩, _, rfl⟩ := hmonth
            exact ⟨fun _ hsome => absurd (hnone.symm.trans hsome) (Option.some_ne_none _).symm, rfl⟩
      obtain ⟨hfrozen, rfl⟩ := hfixed
      refine ⟨rfl, month, hfrozen, ?_⟩
      have hrev := Reversed.of_forM hloop fun e he =>
        ⟨e, (mem_liveCommissions.mp he).1, rfl⟩
      exact
        { sales := by
            rw [hrev.sales]
            exact Table.rows_updateKey _ _ _ markVoid_keepsIndexes
          ledger := hrev.ledger
          summaries := hrev.summaries
          registry := hrev.registry
          payouts := ⟨hrev.payouts.payouts, hrev.payouts.batches, hrev.payouts.items⟩ }

/-! ## Delivering -/

/-- A sale has been delivered and its waiting rows know when they mature. -/
structure Delivered (sale : Sale) (deliveredAt maturesAt : Instant) (db db' : Db) :
    Prop where
  sales : db'.sales.rows = db.sales.rows.map (fun x =>
    if x.id = sale.id then markSaleDelivered deliveredAt x else x)
  ledger : db'.ledger.rows = db.ledger.rows.map (fun r =>
    if awaitsDelivery sale.id r then setMaturesAt maturesAt r else r)
  summaries : db'.summaries = db.summaries
  registry : db'.registry = db.registry
  payouts : PayoutsKept db db'

theorem commits_markDelivered {saleId : Uuid} {deliveredAt : Instant} {s s' : Session}
    {r : Bool} (h : Commits (markDelivered saleId deliveredAt) s r s') :
    ∃ sale ∈ s.db.sales, sale.id = saleId ∧ sale.status = .approved ∧
      (s' = s ∨
        (sale.deliveredAt = none ∧ ∃ maturesAt,
          Delivered sale deliveredAt maturesAt s.db s'.db)) := by
  unfold markDelivered at h
  simp only [commits_bind, commits_lockSale, commits_require] at h
  obtain ⟨sale, _, ⟨⟨hmem, hid, -⟩, rfl⟩, _, _, ⟨happroved, rfl⟩, h⟩ := h
  subst hid
  refine ⟨sale, hmem, rfl, happroved, ?_⟩
  split_ifs at h with hdelivered
  · simp only [commits_pure] at h
    exact .inl h.2.symm
  · simp only [commits_bind, commits_updateSale, commits_findTenant, commits_readDb,
      commits_writeDb, commits_pure] at h
    obtain ⟨_, _, rfl, tenant, _, ⟨-, rfl⟩, _, _, ⟨rfl, rfl⟩, _, _, rfl, -, rfl⟩ := h
    refine .inr ⟨by simpa using hdelivered, deliveryMaturesAt tenant deliveredAt, ?_⟩
    exact
      { sales := Table.rows_updateKey _ _ _ (markSaleDelivered_keepsIndexes deliveredAt)
        ledger := rfl
        summaries := rfl
        registry := rfl
        payouts := ⟨rfl, rfl, rfl⟩ }

/-! ## Maturing -/

def maturePosting (row : DueRow) : Posting :=
  (⟨row.tenantId, row.membershipId, row.month, row.level⟩,
    { pending := -row.amountCents, payable := row.amountCents })

/-- Set the status of the rows whose id is listed. -/
def setStatusOf (ids : List Uuid) (status : LedgerStatus) (r : LedgerEntry) :
    LedgerEntry :=
  if r.id ∈ ids then setStatus status r else r

/-- The due rows have become payable. -/
structure Matured (batch : List DueRow) (db db' : Db) : Prop where
  ledger : db'.ledger.rows = db.ledger.rows.map (setStatusOf (batch.map DueRow.id) .payable)
  summaries : db'.summaries = postAll db.summaries (batch.map maturePosting)
  registry : db'.registry = db.registry
  sales : db'.sales = db.sales
  payouts : PayoutsKept db db'

theorem Matured.of_forM {batch : List DueRow} {s s' : Session}
    (h : Commits (forM batch matureRow) s ⟨⟩ s') : Matured batch s.db s'.db := by
  induction batch generalizing s with
  | nil =>
      simp only [List.forM_nil, commits_pure, true_and] at h
      rw [← h]
      exact
        { ledger := (List.map_id'' (fun r => by simp [setStatusOf]) _).symm
          summaries := rfl
          registry := rfl
          sales := rfl
          payouts := .refl _ }
  | cons row batch ih =>
      rw [commits_forM_cons] at h
      obtain ⟨t, hone, hrest⟩ := h
      have hrest := ih hrest
      unfold matureRow at hone
      simp only [commits_bind, commits_updateLedgerEntry, commits_bumpSummary] at hone
      obtain ⟨_, _, rfl, rfl⟩ := hone
      exact
        { ledger := by
            rw [hrest.ledger]
            simp only [Table.rows_updateKey, List.map_map]
            refine List.map_congr_left fun r _ => ?_
            simp only [Function.comp, setStatusOf, List.map_cons, List.mem_cons]
            by_cases hid : r.id = row.id
            · have hkey : key r = row.id := hid
              rw [if_pos hkey]
              simp [hid, setStatus]
            · have hkey : ¬key r = row.id := hid
              rw [if_neg hkey]
              simp [hid]
          summaries := hrest.summaries
          registry := hrest.registry
          sales := hrest.sales
          payouts :=
            ⟨hrest.payouts.payouts, hrest.payouts.batches, hrest.payouts.items⟩ }

/-- The rows that one call of the maturation job converts. -/
def matureBatch (env : Env) (db : Db) (now : Instant) (limit : Int)
    (lockedRows : List Uuid) : List DueRow :=
  (dueRows env db now lockedRows).take limit.toNat

theorem commits_matureCommissions {env : Env} {now : Instant} {limit : Int}
    {lockedRows : List Uuid} {s s' : Session} {r : MatureResult}
    (h : Commits (matureCommissions env now limit lockedRows) s r s') :
    0 < limit ∧ Matured (matureBatch env s.db now limit lockedRows) s.db s'.db := by
  unfold matureCommissions at h
  simp only [commits_bind, commits_require, commits_readDb, commits_pure,
    List.take_take, Nat.min_eq_left (Nat.le_succ _)] at h
  obtain ⟨_, _, ⟨hlimit, rfl⟩, _, _, ⟨rfl, rfl⟩, _, _, hloop, -, rfl⟩ := h
  exact ⟨hlimit, Matured.of_forM hloop⟩

/-- A due row is a pending commission of a sale, and carries that sale's month. -/
theorem dueRow_eq_some {env : Env} {db : Db} {now : Instant} {r : LedgerEntry}
    {row : DueRow} (h : dueRow env db now r = some row) :
    r.type = .commission ∧ r.status = .pending ∧
      (∃ maturesAt, r.maturesAt = some maturesAt ∧ maturesAt ≤ now) ∧
      (db.registry.tenants.find? r.tenantId).isSome = true ∧
      row.id = r.id ∧ row.tenantId = r.tenantId ∧
      row.membershipId = r.beneficiaryMembershipId ∧ row.level = r.level ∧
      row.amountCents = r.amountCents ∧
      ∃ sale, r.saleId.bind db.sales.find? = some sale ∧
        ∀ month, sale.summaryMonth = some month → row.month = month := by
  unfold dueRow at h
  split_ifs at h with hdue
  obtain ⟨htype, hstatus, hmatures⟩ := hdue
  have hmatures : ∃ maturesAt, r.maturesAt = some maturesAt ∧ maturesAt ≤ now := by
    cases hm : r.maturesAt with
    | none => simp [hm] at hmatures
    | some m => exact ⟨m, rfl, by simpa [hm] using hmatures⟩
  split at h
  · next sale tenant hsale htenant =>
      cases h
      refine ⟨htype, hstatus, hmatures, by rw [htenant]; rfl, rfl, rfl, rfl, rfl, rfl,
        sale, hsale, fun month hmonth => ?_⟩
      rw [hmonth]
      rfl
  · cases h

theorem mem_dueRows {env : Env} {db : Db} {now : Instant} {lockedRows : List Uuid}
    {row : DueRow} (h : row ∈ dueRows env db now lockedRows) :
    ∃ r ∈ db.ledger, dueRow env db now r = some row := by
  unfold dueRows at h
  obtain ⟨r, hr, hrow⟩ := List.mem_filterMap.mp h
  rw [List.mem_insertionSort, List.mem_filter] at hr
  exact ⟨r, hr.1, hrow⟩

theorem mem_matureBatch {env : Env} {db : Db} {now : Instant} {limit : Int}
    {lockedRows : List Uuid} {row : DueRow}
    (h : row ∈ matureBatch env db now limit lockedRows) :
    ∃ r ∈ db.ledger, dueRow env db now r = some row :=
  mem_dueRows (List.mem_of_mem_take h)

/-- No row is converted twice. -/
theorem nodup_matureBatch (env : Env) (db : Db) (now : Instant) (limit : Int)
    (lockedRows : List Uuid) :
    ((matureBatch env db now limit lockedRows).map DueRow.id).Nodup := by
  refine List.Nodup.sublist ((List.take_sublist _ _).map _) ?_
  have hsorted : (((db.ledger.rows.filter (fun r => r.id ∉ lockedRows)).insertionSort
      byCreatedAt).map LedgerEntry.id).Nodup := by
    refine ((List.perm_insertionSort _ _).map _).nodup_iff.mpr ?_
    exact (List.filter_sublist.map _).nodup db.ledger.keys_nodup
  unfold dueRows
  generalize (db.ledger.rows.filter (fun r => r.id ∉ lockedRows)).insertionSort
    byCreatedAt = rows at hsorted
  rw [List.map_filterMap]
  induction rows with
  | nil => exact List.nodup_nil
  | cons r rows ih =>
      rw [List.map_cons, List.nodup_cons] at hsorted
      rw [List.filterMap_cons]
      cases hrow : (dueRow env db now r).map DueRow.id with
      | none => exact ih hsorted.2
      | some id =>
          refine List.nodup_cons.mpr ⟨fun hmem => ?_, ih hsorted.2⟩
          obtain ⟨row, hdue, rfl⟩ := Option.map_eq_some_iff.mp hrow
          obtain ⟨r', hr', hrow'⟩ := List.mem_filterMap.mp hmem
          obtain ⟨row', hdue', hid⟩ := Option.map_eq_some_iff.mp hrow'
          have hr := (dueRow_eq_some hdue).2.2.2.2.1
          have hr'' := (dueRow_eq_some hdue').2.2.2.2.1
          refine hsorted.1 (List.mem_map.mpr ⟨r', hr', ?_⟩)
          rw [← hr'', hid, hr]

/-! ## Bonuses without a sale -/

structure Awarded (params : AwardBonusParams) (now : Instant) (db db' : Db) : Prop where
  monthOpen : lockedPeriod db.registry params.tenantId [params.month] = none
  ledger : ∃ id, db'.ledger.rows = db.ledger.rows ++ [bonusRow params now id]
  summaries : db'.summaries =
    upsertSummary db.summaries ⟨params.tenantId, params.membershipId, params.month, 0⟩
      { payable := params.amountCents }
  registry : db'.registry = db.registry
  sales : db'.sales = db.sales
  payouts : PayoutsKept db db'

theorem commits_awardBonus {params : AwardBonusParams} {now : Instant} {s s' : Session}
    {id : Uuid} (h : Commits (awardBonus now params) s id s') :
    Awarded params now s.db s'.db := by
  unfold awardBonus at h
  simp only [commits_bind, commits_assertPeriodsOpen, commits_readDb, commits_require,
    commits_createLedgerEntry, commits_bumpSummary, commits_createNotification,
    commits_audit, commits_pure] at h
  obtain ⟨_, _, ⟨hopen, rfl⟩, _, _, ⟨rfl, rfl⟩, _, _, ⟨-, rfl⟩, _, _,
    ⟨ledger, hins, rfl, rfl⟩, _, _, rfl, _, _, rfl, _, _, rfl, -, rfl⟩ := h
  exact
    { monthOpen := hopen
      ledger := ⟨_, (Table.insert?_eq_some.mp hins).2⟩
      summaries := rfl
      registry := rfl
      sales := rfl
      payouts := ⟨rfl, rfl, rfl⟩ }

end Refearn.Engine
