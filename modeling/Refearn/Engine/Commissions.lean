import Refearn.Engine.Store
import Refearn.Shared.Commission
import Refearn.Ranks
/-!
# Commissions

The sale half of `engine.service.ts`: approving a sale and writing its
commissions, voiding it, delivering it, maturing what has become due, and bonuses
that belong to no sale.
-/

namespace Refearn.Engine

open Support Support.Transaction
open Shared (CommissionLine PlanLevelRate BPS_DENOMINATOR bpsAmount byLevel
  computeCommissionLines totalDistributed)

/-! ## Reading the inputs of a sale -/

/-- The row of a sale, within a tenant where one is expected. -/
def lockSale (saleId : Uuid) (expectedTenantId : Option Uuid) : Tx Sale := do
  let db ← readDb
  orThrow
    ((db.sales.find? saleId).filter (fun sale =>
      expectedTenantId.all (fun tenantId => sale.tenantId = tenantId)))
    (.notFound s!"sale not found: {saleId.text}")

/-- `ORDER BY effective_from DESC, version DESC`. -/
def newerPlan (p p' : CommissionPlan) : Prop :=
  p'.effectiveFrom < p.effectiveFrom ∨
    (p'.effectiveFrom = p.effectiveFrom ∧ p'.version ≤ p.version)

instance : DecidableRel newerPlan := fun p p' =>
  inferInstanceAs (Decidable
    (p'.effectiveFrom < p.effectiveFrom ∨
      (p'.effectiveFrom = p.effectiveFrom ∧ p'.version ≤ p.version)))

/-- The newest finalized plan that is effective at the sale date. -/
def findPlan (registry : Registry) (tenantId : Uuid) (saleDate : Instant) :
    Option CommissionPlan :=
  ((registry.plans.rows.filter (fun p =>
      p.tenantId = tenantId ∧ p.finalized ∧ p.effectiveFrom ≤ saleDate)).insertionSort
    newerPlan).head?

/-- The plan pinned to a sale, or the one found by its date. -/
def resolvePlan (registry : Registry) (tenantId : Uuid) (saleDate : Instant)
    (commissionPlanId : Option Uuid) : Option CommissionPlan :=
  match commissionPlanId with
  | some planId =>
      (registry.plans.find? planId).filter (fun p => p.tenantId = tenantId ∧ p.finalized)
  | none => findPlan registry tenantId saleDate

/-- The rates of a plan in level order. -/
def planRates (plan : CommissionPlan) : List PlanLevelRate :=
  (plan.levels.map (fun l => ⟨l.level, l.rateBps⟩)).insertionSort byLevel

/-- The members from the seller upward, at most `depth` of them. -/
def uplineChain (registry : Registry) :
    Nat → Option Uuid → Except EngineError (List Membership)
  | 0, _ => .ok []
  | _ + 1, none => .ok []
  | depth + 1, some currentId =>
      match registry.memberships.find? currentId with
      | none => .error (.notFound s!"membership not found: {currentId.text}")
      | some m => do
          let rest ← uplineChain registry depth m.sponsorMembershipId
          pure (m :: rest)

/-- The chain that earns: with compression inactive uplines are skipped, without it
and with inactive members not earning their places are left empty. -/
def effectiveBaseChain (raw : List Membership) (tenant : Tenant) : List (Option Uuid) :=
  match raw with
  | [] => []
  | seller :: uplines =>
      if tenant.compressionEnabled then
        some seller.id ::
          (uplines.filter (fun u => u.status = .active)).map (fun u => some u.id)
      else if !tenant.inactiveMembersEarn then
        some seller.id ::
          uplines.map (fun u => if u.status = .active then some u.id else none)
      else raw.map (fun m => some m.id)

/-- The status of a new row and the time it matures. -/
def maturation (tenant : Tenant) (sale : Sale) (now : Instant) :
    LedgerStatus × Option Instant :=
  let delay := tenant.maturationDays.getD 0 * DAY_MS
  match tenant.maturationRule with
  | .onApproval => (.payable, none)
  | .onDelivery => (.pending, sale.deliveredAt)
  | .daysAfterApproval => (.pending, some (sale.approvedAt.getD now + delay))
  | .daysAfterDelivery => (.pending, sale.deliveredAt.map (· + delay))

/-! ## Writing one commission -/

/-- A commission to write: its row, and the notification that goes with it. -/
structure Credit where
  beneficiaryMembershipId : Uuid
  level : Nat
  rateBps : Int
  amountCents : Int
  template : String
  payload : Json

/-- What all commissions of one application share. -/
structure CreditContext where
  sale : Sale
  month : String
  status : LedgerStatus
  maturesAt : Option Instant
  now : Instant

def CreditContext.row (ctx : CreditContext) (c : Credit) (id : Uuid) : LedgerEntry where
  id := id
  tenantId := ctx.sale.tenantId
  saleId := some ctx.sale.id
  beneficiaryMembershipId := c.beneficiaryMembershipId
  level := c.level
  rateBpsUsed := c.rateBps
  amountCents := c.amountCents
  type := .commission
  status := ctx.status
  summaryMonth := none
  maturesAt := ctx.maturesAt
  payoutId := none
  payoutBatchId := none
  createdAt := ctx.now

def CreditContext.delta (ctx : CreditContext) (c : Credit) : SummaryDelta :=
  if ctx.status = .payable then { payable := c.amountCents }
  else { pending := c.amountCents }

/-- The three blocks of the source that write a commission differ in the credit. -/
def creditCommission (ctx : CreditContext) (c : Credit) : Tx PUnit := do
  let _ ← createLedgerEntry (ctx.row c)
  bumpSummary ctx.sale.tenantId c.beneficiaryMembershipId ctx.month c.level (ctx.delta c)
  createNotification ctx.sale.tenantId c.beneficiaryMembershipId c.template c.payload

def lineCredit (sale : Sale) (line : CommissionLine) : Credit where
  beneficiaryMembershipId := line.beneficiaryMembershipId
  level := line.level
  rateBps := line.rateBpsUsed
  amountCents := line.amountCents
  template := "commission_earned"
  payload := .obj
    [("saleId", .str sale.id.text), ("level", .num line.level),
      ("amountCents", .ofCents line.amountCents), ("currency", .str sale.currency)]

def bonusCredit (sale : Sale) (sponsorId : Uuid) (level : Nat) (rateBps amount : Int) :
    Credit where
  beneficiaryMembershipId := sponsorId
  level := level
  rateBps := rateBps
  amountCents := amount
  template := "commission_earned"
  payload := .obj [("saleId", .str sale.id.text), ("amountCents", .ofCents amount)]

def overrideCredit (sale : Sale) (overrideBps amount : Int) : Credit where
  beneficiaryMembershipId := sale.sellerMembershipId
  level := 1002
  rateBps := overrideBps
  amountCents := amount
  template := "rank_override_earned"
  payload := .obj
    [("saleId", .str sale.id.text), ("amountCents", .ofCents amount),
      ("overrideBps", .num overrideBps)]

/-! ## Bonuses -/

/-- Write a bonus unless it is worth nothing; returns what was written. -/
def addBonus (ctx : CreditContext) (sponsorId : Uuid) (level : Nat)
    (rateBps amount : Int) : Tx (List Credit) :=
  if amount ≤ 0 then pure []
  else do
    let credit := bonusCredit ctx.sale sponsorId level rateBps amount
    creditCommission ctx credit
    pure [credit]

/-- The direct sponsor, where the tenant lets it earn. -/
def earningSponsor (tenant : Tenant) (rawChain : List Membership) : Option Uuid :=
  match rawChain[1]? with
  | none => none
  | some sponsor =>
      if tenant.inactiveMembersEarn ∨ sponsor.status = .active then some sponsor.id
      else none

/-- The seller joined recently enough before the sale. -/
def fastStartDue (registry : Registry) (plan : CommissionPlan) (sale : Sale) : Bool :=
  0 < plan.fastStartBps && 0 < plan.fastStartDays &&
    (registry.memberships.find? sale.sellerMembershipId).any (fun seller =>
      sale.saleDate - seller.joinedAt ≤ plan.fastStartDays * DAY_MS)

def payFastStart (ctx : CreditContext) (plan : CommissionPlan) (sponsorId : Uuid) :
    Tx (List Credit) := do
  let db ← readDb
  if fastStartDue db.registry plan ctx.sale then do
    let amount ← raiseRange (bpsAmount ctx.sale.amountCents plan.fastStartBps)
    addBonus ctx sponsorId 1000 plan.fastStartBps amount
  else pure []

/-- The sponsor's share of the first line, whatever level that line is of. -/
def payMatching (ctx : CreditContext) (plan : CommissionPlan) (sponsorId : Uuid)
    (lines : List CommissionLine) : Tx (List Credit) :=
  match lines with
  | [] => pure []
  | first :: _ =>
      if 0 < plan.matchingBps then do
        let amount ← raiseRange (bpsAmount first.amountCents plan.matchingBps)
        addBonus ctx sponsorId 1001 plan.matchingBps amount
      else pure []

def paySponsorBonuses (ctx : CreditContext) (tenant : Tenant) (plan : CommissionPlan)
    (rawChain : List Membership) (lines : List CommissionLine) : Tx (List Credit) :=
  match earningSponsor tenant rawChain with
  | none => pure []
  | some sponsorId => do
      let fastStart ← payFastStart ctx plan sponsorId
      let matching ← payMatching ctx plan sponsorId lines
      pure (fastStart ++ matching)

/-- The rank is read after the other rows of the sale have been written. -/
def payRankOverride (ctx : CreditContext) : Tx (List Credit) := do
  let db ← readDb
  let overrideBps := Ranks.overrideBpsFor db.registry db.ledger.rows ctx.sale.tenantId
    ctx.sale.sellerMembershipId
  if 0 < overrideBps then do
    let amount ← raiseRange (bpsAmount ctx.sale.amountCents overrideBps)
    if 0 < amount then do
      let credit := overrideCredit ctx.sale overrideBps amount
      creditCommission ctx credit
      pure [credit]
    else pure []
  else pure []

/-! ## Applying commissions -/

inductive NotAppliedReason | notApproved | alreadyApplied
  deriving DecidableEq

structure ApplyResult where
  applied : Bool
  reason : Option NotAppliedReason
  entryCount : Nat
  deriving DecidableEq

def creditTotal (credits : List Credit) : Int :=
  (credits.map Credit.amountCents).sum

def updateSale (saleId : Uuid) (f : Sale → Sale) (hf : KeepsIndexes f) : Tx PUnit := do
  let db ← readDb
  writeDb { db with sales := db.sales.updateKey saleId f hf }

/-- Pin the plan to the sale where none is pinned yet. -/
def pinPlan (planId : Uuid) (sale : Sale) : Sale :=
  { sale with commissionPlanId := some (sale.commissionPlanId.getD planId) }

/-- Freeze the month of the sale where none is frozen yet. -/
def freezeMonth (month : String) (sale : Sale) : Sale :=
  { sale with summaryMonth := some (sale.summaryMonth.getD month) }

theorem pinPlan_keepsIndexes (planId : Uuid) : KeepsIndexes (pinPlan planId) :=
  ⟨fun _ => rfl, fun _ _ h => h, fun _ _ h => h⟩

theorem freezeMonth_keepsIndexes (month : String) : KeepsIndexes (freezeMonth month) :=
  ⟨fun _ => rfl, fun _ _ h => h, fun _ _ h => h⟩

/-- The month of the sale's summaries: the frozen one, or the month of its date. -/
def saleMonth (env : Env) (tenant : Tenant) (sale : Sale) : String :=
  sale.summaryMonth.getD (env.monthKey sale.saleDate tenant.timezone)

/-- All parts of the rate ceiling of one sale. -/
def ceilingBps (registry : Registry) (plan : CommissionPlan) (tenantId : Uuid) : Int :=
  plan.poolRateBps + plan.fastStartBps + plan.matchingBps +
    Ranks.maxOverrideBps registry tenantId

/-- Distribute an approved sale that has no commission row yet. -/
def distributeSale (env : Env) (now : Instant) (sale : Sale) : Tx ApplyResult := do
  let tenant ← findTenant sale.tenantId
  let db ← readDb
  let plan ← orThrow
    (resolvePlan db.registry sale.tenantId sale.saleDate sale.commissionPlanId)
    (.conflict "no finalized commission plan is effective for this sale")
  updateSale sale.id (pinPlan plan.id) (pinPlan_keepsIndexes plan.id)
  let rawChain ← fromExcept
    (uplineChain db.registry plan.depth (some sale.sellerMembershipId))
  let chain := effectiveBaseChain rawChain tenant
  let lines ← raiseRange (computeCommissionLines sale.amountCents (planRates plan) chain)
  let month := saleMonth env tenant sale
  assertPeriodsOpen sale.tenantId [month]
  updateSale sale.id (freezeMonth month) (freezeMonth_keepsIndexes month)
  let ctx : CreditContext :=
    { sale := sale, month := month, status := (maturation tenant sale now).1
      maturesAt := (maturation tenant sale now).2, now := now }
  forM (lines.map (lineCredit sale)) (creditCommission ctx)
  let bonuses ← paySponsorBonuses ctx tenant plan rawChain lines
  let override ← payRankOverride ctx
  let distributed := totalDistributed lines + creditTotal bonuses + creditTotal override
  let ceiling := (sale.amountCents * ceilingBps db.registry plan sale.tenantId).tdiv
    BPS_DENOMINATOR
  require (distributed ≤ ceiling) (.conflict
    (s!"komisyon dagitim tavani asildi (sale={sale.id.text}): dagitilan {distributed} > " ++
      s!"tavan {ceiling} ({ceilingBps db.registry plan sale.tenantId} bps)"))
  pure ⟨true, none, lines.length + bonuses.length + override.length⟩

/-- The commission rows a sale has, whatever their status. -/
def isCommissionOf (saleId : Uuid) (r : LedgerEntry) : Bool :=
  r.saleId = some saleId && r.type = .commission

def applyCommissionsInTx (env : Env) (now : Instant) (sale : Sale) : Tx ApplyResult :=
  if sale.status ≠ .approved then pure ⟨false, some .notApproved, 0⟩
  else do
    let db ← readDb
    let existing := db.ledger.rows.countP (isCommissionOf sale.id)
    if 0 < existing then pure ⟨false, some .alreadyApplied, existing⟩
    else distributeSale env now sale

def applyCommissions (env : Env) (now : Instant) (saleId : Uuid) : Tx ApplyResult := do
  let sale ← lockSale saleId none
  applyCommissionsInTx env now sale

/-! ## Approving -/

def statusJson (status : String) : Json := .obj [("status", .str status)]

/-- The creator may approve only where the tenant allows it, and leaves a signal. -/
def checkMakerChecker (sale : Sale) (actorUserId : Option Uuid) : Tx PUnit :=
  if actorUserId.isSome ∧ sale.createdBy = actorUserId then do
    let tenant ← findTenant sale.tenantId
    require (tenant.requireSeparateApprover = false)
      (.forbidden "the sale creator cannot approve the sale (separation of duties)")
    audit sale.tenantId actorUserId "security.self_approved_sale" sale.id (.obj [])
      (.obj [("createdBy", .ofOption (sale.createdBy.map Uuid.text))])
  else pure ⟨⟩

def markApproved (now : Instant) (actorUserId : Option Uuid) (sale : Sale) : Sale :=
  { sale with status := .approved, approvedAt := some now, approvedBy := actorUserId }

theorem markApproved_keepsIndexes (now : Instant) (actorUserId : Option Uuid) :
    KeepsIndexes (markApproved now actorUserId) :=
  ⟨fun _ => rfl, fun _ _ h => h, fun _ _ h => h⟩

def approveSaleInTx (env : Env) (now : Instant) (saleId : Uuid)
    (actorUserId expectedTenantId : Option Uuid) : Tx ApplyResult := do
  let sale ← lockSale saleId expectedTenantId
  require (sale.status ≠ .void) (.conflict "voided sales cannot be approved")
  if sale.status = .draft then do
    checkMakerChecker sale actorUserId
    updateSale saleId (markApproved now actorUserId)
      (markApproved_keepsIndexes now actorUserId)
    audit sale.tenantId actorUserId "sale.approve" saleId (statusJson "draft")
      (statusJson "approved")
    applyCommissionsInTx env now { sale with status := .approved, approvedAt := some now }
  else applyCommissionsInTx env now sale

def approveSale (env : Env) (now : Instant) (saleId : Uuid)
    (actorUserId : Option Uuid) : Tx ApplyResult :=
  approveSaleInTx env now saleId actorUserId none

/-! ## Voiding -/

structure VoidSaleResult where
  voided : Bool
  reversalCount : Nat
  deriving DecidableEq

def SaleStatus.text : SaleStatus → String
  | .draft => "draft"
  | .approved => "approved"
  | .void => "void"

def LedgerStatus.isLive : LedgerStatus → Bool
  | .pending | .payable | .processing | .paid => true
  | .reversed => false

def byEntryLevel (r r' : LedgerEntry) : Prop := r.level ≤ r'.level

instance : DecidableRel byEntryLevel := fun r r' => Nat.decLe r.level r'.level

/-- The commission rows of a sale that a void takes back, in level order. -/
def liveCommissions (ledger : Table LedgerEntry) (saleId : Uuid) : List LedgerEntry :=
  (ledger.rows.filter (fun r =>
    isCommissionOf saleId r && LedgerStatus.isLive r.status)).insertionSort byEntryLevel

/-- The reversal of a paid row stays payable, every other one is closed with it. -/
def reversalStatus (entry : LedgerEntry) : LedgerStatus :=
  if entry.status = .paid then .payable else .reversed

def reversalRow (sale : Sale) (now : Instant) (entry : LedgerEntry) (id : Uuid) :
    LedgerEntry where
  id := id
  tenantId := sale.tenantId
  saleId := some sale.id
  beneficiaryMembershipId := entry.beneficiaryMembershipId
  level := entry.level
  rateBpsUsed := entry.rateBpsUsed
  amountCents := -entry.amountCents
  type := .reversal
  status := reversalStatus entry
  summaryMonth := none
  maturesAt := none
  payoutId := none
  payoutBatchId := none
  createdAt := now

def reversalDelta (entry : LedgerEntry) : SummaryDelta :=
  if entry.status = .pending then { pending := -entry.amountCents }
  else { payable := -entry.amountCents }

def updateLedgerEntry (id : Uuid) (f : LedgerEntry → LedgerEntry)
    (hf : KeepsIndexes f) : Tx PUnit := do
  let db ← readDb
  writeDb { db with ledger := db.ledger.updateKey id f hf }

/-- A row that was not paid is closed together with its reversal. -/
def closeEntry (entry : LedgerEntry) : Tx PUnit :=
  if entry.status ≠ .paid then
    updateLedgerEntry entry.id (setStatus .reversed) (setStatus_keepsIndexes .reversed)
  else pure ⟨⟩

/-- One pass of the void loop. -/
def reverseEntry (sale : Sale) (month : String) (now : Instant) (entry : LedgerEntry) :
    Tx PUnit := do
  let _ ← createLedgerEntry (reversalRow sale now entry)
  closeEntry entry
  bumpSummary sale.tenantId entry.beneficiaryMembershipId month entry.level
    (reversalDelta entry)
  createNotification sale.tenantId entry.beneficiaryMembershipId "commission_reversed"
    (.obj
      [("saleId", .str sale.id.text), ("level", .num entry.level),
        ("amountCents", .ofCents (-entry.amountCents)), ("currency", .str sale.currency)])

def fallbackMonth (env : Env) (sale : Sale) : Tx String := do
  let tenant ← findTenant sale.tenantId
  pure (env.monthKey sale.saleDate tenant.timezone)

def voidMonth (env : Env) (sale : Sale) : Tx String :=
  match sale.summaryMonth with
  | some month => pure month
  | none => fallbackMonth env sale

def markVoid (sale : Sale) : Sale := { sale with status := .void }

theorem markVoid_keepsIndexes : KeepsIndexes markVoid :=
  ⟨fun _ => rfl, fun _ _ h => h, fun _ _ h => h⟩

def voidSaleInTx (env : Env) (now : Instant) (saleId : Uuid)
    (actorUserId expectedTenantId : Option Uuid) : Tx VoidSaleResult := do
  let sale ← lockSale saleId expectedTenantId
  if sale.status = .void then pure ⟨false, 0⟩
  else do
    let db ← readDb
    let entries := liveCommissions db.ledger saleId
    require (∀ entry ∈ entries, entry.status ≠ .processing)
      (.conflict "a sale cannot be voided while a linked payout is processing")
    updateSale saleId markVoid markVoid_keepsIndexes
    audit sale.tenantId actorUserId "sale.void" saleId
      (statusJson (SaleStatus.text sale.status)) (statusJson "void")
    if entries.length = 0 then pure ⟨true, 0⟩
    else do
      let month ← voidMonth env sale
      forM entries (reverseEntry sale month now)
      pure ⟨true, entries.length⟩

def voidSale (env : Env) (now : Instant) (saleId : Uuid) (actorUserId : Option Uuid) :
    Tx VoidSaleResult :=
  voidSaleInTx env now saleId actorUserId none

/-! ## Delivering and maturing -/

def markSaleDelivered (deliveredAt : Instant) (sale : Sale) : Sale :=
  { sale with deliveredAt := some deliveredAt }

theorem markSaleDelivered_keepsIndexes (deliveredAt : Instant) :
    KeepsIndexes (markSaleDelivered deliveredAt) :=
  ⟨fun _ => rfl, fun _ _ h => h, fun _ _ h => h⟩

/-- A row that waits for the delivery of its sale. -/
def awaitsDelivery (saleId : Uuid) (r : LedgerEntry) : Bool :=
  isCommissionOf saleId r && r.status = .pending && r.maturesAt.isNone

def setMaturesAt (maturesAt : Instant) (r : LedgerEntry) : LedgerEntry :=
  { r with maturesAt := some maturesAt }

theorem setMaturesAt_keepsIndexes (maturesAt : Instant) :
    KeepsIndexes (setMaturesAt maturesAt) :=
  ⟨fun _ => rfl, fun _ _ h => h, fun _ _ h => h⟩

def deliveryMaturesAt (tenant : Tenant) (deliveredAt : Instant) : Instant :=
  if tenant.maturationRule = .daysAfterDelivery then
    deliveredAt + tenant.maturationDays.getD 0 * DAY_MS
  else deliveredAt

/-- Returns whether this call delivered the sale. -/
def markDelivered (saleId : Uuid) (deliveredAt : Instant) : Tx Bool := do
  let sale ← lockSale saleId none
  require (sale.status = .approved) (.conflict "only approved sales can be delivered")
  if sale.deliveredAt.isSome then pure false
  else do
    updateSale saleId (markSaleDelivered deliveredAt)
      (markSaleDelivered_keepsIndexes deliveredAt)
    let tenant ← findTenant sale.tenantId
    let maturesAt := deliveryMaturesAt tenant deliveredAt
    let db ← readDb
    writeDb
      { db with
        ledger := db.ledger.updateWhere (awaitsDelivery saleId) (setMaturesAt maturesAt)
          (setMaturesAt_keepsIndexes maturesAt) }
    pure true

structure DueRow where
  id : Uuid
  tenantId : Uuid
  membershipId : Uuid
  level : Nat
  amountCents : Int
  month : String
  deriving DecidableEq

/-- A pending row whose time has come, joined with its sale and its tenant. -/
def dueRow (env : Env) (db : Db) (now : Instant) (r : LedgerEntry) : Option DueRow :=
  if r.type = .commission ∧ r.status = .pending ∧ r.maturesAt.any (· ≤ now) then
    match r.saleId.bind db.sales.find?, db.registry.tenants.find? r.tenantId with
    | some sale, some tenant =>
        some
          { id := r.id, tenantId := r.tenantId, membershipId := r.beneficiaryMembershipId
            level := r.level, amountCents := r.amountCents
            month := sale.summaryMonth.getD (env.toCharMonth sale.saleDate tenant.timezone) }
    | _, _ => none
  else none

def byCreatedAt (r r' : LedgerEntry) : Prop := r.createdAt ≤ r'.createdAt

instance : DecidableRel byCreatedAt := fun r r' => Int.decLe r.createdAt r'.createdAt

/-- The due rows in order of creation; `SKIP LOCKED` passes over the rows that
another transaction holds. -/
def dueRows (env : Env) (db : Db) (now : Instant) (lockedRows : List Uuid) :
    List DueRow :=
  ((db.ledger.rows.filter (fun r => r.id ∉ lockedRows)).insertionSort
    byCreatedAt).filterMap (dueRow env db now)

structure MatureResult where
  matured : Nat
  hasMore : Bool
  deriving DecidableEq

/-- One pass of the maturation loop. -/
def matureRow (row : DueRow) : Tx PUnit := do
  updateLedgerEntry row.id (setStatus .payable) (setStatus_keepsIndexes .payable)
  bumpSummary row.tenantId row.membershipId row.month row.level
    { pending := -row.amountCents, payable := row.amountCents }

def matureCommissions (env : Env) (now : Instant) (limit : Int)
    (lockedRows : List Uuid) : Tx MatureResult := do
  require (0 < limit) (.badRequest "maturation batch limit must be a positive integer")
  let db ← readDb
  let due := (dueRows env db now lockedRows).take (limit.toNat + 1)
  let batch := due.take limit.toNat
  forM batch matureRow
  pure ⟨batch.length, limit.toNat < due.length⟩

/-! ## Bonuses without a sale -/

structure AwardBonusParams where
  tenantId : Uuid
  membershipId : Uuid
  amountCents : Int
  month : String
  reason : String
  actorUserId : Option Uuid
  metadata : List (String × Json)

/-- `{ ...members, ...overriding }` -/
def spread (members overriding : List (String × Json)) : Json :=
  .obj
    (members.map (fun (k, v) => (k, ((overriding.find? (·.1 = k)).map Prod.snd).getD v)) ++
      overriding.filter (fun (k, _) => members.all (·.1 ≠ k)))

def bonusRow (params : AwardBonusParams) (now : Instant) (id : Uuid) : LedgerEntry where
  id := id
  tenantId := params.tenantId
  saleId := none
  beneficiaryMembershipId := params.membershipId
  level := 0
  rateBpsUsed := 0
  amountCents := params.amountCents
  type := .adjustment
  status := .payable
  summaryMonth := some params.month
  maturesAt := none
  payoutId := none
  payoutBatchId := none
  createdAt := now

/-- Returns the id of the written row. -/
def awardBonus (now : Instant) (params : AwardBonusParams) : Tx Uuid := do
  assertPeriodsOpen params.tenantId [params.month]
  let db ← readDb
  require ((db.registry.memberships.find? params.membershipId).isSome)
    (.foreignKeyViolation "beneficiary_membership_id")
  let entry ← createLedgerEntry (bonusRow params now)
  bumpSummary params.tenantId params.membershipId params.month 0
    { payable := params.amountCents }
  createNotification params.tenantId params.membershipId "bonus_awarded"
    (.obj [("amountCents", .ofCents params.amountCents), ("reason", .str params.reason)])
  audit params.tenantId params.actorUserId "campaign.bonus" entry.id (.obj [])
    (spread
      [("membershipId", .str params.membershipId.text),
        ("amountCents", .ofCents params.amountCents), ("reason", .str params.reason)]
      params.metadata)
  pure entry.id

end Refearn.Engine
