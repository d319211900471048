import Refearn.Sales.BulkScope
/-!
# The review of a bulk action

`calculateBulkReview` of `sales.service.ts` with `reviewSaleApprovalInputs` of the
engine: which sales of a scope an action would change, and the fingerprint of
everything that was looked at to decide it.
-/

namespace Refearn.Sales

open Support Engine
open Shared (CommissionLine computeCommissionLines)

/-! ## What an approval would consume -/

def MaturationRule.text : MaturationRule → String
  | .onApproval => "on_approval"
  | .onDelivery => "on_delivery"
  | .daysAfterApproval => "days_after_approval"
  | .daysAfterDelivery => "days_after_delivery"

/-- `orderBy: [{ level: 'asc' }, { id: 'asc' }]` -/
def byLevelAndId (l l' : CommissionPlanLevel) : Prop :=
  l.level < l'.level ∨ (l.level = l'.level ∧ l.id ≤ l'.id)

instance : DecidableRel byLevelAndId := fun l l' =>
  inferInstanceAs (Decidable (l.level < l'.level ∨ (l.level = l'.level ∧ l.id ≤ l'.id)))

structure ResolvedCommissionInputs where
  tenant : Tenant
  plan : CommissionPlan
  chain : List (Option Uuid)
  lines : List CommissionLine

/-- The plan is the one of the sale date here, whatever plan is pinned to the sale. -/
def resolveCommissionInputsOrNull (registry : Registry) (tenantId sellerMembershipId : Uuid)
    (amountCents : Int) (saleDate : Instant) :
    Except EngineError (Option ResolvedCommissionInputs) :=
  match registry.tenants.find? tenantId with
  | none => .error .recordNotFound
  | some tenant =>
      match findPlan registry tenantId saleDate with
      | none => .ok none
      | some found => do
          let plan := { found with levels := found.levels.insertionSort byLevelAndId }
          let rawChain ← uplineChain registry plan.depth (some sellerMembershipId)
          let chain := effectiveBaseChain rawChain tenant
          let lines ← (computeCommissionLines amountCents
            (plan.levels.map fun l => ⟨l.level, l.rateBps⟩) chain).mapError .rangeError
          pure (some ⟨tenant, plan, chain, lines⟩)

/-- The place of a chain; an emptied place is the empty text. -/
def placeJson (place : Option Uuid) : Json := .str ((place.map Uuid.text).getD "")

def intOrNull : Option Int → Json
  | none => .null
  | some n => .num n

/-- The object that `reviewSaleApprovalInputs` returns. -/
def approvalInputsJson (env : BulkEnv) (inputs : ResolvedCommissionInputs) : Json :=
  .obj
    [("tenant", .obj
        [("requireSeparateApprover", .bool inputs.tenant.requireSeparateApprover),
          ("compressionEnabled", .bool inputs.tenant.compressionEnabled),
          ("inactiveMembersEarn", .bool inputs.tenant.inactiveMembersEarn),
          ("maturationRule", .str (MaturationRule.text inputs.tenant.maturationRule)),
          ("maturationDays", intOrNull inputs.tenant.maturationDays),
          ("timezone", .str inputs.tenant.timezone)]),
      ("plan", .obj
        [("id", .str inputs.plan.id.text), ("poolRateBps", .num inputs.plan.poolRateBps),
          ("depth", .num inputs.plan.depth),
          ("effectiveFrom", .str (env.toISOString inputs.plan.effectiveFrom)),
          ("levels", .arr (inputs.plan.levels.map fun l => .obj
            [("id", .str l.id.text), ("level", .num l.level), ("rateBps", .num l.rateBps)]))]),
      ("chain", .arr (inputs.chain.map placeJson)),
      ("commissionLines", .arr (inputs.lines.map fun line => .obj
        [("level", .num line.level),
          ("beneficiaryMembershipId", .str line.beneficiaryMembershipId.text),
          ("rateBpsUsed", .num line.rateBpsUsed), ("amountCents", .ofCents line.amountCents)]))]

/-! ## The sales of a scope -/

def saleMatches (env : BulkEnv) (registry : Registry) (tenantId : Uuid)
    (filters : NormalizedBulkFilters) (sale : Sale) : Bool :=
  let seller := registry.memberships.find? sale.sellerMembershipId
  let contains := fun (term : String) (text : Option String) =>
    text.any (env.containsInsensitive term)
  sale.tenantId = tenantId && filters.status.all (sale.status = ·) &&
    (filters.summaryMonth.filter (· ≠ "")).all (fun month => sale.summaryMonth = some month) &&
    filters.fromDate.all (fun text => env.dateOf text ≤ sale.saleDate) &&
    filters.toDate.all (fun text => sale.saleDate ≤ env.dateOf text) &&
    filters.minCents.all (· ≤ sale.amountCents) && filters.maxCents.all (sale.amountCents ≤ ·) &&
    ((filters.q.map trim).filter (· ≠ "")).all fun term =>
      contains term sale.customerRef || contains term sale.externalRef ||
        contains term (seller.map Membership.referralCode) ||
        contains term ((seller.bind fun m => registry.users.find? m.userId).map User.fullName)

def bySaleId (s s' : Sale) : Prop := s.id ≤ s'.id

instance : DecidableRel bySaleId := fun s s' =>
  inferInstanceAs (Decidable (s.id ≤ s'.id))

def MAX_BULK_RESULTS : Nat := 200

def salesForBulkScope (env : BulkEnv) (db : Db) (tenantId : Uuid) :
    NormalizedBulkScope → Except EngineError (List Sale)
  | .selected ids =>
      let rows := (db.sales.rows.filter fun s =>
        s.tenantId = tenantId ∧ s.id ∈ ids).insertionSort bySaleId
      if rows.length ≠ ids.length then
        .error (.notFound "sale was not found in this business")
      else .ok rows
  | .allResults filters =>
      let rows := ((db.sales.rows.filter (saleMatches env db.registry tenantId
        filters)).insertionSort bySaleId).take (MAX_BULK_RESULTS + 1)
      if MAX_BULK_RESULTS < rows.length then
        .error (.badRequest "sales bulk scope exceeds 200 results; narrow the filters")
      else .ok rows

/-! ## Eligibility of one sale -/

/-- `/^[A-Z]{3}$/` -/
def isCurrencyCode (text : String) : Bool :=
  text.toList.length = 3 && text.toList.all fun c => 'A' ≤ c && c ≤ 'Z'

def commissionRows (db : Db) (saleId : Uuid) : List LedgerEntry :=
  db.ledger.rows.filter fun r => r.saleId = some saleId ∧ r.type = .commission

/-- One entry of the selection: the sale, the decision on it, and for an approval what
it would consume. -/
structure SelectionEntry where
  sale : Sale
  eligible : Bool
  commissionLedger : List LedgerEntry
  approvalInputs : Option (Option ResolvedCommissionInputs)

def approvalReview (registry : Registry) (actor : ActorContext) (tenant : Tenant) (sale : Sale) :
    Except EngineError (Option ResolvedCommissionInputs) :=
  let makerCheckerExcluded := tenant.requireSeparateApprover ∧ sale.createdBy = some actor.userId
  if sale.status = .draft ∧ ¬makerCheckerExcluded then
    resolveCommissionInputsOrNull registry actor.tenantId sale.sellerMembershipId
      sale.amountCents sale.saleDate
  else .ok none

def byEntryId (r r' : LedgerEntry) : Prop := r.id ≤ r'.id

instance : DecidableRel byEntryId := fun r r' =>
  inferInstanceAs (Decidable (r.id ≤ r'.id))

def reviewSale (db : Db) (actor : ActorContext) (tenant : Tenant) (action : BulkAction)
    (sale : Sale) : Except EngineError SelectionEntry :=
  if !isCurrencyCode sale.currency then
    .error (.badRequest "a sale in this scope has an invalid currency")
  else if sale.amountCents ≤ 0 then
    .error (.badRequest "a sale in this scope has an invalid amount")
  else
    let ledger := (commissionRows db sale.id).insertionSort byEntryId
    match action with
    | .approve => do
        let inputs ← approvalReview db.registry actor tenant sale
        pure ⟨sale, inputs.isSome, ledger, some inputs⟩
    | .void =>
        let eligible := (sale.status = .draft || sale.status = .approved) &&
          ledger.all fun r => r.status ≠ .processing
        .ok ⟨sale, eligible, ledger, none⟩

/-! ## The review -/

def LedgerStatus.text : LedgerStatus → String
  | .pending => "pending"
  | .payable => "payable"
  | .processing => "processing"
  | .paid => "paid"
  | .reversed => "reversed"

def commissionJson (r : LedgerEntry) : Json :=
  .obj
    [("id", .str r.id.text), ("beneficiaryMembershipId", .str r.beneficiaryMembershipId.text),
      ("level", .num r.level), ("rateBpsUsed", .num r.rateBpsUsed),
      ("amountCents", .ofCents r.amountCents), ("status", .str (LedgerStatus.text r.status))]

def approvalInputsOrNull (env : BulkEnv) : Option ResolvedCommissionInputs → Json
  | none => .null
  | some inputs => approvalInputsJson env inputs

def SelectionEntry.json (env : BulkEnv) (entry : SelectionEntry) : Json :=
  let sale := entry.sale
  .obj (Json.defined
    [("id", some (.str sale.id.text)),
      ("decision", some (.str (if entry.eligible then "eligible" else "not_eligible"))),
      ("status", some (.str (SaleStatus.text sale.status))),
      ("amountCents", some (.ofCents sale.amountCents)), ("currency", some (.str sale.currency)),
      ("sellerMembershipId", some (.str sale.sellerMembershipId.text)),
      ("saleDate", some (.str (env.toISOString sale.saleDate))),
      ("summaryMonth", some (.ofOption sale.summaryMonth)),
      ("createdBy", some (.ofOption (sale.createdBy.map Uuid.text))),
      ("approvedAt", some (.ofOption (sale.approvedAt.map env.toISOString))),
      ("deliveredAt", some (.ofOption (sale.deliveredAt.map env.toISOString))),
      ("commissionLedger", some (.arr (entry.commissionLedger.map commissionJson))),
      ("approvalInputs", entry.approvalInputs.map (approvalInputsOrNull env))])

def selectionMaterial (env : BulkEnv) (action : BulkAction) (tenant : Tenant)
    (entries : List SelectionEntry) : Json :=
  .obj
    [("action", .str action.text),
      ("requireSeparateApprover", .bool tenant.requireSeparateApprover),
      ("sales", .arr (entries.map (SelectionEntry.json env)))]

structure BulkReview where
  eligibleIds : List Uuid
  excludedIds : List Uuid
  eligibleCount : Nat
  excludedCount : Nat
  totals : List (String × Int)
  selectionFingerprint : String

/-- The sum of the amounts of each currency, in the order of the currencies. -/
def totalsByCurrency (sales : List Sale) : List (String × Int) :=
  let currencies := (sales.map Sale.currency).dedup.insertionSort (· ≤ ·)
  currencies.map fun currency =>
    (currency, ((sales.filter (·.currency = currency)).map Sale.amountCents).sum)

def bulkReview (env : BulkEnv) (action : BulkAction) (tenant : Tenant)
    (entries : List SelectionEntry) : BulkReview :=
  let eligible := (entries.filter (·.eligible)).map SelectionEntry.sale
  let excluded := (entries.filter (!·.eligible)).map SelectionEntry.sale
  { eligibleIds := (eligible.map Sale.id).insertionSort (· ≤ ·)
    excludedIds := (excluded.map Sale.id).insertionSort (· ≤ ·)
    eligibleCount := eligible.length
    excludedCount := entries.length - eligible.length
    totals := totalsByCurrency eligible
    selectionFingerprint :=
      bulkSelectionFingerprint env (selectionMaterial env action tenant entries) }

def calculateBulkReview (env : BulkEnv) (db : Db) (actor : ActorContext) (action : BulkAction)
    (scope : NormalizedBulkScope) : Except EngineError BulkReview :=
  match db.registry.tenants.find? actor.tenantId with
  | none => .error .recordNotFound
  | some tenant => do
      let rows ← salesForBulkScope env db actor.tenantId scope
      let entries ← rows.mapM (reviewSale db actor tenant action)
      pure (bulkReview env action tenant entries)

/-! ## Tokens for a review -/

def BULK_PREVIEW_TTL_MS : Int := 5 * 60 * 1000

/-- The payload that `previewFromBulkReview` signs. -/
def previewPayload (env : BulkEnv) (now : Instant) (actor : ActorContext) (action : BulkAction)
    (scope : NormalizedBulkScope) (review : BulkReview) : BulkPreviewTokenPayload where
  actorUserId := actor.userId
  tenantId := actor.tenantId
  action := action
  scopeFingerprint := bulkScopeFingerprint env scope
  eligibleCount := review.eligibleCount
  excludedCount := review.excludedCount
  totals := review.totals
  selectionFingerprint := review.selectionFingerprint
  expiresAt := now + BULK_PREVIEW_TTL_MS

def bulkReviewMatchesToken (review : BulkReview) (token : BulkPreviewTokenPayload) : Bool :=
  review.eligibleCount = token.eligibleCount && review.excludedCount = token.excludedCount &&
    review.selectionFingerprint = token.selectionFingerprint && review.totals = token.totals

/-- A token that was signed for a review matches it. -/
theorem bulkReviewMatchesToken_previewPayload (env : BulkEnv) (now : Instant)
    (actor : ActorContext) (action : BulkAction) (scope : NormalizedBulkScope)
    (review : BulkReview) :
    bulkReviewMatchesToken review (previewPayload env now actor action scope review) = true := by
  simp [bulkReviewMatchesToken, previewPayload]

end Refearn.Sales
