import Refearn.Engine.Run
import Refearn.Sales.BulkScope
import Refearn.Support.JsText
/-!
# Entering sales

The requests that make a sale. `create` and each line of `importCsv` end in
`createDraftSale`; what they read before is read in statements of their own, so that the
drafts they are about to insert and the currency an import has read are part of the state.
A member's own sale leaves the currency to the default of the column.
-/

namespace Refearn.Sales

open Support Support.Transaction Engine

/-- `@default("USD")` of `Sale.currency`. -/
def SALE_CURRENCY_DEFAULT : String := "USD"

inductive SellerRef
  | sellerMembershipId (id : Uuid)
  | sellerReferralCode (code : String)
  deriving DecidableEq

def SellerRef.matches : SellerRef → Membership → Bool
  | .sellerMembershipId id, m => m.id = id
  | .sellerReferralCode code, m => m.referralCode = code

def normalizeExternalRef (value : Option String) : Option String :=
  (value.map trim).filter (· ≠ "")

def resolveSeller (registry : Registry) (tenantId : Uuid) (seller : SellerRef) :
    Option Membership :=
  registry.memberships.rows.find? fun m => m.tenantId = tenantId ∧ seller.matches m

def findByExternalRef (db : Db) (tenantId : Uuid) (externalRef : String) : Option Sale :=
  db.sales.rows.find? fun s => s.tenantId = tenantId ∧ s.externalRef = some externalRef

structure CreateSaleInput where
  seller : SellerRef
  amountCents : Int
  saleDate : Option Instant
  customerRef : Option String
  externalRef : Option String

structure SelfCreateSaleInput where
  amountCents : Int
  saleDate : Option Instant
  customerRef : Option String
  deriving DecidableEq

/-- `create` as far as `createDraftSale`: nothing is inserted for a reference that exists,
an unknown or an inactive seller. -/
def prepareSale (db : Db) (now : Instant) (actor : ActorContext) (input : CreateSaleInput) :
    Option DraftInput :=
  let externalRef := normalizeExternalRef input.externalRef
  if (externalRef.bind (findByExternalRef db actor.tenantId)).isSome then none
  else do
    let seller ← resolveSeller db.registry actor.tenantId input.seller
    guard (seller.status = .active)
    let tenant ← db.registry.tenants.find? actor.tenantId
    return ⟨actor.tenantId, some actor.userId, seller.id, input.amountCents, tenant.currency,
      input.saleDate.getD now, input.customerRef, externalRef⟩

def selfCreate (now : Instant) (actor : ActorContext) (membershipId : Uuid)
    (input : SelfCreateSaleInput) : Tx Uuid := do
  let db ← readDb
  let seller ← orThrow (resolveSeller db.registry actor.tenantId (.sellerMembershipId membershipId))
    (.notFound "seller membership was not found in this business")
  require (seller.status = .active) (.badRequest "pasif uye adina satis girilemez")
  let id ← genRandomUuid
  require ((db.registry.tenants.find? actor.tenantId).isSome = true)
    (.foreignKeyViolation "tenant_id")
  require (0 ≤ input.amountCents) (.checkViolation "chk_sale_amount")
  -- the insert names no currency
  let sale := draftSale ⟨actor.tenantId, some actor.userId, seller.id, input.amountCents,
    SALE_CURRENCY_DEFAULT, input.saleDate.getD now, input.customerRef, none⟩ id
  let sales ← orThrow (db.sales.insert? sale) (.uniqueViolation "sales")
  writeDb { db with sales := sales }
  audit actor.tenantId (some actor.userId) "sale.self_create" id (.obj [])
    (.obj [("amountCents", .ofCents input.amountCents)])
  pure id

/-! ## The world of sales -/

/-- An import under way has read the currency of its tenant. -/
structure Import where
  actor : ActorContext
  currency : String
  deriving DecidableEq

structure SalesWorld where
  db : Db
  imports : List Import
  /-- What is about to be inserted. -/
  drafts : List DraftInput

/-- What a line of an import adds to its currency. -/
structure LineDraft where
  sellerMembershipId : Uuid
  amountCents : Int
  saleDate : Instant
  customerRef : Option String
  externalRef : Option String

def Import.draft (i : Import) (line : LineDraft) : DraftInput :=
  ⟨i.actor.tenantId, some i.actor.userId, line.sellerMembershipId, line.amountCents, i.currency,
    line.saleDate, line.customerRef, line.externalRef⟩

inductive SalesAction
  | create (now : Instant) (actor : ActorContext) (input : CreateSaleInput)
  | importCsv (actor : ActorContext)
  | importLine (index : Nat) (line : LineDraft)
  | createDraftSale (index : Nat)
  | selfCreate (now : Instant) (actor : ActorContext) (membershipId : Uuid)
      (input : SelfCreateSaleInput)
  /-- Single and bulk approval, voiding, delivery and removal, and all else that the engine
  does. -/
  | engine (action : Engine.Action)

structure SalesStep where
  action : SalesAction
  uuids : Nat → Uuid

def SalesStep.apply (env : Env) (step : SalesStep) (w : SalesWorld) : SalesWorld :=
  match step.action with
  | .create now actor input =>
      match prepareSale w.db now actor input with
      | none => w
      | some draft => { w with drafts := w.drafts ++ [draft] }
  | .importCsv actor =>
      match w.db.registry.tenants.find? actor.tenantId with
      | none => w
      | some tenant => { w with imports := w.imports ++ [⟨actor, tenant.currency⟩] }
  | .importLine index line =>
      match w.imports[index]? with
      | none => w
      | some i => { w with drafts := w.drafts ++ [i.draft line] }
  | .createDraftSale index =>
      match w.drafts[index]? with
      | none => w
      | some draft =>
          { w with
            db := execute (Sales.createDraftSale draft) w.db step.uuids
            drafts := w.drafts.eraseIdx index }
  | .selfCreate now actor membershipId input =>
      { w with
        db := execute (Sales.selfCreate now actor membershipId input) w.db step.uuids }
  | .engine (.createDraftSale _) => w  -- drafts come from the requests above
  | .engine action => { w with db := Engine.Step.apply env ⟨action, step.uuids⟩ w.db }

/-- Every sale is in the currency of its tenant. -/
def InTenantCurrency (db : Db) : Prop :=
  ∀ sale ∈ db.sales, ∀ tenant ∈ db.registry.tenants, tenant.id = sale.tenantId →
    sale.currency = tenant.currency

end Refearn.Sales
