import Refearn.Reports.Dashboard
import Refearn.Campaigns.Campaigns
/-!
# The platform's view of its companies

`PlatformService.overview` and `PlatformService.company`. The overview adds up the active
companies; the page of a company gives sales and debt by currency, where a row of the
ledger has the currency of its sale.
-/

namespace Refearn.Platform

open Support

inductive TenantStatus | active | suspended
  deriving DecidableEq

inductive ProposalStatus | proposed | executed | rejected
  deriving DecidableEq

inductive InvoiceStatus | opened | paid | void
  deriving DecidableEq

/-- The columns of a tenant that only the platform reads. -/
structure TenantColumns where
  slug : String
  name : String
  status : TenantStatus
  branding : Json
  createdAt : Instant

structure Invoice where
  status : InvoiceStatus
  dueAt : Instant

/-- The money tables with what else the platform reads. `proposals` holds the statuses of
`payout_batches`. -/
structure PlatformDb where
  db : Db
  columns : Uuid → TenantColumns
  planName : Uuid → String
  proposals : List ProposalStatus
  invoices : List Invoice
  campaigns : Table Campaigns.Campaign

/-! ## The overview -/

structure LeaderboardRow where
  id : Uuid
  slug : String
  name : String
  status : TenantStatus
  currency : String
  revenueThisMonthCents : Int
  members : Nat
  activeMembers : Nat

structure Attention where
  payoutApprovals : Nat
  riskReviews : Nat
  overdueInvoices : Nat
  campaignsToFinalize : Nat

structure OverviewTotals where
  grossRevenueCents : Int
  netCents : Int
  payableCents : Int
  activeMembers : Nat
  companies : Nat

structure OverviewView where
  totals : OverviewTotals
  leaderboard : List LeaderboardRow
  attention : Attention

/-- The accumulators of the loop over the companies. -/
structure Portfolio where
  gross : Int := 0
  commission : Int := 0
  payable : Int := 0
  activeMembersTotal : Nat := 0
  leaderboard : List LeaderboardRow := []

def activeTenants (p : PlatformDb) : List Tenant :=
  p.db.registry.tenants.rows.filter fun t => (p.columns t.id).status = .active

/-- The commission rows of the given sales. -/
def saleCommission (db : Db) (tenantId : Uuid) (saleIds : List Uuid) : Int :=
  ((db.ledger.rows.filter (fun r => r.tenantId = tenantId ∧
    (∃ id ∈ saleIds, r.saleId = some id) ∧ r.type = .commission)).map
      LedgerEntry.amountCents).sum

/-- One pass of the loop; `now` is its reading of the clock. -/
def addCompany (env : Env) (p : PlatformDb) (now : Uuid → Instant) (acc : Portfolio)
    (t : Tenant) : Portfolio :=
  let sales := Reports.approvedSales p.db t.id (env.monthKey (now t.id) t.timezone)
  let revenue := (sales.map Sale.amountCents).sum
  let comm := saleCommission p.db t.id (sales.map Sale.id)
  let pay := Reports.ledgerSum p.db t.id .payable
  let members := Reports.membersOf p.db t.id
  let active := members.countP fun m => m.status = .active
  { gross := acc.gross + revenue
    commission := acc.commission + comm
    payable := acc.payable + pay
    activeMembersTotal := acc.activeMembersTotal + active
    leaderboard := acc.leaderboard ++ [⟨t.id, (p.columns t.id).slug, (p.columns t.id).name,
      (p.columns t.id).status, t.currency, revenue, members.length, active⟩] }

def byRevenue (r r' : LeaderboardRow) : Prop :=
  r'.revenueThisMonthCents ≤ r.revenueThisMonthCents

instance : DecidableRel byRevenue := fun r r' =>
  Int.decLe r'.revenueThisMonthCents r.revenueThisMonthCents

def attention (p : PlatformDb) (now : Instant) : Attention where
  payoutApprovals := p.proposals.count .proposed
  riskReviews := p.db.registry.fraudFlags.rows.countP (fun f => f.status = .opened) +
    p.db.registry.payoutProfiles.rows.countP (fun f => f.status = .pendingReview)
  overdueInvoices := p.invoices.countP fun i => i.status = .opened ∧ i.dueAt < now
  campaignsToFinalize := p.campaigns.rows.countP fun c => c.status = .active ∧ c.endsAt < now

def overview (env : Env) (p : PlatformDb) (clock : Uuid → Instant) (now : Instant) :
    OverviewView :=
  let tenants := activeTenants p
  let sums := tenants.foldl (addCompany env p clock) {}
  { totals := ⟨sums.gross, sums.gross - sums.commission, sums.payable, sums.activeMembersTotal,
      tenants.length⟩
    leaderboard := sums.leaderboard.insertionSort byRevenue
    attention := attention p now }

/-! ## The page of a company -/

structure CurrencyRevenue where
  currency : String
  revenueThisMonthCents : Int
  salesThisMonth : Nat
  deriving DecidableEq

structure CurrencyAmount where
  currency : String
  outstandingPayableCents : Int
  deriving DecidableEq

structure CompanyKpis where
  members : Nat
  activeMembers : Nat
  revenueThisMonthByCurrency : List CurrencyRevenue
  salesThisMonth : Nat
  outstandingPayableByCurrency : List CurrencyAmount

structure PlanLine where
  name : String
  poolRateBps : Int
  depth : Nat
  deriving DecidableEq

structure CompanyView where
  id : Uuid
  slug : String
  name : String
  currency : String
  timezone : String
  status : TenantStatus
  branding : Json
  payoutMinCents : Int
  maturationRule : MaturationRule
  createdAt : Instant
  kpis : CompanyKpis
  plan : Option PlanLine

/-- Currency codes are upper-case ASCII, where `localeCompare` is the order of the text. -/
def serializeCurrencyRevenue (rows : List CurrencyRevenue) : List CurrencyRevenue :=
  rows.insertionSort fun a b => a.currency ≤ b.currency

def serializeOutstandingPayable (rows : List CurrencyAmount) : List CurrencyAmount :=
  rows.insertionSort fun a b => a.currency ≤ b.currency

def revenueRows (db : Db) (tenantId : Uuid) (month : String) : List CurrencyRevenue :=
  (groups Sale.currency (Reports.approvedSales db tenantId month)).map fun g =>
    ⟨g.1, (g.2.map Sale.amountCents).sum, g.2.length⟩

/-- A row of `ledger_entries JOIN sales ON s.id = le.sale_id`, if it is a payable row of the
business: the currency of the sale and the amount of the entry. -/
def payableOfSale (db : Db) (tenantId : Uuid) (r : LedgerEntry) : Option (String × Int) :=
  if r.tenantId = tenantId ∧ r.status = .payable then
    (r.saleId.bind fun id => db.sales.find? id).map fun s => (s.currency, r.amountCents)
  else none

def payableOfSales (db : Db) (tenantId : Uuid) : List (String × Int) :=
  db.ledger.rows.filterMap (payableOfSale db tenantId)

def payableRows (db : Db) (tenantId : Uuid) : List CurrencyAmount :=
  (groupSums Prod.fst Prod.snd (payableOfSales db tenantId)).map fun g => ⟨g.1, g.2⟩

/-- The finalized plan that took effect last. -/
def currentPlan (db : Db) (now : Instant) (tenantId : Uuid) : Option CommissionPlan :=
  ((db.registry.plans.rows.filter fun plan =>
    plan.tenantId = tenantId ∧ plan.finalized = true ∧ plan.effectiveFrom ≤ now).insertionSort
      fun a b => b.effectiveFrom ≤ a.effectiveFrom).head?

/-- `none`: `company not found`. -/
def company (env : Env) (p : PlatformDb) (now : Instant) (id : Uuid) : Option CompanyView := do
  let t ← p.db.registry.tenants.find? id
  let month := env.monthKey now t.timezone
  let revenue := revenueRows p.db id month
  let plan := currentPlan p.db now id
  pure
    { id := t.id
      slug := (p.columns id).slug
      name := (p.columns id).name
      currency := t.currency
      timezone := t.timezone
      status := (p.columns id).status
      branding := (p.columns id).branding
      payoutMinCents := t.payoutMinCents
      maturationRule := t.maturationRule
      createdAt := (p.columns id).createdAt
      kpis :=
        { members := (Reports.membersOf p.db id).length
          activeMembers := (Reports.membersOf p.db id).countP fun m => m.status = .active
          revenueThisMonthByCurrency := serializeCurrencyRevenue revenue
          salesThisMonth := (revenue.map CurrencyRevenue.salesThisMonth).sum
          outstandingPayableByCurrency := serializeOutstandingPayable (payableRows p.db id) }
      plan := plan.map fun plan => ⟨p.planName plan.id, plan.poolRateBps, plan.depth⟩ }

end Refearn.Platform
