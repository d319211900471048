import Refearn.Environment
import Refearn.Support.Postings
import Mathlib.Data.List.Sort
/-!
# The dashboard of a business

`ReportsService.dashboard`. Sales and earnings are those of a month; what the business owes
is summed over the ledger.
-/

namespace Refearn.Reports

open Support

structure MonthFigures where
  approvedSalesCount : Nat
  revenueCents : Int
  commissionCents : Int
  effectiveRateBps : Int

structure Liability where
  pendingCents : Int
  payableCents : Int
  inPayoutCents : Int
  deriving DecidableEq

structure TopEarner where
  membershipId : Uuid
  fullName : String
  referralCode : String
  earnedCents : Int

structure DashboardView where
  month : String
  currency : String
  membersTotal : Nat
  membersActive : Nat
  thisMonth : MonthFigures
  outstandingPayableCents : Int
  liability : Liability
  topEarners : List TopEarner
  pendingPayoutRequests : Nat

def TOP_EARNERS : Nat := 8

def membersOf (db : Db) (tenantId : Uuid) : List Membership :=
  db.registry.memberships.rows.filter fun m => m.tenantId = tenantId

/-- The approved sales whose frozen month it is. -/
def approvedSales (db : Db) (tenantId : Uuid) (month : String) : List Sale :=
  db.sales.rows.filter fun s =>
    s.tenantId = tenantId ∧ s.status = .approved ∧ s.summaryMonth = some month

/-- `SUM(amount_cents)` over the rows of a business with one status. -/
def ledgerSum (db : Db) (tenantId : Uuid) (status : LedgerStatus) : Int :=
  ((db.ledger.rows.filter (fun r => r.tenantId = tenantId ∧ r.status = status)).map
    LedgerEntry.amountCents).sum

def netOfSummary (s : MonthlySummary) : Int :=
  s.pendingCents + s.payableCents + s.processingCents + s.paidCents

def monthSummaries (db : Db) (tenantId : Uuid) (month : String) : List MonthlySummary :=
  db.summaries.rows.filter fun s => s.key.tenantId = tenantId ∧ s.key.month = month

/-- Highest first; equal amounts stand in any order. -/
def byEarned (e e' : Uuid × Int) : Prop := e'.2 ≤ e.2

instance : DecidableRel byEarned := fun e e' => Int.decLe e'.2 e.2

def topEarners (db : Db) (tenantId : Uuid) (month : String) : List TopEarner :=
  let earned := groupSums (fun s : MonthlySummary => s.key.membershipId) netOfSummary
    (monthSummaries db tenantId month)
  (((earned.filter (fun e => 0 < e.2)).insertionSort byEarned).take TOP_EARNERS).map fun e =>
    let member := db.registry.memberships.find? e.1
    { membershipId := e.1
      fullName := (((member.bind fun m => db.registry.users.find? m.userId)).map
        User.fullName).getD "—"
      referralCode := (member.map Membership.referralCode).getD ""
      earnedCents := e.2 }

def monthFigures (db : Db) (tenantId : Uuid) (month : String) : MonthFigures :=
  let sales := approvedSales db tenantId month
  let revenue := (sales.map Sale.amountCents).sum
  let commission := ((monthSummaries db tenantId month).map netOfSummary).sum
  { approvedSalesCount := sales.length
    revenueCents := revenue
    commissionCents := commission
    effectiveRateBps := if 0 < revenue then (commission * 10000).tdiv revenue else 0 }

/-- `none`: no such business. -/
def dashboard (env : Env) (db : Db) (now : Instant) (tenantId : Uuid) (month : Option String) :
    Option DashboardView := do
  let tenant ← db.registry.tenants.find? tenantId
  let targetMonth := month.getD (env.monthKey now tenant.timezone)
  let payable := ledgerSum db tenantId .payable
  let inPayout := db.payouts.rows.filter fun p =>
    p.tenantId = tenantId ∧ (p.status = .requested ∨ p.status = .processing)
  pure
    { month := targetMonth
      currency := tenant.currency
      membersTotal := (membersOf db tenantId).length
      membersActive := (membersOf db tenantId).countP fun m => m.status = .active
      thisMonth := monthFigures db tenantId targetMonth
      outstandingPayableCents := payable
      liability :=
        { pendingCents := ledgerSum db tenantId .pending
          payableCents := payable
          inPayoutCents := (inPayout.map Payout.totalCents).sum }
      topEarners := topEarners db tenantId targetMonth
      pendingPayoutRequests := db.payouts.rows.countP fun p =>
        p.tenantId = tenantId ∧ p.status = .requested }

end Refearn.Reports
