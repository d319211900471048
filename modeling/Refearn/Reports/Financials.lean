import Refearn.Engine.Store
import Refearn.Support.Postings
/-!
# The audit of the money tables

`ReportsService.verifyFinancials`. A paid payout is worth the rows linked to it, and the
summaries of a member hold what its rows do. Payouts, summaries and ledger are read by
separate statements, each of which sees what has been committed when it runs.
-/

namespace Refearn.Reports

open Support Engine

structure PayoutMismatch where
  payoutId : Uuid
  totalCents : Int
  lineSum : Int
  deriving DecidableEq

structure SummaryMismatch where
  membershipId : Uuid
  field : Bucket
  summary : Int
  ledger : Int
  deriving DecidableEq

structure FinancialsReport where
  ok : Bool
  payoutMismatches : List PayoutMismatch
  summaryMismatches : List SummaryMismatch
  deriving DecidableEq

/-- `SUM(le.amount_cents)` over the rows with `le.payout_id = p.id`. -/
def lineSum (db : Db) (payoutId : Uuid) : Int :=
  ((db.ledger.rows.filter (fun r => r.payoutId = some payoutId)).map LedgerEntry.amountCents).sum

/-! ## The three statements -/

def payoutMismatches (db : Db) (tenantId : Uuid) : List PayoutMismatch :=
  ((db.payouts.rows.filter (fun p => p.tenantId = tenantId ∧ p.status = .paid)).map
    (fun p => PayoutMismatch.mk p.id p.totalCents (lineSum db p.id))).filter
      fun m => m.totalCents ≠ m.lineSum

/-- The buckets of the summaries of each member. -/
def summarySums (db : Db) (tenantId : Uuid) : List (Uuid × (Bucket → Int)) :=
  groupSums (fun s : MonthlySummary => s.key.membershipId) summaryBucket
    (db.summaries.rows.filter fun s => s.key.tenantId = tenantId)

/-- The rows of each member by status. -/
def ledgerSums (db : Db) (tenantId : Uuid) : List ((Uuid × LedgerStatus) × Int) :=
  groupSums (fun r : LedgerEntry => (r.beneficiaryMembershipId, r.status))
    LedgerEntry.amountCents (db.ledger.rows.filter fun r => r.tenantId = tenantId)

/-! ## The comparison -/

/-- What a status adds to the buckets of a member; `reversed` adds nothing. -/
def statusCents : LedgerStatus → Int → Bucket → Int
  | .pending, cents, .pending => cents
  | .payable, cents, .payable => cents
  | .processing, cents, .processing => cents
  | .paid, cents, .paid => cents
  | _, _, _ => 0

/-- The map that collects the statuses of each member. -/
def ledgerByMember (sums : List ((Uuid × LedgerStatus) × Int)) : List (Uuid × (Bucket → Int)) :=
  groupTotals (fun g => g.1.1) (fun g => statusCents g.1.2 g.2) sums

def memberChecks (s l : Bucket → Int) (membershipId : Uuid) : List SummaryMismatch :=
  ([.pending, .payable, .processing, .paid] : List Bucket).filterMap fun field =>
    if s field ≠ l field then some ⟨membershipId, field, s field, l field⟩ else none

def summaryMismatches (sBy lBy : List (Uuid × (Bucket → Int))) : List SummaryMismatch :=
  let ids := (sBy.map Prod.fst ++ lBy.map Prod.fst).eraseDups
  ids.flatMap fun id => memberChecks ((lookupSum sBy id).getD 0) ((lookupSum lBy id).getD 0) id

/-- What is committed when the payouts, the summaries and the ledger are read. -/
structure Reads where
  payouts : Db
  summaries : Db
  ledger : Db

def REPORTED_MISMATCHES : Nat := 50

def verifyFinancials (reads : Reads) (tenantId : Uuid) : FinancialsReport :=
  let payouts := payoutMismatches reads.payouts tenantId
  let summaries := summaryMismatches (summarySums reads.summaries tenantId)
    (ledgerByMember (ledgerSums reads.ledger tenantId))
  { ok := payouts.isEmpty && summaries.isEmpty
    payoutMismatches := payouts
    summaryMismatches := summaries.take REPORTED_MISMATCHES }

/-- The nightly job: how many tenants it has audited and how many it has alarmed about. -/
def verifyAllFinancials (tenants : List Uuid) (reads : Uuid → Reads) : Nat × Nat :=
  (tenants.length, tenants.countP fun t => !(verifyFinancials (reads t) t).ok)

/-- Three reads of one state. -/
def Reads.at (db : Db) : Reads := ⟨db, db, db⟩

end Refearn.Reports
