import Refearn.Environment
import Mathlib.Data.List.Sort
import Mathlib.Data.String.Basic
/-!
# Join cohorts

`ReportsService.cohorts`: the members of a business by the month they joined in. SQL
computes the month from `joined_at`, a timestamp column without time zone. The
percentages are floating point and are left out.
-/

namespace Refearn.Reports

open Support

structure CohortRow where
  cohort : String
  joined : Nat
  active : Nat
  producing : Nat

structure Cohort where
  cohort : String
  joined : Nat
  active : Nat
  churned : Int
  producing : Nat

structure CohortTotals where
  joined : Nat
  active : Nat
  producing : Nat
  churned : Int

def COHORT_LIMIT : Nat := 24

/-- `to_char(m.joined_at AT TIME ZONE …, 'YYYY-MM')`. -/
def cohortMonth (env : Env) (tenant : Tenant) (m : Membership) : String :=
  env.toCharMonth m.joinedAt tenant.timezone

/-- Sold something in the last thirty days. -/
def isProducing (db : Db) (now : Instant) (m : Membership) : Bool :=
  db.sales.rows.any fun s =>
    s.sellerMembershipId = m.id && s.status = .approved && now - 30 * DAY_MS ≤ s.saleDate

def cohortMembers (env : Env) (db : Db) (tenant : Tenant) (cohort : String) : List Membership :=
  db.registry.memberships.rows.filter fun m =>
    m.tenantId = tenant.id && cohortMonth env tenant m = cohort

def cohortRow (env : Env) (db : Db) (now : Instant) (tenant : Tenant) (cohort : String) :
    CohortRow where
  cohort := cohort
  joined := (cohortMembers env db tenant cohort).length
  active := (cohortMembers env db tenant cohort).countP fun m => m.status = .active
  producing := (cohortMembers env db tenant cohort).countP (isProducing db now)

/-- The months that have a member, latest first. -/
def cohortMonths (env : Env) (db : Db) (tenant : Tenant) : List String :=
  (((db.registry.memberships.rows.filter (fun m => m.tenantId = tenant.id)).map
    (cohortMonth env tenant)).dedup.insertionSort (· ≥ ·)).take COHORT_LIMIT

def cohorts (env : Env) (db : Db) (now : Instant) (tenantId : Uuid) :
    Option (List Cohort × CohortTotals) := do
  let tenant ← db.registry.tenants.find? tenantId
  let rows := (cohortMonths env db tenant).map (cohortRow env db now tenant)
  let joined := (rows.map CohortRow.joined).sum
  let active := (rows.map CohortRow.active).sum
  pure
    (rows.map fun r => ⟨r.cohort, r.joined, r.active, (r.joined : Int) - r.active, r.producing⟩,
      ⟨joined, active, (rows.map CohortRow.producing).sum, (joined : Int) - active⟩)

end Refearn.Reports
