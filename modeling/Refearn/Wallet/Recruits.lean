import Refearn.Environment
import Refearn.Support.TimeZone
import Mathlib.Data.List.Sort
/-!
# Direct recruits

`WalletService.recruits`: the members a member has sponsored, with what each sold this
month, and the number that joined in each of the last six months.
-/

namespace Refearn.Wallet

open Support

structure Recruit where
  id : Uuid
  fullName : Option String
  email : Option String
  referralCode : String
  status : MembershipStatus
  joinedAt : Instant
  salesThisMonth : Nat
  soldThisMonthCents : Int
  needsNudge : Bool

structure RecruitSummary where
  total : Nat
  active : Nat
  needsNudgeCount : Nat
  joinedThisMonth : Nat

structure RecruitsView where
  month : String
  currency : String
  recruits : List Recruit
  summary : RecruitSummary
  growthTrend : List (String × Nat)

/-- The month a recruit is counted in. -/
def joinMonth (env : Env) (tenant : Tenant) (m : Membership) : String :=
  env.monthKey m.joinedAt tenant.timezone

/-- The number of a month text. -/
def monthNumber (text : String) : Int :=
  let parts := (text.toList.splitOn '-').map fun part => (Nat.ofDigitChars 10 part 0 : Int)
  12 * parts.getD 0 0 + (parts.getD 1 0 - 1)

/-- The `n` months up to the anchor, oldest first. -/
def monthsBack (anchor : String) (n : Nat) : List String :=
  (List.range n).reverse.map fun i : Nat => monthText 1 (monthNumber anchor - i)

def byJoinedAt (m m' : Membership) : Prop := m.joinedAt ≤ m'.joinedAt

instance : DecidableRel byJoinedAt := fun m m' => Int.decLe m.joinedAt m'.joinedAt

def directs (db : Db) (tenantId membershipId : Uuid) : List Membership :=
  (db.registry.memberships.rows.filter fun m =>
    m.tenantId = tenantId ∧ m.sponsorMembershipId = some membershipId).insertionSort byJoinedAt

/-- The approved sales of a member whose frozen month it is. -/
def salesOfMonth (db : Db) (tenantId membershipId : Uuid) (month : String) : List Sale :=
  db.sales.rows.filter fun s =>
    s.tenantId = tenantId ∧ s.status = .approved ∧ s.summaryMonth = some month ∧
      s.sellerMembershipId = membershipId

/-- An active recruit that has sold nothing this month is to be nudged. -/
def recruit (db : Db) (tenantId : Uuid) (month : String) (d : Membership) : Recruit :=
  let sales := salesOfMonth db tenantId d.id month
  let user := db.registry.users.find? d.userId
  { id := d.id
    fullName := user.map User.fullName
    email := user.map User.email
    referralCode := d.referralCode
    status := d.status
    joinedAt := d.joinedAt
    salesThisMonth := sales.length
    soldThisMonthCents := (sales.map Sale.amountCents).sum
    needsNudge := d.status = .active && sales.length = 0 }

def growthTrend (env : Env) (tenant : Tenant) (recruited : List Membership) (month : String) :
    List (String × Nat) :=
  (monthsBack month 6).map fun m => (m, recruited.countP fun d => joinMonth env tenant d = m)

inductive RecruitsError | noTenant | membershipNotFound
  deriving DecidableEq

def recruits (env : Env) (db : Db) (now : Instant) (membershipId tenantId : Uuid) :
    Except RecruitsError RecruitsView := do
  let tenant ← (db.registry.tenants.find? tenantId).elim (.error .noTenant) pure
  let month := env.monthKey now tenant.timezone
  let _ ← ((db.registry.memberships.find? membershipId).filter (·.tenantId = tenantId)).elim
    (.error .membershipNotFound) pure
  let recruited := directs db tenantId membershipId
  let listed := recruited.map (recruit db tenantId month)
  pure
    { month := month
      currency := tenant.currency
      recruits := listed
      summary :=
        { total := listed.length
          active := listed.countP fun r => r.status = .active
          needsNudgeCount := listed.countP Recruit.needsNudge
          joinedThisMonth := recruited.countP fun d => joinMonth env tenant d = month }
      growthTrend := growthTrend env tenant recruited month }

example : monthsBack "2026-02" 3 = ["2025-12", "2026-01", "2026-02"] := by decide

end Refearn.Wallet
