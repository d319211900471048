import Refearn.Memberships.Tree
import Refearn.Reports.Dashboard
import Refearn.Support.IsoDate
import Refearn.Support.TreeTotals
import Mathlib.Data.Prod.Lex
/-!
# The tree that an admin sees

`MembersAdminService.tree` with all members of a scope, and `readMemberTreeSnapshot` with the
first 500 of them. Team sizes and the month's revenue of the subtrees are added up in one pass
over the members, the deepest first.
-/

namespace Refearn.Memberships

open Support
open Auth (Role)

structure TreeNode where
  id : Uuid
  parentId : Option Uuid
  fullName : String
  referralCode : String
  role : Role
  status : MembershipStatus
  depth : Nat
  isTeamLeader : Bool
  joinedAt : List Char
  salesCount : Int
  revenueCents : Int
  earningsCents : Int
  monthlyCommissionCents : Int
  teamSize : Nat
  subtreeRevenueCents : Int

structure TreeSnapshot where
  items : List TreeNode
  complete : Bool
  total : Nat
  limit : Nat

inductive TreeError
  | recordNotFound
  | notFound (message : String)
  deriving DecidableEq

/-! ## What is read -/

def rowsOfTenant (db : TreeDb) (tenantId : Uuid) : List MembershipRow :=
  db.memberships.rows.filter fun m => m.tenantId == tenantId

/-- All members of the business, or those in the subtree of a root: `path <@ root.path`. -/
def treeScope (db : TreeDb) (tenantId : Uuid) (rootMembershipId : Option Uuid) :
    Except TreeError (List MembershipRow) :=
  match rootMembershipId with
  | none => .ok (rowsOfTenant db tenantId)
  | some rootId =>
      match (rowsOfTenant db tenantId).find? fun m => m.id == rootId with
      | none => .error (.notFound "lider/kok uyelik bu isletmede bulunamadi")
      | some root =>
          .ok ((rowsOfTenant db tenantId).filter fun m => isDescendant m.path root.path)

/-- The rows behind the three `GROUP BY` queries. -/
structure TreeFigures where
  sales : List Sale
  earned : List LedgerEntry
  monthly : List MonthlySummary

def treeFigures (db : Db) (tenantId : Uuid) (month : String) : TreeFigures where
  sales := Reports.approvedSales db tenantId month
  earned := db.ledger.rows.filter fun r => r.tenantId == tenantId &&
    (r.status == .payable || r.status == .processing || r.status == .paid)
  monthly := Reports.monthSummaries db tenantId month

/-- The rows of the members that are returned. -/
def TreeFigures.ofMembers (f : TreeFigures) (returnedIds : List Uuid) : TreeFigures where
  sales := f.sales.filter fun s => s.sellerMembershipId ∈ returnedIds
  earned := f.earned.filter fun r => r.beneficiaryMembershipId ∈ returnedIds
  monthly := f.monthly.filter fun s => s.key.membershipId ∈ returnedIds

def TreeFigures.salesCount (f : TreeFigures) (id : Uuid) : Int :=
  (lookupSum (groupSums Sale.sellerMembershipId (fun _ => (1 : Int)) f.sales) id).getD 0

def TreeFigures.revenue (f : TreeFigures) (id : Uuid) : Int :=
  (lookupSum (groupSums Sale.sellerMembershipId Sale.amountCents f.sales) id).getD 0

def TreeFigures.earnings (f : TreeFigures) (id : Uuid) : Int :=
  (lookupSum (groupSums LedgerEntry.beneficiaryMembershipId LedgerEntry.amountCents f.earned)
    id).getD 0

def TreeFigures.monthlyCommission (f : TreeFigures) (id : Uuid) : Int :=
  (lookupSum (groupSums (fun s : MonthlySummary => s.key.membershipId) Reports.netOfSummary
    f.monthly) id).getD 0

/-! ## The totals -/

/-- `teamSize` and `subtreeRev` as one map of pairs: a member starts with no team and its own
revenue, and hands its team, itself and its revenue on to its sponsor. -/
def treeTotal (f : TreeFigures) (nodes : List MembershipRow) (m : MembershipRow) : Nat × Int :=
  total MembershipRow.id MembershipRow.sponsorMembershipId (fun m => (0, f.revenue m.id))
    (fun _ => (1, 0)) nodes m

def treeNode (users : Table User) (f : TreeFigures) (nodes : List MembershipRow)
    (m : MembershipRow) : TreeNode where
  id := m.id
  parentId := m.sponsorMembershipId
  fullName := ((users.find? m.userId).map User.fullName).getD ""
  referralCode := m.referralCode
  role := m.role
  status := m.status
  depth := m.depth
  isTeamLeader := m.isTeamLeader
  joinedAt := IsoDate.toISOString m.joinedAt
  salesCount := f.salesCount m.id
  revenueCents := f.revenue m.id
  earningsCents := f.earnings m.id
  monthlyCommissionCents := f.monthlyCommission m.id
  teamSize := (treeTotal f nodes m).1
  subtreeRevenueCents := (treeTotal f nodes m).2

/-! ## The two views -/

/-- What `ORDER BY depth, joined_at` promises. -/
def NotAfter (m m' : MembershipRow) : Prop :=
  m.depth < m'.depth ∨ m.depth = m'.depth ∧ m.joinedAt ≤ m'.joinedAt

/-- An order in which the query may return its rows. -/
structure RowOrder where
  order : List MembershipRow → List MembershipRow
  perm : ∀ rows, (order rows).Perm rows
  sorted : ∀ rows, (order rows).Pairwise NotAfter

def tree (env : Env) (order : RowOrder) (memberships : TreeDb) (db : Db) (now : Instant)
    (tenantId : Uuid) (rootMembershipId : Option Uuid) : Except TreeError (List TreeNode) := do
  let tenant ← (db.registry.tenants.find? tenantId).elim (.error .recordNotFound) .ok
  let month := env.monthKey now tenant.timezone
  let scope ← treeScope memberships tenantId rootMembershipId
  let nodes := order.order scope
  pure (nodes.map (treeNode db.registry.users (treeFigures db tenantId month) nodes))

def TREE_SNAPSHOT_LIMIT : Nat := 500

/-- `ORDER BY depth, joined_at, id` -/
def snapshotKey (m : MembershipRow) : Nat ×ₗ Instant ×ₗ Uuid :=
  toLex (m.depth, toLex (m.joinedAt, m.id))

def inSnapshotOrder (rows : List MembershipRow) : List MembershipRow :=
  rows.insertionSort fun m m' => snapshotKey m ≤ snapshotKey m'

def readMemberTreeSnapshot (env : Env) (memberships : TreeDb) (db : Db) (now : Instant)
    (tenantId : Uuid) (rootMembershipId : Option Uuid) : Except TreeError TreeSnapshot := do
  let tenant ← (db.registry.tenants.find? tenantId).elim (.error .recordNotFound) .ok
  let month := env.monthKey now tenant.timezone
  let scope ← treeScope memberships tenantId rootMembershipId
  let selectedIds := ((inSnapshotOrder scope).take TREE_SNAPSHOT_LIMIT).map MembershipRow.id
  let nodes := inSnapshotOrder
    ((rowsOfTenant memberships tenantId).filter fun m => m.id ∈ selectedIds)
  let figures := (treeFigures db tenantId month).ofMembers (nodes.map MembershipRow.id)
  let items := nodes.map (treeNode db.registry.users figures nodes)
  pure { items, complete := items.length == scope.length, total := scope.length,
         limit := TREE_SNAPSHOT_LIMIT }

end Refearn.Memberships
