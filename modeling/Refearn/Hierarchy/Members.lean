import Refearn.Hierarchy.References
import Refearn.Schema
import Refearn.Support.JsText
import Refearn.Support.Paging
import Mathlib.Data.String.Basic
/-!
# Members as the hierarchy shows them

The rows that `network-hierarchy.service.ts` reads, and the nodes it makes of them. One
transaction reads one state of the database.
-/

namespace Refearn.Hierarchy

open Support

/-! ## Rows -/

/-- A membership with the name of its user. -/
structure MemberRow where
  id : String
  tenantId : String
  userId : String
  sponsorMembershipId : Option String
  referralCode : String
  path : List String
  depth : Nat
  status : MembershipStatus
  joinedAt : Int
  fullName : String

instance : Keyed MemberRow String := { key := MemberRow.id }

structure TenantRow where
  id : String
  name : String
  currency : String
  timezone : String

structure SaleRow where
  tenantId : String
  sellerMembershipId : String
  status : SaleStatus
  summaryMonth : Option String
  approvedAt : Option Int
  saleDate : Int
  amountCents : Int

structure HierarchyDb where
  tenants : List TenantRow
  members : Table MemberRow
  sales : List SaleRow

/-- What the language and PostgreSQL supply: full upper case and the class of upper-case letters of
a code point, canonical composition, `monthKey` of an instant, and `lower` of PostgreSQL. -/
structure HierarchyEnv where
  crypto : NodeCrypto
  secret : String
  upper : Char → List Char
  isUpperLetter : Char → Bool
  nfc : String → String
  monthKey : Int → String → String
  lower : Char → Char

inductive ServiceError
  | hierarchy (e : HierarchyError)
  | notFound (message : String)
  /-- any other `Error` -/
  | internal (message : String)

def ofHierarchy {α : Type} (r : Except HierarchyError α) : Except ServiceError α :=
  r.mapError .hierarchy

def ADMIN_HIERARCHY_PAGE_SIZE : Nat := 50
def ADMIN_CONTEXT_NODE_BUDGET : Nat := 250
def MEMBER_MAX_VISIBLE_TIER : Nat := 3
def MAX_SAFE_INTEGER : Nat := 9007199254740991

def safeCount (value : Nat) : Except ServiceError Nat :=
  if MAX_SAFE_INTEGER < value then
    .error (.internal "network hierarchy count exceeds the safe response range")
  else .ok value

/-! ## Names -/

section Names

variable (env : HierarchyEnv)

def initials (fullName : String) : String :=
  match ((trim fullName).toList.splitOnP isSpace).filter (· ≠ []) with
  | [] => "?"
  | first :: rest =>
      let last := rest.getLast?.getD first
      String.ofList ([first.headD '?', last.headD '?'].flatMap env.upper)

def isAnonymousMemberInitials (value : String) : Bool :=
  env.nfc value = value &&
    match value.toList with
    | [a, b] => env.isUpperLetter a && env.isUpperLetter b
    | _ => false

def parseAnonymousMemberInitials (value : String) : Except ServiceError String :=
  if isAnonymousMemberInitials env value then .ok value
  else .error (.hierarchy (.typeError "invalid anonymous member initials"))

def anonymousInitials (fullName : String) : Except ServiceError String :=
  let letters := ((env.nfc fullName).toList.flatMap env.upper).filter env.isUpperLetter
  let first := letters.headD 'X'
  let last := letters.getLast?.getD first
  parseAnonymousMemberInitials env (String.ofList [first, last])

end Names

/-! ## Reading -/

/-- `ORDER BY joined_at, id`. -/
def rowKey (m : MemberRow) : Int ×ₗ String := toLex (m.joinedAt, m.id)

/-- The rows of the tenant that had joined by the instant. -/
def existing (db : HierarchyDb) (tenantId : String) (at' : Int) : List MemberRow :=
  db.members.rows.filter fun m => m.tenantId = tenantId ∧ m.joinedAt ≤ at'

/-- `m.path <@ path`. -/
def under (path : List String) (m : MemberRow) : Bool := path.isPrefixOf m.path

def directsOf (db : HierarchyDb) (tenantId : String) (at' : Int) (id : String) : List MemberRow :=
  (existing db tenantId at').filter (·.sponsorMembershipId = some id)

def readTenant (db : HierarchyDb) (tenantId : String) : Except ServiceError TenantRow :=
  match db.tenants.find? (·.id = tenantId) with
  | none => .error (.notFound "tenant not found")
  | some tenant => .ok tenant

def resolveMemberRoot (db : HierarchyDb) (actor : ActorContext) (rootMembershipId : String)
    (at' : Int) : Except ServiceError MemberRow :=
  match (existing db actor.tenantId at').find? fun m =>
      m.id = rootMembershipId ∧ m.userId = actor.userId with
  | none => .error (.notFound "member network root not found")
  | some root => .ok root

/-- `(m.joined_at, m.id) > (new Date(after.joinedAt), after.id)`; a keyset that has been parsed
holds a date. -/
def keysetKey (after : Keyset) : Int ×ₗ String :=
  toLex ((canonicalDate after.joinedAt).getD 0, after.id)

/-- Approved sales of a month that the sellers made, as they were at the instant. -/
def approvedSales (db : HierarchyDb) (tenantId period : String) (at' : Int)
    (sellers : List MemberRow) : List SaleRow :=
  db.sales.filter fun s =>
    s.tenantId = tenantId ∧ s.sellerMembershipId ∈ sellers.map (·.id) ∧ s.status = .approved ∧
      s.summaryMonth = some period ∧ s.approvedAt.getD s.saleDate ≤ at'

structure MemberPerformanceRecord where
  cohortCount : Nat
  approvedSales : Nat
  teamVolumeCents : Int
  deriving DecidableEq

/-- The visible members at and below a member. -/
def cohort (db : HierarchyDb) (tenantId : String) (root : MemberRow) (at' : Int) (m : MemberRow) :
    List MemberRow :=
  (existing db tenantId at').filter fun d =>
    under m.path d ∧ root.depth ≤ d.depth ∧ d.depth ≤ root.depth + MEMBER_MAX_VISIBLE_TIER

/-- The group of a member in `readMemberPerformance`. -/
def memberPerformance (db : HierarchyDb) (tenantId period : String) (root : MemberRow) (at' : Int)
    (m : MemberRow) : Option MemberPerformanceRecord :=
  match cohort db tenantId root at' m with
  | [] => none
  | members =>
      let sales := approvedSales db tenantId period at' members
      some ⟨members.length, sales.length, (sales.map (·.amountCents)).sum⟩

/-! ## Nodes of a member's network -/

inductive SuppressionReason | smallCohort | noData
  deriving DecidableEq

inductive SalesBand | zero | oneToFour | fiveToNine | tenUp
  deriving DecidableEq

inductive VolumeBand | none | under1k | from1kTo5k | from5kTo10k | from10k
  deriving DecidableEq

inductive MemberPerformanceBand
  | suppressed (reason : SuppressionReason)
  | bands (approvedSalesBand : SalesBand) (volumeBand : VolumeBand)
  deriving DecidableEq

structure DirectPerformance where
  currency : String
  period : String
  approvedSales : Nat
  visibleBranchVolumeCents : Int

/-- Its `parentRef` is `self`, and its `localTier` one. -/
structure MemberDirectNode where
  nodeRef : String
  displayName : String
  initials : String
  referralCode : String
  status : MembershipStatus
  visibleDirectCount : Nat
  visibleBranchCount : Nat
  canExpand : Bool
  performance : DirectPerformance

/-- What the tiers of anonymous nodes differ in; the third cannot be expanded. -/
inductive AnonymousTier
  | two (visibleChildCount : Nat) (canExpand : Bool)
  | three
  deriving DecidableEq

structure MemberAnonymousNode where
  nodeRef : String
  parentRef : String
  initials : String
  status : MembershipStatus
  performanceBand : MemberPerformanceBand
  tier : AnonymousTier

inductive ClusterTier | two | three
  deriving DecidableEq

structure MemberVisibleClusterNode where
  clusterRef : String
  parentRef : String
  localTier : ClusterTier
  representedNodes : Nat

inductive MemberVisibleNode
  | direct (node : MemberDirectNode)
  | anonymous (node : MemberAnonymousNode)
  | cluster (node : MemberVisibleClusterNode)

inductive LocalTier | one | two | three
  deriving DecidableEq

/-- A row with the counts that its tier is read with. -/
structure MemberVisibleRecord where
  row : MemberRow
  localTier : LocalTier
  visibleDirectCount : Option Nat
  visibleBranchCount : Option Nat
  visibleChildCount : Option Nat

/-- The columns of a tier at the root's depth and path. -/
def visibleRecord (db : HierarchyDb) (tenantId : String) (root : MemberRow) (at' : Int)
    (localTier : LocalTier) (m : MemberRow) : MemberVisibleRecord :=
  let children := fun depth =>
    ((directsOf db tenantId at' m.id).filter fun c =>
      under root.path c ∧ c.depth = depth).length
  match localTier with
  | .one =>
      ⟨m, .one, some (children (root.depth + 2)),
        some ((existing db tenantId at').filter fun d => under m.path d ∧ m.depth < d.depth ∧
          d.depth ≤ root.depth + MEMBER_MAX_VISIBLE_TIER).length, none⟩
  | .two => ⟨m, .two, none, none, some (children (root.depth + MEMBER_MAX_VISIBLE_TIER))⟩
  | .three => ⟨m, .three, none, none, none⟩

def salesBand (approvedSales : Nat) : SalesBand :=
  if approvedSales = 0 then .zero
  else if approvedSales < 5 then .oneToFour
  else if approvedSales < 10 then .fiveToNine
  else .tenUp

def volumeBand (teamVolumeCents : Int) : VolumeBand :=
  if teamVolumeCents = 0 then .none
  else if teamVolumeCents < 100000 then .under1k
  else if teamVolumeCents < 500000 then .from1kTo5k
  else if teamVolumeCents < 1000000 then .from5kTo10k
  else .from10k

def memberPerformanceBand (performance : Option MemberPerformanceRecord) :
    Except ServiceError MemberPerformanceBand :=
  match performance with
  | none => .ok (.suppressed .noData)
  | some p => do
      let cohortCount ← safeCount p.cohortCount
      if cohortCount < 3 then .ok (.suppressed .smallCohort)
      else do
        let approved ← safeCount p.approvedSales
        .ok (.bands (salesBand approved) (volumeBand p.teamVolumeCents))

section Nodes

variable (env : HierarchyEnv)

/-- A `parentRef` of `none` is `self`. -/
def toMemberVisibleNode (record : MemberVisibleRecord) (nodeRef : String)
    (parentRef : Option String) (performance : Option MemberPerformanceRecord)
    (currency period : String) : Except ServiceError MemberVisibleNode :=
  match record.localTier with
  | .one => do
      let visibleDirectCount ← safeCount (record.visibleDirectCount.getD 0)
      let visibleBranchCount ← safeCount (record.visibleBranchCount.getD 0)
      let approved ← safeCount ((performance.map (·.approvedSales)).getD 0)
      .ok (.direct {
        nodeRef
        displayName := record.row.fullName
        initials := initials env record.row.fullName
        referralCode := record.row.referralCode
        status := record.row.status
        visibleDirectCount
        visibleBranchCount
        canExpand := 0 < visibleDirectCount
        performance :=
          ⟨currency, period, approved, (performance.map (·.teamVolumeCents)).getD 0⟩ })
  | tier =>
      match parentRef with
      | none => .error (.internal "anonymous member parent reference missing")
      | some parentRef => do
          let letters ← anonymousInitials env record.row.fullName
          let performanceBand ← memberPerformanceBand performance
          let anonymousBase : AnonymousTier → MemberVisibleNode := fun tier =>
            .anonymous
              ⟨nodeRef, parentRef, letters, record.row.status, performanceBand, tier⟩
          if tier = .two then do
            let visibleChildCount ← safeCount (record.visibleChildCount.getD 0)
            .ok (anonymousBase (.two visibleChildCount (0 < visibleChildCount)))
          else .ok (anonymousBase .three)

end Nodes

end Refearn.Hierarchy
