import Refearn.Hierarchy.Members
import Refearn.Support.Like
/-!
# Searching for members

`adminSearch` and `memberDirectSearch`: pages of the members whose name or referral code the query
is looked for in, and the cursor that continues them.
-/

namespace Refearn.Hierarchy

open Support

/-! ## The snapshot of a cursor -/

/-- `extractUntrustedSnapshotAt`: what the payload says, before anything is verified. -/
def extractUntrustedSnapshotAt (token : String) : Except HierarchyError String :=
  if token = "" ∨ token.toList.length > HIERARCHY_TOKEN_MAX_LENGTH then invalidRequest
  else
    match token.toList.splitOn '.' with
    | [payload, signature] =>
        if isBase64url payload = false ∨ signature = [] then invalidRequest
        else
          match decodeCanonical (String.ofList payload) with
          | none => invalidRequest
          | some decoded =>
              match JsonValue.parse decoded with
              | some (.obj members) =>
                  match textMember members "snapshotAt" with
                  | some snapshotAt =>
                      if (canonicalDate snapshotAt).isSome then .ok snapshotAt else invalidRequest
                  | none => invalidRequest
              | _ => invalidRequest
    | _ => invalidRequest

/-- `new Date(snapshotAt)` of a snapshot that has been checked. -/
def instantOf (snapshotAt : String) : Int := (canonicalDate snapshotAt).getD 0

/-! ## Matching -/

section Matching

variable (env : HierarchyEnv)

/-- `text ILIKE %query%`: both sides in lower case. -/
def ilike (text query : String) : Bool :=
  like ((containing query.toList).map env.lower) (text.toList.map env.lower)

def found (query : String) (m : MemberRow) : Bool :=
  ilike env m.fullName query || ilike env m.referralCode query

/-- PostgreSQL takes no text with a NUL. -/
def checkParameter (query : String) : Except ServiceError Unit :=
  if query.toList.contains '\x00' then
    .error (.internal "invalid byte sequence for encoding \"UTF8\": 0x00")
  else .ok ()

/-- One row more than a page, after the keyset. -/
def readPage (after : Option Keyset) (rows : List MemberRow) : List MemberRow :=
  (inOrder rowKey (afterKey rowKey (after.map keysetKey) rows)).take
    (ADMIN_HIERARCHY_PAGE_SIZE + 1)

def readSearchRows (db : HierarchyDb) (tenantId query : String) (after : Option Keyset)
    (at' : Int) : Except ServiceError (List MemberRow) := do
  checkParameter query
  .ok (readPage after ((existing db tenantId at').filter (found env query)))

/-- What the root's direct recruits are found by. -/
def isVisibleDirect (root m : MemberRow) : Bool :=
  m.sponsorMembershipId = some root.id && under root.path m && m.depth = root.depth + 1

/-- The rows, and how many there are after the keyset, which every row carries. -/
def readMemberDirectSearch (db : HierarchyDb) (tenantId : String) (root : MemberRow)
    (query : String) (after : Option Keyset) (at' : Int) :
    Except ServiceError (List MemberRow × Nat) := do
  checkParameter query
  let rows := (existing db tenantId at').filter fun m => isVisibleDirect root m && found env query m
  .ok (readPage after rows, (afterKey rowKey (after.map keysetKey) rows).length)

end Matching

/-! ## The pages -/

structure AdminNodePerformance where
  currency : String
  period : String
  approvedSales : Nat
  teamVolumeCents : Int

structure AdminMemberNode where
  membershipId : String
  parentMembershipId : Option String
  displayName : String
  initials : String
  referralCode : String
  status : MembershipStatus
  globalTier : Nat
  localTier : Nat
  directCount : Nat
  subtreeCount : Nat
  canExpand : Bool
  performance : Option AdminNodePerformance

structure SearchPage (ν : Type) where
  items : List ν
  nextCursor : Option String
  snapshotAt : String

section Pages

variable (env : HierarchyEnv)

def branchOf (db : HierarchyDb) (tenantId : String) (at' : Int) (m : MemberRow) : List MemberRow :=
  (existing db tenantId at').filter (under m.path)

/-- The entry of a row in `readFinancials`. -/
def adminPerformance (db : HierarchyDb) (tenant : TenantRow) (at' : Int) (m : MemberRow) :
    Except ServiceError AdminNodePerformance := do
  let period := env.monthKey at' tenant.timezone
  let sales := approvedSales db m.tenantId period at' (branchOf db m.tenantId at' m)
  let approved ← safeCount sales.length
  .ok ⟨tenant.currency, period, approved, (sales.map (·.amountCents)).sum⟩

def toAdminNode (db : HierarchyDb) (tenantId : String) (at' : Int) (m : MemberRow)
    (localTier : Nat) (performance : Option AdminNodePerformance) :
    Except ServiceError AdminMemberNode := do
  let directCount ← safeCount (directsOf db tenantId at' m.id).length
  let subtreeCount ← safeCount ((branchOf db tenantId at' m).length - 1)
  .ok {
    membershipId := m.id
    parentMembershipId := m.sponsorMembershipId
    displayName := m.fullName
    initials := initials env m.fullName
    referralCode := m.referralCode
    status := m.status
    globalTier := m.depth + 1
    localTier
    directCount
    subtreeCount
    canExpand := 0 < directCount
    performance }

def checkQuery (query : String) : Except ServiceError String :=
  let query := trim query
  if utf16Length query < 2 ∨ 120 < utf16Length query then ofHierarchy invalidRequest else .ok query

/-- The columns of the row that a cursor continues after. -/
def MemberRow.keysetRow (m : MemberRow) : KeysetRow := ⟨m.joinedAt, m.id⟩

/-- The snapshot of a listing: that of its cursor, or now. -/
def snapshotOf (cursor : Option String) (now : Int) : Except ServiceError String :=
  ofHierarchy (match cursor with
    | some cursor => extractUntrustedSnapshotAt cursor
    | none => toISOString now)

/-- The keyset of a cursor that is verified for the listing. -/
def keysetAfterCursor (parse : String → Except HierarchyError (Option Keyset))
    (binding : ReferenceBinding) (cursor : Option String) (now : Int) :
    Except ServiceError (Option Keyset) :=
  ofHierarchy (match cursor with
    | some cursor => do
        let payload ← verifyHierarchyReferenceToken env.crypto env.secret cursor
          { binding with kind := .cursor } now
        parse payload.subject
    | none => .ok none)

/-- The token for the last row of a page, while there is more. -/
def nextCursor (make : KeysetRow → Except HierarchyError String) (hasMore : Bool)
    (visible : List MemberRow) : Except ServiceError (Option String) :=
  match visible.getLast? with
  | some last => if hasMore then ofHierarchy ((make last.keysetRow).map some) else .ok none
  | none => .ok none

def shownTenant (db : HierarchyDb) (tenantId : String) (viewFinancials : Bool) :
    Except ServiceError (Option TenantRow) :=
  if viewFinancials then (readTenant db tenantId).map some else .ok none

def searchItem (db : HierarchyDb) (tenantId : String) (at' : Int) (tenant : Option TenantRow)
    (m : MemberRow) : Except ServiceError AdminMemberNode :=
  match tenant with
  | none => toAdminNode env db tenantId at' m (m.depth + 1) none
  | some tenant => do
      let performance ← adminPerformance env db tenant at' m
      toAdminNode env db tenantId at' m (m.depth + 1) (some performance)

/-- An empty cursor is none. -/
def adminSearch (db : HierarchyDb) (actor : ActorContext) (viewFinancials : Bool)
    (rawQuery : String) (rawCursor : Option String) (now : Int) :
    Except ServiceError (SearchPage AdminMemberNode) := do
  let query ← checkQuery rawQuery
  let parentRef := searchBinding env.crypto query
  let cursor := rawCursor.filter (· ≠ "")
  let snapshotAt ← snapshotOf cursor now
  let after ← keysetAfterCursor env parseKeyset { actor, parentRef, snapshotAt } cursor now
  let rows ← readSearchRows env db actor.tenantId query after (instantOf snapshotAt)
  let visible := rows.take ADMIN_HIERARCHY_PAGE_SIZE
  let tenant ← shownTenant db actor.tenantId viewFinancials
  let items ← visible.mapM (searchItem env db actor.tenantId (instantOf snapshotAt) tenant)
  let next ← nextCursor (cursorToken env.crypto env.secret actor parentRef snapshotAt)
    (ADMIN_HIERARCHY_PAGE_SIZE < rows.length) visible
  .ok ⟨items, next, snapshotAt⟩

def directItem (db : HierarchyDb) (actor : ActorContext) (root : MemberRow) (tenant : TenantRow)
    (snapshotAt : String) (m : MemberRow) : Except ServiceError MemberVisibleNode := do
  let at' := instantOf snapshotAt
  let period := env.monthKey at' tenant.timezone
  let nodeRef ← ofHierarchy (memberNodeRef env.crypto env.secret actor
    (memberRootBinding root.id) m.id snapshotAt)
  toMemberVisibleNode env (visibleRecord db actor.tenantId root at' .one m) nodeRef none
    (memberPerformance db actor.tenantId period root at' m) tenant.currency period

def MemberVisibleNode.direct? : MemberVisibleNode → Option MemberDirectNode
  | .direct node => some node
  | _ => none

def checkRoot (rootMembershipId : String) : Except ServiceError Unit :=
  if isUuid rootMembershipId = false then ofHierarchy invalidRequest else .ok ()

/-- `iv` is drawn for the cursor that is made. -/
def memberDirectSearch (db : HierarchyDb) (actor : ActorContext) (iv : List UInt8)
    (rootMembershipId rawQuery : String) (cursor : Option String) (now : Int) :
    Except ServiceError (SearchPage MemberDirectNode) := do
  checkRoot rootMembershipId
  let query ← checkQuery rawQuery
  let parentRef := memberSearchBinding env.crypto rootMembershipId query
  let snapshotAt ← snapshotOf cursor now
  let after ← keysetAfterCursor env (parseMemberKeyset env.crypto env.secret)
    { actor, parentRef, snapshotAt } cursor now
  let root ← resolveMemberRoot db actor rootMembershipId (instantOf snapshotAt)
  let tenant ← readTenant db actor.tenantId
  let (rows, total) ← readMemberDirectSearch env db actor.tenantId root query after
    (instantOf snapshotAt)
  let visible := rows.take ADMIN_HIERARCHY_PAGE_SIZE
  let items ← visible.mapM (directItem env db actor root tenant snapshotAt)
  -- the first row carries the count of all rows after the keyset
  let branchCount ← safeCount (if rows = [] then rows.length else total)
  let next ← nextCursor (memberCursorToken env.crypto env.secret iv actor parentRef snapshotAt)
    (visible.length < branchCount) visible
  .ok ⟨items.filterMap MemberVisibleNode.direct?, next, snapshotAt⟩

end Pages

/-! ## Following the cursors -/

/-- What the calls list together; `call` says which call it is and with which cursor. -/
def follow {ν : Type} (call : Nat → Option String → Except ServiceError (SearchPage ν)) :
    Nat → Nat → Option String → Except ServiceError (List ν)
  | 0, _, _ => .ok []
  | fuel + 1, i, cursor => do
      let page ← call i cursor
      match page.nextCursor with
      | none => .ok page.items
      | some next => do
          let rest ← follow call fuel (i + 1) (some next)
          .ok (page.items ++ rest)

end Refearn.Hierarchy
