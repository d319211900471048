import Refearn.Auth.Claims
import Refearn.Memberships.Tree
/-!
# Administering members

The single and the bulk actions of `MembersAdminService` on the status and the role of members.
A bulk run repeats the single action for one identifier after the other and goes on after a
refusal; its preview decides for each identifier on the members as they were read at the start.
-/

namespace Refearn.Memberships

open Support
open Auth (Role ApiKey defaultPermissionsForTier ALL_PERMISSIONS)

structure ActorContext where
  userId : Uuid
  tenantId : Uuid
  deriving DecidableEq

inductive MembersError
  | badRequest (message : String)
  | forbidden (message : String)
  | notFound (message : String)
  deriving DecidableEq

def MembersError.message : MembersError → String
  | .badRequest m | .forbidden m | .notFound m => m

/-- The columns of `roles` that a change of role reads. -/
structure RoleRow where
  id : Uuid
  tenantId : Uuid
  roleKey : String
  permissions : List String

/-- `@@unique([tenantId, key])` -/
instance : Keyed RoleRow Uuid where
  key := RoleRow.id
  clash r r' := r.tenantId == r'.tenantId && r.roleKey == r'.roleKey

structure MembersDb where
  memberships : Table MembershipRow
  roles : Table RoleRow
  apiKeys : Table ApiKey
  platformAdmins : List Uuid
  payouts : List Payout
  auditLogs : List Auth.AuditLog

/-! ## Reading members -/

/-- How the database reads the text of an identifier, in upper or lower case. -/
def names (text : String) (id : Uuid) : Bool := text.toList.map Char.toLower == id.chars

def membershipNotFound : MembersError := .notFound "membership was not found in this business"

def requireInTenant (db : MembersDb) (tenantId : Uuid) (membershipId : String) :
    Except MembersError MembershipRow :=
  match db.memberships.rows.find? fun m => names membershipId m.id && m.tenantId == tenantId with
  | some m => .ok m
  | none => .error membershipNotFound

/-! ## Who may change roles -/

def ASSIGNABLE_ROLES : List Role := [.tenantAdmin, .tenantStaff, .member]

structure RoleChangeAuthority where
  membershipId : Option Uuid
  permissions : List String
  deriving DecidableEq

structure TierRoleAssignment where
  roleId : Option Uuid
  permissions : List String
  deriving DecidableEq

def activeMembershipNotFound : MembersError := .forbidden "active membership not found"

/-- What the actor's own role lets it grant; a platform administrator has no membership. -/
def resolveRoleChangeAuthority (db : MembersDb) (actor : ActorContext)
    (actorMembershipId : Option Uuid) : Except MembersError RoleChangeAuthority :=
  match actorMembershipId with
  | none =>
      if actor.userId ∈ db.platformAdmins then .ok ⟨none, ALL_PERMISSIONS⟩
      else .error activeMembershipNotFound
  | some id =>
      match db.memberships.rows.find? fun m =>
        m.tenantId == actor.tenantId && m.userId == actor.userId && m.id == id with
      | none => .error activeMembershipNotFound
      | some m =>
          if m.status = .active then
            match m.role with
            | .tenantOwner | .platformAdmin => .ok ⟨some m.id, ALL_PERMISSIONS⟩
            | .tenantAdmin | .tenantStaff =>
                .ok ⟨some m.id, ((m.roleId.bind db.roles.find?).map RoleRow.permissions).getD
                  (defaultPermissionsForTier m.role)⟩
            | .member => .ok ⟨some m.id, defaultPermissionsForTier m.role⟩
          else .error activeMembershipNotFound

/-- `TIER_TO_SYSTEM_ROLE` -/
def tierToSystemRole : Role → Option String
  | .tenantOwner => some "owner"
  | .tenantAdmin => some "admin"
  | .tenantStaff => some "support"
  | .platformAdmin | .member => none

def tierRoleAssignmentFor (db : MembersDb) (tenantId : Uuid) (role : Role) :
    TierRoleAssignment :=
  if role = .member then ⟨none, []⟩
  else
    match tierToSystemRole role with
    | none => ⟨none, defaultPermissionsForTier role⟩
    | some roleKey =>
        let systemRole := db.roles.rows.find? fun r =>
          r.tenantId == tenantId && r.roleKey == roleKey
        ⟨systemRole.map RoleRow.id,
          (defaultPermissionsForTier role ++
            (systemRole.map RoleRow.permissions).getD []).eraseDups⟩

def assertRoleGrantable (authority : RoleChangeAuthority) (requestedPermissions : List String) :
    Except MembersError Unit :=
  let escalating := requestedPermissions.filter fun permission =>
    permission ∉ authority.permissions
  if escalating = [] then .ok ()
  else .error (.forbidden
    ("you cannot grant permissions you do not have: " ++ ", ".intercalate escalating))

def assertRoleChangeAllowed (authority : RoleChangeAuthority) (m : MembershipRow)
    (assignment : TierRoleAssignment) : Except MembersError Unit :=
  if authority.membershipId = some m.id then
    .error (.forbidden "you cannot change your own role from this screen")
  else if m.role = .tenantOwner then
    .error (.badRequest "owner rolu bu uctan degistirilemez")
  else assertRoleGrantable authority assignment.permissions

def roleChangeDeniedReason (authority : RoleChangeAuthority) (m : MembershipRow)
    (assignment : TierRoleAssignment) : Option String :=
  match assertRoleChangeAllowed authority m assignment with
  | .ok _ => none
  | .error e => some e.message

/-! ## Writing -/

def roleText : Role → String
  | .platformAdmin => "platform_admin"
  | .tenantOwner => "tenant_owner"
  | .tenantAdmin => "tenant_admin"
  | .tenantStaff => "tenant_staff"
  | .member => "member"

def statusText : MembershipStatus → String
  | .active => "active"
  | .inactive => "inactive"

def roleIdJson (roleId : Option Uuid) : Json := (roleId.map fun id => .str id.text).getD .null

def audit (actor : ActorContext) (action entity : String) (entityId : Uuid)
    (after : List (String × Json)) : Auth.AuditLog where
  tenantId := actor.tenantId
  actorUserId := actor.userId
  action
  entity
  entityId
  after := .obj after

def isLiveKeyOf (actor : ActorContext) (membershipId : Uuid) (k : ApiKey) : Bool :=
  k.tenantId == actor.tenantId && k.membershipId == membershipId && k.revokedAt.isNone

/-- The member's live keys are revoked; that there were some goes into the audit log. -/
def revokeApiKeys (db : MembersDb) (actor : ActorContext) (membershipId : Uuid) (now : Instant)
    (reason : List (String × Json)) : MembersDb :=
  let count := db.apiKeys.rows.countP (isLiveKeyOf actor membershipId)
  { db with
    apiKeys := db.apiKeys.updateWhere (isLiveKeyOf actor membershipId)
      (fun k => { k with revokedAt := some now })
      { key_eq := fun _ => rfl, clash_left := fun _ _ h => h, clash_right := fun _ _ h => h }
    auditLogs := db.auditLogs ++
      if 0 < count then
        [audit actor "apikey.revoke_cascade" "apikey" membershipId
          (reason ++ [("count", .num count)])]
      else [] }

/-- `membership.update` -/
def updateMember (db : MembersDb) (id : Uuid) (u : MembershipUpdate) : MembersDb :=
  { db with memberships := db.memberships.updateKey id u.apply u.keepsIndexes }

def statusUpdate (status : MembershipStatus) : MembershipUpdate :=
  ⟨none, none, none, some status, none, none⟩

def roleUpdate (role : Role) (roleId : Option Uuid) : MembershipUpdate :=
  ⟨some role, some roleId, none, none, none, none⟩

def writeStatus (db : MembersDb) (actor : ActorContext) (m : MembershipRow)
    (status : MembershipStatus) (now : Instant) : MembersDb :=
  let updated := updateMember db m.id (statusUpdate status)
  let cascaded := if status = .inactive then
      revokeApiKeys updated actor m.id now [("reason", .str "deactivate")]
    else updated
  let action := if status = .inactive then "membership.deactivate" else "membership.activate"
  { cascaded with
    auditLogs := cascaded.auditLogs ++ [audit actor action "membership" m.id
      [("from", .str (statusText m.status)), ("to", .str (statusText status))]] }

def writeRole (db : MembersDb) (actor : ActorContext) (m : MembershipRow) (role : Role)
    (assignment : TierRoleAssignment) (now : Instant) : MembersDb :=
  let updated := updateMember db m.id (roleUpdate role assignment.roleId)
  let cascaded := if role ≠ m.role ∨ assignment.roleId ≠ m.roleId then
      revokeApiKeys updated actor m.id now
        [("reason", .str "role_change"), ("from", .str (roleText m.role)),
          ("to", .str (roleText role))]
    else updated
  { cascaded with
    auditLogs := cascaded.auditLogs ++ [audit actor "membership.set_role" "membership" m.id
      [("from", .str (roleText m.role)), ("to", .str (roleText role)),
        ("fromRoleId", roleIdJson m.roleId), ("toRoleId", roleIdJson assignment.roleId)]] }

def setStatus (db : MembersDb) (actor : ActorContext) (membershipId : String)
    (status : MembershipStatus) (now : Instant) : Except MembersError MembersDb := do
  let m ← requireInTenant db actor.tenantId membershipId
  if m.role = .tenantOwner ∧ status = .inactive then
    .error (.badRequest "owner membership cannot be deactivated")
  else if m.status = status then
    pure db
  else
    pure (writeStatus db actor m status now)

/-- With the authority and the assignment already resolved, as a bulk run calls it. -/
def setRole (db : MembersDb) (actor : ActorContext) (membershipId : String) (role : Role)
    (authority : RoleChangeAuthority) (assignment : TierRoleAssignment) (now : Instant) :
    Except MembersError MembersDb := do
  if role ∉ ASSIGNABLE_ROLES then
    .error (.badRequest "bu rol bu uctan atanamaz")
  else
    let m ← requireInTenant db actor.tenantId membershipId
    assertRoleChangeAllowed authority m assignment
    pure (writeRole db actor m role assignment now)

/-! ## Bulk actions -/

/-- What a bulk action does to each member, its authority resolved once. -/
inductive BulkAction
  | setStatus (status : MembershipStatus)
  | setRole (role : Role) (authority : RoleChangeAuthority) (assignment : TierRoleAssignment)
  deriving DecidableEq

inductive BulkActionName | activate | deactivate | setRole
  deriving DecidableEq

structure BulkInput where
  action : BulkActionName
  ids : List String
  role : Option Role
  deriving DecidableEq

/-- The checks before either mode. -/
def prepareBulk (db : MembersDb) (actor : ActorContext) (input : BulkInput)
    (actorMembershipId : Option Uuid) : Except MembersError BulkAction := do
  if input.action = .setRole ∧ input.role = none then
    .error (.badRequest "rol gerekli")
  else if input.role.any fun role => role ∉ ASSIGNABLE_ROLES then
    .error (.badRequest "bu rol bu uctan atanamaz")
  else
    match input.action, input.role with
    | .activate, _ => pure (.setStatus .active)
    | .deactivate, _ => pure (.setStatus .inactive)
    | .setRole, none => .error (.badRequest "rol gerekli")
    | .setRole, some role =>
        let authority ← resolveRoleChangeAuthority db actor actorMembershipId
        pure (.setRole role authority (tierRoleAssignmentFor db actor.tenantId role))

structure BulkPreview where
  total : Nat
  willChange : Nat
  skipped : List (String × String)
  openPayoutRequests : Nat

/-- Why a member that has been found is skipped. -/
def skipReason (action : BulkAction) (m : MembershipRow) : Option String :=
  match action with
  | .setRole role authority assignment =>
      match roleChangeDeniedReason authority m assignment with
      | some denied => some denied
      | none =>
          if m.role = role ∧ m.roleId = assignment.roleId then some "zaten bu rolde" else none
  | .setStatus target =>
      if m.role = .tenantOwner ∧ target = .inactive then some "owner pasife alinamaz"
      else if m.status = target then some "zaten bu durumda"
      else none

/-- `byId.get(id)`: the map has the texts that the database gives. -/
def byId (rows : List MembershipRow) (id : String) : Option MembershipRow :=
  rows.find? fun m => m.id.chars == id.toList

def previewReason (rows : List MembershipRow) (action : BulkAction) (id : String) :
    Option String :=
  match byId rows id with
  | none => some "bulunamadi"
  | some m => skipReason action m

def bulkPreview (db : MembersDb) (actor : ActorContext) (action : BulkAction)
    (ids : List String) : BulkPreview :=
  let rows := db.memberships.rows.filter fun m =>
    m.tenantId == actor.tenantId && ids.any fun id => names id m.id
  { total := ids.length
    willChange := ids.countP fun id => (previewReason rows action id).isNone
    skipped := ids.filterMap fun id => (previewReason rows action id).map (id, ·)
    openPayoutRequests :=
      if action = .setStatus .inactive then
        db.payouts.countP fun p => p.tenantId == actor.tenantId && p.status == .requested &&
          ids.any fun id => names id p.membershipId
      else 0 }

def BulkAction.apply (action : BulkAction) (db : MembersDb) (actor : ActorContext) (id : String)
    (now : Instant) : Except MembersError MembersDb :=
  match action with
  | .setStatus status => Memberships.setStatus db actor id status now
  | .setRole role authority assignment =>
      Memberships.setRole db actor id role authority assignment now

structure BulkRun where
  db : MembersDb
  succeeded : Nat
  failed : List (String × String)

/-- One turn of the loop. -/
def bulkTurn (actor : ActorContext) (action : BulkAction) (now : Instant) (r : BulkRun)
    (id : String) : BulkRun :=
  match action.apply r.db actor id now with
  | .ok db => { r with db, succeeded := r.succeeded + 1 }
  | .error e => { r with failed := r.failed ++ [(id, e.message)] }

def bulkRun (db : MembersDb) (actor : ActorContext) (action : BulkAction) (ids : List String)
    (now : Instant) : BulkRun :=
  ids.foldl (bulkTurn actor action now) ⟨db, 0, []⟩

/-- `bulk` with `preview`. -/
def previewBulk (db : MembersDb) (actor : ActorContext) (input : BulkInput)
    (actorMembershipId : Option Uuid) : Except MembersError BulkPreview :=
  (prepareBulk db actor input actorMembershipId).map fun action =>
    bulkPreview db actor action input.ids

/-- `bulk` without `preview`. -/
def executeBulk (db : MembersDb) (actor : ActorContext) (input : BulkInput)
    (actorMembershipId : Option Uuid) (now : Instant) : Except MembersError BulkRun :=
  (prepareBulk db actor input actorMembershipId).map fun action =>
    bulkRun db actor action input.ids now

end Refearn.Memberships
