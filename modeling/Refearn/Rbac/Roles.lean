import Refearn.Memberships.Administration
import Refearn.Support.Casing
/-!
# Roles of a tenant

`rbac.service.ts`: the system roles that a start of the server seeds, the custom roles that
administrators keep, and the assignment of both to members. `setRole` and `createManual` of
`members.admin.service.ts` write the same columns, so they are steps of the same system.
-/

namespace Refearn.Rbac

open Support Support.Transaction Memberships
open Auth (Role ApiKey ALL_PERMISSIONS allExcept supportPermissions
  defaultPermissionsForTier)

/-! ## Rows -/

structure TenantRoleRow where
  id : Uuid
  tenantId : Uuid
  roleKey : String
  name : String
  description : Option String
  color : Option String
  isSystem : Bool
  permissions : List String

/-- `@@unique([tenantId, key])` -/
instance : Keyed TenantRoleRow Uuid where
  key := TenantRoleRow.id
  clash r r' := r.tenantId == r'.tenantId && r.roleKey == r'.roleKey

inductive TenantStatus | active | suspended
  deriving DecidableEq

structure TenantRow where
  id : Uuid
  status : TenantStatus

structure RbacDb where
  tenants : List TenantRow
  roles : Table TenantRoleRow
  tree : TreeDb
  apiKeys : Table ApiKey
  platformAdmins : List Uuid
  payouts : List Payout
  auditLogs : List Auth.AuditLog

/-- The columns that the administration of members reads. -/
def TenantRoleRow.roleRow (r : TenantRoleRow) : RoleRow :=
  ⟨r.id, r.tenantId, r.roleKey, r.permissions⟩

def RbacDb.members (db : RbacDb) : MembersDb where
  memberships := db.tree.memberships
  roles := db.roles.project TenantRoleRow.roleRow (fun _ => rfl) fun _ _ => rfl
  apiKeys := db.apiKeys
  platformAdmins := db.platformAdmins
  payouts := db.payouts
  auditLogs := db.auditLogs

inductive RbacError
  | badRequest (message : String)
  | forbidden (message : String)
  | notFound (message : String)
  | conflict (message : String)
  /-- of the administration of members -/
  | members (e : MembersError)
  /-- of the transaction that creates a membership -/
  | membership (e : MembershipError)
  | uniqueViolation (table : String)
  | foreignKeyViolation (column : String)

/-! ## System roles -/

structure SystemRoleSeed where
  roleKey : String
  name : String
  description : String
  color : String
  permissions : List String

def viewOnly : List String :=
  ALL_PERMISSIONS.filter fun p =>
    ".view".toList.isSuffixOf p.toList && p != "compliance.view" && p != "network.financials.view"

def financePermissions : List String :=
  ["dashboard.view", "sales.view", "sales.approve", "sales.void", "sales.export", "members.view",
    "payouts.view", "payouts.process", "payouts.export", "reports.view", "reports.export",
    "audit.view", "settings.view"]

def SYSTEM_ROLES : List SystemRoleSeed :=
  [⟨"owner", "Owner", "Full access to everything, including roles and billing.", "#D4AF37",
      ALL_PERMISSIONS⟩,
    ⟨"admin", "Administrator", "Manage the whole workspace except destructive role deletion.",
      "#5B7CFA", allExcept "settings.data"⟩,
    ⟨"finance", "Finance", "Approve sales, run payouts and reporting.", "#23A981",
      financePermissions⟩,
    ⟨"support", "Support", "Help members, record sales and manage invitations.", "#C98A2B",
      supportPermissions⟩,
    ⟨"analyst", "Analyst", "Read-only access to data and reports.", "#8A93A6",
      viewOnly ++ ["reports.export"]⟩]

/-- `findUnique` by tenant and key -/
def roleByKey (db : RbacDb) (tenantId : Uuid) (roleKey : String) : Option TenantRoleRow :=
  db.roles.rows.find? fun r => r.tenantId == tenantId && r.roleKey == roleKey

/-- `update` of an upsert -/
def SystemRoleSeed.rewrite (s : SystemRoleSeed) (r : TenantRoleRow) : TenantRoleRow :=
  { r with permissions := s.permissions, name := s.name, description := some s.description,
           color := some s.color }

theorem SystemRoleSeed.keepsIndexes (s : SystemRoleSeed) : KeepsIndexes s.rewrite where
  key_eq _ := rfl
  clash_left _ _ h := h
  clash_right _ _ h := h

/-- `create` of an upsert -/
def SystemRoleSeed.row (s : SystemRoleSeed) (tenantId id : Uuid) : TenantRoleRow :=
  ⟨id, tenantId, s.roleKey, s.name, some s.description, some s.color, true, s.permissions⟩

def upsertSystemRole (tenantId : Uuid) (newId : String → Uuid) (db : RbacDb) (s : SystemRoleSeed) :
    Except RbacError RbacDb :=
  match roleByKey db tenantId s.roleKey with
  | some r => .ok { db with roles := db.roles.updateKey r.id s.rewrite s.keepsIndexes }
  | none =>
      match db.roles.insert? (s.row tenantId (newId s.roleKey)) with
      | some roles => .ok { db with roles }
      | none => .error (.uniqueViolation "roles")

/-- A loop of statements without a transaction: what is done stays when a later one fails. -/
def upToFailure {α : Type} (f : RbacDb → α → Except RbacError RbacDb) :
    List α → RbacDb → RbacDb × Bool
  | [], db => (db, true)
  | a :: as, db =>
      match f db a with
      | .ok db => upToFailure f as db
      | .error _ => (db, false)

def ensureSystemRoles (tenantId : Uuid) (newId : String → Uuid) (db : RbacDb) : RbacDb × Bool :=
  upToFailure (upsertSystemRole tenantId newId) SYSTEM_ROLES db

/-- The tiers of `TIER_TO_SYSTEM_ROLE`, in order. -/
def mappedTiers : List Role := [.tenantOwner, .tenantAdmin, .tenantStaff]

def withRoleId (roleId : Uuid) (m : MembershipRow) : MembershipRow :=
  { m with roleId := some roleId }

theorem keepsIndexes_withRoleId (roleId : Uuid) : KeepsIndexes (withRoleId roleId) where
  key_eq _ := rfl
  clash_left _ _ h := h
  clash_right _ _ h := h

def RbacDb.setMemberships (db : RbacDb) (memberships : Table MembershipRow) : RbacDb :=
  { db with tree := { db.tree with memberships } }

/-- The system role of a tier that the backfill assigns. -/
def systemRoleOf (db : RbacDb) (tenantId : Uuid) (tier : Role) : Option TenantRoleRow :=
  (tierToSystemRole tier).bind fun roleKey =>
    db.roles.rows.find? fun r => r.tenantId == tenantId && r.isSystem && r.roleKey == roleKey

def backfillTier (tenantId : Uuid) (db : RbacDb) (tier : Role) : RbacDb :=
  match systemRoleOf db tenantId tier with
  | none => db
  | some r => db.setMemberships (db.tree.memberships.updateWhere
      (fun m => m.tenantId == tenantId && m.role == tier && m.roleId.isNone)
      (withRoleId r.id) (keepsIndexes_withRoleId r.id))

def backfillMembershipRoles (tenantId : Uuid) (db : RbacDb) : RbacDb :=
  mappedTiers.foldl (backfillTier tenantId) db

/-- The identifiers that a start draws for the roles it creates. -/
abbrev StartDraws := Uuid → String → Uuid

def startTenant (draws : StartDraws) (db : RbacDb) (t : TenantRow) : RbacDb × Bool :=
  match ensureSystemRoles t.id (draws t.id) db with
  | (db, true) => (backfillMembershipRoles t.id db, true)
  | (db, false) => (db, false)

/-- The tenants one after the other; the first failure is logged and ends the start. -/
def startTenants (draws : StartDraws) : List TenantRow → RbacDb → RbacDb
  | [], db => db
  | t :: ts, db =>
      match startTenant draws db t with
      | (db, true) => startTenants draws ts db
      | (db, false) => db

def onModuleInit (draws : StartDraws) (db : RbacDb) : RbacDb := startTenants draws db.tenants db

/-! ## Effective permissions -/

def roleRefPermissions (db : RbacDb) (m : MembershipRow) : Option (List String) :=
  (m.roleId.bind db.roles.find?).map TenantRoleRow.permissions

def permissionsFor (db : RbacDb) (m : MembershipRow) : List String :=
  match m.role with
  | .tenantOwner | .platformAdmin => defaultPermissionsForTier m.role
  | .tenantAdmin | .tenantStaff =>
      (roleRefPermissions db m).getD (defaultPermissionsForTier m.role)
  | .member => defaultPermissionsForTier m.role

/-! ## Custom roles -/

/-- An actor cannot grant permissions it does not have. -/
def assertGrantable (actorPerms requested : List String) : Except RbacError Unit :=
  let escalating := requested.filter fun p => p ∉ actorPerms
  if escalating = [] then .ok ()
  else .error (.forbidden
    ("you cannot grant permissions you do not have: " ++ ", ".intercalate escalating))

/-- `replace(/[^a-z0-9]+/g, '_')` -/
def replaceOthers : Bool → List Char → List Char
  | _, [] => []
  | inRun, c :: cs =>
      if c.isLower || c.isDigit then c :: replaceOthers false cs
      else if inRun then replaceOthers true cs
      else '_' :: replaceOthers true cs

/-- `replace(/^_+|_+$/g, '')` -/
def trimUnderscores (cs : List Char) : List Char :=
  ((cs.dropWhile (· == '_')).reverse.dropWhile (· == '_')).reverse

def baseKey (t : CaseTable) (name : String) : String :=
  let base := (trimUnderscores (replaceOthers false (t.toLowerCase name).toList)).take 40
  if base = [] then "role" else String.ofList base

/-- The keys in the order of the attempts. -/
def candidateKey (base : String) : Nat → String
  | 0 => base
  | i + 1 => base ++ "_" ++ toString (i + 1)

/-- One of the first attempts is free, since each taken one has a row. -/
def uniqueKey (t : CaseTable) (db : RbacDb) (tenantId : Uuid) (name : String) : Option String :=
  ((List.range (db.roles.rows.length + 1)).map (candidateKey (baseKey t name))).find? fun roleKey =>
    (roleByKey db tenantId roleKey).isNone

structure CreateRoleInput where
  name : String
  description : Option String
  color : Option String
  permissions : List String

def CreateRoleInput.row (input : CreateRoleInput) (tenantId id : Uuid) (roleKey : String) :
    TenantRoleRow :=
  ⟨id, tenantId, roleKey, input.name, input.description, input.color, false, input.permissions⟩

def auditEntry (actor : ActorContext) (action : String) (entityId : Uuid)
    (after : List (String × Json)) : Auth.AuditLog :=
  ⟨actor.tenantId, actor.userId, action, "rbac", entityId, .obj after⟩

def permissionsJson (permissions : List String) : Json := .arr (permissions.map .str)

def createRole (t : CaseTable) (db : RbacDb) (actor : ActorContext) (input : CreateRoleInput)
    (actorPerms : List String) (id : Uuid) : Except RbacError RbacDb := do
  assertGrantable actorPerms input.permissions
  match uniqueKey t db actor.tenantId input.name with
  | none => .error (.uniqueViolation "roles")
  | some roleKey =>
      if actor.tenantId ∉ db.tenants.map TenantRow.id then
        .error (.foreignKeyViolation "tenant_id")
      else
        match db.roles.insert? (input.row actor.tenantId id roleKey) with
        | none => .error (.uniqueViolation "roles")
        | some roles =>
            pure { db with
              roles
              auditLogs := db.auditLogs ++ [auditEntry actor "role.create" id
                [("name", .str input.name), ("permissions", permissionsJson input.permissions)]] }

/-- A field that is left out keeps its column; `some none` is an explicit `null`. -/
structure UpdateRoleInput where
  name : Option String
  description : Option (Option String)
  color : Option (Option String)
  permissions : Option (List String)

def UpdateRoleInput.apply (input : UpdateRoleInput) (r : TenantRoleRow) : TenantRoleRow :=
  { r with
    name := if r.isSystem then r.name else input.name.getD r.name
    description := input.description.getD r.description
    color := input.color.getD r.color
    permissions := input.permissions.getD r.permissions }

theorem UpdateRoleInput.keepsIndexes (input : UpdateRoleInput) : KeepsIndexes input.apply where
  key_eq _ := rfl
  clash_left _ _ h := h
  clash_right _ _ h := h

/-- `findFirst` by identifier and tenant -/
def findRole (db : RbacDb) (tenantId roleId : Uuid) : Option TenantRoleRow :=
  (db.roles.find? roleId).filter fun r => r.tenantId == tenantId

def updateRole (db : RbacDb) (actor : ActorContext) (roleId : Uuid) (input : UpdateRoleInput)
    (actorPerms : List String) : Except RbacError RbacDb := do
  assertGrantable actorPerms (input.permissions.getD [])
  match findRole db actor.tenantId roleId with
  | none => .error (.notFound "role not found")
  | some r =>
      if r.isSystem ∧ r.roleKey = "owner" then
        .error (.badRequest "owner role cannot be changed")
      else
        pure { db with
          roles := db.roles.updateKey roleId input.apply input.keepsIndexes
          auditLogs := db.auditLogs ++ [auditEntry actor "role.update" roleId
            [("name", .str (input.apply r).name),
              ("permissions", permissionsJson (input.apply r).permissions)]] }

/-- `ON DELETE SET NULL` -/
def clearRoleId (m : MembershipRow) : MembershipRow := { m with roleId := none }

theorem keepsIndexes_clearRoleId : KeepsIndexes clearRoleId where
  key_eq _ := rfl
  clash_left _ _ h := h
  clash_right _ _ h := h

def deleteRole (db : RbacDb) (actor : ActorContext) (roleId : Uuid) : Except RbacError RbacDb :=
  match findRole db actor.tenantId roleId with
  | none => .error (.notFound "role not found")
  | some r =>
      if r.isSystem then .error (.badRequest "system role cannot be deleted")
      else if db.tree.memberships.rows.any fun m => m.roleId == some roleId then
        .error (.conflict "members are assigned to this role; move them to another role first")
      else
        .ok { db.setMemberships (db.tree.memberships.updateWhere (fun m => m.roleId == some roleId)
                clearRoleId keepsIndexes_clearRoleId) with
              roles := db.roles.filter fun r => r.id != roleId
              auditLogs := db.auditLogs ++ [auditEntry actor "role.delete" roleId []] }

/-! ## Assigning roles -/

/-- The tiers that the schema of the request admits. -/
inductive AssignableTier | tenantAdmin | tenantStaff | member
  deriving DecidableEq

def AssignableTier.role : AssignableTier → Role
  | .tenantAdmin => .tenantAdmin
  | .tenantStaff => .tenantStaff
  | .member => .member

structure AssignRoleInput where
  tier : Option AssignableTier
  roleId : Option (Option Uuid)

def roleOfOtherBusiness : RbacError := .badRequest "role does not belong to this business"

def effectiveAssignmentPermissions (db : RbacDb) (tenantId : Uuid) (tier : Role)
    (roleId : Option (Option Uuid)) (existing : Option (List String)) :
    Except RbacError (List String) :=
  if tier = .member then .ok []
  else
    match roleId with
    | none => .ok (defaultPermissionsForTier tier ++ existing.getD []).eraseDups
    | some none => .ok (defaultPermissionsForTier tier ++ []).eraseDups
    | some (some id) =>
        match findRole db tenantId id with
        | none => .error roleOfOtherBusiness
        | some r => .ok (defaultPermissionsForTier tier ++ r.permissions).eraseDups

/-- What the update assigns to `role_id`. -/
def nextRoleId (db : RbacDb) (tenantId : Uuid) (nextTier : Role) (input : AssignRoleInput) :
    Option (Option Uuid) :=
  if nextTier = .member then some none
  else if input.tier.isSome ∧ input.roleId = none then
    match tierToSystemRole nextTier with
    | some roleKey => some ((roleByKey db tenantId roleKey).map TenantRoleRow.id)
    | none => none
  else input.roleId

def assertRequestedRole (db : RbacDb) (tenantId : Uuid) (actorPerms : List String)
    (roleId : Option (Option Uuid)) : Except RbacError Unit :=
  match roleId.join with
  | none => .ok ()
  | some id =>
      match findRole db tenantId id with
      | none => .error roleOfOtherBusiness
      | some r => assertGrantable actorPerms r.permissions

/-- Only an actor with all permissions makes another one an administrator. -/
def assertCanonicalTierDelegable (actorPerms : List String) (tier : Option AssignableTier) :
    Except RbacError Unit :=
  if tier = some .tenantAdmin then assertGrantable actorPerms ALL_PERMISSIONS else .ok ()

def assertAssignment (db : RbacDb) (actor : ActorContext) (m : MembershipRow)
    (input : AssignRoleInput) (actorPerms : List String) : Except RbacError Unit := do
  assertGrantable actorPerms
    ((input.tier.map fun tier => defaultPermissionsForTier tier.role).getD [])
  assertRequestedRole db actor.tenantId actorPerms input.roleId
  assertCanonicalTierDelegable actorPerms input.tier
  if input.tier.isSome ∨ input.roleId.isSome then
    let nextTier := (input.tier.map AssignableTier.role).getD m.role
    let effective ← effectiveAssignmentPermissions db actor.tenantId nextTier
      (nextRoleId db actor.tenantId nextTier input) (roleRefPermissions db m)
    assertGrantable actorPerms effective
  else .ok ()

def assignRole (db : RbacDb) (actor : ActorContext) (membershipId : Uuid) (input : AssignRoleInput)
    (actorPerms : List String) (actorMembershipId : Option Uuid) : Except RbacError RbacDb := do
  if actorMembershipId = some membershipId then
    .error (.forbidden "you cannot change your own role from this screen")
  else
    match (db.tree.memberships.find? membershipId).filter fun m =>
        m.tenantId == actor.tenantId with
    | none => .error (.notFound "membership not found")
    | some m =>
        if m.role = .tenantOwner then
          .error (.badRequest "owner membership role cannot be changed from this screen")
        else
          assertAssignment db actor m input actorPerms
          let nextTier := (input.tier.map AssignableTier.role).getD m.role
          let update : MembershipUpdate :=
            ⟨input.tier.map AssignableTier.role, nextRoleId db actor.tenantId nextTier input,
              none, none, none, none⟩
          pure { db.setMemberships (db.tree.memberships.updateKey membershipId update.apply
                    update.keepsIndexes) with
                 auditLogs := db.auditLogs ++
                    [auditEntry actor "membership.assign_role" membershipId
                      [("tier", .str (roleText (update.apply m).role)),
                        ("roleId", roleIdJson (update.apply m).roleId)]] }

/-! ## The administration of members -/

def RbacDb.withMembers (db : RbacDb) (m : MembersDb) : RbacDb :=
  { db.setMemberships m.memberships with apiKeys := m.apiKeys, auditLogs := m.auditLogs }

def setRole (db : RbacDb) (actor : ActorContext) (membershipId : String) (role : Role)
    (actorMembershipId : Option Uuid) (now : Instant) : Except RbacError RbacDb :=
  if role ∉ ASSIGNABLE_ROLES then
    .error (.members (.badRequest "bu rol bu uctan atanamaz"))
  else
    (do
      let authority ← resolveRoleChangeAuthority db.members actor actorMembershipId
      let assignment := tierRoleAssignmentFor db.members actor.tenantId role
      let members ← Memberships.setRole db.members actor membershipId role authority assignment now
      pure (db.withMembers members)).mapError .members

/-- A bulk run; its refusals are listed and what succeeded stays. -/
def bulk (db : RbacDb) (actor : ActorContext) (input : BulkInput)
    (actorMembershipId : Option Uuid) (now : Instant) : Except RbacError RbacDb :=
  ((executeBulk db.members actor input actorMembershipId now).map fun run =>
    db.withMembers run.db).mapError .members

/-- `userId` is the account of the e-mail address, found or created. -/
structure CreateManualInput where
  userId : Uuid
  sponsorReferralCode : Option String
  sponsorMembershipId : Option Uuid
  role : Option Role
  asLeader : Bool

def CreateManualInput.grantedRole (input : CreateManualInput) : Role :=
  match input.role with
  | some role => if role ∈ ASSIGNABLE_ROLES then role else .member
  | none => .member

/-- A new root leader has no sponsor. -/
def CreateManualInput.asRoot (input : CreateManualInput) : Bool :=
  input.asLeader && input.sponsorMembershipId.isNone && input.sponsorReferralCode.isNone

def resolveActorSponsor (db : RbacDb) (tenantId : Uuid) (actorMembershipId : Option Uuid) :
    Except RbacError Uuid :=
  match actorMembershipId with
  | some id => .ok id
  | none =>
      match db.tree.memberships.rows.find? fun m =>
          m.tenantId == tenantId && m.role == .tenantOwner with
      | some owner => .ok owner.id
      | none => .error (.badRequest "uye davet icin sponsor gerekli")

/-- Whether the request names this membership as the sponsor. -/
def CreateManualInput.namesSponsor (input : CreateManualInput) (m : MembershipRow) : Bool :=
  match input.sponsorMembershipId with
  | some id => m.id == id
  | none => input.sponsorReferralCode == some m.referralCode

def requestedSponsor (db : RbacDb) (tenantId : Uuid) (input : CreateManualInput)
    (sponsorId : Uuid) : Except RbacError Uuid :=
  if input.sponsorMembershipId.isSome ∨ input.sponsorReferralCode.isSome then
    match db.tree.memberships.rows.find? fun m =>
        m.tenantId == tenantId && input.namesSponsor m with
    | none => .error (.notFound "sponsor uyeligi bu isletmede bulunamadi")
    | some m =>
        if m.status = .active then .ok m.id else .error (.badRequest "sponsor aktif degil")
  else .ok sponsorId

def findSponsor (db : RbacDb) (tenantId : Uuid) (actorMembershipId : Option Uuid)
    (input : CreateManualInput) : Except RbacError (Option Sponsor) := do
  if input.asRoot then pure none
  else
    let actorSponsorId ← resolveActorSponsor db tenantId actorMembershipId
    let sponsorId ← requestedSponsor db tenantId input actorSponsorId
    match db.tree.memberships.find? sponsorId with
    | none => .error (.notFound "Membership")
    | some m => pure (some m.sponsor)

def placeMember (tenantId userId : Uuid) (role : Role) : Option Sponsor → TreeTx MembershipRow
  | none => createRoot ⟨tenantId, userId, some role, some true⟩
  | some sponsor => createUnder ⟨tenantId, userId, sponsor, some role⟩

def createManualInTx (tenantId : Uuid) (input : CreateManualInput) (sponsor : Option Sponsor)
    (assignment : TierRoleAssignment) : TreeTx PUnit := do
  let s ← get
  require (∀ m ∈ s.db.memberships, ¬(m.tenantId = tenantId ∧ m.userId = input.userId))
    (.conflict "bu e-postali kullanici zaten bu isletmede uye")
  let created ← placeMember tenantId input.userId input.grantedRole sponsor
  if created.roleId = assignment.roleId then pure ⟨⟩
  else updateMembership created.id ⟨none, some assignment.roleId, none, none, none, none⟩

/-- What a creation may grant, checked for every role but the one without permissions. -/
def assertManualRole (db : RbacDb) (actor : ActorContext) (actorMembershipId : Option Uuid)
    (role : Role) (assignment : TierRoleAssignment) : Except MembersError Unit :=
  if role = .member then .ok ()
  else do
    let authority ← resolveRoleChangeAuthority db.members actor actorMembershipId
    assertRoleGrantable authority assignment.permissions

/-- The tables after a transaction that commits. -/
def RbacDb.inTree {α : Type} (db : RbacDb) (draws : Draws) (m : TreeTx α) :
    Except RbacError RbacDb :=
  match m.run ⟨db.tree, draws⟩ with
  | .ok (_, s) => .ok { db with tree := s.db }
  | .error e => .error (.membership e)

def createManual (db : RbacDb) (actor : ActorContext) (actorMembershipId : Option Uuid)
    (input : CreateManualInput) (draws : Draws) : Except RbacError RbacDb := do
  match db.tenants.find? fun t => t.id == actor.tenantId with
  | none => .error (.notFound "Tenant")
  | some tenant =>
      if tenant.status ≠ .active then .error (.badRequest "isletme aktif degil")
      else
        let assignment := tierRoleAssignmentFor db.members actor.tenantId input.grantedRole
        (assertManualRole db actor actorMembershipId input.grantedRole assignment).mapError .members
        let sponsor ← findSponsor db actor.tenantId actorMembershipId input
        db.inTree draws (createManualInTx actor.tenantId input sponsor assignment)

/-! ## The system -/

inductive RbacStep
  | createRole (actor : ActorContext) (input : CreateRoleInput) (actorPerms : List String)
      (id : Uuid)
  | updateRole (actor : ActorContext) (roleId : Uuid) (input : UpdateRoleInput)
      (actorPerms : List String)
  | deleteRole (actor : ActorContext) (roleId : Uuid)
  | assignRole (actor : ActorContext) (membershipId : Uuid) (input : AssignRoleInput)
      (actorPerms : List String) (actorMembershipId : Option Uuid)
  | setRole (actor : ActorContext) (membershipId : String) (role : Role)
      (actorMembershipId : Option Uuid) (now : Instant)
  | bulk (actor : ActorContext) (input : BulkInput) (actorMembershipId : Option Uuid)
      (now : Instant)
  | createManual (actor : ActorContext) (actorMembershipId : Option Uuid)
      (input : CreateManualInput) (draws : Draws)
  /-- an invite is accepted -/
  | join (tenantId userId : Uuid) (sponsor : Sponsor) (inviteId : Uuid)
      (consent : Auth.InviteConsentSnapshot) (draws : Draws)
  /-- the server starts -/
  | start (draws : StartDraws)

def RbacStep.perform (t : CaseTable) (db : RbacDb) : RbacStep → Except RbacError RbacDb
  | .createRole actor input actorPerms id => Rbac.createRole t db actor input actorPerms id
  | .updateRole actor roleId input actorPerms => Rbac.updateRole db actor roleId input actorPerms
  | .deleteRole actor roleId => Rbac.deleteRole db actor roleId
  | .assignRole actor membershipId input actorPerms actorMembershipId =>
      Rbac.assignRole db actor membershipId input actorPerms actorMembershipId
  | .setRole actor membershipId role actorMembershipId now =>
      Rbac.setRole db actor membershipId role actorMembershipId now
  | .bulk actor input actorMembershipId now => Rbac.bulk db actor input actorMembershipId now
  | .createManual actor actorMembershipId input draws =>
      Rbac.createManual db actor actorMembershipId input draws
  | .join tenantId userId sponsor inviteId consent draws =>
      db.inTree draws (createUnderWithInviteConsent ⟨tenantId, userId, sponsor, none⟩ inviteId
        consent)
  | .start draws => .ok (onModuleInit draws db)

/-- What is refused changes nothing. -/
def RbacStep.apply (t : CaseTable) (step : RbacStep) (db : RbacDb) : RbacDb :=
  match step.perform t db with
  | .ok db' => db'
  | .error _ => db

end Refearn.Rbac
