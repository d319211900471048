import Refearn.Auth.Sessions
/-!
# The guard

`AccessTokenGuard.canActivate` of `auth/auth.guard.ts`: what a request has to show, and
which of the claims it shows are replaced by what the database holds. A token stands for
the claims that `verifyAsync` reads from it.
-/

namespace Refearn.Auth

open Support

/-! ## Tokens without a refresh session -/

/-- `actAsTenant`: a platform administrator takes the place of a tenant's owner. -/
def actAsPayload (user : User) (tenant : Tenant) : AccessTokenPayload where
  sub := user.id
  mid := none
  tid := some tenant.id
  role := some .tenantOwner
  plat := some true
  authGeneration := some user.authGeneration

def actAsTenant (db : AuthDb) (userId tenantId : Uuid) : Except AuthError AccessTokenPayload :=
  match (db.users.find? userId).filter User.isPlatformAdmin with
  | none => .error (.forbidden "platform yetkisi gerekli")
  | some user =>
      match (db.directory.tenants.find? tenantId).filter (·.status == .active) with
      | none => .error (.notFound "sirket bulunamadi veya aktif degil")
      | some tenant => .ok (actAsPayload user tenant)

/-- The claims of `impersonate`: a member as an administrator sees them. -/
def impersonationPayload (user : User) (m : Membership) (tenantId actorUserId : Uuid) :
    AccessTokenPayload where
  sub := user.id
  mid := some m.id
  tid := some tenantId
  role := some m.role
  imp := some actorUserId
  authGeneration := some user.authGeneration

/-! ## Requests -/

/-- The metadata of a route; `roles` and `permissions` are empty where none is set. -/
structure RouteMetadata where
  isPublic : Bool := false
  requireMembership : Bool := false
  roles : List Role := []
  platformOnly : Bool := false
  permissions : List String := []
  mfaExempt : Bool := false
  accountSessionOnly : Bool := false

/-- What a request shows: an API key, a verified token, or nothing that holds. -/
inductive Credential
  | apiKey (key : String)
  | bearer (payload : AccessTokenPayload)
  | none

/-- The claims that the guard goes on with, and the user row of a token. -/
structure Principal where
  payload : AccessTokenPayload
  dbUser : Option User

def Principal.fromApiKey (p : Principal) : Bool := p.dbUser.isNone

def invalidApiKey : AuthError := .unauthorized "gecersiz api anahtari"

def tenantActive (db : AuthDb) (tenantId : Uuid) : Bool :=
  (db.directory.tenants.find? tenantId).any fun tenant => tenant.status == .active

/-- An active membership in an active tenant. -/
def membershipLive (db : AuthDb) (m : Membership) : Bool :=
  m.status == .active && tenantActive db m.tenantId

def ApiKey.isUsableAt (k : ApiKey) (now : Instant) : Bool :=
  k.revokedAt.isNone && !k.expiresAt.any fun expiresAt => decide (expiresAt ≤ now)

/-- A key acts for the membership it was made for, in that membership's present role. -/
def authenticateApiKey (env : AuthEnv) (db : AuthDb) (key : String) (now : Instant) :
    Except AuthError AccessTokenPayload :=
  match db.directory.apiKeys.rows.find? fun k => k.keyHash == env.sha256 key with
  | none => .error invalidApiKey
  | some k =>
      match (db.memberships.find? k.membershipId).filter (membershipLive db) with
      | none => .error invalidApiKey
      | some m =>
          if k.isUsableAt now then
            .ok { sub := k.createdByUserId, mid := some k.membershipId, tid := some k.tenantId,
                  role := some m.role }
          else .error invalidApiKey

def authenticate (env : AuthEnv) (db : AuthDb) (credential : Credential) (now : Instant) :
    Except AuthError Principal :=
  match credential with
  | .apiKey key => (authenticateApiKey env db key now).map fun payload => ⟨payload, .none⟩
  | .none => .error (.unauthorized "erisim tokeni gerekli")
  | .bearer payload =>
      match db.users.find? payload.sub with
      | .none => .error (.unauthorized "session is no longer active")
      | some user =>
          if hasCurrentAuthGeneration payload user.authGeneration then .ok ⟨payload, user⟩
          else .error (.unauthorized "session is no longer active")

/-! ## Rewriting the claims -/

/-- An account route trusts no selected tenant. -/
def withoutContext (payload : AccessTokenPayload) : AccessTokenPayload :=
  { payload with
    mid := none, tid := none, role := none, perms := none, mver := none, rver := none,
    plat := none }

def Principal.isPlatformAdmin (p : Principal) : Bool := p.dbUser.any User.isPlatformAdmin

/-- A platform claim without its grant is dropped. -/
def dropRevokedGrant (p : Principal) (payload : AccessTokenPayload) : AccessTokenPayload :=
  if payload.plat = some true ∧ p.isPlatformAdmin = false then { payload with plat := none }
  else payload

/-- The claims after the two rewrites that every request goes through. -/
def trimmedPayload (p : Principal) (accountSessionOnly : Bool) : AccessTokenPayload :=
  dropRevokedGrant p (if accountSessionOnly then withoutContext p.payload else p.payload)

/-- The membership is read for every request that changes something. -/
def refreshRole (db : AuthDb) (payload : AccessTokenPayload) (mid : Uuid) :
    Except AuthError AccessTokenPayload :=
  match (db.memberships.find? mid).filter (membershipLive db) with
  | none => .error (.forbidden "uyelik veya kiraci artik aktif degil")
  | some m => .ok { payload with role := some m.role }

/-- The grant and the tenant of an act-as token are read for every request that changes
something. -/
def checkActAs (db : AuthDb) (p : Principal) (tid : Uuid) : Except AuthError Unit :=
  if tenantActive db tid ∧ p.isPlatformAdmin = true then .ok ⟨⟩
  else .error (.forbidden "act-as: tenant askida veya platform yetkisi yok")

/-- The two live checks of requests other than `GET`. -/
def checkWrite (db : AuthDb) (p : Principal) (payload : AccessTokenPayload) :
    Except AuthError AccessTokenPayload :=
  match payload.mid with
  | some mid => refreshRole db payload mid
  | none =>
      match payload.tid with
      | some tid =>
          if payload.plat = some true then (checkActAs db p tid).map fun _ => payload
          else .ok payload
      | none => .ok payload

def liveRoleRef (db : AuthDb) (m : Membership) : Option TenantRole :=
  if roleRefControls m.role then m.roleId.bind fun id => db.directory.roles.find? id else none

/-- What the database grants a membership. -/
def livePermissions (db : AuthDb) (m : Membership) : List String :=
  ((liveRoleRef db m).map TenantRole.permissions).getD (defaultPermissionsForTier m.role)

/-- The role and the permissions of a membership are read for every request. -/
def rehydrate (db : AuthDb) (payload : AccessTokenPayload) (mid : Uuid) :
    Except AuthError AccessTokenPayload :=
  let found := (db.memberships.find? mid).filter fun m =>
    m.userId == payload.sub && payload.tid.all fun tid => m.tenantId == tid
  match found.filter (membershipLive db) with
  | none => .error (.forbidden "active membership not found")
  | some m =>
      .ok { payload with
            role := some m.role
            perms := some (livePermissions db m)
            mver := some m.updatedAt
            rver := (liveRoleRef db m).map TenantRole.updatedAt }

def rehydrateMembership (db : AuthDb) (payload : AccessTokenPayload) :
    Except AuthError AccessTokenPayload :=
  match payload.mid with
  | some mid => rehydrate db payload mid
  | none => .ok payload

/-! ## Second factors -/

def Principal.mfaEpoch (p : Principal) : Option Instant := p.dbUser.bind User.totpEnabledAt

def hasCurrentMfaAssurance (payload : AccessTokenPayload) (mfaEpoch : Option Instant) : Bool :=
  match mfaEpoch, payload.mfaAt, payload.mfaEpoch with
  | some epoch, some verifiedAt, some claimed =>
      payload.mfa == some true && decide (claimed ≤ verifiedAt) && claimed == epoch
  | _, _, _ => false

/-- A proof of the second factor that no longer counts is dropped. -/
def dropStaleMfa (p : Principal) (payload : AccessTokenPayload) : AccessTokenPayload :=
  if hasCurrentMfaAssurance payload p.mfaEpoch then payload
  else { payload with mfa := none, mfaAt := none, mfaEpoch := none }

/-- `required` is `mfaRequiredRoles()`. -/
def enforceMfa (required : List Role) (p : Principal) (payload : AccessTokenPayload) :
    Except AuthError Unit :=
  let roleRequiresMfa := payload.role.any fun role => decide (role ∈ required)
  let platformRequiresMfa := payload.plat == some true && decide (Role.platformAdmin ∈ required)
  if roleRequiresMfa || platformRequiresMfa then
    if p.mfaEpoch.isNone then .error (.forbidden "2FA required for this account")
    else if hasCurrentMfaAssurance payload p.mfaEpoch then .ok ⟨⟩
    else .error (.forbidden "2FA verification is required for this session")
  else .ok ⟨⟩

/-! ## Decisions -/

def refuseUnless (c : Prop) [Decidable c] (message : String) : Except AuthError Unit :=
  if c then .ok ⟨⟩ else .error (.forbidden message)

def godTier (role : Role) : Bool := role == .platformAdmin || role == .tenantOwner

def hasPermissions (payload : AccessTokenPayload) (permissions : List String) : Bool :=
  payload.role.any godTier ||
    permissions.all fun permission => payload.perms.any fun perms => decide (permission ∈ perms)

def checkRoles (route : RouteMetadata) (payload : AccessTokenPayload) : Except AuthError Unit :=
  refuseUnless (route.roles = [] ∨ ∃ role ∈ payload.role, role ∈ route.roles)
    "you do not have permission for this action"

def checkPlatform (route : RouteMetadata) (p : Principal) (payload : AccessTokenPayload) :
    Except AuthError Unit :=
  refuseUnless (route.platformOnly = false ∨
      (payload.plat = some true ∧ p.isPlatformAdmin = true))
    "platform permission required"

def checkPermissions (route : RouteMetadata) (payload : AccessTokenPayload) :
    Except AuthError Unit :=
  refuseUnless (route.permissions = [] ∨ hasPermissions payload route.permissions = true)
    "you do not have permission for this action"

/-- The live checks are for requests that change something under a token. -/
def checkLive (db : AuthDb) (isGet : Bool) (p : Principal) (payload : AccessTokenPayload) :
    Except AuthError AccessTokenPayload :=
  if isGet = true ∨ p.fromApiKey = true then .ok payload else checkWrite db p payload

/-- API keys carry no second factor. -/
def checkMfa (required : List Role) (route : RouteMetadata) (p : Principal)
    (payload : AccessTokenPayload) : Except AuthError Unit :=
  if route.mfaExempt = true ∨ p.fromApiKey = true then .ok () else enforceMfa required p payload

/-- The claims with which a request to a route that is not public is admitted. -/
def admitRequest (env : AuthEnv) (required : List Role) (db : AuthDb) (route : RouteMetadata)
    (isGet : Bool) (credential : Credential) (now : Instant) :
    Except AuthError AccessTokenPayload := do
  let p ← authenticate env db credential now
  let payload := trimmedPayload p route.accountSessionOnly
  refuseUnless (payload.imp = none ∨ isGet = true) "impersonation oturumu salt-okunurdur"
  let payload ← checkLive db isGet p payload
  refuseUnless (route.requireMembership = false ∨ payload.mid.isSome ∨
      (payload.plat = some true ∧ payload.tid.isSome))
    "aktif uyelik secimi gerekli (switch-tenant)"
  let payload ← rehydrateMembership db payload
  checkRoles route payload
  checkPlatform route p payload
  let payload := dropStaleMfa p payload
  checkMfa required route p payload
  checkPermissions route payload
  pure payload

/-- `none` stands for the admission to a public route, which asks for nothing. -/
def canActivate (env : AuthEnv) (required : List Role) (db : AuthDb) (route : RouteMetadata)
    (isGet : Bool) (credential : Credential) (now : Instant) :
    Except AuthError (Option AccessTokenPayload) :=
  if route.isPublic then .ok none
  else (admitRequest env required db route isGet credential now).map some

end Refearn.Auth
