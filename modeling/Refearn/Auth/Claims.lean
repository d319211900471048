import Refearn.Auth.Store
/-!
# Access tokens

The claims of an access token, how `signAccess` derives them from a user and a
membership, and the permissions of a tier that has no custom role. A signed token
stands for its claims.
-/

namespace Refearn.Auth

open Support

/-! ## Permissions -/

/-- The keys of `PERMISSION_GROUPS`, in order. -/
def ALL_PERMISSIONS : List String :=
  ["dashboard.view", "sales.view", "sales.create", "sales.approve", "sales.void", "sales.import",
    "sales.export", "members.view", "members.manage", "members.suspend", "network.view",
    "network.financials.view", "invites.create", "invites.revoke", "payouts.view",
    "payouts.process", "payouts.export", "compliance.view", "compliance.review", "reports.view",
    "reports.export", "audit.view", "settings.view", "settings.general", "settings.plan",
    "settings.branding", "settings.payments", "settings.roles", "settings.security",
    "settings.notifications", "settings.data"]

def allExcept (omitted : String) : List String := ALL_PERMISSIONS.filter (· != omitted)

/-- The permissions of the system role `support`. -/
def supportPermissions : List String :=
  ["dashboard.view", "sales.view", "sales.create", "members.view", "members.manage",
    "network.view", "invites.create", "invites.revoke", "reports.view"]

def defaultPermissionsForTier : Role → List String
  | .platformAdmin | .tenantOwner => ALL_PERMISSIONS
  | .tenantAdmin => allExcept "settings.data"
  | .tenantStaff => supportPermissions
  | .member => []

/-- The tiers whose custom role, where there is one, decides the permissions. -/
def roleRefControls : Role → Bool
  | .tenantAdmin | .tenantStaff => true
  | _ => false

/-! ## Claims -/

structure AccessTokenPayload where
  sub : Uuid
  mid : Option Uuid
  tid : Option Uuid
  role : Option Role
  perms : Option (List String) := none
  mver : Option Instant := none
  rver : Option Instant := none
  authGeneration : Option Nat := none
  mfa : Option Bool := none
  mfaAt : Option Instant := none
  mfaEpoch : Option Instant := none
  plat : Option Bool := none
  sid : Option Uuid := none
  imp : Option Uuid := none

/-- `Number.MAX_SAFE_INTEGER` -/
def MAX_SAFE_INTEGER : Nat := 2 ^ 53 - 1

/-- `hasCurrentAuthGeneration`, which the service and the guard each define. -/
def hasCurrentAuthGeneration (payload : AccessTokenPayload) (authGeneration : Nat) : Bool :=
  payload.authGeneration.any fun g =>
    decide (g ≤ MAX_SAFE_INTEGER) && decide (0 < g) && g == authGeneration

theorem hasCurrentAuthGeneration_eq_true {payload : AccessTokenPayload} {authGeneration : Nat}
    (h : hasCurrentAuthGeneration payload authGeneration = true) :
    payload.authGeneration = some authGeneration := by
  unfold hasCurrentAuthGeneration at h
  rw [Option.any_eq_true] at h
  obtain ⟨g, hg, hcurrent⟩ := h
  simp only [Bool.and_eq_true, beq_iff_eq] at hcurrent
  rw [hg, hcurrent.2]

/-! ## Signing -/

/-- An active membership with its tenant and its custom role. -/
structure ActiveMembership where
  membership : Membership
  tenant : Tenant
  roleRef : Option TenantRole

structure MfaAssurance where
  mfaAt : Instant
  mfaEpoch : Instant
  deriving DecidableEq

def mfaAssuranceForUser (user : User) (mfaVerifiedAt : Option Instant) : Option MfaAssurance :=
  match user.totpEnabledAt, mfaVerifiedAt with
  | some epoch, some verifiedAt => if verifiedAt < epoch then none else some ⟨verifiedAt, epoch⟩
  | _, _ => none

/-- The custom role of a tier that it controls. -/
def ActiveMembership.controllingRole (m : ActiveMembership) : Option TenantRole :=
  if roleRefControls m.membership.role then m.roleRef else none

/-- `perms` are left out for owners and platform administrators. -/
def signedPermissions (m : ActiveMembership) : Option (List String) :=
  match m.membership.role with
  | .tenantOwner | .platformAdmin => none
  | tier => some ((m.controllingRole.map TenantRole.permissions).getD (defaultPermissionsForTier tier))

def signAccess (user : User) (membership : Option ActiveMembership)
    (mfaAssurance : Option MfaAssurance) (familyId : Option Uuid) : AccessTokenPayload where
  sub := user.id
  mid := membership.map fun m => m.membership.id
  tid := membership.map fun m => m.tenant.id
  role := membership.map fun m => m.membership.role
  authGeneration := some user.authGeneration
  mver := membership.map fun m => m.membership.updatedAt
  rver := (membership.bind ActiveMembership.controllingRole).map TenantRole.updatedAt
  mfa := mfaAssurance.map fun _ => true
  mfaAt := mfaAssurance.map MfaAssurance.mfaAt
  mfaEpoch := mfaAssurance.map MfaAssurance.mfaEpoch
  sid := familyId
  plat := if user.isPlatformAdmin then some true else none
  perms := membership.bind signedPermissions

/-! ## Sessions handed out -/

structure MembershipSummary where
  id : Uuid
  tenantId : Uuid
  tenantSlug : String
  tenantName : String
  role : Role
  referralCode : String
  depth : Int

structure AuthSessionUser where
  id : Uuid
  email : String
  fullName : String
  locale : String
  emailVerified : Bool
  isPlatformAdmin : Bool

structure AuthSession where
  accessToken : AccessTokenPayload
  refreshToken : String
  user : AuthSessionUser
  activeMembershipId : Option Uuid
  memberships : List MembershipSummary

/-- `expiresAt` is an ISO text in the response. -/
structure LoginMfaChallenge where
  challengeToken : String
  expiresAt : Instant
  deriving DecidableEq

end Refearn.Auth
