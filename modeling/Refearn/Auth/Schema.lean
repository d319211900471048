import Refearn.Schema
/-!
# The tables behind accounts, sessions and invites

The columns of `prisma/schema.prisma` that the auth, account, invite and membership
services read or write, with their unique indexes. A table that these services only
read is part of `Directory`.
-/

namespace Refearn.Auth

open Support

/-! ## Enumerations -/

inductive Role | platformAdmin | tenantOwner | tenantAdmin | tenantStaff | member
  deriving DecidableEq

inductive TenantStatus | active | suspended
  deriving DecidableEq

inductive InviteStatus | active | used | expired | revoked
  deriving DecidableEq

inductive UserTokenPurpose | emailVerify | passwordReset | loginOtp
  deriving DecidableEq

inductive NotificationChannel | push | email
  deriving DecidableEq

/-! ## Tables that are only read -/

structure Tenant where
  id : Uuid
  slug : String
  name : String
  notifyNewMemberName : Bool
  status : TenantStatus

structure TenantRole where
  id : Uuid
  permissions : List String
  updatedAt : Instant
  deriving DecidableEq

structure CommissionPlan where
  id : Uuid
  tenantId : Uuid
  name : String
  poolRateBps : Int
  depth : Nat
  effectiveFrom : Instant
  createdAt : Instant

structure ApiKey where
  id : Uuid
  tenantId : Uuid
  membershipId : Uuid
  createdByUserId : Uuid
  role : Role
  keyHash : String
  expiresAt : Option Instant
  revokedAt : Option Instant

instance : Keyed Tenant Uuid := { key := Tenant.id }
instance : Keyed TenantRole Uuid := { key := TenantRole.id }
instance : Keyed CommissionPlan Uuid := { key := CommissionPlan.id }

instance : Keyed ApiKey Uuid where
  key := ApiKey.id
  clash k k' := k.keyHash == k'.keyHash

structure Directory where
  tenants : Table Tenant
  roles : Table TenantRole
  plans : Table CommissionPlan
  apiKeys : Table ApiKey

/-! ## Tables that are written -/

/-- `mfaRecoveryCodes` holds null or an array of hashes; nothing else is ever written. -/
structure User where
  id : Uuid
  email : String
  passwordHash : String
  fullName : String
  locale : String
  emailVerifiedAt : Option Instant
  isPlatformAdmin : Bool
  totpSecret : Option String
  totpEnabledAt : Option Instant
  mfaRecoveryCodes : Option (List String)
  lastMembershipId : Option Uuid
  authGeneration : Nat

structure RefreshToken where
  id : Uuid
  userId : Uuid
  tokenHash : String
  familyId : Option Uuid
  expiresAt : Instant
  mfaVerifiedAt : Option Instant
  authGeneration : Option Nat
  revokedAt : Option Instant
  replacedById : Option Uuid
  ip : Option String
  userAgent : Option String
  deriving DecidableEq

structure UserToken where
  id : Uuid
  userId : Uuid
  purpose : UserTokenPurpose
  tokenHash : String
  expiresAt : Instant
  usedAt : Option Instant
  deriving DecidableEq

/-- `path` lists the labels of the `ltree` text, root first. -/
structure Membership where
  id : Uuid
  tenantId : Uuid
  userId : Uuid
  role : Role
  roleId : Option Uuid
  sponsorMembershipId : Option Uuid
  referralCode : String
  path : List Uuid
  depth : Int
  status : MembershipStatus
  isTeamLeader : Bool
  signupIp : Option String
  disclaimerAcceptedAt : Option Instant
  disclaimerVersion : Option String
  joinedAt : Instant
  updatedAt : Instant

structure Invite where
  id : Uuid
  tenantId : Uuid
  inviterMembershipId : Uuid
  code : String
  email : Option String
  expiresAt : Instant
  usedByMembershipId : Option Uuid
  idempotencyKeyHash : Option String
  status : InviteStatus
  createdAt : Instant

structure PendingInviteAcceptance where
  id : Uuid
  userId : Uuid
  inviteId : Uuid
  challengeTokenId : Uuid
  tenantId : Option Uuid
  disclaimerVersion : Option String
  disclaimerLocale : Option String
  disclaimerContentHash : Option String
  tenantDisplayName : Option String
  programSummary : Option String
  programSummaryHash : Option String
  consentAcceptedAt : Option Instant
  completedAt : Option Instant

structure InviteAcceptanceConsent where
  id : Uuid
  inviteId : Uuid
  tenantId : Uuid
  userId : Uuid
  membershipId : Uuid
  disclaimerVersion : String
  locale : String
  disclaimerContentHash : String
  tenantDisplayName : String
  programSummary : String
  programSummaryHash : String
  acceptedAt : Instant

structure Notification where
  tenantId : Option Uuid
  recipientMembershipId : Option Uuid
  recipientUserId : Option Uuid
  channel : NotificationChannel
  template : String
  payload : Json

structure AuditLog where
  tenantId : Uuid
  actorUserId : Uuid
  action : String
  entity : String
  entityId : Uuid
  after : Json

instance : Keyed User Uuid where
  key := User.id
  clash u u' := u.email == u'.email

instance : Keyed RefreshToken Uuid where
  key := RefreshToken.id
  clash r r' := r.tokenHash == r'.tokenHash

/-- `user_tokens_token_hash_key` and `user_tokens_one_live_per_purpose_uidx`. -/
instance : Keyed UserToken Uuid where
  key := UserToken.id
  clash t t' := t.tokenHash == t'.tokenHash ||
    (t.usedAt.isNone && t'.usedAt.isNone && t.userId == t'.userId && t.purpose == t'.purpose)

/-- `@@unique([tenantId, userId])` and `@@unique([tenantId, referralCode])`. -/
instance : Keyed Membership Uuid where
  key := Membership.id
  clash m m' := m.tenantId == m'.tenantId &&
    (m.userId == m'.userId || m.referralCode == m'.referralCode)

/-- Missing idempotency keys are all different. -/
instance : Keyed Invite Uuid where
  key := Invite.id
  clash i i' := i.code == i'.code ||
    (i.inviterMembershipId == i'.inviterMembershipId && i.idempotencyKeyHash.isSome &&
      i.idempotencyKeyHash == i'.idempotencyKeyHash)

instance : Keyed PendingInviteAcceptance Uuid where
  key := PendingInviteAcceptance.id
  clash p p' := p.challengeTokenId == p'.challengeTokenId

instance : Keyed InviteAcceptanceConsent Uuid where
  key := InviteAcceptanceConsent.id
  clash c c' := c.inviteId == c'.inviteId && c.userId == c'.userId

/-- One committed state of these tables. -/
structure AuthDb where
  directory : Directory
  users : Table User
  refreshTokens : Table RefreshToken
  userTokens : Table UserToken
  memberships : Table Membership
  invites : Table Invite
  pendingInviteAcceptances : Table PendingInviteAcceptance
  inviteAcceptanceConsents : Table InviteAcceptanceConsent
  notifications : List Notification
  auditLogs : List AuditLog

end Refearn.Auth
