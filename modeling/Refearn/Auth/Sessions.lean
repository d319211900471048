import Refearn.Auth.Claims
import Mathlib.Data.List.Sort
/-!
# Sessions

Issuing, rotating and revoking refresh tokens (`auth/auth.service.ts`). What a call
reads before it locks the user is an argument of its transaction: other transactions
may commit between that read and the lock.
-/

namespace Refearn.Auth

open Support Support.Transaction

/-! ## Configuration -/

/-- 30 days -/
def refreshTtlMs : Int := 30 * 24 * 60 * 60 * 1000

structure RequestMeta where
  ip : Option String
  userAgent : Option String
  deriving DecidableEq

/-! ## Rewrites of a row -/

/-- A rewrite of a user that leaves the email alone. -/
theorem keepsIndexes_user {f : User → User} (hid : ∀ u, (f u).id = u.id)
    (hemail : ∀ u, (f u).email = u.email) : KeepsIndexes f where
  key_eq := hid
  clash_left u v h := by
    simpa only [clash, hemail] using h
  clash_right u v h := by
    simpa only [clash, hemail] using h

theorem keepsIndexes_refreshToken {f : RefreshToken → RefreshToken}
    (hid : ∀ r, (f r).id = r.id) (hhash : ∀ r, (f r).tokenHash = r.tokenHash) :
    KeepsIndexes f where
  key_eq := hid
  clash_left r s h := by
    simpa only [clash, hhash] using h
  clash_right r s h := by
    simpa only [clash, hhash] using h

def User.withLastMembership (membershipId : Uuid) (u : User) : User :=
  { u with lastMembershipId := some membershipId }

theorem keepsIndexes_withLastMembership (membershipId : Uuid) :
    KeepsIndexes (User.withLastMembership membershipId) :=
  keepsIndexes_user (fun _ => rfl) (fun _ => rfl)

def User.withNextGeneration (u : User) : User :=
  { u with authGeneration := u.authGeneration + 1 }

def RefreshToken.withRevocation (now : Instant) (r : RefreshToken) : RefreshToken :=
  { r with revokedAt := some now }

theorem keepsIndexes_withRevocation (now : Instant) :
    KeepsIndexes (RefreshToken.withRevocation now) :=
  keepsIndexes_refreshToken (fun _ => rfl) (fun _ => rfl)

def RefreshToken.withSuccessor (now : Instant) (successor : Uuid) (r : RefreshToken) :
    RefreshToken :=
  { r with revokedAt := some now, replacedById := some successor }

/-! ## Locks -/

/-- `SELECT … FOR UPDATE` of the user row. -/
def lockUserForAuth (userId : Uuid) : AuthTx PUnit := do
  let db ← readDb
  require ((db.users.find? userId).isSome) (.notFound "user not found")

/-! ## Issuing -/

/-- The relations that `include` adds to a membership. -/
def activeMembership? (db : AuthDb) (m : Membership) : Option ActiveMembership := do
  let tenant ← db.directory.tenants.find? m.tenantId
  if m.status = .active ∧ tenant.status = .active then
    some ⟨m, tenant, m.roleId.bind fun id => db.directory.roles.find? id⟩
  else none

/-- The active memberships of a user in active tenants, `orderBy: { joinedAt: 'asc' }`. -/
def activeMemberships (db : AuthDb) (userId : Uuid) : List ActiveMembership :=
  let own := db.memberships.rows.filter fun m => m.userId == userId
  (own.insertionSort fun m m' => m.joinedAt ≤ m'.joinedAt).filterMap (activeMembership? db)

/-- The remembered membership, where it is still active. -/
def selectedMembership (user : User) (list : List ActiveMembership) :
    Option ActiveMembership :=
  list.find? (fun m => user.lastMembershipId == some m.membership.id)

def MembershipSummary.of (m : ActiveMembership) : MembershipSummary where
  id := m.membership.id
  tenantId := m.tenant.id
  tenantSlug := m.tenant.slug
  tenantName := m.tenant.name
  role := m.membership.role
  referralCode := m.membership.referralCode
  depth := m.membership.depth

/-- The membership a session starts in, and its id where it is yet to be remembered. -/
def sessionMembership (user : User) (list : List ActiveMembership) :
    Option ActiveMembership × Option Uuid :=
  match selectedMembership user list, list with
  | some m, _ => (some m, none)
  | none, [only] => (some only, some only.membership.id)
  | none, _ => (none, none)

def rememberMembership (userId : Uuid) : Option Uuid → AuthTx PUnit
  | none => pure ⟨⟩
  | some membershipId =>
      update users userId (User.withLastMembership membershipId)
        (keepsIndexes_withLastMembership membershipId)

def buildSession (userId : Uuid) (refreshTokenRaw : String) (mfaVerifiedAt : Option Instant)
    (familyId : Uuid) : AuthTx AuthSession := do
  let user ← findUniqueOrThrow users userId
  let db ← readDb
  let list := activeMemberships db userId
  let (active, remembered) := sessionMembership user list
  rememberMembership userId remembered
  pure
    { accessToken :=
        signAccess user active (mfaAssuranceForUser user mfaVerifiedAt) (some familyId)
      refreshToken := refreshTokenRaw
      user :=
        ⟨user.id, user.email, user.fullName, user.locale, user.emailVerifiedAt.isSome,
          user.isPlatformAdmin⟩
      activeMembershipId := active.map fun m => m.membership.id
      memberships := list.map .of }

def issueSessionInTransaction (env : AuthEnv) (userId : Uuid) (reqMeta : RequestMeta)
    (mfaVerifiedAt : Option Instant) : AuthTx AuthSession := do
  lockUserForAuth userId
  let user ← findUniqueOrThrow users userId
  require (¬(user.totpEnabledAt.isSome ∧ mfaVerifiedAt.isNone))
    (.unauthorized "2FA verification is required for this session")
  let raw ← randomText
  let familyId ← genUuid
  let now ← newDate
  let _ ← create refreshTokens fun id =>
    { id
      userId
      tokenHash := env.sha256 raw
      familyId := some familyId
      expiresAt := now + refreshTtlMs
      mfaVerifiedAt
      authGeneration := some user.authGeneration
      revokedAt := none
      replacedById := none
      ip := reqMeta.ip
      userAgent := reqMeta.userAgent }
  buildSession userId raw mfaVerifiedAt familyId

/-! ## Revoking -/

def isLiveOf (userId : Uuid) (r : RefreshToken) : Bool :=
  r.userId == userId && r.revokedAt.isNone

/-- Revoke every refresh token of the user, with the number of those revoked. -/
def revokeRefreshTokens (userId : Uuid) (now : Instant) : AuthTx Nat :=
  updateMany refreshTokens (isLiveOf userId) (RefreshToken.withRevocation now)
    (keepsIndexes_withRevocation now)

def advanceAuthGeneration (userId : Uuid) : AuthTx PUnit :=
  update users userId User.withNextGeneration (keepsIndexes_user (fun _ => rfl) (fun _ => rfl))

def advanceAuthGenerationAndRevokeSessions (userId : Uuid) (now : Instant) : AuthTx Nat := do
  lockUserForAuth userId
  advanceAuthGeneration userId
  revokeRefreshTokens userId now

/-- `listSessions` shows the ids that `revokeSession` takes. -/
def revokeSession (userId sessionId : Uuid) : AuthTx PUnit := do
  lockUserForAuth userId
  let db ← readDb
  let _ ← orThrow
    (db.refreshTokens.rows.find? fun r => r.id == sessionId && isLiveOf userId r)
    (.notFound "session not found")
  let now ← newDate
  let _ ← advanceAuthGenerationAndRevokeSessions userId now
  pure ⟨⟩

def revokeAllSessions (userId : Uuid) : AuthTx Nat := do
  let now ← newDate
  advanceAuthGenerationAndRevokeSessions userId now

/-! ## Refreshing -/

def findRefreshToken (env : AuthEnv) (db : AuthDb) (raw : String) : Option RefreshToken :=
  db.refreshTokens.rows.find? fun r => r.tokenHash == env.sha256 raw

inductive RefreshOutcome
  | invalid
  | reuse (userId : Uuid)
  | expired
  | session (session : AuthSession)

/-- The family of a token; a row from before families starts one. -/
def sessionFamily (token : RefreshToken) : AuthTx Uuid :=
  match token.familyId with
  | some familyId => pure familyId
  | none => genUuid

/-- Rotate a live token of the current generation into its successor. -/
def rotate (env : AuthEnv) (token : RefreshToken) (authGeneration : Nat)
    (reqMeta : RequestMeta) : AuthTx AuthSession := do
  let familyId ← sessionFamily token
  let newRaw ← randomText
  let now ← newDate
  let newToken ← create refreshTokens fun id =>
    { id
      userId := token.userId
      tokenHash := env.sha256 newRaw
      familyId := some familyId
      expiresAt := now + refreshTtlMs
      mfaVerifiedAt := token.mfaVerifiedAt
      authGeneration := some authGeneration
      revokedAt := none
      replacedById := none
      ip := reqMeta.ip
      userAgent := reqMeta.userAgent }
  let revokedAt ← newDate
  let rotated ← updateMany refreshTokens
    (fun r => r.id == token.id && r.revokedAt.isNone && r.authGeneration == some authGeneration)
    (RefreshToken.withSuccessor revokedAt newToken.id)
    (keepsIndexes_refreshToken (fun _ => rfl) (fun _ => rfl))
  require (rotated ≠ 0) (.unauthorized "refresh token has already been used")
  buildSession token.userId newRaw token.mfaVerifiedAt familyId

/-- The transaction of `refresh` from the lock on; `token` was read before it. -/
def refreshInTransaction (env : AuthEnv) (token : RefreshToken) (reqMeta : RequestMeta) :
    AuthTx RefreshOutcome := do
  lockUserForAuth token.userId
  let user ← findUniqueOrThrow users token.userId
  if token.revokedAt.isSome then
    let now ← newDate
    let _ ← advanceAuthGenerationAndRevokeSessions token.userId now
    pure (.reuse token.userId)
  else if token.authGeneration = some user.authGeneration then
    let now ← newDate
    if token.expiresAt < now then pure .expired
    else
      let session ← rotate env token user.authGeneration reqMeta
      pure (.session session)
  else
    let now ← newDate
    let _ ← updateMany refreshTokens (fun r => r.id == token.id && r.revokedAt.isNone)
      (RefreshToken.withRevocation now) (keepsIndexes_withRevocation now)
    pure .invalid

/-- What `refresh` returns or throws once its transaction has committed. -/
def refreshAnswer : RefreshOutcome → Except AuthError AuthSession
  | .session session => .ok session
  | .reuse _ => .error (.unauthorized "refresh token reuse detected")
  | .expired => .error (.unauthorized "refresh token has expired")
  | .invalid => .error (.unauthorized "invalid refresh token")

/-- The transaction of `logout` from the lock on, for a token that was live when read. -/
def logoutInTransaction (token : RefreshToken) : AuthTx PUnit := do
  let now ← newDate
  let _ ← advanceAuthGenerationAndRevokeSessions token.userId now
  pure ⟨⟩

end Refearn.Auth
