import Refearn.Auth.Acceptance
/-!
# Signing in, second factors and passwords

`login`, `completeLoginMfa`, the one-time tokens, and the second factor of
`auth/auth.service.ts`. What a call reads before it locks the user is an argument of its
transaction.
-/

namespace Refearn.Auth

open Support Support.Transaction

/-! ## Login -/

def incorrectPassword : AuthError := .unauthorized "incorrect email or password"

/-- The check of `login` outside its transaction; a missing user is measured against a
dummy hash and refused all the same. -/
def checkLogin (env : AuthEnv) (db : AuthDb) (email password : String) :
    Except AuthError Uuid :=
  match db.users.rows.find? fun u => u.email == email with
  | none => .error incorrectPassword
  | some user =>
      if env.verify user.passwordHash password then .ok user.id else .error incorrectPassword

def loginInTransaction (env : AuthEnv) (userId : Uuid) (password : String)
    (reqMeta : RequestMeta) : AuthTx LoginResult := do
  lockUserForAuth userId
  let current ← findUniqueOrThrow users userId
  require (env.verify current.passwordHash password) incorrectPassword
  if current.totpEnabledAt.isSome then
    let challenge ← createLoginMfaChallengeInTransaction env current.id .login
    pure (.challenge challenge)
  else
    let session ← issueSessionInTransaction env current.id reqMeta none
    pure (.session session)

/-! ## Completing a challenge -/

def findUserToken (env : AuthEnv) (db : AuthDb) (raw : String) : Option UserToken :=
  db.userTokens.rows.find? fun t => t.tokenHash == env.sha256 raw

/-- A challenge as `completeLoginMfa` has read it, with its staged acceptance. -/
structure OpenChallenge where
  token : UserToken
  pendingId : Option Uuid
  deriving DecidableEq

def UserToken.isOpenAt (token : UserToken) (now : Instant) : Bool :=
  token.usedAt.isNone && !decide (token.expiresAt < now)

/-- The read of the challenge, before the lock. -/
def openChallenge (env : AuthEnv) (db : AuthDb) (challengeToken : String) (now : Instant) :
    Except AuthError OpenChallenge :=
  match findUserToken env db challengeToken with
  | none => .error invalidChallenge
  | some token =>
      if token.purpose = .loginOtp ∧ token.isOpenAt now then
        .ok ⟨token, (db.pendingInviteAcceptances.rows.find? fun p =>
          p.challengeTokenId == token.id).map PendingInviteAcceptance.id⟩
      else .error invalidChallenge

inductive MfaOutcome
  | failed (userId : Uuid)
  | session (session : AuthSession)

def User.withRecoveryCodes (hashes : List String) (u : User) : User :=
  { u with mfaRecoveryCodes := some hashes }

def storeRecoveryCodes (userId : Uuid) : Option (List String) → AuthTx PUnit
  | none => pure ⟨⟩
  | some hashes =>
      update users userId (User.withRecoveryCodes hashes)
        (keepsIndexes_user (fun _ => rfl) (fun _ => rfl))

def completeStaged (env : AuthEnv) (user : User) (reqMeta : RequestMeta) (now : Instant) :
    Option Uuid → AuthTx PUnit
  | none => pure ⟨⟩
  | some pendingId => completePendingInviteAcceptance env pendingId user reqMeta now

/-- The transaction of `completeLoginMfa` from the lock on. -/
def completeLoginMfaInTransaction (env : AuthEnv) (challenge : OpenChallenge) (code : String)
    (reqMeta : RequestMeta) : AuthTx MfaOutcome := do
  let token := challenge.token
  lockUserForAuth token.userId
  let user ← findUniqueOrThrow users token.userId
  let lockedAt ← newDate
  require (token.isOpenAt lockedAt) invalidChallenge
  let verified ← verifyMfaCode env user code true
  if verified.ok then
    let now ← newDate
    let consumed ← useTokens
      (fun t => t.id == token.id && t.usedAt.isNone && decide (now < t.expiresAt)) now
    require (consumed ≠ 0) invalidChallenge
    storeRecoveryCodes user.id verified.nextRecoveryHashes
    completeStaged env user reqMeta now challenge.pendingId
    let session ← issueSessionInTransaction env user.id reqMeta (some now)
    pure (.session session)
  else pure (.failed token.userId)

/-- What `completeLoginMfa` returns or throws once its transaction has committed. -/
def mfaAnswer : MfaOutcome → Except AuthError AuthSession
  | .session session => .ok session
  | .failed _ => .error (.unauthorized "2FA code is invalid")

/-! ## Email verification and password resets -/

def consumeUserTokenInTransaction (tokenHash : String) (purpose : UserTokenPurpose)
    (invalidMessage : String) : AuthTx UserToken := do
  let db ← readDb
  let token ← orThrow
    (db.userTokens.rows.find? fun t => t.tokenHash == tokenHash && t.purpose == purpose)
    (.badRequest invalidMessage)
  let now ← newDate
  let claimed ← useTokens (fun t => t.id == token.id && t.tokenHash == tokenHash &&
    t.purpose == purpose && t.usedAt.isNone && decide (now < t.expiresAt)) now
  require (claimed = 1) (.badRequest invalidMessage)
  pure token

def User.withVerifiedEmail (now : Instant) (u : User) : User :=
  { u with emailVerifiedAt := some now }

/-- `verifyEmail`, with the token it has consumed. -/
def verifyEmail (env : AuthEnv) (tokenRaw : String) : AuthTx UserToken := do
  let token ← consumeUserTokenInTransaction (env.sha256 tokenRaw) .emailVerify
    "verification link is invalid or expired"
  let now ← newDate
  update users token.userId (User.withVerifiedEmail now)
    (keepsIndexes_user (fun _ => rfl) (fun _ => rfl))
  pure token

/-- 1 hour -/
def passwordResetTtlMs : Int := 60 * 60 * 1000

/-- The transaction of `requestPasswordReset`, for a user that was found. -/
def requestPasswordResetInTransaction (env : AuthEnv) (userId : Uuid) : AuthTx PUnit := do
  let raw ← randomText
  lockUserForAuth userId
  let usedAt ← newDate
  -- earlier requests lapse
  let _ ← useTokens (isUnusedOf userId .passwordReset) usedAt
  let now ← newDate
  let _ ← create userTokens fun id =>
    { id
      userId
      purpose := .passwordReset
      tokenHash := env.sha256 raw
      expiresAt := now + passwordResetTtlMs
      usedAt := none }
  let nonce ← randomText
  notify
    { tenantId := none
      recipientMembershipId := none
      recipientUserId := some userId
      channel := .email
      template := "password_reset"
      payload := .obj [("tokenCiphertext", .str (env.encryptSecret nonce raw))] }

def invalidReset : AuthError := .badRequest "reset link is invalid or expired"

/-- The read of the reset token, outside the transaction. -/
def openReset (env : AuthEnv) (db : AuthDb) (tokenRaw : String) (now : Instant) :
    Except AuthError UserToken :=
  match findUserToken env db tokenRaw with
  | none => .error invalidReset
  | some token =>
      if token.purpose = .passwordReset ∧ token.isOpenAt now then .ok token
      else .error invalidReset

def User.withPassword (passwordHash : String) (u : User) : User := { u with passwordHash }

def User.withReset (passwordHash : String) (u : User) : User :=
  (u.withPassword passwordHash).withNextGeneration

/-- The transaction of `confirmPasswordReset`. -/
def confirmPasswordResetInTransaction (env : AuthEnv) (token : UserToken)
    (newPassword : String) : AuthTx PUnit := do
  let salt ← randomText
  lockUserForAuth token.userId
  let now ← newDate
  let consumed ← useTokens (fun t => t.id == token.id && t.purpose == .passwordReset &&
    t.usedAt.isNone && decide (now < t.expiresAt)) now
  require (consumed ≠ 0) invalidReset
  update users token.userId (User.withReset (env.hash salt newPassword))
    (keepsIndexes_user (fun _ => rfl) (fun _ => rfl))
  let _ ← revokeRefreshTokens token.userId now
  pure ⟨⟩

/-! ## The second factor -/

def User.withTotpSecret (secret : String) (u : User) : User :=
  { u with totpSecret := some secret }

/-- The read of `setupMfa`, before its update. -/
def checkMfaSetup (db : AuthDb) (userId : Uuid) : Except AuthError PUnit :=
  match db.users.find? userId with
  | none => .error .recordNotFound
  | some user =>
      if user.totpEnabledAt.isSome then .error (.conflict "2FA is already enabled") else .ok ⟨⟩

/-- The rest of `setupMfa`, with the secret it returns. -/
def storeTotpSecret (userId : Uuid) : AuthTx String := do
  let secret ← generateTotpSecret
  update users userId (User.withTotpSecret secret)
    (keepsIndexes_user (fun _ => rfl) (fun _ => rfl))
  pure secret

/-- `setupMfa` with nothing between its read and its update. -/
def setupMfa (userId : Uuid) : AuthTx String := do
  let db ← readDb
  fromExcept (checkMfaSetup db userId)
  storeTotpSecret userId

def User.withMfa (now : Instant) (hashes : List String) (u : User) : User :=
  { u with
    totpEnabledAt := some now
    mfaRecoveryCodes := some hashes
    authGeneration := u.authGeneration + 1 }

def User.withoutMfa (u : User) : User :=
  { u with
    totpSecret := none
    totpEnabledAt := none
    mfaRecoveryCodes := none
    authGeneration := u.authGeneration + 1 }

/-- `enableMfa`, with the recovery codes it returns. -/
def enableMfa (env : AuthEnv) (userId : Uuid) (code : String) : AuthTx (List String) := do
  lockUserForAuth userId
  let user ← findUniqueOrThrow users userId
  let secret ← orThrow (user.totpSecret.filter (· ≠ "")) (.badRequest "start 2FA setup first")
  let checkedAt ← newDate
  let valid ← fromExcept (verifyTotp env secret code checkedAt)
  require (valid = true) (.badRequest "2FA code is invalid")
  let recoveryCodes ← generateRecoveryCodes
  let now ← newDate
  update users userId (User.withMfa now (recoveryCodes.map (hashRecoveryCode env)))
    (keepsIndexes_user (fun _ => rfl) (fun _ => rfl))
  let _ ← revokeRefreshTokens userId now
  pure recoveryCodes

def disableMfa (env : AuthEnv) (userId : Uuid) (code : String) : AuthTx PUnit := do
  lockUserForAuth userId
  let user ← findUniqueOrThrow users userId
  require (user.totpEnabledAt.isSome) (.badRequest "2FA is not enabled")
  let verified ← verifyMfaCode env user code false
  require (verified.ok = true) (.badRequest "2FA code is invalid")
  let now ← newDate
  update users userId User.withoutMfa (keepsIndexes_user (fun _ => rfl) (fun _ => rfl))
  let _ ← revokeRefreshTokens userId now
  pure ⟨⟩

end Refearn.Auth
