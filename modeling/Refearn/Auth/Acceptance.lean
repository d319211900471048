import Refearn.Auth.Invites
/-!
# Accepting an invite

`registerByInvite` accepts directly, or, for an account with a second factor, stores what
was accepted next to a login challenge; `completePendingInviteAcceptance` accepts from
what was stored. What `registerByInvite` reads before it locks anything is an argument of
the rest.
-/

namespace Refearn.Auth

open Support Support.Transaction

/-! ## Challenges -/

theorem keepsIndexes_userToken_use (now : Instant) :
    KeepsIndexes fun t : UserToken => { t with usedAt := some now } where
  key_eq _ := rfl
  clash_left t u h := by
    simp only [clash, Option.isNone_some, Bool.false_and, Bool.or_false] at h
    simp only [clash, h, Bool.true_or]
  clash_right t u h := by
    simp only [clash, Option.isNone_some, Bool.and_false, Bool.false_and, Bool.or_false] at h
    simp only [clash, h, Bool.true_or]

/-- Set `usedAt` of the tokens that satisfy `p`, with their number. -/
def useTokens (p : UserToken → Bool) (now : Instant) : AuthTx Nat :=
  updateMany userTokens p (fun t => { t with usedAt := some now })
    (keepsIndexes_userToken_use now)

def isUnusedOf (userId : Uuid) (purpose : UserTokenPurpose) (t : UserToken) : Bool :=
  t.userId == userId && t.purpose == purpose && t.usedAt.isNone

inductive LoginMfaContext
  | login
  | invite (inviteId tenantId : Uuid) (snapshot : InviteConsentSnapshot)

/-- What was accepted, as it is stored next to a challenge. -/
def stagedRow (userId inviteId challengeTokenId tenantId : Uuid)
    (snapshot : InviteConsentSnapshot) (id : Uuid) : PendingInviteAcceptance where
  id
  userId
  inviteId
  challengeTokenId
  tenantId := some tenantId
  disclaimerVersion := some snapshot.disclaimerVersion
  disclaimerLocale := some snapshot.locale
  disclaimerContentHash := some snapshot.disclaimerContentHash
  tenantDisplayName := some snapshot.tenantDisplayName
  programSummary := some snapshot.programSummary
  programSummaryHash := some snapshot.programSummaryHash
  consentAcceptedAt := some snapshot.acceptedAt
  completedAt := none

/-- The acceptance that waits for the challenge. -/
def stageAcceptance (userId challengeTokenId : Uuid) : LoginMfaContext → AuthTx PUnit
  | .login => pure ⟨⟩
  | .invite inviteId tenantId snapshot => do
      let _ ← create pendingInviteAcceptances
        (stagedRow userId inviteId challengeTokenId tenantId snapshot)
      pure ⟨⟩

def createLoginMfaChallengeInTransaction (env : AuthEnv) (userId : Uuid)
    (context : LoginMfaContext) : AuthTx LoginMfaChallenge := do
  let raw ← randomText
  let expiresAt := (← newDate) + 5 * 60000
  let now ← newDate
  let _ ← useTokens (isUnusedOf userId .loginOtp) now
  let token ← create userTokens fun id =>
    { id, userId, purpose := .loginOtp, tokenHash := env.sha256 raw, expiresAt, usedAt := none }
  stageAcceptance userId token.id context
  pure ⟨raw, expiresAt⟩

/-! ## Before the locks -/

structure RegisterByInviteInput where
  inviteCode : String
  email : Option String
  password : String
  fullName : String
  locale : String
  disclaimerVersion : String
  disclaimerLocale : String
  deriving DecidableEq

/-- `email?.trim().toLowerCase()` -/
def normalizedEmail (env : AuthEnv) (email : Option String) : Option String :=
  email.map fun e => env.toLowerCase (trim e)

/-- The email an acceptance is for: that of the invite, else that of the client. -/
def acceptedEmail (lockedEmail clientEmail : Option String) : Except AuthError String :=
  if ∃ locked ∈ lockedEmail, ∃ client ∈ clientEmail, locked ≠ "" ∧ client ≠ "" ∧ locked ≠ client
  then .error (.badRequest "this invite was issued for a different email address")
  else
    match (lockedEmail <|> clientEmail).filter (· ≠ "") with
    | some email => .ok email
    | none => .error (.badRequest "email is required for an open invite")

def alreadyRegistered : AuthError :=
  .conflict "this email is already registered; verify with the existing account password"

/-- What `registerByInvite` has read when it asks for its first lock. -/
structure Registration where
  input : RegisterByInviteInput
  inviteId : Uuid
  effectiveEmail : String
  userId : Option Uuid
  deriving DecidableEq

/-- The statements of the transaction of `registerByInvite` before its first lock. -/
def openRegistration (env : AuthEnv) (db : AuthDb) (input : RegisterByInviteInput) :
    Except AuthError Registration := do
  let initialInvite ← match db.invites.rows.find? fun i => i.code == input.inviteCode with
    | some invite => pure invite
    | none => .error (.badRequest "invite code is invalid")
  let effectiveEmail ← acceptedEmail (normalizedEmail env initialInvite.email)
    (normalizedEmail env input.email)
  match db.users.rows.find? fun u => u.email == effectiveEmail with
  | none => pure ⟨input, initialInvite.id, effectiveEmail, none⟩
  | some user =>
      if env.verify user.passwordHash input.password then
        pure ⟨input, initialInvite.id, effectiveEmail, some user.id⟩
      else .error alreadyRegistered

/-! ## Under the locks -/

/-- An invite with its tenant and its inviter. -/
structure LockedInvite where
  invite : Invite
  tenant : Tenant
  inviter : Membership

/-- `lockInviteForAcceptance`, and the read of the locked invite. -/
def lockInvite (inviteId : Uuid) : AuthTx LockedInvite := do
  let db ← readDb
  let invite ← orThrow (db.invites.find? inviteId) (.badRequest "invite code is invalid")
  let tenant ← orThrow (db.directory.tenants.find? invite.tenantId) .recordNotFound
  let inviter ← orThrow (db.memberships.find? invite.inviterMembershipId) .recordNotFound
  pure ⟨invite, tenant, inviter⟩

/-- The checks that both acceptances make of tenant and inviter. -/
def requireOpenBusiness (locked : LockedInvite) : AuthTx PUnit := do
  require (locked.tenant.status = .active)
    (.badRequest "this business is not accepting registrations right now")
  require (locked.inviter.status = .active)
    (.badRequest "the inviting membership is not active")

def requireNoMembership (tenantId userId : Uuid) : AuthTx PUnit := do
  let db ← readDb
  require (¬∃ m ∈ db.memberships.rows, m.tenantId = tenantId ∧ m.userId = userId)
    (.conflict "you already have a membership in this business")

/-- The conditional update that claims an invite for a membership. -/
def consumeInvite (inviteId membershipId : Uuid) (now : Instant) : AuthTx PUnit := do
  let consumed ← updateMany invites
    (fun i => i.id == inviteId && i.status == .active && decide (now < i.expiresAt))
    (Invite.usedBy membershipId) (Invite.keepsIndexes_usedBy membershipId)
  require (consumed ≠ 0) (.badRequest "invite code is invalid or expired")

def selectMembership (userId membershipId : Uuid) : AuthTx PUnit :=
  update users userId (User.withLastMembership membershipId)
    (keepsIndexes_withLastMembership membershipId)

def notify (notification : Notification) : AuthTx PUnit :=
  modify fun c => { c with db := { c.db with notifications := c.db.notifications ++ [notification] } }

def audit (entry : AuditLog) : AuthTx PUnit :=
  modify fun c => { c with db := { c.db with auditLogs := c.db.auditLogs ++ [entry] } }

/-- The inviter is told; a tenant setting hides the name. -/
def notifyInviter (locked : LockedInvite) (user : User) : AuthTx PUnit :=
  notify
    { tenantId := some locked.invite.tenantId
      recipientMembershipId := some locked.invite.inviterMembershipId
      recipientUserId := none
      channel := .push
      template := "team_member_joined"
      payload :=
        if locked.tenant.notifyNewMemberName then .obj [("memberName", .str user.fullName)]
        else .obj [] }

def auditAcceptance (env : AuthEnv) (locked : LockedInvite) (userId membershipId : Uuid)
    (reqMeta : RequestMeta) : AuthTx PUnit :=
  audit
    { tenantId := locked.invite.tenantId
      actorUserId := userId
      action := "membership.register_by_invite"
      entity := "membership"
      entityId := membershipId
      after := .obj
        ([("sponsorMembershipId", .str locked.invite.inviterMembershipId.text),
          ("inviteId", .str locked.invite.id.text)] ++
          (nonBlank? reqMeta.ip).toList.map fun ip =>
            ("ipFingerprint", .str (env.ipFingerprint ip))) }

/-! ## Direct acceptance -/

/-- `DISCLAIMER_VERSION` of the sign-up form -/
def DISCLAIMER_VERSION : String := "v1"

/-- 48 hours -/
def emailTokenTtlMs : Int := 48 * 60 * 60 * 1000

/-- The account a registration names, locked, with its password verified once more. -/
def lockAccount (env : AuthEnv) (password : String) : Option Uuid → AuthTx (Option User)
  | none => pure none
  | some userId => do
      lockUserForAuth userId
      let user ← findUniqueOrThrow users userId
      require (env.verify user.passwordHash password) alreadyRegistered
      pure (some user)

def createUser (env : AuthEnv) (email : String) (input : RegisterByInviteInput) :
    AuthTx User := do
  let salt ← randomText
  create users fun id =>
    { id
      email
      passwordHash := env.hash salt input.password
      fullName := input.fullName
      locale := input.locale
      emailVerifiedAt := none
      isPlatformAdmin := false
      totpSecret := none
      totpEnabledAt := none
      mfaRecoveryCodes := none
      lastMembershipId := none
      authGeneration := 1 }

/-- The account that joins: the one that was locked, or a new one. -/
def existingOrNewUser (env : AuthEnv) (registration : Registration) : Option User → AuthTx User
  | some user => pure user
  | none => createUser env registration.effectiveEmail registration.input

/-- The sign-up fields of a member who has accepted directly. -/
def Membership.withSignup (signupIp : Option String) (acceptedAt : Instant) (m : Membership) :
    Membership :=
  { m with
    signupIp := signupIp.or m.signupIp
    disclaimerAcceptedAt := some acceptedAt
    disclaimerVersion := some DISCLAIMER_VERSION
    updatedAt := acceptedAt }

theorem Membership.keepsIndexes_withSignup (signupIp : Option String) (acceptedAt : Instant) :
    KeepsIndexes (Membership.withSignup signupIp acceptedAt) where
  key_eq _ := rfl
  clash_left _ _ h := h
  clash_right _ _ h := h

/-- The mail that asks a new account to confirm its address. -/
def sendEmailVerification (env : AuthEnv) (tenantId userId membershipId : Uuid) :
    AuthTx PUnit := do
  let raw ← randomText
  let now ← newDate
  let _ ← create userTokens fun id =>
    { id
      userId
      purpose := .emailVerify
      tokenHash := env.sha256 raw
      expiresAt := now + emailTokenTtlMs
      usedAt := none }
  let nonce ← randomText
  notify
    { tenantId := some tenantId
      recipientMembershipId := some membershipId
      recipientUserId := none
      channel := .email
      template := "verify_email"
      payload := .obj [("tokenCiphertext", .str (env.encryptSecret nonce raw))] }

/-- Only a new account is asked to confirm its address. -/
def askToVerifyEmail (env : AuthEnv) (tenantId userId membershipId : Uuid) : Bool → AuthTx PUnit
  | true => sendEmailVerification env tenantId userId membershipId
  | false => pure ⟨⟩

/-- The membership, its consent and everything else that joining writes. -/
def acceptDirectly (env : AuthEnv) (locked : LockedInvite) (user : User) (isNewUser : Bool)
    (consent : InviteConsentSnapshot) (reqMeta : RequestMeta) : AuthTx AuthSession := do
  let membership ← createUnderWithInviteConsent locked.invite.tenantId user.id locked.inviter
    locked.invite.id consent
  let disclaimerAcceptedAt ← newDate
  -- an empty address counts as none
  update memberships membership.id
    (Membership.withSignup (reqMeta.ip.filter (· ≠ "")) disclaimerAcceptedAt)
    (Membership.keepsIndexes_withSignup _ _)
  let now ← newDate
  consumeInvite locked.invite.id membership.id now
  selectMembership user.id membership.id
  notifyInviter locked user
  askToVerifyEmail env locked.invite.tenantId user.id membership.id isNewUser
  auditAcceptance env locked user.id membership.id reqMeta
  issueSessionInTransaction env user.id reqMeta none

inductive LoginResult
  | session (session : AuthSession)
  | challenge (challenge : LoginMfaChallenge)

/-- What a registration checks of the invite it has locked, and the consent it records. -/
def agreedConsent (env : AuthEnv) (registration : Registration) (locked : LockedInvite) :
    AuthTx InviteConsentSnapshot := do
  require (locked.invite.status = .active) (.badRequest "invite code is invalid")
  let now ← newDate
  require (¬locked.invite.expiresAt < now) (.badRequest "invite has expired")
  requireOpenBusiness locked
  let email ← fromExcept (acceptedEmail (normalizedEmail env locked.invite.email)
    (normalizedEmail env registration.input.email))
  require (email = registration.effectiveEmail)
    (.badRequest "invite registration details changed; try again")
  let acceptedAt ← newDate
  let db ← readDb
  let plan ← orThrow (effectivePlan db locked.invite.tenantId acceptedAt)
    (.badRequest "this business has no effective commission plan")
  fromExcept (createInviteConsentSnapshot env registration.input.disclaimerVersion
    registration.input.disclaimerLocale locked.tenant.name plan acceptedAt)

/-- The transaction of `registerByInvite` from its first lock on. -/
def registerInTransaction (env : AuthEnv) (registration : Registration)
    (reqMeta : RequestMeta) : AuthTx LoginResult := do
  let account ← lockAccount env registration.input.password registration.userId
  let locked ← lockInvite registration.inviteId
  let consent ← agreedConsent env registration locked
  let user ← existingOrNewUser env registration account
  requireNoMembership locked.invite.tenantId user.id
  if account.isSome ∧ user.totpEnabledAt.isSome then
    let challenge ← createLoginMfaChallengeInTransaction env user.id
      (.invite locked.invite.id locked.invite.tenantId consent)
    pure (.challenge challenge)
  else
    let session ← acceptDirectly env locked user account.isNone consent reqMeta
    pure (.session session)

/-! ## Acceptance after the second factor -/

def invalidChallenge : AuthError := .unauthorized "2FA session is invalid or expired"

def invalidConsent : AuthError :=
  .badRequest "invite acceptance consent is invalid; start a new invite acceptance"

theorem keepsIndexes_pending_complete (now : Instant) :
    KeepsIndexes fun p : PendingInviteAcceptance => { p with completedAt := some now } where
  key_eq _ := rfl
  clash_left _ _ h := h
  clash_right _ _ h := h

def completePendingInviteAcceptance (env : AuthEnv) (pendingId : Uuid) (user : User)
    (reqMeta : RequestMeta) (now : Instant) : AuthTx PUnit := do
  let pending ← findUniqueOrThrow pendingInviteAcceptances pendingId
  require (pending.userId = user.id ∧ pending.completedAt.isNone) invalidChallenge
  let tenantId ← orThrow pending.tenantId invalidConsent
  let consent ← orThrow (verifyStoredInviteConsentSnapshot env pending) invalidConsent
  let locked ← lockInvite pending.inviteId
  require (tenantId = locked.invite.tenantId) invalidConsent
  require (locked.invite.status = .active) (.badRequest "invite code is invalid")
  require (¬locked.invite.expiresAt < now) (.badRequest "invite has expired")
  requireOpenBusiness locked
  require (∀ email ∈ locked.invite.email, email = "" ∨ env.toLowerCase email = user.email)
    (.badRequest "this invite was issued for a different email address")
  requireNoMembership locked.invite.tenantId user.id
  let membership ← createUnderWithInviteConsent locked.invite.tenantId user.id locked.inviter
    locked.invite.id consent
  consumeInvite locked.invite.id membership.id now
  selectMembership user.id membership.id
  notifyInviter locked user
  auditAcceptance env locked user.id membership.id reqMeta
  update pendingInviteAcceptances pending.id (fun p => { p with completedAt := some now })
    (keepsIndexes_pending_complete now)

end Refearn.Auth
