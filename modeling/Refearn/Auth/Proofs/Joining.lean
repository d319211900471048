import Refearn.Auth.Proofs.Issuance
/-!
# What a registration or a login commits

The challenges that are opened, the memberships that are made from an invite, and which of
the two a registration or a login leads to.
-/

namespace Refearn.Auth

open Support Support.Transaction

/-! ## One-time tokens -/

/-- The one-time tokens after those that satisfy `p` have been used. -/
def usedTokens (tokens : Table UserToken) (p : UserToken → Bool) (now : Instant) :
    Table UserToken :=
  tokens.updateWhere p (fun t => { t with usedAt := some now }) (keepsIndexes_userToken_use now)

@[simp] theorem commits_useTokens (p : UserToken → Bool) (now : Instant) (n : Nat)
    (c c' : Connection) :
    Commits (useTokens p now) c n c' ↔
      (c.db.userTokens.rows.filter p).length = n ∧
        ⟨{ c.db with userTokens := usedTokens c.db.userTokens p now }, c.supply⟩ = c' := by
  unfold useTokens
  simp only [commits_updateMany, userTokens_get, userTokens_put]
  exact Iff.rfl

/-- The pending acceptances after a challenge with a context has been opened. -/
def StagedIn (userId challengeTokenId : Uuid) (pending pending' : Table PendingInviteAcceptance) :
    LoginMfaContext → Prop
  | .login => pending' = pending
  | .invite inviteId tenantId snapshot =>
      ∃ id, pending.insert? (stagedRow userId inviteId challengeTokenId tenantId snapshot id) =
        some pending'

/-- A challenge has been opened, and the open ones before it have lapsed. -/
structure Opening (env : AuthEnv) (userId : Uuid) (context : LoginMfaContext)
    (c c' : Connection) (challenge : LoginMfaChallenge) (token : UserToken)
    (tokens : Table UserToken) (pending : Table PendingInviteAcceptance) : Prop where
  owner : token.userId = userId
  purpose : token.purpose = .loginOtp
  tokenHash : token.tokenHash = env.sha256 challenge.challengeToken
  usedAt : token.usedAt = none
  inserted : ∃ now, (usedTokens c.db.userTokens (isUnusedOf userId .loginOtp) now).insert? token =
    some tokens
  staged : StagedIn userId token.id c.db.pendingInviteAcceptances pending context
  db : c'.db = { c.db with userTokens := tokens, pendingInviteAcceptances := pending }
  supply : Supply.Later c.supply c'.supply

theorem commits_stageAcceptance {userId challengeTokenId : Uuid} {context : LoginMfaContext}
    {c c' : Connection} {u : PUnit}
    (h : Commits (stageAcceptance userId challengeTokenId context) c u c') :
    ∃ pending supply, StagedIn userId challengeTokenId c.db.pendingInviteAcceptances pending
      context ∧ Supply.Later c.supply supply ∧
        c' = ⟨{ c.db with pendingInviteAcceptances := pending }, supply⟩ := by
  cases context with
  | login =>
      have heq := (commits_pure ..).mp h
      exact ⟨_, c.supply, rfl, .refl _, heq.2.symm⟩
  | invite inviteId tenantId snapshot =>
      unfold stageAcceptance at h
      simp only [commits_bind, commits_create, commits_pure, pendingInviteAcceptances_get,
        pendingInviteAcceptances_put] at h
      obtain ⟨_, _, ⟨pending, hinsert, -, rfl⟩, -, rfl⟩ := h
      exact ⟨pending, _, ⟨_, hinsert⟩, .dropUuid (.refl _), rfl⟩

theorem commits_createLoginMfaChallenge {env : AuthEnv} {userId : Uuid}
    {context : LoginMfaContext} {challenge : LoginMfaChallenge} {c c' : Connection}
    (h : Commits (createLoginMfaChallengeInTransaction env userId context) c challenge c') :
    ∃ token tokens pending, Opening env userId context c c' challenge token tokens pending := by
  unfold createLoginMfaChallengeInTransaction at h
  simp only [commits_bind, commits_randomText, commits_newDate, commits_useTokens, commits_create,
    commits_pure, userTokens_get, userTokens_put] at h
  obtain ⟨raw, _, ⟨rfl, rfl⟩, start, _, ⟨rfl, rfl⟩, now, _, ⟨rfl, rfl⟩, _, _, ⟨-, rfl⟩, token, _,
    ⟨tokens, hinsert, rfl, rfl⟩, _, _, hstage, rfl, rfl⟩ := h
  obtain ⟨pending, supply, hstaged, hlater, rfl⟩ := commits_stageAcceptance hstage
  refine ⟨_, tokens, pending, ?_, ?_, ?_, ?_, ⟨_, hinsert⟩, hstaged, rfl, ?_⟩
  · rfl
  · rfl
  · rfl
  · rfl
  · exact .trans (.dropUuid (.dropTick (.dropTick (.dropText (.refl _))))) hlater

/-! ## Acceptance -/

theorem commits_createUnder {tenantId userId : Uuid} {sponsor m : Membership}
    {c c' : Connection} (h : Commits (createUnder tenantId userId sponsor) c m c') :
    ∃ table supply, c.db.memberships.insert? m = some table ∧ m.tenantId = tenantId ∧
      m.userId = userId ∧ m.signupIp = none ∧ m.disclaimerAcceptedAt = none ∧
        m.disclaimerVersion = none ∧ Supply.Later c.supply supply ∧
          c' = ⟨{ c.db with memberships := table }, supply⟩ := by
  unfold createUnder randomCode at h
  simp only [commits_bind, commits_require, commits_genUuid, commits_randomBytes, commits_newDate,
    commits_pure, commits_insert, memberships_get, memberships_put] at h
  obtain ⟨_, _, ⟨-, rfl⟩, id, _, ⟨rfl, rfl⟩, code, _, ⟨bytes, _, ⟨rfl, rfl⟩, rfl, rfl⟩, now, _,
    ⟨rfl, rfl⟩, _, _, ⟨table, hinsert, rfl⟩, rfl, rfl⟩ := h
  exact ⟨table, _, hinsert, rfl, rfl, rfl, rfl, rfl,
    .dropTick (.dropBytes (.dropUuid (.refl _)) 8), rfl⟩

/-- A new membership with the consent it was made on. -/
structure Joined (tenantId userId inviteId : Uuid) (consent : InviteConsentSnapshot)
    (m : Membership) (row : InviteAcceptanceConsent) : Prop where
  tenantId : m.tenantId = tenantId
  userId : m.userId = userId
  signupIp : m.signupIp = none
  disclaimerAcceptedAt : m.disclaimerAcceptedAt = none
  disclaimerVersion : m.disclaimerVersion = none
  inviteId : row.inviteId = inviteId
  membershipId : row.membershipId = m.id

theorem commits_createUnderWithInviteConsent {tenantId userId inviteId : Uuid}
    {sponsor m : Membership} {consent : InviteConsentSnapshot} {c c' : Connection}
    (h : Commits (createUnderWithInviteConsent tenantId userId sponsor inviteId consent) c m c') :
    ∃ row members consents supply, Joined tenantId userId inviteId consent m row ∧
      c.db.memberships.insert? m = some members ∧
        c.db.inviteAcceptanceConsents.insert? row = some consents ∧
          Supply.Later c.supply supply ∧
            c' = ⟨{ c.db with memberships := members, inviteAcceptanceConsents := consents },
              supply⟩ := by
  unfold createUnderWithInviteConsent at h
  simp only [commits_bind, commits_create, commits_pure, inviteAcceptanceConsents_get,
    inviteAcceptanceConsents_put] at h
  obtain ⟨_, _, hcreate, _, _, ⟨consents, hconsent, -, rfl⟩, rfl, rfl⟩ := h
  obtain ⟨members, supply, hinsert, htenant, huser, hip, haccepted, hversion, hlater, rfl⟩ :=
    commits_createUnder hcreate
  refine ⟨_, members, consents, _, ?_, hinsert, hconsent, .dropUuid hlater, rfl⟩
  exact ⟨htenant, huser, hip, haccepted, hversion, rfl, rfl⟩

/-- The invites that an acceptance may claim. -/
def isClaimable (inviteId : Uuid) (now : Instant) (i : Invite) : Bool :=
  i.id == inviteId && i.status == .active && decide (now < i.expiresAt)

/-- The invites after one of them has been claimed for a membership. -/
def claimedInvites (table : Table Invite) (inviteId membershipId : Uuid) (now : Instant) :
    Table Invite :=
  table.updateWhere (isClaimable inviteId now) (Invite.usedBy membershipId)
    (Invite.keepsIndexes_usedBy membershipId)

theorem commits_consumeInvite {inviteId membershipId : Uuid} {now : Instant}
    {c c' : Connection} {u : PUnit} (h : Commits (consumeInvite inviteId membershipId now) c u c') :
    (∃ i ∈ c.db.invites, isClaimable inviteId now i = true) ∧
      c' = ⟨{ c.db with invites := claimedInvites c.db.invites inviteId membershipId now },
        c.supply⟩ := by
  unfold consumeInvite at h
  simp only [commits_bind, commits_updateMany, commits_require, invites_get, invites_put] at h
  obtain ⟨_, _, ⟨rfl, rfl⟩, hclaimed, rfl⟩ := h
  exact ⟨exists_mem_of_updated hclaimed, rfl⟩

@[simp] theorem commits_notify (notification : Notification) (c c' : Connection) (u : PUnit) :
    Commits (notify notification) c u c' ↔
      ⟨{ c.db with notifications := c.db.notifications ++ [notification] }, c.supply⟩ = c' := by
  unfold notify
  exact commits_modify ..

@[simp] theorem commits_audit (entry : AuditLog) (c c' : Connection) (u : PUnit) :
    Commits (audit entry) c u c' ↔
      ⟨{ c.db with auditLogs := c.db.auditLogs ++ [entry] }, c.supply⟩ = c' := by
  unfold audit
  exact commits_modify ..

@[simp] theorem commits_lockInvite (inviteId : Uuid) (locked : LockedInvite)
    (c c' : Connection) :
    Commits (lockInvite inviteId) c locked c' ↔
      c.db.invites.find? inviteId = some locked.invite ∧
        c.db.directory.tenants.find? locked.invite.tenantId = some locked.tenant ∧
          c.db.memberships.find? locked.invite.inviterMembershipId = some locked.inviter ∧
            c = c' := by
  unfold lockInvite
  simp only [commits_bind, commits_readDb, commits_orThrow, commits_pure]
  constructor
  · rintro ⟨_, _, ⟨rfl, rfl⟩, invite, _, ⟨hinvite, rfl⟩, tenant, _, ⟨htenant, rfl⟩, inviter, _,
      ⟨hinviter, rfl⟩, rfl, rfl⟩
    exact ⟨hinvite, htenant, hinviter, rfl⟩
  · rintro ⟨hinvite, htenant, hinviter, rfl⟩
    exact ⟨_, _, ⟨rfl, rfl⟩, _, _, ⟨hinvite, rfl⟩, _, _, ⟨htenant, rfl⟩, _, _, ⟨hinviter, rfl⟩,
      rfl, rfl⟩

@[simp] theorem commits_requireOpenBusiness (locked : LockedInvite) (c c' : Connection)
    (u : PUnit) :
    Commits (requireOpenBusiness locked) c u c' ↔
      (locked.tenant.status = .active ∧ locked.inviter.status = .active) ∧ c = c' := by
  unfold requireOpenBusiness
  simp only [commits_bind, commits_require]
  constructor
  · rintro ⟨_, _, ⟨htenant, rfl⟩, hinviter, rfl⟩
    exact ⟨⟨htenant, hinviter⟩, rfl⟩
  · rintro ⟨⟨htenant, hinviter⟩, rfl⟩
    exact ⟨⟨⟩, _, ⟨htenant, rfl⟩, hinviter, rfl⟩

@[simp] theorem commits_requireNoMembership (tenantId userId : Uuid) (c c' : Connection)
    (u : PUnit) :
    Commits (requireNoMembership tenantId userId) c u c' ↔
      (¬∃ m ∈ c.db.memberships.rows, m.tenantId = tenantId ∧ m.userId = userId) ∧ c = c' := by
  unfold requireNoMembership
  simp only [commits_bind, commits_readDb, commits_require]
  constructor
  · rintro ⟨_, _, ⟨rfl, rfl⟩, hnone, rfl⟩
    exact ⟨hnone, rfl⟩
  · rintro ⟨hnone, rfl⟩
    exact ⟨_, _, ⟨rfl, rfl⟩, hnone, rfl⟩

/-- The one-time tokens after a new account may have been asked to confirm its address. -/
def EmailAsked (userId : Uuid) (isNewUser : Bool) (tokens tokens' : Table UserToken) : Prop :=
  if isNewUser then
    ∃ token, token.userId = userId ∧ token.purpose = .emailVerify ∧ token.usedAt = none ∧
      tokens.insert? token = some tokens'
  else tokens' = tokens

theorem commits_sendEmailVerification {env : AuthEnv} {tenantId userId membershipId : Uuid}
    {c c' : Connection} {u : PUnit}
    (h : Commits (sendEmailVerification env tenantId userId membershipId) c u c') :
    ∃ tokens notes supply, EmailAsked userId true c.db.userTokens tokens ∧
      Supply.Later c.supply supply ∧
        c' = ⟨{ c.db with userTokens := tokens, notifications := notes }, supply⟩ := by
  unfold sendEmailVerification at h
  simp only [commits_bind, commits_randomText, commits_newDate, commits_create, commits_notify,
    userTokens_get, userTokens_put] at h
  obtain ⟨raw, _, ⟨rfl, rfl⟩, now, _, ⟨rfl, rfl⟩, token, _, ⟨tokens, hinsert, rfl, rfl⟩, nonce, _,
    ⟨rfl, rfl⟩, rfl⟩ := h
  refine ⟨tokens, _, _, ?_, .dropText (.dropUuid (.dropTick (.dropText (.refl _)))), rfl⟩
  unfold EmailAsked
  rw [if_pos rfl]
  refine ⟨_, ?_, ?_, ?_, hinsert⟩
  · rfl
  · rfl
  · rfl

theorem commits_askToVerifyEmail {env : AuthEnv} {tenantId userId membershipId : Uuid}
    {isNewUser : Bool} {c c' : Connection} {u : PUnit}
    (h : Commits (askToVerifyEmail env tenantId userId membershipId isNewUser) c u c') :
    ∃ tokens notes supply, EmailAsked userId isNewUser c.db.userTokens tokens ∧
      Supply.Later c.supply supply ∧
        c' = ⟨{ c.db with userTokens := tokens, notifications := notes }, supply⟩ := by
  cases isNewUser with
  | true => exact commits_sendEmailVerification h
  | false =>
      have heq := (commits_pure ..).mp h
      exact ⟨c.db.userTokens, c.db.notifications, c.supply, rfl, .refl _, heq.2.symm⟩

/-- What a direct acceptance writes, apart from the session. -/
structure DirectAcceptance (locked : LockedInvite) (user : User) (isNewUser : Bool)
    (consent : InviteConsentSnapshot) (reqMeta : RequestMeta) (c c' : Connection) (m : Membership)
    (record : InviteAcceptanceConsent) (accounts : Table User) (userTokens : Table UserToken)
    (members : Table Membership) (consents : Table InviteAcceptanceConsent) (now : Instant) :
    Prop where
  joined : Joined locked.invite.tenantId user.id locked.invite.id consent m record
  -- the sign-up fields come after the insert
  inserted : ∃ table acceptedAt, c.db.memberships.insert? m = some table ∧
    members.rows =
      c.db.memberships.rows ++ [m.withSignup (reqMeta.ip.filter (· ≠ "")) acceptedAt]
  recorded : c.db.inviteAcceptanceConsents.insert? record = some consents
  claimed : ∃ i ∈ c.db.invites, isClaimable locked.invite.id now i = true
  asked : EmailAsked user.id isNewUser c.db.userTokens userTokens
  kept : Extends c.db.users accounts
  db : ∃ notes logs, c'.db =
    { c.db with
      users := accounts
      userTokens := userTokens
      memberships := members
      invites := claimedInvites c.db.invites locked.invite.id m.id now
      inviteAcceptanceConsents := consents
      notifications := notes
      auditLogs := logs }
  supply : Supply.Later c.supply c'.supply

theorem commits_acceptDirectly {env : AuthEnv} {locked : LockedInvite} {user : User}
    {isNewUser : Bool} {consent : InviteConsentSnapshot} {reqMeta : RequestMeta}
    {session : AuthSession} {c c' : Connection}
    (h : Commits (acceptDirectly env locked user isNewUser consent reqMeta) c session c') :
    ∃ c₁ m record accounts userTokens members consents now,
      DirectAcceptance locked user isNewUser consent reqMeta c c₁ m record accounts userTokens
        members consents now ∧
        Commits (issueSessionInTransaction env user.id reqMeta none) c₁ session c' := by
  unfold acceptDirectly notifyInviter auditAcceptance at h
  simp only [commits_bind, commits_newDate, commits_update, commits_notify, commits_audit,
    memberships_get, memberships_put] at h
  obtain ⟨m, _, hcreate, acceptedAt, _, ⟨-, rfl⟩, _, _, ⟨-, rfl⟩, now, _, ⟨-, rfl⟩, _, _,
    hconsume, _, _, hselect, _, _, rfl, _, _, hask, _, _, rfl, hissue⟩ := h
  obtain ⟨record, members, consents, supply, hjoined, hinsert, hrecord, hlater, rfl⟩ :=
    commits_createUnderWithInviteConsent hcreate
  obtain ⟨hclaimed, rfl⟩ := commits_consumeInvite hconsume
  obtain ⟨accounts, hkept, rfl⟩ := commits_selectMembership hselect
  obtain ⟨tokens, notes, supply', hasked, hlater', rfl⟩ := commits_askToVerifyEmail hask
  have hrows := Table.rows_updateKey_insert? _
    (Membership.keepsIndexes_withSignup (reqMeta.ip.filter (· ≠ "")) acceptedAt) hinsert
  exact ⟨_, m, record, accounts, tokens, _, consents, now,
    ⟨hjoined, ⟨members, acceptedAt, hinsert, hrows⟩, hrecord, hclaimed, hasked, hkept,
      ⟨notes, _, rfl⟩, .trans (.dropTick (.dropTick hlater)) hlater'⟩, hissue⟩

/-! ## Registration and login -/

/-- The account that a registration is for: an existing one, whose present password has been
verified, or a new one. -/
inductive AccountOf (env : AuthEnv) (registration : Registration) (users : Table User) :
    User → Bool → Table User → Prop
  | existing (user : User) (huser : registration.userId = some user.id)
      (hfound : users.find? user.id = some user)
      (hverified : env.verify user.passwordHash registration.input.password = true) :
      AccountOf env registration users user false users
  | new (user : User) (accounts : Table User) (hnone : registration.userId = none)
      (hinserted : users.insert? user = some accounts) (hgeneration : user.authGeneration = 1)
      (htotp : user.totpEnabledAt = none) (hcodes : user.mfaRecoveryCodes = none) :
      AccountOf env registration users user true accounts

theorem commits_lockAccount {env : AuthEnv} {password : String} {userId : Option Uuid}
    {account : Option User} {c c' : Connection}
    (h : Commits (lockAccount env password userId) c account c') :
    c = c' ∧ ((userId = none ∧ account = none) ∨
      ∃ user, userId = some user.id ∧ account = some user ∧
        c.db.users.find? user.id = some user ∧ env.verify user.passwordHash password = true) := by
  cases userId with
  | none =>
      obtain ⟨rfl, rfl⟩ := (commits_pure ..).mp h
      exact ⟨rfl, .inl ⟨rfl, rfl⟩⟩
  | some userId =>
      unfold lockAccount at h
      simp only [commits_bind, commits_lockUserForAuth, commits_findUniqueOrThrow,
        commits_require, commits_pure, users_get] at h
      obtain ⟨_, _, ⟨-, rfl⟩, user, _, ⟨hfind, rfl⟩, _, _, ⟨hverify, rfl⟩, rfl, rfl⟩ := h
      have hid : user.id = userId := (Table.find?_eq_some.mp hfind).2
      subst hid
      exact ⟨rfl, .inr ⟨user, rfl, rfl, hfind, hverify⟩⟩

theorem commits_createUser {env : AuthEnv} {email : String} {input : RegisterByInviteInput}
    {user : User} {c c' : Connection} (h : Commits (createUser env email input) c user c') :
    ∃ accounts supply, c.db.users.insert? user = some accounts ∧ user.authGeneration = 1 ∧
      user.totpEnabledAt = none ∧ user.mfaRecoveryCodes = none ∧ Supply.Later c.supply supply ∧
        c' = ⟨{ c.db with users := accounts }, supply⟩ := by
  unfold createUser at h
  simp only [commits_bind, commits_randomText, commits_create, users_get, users_put] at h
  obtain ⟨salt, _, ⟨rfl, rfl⟩, accounts, hinsert, rfl, rfl⟩ := h
  exact ⟨accounts, _, hinsert, rfl, rfl, rfl, .dropUuid (.dropText (.refl _)), rfl⟩

theorem commits_agreedConsent {env : AuthEnv} {registration : Registration}
    {locked : LockedInvite} {consent : InviteConsentSnapshot} {c c' : Connection}
    (h : Commits (agreedConsent env registration locked) c consent c') :
    locked.invite.status = .active ∧
      ∃ supply, Supply.Later c.supply supply ∧ c' = ⟨c.db, supply⟩ := by
  unfold agreedConsent at h
  simp only [commits_bind, commits_newDate, commits_require, commits_requireOpenBusiness,
    commits_fromExcept, commits_readDb, commits_orThrow] at h
  obtain ⟨_, _, ⟨hactive, rfl⟩, now, _, ⟨rfl, rfl⟩, _, _, ⟨-, rfl⟩, _, _, ⟨-, rfl⟩, email, _,
    ⟨-, rfl⟩, _, _, ⟨-, rfl⟩, acceptedAt, _, ⟨rfl, rfl⟩, _, _, ⟨rfl, rfl⟩, plan, _, ⟨-, rfl⟩, -,
    rfl⟩ := h
  exact ⟨hactive, _, .dropTick (.dropTick (.refl _)), rfl⟩

/-- What a registration does: it opens a challenge, or the account joins and gets a session. -/
inductive RegisterEffect (env : AuthEnv) (registration : Registration) (reqMeta : RequestMeta)
    (c c' : Connection) (locked : LockedInvite) (user : User) : LoginResult → Prop
  | challenge (consent : InviteConsentSnapshot) (c₁ : Connection) (challenge : LoginMfaChallenge)
      (token : UserToken) (tokens : Table UserToken) (pending : Table PendingInviteAcceptance)
      (hdb : c₁.db = c.db) (hsupply : Supply.Later c.supply c₁.supply)
      (haccount : AccountOf env registration c.db.users user false c.db.users)
      (h : Opening env user.id (.invite locked.invite.id locked.invite.tenantId consent) c₁ c'
        challenge token tokens pending) :
      RegisterEffect env registration reqMeta c c' locked user (.challenge challenge)
  | session (consent : InviteConsentSnapshot) (c₁ c₂ : Connection) (isNewUser : Bool)
      (accounts joined : Table User) (m : Membership) (record : InviteAcceptanceConsent)
      (userTokens : Table UserToken) (members : Table Membership)
      (consents : Table InviteAcceptanceConsent) (now : Instant) (session : AuthSession)
      (hdb : c₁.db = { c.db with users := accounts })
      (hsupply : Supply.Later c.supply c₁.supply)
      (haccount : AccountOf env registration c.db.users user isNewUser accounts)
      (haccepted : DirectAcceptance locked user isNewUser consent reqMeta c₁ c₂ m record joined
        userTokens members consents now)
      (h : Commits (issueSessionInTransaction env user.id reqMeta none) c₂ session c') :
      RegisterEffect env registration reqMeta c c' locked user (.session session)

theorem commits_register {env : AuthEnv} {registration : Registration} {reqMeta : RequestMeta}
    {result : LoginResult} {c c' : Connection}
    (h : Commits (registerInTransaction env registration reqMeta) c result c') :
    ∃ locked user, c.db.invites.find? registration.inviteId = some locked.invite ∧
      locked.invite.status = .active ∧
        RegisterEffect env registration reqMeta c c' locked user result := by
  unfold registerInTransaction at h
  simp only [commits_bind, commits_lockInvite, commits_requireNoMembership, commits_ite,
    commits_pure] at h
  obtain ⟨account, _, hlock, locked, _, ⟨hinvite, -, -, rfl⟩, consent, _, hagreed, user, _,
    huser, _, _, ⟨-, rfl⟩, hcases⟩ := h
  obtain ⟨rfl, haccount⟩ := commits_lockAccount hlock
  obtain ⟨hactive, supply, hlater, rfl⟩ := commits_agreedConsent hagreed
  refine ⟨locked, user, hinvite, hactive, ?_⟩
  rcases haccount with ⟨hnone, rfl⟩ | ⟨user', huser', rfl, hfind, hverify⟩
  · obtain ⟨accounts, supply', hinsert, hgeneration, htotp, hcodes, hlater', rfl⟩ :=
      commits_createUser huser
    rcases hcases with ⟨hchallenge, -⟩ | ⟨-, session, _, haccept, rfl, rfl⟩
    · cases hchallenge.1
    · obtain ⟨c₂, m, record, joined, tokens, members, consents, now, haccepted, hissue⟩ :=
        commits_acceptDirectly haccept
      exact .session consent _ c₂ true accounts joined m record tokens members consents now
        session rfl (hlater.trans hlater')
        (.new user accounts hnone hinsert hgeneration htotp hcodes) haccepted hissue
  · obtain ⟨rfl, rfl⟩ := (commits_pure ..).mp huser
    have haccount : AccountOf env registration c.db.users user' false c.db.users :=
      .existing user' huser' hfind hverify
    rcases hcases with ⟨-, challenge, _, hopen, rfl, rfl⟩ | ⟨-, session, _, haccept, rfl, rfl⟩
    · obtain ⟨token, tokens, pending, hopening⟩ := commits_createLoginMfaChallenge hopen
      exact .challenge consent ⟨c.db, supply⟩ challenge token tokens pending rfl hlater haccount
        hopening
    · obtain ⟨c₂, m, record, joined, tokens, members, consents, now, haccepted, hissue⟩ :=
        commits_acceptDirectly haccept
      exact .session consent ⟨c.db, supply⟩ c₂ false c.db.users joined m record tokens members
        consents now session rfl hlater haccount haccepted hissue

/-- What a login does, on the present password of the account. -/
inductive LoginEffect (env : AuthEnv) (userId : Uuid) (password : String)
    (reqMeta : RequestMeta) (c c' : Connection) (user : User) : LoginResult → Prop
  | challenge (challenge : LoginMfaChallenge) (token : UserToken) (tokens : Table UserToken)
      (pending : Table PendingInviteAcceptance)
      (h : Opening env user.id .login c c' challenge token tokens pending) :
      LoginEffect env userId password reqMeta c c' user (.challenge challenge)
  | session (session : AuthSession)
      (h : Commits (issueSessionInTransaction env user.id reqMeta none) c session c') :
      LoginEffect env userId password reqMeta c c' user (.session session)

theorem commits_login {env : AuthEnv} {userId : Uuid} {password : String}
    {reqMeta : RequestMeta} {result : LoginResult} {c c' : Connection}
    (h : Commits (loginInTransaction env userId password reqMeta) c result c') :
    ∃ user, user.id = userId ∧ c.db.users.find? userId = some user ∧
      env.verify user.passwordHash password = true ∧
        LoginEffect env userId password reqMeta c c' user result := by
  unfold loginInTransaction at h
  simp only [commits_bind, commits_lockUserForAuth, commits_findUniqueOrThrow, commits_require,
    commits_ite, commits_pure, users_get] at h
  obtain ⟨_, _, ⟨-, rfl⟩, user, _, ⟨hfind, rfl⟩, _, _, ⟨hverify, rfl⟩, hcases⟩ := h
  refine ⟨user, (Table.find?_eq_some.mp hfind).2, hfind, hverify, ?_⟩
  rcases hcases with ⟨-, challenge, _, hopen, rfl, rfl⟩ | ⟨-, session, _, hissue, rfl, rfl⟩
  · obtain ⟨token, tokens, pending, hopening⟩ := commits_createLoginMfaChallenge hopen
    exact .challenge challenge token tokens pending hopening
  · exact .session session hissue

end Refearn.Auth
