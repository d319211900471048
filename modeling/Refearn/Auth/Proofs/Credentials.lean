import Refearn.Auth.Proofs.Joining
/-!
# What the other auth transactions commit

Completed challenges, one-time links, passwords, second factors and invites.
-/

namespace Refearn.Auth

open Support Support.Transaction

/-! ## Acceptance after the second factor -/

/-- What an acceptance after the second factor writes. -/
structure StagedAcceptance (env : AuthEnv) (pendingId : Uuid) (user : User) (now : Instant)
    (c c' : Connection) (locked : LockedInvite) (staged : PendingInviteAcceptance)
    (consent : InviteConsentSnapshot) (m : Membership) (record : InviteAcceptanceConsent)
    (accounts : Table User) (members : Table Membership)
    (consents : Table InviteAcceptanceConsent) : Prop where
  found : c.db.pendingInviteAcceptances.find? pendingId = some staged
  owner : staged.userId = user.id
  agreed : verifyStoredInviteConsentSnapshot env staged = some consent
  invite : c.db.invites.find? staged.inviteId = some locked.invite
  joined : Joined locked.invite.tenantId user.id locked.invite.id consent m record
  inserted : c.db.memberships.insert? m = some members
  recorded : c.db.inviteAcceptanceConsents.insert? record = some consents
  claimed : ∃ i ∈ c.db.invites, isClaimable locked.invite.id now i = true
  kept : Extends c.db.users accounts
  db : ∃ notes logs, c'.db =
    { c.db with
      users := accounts
      memberships := members
      invites := claimedInvites c.db.invites locked.invite.id m.id now
      pendingInviteAcceptances := c.db.pendingInviteAcceptances.updateKey staged.id
        (fun p => { p with completedAt := some now }) (keepsIndexes_pending_complete now)
      inviteAcceptanceConsents := consents
      notifications := notes
      auditLogs := logs }
  supply : Supply.Later c.supply c'.supply

theorem commits_completePendingInviteAcceptance {env : AuthEnv} {pendingId : Uuid} {user : User}
    {reqMeta : RequestMeta} {now : Instant} {c c' : Connection} {u : PUnit}
    (h : Commits (completePendingInviteAcceptance env pendingId user reqMeta now) c u c') :
    ∃ locked staged consent m record accounts members consents,
      StagedAcceptance env pendingId user now c c' locked staged consent m record accounts members
        consents := by
  unfold completePendingInviteAcceptance notifyInviter auditAcceptance at h
  -- the checks, in the order of the source
  obtain ⟨staged, _, hstaged, h⟩ := (commits_bind ..).mp h
  obtain ⟨hfind, rfl⟩ := (commits_findUniqueOrThrow ..).mp hstaged
  obtain ⟨_, _, howned, h⟩ := (commits_bind ..).mp h
  obtain ⟨⟨howner, -⟩, rfl⟩ := (commits_require ..).mp howned
  obtain ⟨tenantId, _, htenant, h⟩ := (commits_bind ..).mp h
  obtain ⟨-, rfl⟩ := (commits_orThrow ..).mp htenant
  obtain ⟨consent, _, hconsent, h⟩ := (commits_bind ..).mp h
  obtain ⟨hagreed, rfl⟩ := (commits_orThrow ..).mp hconsent
  obtain ⟨locked, _, hlocked, h⟩ := (commits_bind ..).mp h
  obtain ⟨hinvite, -, -, rfl⟩ := (commits_lockInvite ..).mp hlocked
  simp only [commits_bind, commits_require, commits_requireOpenBusiness,
    commits_requireNoMembership, commits_notify, commits_audit, commits_update,
    pendingInviteAcceptances_get, pendingInviteAcceptances_put] at h
  obtain ⟨_, _, ⟨-, rfl⟩, _, _, ⟨-, rfl⟩, _, _, ⟨-, rfl⟩, _, _, ⟨-, rfl⟩, _, _, ⟨-, rfl⟩, _, _,
    ⟨-, rfl⟩, m, _, hcreate, _, _, hconsume, _, _, hselect, _, _, rfl, _, _, rfl, -, rfl⟩ := h
  obtain ⟨record, members, consents, supply, hjoined, hinsert, hrecord, hlater, rfl⟩ :=
    commits_createUnderWithInviteConsent hcreate
  obtain ⟨hclaimed, rfl⟩ := commits_consumeInvite hconsume
  obtain ⟨accounts, hkept, rfl⟩ := commits_selectMembership hselect
  exact ⟨locked, staged, consent, m, record, accounts, members, consents, hfind, howner, hagreed,
    hinvite, hjoined, hinsert, hrecord, hclaimed, hkept, ⟨_, _, rfl⟩, hlater⟩

/-! ## Completed challenges -/

/-- The one-time tokens that a completed challenge claims. -/
def isClaimedToken (token : UserToken) (now : Instant) (t : UserToken) : Bool :=
  t.id == token.id && t.usedAt.isNone && decide (now < t.expiresAt)

def User.withRemainingCodes (remaining : Option (List String)) (u : User) : User :=
  match remaining with
  | none => u
  | some hashes => u.withRecoveryCodes hashes

theorem commits_storeRecoveryCodes {userId : Uuid} {remaining : Option (List String)}
    {c c' : Connection} {u : PUnit} (h : Commits (storeRecoveryCodes userId remaining) c u c') :
    ∃ accounts, Updates (User.withRemainingCodes remaining) userId c.db.users accounts ∧
      c' = ⟨{ c.db with users := accounts }, c.supply⟩ := by
  cases remaining with
  | none =>
      obtain ⟨-, rfl⟩ := (commits_pure ..).mp h
      refine ⟨c.db.users, fun id u hu => ⟨u, hu, ?_⟩, rfl⟩
      rw [show User.withRemainingCodes none u = u from rfl, ite_self]
  | some hashes =>
      obtain ⟨accounts, -, hupdates, rfl⟩ := commits_updateUser h
      exact ⟨accounts, hupdates, rfl⟩

/-- The staged acceptance of a challenge, where there is one. -/
inductive Staged (env : AuthEnv) (user : User) (now : Instant) (c c' : Connection) :
    Option Uuid → Prop
  | login (h : c = c') : Staged env user now c c' none
  | invite (pendingId : Uuid) (locked : LockedInvite) (staged : PendingInviteAcceptance)
      (consent : InviteConsentSnapshot) (m : Membership) (record : InviteAcceptanceConsent)
      (accounts : Table User) (members : Table Membership)
      (consents : Table InviteAcceptanceConsent)
      (h : StagedAcceptance env pendingId user now c c' locked staged consent m record accounts
        members consents) :
      Staged env user now c c' (some pendingId)

theorem commits_completeStaged {env : AuthEnv} {user : User} {reqMeta : RequestMeta}
    {now : Instant} {pendingId : Option Uuid} {c c' : Connection} {u : PUnit}
    (h : Commits (completeStaged env user reqMeta now pendingId) c u c') :
    Staged env user now c c' pendingId := by
  cases pendingId with
  | none => exact .login ((commits_pure ..).mp h).2
  | some pendingId =>
      obtain ⟨locked, staged, consent, m, record, accounts, members, consents, h⟩ :=
        commits_completePendingInviteAcceptance h
      exact .invite pendingId locked staged consent m record accounts members consents h

/-- What `completeLoginMfa` does, once it has its lock: `verified` is what the code has shown. -/
inductive CompletionEffect (env : AuthEnv) (challenge : OpenChallenge) (reqMeta : RequestMeta)
    (c c' : Connection) (user : User) (verified : MfaVerification) : MfaOutcome → Prop
  | failed (hrefused : verified.ok = false) (hdb : c'.db = c.db)
      (hsupply : Supply.Later c.supply c'.supply) :
      CompletionEffect env challenge reqMeta c c' user verified (.failed user.id)
  | session (haccepted : verified.ok = true) (now : Instant) (accounts : Table User)
      (c₁ c₂ : Connection) (session : AuthSession)
      (hnow : c.supply.clock ≤ now ∧ now ≤ c'.supply.clock)
      (hclaimed : ∃ t ∈ c.db.userTokens, isClaimedToken challenge.token now t = true)
      (hupdated : Updates (User.withRemainingCodes verified.nextRecoveryHashes) user.id
        c.db.users accounts)
      (hdb : c₁.db =
        { c.db with
          users := accounts
          userTokens := usedTokens c.db.userTokens (isClaimedToken challenge.token now) now })
      (hsupply : Supply.Later c.supply c₁.supply)
      (hstaged : Staged env user now c₁ c₂ challenge.pendingId)
      (h : Commits (issueSessionInTransaction env user.id reqMeta (some now)) c₂ session c') :
      CompletionEffect env challenge reqMeta c c' user verified (.session session)

theorem Staged.later {env : AuthEnv} {user : User} {now : Instant} {c c' : Connection}
    {pendingId : Option Uuid} (h : Staged env user now c c' pendingId) :
    Supply.Later c.supply c'.supply := by
  cases h with
  | login h => exact h ▸ .refl _
  | invite _ _ _ _ _ _ _ _ _ h => exact h.supply

theorem commits_completeLoginMfa {env : AuthEnv} {challenge : OpenChallenge} {code : String}
    {reqMeta : RequestMeta} {outcome : MfaOutcome} {c c' : Connection}
    (h : Commits (completeLoginMfaInTransaction env challenge code reqMeta) c outcome c') :
    ∃ user verified lockedAt checkedAt, user.id = challenge.token.userId ∧
      c.db.users.find? user.id = some user ∧ challenge.token.isOpenAt lockedAt = true ∧
        mfaVerification env user code true checkedAt = .ok verified ∧
          c.supply.clock ≤ lockedAt ∧ lockedAt ≤ c'.supply.clock ∧
            CompletionEffect env challenge reqMeta c c' user verified outcome := by
  unfold completeLoginMfaInTransaction verifyMfaCode at h
  simp only [commits_bind, commits_lockUserForAuth, commits_findUniqueOrThrow, commits_newDate,
    commits_require, commits_fromExcept, commits_ite, commits_useTokens, commits_pure,
    users_get] at h
  obtain ⟨_, _, ⟨-, rfl⟩, user, _, ⟨hfind, rfl⟩, lockedAt, _, ⟨rfl, rfl⟩, _, _, ⟨hopen, rfl⟩,
    verified, _, ⟨checkedAt, _, ⟨rfl, rfl⟩, hverified, rfl⟩, hcases⟩ := h
  have hid : user.id = challenge.token.userId := (Table.find?_eq_some.mp hfind).2
  rw [← hid] at hfind
  rcases hcases with ⟨haccepted, now, _, ⟨rfl, rfl⟩, _, _, ⟨rfl, rfl⟩, _, _, ⟨hclaimed, rfl⟩, _, _,
    hstore, _, _, hstaged, session, _, hissue, rfl, rfl⟩ | ⟨hrefused, rfl, rfl⟩
  · obtain ⟨accounts, hupdated, rfl⟩ := commits_storeRecoveryCodes hstore
    have hstaged := commits_completeStaged hstaged
    obtain ⟨_, _, _, _, hissuance⟩ := commits_issueSession hissue
    have hlast := hstaged.later.trans hissuance.supply
    have hfirst : Supply.Later c.supply c.supply.dropTick := .dropTick (.refl _)
    have hsecond : Supply.Later c.supply c.supply.dropTick.dropTick.dropTick :=
      .dropTick (.dropTick hfirst)
    refine ⟨user, verified, _, _, hid, hfind, hopen, hverified, hfirst.clock_le, ?_, ?_⟩
    · have hmid : Supply.Later c.supply.dropTick c.supply.dropTick.dropTick.dropTick :=
        .dropTick (.dropTick (.refl _))
      exact (hmid.trans hlast).clock_le
    · exact .session haccepted _ accounts _ _ session ⟨hsecond.clock_le, hlast.clock_le⟩
        (exists_mem_of_updated hclaimed) hupdated rfl hsecond hstaged hissue
  · have hlater : Supply.Later c.supply c.supply.dropTick := .dropTick (.refl _)
    rw [← hid]
    exact ⟨user, verified, _, _, rfl, hfind, hopen, hverified, hlater.clock_le,
      (Supply.Later.dropTick (.refl _)).clock_le,
      .failed (by simpa using hrefused) rfl (.dropTick hlater)⟩

/-! ## One-time links and passwords -/

/-- The one-time tokens that a link claims. -/
def isClaimedLink (token : UserToken) (purpose : UserTokenPurpose) (now : Instant)
    (t : UserToken) : Bool :=
  t.id == token.id && t.purpose == purpose && t.usedAt.isNone && decide (now < t.expiresAt)

/-- The rows that `verifyEmail` claims, which are also compared by their hash. -/
def isClaimedMail (token : UserToken) (tokenHash : String) (now : Instant) (t : UserToken) : Bool :=
  t.id == token.id && t.tokenHash == tokenHash && t.purpose == .emailVerify &&
    t.usedAt.isNone && decide (now < t.expiresAt)

theorem commits_verifyEmail {env : AuthEnv} {tokenRaw : String} {token : UserToken}
    {c c' : Connection} (h : Commits (verifyEmail env tokenRaw) c token c') :
    ∃ now verifiedAt accounts, (c.supply.clock ≤ now ∧ now ≤ c'.supply.clock) ∧
      c.db.userTokens.rows.find? (fun t => t.tokenHash == env.sha256 tokenRaw &&
        t.purpose == .emailVerify) = some token ∧
      (∃ t ∈ c.db.userTokens, isClaimedMail token (env.sha256 tokenRaw) now t = true) ∧
      Updates (User.withVerifiedEmail verifiedAt) token.userId c.db.users accounts ∧
      c'.db =
        { c.db with
          users := accounts
          userTokens := usedTokens c.db.userTokens
            (isClaimedMail token (env.sha256 tokenRaw) now) now } := by
  unfold verifyEmail consumeUserTokenInTransaction at h
  simp only [commits_bind, commits_readDb, commits_orThrow, commits_newDate, commits_useTokens,
    commits_require, commits_pure] at h
  obtain ⟨_, _, ⟨_, _, ⟨rfl, rfl⟩, found, _, ⟨hfind, rfl⟩, now, _, ⟨hnow, rfl⟩, n, _, ⟨rfl, rfl⟩, _,
    _, ⟨hone, rfl⟩, rfl, rfl⟩, verifiedAt, _, ⟨-, rfl⟩, _, _, hupdate, rfl, rfl⟩ := h
  obtain ⟨accounts, -, hupdates, rfl⟩ := commits_updateUser hupdate
  have hclaimed : (c.db.userTokens.rows.filter
      (isClaimedMail found (env.sha256 tokenRaw) now)).length = 1 := hone
  have hfirst : Supply.Later c.supply c.supply.dropTick := .dropTick (.refl _)
  have hsecond : Supply.Later c.supply.dropTick c.supply.dropTick.dropTick := .dropTick (.refl _)
  rw [← hnow] at hupdates hclaimed ⊢
  exact ⟨_, verifiedAt, accounts, ⟨hfirst.clock_le, hsecond.clock_le⟩, hfind,
    exists_mem_of_updated (by omega), hupdates, rfl⟩

theorem commits_requestPasswordReset {env : AuthEnv} {userId : Uuid} {c c' : Connection}
    {u : PUnit} (h : Commits (requestPasswordResetInTransaction env userId) c u c') :
    ∃ usedAt token tokens notes, token.userId = userId ∧ token.purpose = .passwordReset ∧
      token.usedAt = none ∧
      (usedTokens c.db.userTokens (isUnusedOf userId .passwordReset) usedAt).insert? token =
        some tokens ∧
      c'.db = { c.db with userTokens := tokens, notifications := notes } ∧
      Supply.Later c.supply c'.supply := by
  unfold requestPasswordResetInTransaction at h
  simp only [commits_bind, commits_randomText, commits_lockUserForAuth, commits_newDate,
    commits_useTokens, commits_create, commits_notify, userTokens_get, userTokens_put] at h
  obtain ⟨raw, _, ⟨rfl, rfl⟩, _, _, ⟨-, rfl⟩, usedAt, _, ⟨-, rfl⟩, _, _, ⟨-, rfl⟩, now, _,
    ⟨-, rfl⟩, token, _, ⟨tokens, hinsert, rfl, rfl⟩, nonce, _, ⟨rfl, rfl⟩, rfl⟩ := h
  refine ⟨usedAt, _, tokens, _, ?_, ?_, ?_, hinsert, rfl, ?_⟩
  · rfl
  · rfl
  · rfl
  · exact .dropText (.dropUuid (.dropTick (.dropTick (.dropText (.refl _)))))

theorem commits_confirmPasswordReset {env : AuthEnv} {token : UserToken} {newPassword : String}
    {c c' : Connection} {u : PUnit}
    (h : Commits (confirmPasswordResetInTransaction env token newPassword) c u c') :
    ∃ now salt c₁ accounts,
      (c.supply.clock ≤ now ∧ now ≤ c'.supply.clock) ∧
      (∃ t ∈ c.db.userTokens, isClaimedLink token .passwordReset now t = true) ∧
      c₁.db = { c.db with
        userTokens := usedTokens c.db.userTokens (isClaimedLink token .passwordReset now) now } ∧
      Revocation (User.withReset (env.hash salt newPassword)) token.userId c₁ c' now accounts := by
  unfold confirmPasswordResetInTransaction at h
  simp only [commits_bind, commits_randomText, commits_lockUserForAuth, commits_newDate,
    commits_useTokens, commits_require, commits_pure] at h
  obtain ⟨salt, _, ⟨-, rfl⟩, _, _, ⟨-, rfl⟩, now, _, ⟨rfl, rfl⟩, _, _, ⟨rfl, rfl⟩, _, _,
    ⟨hclaimed, rfl⟩, _, _, hupdate, _, _, hrevoke, -, rfl⟩ := h
  obtain ⟨accounts, hfound, hupdates, rfl⟩ := commits_updateUser hupdate
  have hc := commits_revokeRefreshTokens hrevoke
  subst hc
  have hlater : Supply.Later c.supply c.supply.dropText.dropTick :=
    .dropTick (.dropText (.refl _))
  exact ⟨_, salt, _, accounts, ⟨hlater.clock_le, le_refl _⟩, exists_mem_of_updated hclaimed, rfl,
    hfound, hupdates, rfl, .refl _⟩

theorem commits_storePassword {env : AuthEnv} {userId : Uuid} {newPassword : String}
    {revokedAt : Instant} {c c' : Connection} {u : PUnit}
    (h : Commits (storePassword env userId newPassword revokedAt) c u c') :
    ∃ salt accounts, Revocation (User.withPassword (env.hash salt newPassword)) userId c c'
      revokedAt accounts := by
  unfold storePassword at h
  simp only [commits_bind, commits_randomText, commits_pure] at h
  obtain ⟨salt, _, ⟨-, rfl⟩, _, _, hupdate, _, _, hrevoke, -, rfl⟩ := h
  obtain ⟨accounts, hfound, hupdates, rfl⟩ := commits_updateUser hupdate
  have hc := commits_revokeRefreshTokens hrevoke
  subst hc
  exact ⟨salt, accounts, hfound, hupdates, rfl, .dropText (.refl _)⟩

/-! ## Second factors -/

theorem commits_generateTotpSecret {secret : String} {c c' : Connection}
    (h : Commits generateTotpSecret c secret c') :
    secret = String.ofList (base32Encode ((List.range 20).map c.supply.bytes)) ∧
      c' = ⟨c.db, c.supply.dropBytes 20⟩ := by
  unfold generateTotpSecret at h
  simp only [commits_bind, commits_randomBytes, commits_pure] at h
  obtain ⟨bytes, _, ⟨rfl, rfl⟩, rfl, rfl⟩ := h
  exact ⟨rfl, rfl⟩

theorem commits_storeTotpSecret {userId : Uuid} {secret : String} {c c' : Connection}
    (h : Commits (storeTotpSecret userId) c secret c') :
    ∃ accounts, Updates (User.withTotpSecret secret) userId c.db.users accounts ∧
      c'.db = { c.db with users := accounts } ∧ Supply.Later c.supply c'.supply := by
  unfold storeTotpSecret at h
  simp only [commits_bind, commits_pure] at h
  obtain ⟨_, _, hsecret, _, _, hupdate, rfl, rfl⟩ := h
  obtain ⟨-, rfl⟩ := commits_generateTotpSecret hsecret
  obtain ⟨accounts, -, hupdates, rfl⟩ := commits_updateUser hupdate
  exact ⟨accounts, hupdates, rfl, .dropBytes (.refl _) 20⟩

/-- A list of draws leaves the database as it was. -/
theorem commits_mapM_draws {α β : Type} {f : α → AuthTx β}
    (hf : ∀ a b c c', Commits (f a) c b c' → c'.db = c.db ∧ Supply.Later c.supply c'.supply)
    {as : List α} {bs : List β} {c c' : Connection} (h : Commits (as.mapM f) c bs c') :
    c'.db = c.db ∧ Supply.Later c.supply c'.supply := by
  induction as generalizing bs c with
  | nil =>
      rw [List.mapM_nil] at h
      obtain ⟨-, rfl⟩ := (commits_pure ..).mp h
      exact ⟨rfl, .refl _⟩
  | cons a as ih =>
      rw [List.mapM_cons] at h
      simp only [commits_bind, commits_pure] at h
      obtain ⟨b, c₁, hfirst, rest, _, hrest, -, rfl⟩ := h
      obtain ⟨hdb, hlater⟩ := hf _ _ _ _ hfirst
      obtain ⟨hdb', hlater'⟩ := ih hrest
      exact ⟨hdb'.trans hdb, hlater.trans hlater'⟩

theorem commits_generateRecoveryCodes {codes : List String} {c c' : Connection}
    (h : Commits generateRecoveryCodes c codes c') :
    c'.db = c.db ∧ Supply.Later c.supply c'.supply := by
  refine commits_mapM_draws (fun _ code d d' h => ?_) h
  unfold generateRecoveryCode at h
  simp only [commits_bind, commits_randomBytes, commits_pure] at h
  obtain ⟨bytes, _, ⟨-, rfl⟩, -, rfl⟩ := h
  exact ⟨rfl, .dropBytes (.refl _) 5⟩

theorem commits_enableMfa {env : AuthEnv} {userId : Uuid} {code : String} {codes : List String}
    {c c' : Connection} (h : Commits (enableMfa env userId code) c codes c') :
    ∃ user secret checkedAt now accounts, c.db.users.find? userId = some user ∧
      user.totpSecret = some secret ∧ verifyTotp env secret code checkedAt = .ok true ∧
        Revocation (User.withMfa now (codes.map (hashRecoveryCode env))) userId c c' now
          accounts := by
  unfold enableMfa at h
  simp only [commits_bind, commits_lockUserForAuth, commits_findUniqueOrThrow, commits_orThrow,
    commits_newDate, commits_fromExcept, commits_require, commits_pure, users_get] at h
  obtain ⟨_, _, ⟨hfound, rfl⟩, user, _, ⟨hfind, rfl⟩, secret, _, ⟨hsecret, rfl⟩, checkedAt, _,
    ⟨-, rfl⟩, _, _, ⟨hvalid, rfl⟩, _, _, ⟨rfl, rfl⟩, _, c₁, hcodes, now, _, ⟨-, rfl⟩, _, _,
    hupdate, _, _, hrevoke, rfl, rfl⟩ := h
  obtain ⟨hdb, hlater⟩ := commits_generateRecoveryCodes hcodes
  obtain ⟨accounts, -, hupdates, rfl⟩ := commits_updateUser hupdate
  have hc := commits_revokeRefreshTokens hrevoke
  subst hc
  simp only [hdb] at hupdates ⊢
  exact ⟨user, secret, checkedAt, now, accounts, hfind, (Option.filter_eq_some_iff.mp hsecret).1,
    hvalid, hfound, hupdates, rfl, .dropTick (.trans (.dropTick (.refl _)) hlater)⟩

theorem commits_disableMfa {env : AuthEnv} {userId : Uuid} {code : String} {c c' : Connection}
    {u : PUnit} (h : Commits (disableMfa env userId code) c u c') :
    ∃ user checkedAt verified now accounts, c.db.users.find? userId = some user ∧
      user.totpEnabledAt.isSome = true ∧
        mfaVerification env user code false checkedAt = .ok verified ∧ verified.ok = true ∧
          Revocation User.withoutMfa userId c c' now accounts := by
  unfold disableMfa verifyMfaCode at h
  simp only [commits_bind, commits_lockUserForAuth, commits_findUniqueOrThrow, commits_newDate,
    commits_fromExcept, commits_require, commits_pure, users_get] at h
  obtain ⟨_, _, ⟨hfound, rfl⟩, user, _, ⟨hfind, rfl⟩, _, _, ⟨henabled, rfl⟩, verified, _,
    ⟨checkedAt, _, ⟨-, rfl⟩, hverified, rfl⟩, _, _, ⟨hok, rfl⟩, now, _, ⟨-, rfl⟩, _, _, hupdate, _,
    _, hrevoke, -, rfl⟩ := h
  obtain ⟨accounts, -, hupdates, rfl⟩ := commits_updateUser hupdate
  have hc := commits_revokeRefreshTokens hrevoke
  subst hc
  exact ⟨user, checkedAt, verified, now, accounts, hfind, henabled, hverified, hok, hfound,
    hupdates, rfl, .dropTick (.dropTick (.refl _))⟩

/-! ## Invites -/

/-- The invites of an inviter after the stale ones have been marked. -/
def expiredInvites (table : Table Invite) (inviterId : Uuid) (now : Instant) : Table Invite :=
  table.updateWhere (isStaleInviteOf inviterId now) (Invite.withStatus .expired)
    (Invite.keepsIndexes_withStatus .expired)

/-- The invites are as before, or one more has been issued. -/
def Issued (table table' : Table Invite) : Prop :=
  table' = table ∨ ∃ i, i.status = .active ∧ i.usedByMembershipId = none ∧
    table.insert? i = some table'

theorem commits_replayedInvite {existing : Invite} {email : Option String}
    {issued : IssuedInvite} {c c' : Connection}
    (h : Commits (replayedInvite existing email) c issued c') : c = c' := by
  unfold replayedInvite at h
  simp only [commits_bind, commits_require, commits_pure] at h
  obtain ⟨_, _, ⟨-, rfl⟩, -, rfl⟩ := h
  rfl

theorem commits_insertInvite {inviter : Membership} {email keyHash : Option String}
    {now : Instant} {attempts : Nat} {issued : IssuedInvite} {c c' : Connection}
    (h : Commits (insertInvite inviter email keyHash now attempts) c issued c') :
    ∃ table, Issued c.db.invites table ∧ c'.db = { c.db with invites := table } := by
  induction attempts generalizing c with
  | zero => exact absurd h (commits_throw _ _ _ _)
  | succ attempts ih =>
      unfold insertInvite randomCode at h
      simp only [commits_bind, commits_randomBytes, commits_newDate, commits_genUuid,
        commits_insertUnlessConflict, commits_pure, invites_get, invites_put, commits_ite] at h
      obtain ⟨code, _, ⟨bytes, _, ⟨-, rfl⟩, -, rfl⟩, createdAt, _, ⟨-, rfl⟩, id, _, ⟨-, rfl⟩,
        inserted, c₁, hinserted, hcases⟩ := h
      rcases hinserted with ⟨table, hinsert, rfl, rfl⟩ | ⟨-, rfl, rfl⟩
      · rcases hcases with ⟨-, -, rfl⟩ | ⟨hfalse, -⟩
        · refine ⟨table, .inr ⟨_, ?_, ?_, hinsert⟩, rfl⟩
          · rfl
          · rfl
        · exact absurd rfl hfalse
      · rcases hcases with ⟨hfalse, -⟩ | ⟨-, db, _, hread, hretry⟩
        · cases hfalse
        · obtain ⟨rfl, rfl⟩ := (commits_readDb ..).mp hread
          split at hretry
          · have hc := commits_replayedInvite hretry
            subst hc
            exact ⟨c.db.invites, .inl rfl, rfl⟩
          · obtain ⟨table, hissued, hdb⟩ := ih hretry
            exact ⟨table, hissued, hdb⟩

theorem commits_issue {env : AuthEnv} {input : IssueInput} {issued : IssuedInvite}
    {c c' : Connection} (h : Commits (issue env input) c issued c') :
    ∃ inviterId now table, Issued (expiredInvites c.db.invites inviterId now) table ∧
      c'.db = { c.db with invites := table } := by
  unfold issue at h
  simp only [commits_bind, commits_readDb, commits_orThrow, commits_require, commits_newDate,
    commits_updateMany, invites_get, invites_put] at h
  obtain ⟨_, _, ⟨rfl, rfl⟩, inviter, _, ⟨-, rfl⟩, tenant, _, ⟨-, rfl⟩, _, _, ⟨-, rfl⟩, _, _,
    ⟨-, rfl⟩, now, _, ⟨-, rfl⟩, _, _, ⟨-, rfl⟩, _, _, ⟨rfl, rfl⟩, hcases⟩ := h
  refine ⟨inviter.id, now, ?_⟩
  split at hcases
  · have hc := commits_replayedInvite hcases
    subst hc
    exact ⟨_, .inl rfl, rfl⟩
  · simp only [commits_bind, commits_fromExcept] at hcases
    obtain ⟨_, _, ⟨-, rfl⟩, hinsert⟩ := hcases
    exact commits_insertInvite hinsert

theorem commits_markExpired {inviteId : Uuid} {c c' : Connection} {u : PUnit}
    (h : Commits (markExpired inviteId) c u c') :
    c' = ⟨{ c.db with
      invites := c.db.invites.updateKey inviteId (Invite.withStatus .expired)
        (Invite.keepsIndexes_withStatus .expired) }, c.supply⟩ := by
  unfold markExpired at h
  simp only [commits_update, invites_get, invites_put] at h
  exact h.2.symm

end Refearn.Auth
