import Refearn.Auth.Proofs.Generations
/-!
# What a call does to accounts and one-time tokens

How a committed call rewrites an account, and which one-time tokens it issues or uses. A
token that has been used is never touched again.
-/

namespace Refearn.Auth

open Support Support.Transaction

/-! ## Accounts -/

/-- How a call rewrites the account of `userId`. -/
inductive Rewrites (env : AuthEnv) : AuthCall → Uuid → (User → User) → Prop
  | refresh (token : RefreshToken) (reqMeta : RequestMeta) :
      Rewrites env (.refresh token reqMeta) token.userId User.withNextGeneration
  | logout (token : RefreshToken) :
      Rewrites env (.logout token) token.userId User.withNextGeneration
  | revokeSession (userId sessionId : Uuid) :
      Rewrites env (.revokeSession userId sessionId) userId User.withNextGeneration
  | revokeAllSessions (userId : Uuid) :
      Rewrites env (.revokeAllSessions userId) userId User.withNextGeneration
  | completeLoginMfa (challenge : OpenChallenge) (code : String) (reqMeta : RequestMeta)
      (remaining : Option (List String)) :
      Rewrites env (.completeLoginMfa challenge code reqMeta) challenge.token.userId
        (User.withRemainingCodes remaining)
  | setupMfa (userId : Uuid) (secret : String) :
      Rewrites env (.setupMfa userId) userId (User.withTotpSecret secret)
  | enableMfa (userId : Uuid) (code : String) (now : Instant) (hashes : List String) :
      Rewrites env (.enableMfa userId code) userId (User.withMfa now hashes)
  | disableMfa (userId : Uuid) (code : String) :
      Rewrites env (.disableMfa userId code) userId User.withoutMfa
  | verifyEmail (tokenRaw : String) (userId : Uuid) (now : Instant) :
      Rewrites env (.verifyEmail tokenRaw) userId (User.withVerifiedEmail now)
  | confirmPasswordReset (token : UserToken) (newPassword salt : String) :
      Rewrites env (.confirmPasswordReset token newPassword) token.userId
        (User.withReset (env.hash salt newPassword))
  | changePassword (userId : Uuid) (newPassword : String) (revokedAt : Instant) (salt : String) :
      Rewrites env (.changePassword userId newPassword revokedAt) userId
        (User.withPassword (env.hash salt newPassword))

/-- Accounts are kept, up to what a call rewrites in one of them. -/
inductive AccountEffect (env : AuthEnv) (call : AuthCall) (users users' : Table User) : Prop
  | kept (h : Extends users users')
  | updated (userId : Uuid) (f : User → User) (hf : Rewrites env call userId f)
      (h : Updates f userId users users')

theorem extends_issueSession {env : AuthEnv} {userId : Uuid} {reqMeta : RequestMeta}
    {mfaVerifiedAt : Option Instant} {session : AuthSession} {c c' : Connection}
    (h : Commits (issueSessionInTransaction env userId reqMeta mfaVerifiedAt) c session c') :
    Extends c.db.users c'.db.users := by
  obtain ⟨user, row, accounts, tokens, hissue⟩ := commits_issueSession h
  rw [hissue.db]
  exact hissue.kept

theorem extends_login {env : AuthEnv} {userId : Uuid} {password : String}
    {reqMeta : RequestMeta} {result : LoginResult} {c c' : Connection} {user : User}
    (h : LoginEffect env userId password reqMeta c c' user result) :
    Extends c.db.users c'.db.users := by
  cases h with
  | challenge challenge token tokens pending h =>
      rw [h.db]
      exact .refl _
  | session session h => exact extends_issueSession h

theorem extends_register {env : AuthEnv} {registration : Registration} {reqMeta : RequestMeta}
    {result : LoginResult} {c c' : Connection} {locked : LockedInvite} {user : User}
    (h : RegisterEffect env registration reqMeta c c' locked user result) :
    Extends c.db.users c'.db.users := by
  cases h with
  | challenge consent c₁ challenge token tokens pending hdb hsupply haccount h =>
      rw [h.db, hdb]
      exact .refl _
  | session consent c₁ c₂ isNewUser accounts joined m record userTokens members consents now
      session hdb hsupply haccount haccepted h =>
      obtain ⟨notes, logs, hdb'⟩ := haccepted.db
      have hnew : Extends c.db.users accounts := by
        cases haccount with
        | existing => exact .refl _
        | new _ _ hinserted => exact extends_insert? hinserted
      have hjoined := haccepted.kept
      have hissue := extends_issueSession h
      rw [hdb] at hjoined
      rw [hdb'] at hissue
      exact hnew.trans (hjoined.trans hissue)

theorem accountEffect_refresh {env : AuthEnv} {token : RefreshToken} {reqMeta : RequestMeta}
    {outcome : RefreshOutcome} {c c' : Connection} (h : RefreshEffect env token c c' outcome) :
    AccountEffect env (.refresh token reqMeta) c.db.users c'.db.users := by
  cases h with
  | reuse hrevoked now accounts h =>
      refine .updated _ _ (.refresh token reqMeta) ?_
      rw [h.db]
      exact h.updated
  | expired hlive hdb hsupply =>
      rw [hdb]
      exact .kept (.refl _)
  | rotated hlive session user row accounts tokens hcurrent h =>
      obtain ⟨now, hdb⟩ := h.db
      rw [hdb]
      exact .kept h.kept
  | invalid hlive user hfound hstale now hdb hsupply =>
      rw [hdb]
      exact .kept (.refl _)

theorem accountEffect_completeLoginMfa {env : AuthEnv} {challenge : OpenChallenge}
    {code : String} {reqMeta : RequestMeta} {outcome : MfaOutcome} {c c' : Connection}
    {user : User} {verified : MfaVerification} (hid : user.id = challenge.token.userId)
    (h : CompletionEffect env challenge reqMeta c c' user verified outcome) :
    AccountEffect env (.completeLoginMfa challenge code reqMeta) c.db.users c'.db.users := by
  cases h with
  | failed hrefused hdb hsupply =>
      rw [hdb]
      exact .kept (.refl _)
  | session haccepted now accounts c₁ c₂ session hnow hclaimed hupdated hdb hsupply hstaged h =>
      have hstored := hstaged.users
      rw [hdb] at hstored
      rw [hid] at hupdated
      exact .updated _ _ (.completeLoginMfa challenge code reqMeta _)
        (hupdated.trans (hstored.trans (extends_issueSession h)))

theorem Revocation.accountEffect {env : AuthEnv} {call : AuthCall} {f : User → User}
    {userId : Uuid} {c c' : Connection} {now : Instant} {accounts : Table User}
    (h : Revocation f userId c c' now accounts) (hf : Rewrites env call userId f) :
    AccountEffect env call c.db.users c'.db.users := by
  refine .updated userId f hf ?_
  rw [h.db]
  exact h.updated

theorem perform_accountEffect {env : AuthEnv} {call : AuthCall}
    {answer : Except AuthError Answer} {c c' : Connection}
    (h : Commits (perform env call) c answer c') :
    AccountEffect env call c.db.users c'.db.users := by
  cases call with
  | openRegistration input reqMeta =>
      obtain ⟨-, rfl⟩ := (commits_pure ..).mp h
      exact .kept (.refl _)
  | login userId password reqMeta =>
      obtain ⟨result, hlogin, -⟩ := commits_answering h
      obtain ⟨user, -, -, -, heffect⟩ := commits_login hlogin
      exact .kept (extends_login heffect)
  | register registration reqMeta =>
      obtain ⟨result, hregister, -⟩ := commits_answering h
      obtain ⟨locked, user, -, -, heffect⟩ := commits_register hregister
      exact .kept (extends_register heffect)
  | expireInvite inviteId =>
      obtain ⟨_, hmark, -⟩ := commits_answering h
      have hc := commits_markExpired hmark
      subst hc
      exact .kept (.refl _)
  | completeLoginMfa challenge code reqMeta =>
      obtain ⟨outcome, hcomplete, -⟩ := commits_answering h
      obtain ⟨user, verified, _, _, hid, -, -, -, -, -, heffect⟩ :=
        commits_completeLoginMfa hcomplete
      exact accountEffect_completeLoginMfa hid heffect
  | refresh token reqMeta =>
      obtain ⟨outcome, hrefresh, -⟩ := commits_answering h
      exact accountEffect_refresh (commits_refresh hrefresh)
  | logout token =>
      obtain ⟨_, hlogout, -⟩ := commits_answering h
      obtain ⟨now, accounts, hrevocation⟩ := commits_logout hlogout
      exact hrevocation.accountEffect (.logout token)
  | revokeSession userId sessionId =>
      obtain ⟨_, hrevoke, -⟩ := commits_answering h
      obtain ⟨now, accounts, hrevocation⟩ := commits_revokeSession hrevoke
      exact hrevocation.accountEffect (.revokeSession userId sessionId)
  | revokeAllSessions userId =>
      obtain ⟨_, hrevoke, -⟩ := commits_answering h
      obtain ⟨now, accounts, hrevocation⟩ := commits_revokeAllSessions hrevoke
      exact hrevocation.accountEffect (.revokeAllSessions userId)
  | setupMfa userId =>
      obtain ⟨secret, hsetup, -⟩ := commits_answering h
      obtain ⟨accounts, hupdated, hdb, -⟩ := commits_storeTotpSecret hsetup
      refine .updated _ _ (.setupMfa userId secret) ?_
      rw [hdb]
      exact hupdated
  | enableMfa userId code =>
      obtain ⟨codes, henable, -⟩ := commits_answering h
      obtain ⟨user, secret, _, now, accounts, -, -, -, hrevocation⟩ := commits_enableMfa henable
      exact hrevocation.accountEffect (.enableMfa userId code now _)
  | disableMfa userId code =>
      obtain ⟨_, hdisable, -⟩ := commits_answering h
      obtain ⟨user, _, verified, now, accounts, -, -, -, -, hrevocation⟩ :=
        commits_disableMfa hdisable
      exact hrevocation.accountEffect (.disableMfa userId code)
  | verifyEmail tokenRaw =>
      obtain ⟨token, hverify, -⟩ := commits_answering h
      obtain ⟨now, verifiedAt, accounts, -, -, -, hupdated, hdb⟩ := commits_verifyEmail hverify
      refine .updated _ _ (.verifyEmail tokenRaw token.userId verifiedAt) ?_
      rw [hdb]
      exact hupdated
  | requestPasswordReset userId =>
      obtain ⟨_, hrequest, -⟩ := commits_answering h
      obtain ⟨usedAt, token, tokens, notes, -, -, -, -, hdb, -⟩ :=
        commits_requestPasswordReset hrequest
      rw [hdb]
      exact .kept (.refl _)
  | confirmPasswordReset token newPassword =>
      obtain ⟨_, hconfirm, -⟩ := commits_answering h
      obtain ⟨now, salt, c₁, accounts, -, -, hdb, hrevocation⟩ :=
        commits_confirmPasswordReset hconfirm
      have heffect := hrevocation.accountEffect (.confirmPasswordReset token newPassword salt)
      rw [hdb] at heffect
      exact heffect
  | changePassword userId newPassword revokedAt =>
      obtain ⟨_, hstore, -⟩ := commits_answering h
      obtain ⟨salt, accounts, hrevocation⟩ := commits_storePassword hstore
      exact hrevocation.accountEffect (.changePassword userId newPassword revokedAt salt)
  | issueInvite input =>
      obtain ⟨issued, hissue, -⟩ := commits_answering h
      obtain ⟨inviterId, now, table, -, hdb⟩ := commits_issue hissue
      rw [hdb]
      exact .kept (.refl _)

/-! ## What of an account a call leaves alone -/

/-- The user whose password a call replaces. -/
def AuthCall.changesPassword : AuthCall → Option Uuid
  | .confirmPasswordReset token _ => token.userId
  | .changePassword userId _ _ => userId
  | _ => none

/-- The user whose recovery codes a call may change. -/
def AuthCall.changesCodes : AuthCall → Option Uuid
  | .completeLoginMfa challenge _ _ => challenge.token.userId
  | .enableMfa userId _ => userId
  | .disableMfa userId _ => userId
  | _ => none

theorem AccountEffect.passwordHash {env : AuthEnv} {call : AuthCall} {users users' : Table User}
    (h : AccountEffect env call users users') {id : Uuid} {u : User}
    (hu : users.find? id = some u) (hid : call.changesPassword ≠ some id) :
    ∃ u', users'.find? id = some u' ∧ u'.passwordHash = u.passwordHash := by
  cases h with
  | kept h => exact h.observe User.passwordHash (fun _ => rfl) hu
  | updated userId f hf h =>
      obtain ⟨u', hu', heq⟩ := h.observe User.passwordHash (fun _ => rfl) hu
      refine ⟨u', hu', heq.trans ?_⟩
      cases hf with
      | confirmPasswordReset token newPassword salt =>
          rw [if_neg fun heq => hid (by rw [heq]; rfl)]
      | changePassword userId newPassword revokedAt salt =>
          rw [if_neg fun heq => hid (by rw [heq]; rfl)]
      | completeLoginMfa challenge code reqMeta remaining =>
          rw [show (u.withRemainingCodes remaining).passwordHash = u.passwordHash by
            cases remaining <;> rfl, ite_self]
      | _ => exact ite_self _

theorem AccountEffect.recoveryCodes {env : AuthEnv} {call : AuthCall} {users users' : Table User}
    (h : AccountEffect env call users users') {id : Uuid} {u : User}
    (hu : users.find? id = some u) (hid : call.changesCodes ≠ some id) :
    ∃ u', users'.find? id = some u' ∧ u'.mfaRecoveryCodes = u.mfaRecoveryCodes := by
  cases h with
  | kept h => exact h.observe User.mfaRecoveryCodes (fun _ => rfl) hu
  | updated userId f hf h =>
      obtain ⟨u', hu', heq⟩ := h.observe User.mfaRecoveryCodes (fun _ => rfl) hu
      refine ⟨u', hu', heq.trans ?_⟩
      cases hf with
      | completeLoginMfa challenge code reqMeta remaining =>
          rw [if_neg fun heq => hid (by rw [heq]; rfl)]
      | enableMfa userId code now hashes => rw [if_neg fun heq => hid (by rw [heq]; rfl)]
      | disableMfa userId code => rw [if_neg fun heq => hid (by rw [heq]; rfl)]
      | _ => exact ite_self _

/-! ## One-time tokens -/

/-- The tokens `p` are unused. -/
def OnlyUnused (p : UserToken → Bool) : Prop := ∀ t, p t = true → t.usedAt = none

theorem onlyUnused_isUnusedOf (userId : Uuid) (purpose : UserTokenPurpose) :
    OnlyUnused (isUnusedOf userId purpose) := by
  intro t ht
  unfold isUnusedOf at ht
  simp only [Bool.and_eq_true, Option.isNone_iff_eq_none] at ht
  exact ht.2

/-- `token` is used at `now`: it was unused and had not expired. -/
structure Consumes (token : UserToken) (now : Instant) (p : UserToken → Bool) : Prop where
  unused : OnlyUnused p
  id_eq : ∀ t, p t = true → t.id = token.id
  unexpired : ∀ t, p t = true → now < t.expiresAt

theorem consumes_isClaimedToken (token : UserToken) (now : Instant) :
    Consumes token now (isClaimedToken token now) := by
  constructor <;>
  · intro t ht
    unfold isClaimedToken at ht
    simp only [Bool.and_eq_true, beq_iff_eq, Option.isNone_iff_eq_none, decide_eq_true_eq] at ht
    first
    | exact ht.1.2
    | exact ht.1.1
    | exact ht.2

theorem consumes_isClaimedLink (token : UserToken) (purpose : UserTokenPurpose) (now : Instant) :
    Consumes token now (isClaimedLink token purpose now) := by
  constructor <;>
  · intro t ht
    unfold isClaimedLink at ht
    simp only [Bool.and_eq_true, beq_iff_eq, Option.isNone_iff_eq_none, decide_eq_true_eq] at ht
    first
    | exact ht.1.2
    | exact ht.1.1.1
    | exact ht.2

theorem consumes_isClaimedMail (token : UserToken) (tokenHash : String) (now : Instant) :
    Consumes token now (isClaimedMail token tokenHash now) := by
  constructor <;>
  · intro t ht
    unfold isClaimedMail at ht
    simp only [Bool.and_eq_true, beq_iff_eq, Option.isNone_iff_eq_none, decide_eq_true_eq] at ht
    first
    | exact ht.1.2
    | exact ht.1.1.1.1
    | exact ht.2

/-- What a committed call has done to the one-time tokens. -/
inductive TokenEffect (env : AuthEnv) (call : AuthCall) (c c' : Connection) :
    Except AuthError Answer → Prop
  | kept {answer : Except AuthError Answer} (hproven : provenBy env c'.db call answer = [])
      (hconsumed : consumedBy env c.db call answer = [])
      (htokens : c'.db.userTokens = c.db.userTokens) : TokenEffect env call c c' answer
  | asked {answer : Except AuthError Answer} (hproven : provenBy env c'.db call answer = [])
      (hconsumed : consumedBy env c.db call answer = []) (token : UserToken)
      (p : UserToken → Bool) (now : Instant) (hp : OnlyUnused p)
      (hpurpose : token.purpose ≠ .loginOtp) (hunused : token.usedAt = none)
      (hinserted : (usedTokens c.db.userTokens p now).insert? token = some c'.db.userTokens) :
      TokenEffect env call c c' answer
  | opened (challenge : LoginMfaChallenge)
      (hconsumed : consumedBy env c.db call (.ok (.challenge challenge)) = []) (token : UserToken)
      (now : Instant) (hcall : call.lockedUser = some token.userId)
      (hfound : ∃ u, c'.db.users.find? token.userId = some u) (hpurpose : token.purpose = .loginOtp)
      (hhash : token.tokenHash = env.sha256 challenge.challengeToken)
      (hunused : token.usedAt = none)
      (hinserted : (usedTokens c.db.userTokens (isUnusedOf token.userId .loginOtp) now).insert?
        token = some c'.db.userTokens) :
      TokenEffect env call c c' (.ok (.challenge challenge))
  | consumed {answer : Except AuthError Answer} (hproven : provenBy env c'.db call answer = [])
      (token : UserToken) (hconsumed : consumedBy env c.db call answer = [token.id])
      (p : UserToken → Bool) (now : Instant)
      (hnow : c.supply.clock ≤ now ∧ now ≤ c'.supply.clock) (hp : Consumes token now p)
      (hclaimed : ∃ t ∈ c.db.userTokens, p t = true)
      (htokens : c'.db.userTokens = usedTokens c.db.userTokens p now) :
      TokenEffect env call c c' answer

theorem usedTokens_none (tokens : Table UserToken) (now : Instant) :
    usedTokens tokens (fun _ => false) now = tokens := by
  refine Table.ext ?_
  unfold usedTokens
  rw [Table.rows_updateWhere]
  exact List.map_id tokens.rows

theorem issueSession_userTokens {env : AuthEnv} {userId : Uuid} {reqMeta : RequestMeta}
    {mfaVerifiedAt : Option Instant} {session : AuthSession} {c c' : Connection}
    (h : Commits (issueSessionInTransaction env userId reqMeta mfaVerifiedAt) c session c') :
    c'.db.userTokens = c.db.userTokens := by
  obtain ⟨user, row, accounts, tokens, hissue⟩ := commits_issueSession h
  rw [hissue.db]

theorem Staged.userTokens {env : AuthEnv} {user : User} {now : Instant} {c c' : Connection}
    {pendingId : Option Uuid} (h : Staged env user now c c' pendingId) :
    c'.db.userTokens = c.db.userTokens := by
  cases h with
  | login h => rw [h]
  | invite _ _ _ _ _ _ _ _ _ h =>
      obtain ⟨notes, logs, hdb⟩ := h.db
      rw [hdb]

theorem tokenEffect_challenge {env : AuthEnv} {call : AuthCall} {userId : Uuid}
    {context : LoginMfaContext} {challenge : LoginMfaChallenge} {token : UserToken}
    {tokens : Table UserToken} {pending : Table PendingInviteAcceptance} {c c₁ c' : Connection}
    (hcall : call.lockedUser = some userId) {u : User} (hu : c.db.users.find? userId = some u)
    (hconsumed : consumedBy env c.db call (.ok (.challenge challenge)) = [])
    (hdb : c₁.db = c.db) (h : Opening env userId context c₁ c' challenge token tokens pending) :
    TokenEffect env call c c' (.ok (.challenge challenge)) := by
  obtain ⟨now, hinserted⟩ := h.inserted
  have howner := h.owner
  subst howner
  refine .opened challenge hconsumed token now hcall ⟨u, ?_⟩ h.purpose h.tokenHash h.usedAt ?_
  · rw [h.db, hdb]
    exact hu
  · rw [h.db, ← hdb]
    exact hinserted

theorem tokenEffect_login {env : AuthEnv} {userId : Uuid} {password : String}
    {reqMeta : RequestMeta} {result : LoginResult} {c c' : Connection} {user : User}
    (hid : user.id = userId) (hu : c.db.users.find? userId = some user)
    (h : LoginEffect env userId password reqMeta c c' user result) :
    TokenEffect env (.login userId password reqMeta) c c' (.ok result.answer) := by
  subst hid
  cases h with
  | challenge challenge token tokens pending h => exact tokenEffect_challenge rfl hu rfl rfl h
  | session session h => exact .kept rfl rfl (issueSession_userTokens h)

theorem tokenEffect_register {env : AuthEnv} {registration : Registration}
    {reqMeta : RequestMeta} {result : LoginResult} {c c' : Connection} {locked : LockedInvite}
    {user : User} (h : RegisterEffect env registration reqMeta c c' locked user result) :
    TokenEffect env (.register registration reqMeta) c c' (.ok result.answer) := by
  cases h with
  | challenge consent c₁ challenge token tokens pending hdb hsupply haccount h =>
      cases haccount with
      | existing huser hfound => exact tokenEffect_challenge huser hfound rfl hdb h
  | session consent c₁ c₂ isNewUser accounts joined m record userTokens members consents now
      session hdb hsupply haccount haccepted h =>
      obtain ⟨notes, logs, hdb'⟩ := haccepted.db
      have htokens : c'.db.userTokens = userTokens := by
        rw [issueSession_userTokens h, hdb']
      have hasked := haccepted.asked
      rw [hdb] at hasked
      cases isNewUser with
      | true =>
          obtain ⟨token, howner, hpurpose, hunused, hinserted⟩ := hasked
          refine .asked rfl rfl token (fun _ => false) 0 nofun ?_ hunused ?_
          · rw [hpurpose]
            nofun
          · rw [usedTokens_none, htokens]
            exact hinserted
      | false => exact .kept rfl rfl (htokens.trans hasked)

theorem Revocation.userTokens {f : User → User} {userId : Uuid} {c c' : Connection}
    {now : Instant} {accounts : Table User} (h : Revocation f userId c c' now accounts) :
    c'.db.userTokens = c.db.userTokens := by
  rw [h.db]

theorem refreshEffect_userTokens {env : AuthEnv} {token : RefreshToken}
    {outcome : RefreshOutcome} {c c' : Connection} (h : RefreshEffect env token c c' outcome) :
    c'.db.userTokens = c.db.userTokens := by
  cases h with
  | reuse hrevoked now accounts h => exact h.userTokens
  | expired hlive hdb hsupply => rw [hdb]
  | rotated hlive session user row accounts tokens hcurrent h =>
      obtain ⟨now, hdb⟩ := h.db
      rw [hdb]
  | invalid hlive user hfound hstale now hdb hsupply => rw [hdb]

theorem tokenEffect_completeLoginMfa {env : AuthEnv} {challenge : OpenChallenge}
    {code : String} {reqMeta : RequestMeta} {outcome : MfaOutcome} {c c' : Connection}
    {user : User} {verified : MfaVerification}
    (h : CompletionEffect env challenge reqMeta c c' user verified outcome) :
    TokenEffect env (.completeLoginMfa challenge code reqMeta) c c'
      ((mfaAnswer outcome).map .session) := by
  cases h with
  | failed hrefused hdb hsupply => exact .kept rfl rfl (by rw [hdb])
  | session haccepted now accounts c₁ c₂ session hnow hclaimed hupdated hdb hsupply hstaged h =>
      refine .consumed rfl challenge.token rfl _ now hnow (consumes_isClaimedToken _ _) hclaimed ?_
      rw [issueSession_userTokens h, hstaged.userTokens, hdb]

theorem UserToken.eq_of_tokenHash {tokens : Table UserToken} {t t' : UserToken}
    (ht : t ∈ tokens) (ht' : t' ∈ tokens) (h : t.tokenHash = t'.tokenHash) : t = t' := by
  refine Table.eq_of_clash ?_ ht ht' ?_
  · intro a b
    simp only [clash, Bool.beq_comm, Bool.and_comm]
  · simp only [clash, h, BEq.rfl, Bool.true_or]

/-- The token that a link names is the one that is found under its hash. -/
theorem findUserToken_of_find? {env : AuthEnv} {db : AuthDb} {raw : String} {token : UserToken}
    (h : db.userTokens.rows.find? (fun t => t.tokenHash == env.sha256 raw &&
      t.purpose == .emailVerify) = some token) : findUserToken env db raw = some token := by
  have hmem : token ∈ db.userTokens := List.mem_of_find?_eq_some h
  have hhash := List.find?_some h
  simp only [Bool.and_eq_true, beq_iff_eq] at hhash
  unfold findUserToken
  cases hfind : db.userTokens.rows.find? fun t => t.tokenHash == env.sha256 raw with
  | none =>
      have hnone := List.find?_eq_none.mp hfind token hmem
      simp [hhash.1] at hnone
  | some t =>
      have ht : t ∈ db.userTokens := List.mem_of_find?_eq_some hfind
      have hhash' : t.tokenHash = env.sha256 raw := by simpa using List.find?_some hfind
      refine congrArg some (UserToken.eq_of_tokenHash ht hmem ?_)
      rw [hhash', hhash.1]

theorem perform_tokenEffect {env : AuthEnv} {call : AuthCall}
    {answer : Except AuthError Answer} {c c' : Connection}
    (h : Commits (perform env call) c answer c') : TokenEffect env call c c' answer := by
  cases call with
  | openRegistration input reqMeta =>
      obtain ⟨rfl, rfl⟩ := (commits_pure ..).mp h
      exact .kept rfl rfl rfl
  | login userId password reqMeta =>
      obtain ⟨result, hlogin, rfl⟩ := commits_answering h
      obtain ⟨user, hid, hfind, -, heffect⟩ := commits_login hlogin
      exact tokenEffect_login hid hfind heffect
  | register registration reqMeta =>
      obtain ⟨result, hregister, rfl⟩ := commits_answering h
      obtain ⟨locked, user, -, -, heffect⟩ := commits_register hregister
      exact tokenEffect_register heffect
  | expireInvite inviteId =>
      obtain ⟨_, hmark, rfl⟩ := commits_answering h
      have hc := commits_markExpired hmark
      subst hc
      exact .kept rfl rfl rfl
  | completeLoginMfa challenge code reqMeta =>
      obtain ⟨outcome, hcomplete, rfl⟩ := commits_answering h
      obtain ⟨user, verified, _, _, -, -, -, -, -, -, heffect⟩ :=
        commits_completeLoginMfa hcomplete
      exact tokenEffect_completeLoginMfa heffect
  | refresh token reqMeta =>
      obtain ⟨outcome, hrefresh, rfl⟩ := commits_answering h
      have htokens := refreshEffect_userTokens (commits_refresh hrefresh)
      cases outcome <;> exact .kept rfl rfl htokens
  | logout token =>
      obtain ⟨_, hlogout, rfl⟩ := commits_answering h
      obtain ⟨now, accounts, hrevocation⟩ := commits_logout hlogout
      exact .kept rfl rfl hrevocation.userTokens
  | revokeSession userId sessionId =>
      obtain ⟨_, hrevoke, rfl⟩ := commits_answering h
      obtain ⟨now, accounts, hrevocation⟩ := commits_revokeSession hrevoke
      exact .kept rfl rfl hrevocation.userTokens
  | revokeAllSessions userId =>
      obtain ⟨_, hrevoke, rfl⟩ := commits_answering h
      obtain ⟨now, accounts, hrevocation⟩ := commits_revokeAllSessions hrevoke
      exact .kept rfl rfl hrevocation.userTokens
  | setupMfa userId =>
      obtain ⟨secret, hsetup, rfl⟩ := commits_answering h
      obtain ⟨accounts, -, hdb, -⟩ := commits_storeTotpSecret hsetup
      exact .kept rfl rfl (by rw [hdb])
  | enableMfa userId code =>
      obtain ⟨codes, henable, rfl⟩ := commits_answering h
      obtain ⟨user, secret, _, now, accounts, -, -, -, hrevocation⟩ := commits_enableMfa henable
      exact .kept rfl rfl hrevocation.userTokens
  | disableMfa userId code =>
      obtain ⟨_, hdisable, rfl⟩ := commits_answering h
      obtain ⟨user, _, verified, now, accounts, -, -, -, -, hrevocation⟩ :=
        commits_disableMfa hdisable
      exact .kept rfl rfl hrevocation.userTokens
  | verifyEmail tokenRaw =>
      obtain ⟨token, hverify, rfl⟩ := commits_answering h
      obtain ⟨now, verifiedAt, accounts, hnow, hfind, hclaimed, -, hdb⟩ :=
        commits_verifyEmail hverify
      refine .consumed rfl token ?_ _ now hnow (consumes_isClaimedMail _ _ _) hclaimed (by rw [hdb])
      simp only [consumedBy, findUserToken_of_find? hfind, Option.map_some, Option.toList_some]
  | requestPasswordReset userId =>
      obtain ⟨_, hrequest, rfl⟩ := commits_answering h
      obtain ⟨usedAt, token, tokens, notes, -, hpurpose, hunused, hinserted, hdb, -⟩ :=
        commits_requestPasswordReset hrequest
      refine .asked rfl rfl token _ usedAt (onlyUnused_isUnusedOf userId .passwordReset) ?_ hunused
        ?_
      · rw [hpurpose]
        nofun
      · rw [hdb]
        exact hinserted
  | confirmPasswordReset token newPassword =>
      obtain ⟨_, hconfirm, rfl⟩ := commits_answering h
      obtain ⟨now, salt, c₁, accounts, hnow, hclaimed, hdb, hrevocation⟩ :=
        commits_confirmPasswordReset hconfirm
      refine .consumed rfl token rfl _ now hnow (consumes_isClaimedLink _ _ _) hclaimed ?_
      rw [hrevocation.userTokens, hdb]
  | changePassword userId newPassword revokedAt =>
      obtain ⟨_, hstore, rfl⟩ := commits_answering h
      obtain ⟨salt, accounts, hrevocation⟩ := commits_storePassword hstore
      exact .kept rfl rfl hrevocation.userTokens
  | issueInvite input =>
      obtain ⟨issued, hissue, rfl⟩ := commits_answering h
      obtain ⟨inviterId, now, table, -, hdb⟩ := commits_issue hissue
      exact .kept rfl rfl (by rw [hdb])

/-! ## Tokens over time -/

/-- `t'` is `t` later on: an unused token may have been used, and that is for good. -/
structure UserToken.Becomes (t t' : UserToken) : Prop where
  same : t' = { t with usedAt := t'.usedAt }
  used : t.usedAt.isSome = true → t' = t

namespace UserToken.Becomes

variable {t t' t'' : UserToken}

theorem refl (t : UserToken) : t.Becomes t := ⟨rfl, fun _ => rfl⟩

theorem trans (h : t.Becomes t') (h' : t'.Becomes t'') : t.Becomes t'' := by
  refine ⟨by rw [h'.same, h.same], fun ht => ?_⟩
  have heq := h.used ht
  rw [← heq] at ht
  rw [h'.used ht, heq]

theorem id_eq (h : t.Becomes t') : t'.id = t.id := by rw [h.same]

theorem userId_eq (h : t.Becomes t') : t'.userId = t.userId := by rw [h.same]

theorem purpose_eq (h : t.Becomes t') : t'.purpose = t.purpose := by rw [h.same]

theorem tokenHash_eq (h : t.Becomes t') : t'.tokenHash = t.tokenHash := by rw [h.same]

theorem expiresAt_eq (h : t.Becomes t') : t'.expiresAt = t.expiresAt := by rw [h.same]

theorem unused (h : t.Becomes t') (hunused : t'.usedAt = none) : t.usedAt = none := by
  by_contra hsome
  have heq := h.used (Option.isSome_iff_ne_none.mpr hsome)
  rw [heq] at hunused
  exact hsome hunused

end UserToken.Becomes

/-- Every one-time token is still there. -/
def UserTokensBecome (tokens tokens' : Table UserToken) : Prop :=
  ∀ t ∈ tokens, ∃ t' ∈ tokens', t.Becomes t'

theorem UserTokensBecome.refl (tokens : Table UserToken) : UserTokensBecome tokens tokens :=
  fun t ht => ⟨t, ht, .refl t⟩

theorem UserTokensBecome.trans {tokens tokens' tokens'' : Table UserToken}
    (h : UserTokensBecome tokens tokens') (h' : UserTokensBecome tokens' tokens'') :
    UserTokensBecome tokens tokens'' := by
  intro t ht
  obtain ⟨t', ht', hbecomes⟩ := h t ht
  obtain ⟨t'', ht'', hbecomes'⟩ := h' t' ht'
  exact ⟨t'', ht'', hbecomes.trans hbecomes'⟩

theorem UserToken.becomes_used {p : UserToken → Bool} (hp : OnlyUnused p) (now : Instant)
    (t : UserToken) : t.Becomes (if p t then { t with usedAt := some now } else t) := by
  cases ht : p t with
  | true =>
      rw [if_pos rfl]
      refine ⟨rfl, fun hused => ?_⟩
      rw [hp t ht] at hused
      cases hused
  | false => exact .refl t

theorem userTokensBecome_used {tokens : Table UserToken} {p : UserToken → Bool}
    (hp : OnlyUnused p) (now : Instant) : UserTokensBecome tokens (usedTokens tokens p now) := by
  intro t ht
  refine ⟨_, ?_, t.becomes_used hp now⟩
  unfold usedTokens
  rw [Table.mem_def, Table.rows_updateWhere]
  exact List.mem_map_of_mem ht

theorem mem_usedTokens {tokens : Table UserToken} {p : UserToken → Bool} {now : Instant}
    (hp : OnlyUnused p) {t' : UserToken} (ht' : t' ∈ usedTokens tokens p now) :
    ∃ t ∈ tokens, t.Becomes t' := by
  unfold usedTokens at ht'
  rw [Table.mem_def, Table.rows_updateWhere] at ht'
  obtain ⟨t, ht, rfl⟩ := List.mem_map.mp ht'
  exact ⟨t, ht, t.becomes_used hp now⟩

theorem userTokensBecome_insert? {tokens tokens' : Table UserToken} {row : UserToken}
    (h : tokens.insert? row = some tokens') : UserTokensBecome tokens tokens' := by
  intro t ht
  refine ⟨t, ?_, .refl t⟩
  rw [Table.mem_def, (Table.insert?_eq_some.mp h).2]
  exact List.mem_append_left _ ht

theorem TokenEffect.becomes {env : AuthEnv} {call : AuthCall} {c c' : Connection}
    {answer : Except AuthError Answer} (h : TokenEffect env call c c' answer) :
    UserTokensBecome c.db.userTokens c'.db.userTokens := by
  cases h with
  | kept hproven hconsumed htokens => exact htokens ▸ .refl _
  | asked hproven hconsumed token p now hp hpurpose hunused hinserted =>
      exact (userTokensBecome_used hp now).trans (userTokensBecome_insert? hinserted)
  | opened challenge hconsumed token now hcall hfound hpurpose hhash hunused hinserted =>
      exact (userTokensBecome_used (onlyUnused_isUnusedOf _ _) now).trans
        (userTokensBecome_insert? hinserted)
  | consumed hproven token hconsumed p now hnow hp hclaimed htokens =>
      rw [htokens]
      exact userTokensBecome_used hp.unused now

end Refearn.Auth
