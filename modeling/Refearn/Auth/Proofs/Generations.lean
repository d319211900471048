import Refearn.Auth.Proofs.Credentials
/-!
# What a call does to the sessions of its user

Each call leaves generations and refresh tokens alone, adds one refresh token, replaces one
by another, or revokes some of them, with or without a new generation of the account.
-/

namespace Refearn.Auth

open Support Support.Transaction

/-! ## Generations -/

/-- Every account is kept with its generation, which is one higher for the one in `ended`. -/
def GenerationsAdvanced (ended : Option Uuid) (users users' : Table User) : Prop :=
  ∀ id u, users.find? id = some u →
    ∃ u', users'.find? id = some u' ∧
      u'.authGeneration = if ended = some id then u.authGeneration + 1 else u.authGeneration

theorem GenerationsAdvanced.of_eq {users users' : Table User} (h : users' = users) :
    GenerationsAdvanced none users users' :=
  fun _ u hu => ⟨u, by rw [h, hu], (if_neg nofun).symm⟩

theorem Extends.generations {users users' : Table User} (h : Extends users users') :
    GenerationsAdvanced none users users' := by
  intro id u hu
  obtain ⟨u', hu', hgeneration⟩ := h.observe User.authGeneration (fun _ => rfl) hu
  exact ⟨u', hu', by rw [if_neg nofun, hgeneration]⟩

theorem Updates.generationsKept {f : User → User} {userId : Uuid} {users users' : Table User}
    (h : Updates f userId users users') (hf : ∀ u, (f u).authGeneration = u.authGeneration) :
    GenerationsAdvanced none users users' := by
  intro id u hu
  obtain ⟨u', hu', hgeneration⟩ := h.observe User.authGeneration (fun _ => rfl) hu
  rw [hf u, ite_self] at hgeneration
  exact ⟨u', hu', by rw [if_neg nofun, hgeneration]⟩

theorem Updates.generationAdvanced {f : User → User} {userId : Uuid} {users users' : Table User}
    (h : Updates f userId users users')
    (hf : ∀ u, (f u).authGeneration = u.authGeneration + 1) :
    GenerationsAdvanced (some userId) users users' := by
  intro id u hu
  obtain ⟨u', hu', hgeneration⟩ := h.observe User.authGeneration (fun _ => rfl) hu
  refine ⟨u', hu', ?_⟩
  rw [hgeneration, hf u]
  exact if_congr ⟨fun h => by rw [h], fun h => (Option.some.inj h).symm⟩ rfl rfl

theorem GenerationsAdvanced.trans_kept {users users' users'' : Table User}
    (h : GenerationsAdvanced none users users') (h' : GenerationsAdvanced none users' users'') :
    GenerationsAdvanced none users users'' := by
  intro id u hu
  obtain ⟨u', hu', hgen⟩ := h id u hu
  obtain ⟨u'', hu'', hgen'⟩ := h' id u' hu'
  rw [if_neg nofun] at hgen hgen'
  exact ⟨u'', hu'', by rw [if_neg nofun, hgen', hgen]⟩

/-! ## Ended sessions -/

/-- The user whose sessions a call ends when it commits. -/
def AuthCall.ends : AuthCall → Option Uuid
  | .confirmPasswordReset token _ => token.userId
  | .enableMfa userId _ => userId
  | .disableMfa userId _ => userId
  | .logout token => token.userId
  | .revokeSession userId _ => userId
  | .revokeAllSessions userId => userId
  | _ => none

/-- The accounts and the refresh tokens after a call that has ended all sessions of a user. -/
def SessionsEnded (userId : Uuid) (db db' : AuthDb) : Prop :=
  GenerationsAdvanced (some userId) db.users db'.users ∧
    ∃ now, db'.refreshTokens = revokedTokens db.refreshTokens userId now

theorem Revocation.sessionsEnded {f : User → User} {userId : Uuid} {c c' : Connection}
    {now : Instant} {accounts : Table User} (h : Revocation f userId c c' now accounts)
    (hf : ∀ u, (f u).authGeneration = u.authGeneration + 1) :
    SessionsEnded userId c.db c'.db := by
  unfold SessionsEnded
  rw [h.db]
  exact ⟨h.updated.generationAdvanced hf, now, rfl⟩

/-! ## Effects -/

/-- `row` is the refresh token of `session`, in the generation its account has in `users`. -/
structure RefreshToken.Opens (row : RefreshToken) (env : AuthEnv) (session : AuthSession)
    (users : Table User) : Prop where
  sub : session.accessToken.sub = row.userId
  authGeneration : session.accessToken.authGeneration = row.authGeneration
  tokenHash : row.tokenHash = env.sha256 session.refreshToken
  current : ∃ u, users.find? row.userId = some u ∧ row.authGeneration = some u.authGeneration
  revokedAt : row.revokedAt = none

/-- What a committed call has done to accounts and refresh tokens. -/
inductive SessionEffect (env : AuthEnv) (call : AuthCall) (c c' : Connection) :
    Except AuthError Answer → Prop
  | quiet {answer : Except AuthError Answer} (hanswer : issuedBy call answer = [])
      (husers : GenerationsAdvanced none c.db.users c'.db.users)
      (htokens : c'.db.refreshTokens = c.db.refreshTokens) : SessionEffect env call c c' answer
  | opened (hcall : ∀ token reqMeta, call ≠ .refresh token reqMeta) (session : AuthSession)
      (row : RefreshToken) (husers : GenerationsAdvanced none c.db.users c'.db.users)
      (hrow : row.Opens env session c'.db.users)
      (hfamily : ∃ n, row.familyId = some (c.supply.uuids n))
      (htokens : c.db.refreshTokens.insert? row = some c'.db.refreshTokens) :
      SessionEffect env call c c' (.ok (.session session))
  | rotated (token : RefreshToken) (reqMeta : RequestMeta) (hcall : call = .refresh token reqMeta)
      (hlive : token.revokedAt = none) (session : AuthSession) (row : RefreshToken)
      (tokens : Table RefreshToken) (authGeneration : Nat) (now : Instant)
      (husers : GenerationsAdvanced none c.db.users c'.db.users)
      (hrow : row.Opens env session c'.db.users)
      (hfamily : row.familyId = token.familyId ∨ ∃ n, row.familyId = some (c.supply.uuids n))
      (hinsert : c.db.refreshTokens.insert? row = some tokens)
      (hclaimed : ∃ r ∈ tokens, isRotatable token authGeneration r = true)
      (htokens : c'.db.refreshTokens = tokens.updateWhere (isRotatable token authGeneration)
        (RefreshToken.withSuccessor now row.id)
        (keepsIndexes_refreshToken (fun _ => rfl) (fun _ => rfl))) :
      SessionEffect env call c c' (.ok (.session session))
  | revoked {answer : Except AuthError Answer} (hanswer : issuedBy call answer = [])
      (ended : Option Uuid) (p : RefreshToken → Bool) (now : Instant)
      (husers : GenerationsAdvanced ended c.db.users c'.db.users)
      (hended : ∀ userId ∈ ended, p = isLiveOf userId)
      (htokens : c'.db.refreshTokens = c.db.refreshTokens.updateWhere p
        (RefreshToken.withRevocation now) (keepsIndexes_withRevocation now)) :
      SessionEffect env call c c' answer

theorem commits_answering {α : Type} {m : AuthTx α} {answer : α → Except AuthError Answer}
    {a : Except AuthError Answer} {c c' : Connection}
    (h : Commits (answering m answer) c a c') : ∃ x, Commits m c x c' ∧ answer x = a := by
  unfold answering at h
  simp only [commits_bind, commits_pure] at h
  obtain ⟨x, _, hm, ha, rfl⟩ := h
  exact ⟨x, hm, ha⟩

/-- A session that is issued after some other writes. -/
theorem sessionEffect_opened {env : AuthEnv} {call : AuthCall} {userId : Uuid}
    {reqMeta : RequestMeta} {mfaVerifiedAt : Option Instant} {session : AuthSession}
    {c c₁ c' : Connection} (hcall : ∀ token reqMeta, call ≠ .refresh token reqMeta)
    (husers : GenerationsAdvanced none c.db.users c₁.db.users)
    (htokens : c₁.db.refreshTokens = c.db.refreshTokens)
    (hsupply : Supply.Later c.supply c₁.supply)
    (h : Commits (issueSessionInTransaction env userId reqMeta mfaVerifiedAt) c₁ session c') :
    SessionEffect env call c c' (.ok (.session session)) := by
  obtain ⟨user, row, accounts, tokens, hissue⟩ := commits_issueSession h
  have hid : user.id = userId := (Table.find?_eq_some.mp hissue.found).2
  have hkept := hissue.kept.generations
  have husers' : c'.db.users = accounts := by rw [hissue.db]
  have htokens' : c'.db.refreshTokens = tokens := by rw [hissue.db]
  obtain ⟨u', hu', hgeneration⟩ := hkept userId user hissue.found
  rw [if_neg nofun] at hgeneration
  refine .opened hcall session row ?_ ⟨?_, ?_, hissue.live.tokenHash, ?_, hissue.live.revokedAt⟩
    ?_ ?_
  · rw [husers']
    exact husers.trans_kept hkept
  · rw [hissue.isOf.sub, hissue.live.userId]
  · rw [hissue.isOf.authGeneration, hissue.live.authGeneration]
  · refine ⟨u', ?_, ?_⟩
    · rw [husers', hissue.live.userId, hid, hu']
    · rw [hissue.live.authGeneration, hgeneration]
  · obtain ⟨n, hn⟩ := hissue.family
    obtain ⟨k, hk⟩ := hsupply.uuids
    exact ⟨n + k, by rw [hn, hk]⟩
  · rw [htokens', ← htokens]
    exact hissue.inserted

theorem SessionsEnded.effect {env : AuthEnv} {call : AuthCall} {userId : Uuid}
    {c c' : Connection} {answer : Except AuthError Answer}
    (h : SessionsEnded userId c.db c'.db) (hanswer : issuedBy call answer = []) :
    SessionEffect env call c c' answer := by
  obtain ⟨husers, now, htokens⟩ := h
  refine .revoked hanswer (some userId) (isLiveOf userId) now husers ?_ htokens
  intro id hid
  rw [Option.mem_some_iff.mp hid]

theorem sessionEffect_refresh {env : AuthEnv} {token : RefreshToken} {reqMeta : RequestMeta}
    {outcome : RefreshOutcome} {c c' : Connection} (h : RefreshEffect env token c c' outcome) :
    SessionEffect env (.refresh token reqMeta) c c' ((refreshAnswer outcome).map .session) := by
  cases h with
  | reuse hrevoked now accounts h =>
      exact (h.sessionsEnded fun _ => rfl).effect rfl
  | expired hlive hdb hsupply =>
      exact .quiet rfl (.of_eq (by rw [hdb])) (by rw [hdb])
  | rotated hlive session user row accounts tokens hcurrent h =>
      obtain ⟨now, hdb⟩ := h.db
      have hkept := h.kept.generations
      have hid : user.id = token.userId := (Table.find?_eq_some.mp h.found).2
      obtain ⟨u', hu', hgeneration⟩ := hkept _ user h.found
      rw [if_neg nofun] at hgeneration
      refine .rotated token reqMeta rfl hlive session row tokens user.authGeneration now ?_
        ⟨?_, ?_, h.tokenHash, ?_, h.live⟩ h.family h.inserted h.claimed ?_
      · rw [hdb]
        exact hkept
      · rw [h.isOf.sub, h.userId, hid]
      · rw [h.isOf.authGeneration, h.generation]
      · refine ⟨u', ?_, ?_⟩
        · rw [hdb, h.userId]
          exact hu'
        · rw [h.generation, hgeneration]
      · rw [hdb]
  | invalid hlive user hfound hstale now hdb hsupply =>
      exact .revoked rfl none _ now (.of_eq (by rw [hdb])) nofun (by rw [hdb]; rfl)

theorem sessionEffect_challenge {env : AuthEnv} {call : AuthCall} {userId : Uuid}
    {context : LoginMfaContext} {challenge : LoginMfaChallenge} {token : UserToken}
    {tokens : Table UserToken} {pending : Table PendingInviteAcceptance} {c c₁ c' : Connection}
    (hdb : c₁.db = c.db) (h : Opening env userId context c₁ c' challenge token tokens pending) :
    SessionEffect env call c c' (.ok (.challenge challenge)) :=
  .quiet rfl (.of_eq (by rw [h.db, hdb])) (by rw [h.db, hdb])

theorem sessionEffect_login {env : AuthEnv} {userId : Uuid} {password : String}
    {reqMeta : RequestMeta} {result : LoginResult} {c c' : Connection} {user : User}
    (h : LoginEffect env userId password reqMeta c c' user result) :
    SessionEffect env (.login userId password reqMeta) c c' (.ok result.answer) := by
  cases h with
  | challenge challenge token tokens pending h => exact sessionEffect_challenge rfl h
  | session session h =>
      exact sessionEffect_opened (fun _ _ h => by cases h) (.of_eq rfl) rfl (.refl _) h

theorem sessionEffect_register {env : AuthEnv} {registration : Registration}
    {reqMeta : RequestMeta} {result : LoginResult} {c c' : Connection} {locked : LockedInvite}
    {user : User} (h : RegisterEffect env registration reqMeta c c' locked user result) :
    SessionEffect env (.register registration reqMeta) c c' (.ok result.answer) := by
  cases h with
  | challenge consent c₁ challenge token tokens pending hdb hsupply haccount h =>
      exact sessionEffect_challenge hdb h
  | session consent c₁ c₂ isNewUser accounts joined m record userTokens members consents now
      session hdb hsupply haccount haccepted h =>
      obtain ⟨notes, logs, hdb'⟩ := haccepted.db
      have hnew : GenerationsAdvanced none c.db.users accounts := by
        cases haccount with
        | existing => exact .of_eq rfl
        | new _ _ hinserted => exact (extends_insert? hinserted).generations
      have hjoined := haccepted.kept.generations
      rw [hdb] at hjoined
      refine sessionEffect_opened (fun _ _ h => by cases h) ?_ ?_ (hsupply.trans haccepted.supply) h
      · rw [hdb']
        exact hnew.trans_kept hjoined
      · rw [hdb', hdb]

theorem Staged.users {env : AuthEnv} {user : User} {now : Instant} {c c' : Connection}
    {pendingId : Option Uuid} (h : Staged env user now c c' pendingId) :
    Extends c.db.users c'.db.users := by
  cases h with
  | login h => exact h ▸ .refl _
  | invite _ _ _ _ _ _ _ _ _ h =>
      obtain ⟨notes, logs, hdb⟩ := h.db
      rw [hdb]
      exact h.kept

theorem Staged.refreshTokens {env : AuthEnv} {user : User} {now : Instant} {c c' : Connection}
    {pendingId : Option Uuid} (h : Staged env user now c c' pendingId) :
    c'.db.refreshTokens = c.db.refreshTokens := by
  cases h with
  | login h => rw [h]
  | invite _ _ _ _ _ _ _ _ _ h =>
      obtain ⟨notes, logs, hdb⟩ := h.db
      rw [hdb]

theorem User.authGeneration_withRemainingCodes (remaining : Option (List String)) (u : User) :
    (u.withRemainingCodes remaining).authGeneration = u.authGeneration := by
  cases remaining <;> rfl

theorem sessionEffect_completeLoginMfa {env : AuthEnv} {challenge : OpenChallenge}
    {code : String} {reqMeta : RequestMeta} {outcome : MfaOutcome} {c c' : Connection}
    {user : User} {verified : MfaVerification}
    (h : CompletionEffect env challenge reqMeta c c' user verified outcome) :
    SessionEffect env (.completeLoginMfa challenge code reqMeta) c c'
      ((mfaAnswer outcome).map .session) := by
  cases h with
  | failed hrefused hdb hsupply => exact .quiet rfl (.of_eq (by rw [hdb])) (by rw [hdb])
  | session haccepted now accounts c₁ c₂ session hnow hclaimed hupdated hdb hsupply hstaged h =>
      have hkept := hupdated.generationsKept (User.authGeneration_withRemainingCodes _)
      have hstored := hstaged.users.generations
      rw [hdb] at hstored
      refine sessionEffect_opened (fun _ _ h => by cases h) (hkept.trans_kept hstored) ?_
        (hsupply.trans hstaged.later) h
      rw [hstaged.refreshTokens, hdb]

theorem perform_ends {env : AuthEnv} {call : AuthCall} {userId : Uuid}
    (hends : call.ends = some userId) {answer : Except AuthError Answer} {c c' : Connection}
    (h : Commits (perform env call) c answer c') :
    issuedBy call answer = [] ∧ SessionsEnded userId c.db c'.db := by
  cases call with
  | logout token =>
      obtain ⟨_, hlogout, rfl⟩ := commits_answering h
      obtain ⟨now, accounts, hrevocation⟩ := commits_logout hlogout
      rw [← Option.some.inj hends]
      exact ⟨rfl, hrevocation.sessionsEnded fun _ => rfl⟩
  | revokeSession userId sessionId =>
      obtain ⟨_, hrevoke, rfl⟩ := commits_answering h
      obtain ⟨now, accounts, hrevocation⟩ := commits_revokeSession hrevoke
      rw [← Option.some.inj hends]
      exact ⟨rfl, hrevocation.sessionsEnded fun _ => rfl⟩
  | revokeAllSessions userId =>
      obtain ⟨_, hrevoke, rfl⟩ := commits_answering h
      obtain ⟨now, accounts, hrevocation⟩ := commits_revokeAllSessions hrevoke
      rw [← Option.some.inj hends]
      exact ⟨rfl, hrevocation.sessionsEnded fun _ => rfl⟩
  | enableMfa userId code =>
      obtain ⟨codes, henable, rfl⟩ := commits_answering h
      obtain ⟨user, secret, _, now, accounts, -, -, -, hrevocation⟩ := commits_enableMfa henable
      rw [← Option.some.inj hends]
      exact ⟨rfl, hrevocation.sessionsEnded fun _ => rfl⟩
  | disableMfa userId code =>
      obtain ⟨_, hdisable, rfl⟩ := commits_answering h
      obtain ⟨user, _, verified, now, accounts, -, -, -, -, hrevocation⟩ :=
        commits_disableMfa hdisable
      rw [← Option.some.inj hends]
      exact ⟨rfl, hrevocation.sessionsEnded fun _ => rfl⟩
  | confirmPasswordReset token newPassword =>
      obtain ⟨_, hconfirm, rfl⟩ := commits_answering h
      obtain ⟨now, salt, c₁, accounts, -, -, hdb, hrevocation⟩ :=
        commits_confirmPasswordReset hconfirm
      have hended := hrevocation.sessionsEnded fun _ => rfl
      rw [← Option.some.inj hends]
      unfold SessionsEnded at hended ⊢
      rw [hdb] at hended
      exact ⟨rfl, hended⟩
  | _ => exact absurd hends nofun

theorem perform_sessionEffect_of_kept {env : AuthEnv} {call : AuthCall}
    (hends : call.ends = none) {answer : Except AuthError Answer} {c c' : Connection}
    (h : Commits (perform env call) c answer c') : SessionEffect env call c c' answer := by
  cases call with
  | openRegistration input reqMeta =>
      obtain ⟨rfl, rfl⟩ := (commits_pure ..).mp h
      exact .quiet rfl (.of_eq rfl) rfl
  | login userId password reqMeta =>
      obtain ⟨result, hlogin, rfl⟩ := commits_answering h
      obtain ⟨user, -, -, -, heffect⟩ := commits_login hlogin
      exact sessionEffect_login heffect
  | register registration reqMeta =>
      obtain ⟨result, hregister, rfl⟩ := commits_answering h
      obtain ⟨locked, user, -, -, heffect⟩ := commits_register hregister
      exact sessionEffect_register heffect
  | expireInvite inviteId =>
      obtain ⟨_, hmark, rfl⟩ := commits_answering h
      have hc := commits_markExpired hmark
      subst hc
      exact .quiet rfl (.of_eq rfl) rfl
  | completeLoginMfa challenge code reqMeta =>
      obtain ⟨outcome, hcomplete, rfl⟩ := commits_answering h
      obtain ⟨user, verified, _, _, -, -, -, -, -, -, heffect⟩ :=
        commits_completeLoginMfa hcomplete
      exact sessionEffect_completeLoginMfa heffect
  | refresh token reqMeta =>
      obtain ⟨outcome, hrefresh, rfl⟩ := commits_answering h
      exact sessionEffect_refresh (commits_refresh hrefresh)
  | setupMfa userId =>
      obtain ⟨secret, hsetup, rfl⟩ := commits_answering h
      obtain ⟨accounts, hupdated, hdb, -⟩ := commits_storeTotpSecret hsetup
      refine .quiet rfl ?_ (by rw [hdb])
      rw [hdb]
      exact hupdated.generationsKept fun _ => rfl
  | verifyEmail tokenRaw =>
      obtain ⟨token, hverify, rfl⟩ := commits_answering h
      obtain ⟨now, verifiedAt, accounts, -, -, -, hupdated, hdb⟩ := commits_verifyEmail hverify
      refine .quiet rfl ?_ (by rw [hdb])
      rw [hdb]
      exact hupdated.generationsKept fun _ => rfl
  | requestPasswordReset userId =>
      obtain ⟨_, hrequest, rfl⟩ := commits_answering h
      obtain ⟨usedAt, token, tokens, notes, -, -, -, -, hdb, -⟩ :=
        commits_requestPasswordReset hrequest
      exact .quiet rfl (.of_eq (by rw [hdb])) (by rw [hdb])
  | changePassword userId newPassword revokedAt =>
      obtain ⟨_, hstore, rfl⟩ := commits_answering h
      obtain ⟨salt, accounts, hrevocation⟩ := commits_storePassword hstore
      refine .revoked rfl none (isLiveOf userId) revokedAt ?_ nofun ?_
      · rw [hrevocation.db]
        exact hrevocation.updated.generationsKept fun _ => rfl
      · rw [hrevocation.db]
        rfl
  | issueInvite input =>
      obtain ⟨issued, hissue, rfl⟩ := commits_answering h
      obtain ⟨inviterId, now, table, -, hdb⟩ := commits_issue hissue
      exact .quiet rfl (.of_eq (by rw [hdb])) (by rw [hdb])
  | _ => exact absurd hends nofun

theorem perform_sessionEffect {env : AuthEnv} {call : AuthCall}
    {answer : Except AuthError Answer} {c c' : Connection}
    (h : Commits (perform env call) c answer c') : SessionEffect env call c c' answer := by
  cases hends : call.ends with
  | some userId =>
      obtain ⟨hanswer, hended⟩ := perform_ends hends h
      exact hended.effect hanswer
  | none => exact perform_sessionEffect_of_kept hends h

end Refearn.Auth
