import Refearn.Auth.Run
/-!
# What a session transaction commits

One lemma for each transaction: the tables it writes, as they are afterwards. Tables that a
lemma does not name are as they were.
-/

namespace Refearn.Auth

open Support Support.Transaction

/-! ## Users -/

/-- An account without the membership it has selected. -/
def User.forgetSelection (u : User) : User := { u with lastMembershipId := none }

/-- Every account is kept, up to the membership it has selected; new ones may appear. -/
def Extends (users users' : Table User) : Prop :=
  ∀ id u, users.find? id = some u →
    ∃ u', users'.find? id = some u' ∧ u'.forgetSelection = u.forgetSelection

/-- One account is rewritten by `f`, and every other one is kept. -/
def Updates (f : User → User) (userId : Uuid) (users users' : Table User) : Prop :=
  ∀ id u, users.find? id = some u →
    ∃ u', users'.find? id = some u' ∧
      u'.forgetSelection = (if id = userId then f u else u).forgetSelection

theorem Extends.refl (users : Table User) : Extends users users :=
  fun _ u h => ⟨u, h, rfl⟩

theorem Extends.trans {users users' users'' : Table User} (h : Extends users users')
    (h' : Extends users' users'') : Extends users users'' := by
  intro id u hu
  obtain ⟨u', hu', hforget⟩ := h id u hu
  obtain ⟨u'', hu'', hforget'⟩ := h' id u' hu'
  exact ⟨u'', hu'', hforget'.trans hforget⟩

theorem Updates.trans {f : User → User} {userId : Uuid} {users users' users'' : Table User}
    (h : Updates f userId users users') (h' : Extends users' users'') :
    Updates f userId users users'' := by
  intro id u hu
  obtain ⟨u', hu', hforget⟩ := h id u hu
  obtain ⟨u'', hu'', hforget'⟩ := h' id u' hu'
  exact ⟨u'', hu'', hforget'.trans hforget⟩

theorem updates_updateKey (users : Table User) (userId : Uuid) (f : User → User)
    (hf : KeepsIndexes f) : Updates f userId users (users.updateKey userId f hf) := by
  intro id u hu
  have hid : key u = id := (Table.find?_eq_some.mp hu).2
  refine ⟨if id = userId then f u else u, ?_, rfl⟩
  rw [Table.find?_updateKey, hu, Option.map_some, hid]

theorem Updates.extends {f : User → User} {userId : Uuid} {users users' : Table User}
    (h : Updates f userId users users') (hf : ∀ u, (f u).forgetSelection = u.forgetSelection) :
    Extends users users' := by
  intro id u hu
  obtain ⟨u', hu', heq⟩ := h id u hu
  refine ⟨u', hu', heq.trans ?_⟩
  split_ifs
  · exact hf u
  · rfl

/-- What an account shows of itself, other than its selection, is kept. -/
theorem Extends.observe {β : Type} {users users' : Table User} (h : Extends users users')
    (g : User → β) (hg : ∀ u, g u.forgetSelection = g u) {id : Uuid} {u : User}
    (hu : users.find? id = some u) : ∃ u', users'.find? id = some u' ∧ g u' = g u := by
  obtain ⟨u', hu', hforget⟩ := h id u hu
  refine ⟨u', hu', ?_⟩
  calc g u' = g u'.forgetSelection := (hg u').symm
    _ = g u.forgetSelection := by rw [hforget]
    _ = g u := hg u

theorem Updates.observe {β : Type} {f : User → User} {userId : Uuid} {users users' : Table User}
    (h : Updates f userId users users') (g : User → β) (hg : ∀ u, g u.forgetSelection = g u)
    {id : Uuid} {u : User} (hu : users.find? id = some u) :
    ∃ u', users'.find? id = some u' ∧ g u' = if id = userId then g (f u) else g u := by
  obtain ⟨u', hu', hforget⟩ := h id u hu
  refine ⟨u', hu', ?_⟩
  calc g u' = g u'.forgetSelection := (hg u').symm
    _ = g (if id = userId then f u else u).forgetSelection := by rw [hforget]
    _ = g (if id = userId then f u else u) := hg _
    _ = if id = userId then g (f u) else g u := apply_ite g _ _ _

theorem extends_insert? {users users' : Table User} {r : User}
    (h : users.insert? r = some users') : Extends users users' :=
  fun _ u hu => ⟨u, Table.find?_insert? h hu, rfl⟩

theorem commits_updateUser {userId : Uuid} {f : User → User} {hf : KeepsIndexes f}
    {c c' : Connection} {u : PUnit} (h : Commits (update users userId f hf) c u c') :
    ∃ table, (∃ user, c.db.users.find? userId = some user) ∧
      Updates f userId c.db.users table ∧ c' = ⟨{ c.db with users := table }, c.supply⟩ := by
  simp only [commits_update, users_get, users_put] at h
  exact ⟨c.db.users.updateKey userId f hf, h.1, updates_updateKey _ _ _ _, h.2.symm⟩

@[simp] theorem commits_lockUserForAuth (userId : Uuid) (c c' : Connection) (u : PUnit) :
    Commits (lockUserForAuth userId) c u c' ↔
      (∃ user, c.db.users.find? userId = some user) ∧ c = c' := by
  unfold lockUserForAuth
  simp only [commits_bind, commits_readDb, commits_require, Option.isSome_iff_exists]
  constructor
  · rintro ⟨_, _, ⟨rfl, rfl⟩, h, rfl⟩
    exact ⟨h, rfl⟩
  · rintro ⟨h, rfl⟩
    exact ⟨_, _, ⟨rfl, rfl⟩, h, rfl⟩

/-! ## Sessions -/

/-- What a session tells of the user it was built for. -/
structure AuthSession.IsOf (session : AuthSession) (user : User) (raw : String) : Prop where
  sub : session.accessToken.sub = user.id
  authGeneration : session.accessToken.authGeneration = some user.authGeneration
  refreshToken : session.refreshToken = raw

theorem commits_selectMembership {userId : Uuid} {membershipId : Uuid} {c c' : Connection}
    {u : PUnit} (h : Commits (selectMembership userId membershipId) c u c') :
    ∃ table, Extends c.db.users table ∧ c' = ⟨{ c.db with users := table }, c.supply⟩ := by
  obtain ⟨table, -, hupdates, hc⟩ := commits_updateUser h
  exact ⟨table, hupdates.extends fun _ => rfl, hc⟩

theorem commits_rememberMembership {userId : Uuid} {remembered : Option Uuid}
    {c c' : Connection} {u : PUnit} (h : Commits (rememberMembership userId remembered) c u c') :
    ∃ table, Extends c.db.users table ∧ c' = ⟨{ c.db with users := table }, c.supply⟩ := by
  cases remembered with
  | none =>
      have heq := (commits_pure ..).mp h
      exact ⟨c.db.users, .refl _, heq.2.symm⟩
  | some membershipId => exact commits_selectMembership h

theorem commits_buildSession {userId : Uuid} {raw : String} {mfaVerifiedAt : Option Instant}
    {familyId : Uuid} {session : AuthSession} {c c' : Connection}
    (h : Commits (buildSession userId raw mfaVerifiedAt familyId) c session c') :
    ∃ user table, c.db.users.find? userId = some user ∧ session.IsOf user raw ∧
      Extends c.db.users table ∧ c' = ⟨{ c.db with users := table }, c.supply⟩ := by
  unfold buildSession at h
  simp only [commits_bind, commits_findUniqueOrThrow, commits_readDb, commits_pure] at h
  obtain ⟨user, _, ⟨huser, rfl⟩, _, _, ⟨rfl, rfl⟩, _, _, hremember, rfl, rfl⟩ := h
  obtain ⟨table, hextends, hc⟩ := commits_rememberMembership hremember
  exact ⟨user, table, huser, ⟨rfl, rfl, rfl⟩, hextends, hc⟩

/-- A refresh token for a user, in the user's generation and not yet revoked. -/
structure RefreshToken.IsLiveFor (row : RefreshToken) (env : AuthEnv) (user : User)
    (raw : String) : Prop where
  userId : row.userId = user.id
  tokenHash : row.tokenHash = env.sha256 raw
  authGeneration : row.authGeneration = some user.authGeneration
  revokedAt : row.revokedAt = none
  replacedById : row.replacedById = none

/-- A session of `user` has been issued, in a family of its own: `row` is its refresh token. -/
structure Issuance (env : AuthEnv) (userId : Uuid) (mfaVerifiedAt : Option Instant)
    (c c' : Connection) (session : AuthSession) (user : User) (row : RefreshToken)
    (accounts : Table User) (tokens : Table RefreshToken) : Prop where
  found : c.db.users.find? userId = some user
  assured : user.totpEnabledAt.isSome → mfaVerifiedAt.isSome
  isOf : session.IsOf user session.refreshToken
  live : row.IsLiveFor env user session.refreshToken
  family : ∃ n, row.familyId = some (c.supply.uuids n)
  inserted : c.db.refreshTokens.insert? row = some tokens
  kept : Extends c.db.users accounts
  db : c'.db = { c.db with users := accounts, refreshTokens := tokens }
  supply : Supply.Later c.supply c'.supply

theorem commits_issueSession {env : AuthEnv} {userId : Uuid} {reqMeta : RequestMeta}
    {mfaVerifiedAt : Option Instant} {session : AuthSession} {c c' : Connection}
    (h : Commits (issueSessionInTransaction env userId reqMeta mfaVerifiedAt) c session c') :
    ∃ user row accounts tokens,
      Issuance env userId mfaVerifiedAt c c' session user row accounts tokens := by
  unfold issueSessionInTransaction at h
  simp only [commits_bind, commits_lockUserForAuth, commits_findUniqueOrThrow, commits_require,
    commits_randomText, commits_genUuid, commits_newDate, commits_create, users_get,
    refreshTokens_get, refreshTokens_put] at h
  obtain ⟨_, _, ⟨-, rfl⟩, user, _, ⟨hfind, rfl⟩, _, _, ⟨hassured, rfl⟩, raw, _, ⟨rfl, rfl⟩, family, _,
    ⟨rfl, rfl⟩, now, _, ⟨rfl, rfl⟩, row, _, ⟨tokens, hinsert, rfl, rfl⟩, hbuild⟩ := h
  obtain ⟨user', accounts, hfind', hsession, hkept, rfl⟩ := commits_buildSession hbuild
  have hid : user.id = userId := (Table.find?_eq_some.mp hfind).2
  have hsame : user' = user := Option.some.inj (hfind'.symm.trans hfind)
  rw [hsame] at hsession
  refine ⟨user, _, accounts, tokens, hfind, ?_, ?_, ?_, ?_, hinsert, hkept, rfl, ?_⟩
  · intro htotp
    by_contra hnone
    exact hassured ⟨htotp, by simpa using hnone⟩
  · rw [hsession.refreshToken]
    exact hsession
  · rw [hsession.refreshToken]
    exact ⟨hid.symm, rfl, rfl, rfl, rfl⟩
  · exact ⟨0, rfl⟩
  · exact .dropUuid (.dropTick (.dropUuid (.dropText (.refl _))))

/-! ## Revocations -/

/-- The refresh tokens after those of a user have been revoked. -/
def revokedTokens (tokens : Table RefreshToken) (userId : Uuid) (now : Instant) :
    Table RefreshToken :=
  tokens.updateWhere (isLiveOf userId) (RefreshToken.withRevocation now)
    (keepsIndexes_withRevocation now)

/-- One account has been rewritten by `f` and its refresh tokens have been revoked. -/
structure Revocation (f : User → User) (userId : Uuid) (c c' : Connection) (now : Instant)
    (accounts : Table User) : Prop where
  found : ∃ user, c.db.users.find? userId = some user
  updated : Updates f userId c.db.users accounts
  db : c'.db =
    { c.db with users := accounts, refreshTokens := revokedTokens c.db.refreshTokens userId now }
  supply : Supply.Later c.supply c'.supply

theorem commits_revokeRefreshTokens {userId : Uuid} {now : Instant} {n : Nat}
    {c c' : Connection} (h : Commits (revokeRefreshTokens userId now) c n c') :
    c' = ⟨{ c.db with refreshTokens := revokedTokens c.db.refreshTokens userId now },
      c.supply⟩ := by
  unfold revokeRefreshTokens at h
  simp only [commits_updateMany, refreshTokens_get, refreshTokens_put] at h
  exact h.2.symm

theorem commits_advanceAuthGenerationAndRevokeSessions {userId : Uuid} {now : Instant} {n : Nat}
    {c c' : Connection} (h : Commits (advanceAuthGenerationAndRevokeSessions userId now) c n c') :
    ∃ accounts, Revocation User.withNextGeneration userId c c' now accounts := by
  unfold advanceAuthGenerationAndRevokeSessions advanceAuthGeneration at h
  simp only [commits_bind, commits_lockUserForAuth] at h
  obtain ⟨_, _, ⟨hfound, rfl⟩, _, _, hadvance, hrevoke⟩ := h
  obtain ⟨accounts, -, hupdates, rfl⟩ := commits_updateUser hadvance
  have hc := commits_revokeRefreshTokens hrevoke
  subst hc
  exact ⟨accounts, hfound, hupdates, rfl, .refl _⟩

theorem commits_revokeSession {userId sessionId : Uuid} {c c' : Connection} {u : PUnit}
    (h : Commits (revokeSession userId sessionId) c u c') :
    ∃ now accounts, Revocation User.withNextGeneration userId c c' now accounts := by
  unfold revokeSession at h
  simp only [commits_bind, commits_lockUserForAuth, commits_readDb, commits_orThrow,
    commits_newDate, commits_pure] at h
  obtain ⟨_, _, ⟨-, rfl⟩, _, _, ⟨rfl, rfl⟩, _, _, ⟨-, rfl⟩, now, _, ⟨rfl, rfl⟩, _, _, hadvance,
    -, rfl⟩ := h
  obtain ⟨accounts, h⟩ := commits_advanceAuthGenerationAndRevokeSessions hadvance
  exact ⟨_, accounts, h.found, h.updated, h.db, .trans (.dropTick (.refl _)) h.supply⟩

theorem commits_revokeAllSessions {userId : Uuid} {c c' : Connection} {n : Nat}
    (h : Commits (revokeAllSessions userId) c n c') :
    ∃ now accounts, Revocation User.withNextGeneration userId c c' now accounts := by
  unfold revokeAllSessions at h
  simp only [commits_bind, commits_newDate] at h
  obtain ⟨now, _, ⟨rfl, rfl⟩, hadvance⟩ := h
  obtain ⟨accounts, h⟩ := commits_advanceAuthGenerationAndRevokeSessions hadvance
  exact ⟨_, accounts, h.found, h.updated, h.db, .trans (.dropTick (.refl _)) h.supply⟩

theorem commits_logout {token : RefreshToken} {c c' : Connection} {u : PUnit}
    (h : Commits (logoutInTransaction token) c u c') :
    ∃ now accounts, Revocation User.withNextGeneration token.userId c c' now accounts := by
  unfold logoutInTransaction at h
  simp only [commits_bind, commits_newDate, commits_pure] at h
  obtain ⟨now, _, ⟨rfl, rfl⟩, _, _, hadvance, -, rfl⟩ := h
  obtain ⟨accounts, h⟩ := commits_advanceAuthGenerationAndRevokeSessions hadvance
  exact ⟨_, accounts, h.found, h.updated, h.db, .trans (.dropTick (.refl _)) h.supply⟩

/-! ## Rotation -/

/-- The rows that the conditional update of a rotation claims. -/
def isRotatable (token : RefreshToken) (authGeneration : Nat) (r : RefreshToken) : Bool :=
  r.id == token.id && r.revokedAt.isNone && r.authGeneration == some authGeneration

/-- `token` has been replaced by `row`: `tokens` is the table between the two. -/
structure Rotation (env : AuthEnv) (token : RefreshToken) (authGeneration : Nat)
    (c c' : Connection) (session : AuthSession) (user : User) (row : RefreshToken)
    (accounts : Table User) (tokens : Table RefreshToken) : Prop where
  found : c.db.users.find? token.userId = some user
  isOf : session.IsOf user session.refreshToken
  userId : row.userId = token.userId
  tokenHash : row.tokenHash = env.sha256 session.refreshToken
  generation : row.authGeneration = some authGeneration
  live : row.revokedAt = none
  first : row.replacedById = none
  family : row.familyId = token.familyId ∨ ∃ n, row.familyId = some (c.supply.uuids n)
  inserted : c.db.refreshTokens.insert? row = some tokens
  claimed : ∃ r ∈ tokens, isRotatable token authGeneration r = true
  kept : Extends c.db.users accounts
  db : ∃ revokedAt, c'.db =
    { c.db with
      users := accounts
      refreshTokens := tokens.updateWhere (isRotatable token authGeneration)
        (RefreshToken.withSuccessor revokedAt row.id)
        (keepsIndexes_refreshToken (fun _ => rfl) (fun _ => rfl)) }
  supply : Supply.Later c.supply c'.supply

theorem exists_mem_of_updated {ρ κ : Type} [Keyed ρ κ] {t : Table ρ} {p : ρ → Bool}
    (h : (t.rows.filter p).length ≠ 0) : ∃ r ∈ t, p r = true := by
  obtain ⟨r, hr⟩ := List.exists_mem_of_length_pos (Nat.pos_of_ne_zero h)
  obtain ⟨hmem, hp⟩ := List.mem_filter.mp hr
  exact ⟨r, hmem, hp⟩

theorem commits_sessionFamily {token : RefreshToken} {familyId : Uuid} {c c' : Connection}
    (h : Commits (sessionFamily token) c familyId c') :
    ∃ supply, c' = ⟨c.db, supply⟩ ∧ Supply.Later c.supply supply ∧
      (some familyId = token.familyId ∨ ∃ n, familyId = c.supply.uuids n) := by
  unfold sessionFamily at h
  cases htoken : token.familyId with
  | some family =>
      rw [htoken] at h
      obtain ⟨rfl, rfl⟩ := (commits_pure ..).mp h
      exact ⟨c.supply, rfl, .refl _, .inl rfl⟩
  | none =>
      rw [htoken] at h
      obtain ⟨rfl, rfl⟩ := (commits_genUuid ..).mp h
      exact ⟨_, rfl, .dropUuid (.refl _), .inr ⟨0, rfl⟩⟩

theorem commits_rotate {env : AuthEnv} {token : RefreshToken} {authGeneration : Nat}
    {reqMeta : RequestMeta} {session : AuthSession} {c c' : Connection}
    (h : Commits (rotate env token authGeneration reqMeta) c session c') :
    ∃ user row accounts tokens,
      Rotation env token authGeneration c c' session user row accounts tokens := by
  unfold rotate at h
  simp only [commits_bind, commits_randomText, commits_newDate, commits_create,
    commits_updateMany, commits_require, refreshTokens_get, refreshTokens_put] at h
  obtain ⟨familyId, _, hdrawn, raw, _, ⟨rfl, rfl⟩, now, _, ⟨rfl, rfl⟩, row, _,
    ⟨tokens, hinsert, rfl, rfl⟩, revokedAt, _, ⟨rfl, rfl⟩, rotated, _, ⟨hrotated, rfl⟩, _, _,
    ⟨hclaimed, rfl⟩, hbuild⟩ := h
  obtain ⟨supply, rfl, hlater, hfamily⟩ := commits_sessionFamily hdrawn
  obtain ⟨user, accounts, hfind, hsession, hkept, rfl⟩ := commits_buildSession hbuild
  refine ⟨user, _, accounts, tokens, hfind, ?_, ?_, ?_, ?_, ?_, ?_, ?_, hinsert, ?_, hkept, ?_, ?_⟩
  · rw [hsession.refreshToken]
    exact hsession
  · rfl
  · rw [hsession.refreshToken]
  · rfl
  · rfl
  · rfl
  · rcases hfamily with hkeep | ⟨n, hn⟩
    · exact .inl hkeep
    · exact .inr ⟨n, congrArg some hn⟩
  · subst hrotated
    exact exists_mem_of_updated hclaimed
  · exact ⟨_, rfl⟩
  · exact hlater.trans (.dropTick (.dropUuid (.dropTick (.dropText (.refl _)))))

/-- The refresh tokens after one of them has been revoked, unless it was revoked before. -/
def revokedToken (tokens : Table RefreshToken) (id : Uuid) (now : Instant) :
    Table RefreshToken :=
  tokens.updateWhere (fun r => r.id == id && r.revokedAt.isNone)
    (RefreshToken.withRevocation now)
    (keepsIndexes_withRevocation now)

/-- What `refresh` does, once it has its lock. -/
inductive RefreshEffect (env : AuthEnv) (token : RefreshToken) (c c' : Connection) :
    RefreshOutcome → Prop
  | reuse (hrevoked : token.revokedAt.isSome = true) (now : Instant) (accounts : Table User)
      (h : Revocation User.withNextGeneration token.userId c c' now accounts) :
      RefreshEffect env token c c' (.reuse token.userId)
  | expired (hlive : token.revokedAt = none) (hdb : c'.db = c.db)
      (hsupply : Supply.Later c.supply c'.supply) : RefreshEffect env token c c' .expired
  | rotated (hlive : token.revokedAt = none) (session : AuthSession) (user : User)
      (row : RefreshToken) (accounts : Table User) (tokens : Table RefreshToken)
      (hcurrent : token.authGeneration = some user.authGeneration)
      (h : Rotation env token user.authGeneration c c' session user row accounts tokens) :
      RefreshEffect env token c c' (.session session)
  | invalid (hlive : token.revokedAt = none) (user : User)
      (hfound : c.db.users.find? token.userId = some user)
      (hstale : token.authGeneration ≠ some user.authGeneration) (now : Instant)
      (hdb : c'.db =
        { c.db with refreshTokens := revokedToken c.db.refreshTokens token.id now })
      (hsupply : Supply.Later c.supply c'.supply) : RefreshEffect env token c c' .invalid

theorem commits_refresh {env : AuthEnv} {token : RefreshToken} {reqMeta : RequestMeta}
    {outcome : RefreshOutcome} {c c' : Connection}
    (h : Commits (refreshInTransaction env token reqMeta) c outcome c') :
    RefreshEffect env token c c' outcome := by
  unfold refreshInTransaction at h
  simp only [commits_bind, commits_lockUserForAuth, commits_findUniqueOrThrow, commits_ite,
    commits_newDate, commits_pure, commits_updateMany, users_get, refreshTokens_get,
    refreshTokens_put] at h
  obtain ⟨_, _, ⟨-, rfl⟩, user, _, ⟨hfind, rfl⟩, hcases⟩ := h
  rcases hcases with ⟨hrevoked, now, _, ⟨rfl, rfl⟩, n, _, hadvance, rfl, rfl⟩ |
    ⟨hlive, hcases⟩
  · obtain ⟨accounts, hrevocation⟩ := commits_advanceAuthGenerationAndRevokeSessions hadvance
    exact .reuse hrevoked _ accounts ⟨hrevocation.found, hrevocation.updated, hrevocation.db,
      .trans (.dropTick (.refl _)) hrevocation.supply⟩
  have hnone : token.revokedAt = none := by simpa using hlive
  rcases hcases with ⟨hcurrent, now, _, ⟨rfl, rfl⟩, hcases⟩ | ⟨hstale, now, _, ⟨rfl, rfl⟩, n, _,
    ⟨-, rfl⟩, rfl, rfl⟩
  · rcases hcases with ⟨-, rfl, rfl⟩ | ⟨-, session, _, hrotate, rfl, rfl⟩
    · exact .expired hnone rfl (.dropTick (.refl _))
    · obtain ⟨user', row, accounts, tokens, hrotation⟩ := commits_rotate hrotate
      have hsame : user' = user := Option.some.inj (hrotation.found.symm.trans hfind)
      subst hsame
      refine .rotated hnone session user' row accounts tokens hcurrent ?_
      exact ⟨hrotation.found, hrotation.isOf, hrotation.userId, hrotation.tokenHash,
        hrotation.generation, hrotation.live, hrotation.first, hrotation.family,
        hrotation.inserted, hrotation.claimed, hrotation.kept, hrotation.db,
        .trans (.dropTick (.refl _)) hrotation.supply⟩
  · exact .invalid hnone user hfind hstale _ rfl (.dropTick (.refl _))

end Refearn.Auth
