import Refearn.Auth.Guard
import Refearn.Auth.Proofs.Generations
/-!
# Sessions
-/

/-!
## Sessions over whole runs

Refresh tokens are never deleted and a revocation is never taken back, so what was read of
a token before a lock still bounds what the token is under it. Every unrevoked token is of
its account's present generation, each token is rotated once, and a session that has been
ended is refused from then on.
-/

namespace Refearn.Auth

open Support Support.Transaction

/-! ## Tokens over time -/

/-- `r'` is `r` later on: a revocation may have been added. -/
structure RefreshToken.Becomes (r r' : RefreshToken) : Prop where
  same : r' = { r with revokedAt := r'.revokedAt, replacedById := r'.replacedById }
  revoked : r.revokedAt.isSome = true → r'.revokedAt.isSome = true

namespace RefreshToken.Becomes

variable {r r' r'' : RefreshToken}

theorem refl (r : RefreshToken) : r.Becomes r := ⟨rfl, fun hr => hr⟩

theorem trans (h : r.Becomes r') (h' : r'.Becomes r'') : r.Becomes r'' := by
  refine ⟨?_, fun hr => h'.revoked (h.revoked hr)⟩
  rw [h'.same, h.same]

theorem id_eq (h : r.Becomes r') : r'.id = r.id := by rw [h.same]

theorem userId_eq (h : r.Becomes r') : r'.userId = r.userId := by rw [h.same]

theorem tokenHash_eq (h : r.Becomes r') : r'.tokenHash = r.tokenHash := by rw [h.same]

theorem familyId_eq (h : r.Becomes r') : r'.familyId = r.familyId := by rw [h.same]

theorem authGeneration_eq (h : r.Becomes r') : r'.authGeneration = r.authGeneration := by
  rw [h.same]

theorem live (h : r.Becomes r') (hlive : r'.revokedAt = none) : r.revokedAt = none := by
  by_contra hsome
  have hrevoked := h.revoked (Option.isSome_iff_ne_none.mpr hsome)
  rw [hlive] at hrevoked
  exact absurd hrevoked nofun

theorem withRevocation (now : Instant) (r : RefreshToken) : r.Becomes (r.withRevocation now) :=
  ⟨rfl, fun _ => rfl⟩

theorem withSuccessor (now : Instant) (successor : Uuid) (r : RefreshToken) :
    r.Becomes (r.withSuccessor now successor) :=
  ⟨rfl, fun _ => rfl⟩

theorem ite {p : Bool} (h : r.Becomes r') : r.Becomes (if p then r' else r) := by
  cases p with
  | true => exact h
  | false => exact refl r

end RefreshToken.Becomes

/-- Every refresh token is still there. -/
def TokensBecome (tokens tokens' : Table RefreshToken) : Prop :=
  ∀ r ∈ tokens, ∃ r' ∈ tokens', r.Becomes r'

theorem TokensBecome.refl (tokens : Table RefreshToken) : TokensBecome tokens tokens :=
  fun r hr => ⟨r, hr, .refl r⟩

theorem TokensBecome.trans {tokens tokens' tokens'' : Table RefreshToken}
    (h : TokensBecome tokens tokens') (h' : TokensBecome tokens' tokens'') :
    TokensBecome tokens tokens'' := by
  intro r hr
  obtain ⟨r', hr', hbecomes⟩ := h r hr
  obtain ⟨r'', hr'', hbecomes'⟩ := h' r' hr'
  exact ⟨r'', hr'', hbecomes.trans hbecomes'⟩

theorem tokensBecome_insert? {tokens tokens' : Table RefreshToken} {row : RefreshToken}
    (h : tokens.insert? row = some tokens') : TokensBecome tokens tokens' := by
  intro r hr
  refine ⟨r, ?_, .refl r⟩
  rw [Table.mem_def, (Table.insert?_eq_some.mp h).2]
  exact List.mem_append_left _ hr

section UpdateWhere

variable {tokens : Table RefreshToken} {p : RefreshToken → Bool}
  {f : RefreshToken → RefreshToken} {hf : KeepsIndexes f}

theorem tokensBecome_updateWhere (hbecomes : ∀ r : RefreshToken, r.Becomes (f r)) :
    TokensBecome tokens (tokens.updateWhere p f hf) := by
  intro r hr
  refine ⟨if p r then f r else r, ?_, (hbecomes r).ite⟩
  rw [Table.mem_def, Table.rows_updateWhere]
  exact List.mem_map_of_mem hr

/-- What is not revoked after a revocation of the rows in `p` was not in `p`. -/
theorem mem_of_live_updateWhere (hrevokes : ∀ r, (f r).revokedAt.isSome = true)
    {r : RefreshToken} (hr : r ∈ tokens.updateWhere p f hf) (hlive : r.revokedAt = none) :
    r ∈ tokens ∧ p r = false := by
  rw [Table.mem_def, Table.rows_updateWhere] at hr
  obtain ⟨s, hs, rfl⟩ := List.mem_map.mp hr
  cases hp : p s with
  | true =>
      rw [hp, if_pos rfl] at hlive
      have hrevoked := hrevokes s
      rw [hlive] at hrevoked
      exact absurd hrevoked nofun
  | false =>
      exact ⟨hs, hp⟩

end UpdateWhere

/-! ## Accounts over time -/

/-- Every account is still there, and no generation has been taken back. -/
def AccountsAge (users users' : Table User) : Prop :=
  ∀ id u, users.find? id = some u →
    ∃ u', users'.find? id = some u' ∧ u.authGeneration ≤ u'.authGeneration

theorem AccountsAge.refl (users : Table User) : AccountsAge users users :=
  fun _ u hu => ⟨u, hu, le_refl _⟩

theorem AccountsAge.trans {users users' users'' : Table User} (h : AccountsAge users users')
    (h' : AccountsAge users' users'') : AccountsAge users users'' := by
  intro id u hu
  obtain ⟨u', hu', hle⟩ := h id u hu
  obtain ⟨u'', hu'', hle'⟩ := h' id u' hu'
  exact ⟨u'', hu'', le_trans hle hle'⟩

theorem GenerationsAdvanced.age {ended : Option Uuid} {users users' : Table User}
    (h : GenerationsAdvanced ended users users') : AccountsAge users users' := by
  intro id u hu
  obtain ⟨u', hu', hgeneration⟩ := h id u hu
  refine ⟨u', hu', ?_⟩
  rw [hgeneration]
  split_ifs
  · exact Nat.le_succ _
  · exact le_refl _

/-- Accounts and refresh tokens of a database over time. -/
structure SessionsAge (db db' : AuthDb) : Prop where
  accounts : AccountsAge db.users db'.users
  tokens : TokensBecome db.refreshTokens db'.refreshTokens

theorem SessionsAge.refl (db : AuthDb) : SessionsAge db db := ⟨.refl _, .refl _⟩

theorem SessionsAge.trans {db db' db'' : AuthDb} (h : SessionsAge db db')
    (h' : SessionsAge db' db'') : SessionsAge db db'' :=
  ⟨h.accounts.trans h'.accounts, h.tokens.trans h'.tokens⟩

theorem SessionEffect.age {env : AuthEnv} {call : AuthCall} {c c' : Connection}
    {answer : Except AuthError Answer} (h : SessionEffect env call c c' answer) :
    SessionsAge c.db c'.db := by
  cases h with
  | quiet hanswer husers htokens => exact ⟨husers.age, htokens ▸ .refl _⟩
  | opened hcall session row husers hrow hfamily htokens =>
      exact ⟨husers.age, tokensBecome_insert? htokens⟩
  | rotated token reqMeta hcall hlive session row tokens authGeneration now husers hrow hfamily
      hinsert hclaimed htokens =>
      refine ⟨husers.age, (tokensBecome_insert? hinsert).trans ?_⟩
      rw [htokens]
      exact tokensBecome_updateWhere (.withSuccessor now row.id)
  | revoked hanswer ended p now husers hended htokens =>
      refine ⟨husers.age, ?_⟩
      rw [htokens]
      exact tokensBecome_updateWhere (.withRevocation now)

/-! ## What holds in every world -/

/-- Every unrevoked refresh token carries the present generation of its account. -/
def LiveTokensCurrent (db : AuthDb) : Prop :=
  ∀ r ∈ db.refreshTokens, r.revokedAt = none →
    ∃ u, db.users.find? r.userId = some u ∧ r.authGeneration = some u.authGeneration

/-- Whether a session was handed out for rotating the refresh token `id`. -/
def rotates (id : Uuid) (entry : AuthCall × AuthSession) : Bool :=
  match entry.1 with
  | .refresh token _ => token.id == id
  | _ => false

/-- The refresh token of a session that was handed out. -/
structure RefreshToken.Backs (r : RefreshToken) (env : AuthEnv) (session : AuthSession) : Prop where
  tokenHash : r.tokenHash = env.sha256 session.refreshToken
  userId : r.userId = session.accessToken.sub
  authGeneration : r.authGeneration = session.accessToken.authGeneration

/-- No refresh token is of a later generation than its account. -/
def TokensOwned (db : AuthDb) : Prop :=
  ∀ r ∈ db.refreshTokens, ∃ u g, db.users.find? r.userId = some u ∧
    r.authGeneration = some g ∧ g ≤ u.authGeneration

/-- What holds of the sessions of a world. -/
structure SessionInvariant (env : AuthEnv) (w : AuthWorld) : Prop where
  current : LiveTokensCurrent w.db
  owned : TokensOwned w.db
  -- what a call in flight has read of a token is still a past of it
  read : ∀ token reqMeta, AuthCall.refresh token reqMeta ∈ w.calls →
    ∃ r ∈ w.db.refreshTokens, token.Becomes r
  recorded : ∀ entry ∈ w.issued, ∃ r ∈ w.db.refreshTokens, r.Backs env entry.2
  spent : ∀ id, (∃ entry ∈ w.issued, rotates id entry = true) →
    ∃ r ∈ w.db.refreshTokens, r.id = id ∧ r.revokedAt.isSome = true
  once : ∀ id, w.issued.countP (rotates id) ≤ 1
  unrevoked : ∀ token reqMeta session, (AuthCall.refresh token reqMeta, session) ∈ w.issued →
    token.revokedAt = none

theorem RefreshToken.Backs.becomes {env : AuthEnv} {session : AuthSession}
    {r r' : RefreshToken} (h : r.Backs env session) (hbecomes : r.Becomes r') :
    r'.Backs env session :=
  ⟨hbecomes.tokenHash_eq.trans h.tokenHash, hbecomes.userId_eq.trans h.userId,
    hbecomes.authGeneration_eq.trans h.authGeneration⟩

theorem RefreshToken.Opens.backs {env : AuthEnv} {session : AuthSession} {users : Table User}
    {row : RefreshToken} (h : row.Opens env session users) : row.Backs env session :=
  ⟨h.tokenHash, h.sub.symm, h.authGeneration.symm⟩

/-! ### One effect -/

theorem LiveTokensCurrent.kept {db db' : AuthDb} (h : LiveTokensCurrent db)
    (husers : GenerationsAdvanced none db.users db'.users) {r : RefreshToken}
    (hr : r ∈ db.refreshTokens) (hlive : r.revokedAt = none) :
    ∃ u, db'.users.find? r.userId = some u ∧ r.authGeneration = some u.authGeneration := by
  obtain ⟨u, hu, hgeneration⟩ := h r hr hlive
  obtain ⟨u', hu', hkept⟩ := husers _ u hu
  rw [if_neg nofun] at hkept
  exact ⟨u', hu', by rw [hgeneration, hkept]⟩

theorem SessionEffect.current {env : AuthEnv} {call : AuthCall} {c c' : Connection}
    {answer : Except AuthError Answer} (h : SessionEffect env call c c' answer)
    (hcurrent : LiveTokensCurrent c.db) : LiveTokensCurrent c'.db := by
  intro r hr hlive
  cases h with
  | quiet hanswer husers htokens =>
      rw [htokens] at hr
      exact hcurrent.kept husers hr hlive
  | opened hcall session row husers hrow hfamily htokens =>
      rcases (Table.mem_insert? htokens).mp hr with hold | rfl
      · exact hcurrent.kept husers hold hlive
      · exact hrow.current
  | rotated token reqMeta hcall hlive' session row tokens authGeneration now husers hrow hfamily
      hinsert hclaimed htokens =>
      rw [htokens] at hr
      have hmem := (mem_of_live_updateWhere (fun _ => rfl) hr hlive).1
      rcases (Table.mem_insert? hinsert).mp hmem with hold | rfl
      · exact hcurrent.kept husers hold hlive
      · exact hrow.current
  | revoked hanswer ended p now husers hended htokens =>
      rw [htokens] at hr
      obtain ⟨hmem, hp⟩ := mem_of_live_updateWhere (fun _ => rfl) hr hlive
      obtain ⟨u, hu, hgeneration⟩ := hcurrent r hmem hlive
      obtain ⟨u', hu', hkept⟩ := husers _ u hu
      -- the account that has ended its sessions has no unrevoked token left
      have hother : ended ≠ some r.userId := by
        intro heq
        rw [hended _ (Option.mem_some_iff.mpr rfl |> fun h => heq ▸ h)] at hp
        simp [isLiveOf, hlive] at hp
      rw [if_neg hother] at hkept
      exact ⟨u', hu', by rw [hgeneration, hkept]⟩

/-- A token is an older one, or the one of the session that the call is answered with. -/
theorem SessionEffect.origin {env : AuthEnv} {call : AuthCall} {c c' : Connection}
    {answer : Except AuthError Answer} (h : SessionEffect env call c c' answer)
    {r' : RefreshToken} (hr' : r' ∈ c'.db.refreshTokens) :
    (∃ r ∈ c.db.refreshTokens, r.Becomes r') ∨
      ∃ (row : RefreshToken) (session : AuthSession), row.Becomes r' ∧
        row.Opens env session c'.db.users := by
  cases h with
  | quiet hanswer husers htokens =>
      rw [htokens] at hr'
      exact .inl ⟨r', hr', .refl r'⟩
  | opened hcall session row husers hrow hfamily htokens =>
      rcases (Table.mem_insert? htokens).mp hr' with hold | rfl
      · exact .inl ⟨r', hold, .refl r'⟩
      · exact .inr ⟨r', session, .refl r', hrow⟩
  | rotated token reqMeta hcall hlive session row tokens authGeneration now husers hrow hfamily
      hinsert hclaimed htokens =>
      rw [htokens, Table.mem_def, Table.rows_updateWhere] at hr'
      obtain ⟨r, hr, rfl⟩ := List.mem_map.mp hr'
      have hbecomes := (RefreshToken.Becomes.withSuccessor now row.id r).ite
        (p := isRotatable token authGeneration r)
      rcases (Table.mem_insert? hinsert).mp hr with hold | rfl
      · exact .inl ⟨r, hold, hbecomes⟩
      · exact .inr ⟨r, session, hbecomes, hrow⟩
  | revoked hanswer ended p now husers hended htokens =>
      rw [htokens, Table.mem_def, Table.rows_updateWhere] at hr'
      obtain ⟨r, hr, rfl⟩ := List.mem_map.mp hr'
      exact .inl ⟨r, hr, (RefreshToken.Becomes.withRevocation now r).ite⟩

theorem SessionEffect.owned {env : AuthEnv} {call : AuthCall} {c c' : Connection}
    {answer : Except AuthError Answer} (h : SessionEffect env call c c' answer)
    (howned : TokensOwned c.db) : TokensOwned c'.db := by
  intro r' hr'
  rcases h.origin hr' with ⟨r, hr, hbecomes⟩ | ⟨row, session, hbecomes, hrow⟩
  · obtain ⟨u, g, hu, hg, hle⟩ := howned r hr
    obtain ⟨u', hu', hle'⟩ := h.age.accounts _ u hu
    rw [← hbecomes.userId_eq] at hu'
    exact ⟨u', g, hu', by rw [hbecomes.authGeneration_eq, hg], le_trans hle hle'⟩
  · obtain ⟨u, hu, hg⟩ := hrow.current
    rw [← hbecomes.userId_eq] at hu
    exact ⟨u, _, hu, by rw [hbecomes.authGeneration_eq, hg], le_refl _⟩

/-! ### What has been handed out -/

theorem countP_eq_zero_of_live {env : AuthEnv} {w : AuthWorld} (h : SessionInvariant env w)
    {r : RefreshToken} (hr : r ∈ w.db.refreshTokens) (hlive : r.revokedAt = none) :
    w.issued.countP (rotates r.id) = 0 := by
  rw [List.countP_eq_zero]
  intro entry hentry hrotates
  obtain ⟨s, hs, hid, hrevoked⟩ := h.spent r.id ⟨entry, hentry, hrotates⟩
  have heq : s = r := Table.eq_of_key hs hr hid
  rw [heq, hlive] at hrevoked
  exact absurd hrevoked nofun

/-- The token that a rotation has claimed was in the table before. -/
theorem SessionInvariant.claimed {env : AuthEnv} {w : AuthWorld} (h : SessionInvariant env w)
    {token row : RefreshToken} {reqMeta : RequestMeta} {tokens : Table RefreshToken}
    {authGeneration : Nat} (hcall : AuthCall.refresh token reqMeta ∈ w.calls)
    (hinsert : w.db.refreshTokens.insert? row = some tokens)
    (hclaimed : ∃ r ∈ tokens, isRotatable token authGeneration r = true) :
    ∃ r ∈ w.db.refreshTokens, token.Becomes r ∧ r.revokedAt = none ∧
      isRotatable token authGeneration r = true := by
  obtain ⟨r, hr, hrotatable⟩ := hclaimed
  obtain ⟨s, hs, hbecomes⟩ := h.read token reqMeta hcall
  have hfacts := hrotatable
  unfold isRotatable at hfacts
  simp only [Bool.and_eq_true, beq_iff_eq, Option.isNone_iff_eq_none] at hfacts
  have hs' : s ∈ tokens := (Table.mem_insert? hinsert).mpr (.inl hs)
  have hkey : s.id = r.id := hbecomes.id_eq.trans hfacts.1.1.symm
  have heq : s = r := Table.eq_of_key hs' hr hkey
  subst heq
  exact ⟨s, hs, hbecomes, hfacts.1.2, hrotatable⟩

/-- The token of a session that is handed out is stored. -/
theorem SessionEffect.backed {env : AuthEnv} {call : AuthCall} {c c' : Connection}
    {answer : Except AuthError Answer} (h : SessionEffect env call c c' answer)
    {entry : AuthCall × AuthSession} (hentry : entry ∈ issuedBy call answer) :
    ∃ r ∈ c'.db.refreshTokens, r.Backs env entry.2 := by
  cases h with
  | quiet hanswer =>
      rw [hanswer] at hentry
      cases hentry
  | revoked hanswer =>
      rw [hanswer] at hentry
      cases hentry
  | opened hcall session row husers hrow hfamily htokens =>
      rw [List.mem_singleton.mp hentry]
      exact ⟨row, (Table.mem_insert? htokens).mpr (.inr rfl), hrow.backs⟩
  | rotated token reqMeta hcall hlive session row tokens authGeneration now husers hrow hfamily
      hinsert hclaimed htokens =>
      rw [List.mem_singleton.mp hentry]
      have hbecomes : TokensBecome tokens c'.db.refreshTokens := by
        rw [htokens]
        exact tokensBecome_updateWhere (.withSuccessor now row.id)
      obtain ⟨r', hr', hrow'⟩ := hbecomes row ((Table.mem_insert? hinsert).mpr (.inr rfl))
      exact ⟨r', hr', hrow.backs.becomes hrow'⟩

/-- A rotation happens to a token that was unrevoked, when it was read and when it was claimed,
and revokes it. -/
theorem SessionInvariant.rotation {env : AuthEnv} {w : AuthWorld} (h : SessionInvariant env w)
    {call : AuthCall} {supply : Supply} {answer : Except AuthError Answer} {c : Connection}
    (hcall : call ∈ w.calls)
    (heffect : SessionEffect env call (w.connection call supply) c answer)
    {entry : AuthCall × AuthSession} (hentry : entry ∈ issuedBy call answer) {id : Uuid}
    (hrotates : rotates id entry = true) :
    (∃ token reqMeta, call = .refresh token reqMeta ∧ token.revokedAt = none) ∧
      (∃ r ∈ w.db.refreshTokens, r.id = id ∧ r.revokedAt = none) ∧
        ∃ r ∈ c.db.refreshTokens, r.id = id ∧ r.revokedAt.isSome = true := by
  cases heffect with
  | quiet hanswer =>
      rw [hanswer] at hentry
      cases hentry
  | revoked hanswer =>
      rw [hanswer] at hentry
      cases hentry
  | opened hcall' session row husers hrow hfamily htokens =>
      rw [List.mem_singleton.mp hentry] at hrotates
      unfold rotates at hrotates
      split at hrotates
      · exact absurd ‹_› (hcall' _ _)
      · cases hrotates
  | rotated token reqMeta hcall' hlive session row tokens authGeneration now husers hrow hfamily
      hinsert hclaimed htokens =>
      rw [List.mem_singleton.mp hentry, hcall'] at hrotates
      have hid : token.id = id := by simpa [rotates] using hrotates
      obtain ⟨r, hr, hbecomes, hlive', hrotatable⟩ := h.claimed (hcall' ▸ hcall) hinsert hclaimed
      have hrid : r.id = id := hbecomes.id_eq.trans hid
      refine ⟨⟨token, reqMeta, hcall', hlive⟩, ⟨r, hr, hrid, hlive'⟩, ?_⟩
      refine ⟨r.withSuccessor now row.id, ?_, hrid, rfl⟩
      rw [htokens, Table.mem_def, Table.rows_updateWhere]
      exact List.mem_map.mpr ⟨r, (Table.mem_insert? hinsert).mpr (.inl hr), if_pos hrotatable⟩

theorem issuedBy_length (call : AuthCall) (answer : Except AuthError Answer) :
    (issuedBy call answer).length ≤ 1 := by
  unfold issuedBy
  split
  · exact le_refl _
  · exact Nat.zero_le _

/-! ### One step -/

theorem SessionInvariant.commit {env : AuthEnv} {w : AuthWorld} (h : SessionInvariant env w)
    {call : AuthCall} {supply : Supply} {answer : Except AuthError Answer} {c : Connection}
    (hcall : call ∈ w.calls)
    (heffect : SessionEffect env call (w.connection call supply) c answer) :
    SessionInvariant env (w.commitCall env call answer c) where
  current := heffect.current h.current
  owned := heffect.owned h.owned
  read token reqMeta hmem := by
    obtain ⟨r, hr, hbecomes⟩ := h.read token reqMeta (List.mem_of_mem_erase hmem)
    obtain ⟨r', hr', hbecomes'⟩ := heffect.age.tokens r hr
    exact ⟨r', hr', hbecomes.trans hbecomes'⟩
  recorded entry hentry := by
    rcases List.mem_append.mp hentry with hnew | hold
    · exact heffect.backed hnew
    · obtain ⟨r, hr, hbacks⟩ := h.recorded entry hold
      obtain ⟨r', hr', hbecomes⟩ := heffect.age.tokens r hr
      exact ⟨r', hr', hbacks.becomes hbecomes⟩
  spent id := by
    rintro ⟨entry, hentry, hrotates⟩
    rcases List.mem_append.mp hentry with hnew | hold
    · exact (h.rotation hcall heffect hnew hrotates).2.2
    · obtain ⟨r, hr, hid, hrevoked⟩ := h.spent id ⟨entry, hold, hrotates⟩
      obtain ⟨r', hr', hbecomes⟩ := heffect.age.tokens r hr
      exact ⟨r', hr', hbecomes.id_eq.trans hid, hbecomes.revoked hrevoked⟩
  once id := by
    change (issuedBy call answer ++ w.issued).countP (rotates id) ≤ 1
    rw [List.countP_append]
    by_cases hnew : ∃ entry ∈ issuedBy call answer, rotates id entry = true
    · -- the token was unrevoked, so nothing has been handed out for it before
      obtain ⟨entry, hentry, hrotates⟩ := hnew
      obtain ⟨-, ⟨r, hr, hid, hlive⟩, -⟩ := h.rotation hcall heffect hentry hrotates
      have hzero := countP_eq_zero_of_live h hr hlive
      rw [hid] at hzero
      have hone : (issuedBy call answer).countP (rotates id) ≤ 1 :=
        List.countP_le_length.trans (issuedBy_length call answer)
      omega
    · have hzero : (issuedBy call answer).countP (rotates id) = 0 := by
        rw [List.countP_eq_zero]
        exact fun entry hentry hrotates => hnew ⟨entry, hentry, hrotates⟩
      have honce := h.once id
      omega
  unrevoked token reqMeta session hentry := by
    rcases List.mem_append.mp hentry with hnew | hold
    · have hrotates : rotates token.id (AuthCall.refresh token reqMeta, session) = true := by
        simp [rotates]
      obtain ⟨⟨token', reqMeta', heq, hlive⟩, -⟩ := h.rotation hcall heffect hnew hrotates
      unfold issuedBy at hnew
      split at hnew
      · rw [heq, List.mem_singleton, Prod.mk.injEq] at hnew
        injection hnew.1 with htoken
        rw [htoken]
        exact hlive
      · cases hnew
    · exact h.unrevoked token reqMeta session hold

theorem SessionInvariant.of_calls {env : AuthEnv} {w : AuthWorld} (h : SessionInvariant env w)
    {calls : List AuthCall}
    (hcalls : ∀ token reqMeta, AuthCall.refresh token reqMeta ∈ calls →
      ∃ r ∈ w.db.refreshTokens, token.Becomes r) : SessionInvariant env { w with calls } :=
  ⟨h.current, h.owned, hcalls, h.recorded, h.spent, h.once, h.unrevoked⟩

theorem SessionInvariant.step {env : AuthEnv} (step : AuthStep) (w : AuthWorld)
    (h : SessionInvariant env w) : SessionInvariant env (step.apply env w) := by
  have heffect := step.effect env w
  generalize step.apply env w = w' at heffect ⊢
  cases heffect with
  | idle => exact h
  | read request now call hread =>
      refine h.of_calls fun token reqMeta hmem => ?_
      rcases List.mem_cons.mp hmem with heq | hold
      · have hfound := read_foundIn hread
        rw [← heq] at hfound
        exact ⟨token, hfound, .refl token⟩
      · exact h.read token reqMeta hold
  | resumed input reqMeta registration hopen =>
      refine h.of_calls fun token reqMeta hmem => ?_
      rcases List.mem_cons.mp hmem with heq | hold
      · cases heq
      · exact h.read token reqMeta (List.mem_of_mem_erase hold)
  | dropped _ call =>
      exact h.of_calls fun token reqMeta hmem =>
        h.read token reqMeta (List.mem_of_mem_erase hmem)
  | committed call supply answer c hcall hcommits =>
      exact h.commit hcall (perform_sessionEffect hcommits)
  | configured directory =>
      exact ⟨h.current, h.owned, h.read, h.recorded, h.spent, h.once, h.unrevoked⟩

end Refearn.Auth

/-!
## Sessions from the first one on

The invariant of a world, taken over every run that starts without sessions: what a family
of tokens can look like, what becomes of a token that is shown again, and what is left of a
session that has been ended.
-/

namespace Refearn.Auth

open Support Support.Transaction

/-- A world at rest in which no session has been opened yet. -/
structure AuthWorld.WithoutSessions (w : AuthWorld) : Prop where
  atRest : w.AtRest
  tokens : w.db.refreshTokens.rows = []

theorem AuthWorld.WithoutSessions.invariant {env : AuthEnv} {w : AuthWorld}
    (h : w.WithoutSessions) : SessionInvariant env w where
  current r hr := by rw [Table.mem_def, h.tokens] at hr; cases hr
  owned r hr := by rw [Table.mem_def, h.tokens] at hr; cases hr
  read token reqMeta hmem := by rw [h.atRest.calls] at hmem; cases hmem
  recorded entry hentry := by rw [h.atRest.issued] at hentry; cases hentry
  spent id := by
    rintro ⟨entry, hentry, -⟩
    rw [h.atRest.issued] at hentry
    cases hentry
  once id := by rw [h.atRest.issued]; exact Nat.zero_le 1
  unrevoked token reqMeta session hentry := by rw [h.atRest.issued] at hentry; cases hentry

theorem SessionInvariant.run {env : AuthEnv} {w : AuthWorld} (h : SessionInvariant env w)
    (steps : List AuthStep) : SessionInvariant env (run (AuthStep.apply env) steps w) := by
  induction steps generalizing w with
  | nil => exact h
  | cons step steps ih => exact ih (h.step step w)

/-! ## Families -/

/-- At most one token of a family is unrevoked. -/
def OneTipPerFamily (db : AuthDb) : Prop :=
  ∀ r ∈ db.refreshTokens, ∀ r' ∈ db.refreshTokens, r.revokedAt = none → r'.revokedAt = none →
    ∀ family, r.familyId = some family → r'.familyId = some family → r = r'

/-- No identifier that a step may draw is a family yet. -/
def DrawsFreshFamilies (w : AuthWorld) : AuthStep → Prop
  | .finish _ supply => ∀ n, ∀ r ∈ w.db.refreshTokens, r.familyId ≠ some (supply.uuids n)
  | _ => True

theorem OneTipPerFamily.of_subset {db db' : AuthDb} (h : OneTipPerFamily db)
    (hsub : ∀ r ∈ db'.refreshTokens, r.revokedAt = none → r ∈ db.refreshTokens) :
    OneTipPerFamily db' :=
  fun r hr r' hr' hlive hlive' => h r (hsub r hr hlive) r' (hsub r' hr' hlive') hlive hlive'

/-- One more token, whose family has no unrevoked token any more. -/
theorem OneTipPerFamily.of_new {db db' : AuthDb} (h : OneTipPerFamily db) (row : RefreshToken)
    (hmem : ∀ r ∈ db'.refreshTokens, r.revokedAt = none → r = row ∨
      (r ∈ db.refreshTokens ∧
        ∀ family, row.familyId = some family → r.familyId ≠ some family)) :
    OneTipPerFamily db' := by
  intro r hr r' hr' hlive hlive' family hfamily hfamily'
  rcases hmem r hr hlive with rfl | ⟨hold, hother⟩
  · rcases hmem r' hr' hlive' with rfl | ⟨-, hother⟩
    · rfl
    · exact absurd hfamily' (hother family hfamily)
  · rcases hmem r' hr' hlive' with rfl | ⟨hold', -⟩
    · exact absurd hfamily (hother family hfamily')
    · exact h r hold r' hold' hlive hlive' family hfamily hfamily'

theorem OneTipPerFamily.commit {env : AuthEnv} {w : AuthWorld} (hinv : SessionInvariant env w)
    (h : OneTipPerFamily w.db) {call : AuthCall} {supply : Supply}
    {answer : Except AuthError Answer} {c : Connection} (hcall : call ∈ w.calls)
    (hfresh : ∀ n, ∀ r ∈ w.db.refreshTokens, r.familyId ≠ some (supply.uuids n))
    (heffect : SessionEffect env call (w.connection call supply) c answer) :
    OneTipPerFamily c.db := by
  cases heffect with
  | quiet hanswer husers htokens =>
      refine h.of_subset fun r hr _ => ?_
      rw [htokens] at hr
      exact hr
  | revoked hanswer ended p now husers hended htokens =>
      refine h.of_subset fun r hr hlive => ?_
      rw [htokens] at hr
      exact (mem_of_live_updateWhere (fun _ => rfl) hr hlive).1
  | opened hcall' session row husers hrow hfamily htokens =>
      refine h.of_new row fun r hr _ => ?_
      rcases (Table.mem_insert? htokens).mp hr with hold | rfl
      · obtain ⟨n, hn⟩ := hfamily
        refine .inr ⟨hold, fun family hrow => ?_⟩
        rw [← hrow, hn, w.connection_uuids]
        exact hfresh n r hold
      · exact .inl rfl
  | rotated token reqMeta hcall' hlive session row tokens authGeneration now husers hrow hfamily
      hinsert hclaimed htokens =>
      obtain ⟨old, hold, hbecomes, holdLive, hrotatable⟩ :=
        hinv.claimed (hcall' ▸ hcall) hinsert hclaimed
      refine h.of_new row fun r hr hrLive => ?_
      rw [htokens] at hr
      obtain ⟨hmem, hkept⟩ := mem_of_live_updateWhere (fun _ => rfl) hr hrLive
      rcases (Table.mem_insert? hinsert).mp hmem with hr | rfl
      · refine .inr ⟨hr, fun family hrow hr' => ?_⟩
        rcases hfamily with hfamily | ⟨n, hn⟩
        · -- the claimed token is the only unrevoked one of its family
          have hold' : old.familyId = some family := by
            rw [hbecomes.familyId_eq, ← hfamily, hrow]
          have hsame := h r hr old hold hrLive holdLive family hr' hold'
          rw [hsame, hrotatable] at hkept
          cases hkept
        · rw [← hrow, hn, w.connection_uuids] at hr'
          exact hfresh n r hr hr'
      · exact .inl rfl

theorem OneTipPerFamily.step {env : AuthEnv} {w : AuthWorld} (hinv : SessionInvariant env w)
    (h : OneTipPerFamily w.db) (step : AuthStep) (hfresh : DrawsFreshFamilies w step) :
    OneTipPerFamily (step.apply env w).db := by
  have heffect := step.effect env w
  generalize step.apply env w = w' at heffect ⊢
  cases heffect with
  | committed call supply answer c hcall hcommits =>
      exact h.commit hinv hcall hfresh (perform_sessionEffect hcommits)
  | _ => exact h

/-- Every step of the run draws families that are new. -/
def FreshFamilies (env : AuthEnv) (steps : List AuthStep) (w : AuthWorld) : Prop :=
  ∀ pre step post, steps = pre ++ step :: post →
    DrawsFreshFamilies (run (AuthStep.apply env) pre w) step

theorem OneTipPerFamily.run {env : AuthEnv} {w : AuthWorld} (hinv : SessionInvariant env w)
    (h : OneTipPerFamily w.db) (steps : List AuthStep) (hfresh : FreshFamilies env steps w) :
    OneTipPerFamily (run (AuthStep.apply env) steps w).db := by
  induction steps generalizing w with
  | nil => exact h
  | cons step steps ih =>
      refine ih (hinv.step step w) (h.step hinv step (hfresh [] step steps rfl)) ?_
      intro pre next post heq
      exact hfresh (step :: pre) next post (by rw [heq]; rfl)

/-! ## Tokens that are shown again -/

theorem exists_commits_advance {userId : Uuid} (now : Instant) {c : Connection} {u : User}
    (hu : c.db.users.find? userId = some u) :
    ∃ n c', Commits (advanceAuthGenerationAndRevokeSessions userId now) c n c' := by
  unfold advanceAuthGenerationAndRevokeSessions advanceAuthGeneration revokeRefreshTokens
  simp only [commits_bind, commits_lockUserForAuth, commits_update, commits_updateMany, users_get]
  exact ⟨_, _, ⟨⟩, _, ⟨⟨u, hu⟩, rfl⟩, ⟨⟩, _, ⟨⟨u, hu⟩, rfl⟩, rfl, rfl⟩

/-- A refresh that has read a revoked token commits, and reports the reuse. -/
theorem exists_commits_reuse (env : AuthEnv) {token : RefreshToken} (reqMeta : RequestMeta)
    (c : Connection) {u : User} (hu : c.db.users.find? token.userId = some u)
    (hrevoked : token.revokedAt.isSome = true) :
    ∃ c', Commits (perform env (.refresh token reqMeta)) c
      (.error (.unauthorized "refresh token reuse detected")) c' := by
  have hu' : (Connection.mk c.db c.supply.dropTick).db.users.find? token.userId = some u := hu
  obtain ⟨n, c', hadvance⟩ := exists_commits_advance c.supply.dropTick.clock hu'
  refine ⟨c', ?_⟩
  unfold perform answering refreshInTransaction
  simp only [commits_bind, commits_lockUserForAuth, commits_findUniqueOrThrow, commits_ite,
    commits_newDate, commits_pure, users_get]
  exact ⟨_, _, ⟨⟨⟩, _, ⟨⟨u, hu⟩, rfl⟩, u, _, ⟨hu, rfl⟩,
    .inl ⟨hrevoked, _, _, ⟨rfl, rfl⟩, n, c', hadvance, rfl, rfl⟩⟩, rfl, rfl⟩

/-- A revoked token that is shown is read as revoked, and the call that has read it opens no
session and ends all those of its user. -/
structure ReuseEndsSessions (env : AuthEnv) (w : AuthWorld) : Prop where
  read : ∀ raw reqMeta now, ∀ r ∈ w.db.refreshTokens, r.tokenHash = env.sha256 raw →
    r.revokedAt.isSome = true →
      (AuthStep.read (.refresh raw reqMeta) now).apply env w =
        { w with calls := .refresh r reqMeta :: w.calls }
  finish : ∀ token reqMeta supply, AuthCall.refresh token reqMeta ∈ w.calls →
    token.revokedAt.isSome = true →
      let w' := (AuthStep.finish (.refresh token reqMeta) supply).apply env w
      w'.issued = w.issued ∧
        ∀ r ∈ w'.db.refreshTokens, r.userId = token.userId → r.revokedAt.isSome = true

theorem findRefreshToken_of_mem {env : AuthEnv} {db : AuthDb} {raw : String} {r : RefreshToken}
    (hr : r ∈ db.refreshTokens) (hhash : r.tokenHash = env.sha256 raw) :
    findRefreshToken env db raw = some r := by
  unfold findRefreshToken
  cases hfind : db.refreshTokens.rows.find? fun r => r.tokenHash == env.sha256 raw with
  | none =>
      have hnone := List.find?_eq_none.mp hfind r hr
      simp [hhash] at hnone
  | some s =>
      have hs : s ∈ db.refreshTokens := List.mem_of_find?_eq_some hfind
      have hhash' : s.tokenHash = env.sha256 raw := by simpa using List.find?_some hfind
      refine congrArg some (Table.eq_of_clash ?_ hs hr ?_)
      · exact fun r r' => Bool.beq_comm
      · simp [clash, hhash, hhash']

theorem mem_revokedTokens {tokens : Table RefreshToken} {userId : Uuid} {now : Instant}
    {r : RefreshToken} (hr : r ∈ revokedTokens tokens userId now) (hid : r.userId = userId) :
    r.revokedAt.isSome = true := by
  by_contra hlive
  have hnone : r.revokedAt = none := by simpa using hlive
  obtain ⟨-, hp⟩ := mem_of_live_updateWhere (fun _ => rfl) hr hnone
  simp [isLiveOf, hid, hnone] at hp

theorem SessionInvariant.reuseEndsSessions {env : AuthEnv} {w : AuthWorld}
    (h : SessionInvariant env w) : ReuseEndsSessions env w where
  read raw reqMeta now r hr hhash hrevoked := by
    simp only [AuthStep.apply, AuthRequest.read, findRefreshToken_of_mem hr hhash]
  finish token reqMeta supply hcall hrevoked := by
    obtain ⟨r, hr, hbecomes⟩ := h.read token reqMeta hcall
    obtain ⟨u, _, hu, -⟩ := h.owned r hr
    rw [hbecomes.userId_eq] at hu
    obtain ⟨c, hcommits⟩ := exists_commits_reuse env reqMeta
      (w.connection (.refresh token reqMeta) supply) hu hrevoked
    rw [AuthStep.apply_finish hcall hcommits]
    refine ⟨rfl, fun r' hr' hid => ?_⟩
    obtain ⟨outcome, hrefresh, hanswer⟩ := commits_answering hcommits
    cases commits_refresh hrefresh with
    | reuse _ now accounts hrevocation =>
        change r' ∈ c.db.refreshTokens at hr'
        rw [hrevocation.db] at hr'
        exact mem_revokedTokens hr' hid
    | expired hlive => rw [hlive] at hrevoked; cases hrevoked
    | rotated hlive => rw [hlive] at hrevoked; cases hrevoked
    | invalid hlive => rw [hlive] at hrevoked; cases hrevoked

/-! ## Sessions that have been ended -/

/-- A session of an earlier generation, whose refresh token has been revoked. -/
structure AuthSession.Ended (session : AuthSession) (env : AuthEnv) (db : AuthDb) : Prop where
  generation : ∃ u g, db.users.find? session.accessToken.sub = some u ∧
    session.accessToken.authGeneration = some g ∧ g < u.authGeneration
  token : ∃ r ∈ db.refreshTokens, r.tokenHash = env.sha256 session.refreshToken ∧
    r.revokedAt.isSome = true

theorem AuthSession.Ended.age {session : AuthSession} {env : AuthEnv} {db db' : AuthDb}
    (h : session.Ended env db) (hage : SessionsAge db db') : session.Ended env db' where
  generation := by
    obtain ⟨u, g, hu, hg, hlt⟩ := h.generation
    obtain ⟨u', hu', hle⟩ := hage.accounts _ u hu
    exact ⟨u', g, hu', hg, lt_of_lt_of_le hlt hle⟩
  token := by
    obtain ⟨r, hr, hhash, hrevoked⟩ := h.token
    obtain ⟨r', hr', hbecomes⟩ := hage.tokens r hr
    exact ⟨r', hr', hbecomes.tokenHash_eq.trans hhash, hbecomes.revoked hrevoked⟩

theorem AuthStep.sessionsAge (env : AuthEnv) (step : AuthStep) (w : AuthWorld) :
    SessionsAge w.db (step.apply env w).db := by
  have heffect := step.effect env w
  generalize step.apply env w = w' at heffect ⊢
  cases heffect with
  | committed call supply answer c hcall hcommits =>
      exact (perform_sessionEffect hcommits).age
  | _ => exact ⟨.refl _, .refl _⟩

theorem run_sessionsAge (env : AuthEnv) (steps : List AuthStep) (w : AuthWorld) :
    SessionsAge w.db (run (AuthStep.apply env) steps w).db := by
  induction steps generalizing w with
  | nil => exact .refl _
  | cons step steps ih => exact (step.sessionsAge env w).trans (ih _)

/-- A call that ends the sessions of a user ends every one that has been handed out. -/
theorem SessionInvariant.ended {env : AuthEnv} {w : AuthWorld} (h : SessionInvariant env w)
    {userId : Uuid} {db : AuthDb} (hended : SessionsEnded userId w.db db)
    {entry : AuthCall × AuthSession} (hentry : entry ∈ w.issued)
    (hsub : entry.2.accessToken.sub = userId) : entry.2.Ended env db := by
  obtain ⟨husers, now, htokens⟩ := hended
  obtain ⟨r, hr, hbacks⟩ := h.recorded entry hentry
  obtain ⟨u, g, hu, hg, hle⟩ := h.owned r hr
  have hid : r.userId = userId := hbacks.userId.trans hsub
  constructor
  · obtain ⟨u', hu', hgeneration⟩ := husers _ u hu
    rw [hid, if_pos rfl] at hgeneration
    rw [hbacks.userId] at hu'
    refine ⟨u', g, hu', by rw [← hbacks.authGeneration, hg], ?_⟩
    omega
  · have hbecomes : TokensBecome w.db.refreshTokens db.refreshTokens := by
      rw [htokens]
      exact tokensBecome_updateWhere (.withRevocation now)
    obtain ⟨r', hr', hbecomes'⟩ := hbecomes r hr
    refine ⟨r', hr', hbecomes'.tokenHash_eq.trans hbacks.tokenHash, ?_⟩
    rw [htokens] at hr'
    exact mem_revokedTokens hr' (hbecomes'.userId_eq.trans hid)

/-- Neither the guard nor `refresh` takes anything of a session. -/
structure AuthSession.Refused (session : AuthSession) (env : AuthEnv) (w : AuthWorld) : Prop where
  guard : ∀ required route isGet now, route.isPublic = false →
    ∃ e, canActivate env required w.db route isGet (.bearer session.accessToken) now = .error e
  refresh : ∀ token reqMeta supply, token.tokenHash = env.sha256 session.refreshToken →
    ((AuthStep.finish (.refresh token reqMeta) supply).apply env w).issued = w.issued

theorem AuthSession.Ended.guard {session : AuthSession} {env : AuthEnv} {db : AuthDb}
    (h : session.Ended env db) (required : List Role) (route : RouteMetadata) (isGet : Bool)
    (now : Instant) (hroute : route.isPublic = false) :
    ∃ e, canActivate env required db route isGet (.bearer session.accessToken) now = .error e := by
  obtain ⟨u, g, hu, hg, hlt⟩ := h.generation
  have hstale : hasCurrentAuthGeneration session.accessToken u.authGeneration = false := by
    by_contra hcurrent
    have heq := hasCurrentAuthGeneration_eq_true (Bool.of_not_eq_false hcurrent)
    rw [hg, Option.some_inj] at heq
    omega
  refine ⟨.unauthorized "session is no longer active", ?_⟩
  simp only [canActivate, hroute, admitRequest, authenticate, hu, hstale]
  rfl

theorem SessionInvariant.refused {env : AuthEnv} {w : AuthWorld} (h : SessionInvariant env w)
    {session : AuthSession} (hended : session.Ended env w.db) : session.Refused env w where
  guard := hended.guard
  refresh token reqMeta supply hhash := by
    have heffect := (AuthStep.finish (.refresh token reqMeta) supply).effect env w
    generalize (AuthStep.finish (.refresh token reqMeta) supply).apply env w = w' at heffect ⊢
    cases heffect with
    | committed _ _ answer c hcall hcommits =>
        change issuedBy (.refresh token reqMeta) answer ++ w.issued = w.issued
        rw [List.append_left_eq_self]
        by_contra hissued
        obtain ⟨entry, hentry⟩ := List.exists_mem_of_ne_nil _ hissued
        have hrotates : rotates token.id entry = true := by
          unfold issuedBy at hentry
          split at hentry
          · rw [List.mem_singleton.mp hentry]
            simp [rotates]
          · cases hentry
        obtain ⟨-, ⟨r, hr, hid, hlive⟩, -⟩ :=
          h.rotation hcall (perform_sessionEffect hcommits) hentry hrotates
        -- the token that was read is the revoked one
        obtain ⟨s, hs, hhash', hrevoked⟩ := hended.token
        obtain ⟨past, hpast, hbecomes⟩ := h.read token reqMeta hcall
        have hclash : clash past s = true := by
          simp [clash, hbecomes.tokenHash_eq, hhash, hhash']
        have heq : past = s := Table.eq_of_clash (fun _ _ => Bool.beq_comm) hpast hs hclash
        have heq' : past = r := Table.eq_of_key hpast hr (hbecomes.id_eq.trans hid.symm)
        rw [← heq, heq', hlive] at hrevoked
        cases hrevoked
    | _ => rfl

/-- Whenever a call that ends sessions commits, every session that was handed out to its user
before is refused, however the run goes on. -/
def EndedSessionsRefused (env : AuthEnv) (w : AuthWorld) : Prop :=
  ∀ call userId supply answer c, call ∈ w.calls → call.ends = some userId →
    Commits (perform env call) (w.connection call supply) answer c →
      ∀ entry ∈ w.issued, entry.2.accessToken.sub = userId → ∀ later,
        entry.2.Refused env
          (run (AuthStep.apply env) later ((AuthStep.finish call supply).apply env w))

theorem SessionInvariant.endedSessionsRefused {env : AuthEnv} {w : AuthWorld}
    (h : SessionInvariant env w) : EndedSessionsRefused env w := by
  intro call userId supply answer c hcall hends hcommits entry hentry hsub later
  have hended := h.ended (perform_ends hends hcommits).2 hentry hsub
  have hafter : entry.2.Ended env ((AuthStep.finish call supply).apply env w).db := by
    rw [AuthStep.apply_finish hcall hcommits]
    exact hended
  exact ((h.step _ w).run later).refused (hafter.age (run_sessionsAge env later _))

/-- In every run from a world without sessions: unrevoked refresh tokens are of the present
generation, a token is rotated at most once and a family has one tip, a token that is shown
after its revocation ends every session of its user, and ended sessions stay refused. -/
theorem sessions_follow_generations (env : AuthEnv) (w₀ : AuthWorld) (h : w₀.WithoutSessions)
    (steps : List AuthStep) :
    let w := run (AuthStep.apply env) steps w₀
    LiveTokensCurrent w.db ∧
      (∀ id, w.issued.countP (rotates id) ≤ 1) ∧
      (FreshFamilies env steps w₀ → OneTipPerFamily w.db) ∧
      ReuseEndsSessions env w ∧
      (∀ token reqMeta session, (AuthCall.refresh token reqMeta, session) ∈ w.issued →
        token.revokedAt = none) ∧
      EndedSessionsRefused env w := by
  intro w
  have hinv : SessionInvariant env w := h.invariant.run steps
  have htip : OneTipPerFamily w₀.db := by
    intro r hr
    rw [Table.mem_def, h.tokens] at hr
    cases hr
  exact ⟨hinv.current, hinv.once, htip.run h.invariant steps, hinv.reuseEndsSessions,
    hinv.unrevoked, hinv.endedSessionsRefused⟩

/-- One user who signs in. -/
theorem sessions_follow_generations_login :
    let w := run (AuthStep.apply Demo.env)
      [.read (.login "a" "p" ⟨none, none⟩) 0,
        .finish (.login 1 "p" ⟨none, none⟩) (Demo.supply 0 10 "t")]
      (Demo.world (Demo.database (Demo.directory .empty .empty) (Demo.only (Demo.user 1 "a" "p"))))
    w.issued.length = 1 ∧ LiveTokensCurrent w.db :=
  ⟨by decide,
    (sessions_follow_generations Demo.env _ ⟨Demo.world_atRest _, rfl⟩ _).1⟩

end Refearn.Auth
