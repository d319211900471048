import Refearn.Auth.Proofs.OneTime
/-!
# Sessions after a change of the password

A login challenge stands for a password that was verified when it was opened. It is good for
five minutes, and a change of the password does not take it back: only where no challenge of
the account outlives the change does every session rest on the present password.
-/

namespace Refearn.Auth

open Support Support.Transaction

/-! ## The clock under a lock -/

theorem issueSession_later {env : AuthEnv} {userId : Uuid} {reqMeta : RequestMeta}
    {mfaVerifiedAt : Option Instant} {session : AuthSession} {c c' : Connection}
    (h : Commits (issueSessionInTransaction env userId reqMeta mfaVerifiedAt) c session c') :
    Supply.Later c.supply c'.supply := by
  obtain ⟨user, row, accounts, tokens, hissue⟩ := commits_issueSession h
  exact hissue.supply

theorem RefreshEffect.later {env : AuthEnv} {token : RefreshToken} {outcome : RefreshOutcome}
    {c c' : Connection} (h : RefreshEffect env token c c' outcome) :
    Supply.Later c.supply c'.supply := by
  cases h with
  | reuse hrevoked now accounts h => exact h.supply
  | expired hlive hdb hsupply => exact hsupply
  | rotated hlive session user row accounts tokens hcurrent h => exact h.supply
  | invalid hlive user hfound hstale now hdb hsupply => exact hsupply

theorem RegisterEffect.later {env : AuthEnv} {registration : Registration}
    {reqMeta : RequestMeta} {result : LoginResult} {c c' : Connection} {locked : LockedInvite}
    {user : User} (h : RegisterEffect env registration reqMeta c c' locked user result) :
    Supply.Later c.supply c'.supply := by
  cases h with
  | challenge consent c₁ challenge token tokens pending hdb hsupply haccount h =>
      exact hsupply.trans h.supply
  | session consent c₁ c₂ isNewUser accounts joined m record userTokens members consents now
      session hdb hsupply haccount haccepted h =>
      exact hsupply.trans (haccepted.supply.trans (issueSession_later h))

/-- The clock does not go back while a call holds the lock of a user. -/
theorem perform_clock {env : AuthEnv} {call : AuthCall} (hlocks : call.lockedUser ≠ none)
    {answer : Except AuthError Answer} {c c' : Connection}
    (h : Commits (perform env call) c answer c') : c.supply.clock ≤ c'.supply.clock := by
  cases call with
  | login userId password reqMeta =>
      obtain ⟨result, hlogin, -⟩ := commits_answering h
      obtain ⟨user, -, -, -, heffect⟩ := commits_login hlogin
      cases heffect with
      | challenge challenge token tokens pending h => exact h.supply.clock_le
      | session session h => exact (issueSession_later h).clock_le
  | register registration reqMeta =>
      obtain ⟨result, hregister, -⟩ := commits_answering h
      obtain ⟨locked, user, -, -, heffect⟩ := commits_register hregister
      exact heffect.later.clock_le
  | completeLoginMfa challenge code reqMeta =>
      obtain ⟨outcome, hcomplete, -⟩ := commits_answering h
      obtain ⟨user, verified, lockedAt, _, -, -, -, -, hbegin, hend, -⟩ :=
        commits_completeLoginMfa hcomplete
      exact le_trans hbegin hend
  | refresh token reqMeta =>
      obtain ⟨outcome, hrefresh, -⟩ := commits_answering h
      exact (commits_refresh hrefresh).later.clock_le
  | logout token =>
      obtain ⟨_, hlogout, -⟩ := commits_answering h
      obtain ⟨now, accounts, hrevocation⟩ := commits_logout hlogout
      exact hrevocation.supply.clock_le
  | revokeSession userId sessionId =>
      obtain ⟨_, hrevoke, -⟩ := commits_answering h
      obtain ⟨now, accounts, hrevocation⟩ := commits_revokeSession hrevoke
      exact hrevocation.supply.clock_le
  | revokeAllSessions userId =>
      obtain ⟨_, hrevoke, -⟩ := commits_answering h
      obtain ⟨now, accounts, hrevocation⟩ := commits_revokeAllSessions hrevoke
      exact hrevocation.supply.clock_le
  | setupMfa userId =>
      obtain ⟨secret, hsetup, -⟩ := commits_answering h
      obtain ⟨accounts, -, -, hlater⟩ := commits_storeTotpSecret hsetup
      exact hlater.clock_le
  | enableMfa userId code =>
      obtain ⟨codes, henable, -⟩ := commits_answering h
      obtain ⟨user, secret, _, now, accounts, -, -, -, hrevocation⟩ := commits_enableMfa henable
      exact hrevocation.supply.clock_le
  | disableMfa userId code =>
      obtain ⟨_, hdisable, -⟩ := commits_answering h
      obtain ⟨user, _, verified, now, accounts, -, -, -, -, hrevocation⟩ :=
        commits_disableMfa hdisable
      exact hrevocation.supply.clock_le
  | requestPasswordReset userId =>
      obtain ⟨_, hrequest, -⟩ := commits_answering h
      obtain ⟨usedAt, token, tokens, notes, -, -, -, -, -, hlater⟩ :=
        commits_requestPasswordReset hrequest
      exact hlater.clock_le
  | confirmPasswordReset token newPassword =>
      obtain ⟨_, hconfirm, -⟩ := commits_answering h
      obtain ⟨now, salt, c₁, accounts, hnow, -⟩ := commits_confirmPasswordReset hconfirm
      exact le_trans hnow.1 hnow.2
  | changePassword userId newPassword revokedAt =>
      obtain ⟨_, hstore, -⟩ := commits_answering h
      obtain ⟨salt, accounts, hrevocation⟩ := commits_storePassword hstore
      exact hrevocation.supply.clock_le
  | _ => exact absurd rfl hlocks

theorem AuthWorld.heldUntil_le_clock (w : AuthWorld) {call : AuthCall} {userId : Uuid}
    (hlocks : call.lockedUser = some userId) (supply : Supply) :
    w.heldUntil userId ≤ (w.connection call supply).supply.clock := by
  unfold AuthWorld.connection
  rw [hlocks]
  exact le_max_right _ _

theorem AuthWorld.heldUntil_mono {env : AuthEnv} {w : AuthWorld} {call : AuthCall}
    {supply : Supply} {answer : Except AuthError Answer} {c : Connection}
    (hcommits : Commits (perform env call) (w.connection call supply) answer c)
    (userId : Uuid) : w.heldUntil userId ≤ (w.commitCall env call answer c).heldUntil userId := by
  change _ ≤ if call.lockedUser = some userId then c.supply.clock else w.heldUntil userId
  split_ifs with hlocks
  · have hclock := perform_clock (by rw [hlocks]; nofun) hcommits
    exact le_trans (w.heldUntil_le_clock hlocks supply) hclock
  · exact le_refl _

/-! ## What sessions rest on -/

/-- A challenge was opened on the password that its account has now. -/
def ProvenNow (w : AuthWorld) (token : UserToken) : Prop :=
  ∃ passwordHash, passwordHashOf w.db token.userId = some passwordHash ∧
    (token.tokenHash, passwordHash) ∈ w.proofs ∧
      ∀ other, (token.tokenHash, other) ∈ w.proofs → other = passwordHash

/-- The present password stands behind the session that a call opens: it has just been
verified, or it is the one that the completed challenge was opened on. -/
def RestsOnPassword (env : AuthEnv) (w : AuthWorld) : AuthCall → Prop
  | .login userId password _ =>
      ∃ u, w.db.users.find? userId = some u ∧ env.verify u.passwordHash password = true
  | .register registration _ =>
      ∀ userId ∈ registration.userId, ∃ u, w.db.users.find? userId = some u ∧
        env.verify u.passwordHash registration.input.password = true
  | .completeLoginMfa challenge _ _ => ProvenNow w challenge.token
  | _ => True

/-- No call in flight can open a session on a password that has been replaced. -/
def OldPasswordsCutOff (env : AuthEnv) (w : AuthWorld) : Prop :=
  ∀ call supply session c, call ∈ w.calls →
    Commits (perform env call) (w.connection call supply) (.ok (.session session)) c →
      RestsOnPassword env w call

/-- A step that replaces a password finds no challenge of the account that outlives it. -/
def ChallengesExpired (env : AuthEnv) (w : AuthWorld) : AuthStep → Prop
  | .finish call supply =>
      ∀ userId answer c, call.changesPassword = some userId →
        Commits (perform env call) (w.connection call supply) answer c →
          ∀ t ∈ w.db.userTokens, t.userId = userId → t.purpose = .loginOtp → t.usedAt = none →
            t.expiresAt ≤ c.supply.clock
  | _ => True

/-- What is known of the challenges of a world. -/
structure ChallengeInvariant (w : AuthWorld) : Prop where
  read : ∀ challenge code reqMeta, AuthCall.completeLoginMfa challenge code reqMeta ∈ w.calls →
    challenge.token.purpose = .loginOtp ∧ ∃ t ∈ w.db.userTokens, challenge.token.Becomes t
  known : ∀ proof ∈ w.proofs, ∃ t ∈ w.db.userTokens, t.tokenHash = proof.1
  proven : ∀ t ∈ w.db.userTokens, t.purpose = .loginOtp → t.usedAt = none →
    t.expiresAt ≤ w.heldUntil t.userId ∨ ProvenNow w t

theorem AuthCall.lockedUser_of_changesPassword {call : AuthCall} {userId : Uuid}
    (h : call.changesPassword = some userId) : call.lockedUser = some userId := by
  cases call <;> first | exact h | cases h

/-- A challenge that a call has opened: `token` is new, and stands for the present password. -/
structure Proves (env : AuthEnv) (call : AuthCall) (answer : Except AuthError Answer)
    (db db' : AuthDb) (token : UserToken) (passwordHash : String) : Prop where
  mem : token ∈ db'.userTokens
  password : passwordHashOf db' token.userId = some passwordHash
  proven : provenBy env db' call answer = [(token.tokenHash, passwordHash)]
  new : ∀ t ∈ db.userTokens, t.tokenHash ≠ token.tokenHash

theorem TokenEffect.proves {env : AuthEnv} {call : AuthCall} {c c' : Connection}
    {answer : Except AuthError Answer} (h : TokenEffect env call c c' answer) :
    (provenBy env c'.db call answer = [] ∧
      ∀ t' ∈ c'.db.userTokens, t'.purpose = .loginOtp → ∃ t ∈ c.db.userTokens, t.Becomes t') ∨
    ∃ token passwordHash, Proves env call answer c.db c'.db token passwordHash ∧
      ∀ t' ∈ c'.db.userTokens, t' = token ∨ ∃ t ∈ c.db.userTokens, t.Becomes t' := by
  cases h with
  | kept hproven hconsumed htokens =>
      refine .inl ⟨hproven, fun t' ht' _ => ?_⟩
      rw [htokens] at ht'
      exact ⟨t', ht', .refl t'⟩
  | asked hproven hconsumed token p now hp hother hunused hinserted =>
      refine .inl ⟨hproven, fun t' ht' hpurpose => ?_⟩
      rcases (Table.mem_insert? hinserted).mp ht' with hold | rfl
      · exact mem_usedTokens hp hold
      · exact absurd hpurpose hother
  | opened challenge hconsumed token now hcall hfound hpurpose hhash hunused hinserted =>
      obtain ⟨u, hu⟩ := hfound
      have hunusedOf := onlyUnused_isUnusedOf token.userId .loginOtp
      have hpassword : passwordHashOf c'.db token.userId = some u.passwordHash := by
        unfold passwordHashOf
        rw [hu]
        rfl
      refine .inr ⟨token, u.passwordHash, ⟨?_, hpassword, ?_, ?_⟩, fun t' ht' => ?_⟩
      · exact (Table.mem_insert? hinserted).mpr (.inr rfl)
      · simp only [provenBy, hcall, Option.bind_some, hpassword, Option.toList_some,
          List.map_cons, List.map_nil, hhash]
      · intro t ht heq
        obtain ⟨s, hs, hbecomes⟩ := userTokensBecome_used hunusedOf now t ht
        have hclash := ((Table.insert?_eq_some.mp hinserted).1 s hs).2
        simp [clash, hbecomes.tokenHash_eq, heq] at hclash
      · rcases (Table.mem_insert? hinserted).mp ht' with hold | rfl
        · exact .inr (mem_usedTokens hunusedOf hold)
        · exact .inl rfl
  | consumed hproven token hconsumed p now hnow hp hclaimed htokens =>
      refine .inl ⟨hproven, fun t' ht' _ => ?_⟩
      rw [htokens] at ht'
      exact mem_usedTokens hp.unused ht'

theorem AccountEffect.passwordHashOf {env : AuthEnv} {call : AuthCall} {db db' : AuthDb}
    (h : AccountEffect env call db.users db'.users) {userId : Uuid} {passwordHash : String}
    (hhash : passwordHashOf db userId = some passwordHash)
    (hcall : call.changesPassword ≠ some userId) :
    passwordHashOf db' userId = some passwordHash := by
  obtain ⟨u, hu, rfl⟩ := Option.map_eq_some_iff.mp hhash
  obtain ⟨u', hu', heq⟩ := h.passwordHash hu hcall
  unfold Refearn.Auth.passwordHashOf
  rw [hu', Option.map_some, heq]

/-- An older challenge stays proven while the password of its account stays. -/
theorem ProvenNow.commit {env : AuthEnv} {w : AuthWorld} {t t' : UserToken}
    (h : ProvenNow w t) (hbecomes : t.Becomes t') {call : AuthCall} {supply : Supply}
    {answer : Except AuthError Answer} {c : Connection}
    (hcommits : Commits (perform env call) (w.connection call supply) answer c)
    (hcall : call.changesPassword ≠ some t.userId)
    (hnew : ∀ proof ∈ provenBy env c.db call answer, proof.1 ≠ t.tokenHash) :
    ProvenNow (w.commitCall env call answer c) t' := by
  obtain ⟨passwordHash, hhash, hmem, hall⟩ := h
  unfold ProvenNow
  rw [hbecomes.userId_eq, hbecomes.tokenHash_eq]
  refine ⟨passwordHash, (perform_accountEffect hcommits).passwordHashOf hhash hcall,
    List.mem_append_right _ hmem, fun other hother => ?_⟩
  rcases List.mem_append.mp hother with hproof | hold
  · exact absurd rfl (hnew _ hproof)
  · exact hall other hold

theorem ChallengeInvariant.commit {env : AuthEnv} {w : AuthWorld} (h : ChallengeInvariant w)
    {call : AuthCall} {supply : Supply} {answer : Except AuthError Answer} {c : Connection}
    (hcommits : Commits (perform env call) (w.connection call supply) answer c)
    (hexpired : ChallengesExpired env w (.finish call supply)) :
    ChallengeInvariant (w.commitCall env call answer c) := by
  have heffect := perform_tokenEffect hcommits
  have hold : ∀ t ∈ w.db.userTokens, ∀ t' : UserToken, t.Becomes t' → t'.purpose = .loginOtp →
      t'.usedAt = none → (∀ proof ∈ provenBy env c.db call answer, proof.1 ≠ t.tokenHash) →
      t'.expiresAt ≤ (w.commitCall env call answer c).heldUntil t'.userId ∨
        ProvenNow (w.commitCall env call answer c) t' := by
    intro t ht t' hbecomes hpurpose hunused hnew
    have hpurpose' : t.purpose = .loginOtp := hbecomes.purpose_eq.symm.trans hpurpose
    rcases h.proven t ht hpurpose' (hbecomes.unused hunused) with hlate | hproven
    · refine .inl ?_
      rw [hbecomes.expiresAt_eq, hbecomes.userId_eq]
      exact le_trans hlate (AuthWorld.heldUntil_mono hcommits t.userId)
    · by_cases hchanges : call.changesPassword = some t.userId
      · refine .inl ?_
        have hlate := hexpired t.userId answer c hchanges hcommits t ht rfl hpurpose'
          (hbecomes.unused hunused)
        change _ ≤ if call.lockedUser = some t'.userId then c.supply.clock
          else w.heldUntil t'.userId
        rw [hbecomes.expiresAt_eq, hbecomes.userId_eq,
          if_pos (AuthCall.lockedUser_of_changesPassword hchanges)]
        exact hlate
      · exact .inr (hproven.commit hbecomes hcommits hchanges hnew)
  constructor
  · intro challenge code reqMeta hmem
    obtain ⟨hpurpose, t, ht, hbecomes⟩ := h.read challenge code reqMeta (List.mem_of_mem_erase hmem)
    obtain ⟨t', ht', hbecomes'⟩ := heffect.becomes t ht
    exact ⟨hpurpose, t', ht', hbecomes.trans hbecomes'⟩
  · intro proof hproof
    rcases List.mem_append.mp hproof with hnew | hprevious
    · rcases heffect.proves with ⟨hnone, -⟩ | ⟨token, passwordHash, hproves, -⟩
      · rw [hnone] at hnew
        cases hnew
      · rw [hproves.proven, List.mem_singleton] at hnew
        exact ⟨token, hproves.mem, by rw [hnew]⟩
    · obtain ⟨t, ht, hhash⟩ := h.known proof hprevious
      obtain ⟨t', ht', hbecomes⟩ := heffect.becomes t ht
      exact ⟨t', ht', hbecomes.tokenHash_eq.trans hhash⟩
  · intro t' ht' hpurpose hunused
    rcases heffect.proves with ⟨hnone, horigin⟩ | ⟨token, passwordHash, hproves, horigin⟩
    · obtain ⟨t, ht, hbecomes⟩ := horigin t' ht' hpurpose
      refine hold t ht t' hbecomes hpurpose hunused fun proof hproof => ?_
      rw [hnone] at hproof
      cases hproof
    · rcases horigin t' ht' with rfl | ⟨t, ht, hbecomes⟩
      · -- the new challenge: nothing was recorded under its hash before
        refine .inr ⟨passwordHash, hproves.password, ?_, fun other hother => ?_⟩
        · change _ ∈ provenBy env c.db call answer ++ w.proofs
          rw [hproves.proven]
          exact List.mem_append_left _ (List.mem_singleton.mpr rfl)
        · rcases List.mem_append.mp hother with hnew | hprevious
          · rw [hproves.proven, List.mem_singleton, Prod.mk.injEq] at hnew
            exact hnew.2
          · obtain ⟨t, ht, hhash⟩ := h.known _ hprevious
            exact absurd hhash (hproves.new t ht)
      · refine hold t ht t' hbecomes hpurpose hunused fun proof hproof => ?_
        rw [hproves.proven, List.mem_singleton] at hproof
        rw [hproof]
        exact (hproves.new t ht).symm

theorem ChallengeInvariant.step {env : AuthEnv} (step : AuthStep) (w : AuthWorld)
    (h : ChallengeInvariant w) (hexpired : ChallengesExpired env w step) :
    ChallengeInvariant (step.apply env w) := by
  have heffect := step.effect env w
  generalize step.apply env w = w' at heffect ⊢
  cases heffect with
  | idle => exact h
  | read request now call hread =>
      refine ⟨fun challenge code reqMeta hmem => ?_, h.known, h.proven⟩
      rcases List.mem_cons.mp hmem with heq | hold
      · have hfound := read_foundIn hread
        rw [← heq] at hfound
        exact ⟨hfound.2.1, challenge.token, hfound.1, .refl _⟩
      · exact h.read challenge code reqMeta hold
  | resumed input reqMeta registration hopen =>
      refine ⟨fun challenge code reqMeta' hmem => ?_, h.known, h.proven⟩
      rcases List.mem_cons.mp hmem with heq | hold
      · cases heq
      · exact h.read challenge code reqMeta' (List.mem_of_mem_erase hold)
  | dropped _ call =>
      exact ⟨fun challenge code reqMeta hmem =>
        h.read challenge code reqMeta (List.mem_of_mem_erase hmem), h.known, h.proven⟩
  | committed call supply answer c hcall hcommits => exact h.commit hcommits hexpired
  | configured directory => exact ⟨h.read, h.known, h.proven⟩

theorem ChallengeInvariant.cutOff {env : AuthEnv} {w : AuthWorld} (h : ChallengeInvariant w) :
    OldPasswordsCutOff env w := by
  intro call supply session c hcall hcommits
  cases call with
  | login userId password reqMeta =>
      obtain ⟨result, hlogin, -⟩ := commits_answering hcommits
      obtain ⟨user, -, hfind, hverify, -⟩ := commits_login hlogin
      exact ⟨user, hfind, hverify⟩
  | register registration reqMeta =>
      obtain ⟨result, hregister, hanswer⟩ := commits_answering hcommits
      obtain ⟨locked, user, -, -, heffect⟩ := commits_register hregister
      intro userId huserId
      cases heffect with
      | challenge => cases hanswer
      | session consent c₁ c₂ isNewUser accounts joined m record userTokens members consents now
          session hdb hsupply haccount haccepted h =>
          cases haccount with
          | existing huser hfound hverified =>
              rw [huser, Option.mem_some_iff] at huserId
              rw [← huserId]
              exact ⟨user, hfound, hverified⟩
          | new _ hnone =>
              rw [hnone] at huserId
              cases huserId
  | completeLoginMfa challenge code reqMeta =>
      obtain ⟨outcome, hcomplete, hanswer⟩ := commits_answering hcommits
      obtain ⟨user, verified, _, _, hid, -, -, -, -, -, heffect⟩ :=
        commits_completeLoginMfa hcomplete
      cases heffect with
      | failed => cases hanswer
      | session haccepted now accounts c₁ c₂ session hnow hclaimed =>
          obtain ⟨t, ht, hclaimed⟩ := hclaimed
          have hconsumes := consumes_isClaimedToken challenge.token now
          obtain ⟨hpurpose, past, hpast, hbecomes⟩ := h.read challenge code reqMeta hcall
          have heq : past = t :=
            Table.eq_of_key hpast ht (hbecomes.id_eq.trans (hconsumes.id_eq t hclaimed).symm)
          subst heq
          have hpurpose' : past.purpose = .loginOtp := hbecomes.purpose_eq.trans hpurpose
          have hproven : ProvenNow w past := by
            refine (h.proven past ht hpurpose' (hconsumes.unused past hclaimed)).resolve_left ?_
            intro hlate
            have hlocks : (AuthCall.completeLoginMfa challenge code reqMeta).lockedUser =
                some past.userId := by rw [hbecomes.userId_eq]; rfl
            have hheld := w.heldUntil_le_clock hlocks supply
            have hlive := hconsumes.unexpired past hclaimed
            exact absurd hlive (not_lt.mpr (le_trans hlate (le_trans hheld hnow.1)))
          change ProvenNow w challenge.token
          unfold ProvenNow at hproven ⊢
          rw [hbecomes.userId_eq, hbecomes.tokenHash_eq] at hproven
          exact hproven
  | _ => trivial

/-- A world at rest in which no one-time token has been issued yet. -/
structure AuthWorld.WithoutTokens (w : AuthWorld) : Prop where
  atRest : w.AtRest
  tokens : w.db.userTokens.rows = []

theorem AuthWorld.WithoutTokens.invariant {w : AuthWorld} (h : w.WithoutTokens) :
    ChallengeInvariant w where
  read challenge code reqMeta hmem := by rw [h.atRest.calls] at hmem; cases hmem
  known proof hproof := by rw [h.atRest.proofs] at hproof; cases hproof
  proven t ht := by rw [Table.mem_def, h.tokens] at ht; cases ht

/-- In every run in which each change of a password finds the login challenges of its account
used or expired, every session rests on the password that its account has when it is opened. -/
theorem old_passwords_cut_off (env : AuthEnv) (w₀ : AuthWorld) (h : w₀.WithoutTokens)
    (steps : List AuthStep)
    (hexpired : ∀ pre step post, steps = pre ++ step :: post →
      ChallengesExpired env (run (AuthStep.apply env) pre w₀) step) :
    OldPasswordsCutOff env (run (AuthStep.apply env) steps w₀) := by
  have hinv : ∀ w : AuthWorld, ChallengeInvariant w → ∀ steps : List AuthStep,
      (∀ pre step post, steps = pre ++ step :: post →
        ChallengesExpired env (run (AuthStep.apply env) pre w) step) →
      ChallengeInvariant (run (AuthStep.apply env) steps w) := by
    intro w hw steps
    induction steps generalizing w with
    | nil => exact fun _ => hw
    | cons step steps ih =>
        intro hexpired
        refine ih _ (hw.step step w (hexpired [] step steps rfl)) ?_
        intro pre next post heq
        exact hexpired (step :: pre) next post (by rw [heq]; rfl)
  exact (hinv w₀ h.invariant steps hexpired).cutOff

namespace Demo

/-- A user with a second factor, who has one recovery code. -/
def guardedUser : User :=
  { user 1 "a" "old" with totpEnabledAt := some 0, mfaRecoveryCodes := some ["R"] }

def guardedWorld : AuthWorld :=
  world (database (directory .empty .empty) (only guardedUser))

/-- The challenge is opened with the old password, and lives for five minutes. -/
def openedChallenge : OpenChallenge :=
  ⟨⟨10, 1, .loginOtp, "t", 300001, none⟩, none⟩

/-- A challenge is opened, and read again after the password has been changed. -/
def overtakenSteps : List AuthStep :=
  [.read (.login "a" "old" ⟨none, none⟩) 0,
    .finish (.login 1 "old" ⟨none, none⟩) (supply 0 10 "t"),
    .read (.changePassword 1 "old" "new") 10,
    .finish (.changePassword 1 "new" 10) (supply 10 20 "s"),
    .read (.completeLoginMfa "t" "R" ⟨none, none⟩) 20]

end Demo

/-- A user without a challenge changes the password and signs in with the new one. -/
theorem old_passwords_cut_off_changed :
    let w := run (AuthStep.apply Demo.env)
      [.read (.changePassword 1 "old" "new") 10,
        .finish (.changePassword 1 "new" 10) (Demo.supply 10 20 "s"),
        .read (.login "a" "new" ⟨none, none⟩) 20] Demo.guardedWorld
    passwordHashOf w.db 1 = some "new" ∧ OldPasswordsCutOff Demo.env w := by
  refine ⟨by decide, old_passwords_cut_off Demo.env _ ⟨Demo.world_atRest _, rfl⟩ _ ?_⟩
  intro pre step post heq
  rcases pre with _ | ⟨_, _ | ⟨_, _ | ⟨_, pre⟩⟩⟩
  · cases heq
    trivial
  · cases heq
    intro userId answer c _ _ t ht
    have hnone : Demo.guardedWorld.db.userTokens.rows = [] := rfl
    change t ∈ Demo.guardedWorld.db.userTokens.rows at ht
    rw [hnone] at ht
    cases ht
  · cases heq
    trivial
  · have hlength := congrArg List.length heq
    simp at hlength

/-- A challenge that was opened with the old password is completed after the change. -/
theorem old_password_completes_challenge :
    ¬∀ steps, OldPasswordsCutOff Demo.env
      (run (AuthStep.apply Demo.env) steps Demo.guardedWorld) := by
  intro h
  let w := run (AuthStep.apply Demo.env) Demo.overtakenSteps Demo.guardedWorld
  let call : AuthCall := .completeLoginMfa Demo.openedChallenge "R" ⟨none, none⟩
  have hcall : call ∈ w.calls := by decide
  obtain ⟨answer, hcommits, hsession⟩ := exists_commits_of_run (m := perform Demo.env call)
    (s := w.connection call (Demo.supply 30 30 "u"))
    (p := fun answer => !(issuedBy call answer).isEmpty) (by decide)
  cases answer with
  | error e => exact absurd hsession Bool.false_ne_true
  | ok answer =>
      cases answer with
      | session session =>
          obtain ⟨passwordHash, hhash, hproof, -⟩ :=
            h Demo.overtakenSteps call _ session _ hcall hcommits
          have hnow : passwordHashOf w.db 1 = some "new" := by decide
          have hproofs : w.proofs = [("t", "old")] := by decide
          rw [hproofs, List.mem_singleton, Prod.mk.injEq] at hproof
          have heq := hnow.symm.trans hhash
          rw [hproof.2] at heq
          exact absurd heq (by decide)
      | _ => exact absurd hsession Bool.false_ne_true

end Refearn.Auth
