import Refearn.Auth.Proofs.OneTime
import Refearn.Auth.Proofs.Sessions
/-!
# One-time credentials over whole runs

A one-time token is consumed by one committed call, before it expires; a recovery code leaves
the list of its account when it is consumed. A call that does not succeed consumes nothing.
-/

namespace Refearn.Auth

open Support Support.Transaction

/-! ## Tokens -/

/-- No token has been consumed twice, and the consumed ones are used. -/
structure ConsumedOnce (w : AuthWorld) : Prop where
  nodup : w.consumed.Nodup
  used : ∀ id ∈ w.consumed, ∃ t ∈ w.db.userTokens, t.id = id ∧ t.usedAt.isSome = true

/-- What a call has consumed: an unused token that had not expired at `now`. -/
structure ConsumedAt (id : Uuid) (c c' : Connection) (t : UserToken) (now : Instant) : Prop where
  mem : t ∈ c.db.userTokens
  id_eq : t.id = id
  unused : t.usedAt = none
  unexpired : now < t.expiresAt
  underLock : c.supply.clock ≤ now ∧ now ≤ c'.supply.clock
  used : { t with usedAt := some now } ∈ c'.db.userTokens

theorem TokenEffect.consumedAt {env : AuthEnv} {call : AuthCall} {c c' : Connection}
    {answer : Except AuthError Answer} (h : TokenEffect env call c c' answer) {id : Uuid}
    (hid : id ∈ consumedBy env c.db call answer) :
    consumedBy env c.db call answer = [id] ∧ ∃ t now, ConsumedAt id c c' t now := by
  cases h with
  | kept hproven hconsumed =>
      rw [hconsumed] at hid
      cases hid
  | asked hproven hconsumed =>
      rw [hconsumed] at hid
      cases hid
  | opened challenge hconsumed =>
      rw [hconsumed] at hid
      cases hid
  | consumed hproven token hconsumed p now hnow hp hclaimed htokens =>
      rw [hconsumed, List.mem_singleton] at hid
      subst hid
      obtain ⟨t, ht, hpt⟩ := hclaimed
      refine ⟨hconsumed, t, now, ht, hp.id_eq t hpt, hp.unused t hpt, hp.unexpired t hpt, hnow, ?_⟩
      rw [htokens]
      unfold usedTokens
      rw [Table.mem_def, Table.rows_updateWhere]
      exact List.mem_map.mpr ⟨t, ht, if_pos hpt⟩

theorem consumedBy_nodup (env : AuthEnv) (db : AuthDb) (call : AuthCall)
    (answer : Except AuthError Answer) : (consumedBy env db call answer).Nodup := by
  unfold consumedBy
  split
  · exact List.nodup_singleton _
  · exact List.nodup_singleton _
  · cases (findUserToken env db _).map UserToken.id with
    | none => exact List.nodup_nil
    | some id => exact List.nodup_singleton _
  · exact List.nodup_nil

theorem ConsumedOnce.commit {env : AuthEnv} {w : AuthWorld} (h : ConsumedOnce w)
    {call : AuthCall} {supply : Supply} {answer : Except AuthError Answer} {c : Connection}
    (heffect : TokenEffect env call (w.connection call supply) c answer) :
    ConsumedOnce (w.commitCall env call answer c) where
  nodup := by
    refine List.nodup_append.mpr ⟨consumedBy_nodup .., h.nodup, ?_⟩
    rintro id hid _ hold rfl
    -- a consumed token is used, so it is not consumed again
    obtain ⟨-, t, now, hconsumed⟩ := heffect.consumedAt hid
    obtain ⟨t', ht', hid', hused⟩ := h.used id hold
    have heq : t = t' := Table.eq_of_key hconsumed.mem ht' (hconsumed.id_eq.trans hid'.symm)
    rw [← heq, hconsumed.unused] at hused
    cases hused
  used id hid := by
    rcases List.mem_append.mp hid with hnew | hold
    · obtain ⟨-, t, now, hconsumed⟩ := heffect.consumedAt hnew
      exact ⟨_, hconsumed.used, hconsumed.id_eq, rfl⟩
    · obtain ⟨t, ht, hid', hused⟩ := h.used id hold
      obtain ⟨t', ht', hbecomes⟩ := heffect.becomes t ht
      rw [hbecomes.used hused] at ht'
      exact ⟨t, ht', hid', hused⟩

theorem ConsumedOnce.step {env : AuthEnv} (step : AuthStep) (w : AuthWorld)
    (h : ConsumedOnce w) : ConsumedOnce (step.apply env w) := by
  have heffect := step.effect env w
  generalize step.apply env w = w' at heffect ⊢
  cases heffect with
  | committed call supply answer c hcall hcommits => exact h.commit (perform_tokenEffect hcommits)
  | _ => exact ⟨h.nodup, h.used⟩

theorem ConsumedOnce.run {env : AuthEnv} {w : AuthWorld} (h : ConsumedOnce w)
    (steps : List AuthStep) : ConsumedOnce (run (AuthStep.apply env) steps w) := by
  induction steps generalizing w with
  | nil => exact h
  | cons step steps ih => exact ih (h.step step w)

/-- Every call that succeeds with a token has used it before it expired. -/
def ConsumedInTime (env : AuthEnv) (w : AuthWorld) : Prop :=
  ∀ call supply answer c, Commits (perform env call) (w.connection call supply) answer c →
    ∀ id ∈ consumedBy env w.db call answer,
      ∃ t now, ConsumedAt id (w.connection call supply) c t now

theorem consumedInTime (env : AuthEnv) (w : AuthWorld) : ConsumedInTime env w := by
  intro call supply answer c hcommits id hid
  exact ((perform_tokenEffect hcommits).consumedAt hid).2

/-! ## Calls that fail -/

/-- The calls that are made with a one-time token. -/
def AuthCall.takesToken : AuthCall → Bool
  | .completeLoginMfa .. | .verifyEmail _ | .confirmPasswordReset .. => true
  | _ => false

/-- A call with a one-time token succeeds, or changes nothing and hands out nothing. -/
def FailureChangesNothing (env : AuthEnv) (w : AuthWorld) : Prop :=
  ∀ call supply, call.takesToken = true →
    let w' := (AuthStep.finish call supply).apply env w
    (∃ answer c, Commits (perform env call) (w.connection call supply) (.ok answer) c) ∨
      (w'.db = w.db ∧ w'.issued = w.issued ∧ w'.proofs = w.proofs ∧ w'.consumed = w.consumed ∧
        w'.recovered = w.recovered)

/-- A call with a one-time token that commits without success has found a wrong code. -/
theorem db_eq_of_error {env : AuthEnv} {call : AuthCall} (hcall : call.takesToken = true)
    {e : AuthError} {c c' : Connection} (h : Commits (perform env call) c (.error e) c') :
    c'.db = c.db := by
  cases call with
  | completeLoginMfa challenge code reqMeta =>
      obtain ⟨outcome, hcomplete, hanswer⟩ := commits_answering h
      obtain ⟨user, verified, _, _, -, -, -, -, -, -, heffect⟩ :=
        commits_completeLoginMfa hcomplete
      cases heffect with
      | failed hrefused hdb => exact hdb
      | session => cases hanswer
  | verifyEmail tokenRaw =>
      obtain ⟨_, _, hanswer⟩ := commits_answering h
      cases hanswer
  | confirmPasswordReset token newPassword =>
      obtain ⟨_, _, hanswer⟩ := commits_answering h
      cases hanswer
  | _ => cases hcall

theorem recoveredBy_of_db_eq (env : AuthEnv) {db db' : AuthDb} (call : AuthCall)
    (h : db' = db) : recoveredBy env db db' call = [] := by
  subst h
  unfold recoveredBy
  split
  · rw [if_pos rfl]
  · rfl

theorem failureChangesNothing (env : AuthEnv) (w : AuthWorld) : FailureChangesNothing env w := by
  intro call supply htakes w'
  have heffect : StepEffect env w (.finish call supply) w' :=
    (AuthStep.finish call supply).effect env w
  generalize w' = after at heffect ⊢
  cases heffect with
  | committed _ _ answer c hcall hcommits =>
      cases answer with
      | ok answer => exact .inl ⟨answer, c, hcommits⟩
      | error e =>
          have hdb : c.db = w.db := db_eq_of_error htakes hcommits
          refine .inr ⟨hdb, rfl, rfl, ?_, ?_⟩
          · have hnone : consumedBy env w.db call (.error e) = [] := by cases call <;> rfl
            change consumedBy env w.db call (.error e) ++ w.consumed = w.consumed
            rw [hnone, List.nil_append]
          · change recoveredBy env w.db c.db call ++ w.recovered = w.recovered
            rw [recoveredBy_of_db_eq env call hdb, List.nil_append]
  | _ => exact .inr ⟨rfl, rfl, rfl, rfl, rfl⟩

/-! ## Recovery codes -/

/-- The code is one of a list, and leaves it. -/
def TakenFrom (codes codes' : List String) (hash : String) : Prop :=
  hash ∈ codes ∧ codes' = codes.erase hash

theorem recoveryVerification_next {env : AuthEnv} {user : User} {code : String}
    {hashes : List String}
    (h : (recoveryVerification env user code true).nextRecoveryHashes = some hashes) :
    TakenFrom (recoveryHashes user.mfaRecoveryCodes) hashes
      (hashRecoveryCode env (normalizeRecoveryCode code)) := by
  unfold recoveryVerification at h
  simp only at h
  split_ifs at h
  generalize hlist : recoveryHashes user.mfaRecoveryCodes = codes at h ⊢
  generalize hashRecoveryCode env (normalizeRecoveryCode code) = candidate at h ⊢
  split at h
  · cases h
  · rename_i index hindex
    have hnext : codes.eraseIdx index = hashes := Option.some.inj h
    have hfound : codes.idxOf? candidate = some index := hindex
    have hmem : candidate ∈ codes := by
      by_contra hnone
      rw [List.idxOf?_eq_none_iff.mpr hnone] at hfound
      cases hfound
    refine ⟨hmem, ?_⟩
    rw [List.erase_eq_eraseIdx, hfound]
    exact hnext.symm

theorem mfaVerification_next {env : AuthEnv} {user : User} {code : String} {now : Instant}
    {verified : MfaVerification} {hashes : List String}
    (h : mfaVerification env user code true now = .ok verified)
    (hnext : verified.nextRecoveryHashes = some hashes) :
    TakenFrom (recoveryHashes user.mfaRecoveryCodes) hashes
      (hashRecoveryCode env (normalizeRecoveryCode code)) := by
  unfold mfaVerification at h
  obtain ⟨accepted, -, hverified⟩ := bind_eq_ok.mp h
  cases accepted with
  | true =>
      cases hverified
      cases hnext
  | false =>
      cases hverified
      exact recoveryVerification_next hnext

theorem recoveryCodesOf_eq {db : AuthDb} {userId : Uuid} {u : User}
    (h : db.users.find? userId = some u) :
    recoveryCodesOf db userId = recoveryHashes u.mfaRecoveryCodes := by
  unfold recoveryCodesOf
  rw [h]
  rfl

/-- A completed challenge takes at most the recovery code that was shown. -/
theorem completeLoginMfa_codes {env : AuthEnv} {challenge : OpenChallenge} {code : String}
    {reqMeta : RequestMeta} {answer : Except AuthError Answer} {c c' : Connection}
    (h : Commits (perform env (.completeLoginMfa challenge code reqMeta)) c answer c') :
    recoveryCodesOf c'.db challenge.token.userId = recoveryCodesOf c.db challenge.token.userId ∨
      TakenFrom (recoveryCodesOf c.db challenge.token.userId)
        (recoveryCodesOf c'.db challenge.token.userId)
        (hashRecoveryCode env (normalizeRecoveryCode code)) := by
  obtain ⟨outcome, hcomplete, -⟩ := commits_answering h
  obtain ⟨user, verified, _, _, hid, hfind, -, hverified, -, -, heffect⟩ :=
    commits_completeLoginMfa hcomplete
  rw [← hid]
  cases heffect with
  | failed hrefused hdb => exact .inl (by rw [hdb])
  | session haccepted now accounts c₁ c₂ session hnow hclaimed hupdated hdb hsupply hstaged h =>
      have hstored := hstaged.users
      rw [hdb] at hstored
      have hall := hupdated.trans (hstored.trans (extends_issueSession h))
      obtain ⟨u', hu', hcodes⟩ := hall.observe User.mfaRecoveryCodes (fun _ => rfl) hfind
      rw [if_pos rfl] at hcodes
      rw [recoveryCodesOf_eq hu', recoveryCodesOf_eq hfind, hcodes]
      cases hnext : verified.nextRecoveryHashes with
      | none => exact .inl rfl
      | some hashes => exact .inr (mfaVerification_next hverified hnext)

/-- The recovery codes of an account that were consumed, and those it still has. -/
def codesAccounted (w : AuthWorld) (userId : Uuid) (hash : String) : Nat :=
  w.recovered.count (userId, hash) + (recoveryCodesOf w.db userId).count hash

/-- The steps that replace the whole list of an account. -/
def AuthStep.replacesCodes (userId : Uuid) : AuthStep → Prop
  | .finish (.enableMfa id _) _ => id = userId
  | .finish (.disableMfa id _) _ => id = userId
  | _ => False

theorem TakenFrom.ne {codes codes' : List String} {hash : String}
    (h : TakenFrom codes codes' hash) : codes' ≠ codes := by
  intro heq
  have hlength := List.length_erase_of_mem h.1
  have hpos : 0 < codes.length := List.length_pos_of_mem h.1
  rw [← h.2, heq] at hlength
  omega

theorem TakenFrom.count {codes codes' : List String} {hash : String}
    (h : TakenFrom codes codes' hash) (other : String) :
    (if hash = other then 1 else 0) + codes'.count other = codes.count other := by
  obtain ⟨hmem, rfl⟩ := h
  by_cases heq : hash = other
  · subst heq
    have hpos : 0 < codes.count hash := List.count_pos_iff.mpr hmem
    rw [if_pos rfl, List.count_erase_self]
    omega
  · rw [if_neg heq, List.count_erase_of_ne (Ne.symm heq)]
    omega

/-- Of a user whose codes a call leaves alone, none is recorded as consumed. -/
theorem count_recoveredBy_of_kept {env : AuthEnv} {db db' : AuthDb} {call : AuthCall}
    {userId : Uuid} (h : recoveryCodesOf db' userId = recoveryCodesOf db userId) (hash : String) :
    (recoveredBy env db db' call).count (userId, hash) = 0 := by
  rw [List.count_eq_zero]
  intro hmem
  unfold recoveredBy at hmem
  split at hmem
  · split_ifs at hmem with hsame
    · cases hmem
    · rw [List.mem_singleton, Prod.mk.injEq] at hmem
      rw [hmem.1] at h
      exact hsame h
  · cases hmem

theorem commit_codesAccounted {env : AuthEnv} {w : AuthWorld} {call : AuthCall}
    {supply : Supply} {answer : Except AuthError Answer} {c : Connection}
    (hcommits : Commits (perform env call) (w.connection call supply) answer c) {userId : Uuid}
    {u : User} (hu : w.db.users.find? userId = some u)
    (hcall : ¬(AuthStep.finish call supply).replacesCodes userId) (hash : String) :
    codesAccounted (w.commitCall env call answer c) userId hash = codesAccounted w userId hash := by
  change ((recoveredBy env w.db c.db call ++ w.recovered).count (userId, hash)) +
    (recoveryCodesOf c.db userId).count hash = _
  rw [List.count_append]
  unfold codesAccounted
  by_cases hkept : recoveryCodesOf c.db userId = recoveryCodesOf w.db userId
  · rw [count_recoveredBy_of_kept hkept, hkept]
    omega
  · have hchanges : call.changesCodes = some userId := by
      by_contra hother
      obtain ⟨u', hu', hcodes⟩ := (perform_accountEffect hcommits).recoveryCodes hu hother
      refine hkept ?_
      rw [recoveryCodesOf_eq hu', recoveryCodesOf_eq hu, hcodes]
    cases call with
    | completeLoginMfa challenge code reqMeta =>
        have hid : challenge.token.userId = userId := Option.some.inj hchanges
        subst hid
        have htaken : TakenFrom (recoveryCodesOf w.db challenge.token.userId)
            (recoveryCodesOf c.db challenge.token.userId)
            (hashRecoveryCode env (normalizeRecoveryCode code)) :=
          (completeLoginMfa_codes hcommits).resolve_left hkept
        have hcount := htaken.count hash
        have hrecovered : recoveredBy env w.db c.db (.completeLoginMfa challenge code reqMeta) =
            [(challenge.token.userId, hashRecoveryCode env (normalizeRecoveryCode code))] :=
          if_neg hkept
        rw [hrecovered, List.count_singleton, ← hcount]
        simp only [beq_iff_eq, Prod.mk.injEq, true_and]
        omega
    | enableMfa id code => exact absurd (Option.some.inj hchanges) hcall
    | disableMfa id code => exact absurd (Option.some.inj hchanges) hcall
    | _ => exact absurd hchanges nofun

theorem step_codesAccounted {env : AuthEnv} (step : AuthStep) (w : AuthWorld) {userId : Uuid}
    {u : User} (hu : w.db.users.find? userId = some u) (hstep : ¬step.replacesCodes userId)
    (hash : String) :
    codesAccounted (step.apply env w) userId hash = codesAccounted w userId hash ∧
      ∃ u', (step.apply env w).db.users.find? userId = some u' := by
  have heffect := step.effect env w
  generalize step.apply env w = w' at heffect ⊢
  cases heffect with
  | committed call supply answer c hcall hcommits =>
      refine ⟨commit_codesAccounted hcommits hu hstep hash, ?_⟩
      obtain ⟨u', hu', -⟩ := (perform_sessionEffect hcommits).age.accounts _ u hu
      exact ⟨u', hu'⟩
  | _ => exact ⟨rfl, u, hu⟩

theorem run_codesAccounted {env : AuthEnv} (steps : List AuthStep) (w : AuthWorld)
    {userId : Uuid} (hu : ∃ u, w.db.users.find? userId = some u)
    (hsteps : ∀ step ∈ steps, ¬step.replacesCodes userId) (hash : String) :
    codesAccounted (run (AuthStep.apply env) steps w) userId hash =
      codesAccounted w userId hash := by
  induction steps generalizing w with
  | nil => rfl
  | cons step steps ih =>
      obtain ⟨u, hu⟩ := hu
      obtain ⟨hkept, hu'⟩ : codesAccounted (step.apply env w) userId hash =
          codesAccounted w userId hash ∧ ∃ u', (step.apply env w).db.users.find? userId = some u' :=
        step_codesAccounted step w hu (hsteps step List.mem_cons_self) hash
      have hrest := ih (step.apply env w) hu' fun s hs => hsteps s (List.mem_cons_of_mem _ hs)
      exact hrest.trans hkept

/-! ## All of them -/

/-- In every run, no one-time token is consumed twice, each is consumed before it expires, and
a call that fails changes nothing; as long as the recovery codes of an account are not
replaced, each one that is consumed is one that the account no longer has. -/
theorem one_time_credentials (env : AuthEnv) (w₀ : AuthWorld) (h : w₀.AtRest)
    (steps : List AuthStep) :
    let w := run (AuthStep.apply env) steps w₀
    w.consumed.Nodup ∧ ConsumedInTime env w ∧ FailureChangesNothing env w ∧
      ∀ userId, (∃ u, w.db.users.find? userId = some u) → ∀ later : List AuthStep,
        (∀ step ∈ later, ¬step.replacesCodes userId) → ∀ hash,
          codesAccounted (run (AuthStep.apply env) later w) userId hash =
            codesAccounted w userId hash := by
  intro w
  have hstart : ConsumedOnce w₀ := by
    refine ⟨?_, fun id hid => ?_⟩
    · rw [h.consumed]
      exact List.nodup_nil
    · rw [h.consumed] at hid
      cases hid
  exact ⟨(hstart.run steps).nodup, consumedInTime env w, failureChangesNothing env w,
    fun userId hu later hlater hash => run_codesAccounted later w hu hlater hash⟩

/-- An address that is confirmed. -/
theorem one_time_credentials_verified :
    let token : UserToken := ⟨5, 1, .emailVerify, "t", 9, none⟩
    let db := { Demo.database (Demo.directory .empty .empty) (Demo.only (Demo.user 1 "a" "p"))
      with userTokens := Demo.only token }
    let w := run (AuthStep.apply Demo.env)
      [.read (.verifyEmail "t") 0, .finish (.verifyEmail "t") (Demo.supply 0 10 "u")]
      (Demo.world db)
    w.consumed = [5] ∧ w.consumed.Nodup :=
  ⟨by decide, (one_time_credentials Demo.env _ (Demo.world_atRest _) _).1⟩

end Refearn.Auth
