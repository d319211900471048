import Refearn.Auth.Account
import Refearn.Support.Runs
/-!
# Calls in flight

A call reads, and then runs a transaction that locks the rows it depends on; whatever else
commits in between is a step of its own. From its lock on a transaction is one step, with
readings of the clock that do not precede those of the transaction that held the lock
before it.
-/

namespace Refearn.Auth

open Support Support.Transaction

/-! ## Requests and calls -/

/-- A request as the controllers pass it on. -/
inductive AuthRequest
  | login (email password : String) (reqMeta : RequestMeta)
  | registerByInvite (input : RegisterByInviteInput) (reqMeta : RequestMeta)
  | completeLoginMfa (challengeToken code : String) (reqMeta : RequestMeta)
  | refresh (refreshTokenRaw : String) (reqMeta : RequestMeta)
  | logout (refreshTokenRaw : String)
  | revokeSession (userId sessionId : Uuid)
  | revokeAllSessions (userId : Uuid)
  | setupMfa (userId : Uuid)
  | enableMfa (userId : Uuid) (code : String)
  | disableMfa (userId : Uuid) (code : String)
  | verifyEmail (tokenRaw : String)
  | requestPasswordReset (email : String)
  | confirmPasswordReset (tokenRaw newPassword : String)
  | changePassword (userId : Uuid) (currentPassword newPassword : String)
  | issueInvite (input : IssueInput)

/-- A call with what it has read. -/
inductive AuthCall
  | login (userId : Uuid) (password : String) (reqMeta : RequestMeta)
  | openRegistration (input : RegisterByInviteInput) (reqMeta : RequestMeta)
  | register (registration : Registration) (reqMeta : RequestMeta)
  | expireInvite (inviteId : Uuid)
  | completeLoginMfa (challenge : OpenChallenge) (code : String) (reqMeta : RequestMeta)
  | refresh (token : RefreshToken) (reqMeta : RequestMeta)
  | logout (token : RefreshToken)
  | revokeSession (userId sessionId : Uuid)
  | revokeAllSessions (userId : Uuid)
  | setupMfa (userId : Uuid)
  | enableMfa (userId : Uuid) (code : String)
  | disableMfa (userId : Uuid) (code : String)
  | verifyEmail (tokenRaw : String)
  | requestPasswordReset (userId : Uuid)
  | confirmPasswordReset (token : UserToken) (newPassword : String)
  | changePassword (userId : Uuid) (newPassword : String) (revokedAt : Instant)
  | issueInvite (input : IssueInput)
  deriving DecidableEq

/-- The reads of a request; `now` is the clock at its checks. An error ends the call. -/
def AuthRequest.read (env : AuthEnv) (db : AuthDb) (now : Instant) :
    AuthRequest → Except AuthError AuthCall
  | .login email password reqMeta => do
      let userId ← checkLogin env db email password
      pure (.login userId password reqMeta)
  | .registerByInvite input reqMeta =>
      match overdueInvite db input.inviteCode now with
      | some inviteId => .ok (.expireInvite inviteId)
      | none => .ok (.openRegistration input reqMeta)
  | .completeLoginMfa challengeToken code reqMeta => do
      let challenge ← openChallenge env db challengeToken now
      pure (.completeLoginMfa challenge code reqMeta)
  | .refresh refreshTokenRaw reqMeta =>
      match findRefreshToken env db refreshTokenRaw with
      | some token => .ok (.refresh token reqMeta)
      | none => .error (.unauthorized "invalid refresh token")
  | .logout refreshTokenRaw =>
      -- a token that is unknown or revoked ends the call, without an error for the client
      match (findRefreshToken env db refreshTokenRaw).filter (·.revokedAt.isNone) with
      | some token => .ok (.logout token)
      | none => .error (.notFound "nothing to revoke")
  | .revokeSession userId sessionId => .ok (.revokeSession userId sessionId)
  | .revokeAllSessions userId => .ok (.revokeAllSessions userId)
  | .setupMfa userId => do
      checkMfaSetup db userId
      pure (.setupMfa userId)
  | .enableMfa userId code => .ok (.enableMfa userId code)
  | .disableMfa userId code => .ok (.disableMfa userId code)
  | .verifyEmail tokenRaw => .ok (.verifyEmail tokenRaw)
  | .requestPasswordReset email =>
      -- an unknown address ends the call, with the same answer
      match db.users.rows.find? fun u => u.email == email with
      | some user => .ok (.requestPasswordReset user.id)
      | none => .error (.notFound "nobody to mail")
  | .confirmPasswordReset tokenRaw newPassword => do
      let token ← openReset env db tokenRaw now
      pure (.confirmPasswordReset token newPassword)
  | .changePassword userId currentPassword newPassword => do
      checkPasswordChange env db userId currentPassword newPassword
      pure (.changePassword userId newPassword now)
  | .issueInvite input => .ok (.issueInvite input)

/-! ## Transactions -/

inductive Answer
  | session (session : AuthSession)
  | challenge (challenge : LoginMfaChallenge)
  | recoveryCodes (codes : List String)
  | secret (secret : String)
  | invite (invite : IssuedInvite)
  | done

def LoginResult.answer : LoginResult → Answer
  | .session s => .session s
  | .challenge c => .challenge c

/-- Run `m` and answer with what it returns. -/
def answering {α : Type} (m : AuthTx α) (answer : α → Except AuthError Answer) :
    AuthTx (Except AuthError Answer) := do
  let a ← m
  pure (answer a)

/-- The transaction of a call. Some answer with an error after they have committed. -/
def perform (env : AuthEnv) : AuthCall → AuthTx (Except AuthError Answer)
  | .login userId password reqMeta =>
      answering (loginInTransaction env userId password reqMeta) (.ok ·.answer)
  | .openRegistration _ _ => pure (.ok .done)
  | .register registration reqMeta =>
      answering (registerInTransaction env registration reqMeta) (.ok ·.answer)
  | .expireInvite inviteId =>
      answering (markExpired inviteId) fun _ => .error (.badRequest "invite has expired")
  | .completeLoginMfa challenge code reqMeta =>
      answering (completeLoginMfaInTransaction env challenge code reqMeta) fun outcome =>
        (mfaAnswer outcome).map .session
  | .refresh token reqMeta =>
      answering (refreshInTransaction env token reqMeta) fun outcome =>
        (refreshAnswer outcome).map .session
  | .logout token => answering (logoutInTransaction token) fun _ => .ok .done
  | .revokeSession userId sessionId =>
      answering (revokeSession userId sessionId) fun _ => .ok .done
  | .revokeAllSessions userId => answering (revokeAllSessions userId) fun _ => .ok .done
  | .setupMfa userId => answering (storeTotpSecret userId) (.ok <| .secret ·)
  | .enableMfa userId code => answering (enableMfa env userId code) (.ok <| .recoveryCodes ·)
  | .disableMfa userId code => answering (disableMfa env userId code) fun _ => .ok .done
  | .verifyEmail tokenRaw => answering (verifyEmail env tokenRaw) fun _ => .ok .done
  | .requestPasswordReset userId =>
      answering (requestPasswordResetInTransaction env userId) fun _ => .ok .done
  | .confirmPasswordReset token newPassword =>
      answering (confirmPasswordResetInTransaction env token newPassword) fun _ => .ok .done
  | .changePassword userId newPassword revokedAt =>
      answering (storePassword env userId newPassword revokedAt) fun _ => .ok .done
  | .issueInvite input => answering (issue env input) (.ok <| .invite ·)

/-- The user whose row a call locks or writes. -/
def AuthCall.lockedUser : AuthCall → Option Uuid
  | .login userId .. => userId
  | .register registration _ => registration.userId
  | .completeLoginMfa challenge .. => challenge.token.userId
  | .refresh token _ => token.userId
  | .logout token => token.userId
  | .revokeSession userId _ => userId
  | .revokeAllSessions userId => userId
  | .setupMfa userId => userId
  | .enableMfa userId _ => userId
  | .disableMfa userId _ => userId
  | .requestPasswordReset userId => userId
  | .confirmPasswordReset token _ => token.userId
  | .changePassword userId .. => userId
  | .openRegistration .. | .expireInvite _ | .verifyEmail _ | .issueInvite _ => none

/-! ## Worlds -/

/-- The committed database and the calls in flight; `heldUntil` is the last reading of the
clock under the lock of a user. The other fields record what has been answered: the sessions
handed out, the hash a password was verified against when a challenge was opened, the
one-time tokens and the recovery codes that calls succeeded with. -/
structure AuthWorld where
  db : AuthDb
  calls : List AuthCall
  heldUntil : Uuid → Instant
  issued : List (AuthCall × AuthSession)
  proofs : List (String × String)
  consumed : List Uuid
  recovered : List (Uuid × String)

def passwordHashOf (db : AuthDb) (userId : Uuid) : Option String :=
  (db.users.find? userId).map User.passwordHash

def recoveryCodesOf (db : AuthDb) (userId : Uuid) : List String :=
  ((db.users.find? userId).map fun u => recoveryHashes u.mfaRecoveryCodes).getD []

/-- The session that a call is answered with. -/
def issuedBy (call : AuthCall) : Except AuthError Answer → List (AuthCall × AuthSession)
  | .ok (.session session) => [(call, session)]
  | _ => []

/-- A challenge is opened on a password that was verified under the lock. -/
def provenBy (env : AuthEnv) (db : AuthDb) (call : AuthCall) :
    Except AuthError Answer → List (String × String)
  | .ok (.challenge challenge) =>
      (call.lockedUser.bind (passwordHashOf db)).toList.map fun passwordHash =>
        (env.sha256 challenge.challengeToken, passwordHash)
  | _ => []

/-- The one-time token that a call has succeeded with. -/
def consumedBy (env : AuthEnv) (db : AuthDb) : AuthCall → Except AuthError Answer → List Uuid
  | .completeLoginMfa challenge .., .ok _ => [challenge.token.id]
  | .confirmPasswordReset token _, .ok _ => [token.id]
  | .verifyEmail tokenRaw, .ok _ => ((findUserToken env db tokenRaw).map UserToken.id).toList
  | _, _ => []

/-- The recovery code that a call has succeeded with: the list has become shorter. -/
def recoveredBy (env : AuthEnv) (db db' : AuthDb) : AuthCall → List (Uuid × String)
  | .completeLoginMfa challenge code _ =>
      if recoveryCodesOf db' challenge.token.userId = recoveryCodesOf db challenge.token.userId
      then []
      else [(challenge.token.userId, hashRecoveryCode env (normalizeRecoveryCode code))]
  | _ => []

/-- The connection on which a call gets its lock. -/
def AuthWorld.connection (w : AuthWorld) (call : AuthCall) (supply : Supply) : Connection where
  db := w.db
  supply := match call.lockedUser with
    | some userId => { supply with clock := max supply.clock (w.heldUntil userId) }
    | none => supply

/-- The world after a call has committed. -/
def AuthWorld.commitCall (env : AuthEnv) (w : AuthWorld) (call : AuthCall)
    (answer : Except AuthError Answer) (c : Connection) : AuthWorld where
  db := c.db
  calls := w.calls.erase call
  heldUntil userId := if call.lockedUser = some userId then c.supply.clock else w.heldUntil userId
  issued := issuedBy call answer ++ w.issued
  proofs := provenBy env c.db call answer ++ w.proofs
  consumed := consumedBy env w.db call answer ++ w.consumed
  recovered := recoveredBy env w.db c.db call ++ w.recovered

inductive AuthStep
  | read (request : AuthRequest) (now : Instant)
  /-- The reads of a registration, after the invite was not found overdue. -/
  | resume (input : RegisterByInviteInput) (reqMeta : RequestMeta)
  | finish (call : AuthCall) (supply : Supply)
  /-- Another service has written the tables that these services only read. -/
  | configure (directory : Directory)

def AuthStep.apply (env : AuthEnv) : AuthStep → AuthWorld → AuthWorld
  | .read request now, w =>
      match request.read env w.db now with
      | .ok call => { w with calls := call :: w.calls }
      | .error _ => w
  | .resume input reqMeta, w =>
      if .openRegistration input reqMeta ∈ w.calls then
        match openRegistration env w.db input with
        | .ok registration =>
            { w with calls := .register registration reqMeta ::
                w.calls.erase (.openRegistration input reqMeta) }
        | .error _ => { w with calls := w.calls.erase (.openRegistration input reqMeta) }
      else w
  | .finish call supply, w =>
      if call ∈ w.calls then
        match (perform env call).run (w.connection call supply) with
        | .ok (answer, c) => w.commitCall env call answer c
        | .error _ => { w with calls := w.calls.erase call }
      else w
  | .configure directory, w => { w with db := { w.db with directory } }

/-- Nothing is in flight, and nothing has been answered. -/
structure AuthWorld.AtRest (w : AuthWorld) : Prop where
  calls : w.calls = []
  issued : w.issued = []
  proofs : w.proofs = []
  consumed : w.consumed = []
  recovered : w.recovered = []

namespace Demo

def world (db : AuthDb) : AuthWorld := ⟨db, [], fun _ => 0, [], [], [], []⟩

theorem world_atRest (db : AuthDb) : (world db).AtRest := ⟨rfl, rfl, rfl, rfl, rfl⟩

end Demo

/-! ## What a step can do -/

/-- What a request has found when it goes on as a call. -/
def AuthCall.FoundIn (db : AuthDb) (now : Instant) : AuthCall → Prop
  | .refresh token _ => token ∈ db.refreshTokens
  | .logout token => token ∈ db.refreshTokens
  | .completeLoginMfa challenge _ _ =>
      challenge.token ∈ db.userTokens ∧ challenge.token.purpose = .loginOtp ∧
        challenge.token.isOpenAt now = true ∧
          challenge.pendingId = (db.pendingInviteAcceptances.rows.find? fun p =>
            p.challengeTokenId == challenge.token.id).map PendingInviteAcceptance.id
  | .confirmPasswordReset token _ =>
      token ∈ db.userTokens ∧ token.purpose = .passwordReset ∧ token.isOpenAt now = true
  | .expireInvite inviteId =>
      ∃ i ∈ db.invites, i.id = inviteId ∧ i.status = .active ∧ i.expiresAt < now
  | .register .. => False
  | _ => True

theorem openChallenge_eq_ok {env : AuthEnv} {db : AuthDb} {raw : String} {now : Instant}
    {challenge : OpenChallenge} (h : openChallenge env db raw now = .ok challenge) :
    challenge.token ∈ db.userTokens ∧ challenge.token.purpose = .loginOtp ∧
      challenge.token.isOpenAt now = true ∧
        challenge.pendingId = (db.pendingInviteAcceptances.rows.find? fun p =>
          p.challengeTokenId == challenge.token.id).map PendingInviteAcceptance.id := by
  unfold openChallenge findUserToken at h
  split at h
  · cases h
  · split_ifs at h with hopen
    cases h
    exact ⟨List.mem_of_find?_eq_some ‹_›, hopen.1, hopen.2, rfl⟩

theorem openReset_eq_ok {env : AuthEnv} {db : AuthDb} {raw : String} {now : Instant}
    {token : UserToken} (h : openReset env db raw now = .ok token) :
    token ∈ db.userTokens ∧ token.purpose = .passwordReset ∧ token.isOpenAt now = true := by
  unfold openReset findUserToken at h
  split at h
  · cases h
  · split_ifs at h with hopen
    cases h
    exact ⟨List.mem_of_find?_eq_some ‹_›, hopen⟩

theorem overdueInvite_eq_some {db : AuthDb} {code : String} {now : Instant} {inviteId : Uuid}
    (h : overdueInvite db code now = some inviteId) :
    ∃ i ∈ db.invites, i.id = inviteId ∧ i.status = .active ∧ i.expiresAt < now := by
  unfold overdueInvite at h
  obtain ⟨i, hi, hid⟩ := Option.map_eq_some_iff.mp h
  obtain ⟨hfind, hoverdue⟩ := Option.filter_eq_some_iff.mp hi
  simp only [Bool.and_eq_true, beq_iff_eq, decide_eq_true_eq] at hoverdue
  exact ⟨i, List.mem_of_find?_eq_some hfind, hid, hoverdue⟩

theorem read_foundIn {env : AuthEnv} {db : AuthDb} {request : AuthRequest} {now : Instant}
    {call : AuthCall} (h : request.read env db now = .ok call) : call.FoundIn db now := by
  cases request with
  | login email password reqMeta =>
      obtain ⟨userId, -, hcall⟩ := bind_eq_ok.mp h
      cases hcall
      trivial
  | registerByInvite input reqMeta =>
      simp only [AuthRequest.read] at h
      split at h
      · cases h
        exact overdueInvite_eq_some ‹_›
      · cases h
        trivial
  | completeLoginMfa challengeToken code reqMeta =>
      obtain ⟨challenge, hopen, hcall⟩ := bind_eq_ok.mp h
      cases hcall
      exact openChallenge_eq_ok hopen
  | refresh raw reqMeta =>
      simp only [AuthRequest.read, findRefreshToken] at h
      split at h
      · cases h
        exact List.mem_of_find?_eq_some ‹_›
      · cases h
  | logout raw =>
      simp only [AuthRequest.read, findRefreshToken] at h
      split at h
      · cases h
        exact List.mem_of_find?_eq_some (Option.filter_eq_some_iff.mp ‹_›).1
      · cases h
  | confirmPasswordReset tokenRaw newPassword =>
      obtain ⟨token, hopen, hcall⟩ := bind_eq_ok.mp h
      cases hcall
      exact openReset_eq_ok hopen
  | setupMfa userId =>
      obtain ⟨_, -, hcall⟩ := bind_eq_ok.mp h
      cases hcall
      trivial
  | changePassword userId currentPassword newPassword =>
      obtain ⟨_, -, hcall⟩ := bind_eq_ok.mp h
      cases hcall
      trivial
  | requestPasswordReset email =>
      simp only [AuthRequest.read] at h
      split at h
      · cases h
        trivial
      · cases h
  | _ =>
      cases h
      trivial

/-- Everything that a step can do to a world. -/
inductive StepEffect (env : AuthEnv) (w : AuthWorld) : AuthStep → AuthWorld → Prop
  | idle (step : AuthStep) : StepEffect env w step w
  | read (request : AuthRequest) (now : Instant) (call : AuthCall)
      (hread : request.read env w.db now = .ok call) :
      StepEffect env w (.read request now) { w with calls := call :: w.calls }
  | resumed (input : RegisterByInviteInput) (reqMeta : RequestMeta) (registration : Registration)
      (hopen : openRegistration env w.db input = .ok registration) :
      StepEffect env w (.resume input reqMeta)
        { w with calls := .register registration reqMeta ::
            w.calls.erase (.openRegistration input reqMeta) }
  | dropped (step : AuthStep) (call : AuthCall) :
      StepEffect env w step { w with calls := w.calls.erase call }
  | committed (call : AuthCall) (supply : Supply) (answer : Except AuthError Answer)
      (c : Connection) (hcall : call ∈ w.calls)
      (hcommits : Commits (perform env call) (w.connection call supply) answer c) :
      StepEffect env w (.finish call supply) (w.commitCall env call answer c)
  | configured (directory : Directory) :
      StepEffect env w (.configure directory) { w with db := { w.db with directory } }

theorem AuthStep.effect (env : AuthEnv) (step : AuthStep) (w : AuthWorld) :
    StepEffect env w step (step.apply env w) := by
  cases step with
  | read request now =>
      simp only [AuthStep.apply]
      split
      · exact .read request now _ ‹_›
      · exact .idle _
  | resume input reqMeta =>
      simp only [AuthStep.apply]
      split_ifs with hmem
      · split
        · exact .resumed input reqMeta _ ‹_›
        · exact .dropped _ _
      · exact .idle _
  | finish call supply =>
      simp only [AuthStep.apply]
      split_ifs with hcall
      · split
        · exact .committed call supply _ _ hcall ‹_›
        · exact .dropped _ _
      · exact .idle _
  | configure directory => exact .configured directory

theorem AuthStep.apply_finish {env : AuthEnv} {w : AuthWorld} {call : AuthCall} {supply : Supply}
    {answer : Except AuthError Answer} {c : Connection} (hcall : call ∈ w.calls)
    (h : Commits (perform env call) (w.connection call supply) answer c) :
    (AuthStep.finish call supply).apply env w = w.commitCall env call answer c := by
  have hrun : (perform env call).run (w.connection call supply) = .ok (answer, c) := h
  simp only [AuthStep.apply, if_pos hcall, hrun]

theorem AuthWorld.connection_db (w : AuthWorld) (call : AuthCall) (supply : Supply) :
    (w.connection call supply).db = w.db := rfl

theorem AuthWorld.connection_uuids (w : AuthWorld) (call : AuthCall) (supply : Supply)
    (n : Nat) : (w.connection call supply).supply.uuids n = supply.uuids n := by
  unfold AuthWorld.connection
  split <;> rfl

end Refearn.Auth
