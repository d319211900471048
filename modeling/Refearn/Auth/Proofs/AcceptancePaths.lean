import Refearn.Auth.Proofs.InviteRuns
/-!
# The two ways into a business

An invite is accepted directly, or after a second factor from what was stored next to the
challenge. Both make a membership and its consent; the sign-up fields of the membership are
written by the direct way alone.
-/

namespace Refearn.Auth

open Support Support.Transaction

/-- Two memberships are the same up to what is generated for them and the instants at which
they were made. -/
structure SameMember (m m' : Membership) : Prop where
  tenantId : m.tenantId = m'.tenantId
  userId : m.userId = m'.userId
  role : m.role = m'.role
  roleId : m.roleId = m'.roleId
  sponsor : m.sponsorMembershipId = m'.sponsorMembershipId
  depth : m.depth = m'.depth
  status : m.status = m'.status
  isTeamLeader : m.isTeamLeader = m'.isTeamLeader
  signupIp : m.signupIp = m'.signupIp
  disclaimerAccepted : m.disclaimerAcceptedAt.isSome = m'.disclaimerAcceptedAt.isSome
  disclaimerVersion : m.disclaimerVersion = m'.disclaimerVersion

/-- An acceptance without a second factor. -/
def AcceptsDirectly (env : AuthEnv) (registration : Registration) (reqMeta : RequestMeta)
    (c c' : Connection) : Prop :=
  ∃ session, Commits (registerInTransaction env registration reqMeta) c (.session session) c'

/-- An acceptance that waits for a second factor, with nothing between its two calls. -/
def AcceptsAfterMfa (env : AuthEnv) (registration : Registration) (reqMeta : RequestMeta)
    (c c' : Connection) : Prop :=
  ∃ challenge c₁ opened now supply code session,
    Commits (registerInTransaction env registration reqMeta) c (.challenge challenge) c₁ ∧
      openChallenge env c₁.db challenge.challengeToken now = .ok opened ∧
        Commits (completeLoginMfaInTransaction env opened code reqMeta) ⟨c₁.db, supply⟩
          (.session session) c'

/-- The one membership that a run has added. -/
def Joins (db db' : AuthDb) (m : Membership) : Prop :=
  db'.memberships.rows = db.memberships.rows ++ [m]

theorem AcceptsDirectly.joins {env : AuthEnv} {registration : Registration}
    {reqMeta : RequestMeta} {c c' : Connection}
    (h : AcceptsDirectly env registration reqMeta c c') :
    ∃ m, Joins c.db c'.db m ∧ m.disclaimerVersion = some DISCLAIMER_VERSION ∧
      m.disclaimerAcceptedAt.isSome = true := by
  obtain ⟨session, hcommits⟩ := h
  obtain ⟨locked, user, -, -, heffect⟩ := commits_register hcommits
  cases heffect with
  | session consent c₁ c₂ isNewUser accounts joined m record userTokens members consents now
      session hdb hsupply haccount haccepted hissue =>
      obtain ⟨notes, logs, hdb'⟩ := haccepted.db
      obtain ⟨-, hmembers, -⟩ := issueSession_invites hissue
      obtain ⟨table, acceptedAt, -, hrows⟩ := haccepted.inserted
      rw [hdb'] at hmembers
      rw [hdb] at hrows
      refine ⟨m.withSignup (reqMeta.ip.filter (· ≠ "")) acceptedAt, ?_, rfl, rfl⟩
      unfold Joins
      rw [hmembers]
      exact hrows

/-- A challenge that a registration has opened is found with its staged acceptance. -/
theorem Opening.pendingId {env : AuthEnv} {userId inviteId tenantId : Uuid}
    {snapshot : InviteConsentSnapshot} {c c' : Connection} {challenge : LoginMfaChallenge}
    {token : UserToken} {tokens : Table UserToken} {pending : Table PendingInviteAcceptance}
    (h : Opening env userId (.invite inviteId tenantId snapshot) c c' challenge token tokens
      pending) {now : Instant} {opened : OpenChallenge}
    (hopen : openChallenge env c'.db challenge.challengeToken now = .ok opened) :
    opened.pendingId.isSome = true := by
  have hfound := hopen
  unfold openChallenge at hfound
  split at hfound
  · cases hfound
  · rename_i t hfind
    split_ifs at hfound
    obtain ⟨ht, -, -, hpending⟩ := openChallenge_eq_ok hopen
    cases hfound
    rw [hpending, Option.isSome_map, List.find?_isSome]
    -- the token that is found is the one that was just issued
    have hhash : t.tokenHash = env.sha256 challenge.challengeToken := by
      simpa using List.find?_some hfind
    obtain ⟨issuedAt, hinserted⟩ := h.inserted
    have hmem : token ∈ c'.db.userTokens := by
      rw [h.db]
      exact (Table.mem_insert? hinserted).mpr (.inr rfl)
    have heq : t = token := UserToken.eq_of_tokenHash ht hmem (hhash.trans h.tokenHash.symm)
    obtain ⟨id, hstaged⟩ := h.staged
    refine ⟨stagedRow userId inviteId token.id tenantId snapshot id, ?_, ?_⟩
    · rw [h.db]
      exact (Table.mem_insert? hstaged).mpr (.inr rfl)
    · rw [heq]
      exact beq_self_eq_true token.id

theorem AcceptsAfterMfa.joins {env : AuthEnv} {registration : Registration}
    {reqMeta : RequestMeta} {c c' : Connection}
    (h : AcceptsAfterMfa env registration reqMeta c c') :
    ∃ m, Joins c.db c'.db m ∧ m.disclaimerVersion = none := by
  obtain ⟨challenge, c₁, opened, now, supply, code, session, hregister, hopen, hcomplete⟩ := h
  obtain ⟨locked, user, -, -, hregistered⟩ := commits_register hregister
  obtain ⟨user', verified, _, _, -, -, -, -, -, -, hcompleted⟩ :=
    commits_completeLoginMfa hcomplete
  cases hregistered with
  | challenge consent c₂ challenge token tokens pending hdb hsupply haccount hopening =>
      have hpending := hopening.pendingId hopen
      have hbefore : c₁.db.memberships = c.db.memberships := by rw [hopening.db, hdb]
      cases hcompleted with
      | session haccepted now' accounts d₁ d₂ session hnow hclaimed hupdated hdb' hsupply'
          hstaged hissue =>
          obtain ⟨-, hmembers, -⟩ := issueSession_invites hissue
          generalize opened.pendingId = pendingId at hstaged hpending
          cases hstaged with
          | login => cases hpending
          | invite pendingId' locked' staged consent' m record accounts' members consents h' =>
              obtain ⟨notes, logs, hdb''⟩ := h'.db
              have hinserted := (Table.insert?_eq_some.mp h'.inserted).2
              rw [hdb''] at hmembers
              rw [hdb'] at hinserted
              refine ⟨m, ?_, h'.joined.disclaimerVersion⟩
              unfold Joins
              rw [hmembers, ← hbefore]
              exact hinserted

/-- However an invite is accepted in the two ways, the two members differ: only the direct way
records the disclaimer that was accepted. -/
theorem acceptances_differ {env : AuthEnv} {registration : Registration} {reqMeta : RequestMeta}
    {c c' d d' : Connection} (hdirect : AcceptsDirectly env registration reqMeta c c')
    (hstaged : AcceptsAfterMfa env registration reqMeta d d') :
    ¬∃ m m', Joins c.db c'.db m ∧ Joins d.db d'.db m' ∧ SameMember m m' := by
  rintro ⟨m, m', hm, hm', hsame⟩
  obtain ⟨n, hn, hversion, -⟩ := hdirect.joins
  obtain ⟨n', hn', hversion'⟩ := hstaged.joins
  have heq : m = n := by
    have hrows := hm.symm.trans hn
    simpa using hrows
  have heq' : m' = n' := by
    have hrows := hm'.symm.trans hn'
    simpa using hrows
  have hversions := hsame.disclaimerVersion
  rw [heq, heq', hversion, hversion'] at hversions
  cases hversions

namespace Demo

/-- An invite has been issued, and one more user is known. -/
def invited (joiner : User) : AuthDb :=
  let db := (run (AuthStep.apply env) (openedSteps.take 2) invitingWorld).db
  { db with users := (db.users.insert? joiner).getD .empty }

def joining : Registration := ⟨signUp, 20, "b", some 2⟩

/-- A request from a known address. -/
def fromAddress : RequestMeta := ⟨some "10.0.0.1", none⟩

def joiner : User := user 2 "b" "q"

/-- The same user, with a second factor. -/
def guardedJoiner : User :=
  { joiner with totpEnabledAt := some 0, mfaRecoveryCodes := some ["R"] }

def registering (joiner : User) : Connection := ⟨invited joiner, supply 20 30 "t"⟩

/-- What the direct acceptance leaves behind. -/
def direct : Connection :=
  (registerInTransaction env joining fromAddress).commit (registering joiner)

/-- What the registration of the guarded user leaves behind. -/
def challenged : Connection :=
  (registerInTransaction env joining fromAddress).commit (registering guardedJoiner)

def stagedChallenge : OpenChallenge := ⟨⟨30, 2, .loginOtp, "t", 300023, none⟩, some 31⟩

def staged : Connection :=
  (completeLoginMfaInTransaction env stagedChallenge "R" fromAddress).commit
    ⟨challenged.db, supply 40 40 "u"⟩

theorem direct_accepts :
    AcceptsDirectly env joining fromAddress (registering joiner) direct := by
  obtain ⟨result, hcommits, hsession⟩ := exists_commits_of_run
    (m := registerInTransaction env joining fromAddress)
    (s := registering joiner) (p := fun result => result matches .session _)
    (by decide)
  cases result with
  | session session => exact ⟨session, hcommits⟩
  | challenge challenge => cases hsession

theorem staged_accepts :
    AcceptsAfterMfa env joining fromAddress (registering guardedJoiner) staged := by
  obtain ⟨result, hregister, hchallenge⟩ := exists_commits_of_run
    (m := registerInTransaction env joining fromAddress)
    (s := registering guardedJoiner)
    (p := fun result => match result with
      | .challenge challenge => challenge.challengeToken = "t"
      | .session _ => false) (by decide)
  obtain ⟨outcome, hcomplete, hsession⟩ := exists_commits_of_run
    (m := completeLoginMfaInTransaction env stagedChallenge "R" fromAddress)
    (s := ⟨challenged.db, supply 40 40 "u"⟩) (p := fun outcome => outcome matches .session _)
    (by decide +kernel)
  cases result with
  | session session => cases hchallenge
  | challenge challenge =>
      cases outcome with
      | failed userId => cases hsession
      | session session =>
          have hopen : openChallenge env challenged.db "t" 40 = .ok stagedChallenge := by
            decide
          have htoken : challenge.challengeToken = "t" := of_decide_eq_true hchallenge
          refine ⟨challenge, challenged, stagedChallenge, 40, supply 40 40 "u", "R", session,
            hregister, ?_, hcomplete⟩
          rw [htoken]
          exact hopen

end Demo

/-- A user without a second factor accepts directly, the same user with one after a code. -/
theorem acceptances_differ_joiner :
    ¬∃ m m', Joins (Demo.registering Demo.joiner).db Demo.direct.db m ∧
      Joins (Demo.registering Demo.guardedJoiner).db Demo.staged.db m' ∧ SameMember m m' :=
  acceptances_differ Demo.direct_accepts Demo.staged_accepts

/-- The members that the two ways make of one user are not the same: neither the address nor
the disclaimer is known of the second one. -/
theorem staged_member_lacks_signup :
    ¬∀ c' d', AcceptsDirectly Demo.env Demo.joining Demo.fromAddress
        (Demo.registering Demo.joiner) c' →
      AcceptsAfterMfa Demo.env Demo.joining Demo.fromAddress
        (Demo.registering Demo.guardedJoiner) d' →
      ∃ m ∈ c'.db.memberships, ∃ m' ∈ d'.db.memberships, m.userId = 2 ∧ SameMember m m' := by
  intro h
  obtain ⟨m, hm, m', hm', huser, hsame⟩ :=
    h Demo.direct Demo.staged Demo.direct_accepts Demo.staged_accepts
  have hip : Demo.direct.db.memberships.rows.all
      (fun m => m.userId != 2 || m.signupIp == some "10.0.0.1") = true := by decide
  have hnone : Demo.staged.db.memberships.rows.all (fun m => m.signupIp == none) = true := by
    decide +kernel
  have hdirect := List.all_eq_true.mp hip m hm
  have hstaged := List.all_eq_true.mp hnone m' hm'
  rw [huser, Bool.or_eq_true, bne_self_eq_false, beq_iff_eq] at hdirect
  rw [beq_iff_eq, ← hsame.signupIp] at hstaged
  rcases hdirect with hfalse | hsome
  · cases hfalse
  · rw [hstaged] at hsome
    cases hsome

end Refearn.Auth
