import Refearn.Auth.Mfa
import Refearn.Auth.Sessions
/-!
# Invites and the consent to join

`invites/invite-consent.ts`, `memberships.service.ts` and the issuing and expiring of
invites (`invites.service.ts`, and the first statements of `registerByInvite`).
-/

namespace Refearn.Auth

open Support Support.Transaction

/-! ## Consent -/

/-- `INVITE_DISCLAIMER_VERSION` -/
def INVITE_DISCLAIMER_VERSION : String := "2026-07-16"

/-- `INVITE_DISCLAIMER_REGISTRY[version]?.[locale]` -/
def disclaimerBody (version locale : String) : Option String :=
  if version = INVITE_DISCLAIMER_VERSION then
    if locale = "en" then
      some ("Earnings are not guaranteed. Commissions are calculated only from eligible, " ++
        "verified sales under the current program rules.")
    else if locale = "tr" then
      some ("Kazanç garanti edilmez. Komisyonlar yalnızca güncel program kuralları " ++
        "kapsamındaki uygun ve doğrulanmış satışlar üzerinden hesaplanır.")
    else none
  else none

def formatBasisPoints (poolRateBps : Int) : String :=
  let sign := if poolRateBps < 0 then "-" else ""
  let whole := toString (poolRateBps.natAbs / 100)
  let remainder := poolRateBps.natAbs % 100
  if remainder = 0 then sign ++ whole
  else if remainder % 10 = 0 then sign ++ whole ++ "." ++ toString (remainder / 10)
  else sign ++ whole ++ "." ++ (if remainder < 10 then "0" else "") ++ toString remainder

structure InviteConsentSnapshot where
  disclaimerVersion : String
  locale : String
  disclaimerContentHash : String
  tenantDisplayName : String
  programSummary : String
  programSummaryHash : String
  acceptedAt : Instant

def programSummary (locale tenantDisplayName : String) (plan : CommissionPlan) : String :=
  let percent := formatBasisPoints plan.poolRateBps
  if locale = "en" then
    tenantDisplayName ++ " · " ++ plan.name ++ ": eligible, verified sales can reward up to " ++
      toString plan.depth ++ " referral levels within a " ++ percent ++ "% commission pool."
  else
    tenantDisplayName ++ " · " ++ plan.name ++ ": uygun ve doğrulanmış satışlar, %" ++ percent ++
      " komisyon havuzu içinde en fazla " ++ toString plan.depth ++
      " referans seviyesini ödüllendirebilir."

def createInviteConsentSnapshot (env : AuthEnv) (disclaimerVersion locale : String)
    (tenantDisplayName : String) (plan : CommissionPlan) (acceptedAt : Instant) :
    Except AuthError InviteConsentSnapshot :=
  match disclaimerBody disclaimerVersion locale with
  | none => .error (.internal "unsupported invite disclaimer")
  | some body =>
      let summary := programSummary locale tenantDisplayName plan
      .ok
        { disclaimerVersion
          locale
          disclaimerContentHash := env.sha256 body
          tenantDisplayName
          programSummary := summary
          programSummaryHash := env.sha256 summary
          acceptedAt }

/-- A text that `?.trim()` finds something in. -/
def nonBlank? (text : Option String) : Option String := text.filter fun s => trim s != ""

/-- `verifyStoredInviteConsentSnapshot` of the snapshot columns of a pending acceptance. -/
def verifyStoredInviteConsentSnapshot (env : AuthEnv) (pending : PendingInviteAcceptance) :
    Option InviteConsentSnapshot := do
  let disclaimerVersion ← nonBlank? pending.disclaimerVersion
  let locale ← nonBlank? pending.disclaimerLocale
  let disclaimerContentHash ← nonBlank? pending.disclaimerContentHash
  let tenantDisplayName ← nonBlank? pending.tenantDisplayName
  let programSummary ← nonBlank? pending.programSummary
  let programSummaryHash ← nonBlank? pending.programSummaryHash
  let acceptedAt ← pending.consentAcceptedAt
  let body ← disclaimerBody disclaimerVersion locale
  if env.sha256 body = disclaimerContentHash ∧ env.sha256 programSummary = programSummaryHash then
    some
      ⟨disclaimerVersion, locale, disclaimerContentHash, tenantDisplayName, programSummary,
        programSummaryHash, acceptedAt⟩
  else none

/-- The newest effective plan: `orderBy: [effectiveFrom, createdAt, id]`, each descending. -/
def effectivePlan (db : AuthDb) (tenantId : Uuid) (acceptedAt : Instant) : Option CommissionPlan :=
  let effective := db.directory.plans.rows.filter fun plan =>
    plan.tenantId == tenantId && decide (plan.effectiveFrom ≤ acceptedAt)
  (effective.insertionSort fun p q =>
    q.effectiveFrom < p.effectiveFrom ∨ (q.effectiveFrom = p.effectiveFrom ∧
      (q.createdAt < p.createdAt ∨ (q.createdAt = p.createdAt ∧ q.id ≤ p.id)))).head?

/-! ## Memberships -/

/-- `CODE_ALPHABET` of `common/crypto.ts` -/
def CODE_ALPHABET : List Char := "ABCDEFGHJKLMNPQRSTUVWXYZ23456789".toList

def randomCode (length : Nat) : AuthTx String := do
  let bytes ← randomBytes length
  pure (String.ofList (bytes.map fun b => CODE_ALPHABET.getD (b.toNat % 32) 'A'))

/-- A new member under a sponsor. A referral code that is taken aborts the transaction, so
no later attempt of the source's loop can succeed. -/
def createUnder (tenantId userId : Uuid) (sponsor : Membership) : AuthTx Membership := do
  require (sponsor.tenantId = tenantId) (.conflict "sponsor belongs to another tenant")
  let id ← genUuid
  let referralCode ← randomCode 8
  let now ← newDate
  let membership : Membership :=
    { id
      tenantId
      userId
      role := .member
      roleId := none
      sponsorMembershipId := some sponsor.id
      referralCode
      path := sponsor.path ++ [id]
      depth := sponsor.depth + 1
      status := .active
      isTeamLeader := false
      signupIp := none
      disclaimerAcceptedAt := none
      disclaimerVersion := none
      joinedAt := now
      updatedAt := now }
  insert memberships membership
  pure membership

def createUnderWithInviteConsent (tenantId userId : Uuid) (sponsor : Membership)
    (inviteId : Uuid) (consent : InviteConsentSnapshot) : AuthTx Membership := do
  let membership ← createUnder tenantId userId sponsor
  let _ ← create inviteAcceptanceConsents fun id =>
    { id
      inviteId
      tenantId := membership.tenantId
      userId := membership.userId
      membershipId := membership.id
      disclaimerVersion := consent.disclaimerVersion
      locale := consent.locale
      disclaimerContentHash := consent.disclaimerContentHash
      tenantDisplayName := consent.tenantDisplayName
      programSummary := consent.programSummary
      programSummaryHash := consent.programSummaryHash
      acceptedAt := consent.acceptedAt }
  pure membership

/-! ## Invites -/

theorem keepsIndexes_invite {f : Invite → Invite} (hid : ∀ i, (f i).id = i.id)
    (hcode : ∀ i, (f i).code = i.code)
    (hinviter : ∀ i, (f i).inviterMembershipId = i.inviterMembershipId)
    (hhash : ∀ i, (f i).idempotencyKeyHash = i.idempotencyKeyHash) : KeepsIndexes f where
  key_eq := hid
  clash_left i j h := by
    simpa only [clash, hcode, hinviter, hhash] using h
  clash_right i j h := by
    simpa only [clash, hcode, hinviter, hhash] using h

def Invite.withStatus (status : InviteStatus) (i : Invite) : Invite := { i with status }

def Invite.usedBy (membershipId : Uuid) (i : Invite) : Invite :=
  { i with status := .used, usedByMembershipId := some membershipId }

theorem Invite.keepsIndexes_usedBy (membershipId : Uuid) :
    KeepsIndexes (Invite.usedBy membershipId) :=
  keepsIndexes_invite (fun _ => rfl) (fun _ => rfl) (fun _ => rfl) (fun _ => rfl)

theorem Invite.keepsIndexes_withStatus (status : InviteStatus) :
    KeepsIndexes (Invite.withStatus status) :=
  keepsIndexes_invite (fun _ => rfl) (fun _ => rfl) (fun _ => rfl) (fun _ => rfl)

/-- 14 days -/
def inviteTtlMs : Int := 14 * 24 * 60 * 60 * 1000

def MAX_ACTIVE_INVITES : Nat := 50
def MAX_INVITES_PER_DAY : Nat := 20

structure IssueInput where
  inviterMembershipId : Uuid
  email : Option String
  idempotencyKey : Option String
  expectedTenantId : Option Uuid
  deriving DecidableEq

/-- What `issue` returns of an invite. -/
structure IssuedInvite where
  id : Uuid
  code : String
  email : Option String
  expiresAt : Instant
  status : InviteStatus
  createdAt : Instant
  deriving DecidableEq

def IssuedInvite.of (i : Invite) : IssuedInvite :=
  ⟨i.id, i.code, i.email, i.expiresAt, i.status, i.createdAt⟩

def findIdempotentInvite (db : AuthDb) (inviterId : Uuid) (keyHash : Option String) :
    Option Invite :=
  keyHash.bind fun keyHash => db.invites.rows.find? fun i =>
    i.inviterMembershipId == inviterId && i.idempotencyKeyHash == some keyHash

/-- The invite that an idempotency key has led to before, if it fits the email. -/
def replayedInvite (existing : Invite) (email : Option String) : AuthTx IssuedInvite := do
  require (existing.email = email)
    (.conflict "Idempotency-Key was already used with a different invite email")
  pure (.of existing)

/-- The attempts to insert an invite under a code that nobody has yet. -/
def insertInvite (inviter : Membership) (email keyHash : Option String) (now : Instant) :
    Nat → AuthTx IssuedInvite
  | 0 => throw (.badRequest "could not generate invite code")
  | attempts + 1 => do
      let code ← randomCode 10
      let createdAt ← newDate
      let id ← genUuid
      let invite : Invite :=
        { id
          tenantId := inviter.tenantId
          inviterMembershipId := inviter.id
          code
          email
          expiresAt := now + inviteTtlMs
          usedByMembershipId := none
          idempotencyKeyHash := keyHash
          status := .active
          createdAt }
      let inserted ← insertUnlessConflict invites invite
      if inserted then pure (.of invite)
      else
        let db ← readDb
        match findIdempotentInvite db inviter.id keyHash with
        | some existing => replayedInvite existing email
        | none => insertInvite inviter email keyHash now attempts

def isStaleInviteOf (inviterId : Uuid) (now : Instant) (i : Invite) : Bool :=
  i.inviterMembershipId == inviterId && i.status == .active && decide (i.expiresAt ≤ now)

/-- The two quotas of an inviter. -/
def withinInviteQuota (db : AuthDb) (inviterId : Uuid) (now : Instant) :
    Except AuthError PUnit :=
  let own := db.invites.rows.filter fun i => i.inviterMembershipId == inviterId
  let active := own.filter fun i => i.status == .active && decide (now < i.expiresAt)
  let today := own.filter fun i => decide (now - 24 * 60 * 60 * 1000 ≤ i.createdAt)
  if MAX_ACTIVE_INVITES ≤ active.length then
    .error (.badRequest "you can have at most 50 active invites")
  else if MAX_INVITES_PER_DAY ≤ today.length then
    .error (.badRequest "daily invite limit reached (20)")
  else .ok ⟨⟩

/-- `issue`; the inviter and the tenant are locked by its first statement. -/
def issue (env : AuthEnv) (input : IssueInput) : AuthTx IssuedInvite := do
  let email := (input.email.map fun e => env.toLowerCase (trim e)).filter (· ≠ "")
  let keyHash := (input.idempotencyKey.filter (· ≠ "")).map fun key =>
    env.sha256 ("invite-idempotency:v1:" ++ trim key)
  let db ← readDb
  let inviter ← orThrow
    ((db.memberships.find? input.inviterMembershipId).filter fun m => m.status == .active)
    (.badRequest "active membership required")
  let tenant ← orThrow (db.directory.tenants.find? inviter.tenantId)
    (.badRequest "active membership required")
  require (input.expectedTenantId.all fun expected => inviter.tenantId == expected)
    (.forbidden "inviter membership context mismatch")
  require (tenant.status = .active) (.badRequest "business is not active")
  let now ← newDate
  let _ ← updateMany invites (isStaleInviteOf inviter.id now) (Invite.withStatus .expired)
    (Invite.keepsIndexes_withStatus .expired)
  let db ← readDb
  match findIdempotentInvite db inviter.id keyHash with
  | some existing => replayedInvite existing email
  | none =>
      fromExcept (withinInviteQuota db inviter.id now)
      insertInvite inviter email keyHash now 8

/-! ## Marking an invite as expired

The first two statements of `registerByInvite` run outside its transaction: one reads the
invite, the other marks it by its id alone. -/

/-- The invite that is found active and overdue. -/
def overdueInvite (db : AuthDb) (inviteCode : String) (now : Instant) : Option Uuid :=
  ((db.invites.rows.find? fun i => i.code == inviteCode).filter fun i =>
    i.status == .active && decide (i.expiresAt < now)).map Invite.id

/-- `invite.update({ where: { id }, data: { status: expired } })` -/
def markExpired (inviteId : Uuid) : AuthTx PUnit :=
  update invites inviteId (Invite.withStatus .expired) (Invite.keepsIndexes_withStatus .expired)

end Refearn.Auth
