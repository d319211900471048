import Refearn.Engine.Settlement
/-!
# The wallet

`WalletService.wallet`: the balances of a member, a page of its ledger, and whether it
could request a payout now. The last is put together from the same parts as the request
itself, by other queries.
-/

namespace Refearn.Wallet

open Support Engine Payouts

/-! ## Eligibility -/

inductive LegacyPayoutEligibilityReason
  | eligible | noPayable | belowThreshold | emailUnverified | requested | processing
  | readinessUnavailable
  deriving DecidableEq

/-- The status of the check of a key. -/
def checkIsReady (readiness : PayoutReadiness) (key : ReadinessCheckKey) : Bool :=
  (readiness.checks.find? fun check => check.key = key).any fun check => check.status = .ready

def legacyPayoutEligibilityReason (readiness : PayoutReadiness)
    (activePayout : Option (Uuid × ActivePayoutStatus)) : LegacyPayoutEligibilityReason :=
  if !checkIsReady readiness .email then .emailUnverified
  else if activePayout.any (fun payout => payout.2 = .processing) then .processing
  else if activePayout.any (fun payout => payout.2 = .requested) then .requested
  else if !checkIsReady readiness .payableBalance then .noPayable
  else if !checkIsReady readiness .threshold then .belowThreshold
  else if readiness.requestable then .eligible
  else .readinessUnavailable

def payoutEligibilityMessage : LegacyPayoutEligibilityReason → String
  | .eligible => "Payable balance is eligible for a payout request."
  | .noPayable => "No payable balance is available."
  | .belowThreshold => "Payable balance is below the payout minimum."
  | .emailUnverified => "Verify your email address before requesting a payout."
  | .requested => "A payout request is already open."
  | .processing => "A payout is already processing."
  | .readinessUnavailable => "Additional payout readiness checks are unavailable."

structure PayoutEligibility where
  requestable : Bool
  reason : LegacyPayoutEligibilityReason
  message : String
  activePayout : Option (Uuid × PayoutStatus)

/-! ## Balances and the ledger page -/

/-- A bucket of `GROUP BY status`; a status without rows counts nothing. -/
def bucketCents (db : Db) (tenantId membershipId : Uuid) (status : LedgerStatus) : Int :=
  ((db.ledger.rows.filter (fun r => r.tenantId = tenantId ∧
    r.beneficiaryMembershipId = membershipId ∧ r.status = status)).map
      LedgerEntry.amountCents).sum

structure Balance where
  pendingCents : Int
  payableCents : Int
  processingCents : Int
  paidCents : Int

structure WalletQuery where
  page : Nat
  pageSize : Nat
  type : Option LedgerType
  status : Option LedgerStatus

structure LedgerItem where
  id : Uuid
  saleId : Option Uuid
  level : Nat
  rateBpsUsed : Int
  amountCents : Int
  type : LedgerType
  status : LedgerStatus
  maturesAt : Option Instant
  payoutId : Option Uuid
  createdAt : Instant

structure LedgerPage where
  total : Nat
  page : Nat
  pageSize : Nat
  items : List LedgerItem

def ledgerItem (r : LedgerEntry) : LedgerItem :=
  ⟨r.id, r.saleId, r.level, r.rateBpsUsed, r.amountCents, r.type, r.status, r.maturesAt,
    r.payoutId, r.createdAt⟩

def laterFirst (r r' : LedgerEntry) : Prop := r'.createdAt ≤ r.createdAt

instance : DecidableRel laterFirst := fun r r' => Int.decLe r'.createdAt r.createdAt

def ledgerPage (db : Db) (tenantId membershipId : Uuid) (q : WalletQuery) : LedgerPage :=
  let rows := db.ledger.rows.filter fun r =>
    r.tenantId = tenantId ∧ r.beneficiaryMembershipId = membershipId ∧
      q.type.all (r.type = ·) ∧ q.status.all (r.status = ·)
  { total := rows.length
    page := q.page
    pageSize := q.pageSize
    items := (((rows.insertionSort laterFirst).drop ((q.page - 1) * q.pageSize)).take
      q.pageSize).map ledgerItem }

/-! ## The endpoint -/

/-- The open payouts of a member in one period, oldest first. -/
def periodPayouts (db : Db) (tenantId membershipId : Uuid) (period : String) : List Payout :=
  (db.payouts.rows.filter (fun p => p.tenantId = tenantId ∧ p.membershipId = membershipId ∧
    p.period = period ∧ p.status.isOpen)).insertionSort byPayoutCreatedAt

structure WalletView where
  currency : String
  payoutMinCents : Int
  payoutReadiness : PayoutReadiness
  payoutEligibility : PayoutEligibility
  balance : Balance
  ledger : LedgerPage

/-- `noUser`: the client refuses a membership whose required user is missing. -/
inductive WalletError | noTenant | membershipNotFound | noUser
  deriving DecidableEq

def eligibility (readiness : PayoutReadiness) (active : Option Payout) : PayoutEligibility :=
  let reason := legacyPayoutEligibilityReason readiness
    (active.map fun p => (p.id, activeStatus p))
  { requestable := reason = .eligible
    reason := reason
    message := payoutEligibilityMessage reason
    activePayout := active.map fun p => (p.id, p.status) }

def walletView (env : Env) (db : Db) (now : Instant) (tenant : Tenant) (user : User)
    (tenantId membershipId : Uuid) (q : WalletQuery) : WalletView :=
  let payableCents := bucketCents db tenantId membershipId .payable
  let period := env.monthKey now tenant.timezone
  let active := existingPayout (periodPayouts db tenantId membershipId period)
  let complianceInput := readInput db.registry tenantId membershipId
  let readiness := evaluatePayoutReadiness
    { emailVerified := user.emailVerifiedAt.isSome
      payableCents := payableCents
      thresholdCents := tenant.payoutMinCents
      currency := tenant.currency
      activePayout := active.map fun p => (p.id, activeStatus p)
      mfa := .unknown
      manualChecks := complianceInput.manualChecks
      destination := complianceInput.destination } now
  { currency := tenant.currency
    payoutMinCents := tenant.payoutMinCents
    payoutReadiness := readiness
    payoutEligibility := eligibility readiness active
    balance :=
      { pendingCents := bucketCents db tenantId membershipId .pending
        payableCents := payableCents
        processingCents := bucketCents db tenantId membershipId .processing
        paidCents := bucketCents db tenantId membershipId .paid }
    ledger := ledgerPage db tenantId membershipId q }

def wallet (env : Env) (db : Db) (now : Instant) (membershipId tenantId : Uuid)
    (q : WalletQuery) : Except WalletError WalletView :=
  match db.registry.tenants.find? tenantId with
  | none => .error .noTenant
  | some tenant =>
      match tenantMembership db.registry tenantId membershipId with
      | none => .error .membershipNotFound
      | some membership =>
          match db.registry.users.find? membership.userId with
          | none => .error .noUser
          | some user => .ok (walletView env db now tenant user tenantId membershipId q)

/-! ## What the eligibility says -/

/-- A member is eligible if the readiness it was computed from is requestable. -/
theorem eligibility_requestable (input : PayoutReadinessInput) (now : Instant)
    (active : Option Payout)
    (h : input.activePayout = active.map fun p => (p.id, activeStatus p)) :
    (eligibility (evaluatePayoutReadiness input now) active).requestable = true ↔
      (evaluatePayoutReadiness input now).requestable = true := by
  have hemail : checkIsReady (evaluatePayoutReadiness input now) .email = true ↔
      input.emailVerified = true := by
    simp [checkIsReady, evaluatePayoutReadiness, emailCheck]
  have hpayable : checkIsReady (evaluatePayoutReadiness input now) .payableBalance = true ↔
      0 < input.payableCents := by
    simp [checkIsReady, evaluatePayoutReadiness, emailCheck, payableBalanceCheck]
  have hthreshold : checkIsReady (evaluatePayoutReadiness input now) .threshold = true ↔
      input.thresholdCents ≤ input.payableCents := by
    simp [checkIsReady, evaluatePayoutReadiness, emailCheck, payableBalanceCheck, thresholdCheck]
  unfold eligibility legacyPayoutEligibilityReason
  simp only [decide_eq_true_eq]
  constructor
  · intro heligible
    split_ifs at heligible with h₁ h₂ h₃ h₄ h₅ h₆
    exact h₆
  · intro hrequestable
    obtain ⟨h₁, h₂, h₃, h₄⟩ := requestable_balance hrequestable
    have hnone : active = none := by
      rw [h] at h₄
      exact Option.map_eq_none_iff.mp h₄
    subst hnone
    rw [if_neg (by simp [hemail.mpr h₁]), if_neg (by simp), if_neg (by simp),
      if_neg (by simp [hpayable.mpr h₂]), if_neg (by simp [hthreshold.mpr h₃]),
      if_pos hrequestable]

end Refearn.Wallet
