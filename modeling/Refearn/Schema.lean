import Refearn.Support.Table
import Refearn.Support.Json
/-!
# The database schema

The tables of `prisma/schema.prisma` that the commission engine reads or writes,
with the columns it reads. Money is integer cents, rates are basis points, times
are milliseconds. A table that the engine only reads is part of `Registry`.
-/

namespace Refearn

open Support

/-! ## Identifiers and times -/

/-- A 128-bit identifier; its order is the order of its text. -/
abbrev Uuid := Fin (2 ^ 128)

instance instNeZeroUuid : NeZero (2 ^ 128) := ⟨by decide⟩

instance instLawfulBEqUuid : LawfulBEq Uuid := instLawfulBEq

/-- Milliseconds since the epoch. -/
abbrev Instant := Int

/-- The 32 hexadecimal digits of an identifier. -/
def Uuid.digits (id : Uuid) : List Char := fixedHex 32 id.val

/-- The characters of `8-4-4-4-12` form. -/
def Uuid.chars (id : Uuid) : List Char :=
  id.digits.take 8 ++ '-' :: (id.digits.drop 8).take 4 ++
    '-' :: (id.digits.drop 12).take 4 ++ '-' :: (id.digits.drop 16).take 4 ++
      '-' :: id.digits.drop 20

def Uuid.text (id : Uuid) : String := String.ofList id.chars

/-! ## Enumerations -/

inductive MembershipStatus | active | inactive
  deriving DecidableEq

inductive MaturationRule | onApproval | onDelivery | daysAfterApproval | daysAfterDelivery
  deriving DecidableEq

inductive SaleStatus | draft | approved | void
  deriving DecidableEq

inductive LedgerType | commission | reversal | adjustment
  deriving DecidableEq

inductive LedgerStatus | pending | payable | processing | paid | reversed
  deriving DecidableEq

inductive PayoutMethod | manual | csv | stripe | check
  deriving DecidableEq

inductive PayoutStatus | requested | processing | paid | rejected | failed
  deriving DecidableEq

inductive BatchStatus | processing | dispatched | settled | failed
  deriving DecidableEq

inductive ReadinessKey | address | kyc | fraud | sanctions | paymentMethod
  deriving DecidableEq

inductive DecisionStatus | pending | ready | blocked
  deriving DecidableEq

inductive FraudStatus | opened | cleared | confirmed
  deriving DecidableEq

inductive ProfileStatus | unverified | pendingReview | verified | rejected
  deriving DecidableEq

/-! ## Tables the engine reads -/

structure Tenant where
  id : Uuid
  currency : String
  timezone : String
  maturationRule : MaturationRule
  maturationDays : Option Int
  payoutMinCents : Int
  compressionEnabled : Bool
  inactiveMembersEarn : Bool
  requireSeparateApprover : Bool
  requireKycForPayout : Bool
  deriving DecidableEq

structure User where
  id : Uuid
  fullName : String
  email : String
  emailVerifiedAt : Option Instant
  deriving DecidableEq

/-- `path` lists the labels of the `ltree` text, root first. -/
structure Membership where
  id : Uuid
  tenantId : Uuid
  userId : Uuid
  sponsorMembershipId : Option Uuid
  referralCode : String
  path : List Uuid
  status : MembershipStatus
  joinedAt : Instant
  deriving DecidableEq

structure CommissionPlanLevel where
  id : Uuid
  level : Nat
  rateBps : Int
  deriving DecidableEq

structure CommissionPlan where
  id : Uuid
  tenantId : Uuid
  version : Nat
  finalized : Bool
  poolRateBps : Int
  depth : Nat
  fastStartBps : Int
  fastStartDays : Int
  matchingBps : Int
  effectiveFrom : Instant
  levels : List CommissionPlanLevel
  deriving DecidableEq

structure RankTier where
  id : Uuid
  tenantId : Uuid
  name : String
  sortOrder : Int
  minTeam : Int
  minEarningsCents : Int
  overrideBps : Int
  deriving DecidableEq

structure PeriodLock where
  tenantId : Uuid
  period : String
  deriving DecidableEq

structure FraudFlag where
  membershipId : Uuid
  status : FraudStatus
  score : Int
  deriving DecidableEq

structure PayoutProfile where
  membershipId : Uuid
  legalName : String
  sanctionsHit : Bool
  status : ProfileStatus
  lastChangedAt : Instant

structure PayoutReadinessCheck where
  tenantId : Uuid
  membershipId : Uuid
  key : ReadinessKey
  status : DecisionStatus
  reasonCode : String
  expiresAt : Option Instant
  version : Int

structure PayoutDestination where
  id : Uuid
  tenantId : Uuid
  membershipId : Uuid
  verifiedAt : Option Instant
  version : Int
  active : Bool

instance : Keyed Tenant Uuid := { key := Tenant.id }
instance : Keyed User Uuid := { key := User.id }
instance : Keyed Membership Uuid := { key := Membership.id }
instance : Keyed CommissionPlan Uuid := { key := CommissionPlan.id }
instance : Keyed RankTier Uuid := { key := RankTier.id }
instance : Keyed PeriodLock (Uuid × String) := { key := fun l => (l.tenantId, l.period) }
instance : Keyed FraudFlag Uuid := { key := FraudFlag.membershipId }
instance : Keyed PayoutProfile Uuid := { key := PayoutProfile.membershipId }
instance : Keyed PayoutReadinessCheck (Uuid × Uuid × ReadinessKey) where
  key c := (c.tenantId, c.membershipId, c.key)
instance : Keyed PayoutDestination Uuid := { key := PayoutDestination.id }

/-- Everything the engine reads and other services write. `sanctions` holds the
normalized names of the list. -/
structure Registry where
  tenants : Table Tenant
  users : Table User
  memberships : Table Membership
  plans : Table CommissionPlan
  rankTiers : Table RankTier
  periodLocks : Table PeriodLock
  fraudFlags : Table FraudFlag
  payoutProfiles : Table PayoutProfile
  readinessChecks : Table PayoutReadinessCheck
  destinations : Table PayoutDestination
  sanctions : List String

/-! ## Tables the engine writes -/

structure Sale where
  id : Uuid
  tenantId : Uuid
  sellerMembershipId : Uuid
  commissionPlanId : Option Uuid
  amountCents : Int
  currency : String
  customerRef : Option String
  externalRef : Option String
  createdBy : Option Uuid
  saleDate : Instant
  summaryMonth : Option String
  status : SaleStatus
  approvedBy : Option Uuid
  approvedAt : Option Instant
  deliveredAt : Option Instant
  deriving DecidableEq

structure LedgerEntry where
  id : Uuid
  tenantId : Uuid
  saleId : Option Uuid
  beneficiaryMembershipId : Uuid
  level : Nat
  rateBpsUsed : Int
  amountCents : Int
  type : LedgerType
  status : LedgerStatus
  summaryMonth : Option String
  maturesAt : Option Instant
  payoutId : Option Uuid
  payoutBatchId : Option Uuid
  createdAt : Instant
  deriving DecidableEq

/-- The unique columns of `monthly_summaries`. -/
structure SummaryKey where
  tenantId : Uuid
  membershipId : Uuid
  month : String
  level : Nat
  deriving DecidableEq

structure MonthlySummary where
  key : SummaryKey
  pendingCents : Int
  payableCents : Int
  processingCents : Int
  paidCents : Int

/-- The compliance decisions a payout was reserved under. -/
structure ComplianceSnapshot where
  controls : List (ReadinessKey × DecisionStatus × String × Option Instant × Int)
  destination : Option (Uuid × Instant × Int)
  deriving DecidableEq

structure Payout where
  id : Uuid
  tenantId : Uuid
  membershipId : Uuid
  batchId : Option Uuid
  totalCents : Int
  method : PayoutMethod
  status : PayoutStatus
  period : String
  activeKey : Option String
  processingStartedAt : Option Instant
  paidAt : Option Instant
  settledAt : Option Instant
  settlementReference : Option String
  settlementEvidence : Option String
  recipientReferralCode : Option String
  recipientFullName : Option String
  recipientEmail : Option String
  complianceSnapshot : Option ComplianceSnapshot
  rejectedAt : Option Instant
  rejectionReason : Option String
  failedAt : Option Instant
  failureReason : Option String
  ref : Option String
  createdAt : Instant
  deriving DecidableEq

structure PayoutSettlementBatch where
  id : Uuid
  tenantId : Uuid
  period : String
  method : PayoutMethod
  status : BatchStatus
  processingStartedAt : Instant
  dispatchedAt : Option Instant
  dispatchReference : Option String
  dispatchEvidence : Option String
  settledAt : Option Instant
  settlementReference : Option String
  settlementEvidence : Option String
  failedAt : Option Instant
  failureReason : Option String

structure PayoutSettlementBatchItem where
  id : Uuid
  batchId : Uuid
  payoutId : Uuid
  ledgerEntryId : Uuid
  membershipId : Uuid
  month : String
  level : Nat
  amountCents : Int
  recipientReferralCode : Option String
  recipientFullName : Option String
  recipientEmail : Option String
  recipientSnapshotAt : Option Instant

/-- An outbox row, written in the transaction that moves the money. -/
structure Notification where
  tenantId : Uuid
  recipientMembershipId : Uuid
  template : String
  payload : Json

structure AuditLog where
  tenantId : Uuid
  actorUserId : Option Uuid
  action : String
  entityId : Uuid
  before : Json
  after : Json

def PayoutStatus.isOpen : PayoutStatus → Bool
  | .requested | .processing => true
  | _ => false

/-- `@@unique([tenantId, externalRef])`; missing references are all different. -/
instance : Keyed Sale Uuid where
  key := Sale.id
  clash s s' := s.externalRef.isSome && s.externalRef == s'.externalRef &&
    s.tenantId == s'.tenantId

/-- `@@unique([saleId, level, type])`; rows without a sale are all different. -/
instance : Keyed LedgerEntry Uuid where
  key := LedgerEntry.id
  clash r r' := r.saleId.isSome && r.saleId == r'.saleId && r.level == r'.level &&
    r.type == r'.type

instance : Keyed MonthlySummary SummaryKey where
  key := MonthlySummary.key

/-- `payouts_active_key_unique` and `payouts_one_open_per_member`. -/
instance : Keyed Payout Uuid where
  key := Payout.id
  clash p p' := (p.activeKey.isSome && p.activeKey == p'.activeKey) ||
    (p.status.isOpen && p'.status.isOpen && p.tenantId == p'.tenantId &&
      p.membershipId == p'.membershipId)

instance : Keyed PayoutSettlementBatch Uuid where
  key := PayoutSettlementBatch.id

/-- `@@unique([batchId, ledgerEntryId])`. -/
instance : Keyed PayoutSettlementBatchItem Uuid where
  key := PayoutSettlementBatchItem.id
  clash i i' := i.batchId == i'.batchId && i.ledgerEntryId == i'.ledgerEntryId

/-- One committed database state. -/
structure Db where
  registry : Registry
  sales : Table Sale
  ledger : Table LedgerEntry
  summaries : Table MonthlySummary
  payouts : Table Payout
  batches : Table PayoutSettlementBatch
  items : Table PayoutSettlementBatchItem
  notifications : List Notification
  auditLogs : List AuditLog

/-! ## Identifier texts -/

theorem Uuid.length_digits (id : Uuid) : id.digits.length = 32 :=
  length_fixedHex ..

theorem Uuid.length_chars (id : Uuid) : id.chars.length = 36 := by
  simp [Uuid.chars, Uuid.length_digits]

theorem Uuid.dash_notMem_digits (id : Uuid) : '-' ∉ id.digits := fun h =>
  absurd (mem_fixedHex h) (by decide)

theorem Uuid.filter_chars (id : Uuid) : id.chars.filter (· ≠ '-') = id.digits := by
  have hkeep : ∀ cs : List Char, cs ⊆ id.digits → cs.filter (· ≠ '-') = cs := by
    intro cs hcs
    refine List.filter_eq_self.mpr fun c hc => ?_
    simpa using fun h : c = '-' => id.dash_notMem_digits (h ▸ hcs hc)
  have hdrop : ∀ n, id.digits.drop n ⊆ id.digits := fun n => List.drop_subset n _
  have htake : ∀ n m, (id.digits.drop n).take m ⊆ id.digits := fun n m =>
    fun _ hc => hdrop n (List.take_subset m _ hc)
  have hjoin : id.digits = id.digits.take 8 ++ ((id.digits.drop 8).take 4 ++
      ((id.digits.drop 12).take 4 ++ ((id.digits.drop 16).take 4 ++
        id.digits.drop 20))) := by
    have hsplit : ∀ n, id.digits.drop n =
        (id.digits.drop n).take 4 ++ id.digits.drop (n + 4) := fun n => by
      rw [← List.drop_drop, List.take_append_drop]
    rw [← hsplit 16, ← hsplit 12, ← hsplit 8, List.take_append_drop]
  conv_rhs => rw [hjoin]
  simp only [Uuid.chars, List.filter_append, List.filter_cons, ne_eq, not_true_eq_false,
    decide_false, Bool.false_eq_true, if_false, List.append_assoc]
  rw [hkeep _ (List.take_subset 8 _), hkeep _ (htake 8 4), hkeep _ (htake 12 4),
    hkeep _ (htake 16 4), hkeep _ (hdrop 20)]

theorem Uuid.chars_inj {a b : Uuid} (h : a.chars = b.chars) : a = b := by
  have hdigits : a.digits = b.digits := by
    rw [← a.filter_chars, ← b.filter_chars, h]
  have hlt : ∀ id : Uuid, id.val < 16 ^ 32 := fun id => id.isLt
  exact Fin.ext (fixedHex_inj (hlt a) (hlt b) hdigits)

theorem Uuid.text_inj {a b : Uuid} (h : a.text = b.text) : a = b :=
  Uuid.chars_inj (String.ofList_injective h)

end Refearn
