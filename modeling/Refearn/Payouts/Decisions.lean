import Refearn.Engine.Store
import Refearn.Payouts.Compliance
import Refearn.Support.Runs
/-!
# Compliance decisions and destinations

The two writers of `payout-compliance.service.ts`. A reviewer decides a control of a member, or
replaces the payout destination, on the version that the request names. Each runs under a
lock of the membership, so the writes of one member run one after another.
-/

namespace Refearn.Payouts

open Support Support.Transaction Engine

/-! ## Tables -/

structure ReadinessCheckRow where
  id : Uuid
  tenantId : Uuid
  membershipId : Uuid
  key : ReadinessKey
  status : DecisionStatus
  reasonCode : String
  reviewedByUserId : Option Uuid
  reviewedAt : Option Instant
  expiresAt : Option Instant
  version : Nat

structure DestinationRow where
  id : Uuid
  tenantId : Uuid
  membershipId : Uuid
  providerReference : String
  maskedLabel : String
  last4 : Option String
  country : String
  currency : String
  verifiedByUserId : Option Uuid
  verifiedAt : Option Instant
  version : Nat
  active : Bool

/-- `payout_readiness_checks_tenant_membership_key_uidx`. -/
instance : Keyed ReadinessCheckRow Uuid where
  key := ReadinessCheckRow.id
  clash r r' := r.tenantId == r'.tenantId && r.membershipId == r'.membershipId && r.key == r'.key

/-- `payout_destinations_one_active_per_member_uidx`. -/
instance : Keyed DestinationRow Uuid where
  key := DestinationRow.id
  clash d d' := d.active && d'.active && d.tenantId == d'.tenantId &&
    d.membershipId == d'.membershipId

structure ComplianceAudit where
  tenantId : Uuid
  actorUserId : Uuid
  action : String
  entity : String
  entityId : Uuid
  after : Json

structure ComplianceDb where
  memberships : Table Membership
  checks : Table ReadinessCheckRow
  destinations : Table DestinationRow
  auditLogs : List ComplianceAudit

structure ComplianceSession where
  db : ComplianceDb
  uuids : Nat → Uuid

abbrev ComplianceTx := Transaction ComplianceSession EngineError

def newId : ComplianceTx Uuid := fun s =>
  .ok (s.uuids 0, { s with uuids := fun n => s.uuids (n + 1) })

@[simp] theorem commits_newId (s s' : ComplianceSession) (id : Uuid) :
    Commits newId s id s' ↔
      s.uuids 0 = id ∧ { s with uuids := fun n => s.uuids (n + 1) } = s' := by
  unfold Commits
  constructor
  · intro h
    cases h
    exact ⟨rfl, rfl⟩
  · rintro ⟨rfl, rfl⟩
    rfl

@[simp] theorem raises_newId (s : ComplianceSession) (e : EngineError) : ¬Raises newId s e := by
  unfold Raises
  exact nofun

/-! ## Requests -/

structure PayoutComplianceActor where
  userId : Uuid
  tenantId : Uuid
  membershipId : Uuid
  deriving DecidableEq

def MAX_EXPECTED_VERSION : Nat := 2147483646

/-- The statuses that a reviewer can decide on. -/
inductive ReviewedStatus | ready | blocked
  deriving DecidableEq

def ReviewedStatus.status : ReviewedStatus → DecisionStatus
  | .ready => .ready
  | .blocked => .blocked

structure PayoutComplianceDecisionInput where
  status : ReviewedStatus
  reasonCode : String
  expiresAt : Option Instant
  expectedVersion : Nat
  expectedVersion_le : expectedVersion ≤ MAX_EXPECTED_VERSION

structure PayoutDestinationInput where
  providerReference : String
  last4 : Option String
  country : String
  currency : String
  verifiedAt : Instant
  expectedVersion : Nat
  expectedVersion_le : expectedVersion ≤ MAX_EXPECTED_VERSION

def versionChanged : EngineError := .conflict "payout compliance version changed"

def destinationChanged : EngineError := .conflict "payout destination version changed"

def notInBusiness : EngineError := .notFound "membership was not found in this business"

def ownCompliance : EngineError :=
  .forbidden "reviewers cannot approve their own payout compliance"

/-- An index that objects to a write is a version that has changed. -/
def rethrowVersionConflict : EngineError → EngineError
  | .uniqueViolation _ => versionChanged
  | e => e

/-! ## Shared statements -/

def lockMembership (tenantId membershipId : Uuid) : ComplianceTx PUnit := do
  let s ← get
  require (((s.db.memberships.find? membershipId).filter (·.tenantId = tenantId)).isSome)
    notInBusiness

def writeAudit (actor : PayoutComplianceActor) (action entity : String) (membershipId : Uuid)
    (after : List (String × Json)) : ComplianceTx PUnit :=
  modify fun s => { s with db := { s.db with
    auditLogs := s.db.auditLogs ++ [⟨actor.tenantId, actor.userId, action, entity, membershipId,
      .obj (("membershipId", .str membershipId.text) :: after)⟩] } }

/-! ## Deciding a control -/

def isCheckOf (tenantId membershipId : Uuid) (key : ReadinessKey) (r : ReadinessCheckRow) :
    Bool :=
  r.tenantId == tenantId && r.membershipId == membershipId && r.key == key

def ReadinessCheckRow.decided (actor : PayoutComplianceActor)
    (input : PayoutComplianceDecisionInput) (reviewedAt : Instant) (r : ReadinessCheckRow) :
    ReadinessCheckRow :=
  { r with
    status := input.status.status
    reasonCode := input.reasonCode
    reviewedByUserId := some actor.userId
    reviewedAt := some reviewedAt
    expiresAt := input.expiresAt
    version := r.version + 1 }

theorem keepsIndexes_decided (actor : PayoutComplianceActor)
    (input : PayoutComplianceDecisionInput) (reviewedAt : Instant) :
    KeepsIndexes (ReadinessCheckRow.decided actor input reviewedAt) where
  key_eq _ := rfl
  clash_left _ _ h := h
  clash_right _ _ h := h

def firstCheck (actor : PayoutComplianceActor) (membershipId : Uuid) (key : ReadinessKey)
    (input : PayoutComplianceDecisionInput) (reviewedAt : Instant) (id : Uuid) :
    ReadinessCheckRow where
  id
  tenantId := actor.tenantId
  membershipId
  key
  status := input.status.status
  reasonCode := input.reasonCode
  reviewedByUserId := some actor.userId
  reviewedAt := some reviewedAt
  expiresAt := input.expiresAt
  version := 1

def createCheck (actor : PayoutComplianceActor) (membershipId : Uuid) (key : ReadinessKey)
    (input : PayoutComplianceDecisionInput) (reviewedAt : Instant) :
    ComplianceTx ReadinessCheckRow := do
  let id ← newId
  let s ← get
  let control := firstCheck actor membershipId key input reviewedAt id
  let checks ← orThrow (s.db.checks.insert? control) (.uniqueViolation "payout_readiness_checks")
  set { s with db := { s.db with checks } }
  pure control

def updateCheck (actor : PayoutComplianceActor) (membershipId : Uuid) (key : ReadinessKey)
    (input : PayoutComplianceDecisionInput) (reviewedAt : Instant) :
    ComplianceTx ReadinessCheckRow := do
  let s ← get
  let isNamed := fun r : ReadinessCheckRow =>
    isCheckOf actor.tenantId membershipId key r && r.version == input.expectedVersion
  require (s.db.checks.rows.countP isNamed = 1) versionChanged
  let checks := s.db.checks.updateWhere isNamed
    (ReadinessCheckRow.decided actor input reviewedAt) (keepsIndexes_decided ..)
  set { s with db := { s.db with checks } }
  orThrow (checks.rows.find? (isCheckOf actor.tenantId membershipId key)) .recordNotFound

def writeCheck (actor : PayoutComplianceActor) (membershipId : Uuid) (key : ReadinessKey)
    (input : PayoutComplianceDecisionInput) (reviewedAt : Instant) :
    ComplianceTx ReadinessCheckRow :=
  if input.expectedVersion = 0 then createCheck actor membershipId key input reviewedAt
  else updateCheck actor membershipId key input reviewedAt

def keyText : ReadinessKey → String
  | .address => "address"
  | .kyc => "kyc"
  | .fraud => "fraud"
  | .sanctions => "sanctions"
  | .paymentMethod => "payment_method"

def statusText : DecisionStatus → String
  | .pending => "pending"
  | .ready => "ready"
  | .blocked => "blocked"

def decideInTransaction (toISOString : Instant → String) (actor : PayoutComplianceActor)
    (membershipId : Uuid) (key : ReadinessKey) (input : PayoutComplianceDecisionInput)
    (reviewedAt : Instant) : ComplianceTx ReadinessCheckRow := do
  lockMembership actor.tenantId membershipId
  let control ← writeCheck actor membershipId key input reviewedAt
  writeAudit actor "payout_compliance.readiness_decided" "payout_readiness_check" membershipId
    [("key", .str (keyText control.key)), ("status", .str (statusText control.status)),
      ("reasonCode", .str control.reasonCode), ("version", .num control.version),
      ("expiresAt", Json.ofOption (control.expiresAt.map toISOString))]
  pure control

def PayoutCompliance.decide (toISOString : Instant → String) (actor : PayoutComplianceActor)
    (membershipId : Uuid) (key : ReadinessKey) (input : PayoutComplianceDecisionInput)
    (reviewedAt : Instant) : ComplianceTx ReadinessCheckRow := do
  require (actor.membershipId ≠ membershipId) ownCompliance
  mapErrors rethrowVersionConflict
    (decideInTransaction toISOString actor membershipId key input reviewedAt)

/-! ## Replacing a destination -/

def isActiveOf (tenantId membershipId : Uuid) (d : DestinationRow) : Bool :=
  d.tenantId == tenantId && d.membershipId == membershipId && d.active

def DestinationRow.deactivated (d : DestinationRow) : DestinationRow := { d with active := false }

theorem keepsIndexes_deactivated : KeepsIndexes DestinationRow.deactivated where
  key_eq _ := rfl
  clash_left _ _ h := by cases h
  clash_right d d' h := by
    change (d.active && false && _ && _) = true at h
    rw [Bool.and_false] at h
    cases h

/-- What makes room for the destination that replaces the active one. -/
def retireDestination (actor : PayoutComplianceActor) (membershipId : Uuid)
    (expectedVersion : Nat) : ComplianceTx PUnit := do
  let s ← get
  if expectedVersion = 0 then
    require ((s.db.destinations.rows.find? (isActiveOf actor.tenantId membershipId)).isNone)
      destinationChanged
  else do
    let isNamed := fun d : DestinationRow =>
      isActiveOf actor.tenantId membershipId d && d.version == expectedVersion
    require (s.db.destinations.rows.countP isNamed = 1) destinationChanged
    set { s with db := { s.db with
      destinations := s.db.destinations.updateWhere isNamed DestinationRow.deactivated
        keepsIndexes_deactivated } }

def destinationDisplayLabel (currency : String) (last4 : Option String) : String :=
  match last4.filter (· ≠ "") with
  | some digits => s!"{currency} payout destination •••• {digits}"
  | none => s!"{currency} payout destination"

def newDestination (actor : PayoutComplianceActor) (membershipId : Uuid)
    (input : PayoutDestinationInput) (id : Uuid) : DestinationRow where
  id
  tenantId := actor.tenantId
  membershipId
  providerReference := input.providerReference
  maskedLabel := destinationDisplayLabel input.currency input.last4
  last4 := input.last4
  country := input.country
  currency := input.currency
  verifiedByUserId := some actor.userId
  verifiedAt := some input.verifiedAt
  version := input.expectedVersion + 1
  active := true

def createDestination (actor : PayoutComplianceActor) (membershipId : Uuid)
    (input : PayoutDestinationInput) : ComplianceTx DestinationRow := do
  let id ← newId
  let s ← get
  let destination := newDestination actor membershipId input id
  let destinations ← orThrow (s.db.destinations.insert? destination)
    (.uniqueViolation "payout_destinations")
  set { s with db := { s.db with destinations } }
  pure destination

def replaceDestinationInTransaction (toISOString : Instant → String)
    (actor : PayoutComplianceActor) (membershipId : Uuid) (input : PayoutDestinationInput) :
    ComplianceTx DestinationRow := do
  lockMembership actor.tenantId membershipId
  retireDestination actor membershipId input.expectedVersion
  let destination ← createDestination actor membershipId input
  writeAudit actor "payout_compliance.destination_replaced" "payout_destination" membershipId
    [("maskedLabel", .str destination.maskedLabel), ("last4", Json.ofOption destination.last4),
      ("country", .str destination.country), ("currency", .str destination.currency),
      ("verifiedAt", Json.ofOption (destination.verifiedAt.map toISOString)),
      ("version", .num destination.version)]
  pure destination

def PayoutCompliance.replaceDestination (toISOString : Instant → String) (actor : PayoutComplianceActor)
    (membershipId : Uuid) (input : PayoutDestinationInput) : ComplianceTx DestinationRow := do
  require (actor.membershipId ≠ membershipId) ownCompliance
  mapErrors rethrowVersionConflict
    (replaceDestinationInTransaction toISOString actor membershipId input)

/-! ## The system -/

/-- A decision that has been committed, with the version that the reviewer was told. -/
structure CommittedDecision where
  tenantId : Uuid
  membershipId : Uuid
  key : ReadinessKey
  input : PayoutComplianceDecisionInput
  version : Nat

/-- A replacement that has been committed, with the id and version of the new destination. -/
structure CommittedReplacement where
  tenantId : Uuid
  membershipId : Uuid
  input : PayoutDestinationInput
  id : Uuid
  version : Nat

/-- The tables with a record, oldest first, of what has been committed. -/
structure ComplianceWorld where
  db : ComplianceDb
  decisions : List CommittedDecision
  replacements : List CommittedReplacement

inductive ComplianceStep
  /-- other services change memberships -/
  | members (memberships : Table Membership)
  | decide (actor : PayoutComplianceActor) (membershipId : Uuid) (key : ReadinessKey)
      (input : PayoutComplianceDecisionInput) (reviewedAt : Instant) (uuids : Nat → Uuid)
  | replaceDestination (actor : PayoutComplianceActor) (membershipId : Uuid)
      (input : PayoutDestinationInput) (uuids : Nat → Uuid)

def ComplianceStep.apply (toISOString : Instant → String) (step : ComplianceStep)
    (w : ComplianceWorld) : ComplianceWorld :=
  match step with
  | .members memberships => { w with db := { w.db with memberships } }
  | .decide actor membershipId key input reviewedAt uuids =>
      match (PayoutCompliance.decide toISOString actor membershipId key input reviewedAt).run
          ⟨w.db, uuids⟩ with
      | .ok (control, s) =>
          { w with
            db := s.db
            decisions :=
              w.decisions ++ [⟨actor.tenantId, membershipId, key, input, control.version⟩] }
      | .error _ => w
  | .replaceDestination actor membershipId input uuids =>
      match (PayoutCompliance.replaceDestination toISOString actor membershipId input).run
          ⟨w.db, uuids⟩ with
      | .ok (destination, s) =>
          { w with
            db := s.db
            replacements := w.replacements ++
              [⟨actor.tenantId, membershipId, input, destination.id, destination.version⟩] }
      | .error _ => w

/-! ## What the payout services read -/

def ReadinessCheckRow.check (r : ReadinessCheckRow) : PayoutReadinessCheck :=
  ⟨r.tenantId, r.membershipId, r.key, r.status, r.reasonCode, r.expiresAt, r.version⟩

def DestinationRow.destination (d : DestinationRow) : PayoutDestination :=
  ⟨d.id, d.tenantId, d.membershipId, d.verifiedAt, d.version, d.active⟩

theorem clash_of_check_key {r r' : ReadinessCheckRow} (h : key r.check = key r'.check) :
    clash r r' = true := by
  have hkeys : (r.tenantId, r.membershipId, r.key) = (r'.tenantId, r'.membershipId, r'.key) := h
  simp only [Prod.mk.injEq] at hkeys
  change (r.tenantId == r'.tenantId && r.membershipId == r'.membershipId && r.key == r'.key) = true
  rw [hkeys.1, hkeys.2.1, hkeys.2.2, beq_self_eq_true, beq_self_eq_true, beq_self_eq_true]
  rfl

/-- The columns of the checks that the engine reads. -/
def checksRead (checks : Table ReadinessCheckRow) : Table PayoutReadinessCheck where
  rows := checks.rows.map ReadinessCheckRow.check
  keys_nodup := by
    rw [List.map_map]
    refine List.pairwise_map.mpr (checks.no_clash.imp fun {r r'} hclash hkey => ?_)
    rw [clash_of_check_key hkey] at hclash
    cases hclash
  no_clash := List.pairwise_map.mpr (checks.no_clash.imp fun _ => rfl)

/-- The columns of the destinations that the engine reads. -/
def destinationsRead (destinations : Table DestinationRow) : Table PayoutDestination where
  rows := destinations.rows.map DestinationRow.destination
  keys_nodup := by
    have hkeys : (destinations.rows.map DestinationRow.destination).map key =
        destinations.rows.map key := by
      rw [List.map_map]
      rfl
    rw [hkeys]
    exact destinations.keys_nodup
  no_clash := List.pairwise_map.mpr (destinations.no_clash.imp fun _ => rfl)

/-- What other services see of the two tables, beside the rest of the registry. -/
def ComplianceDb.registry (db : ComplianceDb) (rest : Registry) : Registry :=
  { rest with
    memberships := db.memberships
    readinessChecks := checksRead db.checks
    destinations := destinationsRead db.destinations }

end Refearn.Payouts
