import Refearn.Environment
import Refearn.Payouts.Readiness
import Mathlib.Data.List.Sort
/-!
# Payout compliance

`payout-compliance.service.ts` with the risk blocks it consults: the stored
decisions of a member, the live block that overrides them, and the snapshot a
reservation takes and a dispatch compares with the current decisions.
-/

namespace Refearn.Payouts

open Support

def PAYOUT_COMPLIANCE_CONTROL_KEYS : List ReadinessKey :=
  [.address, .kyc, .fraud, .sanctions, .paymentMethod]

/-! ## Risk blocks -/

def FRAUD_BLOCK_SCORE : Int := 50

def fraudPayoutBlock : Option FraudFlag → Option String
  | none => none
  | some flag =>
      if flag.status = .cleared then none
      else if FRAUD_BLOCK_SCORE ≤ flag.score then some "flagged for fraud review"
      else none

def KYC_COOLDOWN_DAYS : Int := 3

def kycPayoutBlock (profile : Option PayoutProfile) (now : Instant) : Option String :=
  match profile with
  | none => some "payout profile not set up"
  | some p =>
      if p.status = .rejected then some "payout profile was rejected"
      else if p.status ≠ .verified then some "payout profile pending verification"
      else if now - p.lastChangedAt < KYC_COOLDOWN_DAYS * DAY_MS then
        some "payout profile recently changed — cooling-down period"
      else none

def normalizeName (env : Env) (name : String) : String :=
  String.ofList (collapseSpaces false (trim (env.toLowerCase name)).toList)

/-- Every word of a listed name is a word of the member's name. -/
def sanctionsMatch (env : Env) (entries : List String) (name : String) : Bool :=
  let tokens := words (normalizeName env name)
  entries.any fun entry =>
    let entryTokens := words entry
    !entryTokens.isEmpty && entryTokens.all (fun token => token ∈ tokens)

def SANCTIONS_BLOCK : String := "sanctions match — compliance review required"

def runtimePayoutBlock (env : Env) (registry : Registry) (now : Instant)
    (tenantId membershipId : Uuid) : Option String :=
  match registry.tenants.find? tenantId,
      (registry.memberships.find? membershipId).filter (·.tenantId = tenantId) with
  | some tenant, some membership =>
      let profile := registry.payoutProfiles.find? membershipId
      match fraudPayoutBlock (registry.fraudFlags.find? membershipId) with
      | some block => some block
      | none =>
          match if tenant.requireKycForPayout then kycPayoutBlock profile now
              else none with
          | some block => some block
          | none =>
              if profile.any (·.sanctionsHit) then some SANCTIONS_BLOCK
              else
                let fullName := (registry.users.find? membership.userId).map User.fullName
                let names := (profile.map PayoutProfile.legalName).toList ++ fullName.toList
                if (names.filter (· ≠ "")).any (sanctionsMatch env registry.sanctions) then
                  some SANCTIONS_BLOCK
                else none
  | _, _ => some "payout recipient is no longer available"

/-! ## Stored decisions -/

structure PayoutComplianceReadinessInput where
  manualChecks : List ManualPayoutReadinessDecision
  destination : Option ActivePayoutDestination

/-- `ORDER BY version DESC, id ASC`. -/
def newerDestination (d d' : PayoutDestination) : Prop :=
  d'.version < d.version ∨ (d'.version = d.version ∧ d.id ≤ d'.id)

instance : DecidableRel newerDestination := fun d d' =>
  inferInstanceAs (Decidable (d'.version < d.version ∨ (d'.version = d.version ∧ d.id ≤ d'.id)))

def readInput (registry : Registry) (tenantId membershipId : Uuid) :
    PayoutComplianceReadinessInput where
  manualChecks := PAYOUT_COMPLIANCE_CONTROL_KEYS.filterMap fun k =>
    (registry.readinessChecks.find? (tenantId, membershipId, k)).map fun control =>
      ⟨control.key, control.status, control.reasonCode, control.expiresAt, control.version⟩
  destination :=
    ((registry.destinations.rows.filter (fun d =>
        d.tenantId = tenantId ∧ d.membershipId = membershipId ∧ d.active)).insertionSort
      newerDestination).head?.map fun d => ⟨d.id, d.verifiedAt, d.version⟩

def controlReady (evaluatedAt : Instant) (control : ManualPayoutReadinessDecision) :
    Bool :=
  control.status = .ready && isValidPayoutReadinessVersion control.version &&
    !control.expiresAt.any (fun expiresAt => expiresAt ≤ evaluatedAt)

def isReady (input : PayoutComplianceReadinessInput) (evaluatedAt : Instant) : Bool :=
  input.manualChecks.length = PAYOUT_COMPLIANCE_CONTROL_KEYS.length &&
    PAYOUT_COMPLIANCE_CONTROL_KEYS.all (fun k =>
      (input.manualChecks.find? (fun c => c.key = k)).any (controlReady evaluatedAt)) &&
    input.destination.any (fun d =>
      d.verifiedAt.isSome && isValidPayoutReadinessVersion d.version)

/-! ## Snapshots -/

def buildSnapshot (input : PayoutComplianceReadinessInput) : ComplianceSnapshot where
  controls := input.manualChecks.map fun c =>
    (c.key, c.status, c.reasonCode, c.expiresAt, c.version)
  destination := input.destination.bind fun d =>
    d.verifiedAt.map fun verifiedAt => (d.id, verifiedAt, d.version)

/-- The version digit is 1 to 5 and the variant digit is 8 to b. -/
def Uuid.isVersioned (id : Uuid) : Bool :=
  "12345".toList.any (· ∈ id.digits[12]?) && "89ab".toList.any (· ∈ id.digits[16]?)

/-- A stored snapshot in the complete format of a ready member. -/
def parseSnapshot (stored : Option ComplianceSnapshot) : Option ComplianceSnapshot :=
  stored.filter fun snapshot =>
    snapshot.controls.map Prod.fst = PAYOUT_COMPLIANCE_CONTROL_KEYS &&
      snapshot.controls.all (fun (_, _, _, _, version) =>
        isValidPayoutReadinessVersion version) &&
      snapshot.destination.any (fun (id, _, version) =>
        Uuid.isVersioned id && isValidPayoutReadinessVersion version)

inductive PayoutComplianceRecheck | ready | changed | recheckRequired
  deriving DecidableEq

/-- The source compares the two texts, which differ when the snapshots do. -/
def recheckSnapshot (stored : Option ComplianceSnapshot)
    (current : PayoutComplianceReadinessInput) (now : Instant) :
    PayoutComplianceRecheck :=
  match parseSnapshot stored with
  | none => .recheckRequired
  | some parsed =>
      if !isReady current now then .changed
      else if parsed = buildSnapshot current then .ready
      else .changed

end Refearn.Payouts
