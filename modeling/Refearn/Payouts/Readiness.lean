import Refearn.Schema
import Refearn.Support.JsText
/-!
# Payout readiness

`payout-readiness.ts`: the checks that decide whether a member may be paid, each
with its reason, its owner and the authority it was read from. No check carries a
remediation, so that member of a check is left out.
-/

namespace Refearn.Payouts

open Support

/-! ## The checks -/

inductive ReadinessCheckKey
  | email | payableBalance | threshold | openRequest
  | manual (key : ReadinessKey)
  | mfa
  deriving DecidableEq

inductive CheckStatus | ready | blocked | unknown
  deriving DecidableEq

inductive CheckOwner | member | workspaceAdmin | systemPolicy
  deriving DecidableEq

inductive Recheck | afterAction | manual
  deriving DecidableEq

inductive CheckAuthority | user | ledger | payout | auth | compliance
  deriving DecidableEq

structure ReadinessCheck where
  key : ReadinessCheckKey
  status : CheckStatus
  reasonCode : String
  owner : CheckOwner
  recheck : Recheck
  authority : CheckAuthority
  deriving DecidableEq

structure ManualPayoutReadinessDecision where
  key : ReadinessKey
  status : DecisionStatus
  reasonCode : String
  expiresAt : Option Instant
  version : Int

structure ActivePayoutDestination where
  id : Uuid
  verifiedAt : Option Instant
  version : Int
  deriving DecidableEq

inductive MfaAssurance | current | missing | expired | unknown
  deriving DecidableEq

inductive PayoutReadinessMfaInput
  | unknown
  | notRequired
  | required (assurance : MfaAssurance)
  deriving DecidableEq

inductive ActivePayoutStatus | requested | processing
  deriving DecidableEq

structure PayoutReadinessInput where
  emailVerified : Bool
  payableCents : Int
  thresholdCents : Int
  currency : String
  activePayout : Option (Uuid × ActivePayoutStatus)
  mfa : PayoutReadinessMfaInput
  manualChecks : List ManualPayoutReadinessDecision
  destination : Option ActivePayoutDestination

structure PayoutReadiness where
  requestable : Bool
  checks : List ReadinessCheck
  thresholdCents : Int
  currency : String
  deriving DecidableEq

/-- `Number.MAX_SAFE_INTEGER`. -/
def MAX_SAFE_INTEGER : Int := 2 ^ 53 - 1

def isValidPayoutReadinessVersion (version : Int) : Bool :=
  version ≤ MAX_SAFE_INTEGER && 0 < version

/-- A text that is not blank, or the default of its branch. -/
def reasonOr (reasonCode fallback : String) : String :=
  if trim reasonCode = "" then fallback else reasonCode

def manualCheck (key : ReadinessKey) (input : PayoutReadinessInput)
    (evaluatedAt : Instant) : ReadinessCheck :=
  let result (status : CheckStatus) (reasonCode : String) : ReadinessCheck :=
    ⟨.manual key, status, reasonCode, .workspaceAdmin, .manual, .compliance⟩
  match input.manualChecks.filter (fun candidate => candidate.key = key) with
  | [] => result .blocked "review_required"
  | _ :: _ :: _ => result .blocked "review_conflict"
  | [decision] =>
      if !isValidPayoutReadinessVersion decision.version then
        result .blocked "review_invalid"
      else
        match decision.status with
        | .pending => result .blocked "review_pending"
        | .blocked => result .blocked (reasonOr decision.reasonCode "review_blocked")
        | .ready =>
            if decision.expiresAt.any (fun expiresAt => expiresAt ≤ evaluatedAt) then
              result .blocked "review_expired"
            else if key = .paymentMethod && !input.destination.any (fun destination =>
                destination.verifiedAt.isSome &&
                  isValidPayoutReadinessVersion destination.version) then
              result .blocked "payment_destination_required"
            else result .ready (reasonOr decision.reasonCode "review_approved")

def evaluateMfa : PayoutReadinessMfaInput → ReadinessCheck
  | .unknown => ⟨.mfa, .unknown, "requirement_unknown", .systemPolicy, .manual, .auth⟩
  | .notRequired => ⟨.mfa, .ready, "not_required", .systemPolicy, .manual, .auth⟩
  | .required .current =>
      ⟨.mfa, .ready, "assurance_current", .member, .afterAction, .auth⟩
  | .required .unknown =>
      ⟨.mfa, .unknown, "assurance_unknown", .systemPolicy, .manual, .auth⟩
  | .required .expired =>
      ⟨.mfa, .blocked, "assurance_expired", .member, .afterAction, .auth⟩
  | .required .missing =>
      ⟨.mfa, .blocked, "assurance_missing", .member, .afterAction, .auth⟩

def openRequestCheck : Option (Uuid × ActivePayoutStatus) → ReadinessCheck
  | none => ⟨.openRequest, .ready, "no_open_request", .member, .manual, .payout⟩
  | some (_, .requested) =>
      ⟨.openRequest, .blocked, "payout_requested", .member, .manual, .payout⟩
  | some (_, .processing) =>
      ⟨.openRequest, .blocked, "payout_processing", .member, .manual, .payout⟩

/-- A check that is ready under its condition and blocked otherwise. -/
def conditionCheck (key : ReadinessCheckKey) (holds : Bool) (ready blocked : String)
    (owner : CheckOwner) (recheck : Recheck) (authority : CheckAuthority) :
    ReadinessCheck :=
  if holds then ⟨key, .ready, ready, owner, recheck, authority⟩
  else ⟨key, .blocked, blocked, owner, recheck, authority⟩

def emailCheck (input : PayoutReadinessInput) : ReadinessCheck :=
  conditionCheck .email input.emailVerified "email_verified" "email_unverified"
    .member .afterAction .user

def payableBalanceCheck (input : PayoutReadinessInput) : ReadinessCheck :=
  conditionCheck .payableBalance (0 < input.payableCents) "payable_balance_available"
    "no_payable" .member .manual .ledger

def thresholdCheck (input : PayoutReadinessInput) : ReadinessCheck :=
  conditionCheck .threshold (input.thresholdCents ≤ input.payableCents) "threshold_met"
    "below_threshold" .systemPolicy .manual .ledger

def evaluatePayoutReadiness (input : PayoutReadinessInput) (evaluatedAt : Instant) :
    PayoutReadiness :=
  let checks :=
    [emailCheck input, payableBalanceCheck input, thresholdCheck input,
      openRequestCheck input.activePayout,
      manualCheck .address input evaluatedAt, manualCheck .kyc input evaluatedAt,
      manualCheck .fraud input evaluatedAt, manualCheck .sanctions input evaluatedAt,
      manualCheck .paymentMethod input evaluatedAt, evaluateMfa input.mfa]
  { requestable := checks.all (fun check =>
      check.status = .ready ||
        (check.key = .mfa && input.mfa = .unknown && check.status = .unknown))
    checks := checks
    thresholdCents := input.thresholdCents
    currency := input.currency }

/-! ## What being requestable implies -/

@[simp] theorem conditionCheck_ready (key : ReadinessCheckKey) (holds : Bool)
    (ready blocked : String) (owner : CheckOwner) (recheck : Recheck)
    (authority : CheckAuthority) :
    (conditionCheck key holds ready blocked owner recheck authority).status = .ready ↔
      holds = true := by
  cases holds <;> simp [conditionCheck]

@[simp] theorem conditionCheck_key (key : ReadinessCheckKey) (holds : Bool)
    (ready blocked : String) (owner : CheckOwner) (recheck : Recheck)
    (authority : CheckAuthority) :
    (conditionCheck key holds ready blocked owner recheck authority).key = key := by
  cases holds <;> rfl

/-- A requestable member has a verified e-mail, a balance over the threshold and no
open payout. -/
theorem requestable_balance {input : PayoutReadinessInput} {evaluatedAt : Instant}
    (h : (evaluatePayoutReadiness input evaluatedAt).requestable = true) :
    input.emailVerified = true ∧ 0 < input.payableCents ∧
      input.thresholdCents ≤ input.payableCents ∧ input.activePayout = none := by
  simp only [evaluatePayoutReadiness, List.all_cons, Bool.and_eq_true,
    Bool.or_eq_true, decide_eq_true_eq] at h
  obtain ⟨hemail, hpayable, hthreshold, hopen, -⟩ := h
  refine ⟨?_, ?_, ?_, ?_⟩
  · simpa [emailCheck] using hemail
  · simpa [payableBalanceCheck] using hpayable
  · simpa [thresholdCheck] using hthreshold
  · rcases hactive : input.activePayout with _ | ⟨id, _ | _⟩
    · rfl
    · simp [hactive, openRequestCheck] at hopen
    · simp [hactive, openRequestCheck] at hopen

end Refearn.Payouts
