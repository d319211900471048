import Refearn.Payouts.Compliance
import Refearn.Support.Postings
import Refearn.Support.Runs
import Mathlib.Algebra.Group.Prod
/-!
# Fraud flags

`FraudService.scan` and `decide` of one tenant. A scan reads the sales, the members and the ledger,
collects the signals of each member in a map, and rewrites the flags of the members in that map.
Both run under the lock of the payout risk state, so they come one after another.
-/

namespace Refearn.Fraud

open Support
open Payouts (FRAUD_BLOCK_SCORE fraudPayoutBlock)

/-! ## Rows -/

structure SaleRow where
  sellerMembershipId : Uuid
  status : SaleStatus
  customerRef : Option String
  deriving DecidableEq

structure MemberRow where
  id : Uuid
  sponsorMembershipId : Option Uuid
  referralCode : String
  signupIp : Option String
  joinedAt : Instant

instance : Keyed MemberRow Uuid := { key := MemberRow.id }

structure LedgerRow where
  beneficiaryMembershipId : Uuid
  status : LedgerStatus
  amountCents : Int
  deriving DecidableEq

/-- What a scan reads of its tenant. -/
structure Inputs where
  sales : List SaleRow
  members : Table MemberRow
  ledger : List LedgerRow
  payoutMinCents : Int

structure FlagRow where
  membershipId : Uuid
  score : Int
  reasons : List String
  status : FraudStatus
  note : Option String
  reviewedByUserId : Option Uuid
  reviewedAt : Option Instant

instance : Keyed FlagRow Uuid := { key := FlagRow.membershipId }

/-- What the payout checks read of a flag. -/
def FlagRow.flag (f : FlagRow) : FraudFlag := ⟨f.membershipId, f.status, f.score⟩

/-! ## Signals -/

inductive SignalKind
  | highVoidRate | rapidRecruitment | selfReferral | sharedSignupIp | rapidPayoutNewAccount
  deriving DecidableEq

def SignalKind.score : SignalKind → Int
  | .highVoidRate => 30
  | .rapidRecruitment => 25
  | .selfReferral => 40
  | .sharedSignupIp => 35
  | .rapidPayoutNewAccount => FRAUD_BLOCK_SCORE

/-- A signal; its score is that of its kind. -/
structure Signal where
  kind : SignalKind
  reason : String
  deriving DecidableEq

/-- `lower` of PostgreSQL, and `(Number(cents) / 100).toFixed(0)`. -/
structure FraudEnv where
  lower : String → String
  dollars : Int → String

def RECRUIT_DAYS : Int := 7
def NEW_ACCOUNT_DAYS : Int := 14

section Loops

variable (env : FraudEnv) (inputs : Inputs) (now : Instant)

/-- `groupBy(['sellerMembershipId', 'status'])` with its counts. -/
def statusRows : List ((Uuid × SaleStatus) × Int) :=
  groupSums (fun s => (s.sellerMembershipId, s.status)) (fun _ => 1) inputs.sales

/-- All sales and the void ones of each seller. -/
def tally : List (Uuid × (Int × Int)) :=
  groupTotals (fun r => r.1.1) (fun r => (r.2, if r.1.2 = .void then r.2 else 0))
    (statusRows inputs)

/-- At least three sales, and `void / total >= 0.4`. -/
def voidRateSignals : List (Uuid × Signal) :=
  (tally inputs).filterMap fun t =>
    if 3 ≤ t.2.1 ∧ 2 * t.2.1 ≤ 5 * t.2.2 then
      some (t.1, ⟨.highVoidRate,
        "high_void_rate(" ++ toString t.2.2 ++ "/" ++ toString t.2.1 ++ ")"⟩)
    else none

def recruitRows : List (Option Uuid × Int) :=
  groupSums MemberRow.sponsorMembershipId (fun _ => 1)
    (inputs.members.rows.filter fun m =>
      now - RECRUIT_DAYS * DAY_MS ≤ m.joinedAt ∧ m.sponsorMembershipId ≠ none)

def recruitmentSignals : List (Uuid × Signal) :=
  (recruitRows inputs now).filterMap fun r =>
    r.1.bind fun sponsor =>
      if 10 ≤ r.2 then
        some (sponsor, ⟨.rapidRecruitment, "rapid_recruitment(" ++ toString r.2 ++ "/7d)"⟩)
      else none

/-- The customer of a sale is named by the referral code of its seller. -/
def isSelfReferral (s : SaleRow) : Bool :=
  match inputs.members.find? s.sellerMembershipId, s.customerRef with
  | some m, some customerRef => env.lower customerRef = env.lower m.referralCode
  | _, _ => false

def selfRows : List (Uuid × Int) :=
  groupSums SaleRow.sellerMembershipId (fun _ => 1)
    (inputs.sales.filter (isSelfReferral env inputs))

def selfReferralSignals : List (Uuid × Signal) :=
  (selfRows env inputs).map fun r =>
    (r.1, ⟨.selfReferral, "self_referral(" ++ toString r.2 ++ ")"⟩)

def sharedIps : List (Option String) :=
  ((groupSums MemberRow.signupIp (fun _ => (1 : Int))
    (inputs.members.rows.filter (·.signupIp ≠ none))).filter fun g => 3 ≤ g.2).map Prod.fst

def sharedIpSignals : List (Uuid × Signal) :=
  (inputs.members.rows.filter (·.signupIp ∈ sharedIps inputs)).map fun m =>
    (m.id, ⟨.sharedSignupIp, "shared_signup_ip"⟩)

def newIds : List Uuid :=
  (inputs.members.rows.filter fun m => now - NEW_ACCOUNT_DAYS * DAY_MS ≤ m.joinedAt).map (·.id)

def payableRows : List (Uuid × Int) :=
  groupSums LedgerRow.beneficiaryMembershipId LedgerRow.amountCents
    (inputs.ledger.filter fun e =>
      e.status = .payable ∧ e.beneficiaryMembershipId ∈ newIds inputs now)

def velocitySignals : List (Uuid × Signal) :=
  (payableRows inputs now).filterMap fun p =>
    if inputs.payoutMinCents * 10 ≤ p.2 then
      some (p.1, ⟨.rapidPayoutNewAccount,
        "rapid_payout_new_account($" ++ env.dollars p.2 ++ "/<14d)"⟩)
    else none

end Loops

/-! ## The map of signals -/

/-- `add` on the map from members to their signals, in insertion order. -/
def add (id : Uuid) (s : Signal) : List (Uuid × List Signal) → List (Uuid × List Signal)
  | [] => [(id, [s])]
  | (k, arr) :: rest => if k = id then (k, arr ++ [s]) :: rest else (k, arr) :: add id s rest

def addAll (signals : List (Uuid × Signal)) (byMember : List (Uuid × List Signal)) :
    List (Uuid × List Signal) :=
  signals.foldl (fun byMember e => add e.1 e.2 byMember) byMember

def byMember (env : FraudEnv) (inputs : Inputs) (now : Instant) : List (Uuid × List Signal) :=
  addAll (velocitySignals env inputs now) (addAll (sharedIpSignals inputs)
    (addAll (selfReferralSignals env inputs) (addAll (recruitmentSignals inputs now)
      (addAll (voidRateSignals inputs) []))))

/-! ## Flags -/

def FlagRow.rescored (score : Int) (reasons : List String) (status : FraudStatus) (f : FlagRow) :
    FlagRow :=
  { f with score, reasons, status }

theorem rescored_keepsIndexes (score : Int) (reasons : List String) (status : FraudStatus) :
    KeepsIndexes (FlagRow.rescored score reasons status) :=
  ⟨fun _ => rfl, fun _ _ h => h, fun _ _ h => h⟩

/-- `upsert` under the index on the membership. -/
def upsertFlag (flags : Table FlagRow) (membershipId : Uuid) (score : Int)
    (reasons : List String) (status : FraudStatus) : Table FlagRow :=
  match flags.find? membershipId with
  | some _ =>
      flags.updateKey membershipId (FlagRow.rescored score reasons status)
        (rescored_keepsIndexes score reasons status)
  | none =>
      (flags.insert? ⟨membershipId, score, reasons, status, none, none, none⟩).getD flags

def scoreOfSignals (signals : List Signal) : Int := (signals.map (·.kind.score)).sum

/-- A cleared flag opens again under a score that blocks. -/
def statusAfter (prev : Option FlagRow) (score : Int) : FraudStatus :=
  match prev with
  | none => .opened
  | some f => if f.status = .cleared ∧ FRAUD_BLOCK_SCORE ≤ score then .opened else f.status

/-- One round of the loop over the members with signals: the flags and how many are blocked. -/
def rescore (existing : Table FlagRow) (acc : Table FlagRow × Nat) (e : Uuid × List Signal) :
    Table FlagRow × Nat :=
  let score := scoreOfSignals e.2
  let status := statusAfter (existing.find? e.1) score
  (upsertFlag acc.1 e.1 score (e.2.map (·.reason)) status,
    if FRAUD_BLOCK_SCORE ≤ score ∧ status ≠ .cleared then acc.2 + 1 else acc.2)

structure ScanResult where
  flagged : Nat
  blocked : Nat
  deriving DecidableEq

def scan (env : FraudEnv) (inputs : Inputs) (now : Instant) (flags : Table FlagRow) :
    Table FlagRow × ScanResult :=
  let found := byMember env inputs now
  let (after, blocked) := found.foldl (rescore flags) (flags, 0)
  (after, ⟨found.length, blocked⟩)

inductive Action | clear | confirm
  deriving DecidableEq

structure Actor where
  userId : Uuid
  tenantId : Uuid
  deriving DecidableEq

inductive FraudError
  | notFound (message : String)
  deriving DecidableEq

def Action.status : Action → FraudStatus
  | .clear => .cleared
  | .confirm => .confirmed

/-- A note that is left out stays as it is. -/
def FlagRow.decided (status : FraudStatus) (note : Option String) (userId : Uuid) (now : Instant)
    (f : FlagRow) : FlagRow :=
  { f with
    status
    note := note <|> f.note
    reviewedByUserId := some userId
    reviewedAt := some now }

theorem decided_keepsIndexes (status : FraudStatus) (note : Option String) (userId : Uuid)
    (now : Instant) : KeepsIndexes (FlagRow.decided status note userId now) :=
  ⟨fun _ => rfl, fun _ _ h => h, fun _ _ h => h⟩

def decideFlag (tenantId : Uuid) (actor : Actor) (membershipId : Uuid) (action : Action)
    (note : Option String) (now : Instant) (flags : Table FlagRow) :
    Except FraudError (Table FlagRow) :=
  match flags.find? membershipId with
  | none => .error (.notFound "fraud bayragi bulunamadi")
  | some _ =>
      if tenantId ≠ actor.tenantId then .error (.notFound "fraud bayragi bulunamadi")
      else
        .ok (flags.updateKey membershipId
          (FlagRow.decided action.status note actor.userId now)
          (decided_keepsIndexes action.status note actor.userId now))

/-! ## The signals that hold -/

section Holds

variable (env : FraudEnv) (inputs : Inputs) (now : Instant) (id : Uuid)

/-- What each signal says of a member. -/
def SignalKind.holds : SignalKind → Bool
  | .highVoidRate =>
      let total := inputs.sales.countP (·.sellerMembershipId = id)
      let void := inputs.sales.countP fun s => s.sellerMembershipId = id ∧ s.status = .void
      3 ≤ total ∧ 2 * total ≤ 5 * void
  | .rapidRecruitment =>
      10 ≤ inputs.members.rows.countP fun m =>
        now - RECRUIT_DAYS * DAY_MS ≤ m.joinedAt ∧ m.sponsorMembershipId = some id
  | .selfReferral =>
      inputs.sales.any fun s => s.sellerMembershipId = id ∧ isSelfReferral env inputs s
  | .sharedSignupIp =>
      inputs.members.rows.any fun m => m.id = id ∧ m.signupIp ≠ none ∧
        3 ≤ inputs.members.rows.countP (·.signupIp = m.signupIp)
  | .rapidPayoutNewAccount =>
      let payable := inputs.ledger.filter fun e =>
        e.status = .payable ∧ e.beneficiaryMembershipId = id
      (inputs.members.rows.any fun m => m.id = id ∧ now - NEW_ACCOUNT_DAYS * DAY_MS ≤ m.joinedAt) ∧
        payable ≠ [] ∧ inputs.payoutMinCents * 10 ≤ (payable.map (·.amountCents)).sum

def SignalKind.all : List SignalKind :=
  [.highVoidRate, .rapidRecruitment, .selfReferral, .sharedSignupIp, .rapidPayoutNewAccount]

/-- The signals of a member. -/
def kindsOf : List SignalKind := SignalKind.all.filter (SignalKind.holds env inputs now id)

def scoreOf : Int := ((kindsOf env inputs now id).map SignalKind.score).sum

end Holds

/-! ## Histories -/

structure World where
  tenantId : Uuid
  inputs : Inputs
  flags : Table FlagRow
  clock : Instant
  /-- history: the signals a member was last cleared for, until they change -/
  standing : Uuid → Option (List SignalKind)

inductive Step
  | scan
  | decide (actor : Actor) (membershipId : Uuid) (action : Action) (note : Option String)
  /-- any change of the sales, the members, the ledger and the tenant -/
  | change (inputs : Inputs)
  | tick (ms : Nat)

section Steps

variable (env : FraudEnv)

def World.kinds (w : World) (id : Uuid) : List SignalKind := kindsOf env w.inputs w.clock id

def World.score (w : World) (id : Uuid) : Int := scoreOf env w.inputs w.clock id

/-- A clear whose signals have changed no longer stands. -/
def World.settled (w : World) : World :=
  { w with standing := fun id => (w.standing id).filter (· = w.kinds env id) }

def Step.apply (step : Step) (w : World) : World :=
  match step with
  | .scan => { w with flags := (Fraud.scan env w.inputs w.clock w.flags).1 }
  | .decide actor membershipId action note =>
      match decideFlag w.tenantId actor membershipId action note w.clock w.flags with
      | .error _ => w
      | .ok flags =>
          { w with
            flags
            standing := fun id =>
              if id ≠ membershipId then w.standing id
              else if action = .clear then some (w.kinds env id)
              else none }
  | .change inputs => World.settled env { w with inputs }
  | .tick ms => World.settled env { w with clock := w.clock + ms }

end Steps

def storedScore (flags : Table FlagRow) (id : Uuid) : Int :=
  ((flags.find? id).map (·.score)).getD 0

def payoutBlock (flags : Table FlagRow) (id : Uuid) : Option String :=
  fraudPayoutBlock ((flags.find? id).map FlagRow.flag)

def isCleared (flags : Table FlagRow) (id : Uuid) : Prop :=
  ∃ f, flags.find? id = some f ∧ f.status = .cleared

instance (flags : Table FlagRow) (id : Uuid) : Decidable (isCleared flags id) :=
  decidable_of_iff ((flags.find? id).any (·.status = .cleared) = true) (by
    unfold isCleared
    cases flags.find? id <;> simp)

/-- Every clear is in force whose signals have not changed. -/
def ClearsStand (w : World) : Prop := ∀ id, (w.standing id).isSome → isCleared w.flags id

/-- What a scan owes. -/
structure FollowsSignals (env : FraudEnv) (w w' : World) : Prop where
  scores : ∀ m ∈ w.inputs.members, storedScore w'.flags m.id = w.score env m.id
  /-- without a signal nothing blocks -/
  idle : ∀ m ∈ w.inputs.members, w.kinds env m.id = [] → payoutBlock w'.flags m.id = none
  blocks : ∀ m ∈ w.inputs.members, FRAUD_BLOCK_SCORE ≤ w.score env m.id →
    ¬ isCleared w.flags m.id → payoutBlock w'.flags m.id ≠ none

/-- What is promised of a step. -/
def Promised (env : FraudEnv) (step : Step) (w : World) : Prop :=
  (step = .scan → FollowsSignals env w (step.apply env w)) ∧ ClearsStand (step.apply env w)

/-- A scan meets no flag of a member who has lost the last signal, and no clear that stands
against a score that blocks. -/
def Undisturbed (env : FraudEnv) (step : Step) (w : World) : Prop :=
  step = .scan →
    (∀ m ∈ w.inputs.members, w.kinds env m.id = [] → storedScore w.flags m.id = 0) ∧
      ∀ id, (w.standing id).isSome → w.score env id < FRAUD_BLOCK_SCORE

/-- A step that leaves a clear of a member in force: no scan that finds a score that blocks, and
no other decision. -/
def KeepsClear (env : FraudEnv) (id : Uuid) (step : Step) (w : World) : Prop :=
  (step = .scan → w.score env id < FRAUD_BLOCK_SCORE) ∧
    ∀ actor note, step ≠ .decide actor id .confirm note

end Refearn.Fraud
