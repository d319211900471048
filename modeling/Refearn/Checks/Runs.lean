import Refearn.Checks.Words
import Refearn.Engine.Settlement
import Refearn.Support.Runs
/-!
# Numbering and mailing checks

`ChecksService` over the paid payouts by check. `generateRun` locks the row of its tenant, reads
the counter, selects payouts without a number and gives them the next ones; other transactions
come between its statements, but none holds the same lock. `markMailed`, `buildPdf` and the
settlement of a batch take no such lock.
-/

namespace Refearn.Checks

open Support

/-! ## Rows -/

structure PayeeSnapshot where
  name : String
  line1 : String
  line2 : Option String
  city : String
  state : String
  postal : String
  country : String
  deriving DecidableEq

/-- A row of `payouts` with the columns of the checks. -/
structure CheckPayout extends Payout where
  checkNumber : Option Nat
  mailedAt : Option Instant
  payeeSnapshot : Option PayeeSnapshot
  deriving DecidableEq

instance : Keyed CheckPayout Uuid where
  key p := p.id
  clash p p' := clash p.toPayout p'.toPayout

/-- A row of `tenants` with the counter. -/
structure CheckTenant where
  id : Uuid
  lastCheckNumber : Nat
  deriving DecidableEq

/-- `@default(1000)` of the counter. -/
def LAST_CHECK_NUMBER_DEFAULT : Nat := 1000

instance : Keyed CheckTenant Uuid := { key := CheckTenant.id }

/-- What the mailing columns and the user of a membership say. -/
structure Payee where
  mailingName : Option String
  mailingLine1 : Option String
  mailingLine2 : Option String
  mailingCity : Option String
  mailingState : Option String
  mailingPostal : Option String
  mailingCountry : Option String
  fullName : String

/-- Neither missing nor empty. -/
def isFilled (field : Option String) : Bool := field.any (· ≠ "")

def mailingAddressComplete (m : Payee) : Bool :=
  isFilled m.mailingName && isFilled m.mailingLine1 && isFilled m.mailingCity &&
    isFilled m.mailingState && isFilled m.mailingPostal

/-! ## A check run -/

structure AssignedCheck where
  payoutId : Uuid
  checkNumber : Nat
  snapshot : PayeeSnapshot
  totalCents : Int
  period : String

structure SkippedCheck where
  payoutId : Uuid
  name : String
  reason : String
  deriving DecidableEq

def snapshotOf (m : Payee) : PayeeSnapshot where
  name := m.mailingName.getD m.fullName
  line1 := m.mailingLine1.getD ""
  line2 := m.mailingLine2
  city := m.mailingCity.getD ""
  state := m.mailingState.getD ""
  postal := m.mailingPostal.getD ""
  country := m.mailingCountry.getD "US"

/-- A payout that no check can be written for. -/
def skipReason (p : CheckPayout) (m : Payee) : Option String :=
  if mailingAddressComplete m = false then some "incomplete_address"
  else if p.totalCents ≤ 0 ∨ CHECK_AMOUNT_MAX < p.totalCents then some "invalid_amount"
  else none

/-- The loop over the selected payouts, from the last number given. -/
def assignChecks (payee : CheckPayout → Payee) :
    Nat → List CheckPayout → List AssignedCheck × List SkippedCheck
  | _, [] => ([], [])
  | next, p :: targets =>
      match skipReason p (payee p) with
      | some reason =>
          let (assigned, skipped) := assignChecks payee next targets
          (assigned, ⟨p.id, (payee p).fullName, reason⟩ :: skipped)
      | none =>
          let (assigned, skipped) := assignChecks payee (next + 1) targets
          (⟨p.id, next + 1, snapshotOf (payee p), p.totalCents, p.period⟩ :: assigned, skipped)

def CheckPayout.numbered (a : AssignedCheck) (p : CheckPayout) : CheckPayout :=
  { p with checkNumber := some a.checkNumber, payeeSnapshot := some a.snapshot }

theorem numbered_keepsIndexes (a : AssignedCheck) : KeepsIndexes (CheckPayout.numbered a) :=
  ⟨fun _ => rfl, fun _ _ h => h, fun _ _ h => h⟩

/-- `payout.update({ where: { id } })` for each check. -/
def writeChecks (payouts : Table CheckPayout) (assigned : List AssignedCheck) :
    Table CheckPayout :=
  assigned.foldl (fun payouts a =>
    payouts.updateKey a.payoutId (CheckPayout.numbered a) (numbered_keepsIndexes a)) payouts

/-- `method = 'check'`, `status = 'paid'` -/
def CheckPayout.isPaidCheck (tenantId : Uuid) (p : CheckPayout) : Bool :=
  p.tenantId == tenantId && p.method == .check && p.status == .paid

/-- No list, or an empty one, names all payouts. -/
def isChosen (payoutIds : List Uuid) (p : CheckPayout) : Bool :=
  payoutIds.isEmpty || payoutIds.contains p.id

def isTarget (tenantId : Uuid) (payoutIds : List Uuid) (p : CheckPayout) : Bool :=
  p.isPaidCheck tenantId && p.checkNumber.isNone && isChosen payoutIds p

/-- Where a run stands between its lock and its commit. -/
structure CheckRun where
  payoutIds : List Uuid
  /-- the counter, read with the lock -/
  lastCheckNumber : Nat
  /-- the payouts of the second query with what the third one read about each -/
  selected : Option (List CheckPayout × (CheckPayout → Payee))

/-- `ORDER BY paid_at, created_at`, in which a missing date comes last. -/
def paidNoLater (p p' : CheckPayout) : Bool :=
  match p.paidAt, p'.paidAt with
  | some t, some t' => t < t' || (t == t' && p.createdAt ≤ p'.createdAt)
  | some _, none => true
  | none, some _ => false
  | none, none => p.createdAt ≤ p'.createdAt

/-- What the second query of a run may answer. -/
def isSelection (payouts : Table CheckPayout) (tenantId : Uuid) (payoutIds : List Uuid)
    (targets : List CheckPayout) : Prop :=
  targets.Perm (payouts.rows.filter (isTarget tenantId payoutIds)) ∧
    targets.Pairwise (paidNoLater · ·)

instance (payouts : Table CheckPayout) (tenantId : Uuid) (payoutIds : List Uuid)
    (targets : List CheckPayout) : Decidable (isSelection payouts tenantId payoutIds targets) :=
  inferInstanceAs (Decidable (_ ∧ _))

/-! ## Mailing and printing -/

def isMailable (tenantId : Uuid) (payoutIds : List Uuid) (p : CheckPayout) : Bool :=
  p.isPaidCheck tenantId && payoutIds.contains p.id && p.checkNumber.isSome && p.mailedAt.isNone

def CheckPayout.mailed (now : Instant) (p : CheckPayout) : CheckPayout :=
  { p with mailedAt := some now }

theorem mailed_keepsIndexes (now : Instant) : KeepsIndexes (CheckPayout.mailed now) :=
  ⟨fun _ => rfl, fun _ _ h => h, fun _ _ h => h⟩

def markMailed (payouts : Table CheckPayout) (tenantId : Uuid) (payoutIds : List Uuid)
    (now : Instant) : Table CheckPayout :=
  payouts.updateWhere (isMailable tenantId payoutIds) (CheckPayout.mailed now)
    (mailed_keepsIndexes now)

def isPrintable (tenantId : Uuid) (payoutIds : List Uuid) (p : CheckPayout) : Bool :=
  p.isPaidCheck tenantId && p.checkNumber.isSome && p.mailedAt.isNone && isChosen payoutIds p

structure CheckDoc where
  checkNumber : Nat
  amountCents : Int
  payee : PayeeSnapshot
  memo : String
  /-- the date of the payment, else of the payout -/
  date : Instant

def PayeeSnapshot.isComplete (s : PayeeSnapshot) : Bool :=
  s.name ≠ "" && s.line1 ≠ "" && s.city ≠ "" && s.state ≠ "" && s.postal ≠ ""

def missingSnapshot (number : Nat) : String :=
  s!"cek {number}: payee adres snapshot'i eksik — cek-run'i tekrar calistirin"

def toCheckDoc (p : CheckPayout) : Except String CheckDoc :=
  let number := p.checkNumber.getD 0
  match p.payeeSnapshot.filter PayeeSnapshot.isComplete with
  | none => .error (missingSnapshot number)
  | some snap =>
      if p.totalCents ≤ 0 ∨ CHECK_AMOUNT_MAX < p.totalCents then
        .error s!"cek {number}: tutar cek sinirlari disinda (0 < tutar <= $99,999,999.99)"
      else
        .ok ⟨number, p.totalCents, snap, s!"Commission payout — {p.period}",
          p.paidAt.getD p.createdAt⟩

structure ChecksPdf where
  checks : List CheckDoc
  fileName : String

def numberLe (p p' : CheckPayout) : Prop := p.checkNumber.getD 0 ≤ p'.checkNumber.getD 0

instance : DecidableRel numberLe := fun _ _ => Nat.decLe _ _

def NOTHING_TO_PRINT : String :=
  "bastirilacak cek yok — once cek-run ile numara atayin (postalanmis cekler haric)"

/-- What is printed of the payouts as they are read. -/
def buildPdf (payouts : Table CheckPayout) (tenantId : Uuid) (payoutIds : List Uuid) :
    Except String ChecksPdf := do
  let rows := (payouts.rows.filter (isPrintable tenantId payoutIds)).insertionSort numberLe
  let checks ← rows.mapM toCheckDoc
  match checks.head?, checks.getLast? with
  | some first, some last => .ok ⟨checks, s!"checks-{first.checkNumber}-{last.checkNumber}.pdf"⟩
  | _, _ => .error NOTHING_TO_PRINT

/-! ## The system -/

structure ChecksWorld where
  tenants : Table CheckTenant
  payouts : Table CheckPayout
  /-- the run that holds the lock of a tenant -/
  runs : Uuid → Option CheckRun

def ChecksWorld.setRun (tenantId : Uuid) (r : Option CheckRun) (w : ChecksWorld) : ChecksWorld :=
  { w with runs := Function.update w.runs tenantId r }

/-- What the rest of the service does to the payouts: it leaves paid ones alone, deletes none,
and never writes the columns of the checks. -/
def isForeign (payouts payouts' : Table CheckPayout) : Prop :=
  (∀ p ∈ payouts, ∃ p' ∈ payouts', p'.id = p.id ∧ p'.tenantId = p.tenantId ∧
    p'.checkNumber = p.checkNumber ∧ p'.mailedAt = p.mailedAt ∧
      p'.payeeSnapshot = p.payeeSnapshot ∧ (p.status = .paid → p' = p)) ∧
  ∀ p' ∈ payouts', (∀ p ∈ payouts, p.id ≠ p'.id) →
    p'.checkNumber = none ∧ p'.mailedAt = none ∧ p'.payeeSnapshot = none

instance (payouts payouts' : Table CheckPayout) : Decidable (isForeign payouts payouts') :=
  inferInstanceAs (Decidable (_ ∧ _))

/-- The payouts of a batch that its settlement pays. -/
def isOfBatch (batchId : Uuid) (p : CheckPayout) : Bool :=
  p.batchId == some batchId && p.status == .processing

def CheckPayout.settled (now : Instant) (reference evidence : String) (p : CheckPayout) :
    CheckPayout :=
  { p with toPayout := Engine.settlePayout now reference evidence p.toPayout }

theorem settled_keepsIndexes (now : Instant) (reference evidence : String) :
    KeepsIndexes (CheckPayout.settled now reference evidence) where
  key_eq _ := rfl
  clash_left p q h :=
    (Engine.settlePayout_keepsIndexes now reference evidence).clash_left p.toPayout q.toPayout h
  clash_right p q h :=
    (Engine.settlePayout_keepsIndexes now reference evidence).clash_right p.toPayout q.toPayout h

def settleBatch (payouts : Table CheckPayout) (batchId : Uuid) (now : Instant)
    (reference evidence : String) : Table CheckPayout :=
  payouts.updateWhere (isOfBatch batchId) (CheckPayout.settled now reference evidence)
    (settled_keepsIndexes now reference evidence)

inductive ChecksStep
  | createTenant (tenantId : Uuid)
  /-- `generateRun` gets the lock; a run that waits for it has read nothing yet -/
  | lockTenant (tenantId : Uuid) (payoutIds : List Uuid)
  /-- its second and third query -/
  | selectTargets (tenantId : Uuid) (targets : List CheckPayout) (payee : CheckPayout → Payee)
  /-- its updates, and the commit that makes them visible -/
  | commitRun (tenantId : Uuid)
  | abortRun (tenantId : Uuid)
  | markMailed (tenantId : Uuid) (payoutIds : List Uuid) (now : Instant)
  | settleBatch (batchId : Uuid) (now : Instant) (reference evidence : String)
  /-- reservations, failures, reconciliation -/
  | foreign (payouts : Table CheckPayout)

/-- The largest value of the column. -/
def INT_MAX : Nat := 2 ^ 31 - 1

theorem counter_keepsIndexes (next : Nat) :
    KeepsIndexes fun t : CheckTenant => { t with lastCheckNumber := next } :=
  ⟨fun _ => rfl, fun _ _ h => h, fun _ _ h => h⟩

/-- The end of a run; a number that does not fit aborts it. -/
def ChecksWorld.commitRun (tenantId : Uuid) (r : CheckRun) (targets : List CheckPayout)
    (payee : CheckPayout → Payee) (w : ChecksWorld) : ChecksWorld :=
  let (assigned, _) := assignChecks payee r.lastCheckNumber targets
  let next := r.lastCheckNumber + assigned.length
  if next ≤ INT_MAX then
    { tenants := w.tenants.updateKey tenantId (fun t => { t with lastCheckNumber := next })
        (counter_keepsIndexes next)
      payouts := writeChecks w.payouts assigned
      runs := Function.update w.runs tenantId none }
  else w.setRun tenantId none

def ChecksStep.apply (step : ChecksStep) (w : ChecksWorld) : ChecksWorld :=
  match step with
  | .createTenant tenantId =>
      match w.tenants.insert? ⟨tenantId, LAST_CHECK_NUMBER_DEFAULT⟩ with
      | some tenants => { w with tenants }
      | none => w
  | .lockTenant tenantId payoutIds =>
      match w.runs tenantId, w.tenants.find? tenantId with
      | none, some t => w.setRun tenantId (some ⟨payoutIds, t.lastCheckNumber, none⟩)
      | _, _ => w
  | .selectTargets tenantId targets payee =>
      match w.runs tenantId with
      | some ⟨payoutIds, last, none⟩ =>
          if isSelection w.payouts tenantId payoutIds targets then
            w.setRun tenantId (some ⟨payoutIds, last, some (targets, payee)⟩)
          else w
      | _ => w
  | .commitRun tenantId =>
      match w.runs tenantId with
      | some r =>
          match r.selected with
          | some (targets, payee) => w.commitRun tenantId r targets payee
          | none => w
      | none => w
  | .abortRun tenantId => w.setRun tenantId none
  | .markMailed tenantId payoutIds now =>
      { w with payouts := Checks.markMailed w.payouts tenantId payoutIds now }
  | .settleBatch batchId now reference evidence =>
      { w with payouts := Checks.settleBatch w.payouts batchId now reference evidence }
  | .foreign payouts => if isForeign w.payouts payouts then { w with payouts } else w

end Refearn.Checks
