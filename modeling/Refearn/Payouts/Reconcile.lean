import Refearn.Schema
import Refearn.Support.Serving
import Refearn.Support.Runs
/-!
# Bank reconciliation

`reconcile` of `payouts.service.ts`: the rows of a bank statement clear paid payouts of the same
amount, earliest first. Any number of runs work on one table of payouts at a time; each locks the
payouts that it has selected and skips those that another transaction has locked.
-/

namespace Refearn.Payouts

open Support

/-! ## Rows -/

/-- A row of `payouts` with the columns of the reconciliation. -/
structure ReconcilablePayout extends Payout where
  clearedAt : Option Instant
  bankRef : Option String
  reconciledByUserId : Option Uuid
  deriving DecidableEq

instance : Keyed ReconcilablePayout Uuid where
  key p := p.id
  clash p p' := clash p.toPayout p'.toPayout

/-- A row of the bank statement. -/
structure StatementRow where
  amountCents : Int
  ref : Option String
  deriving DecidableEq

structure MatchedPayout where
  payoutId : Uuid
  membershipId : Uuid
  amountCents : Int
  bankRef : Option String

/-- `WHERE tenant_id = … AND status = 'paid' AND cleared_at IS NULL` -/
def ReconcilablePayout.isOpen (tenantId : Uuid) (p : ReconcilablePayout) : Bool :=
  p.tenantId = tenantId && p.status = .paid && p.clearedAt = none

/-- `ORDER BY paid_at ASC`, in which a missing date comes last. -/
def paidNoLater (p p' : ReconcilablePayout) : Prop :=
  ∀ t' ∈ p'.paidAt, ∃ t ∈ p.paidAt, t ≤ t'

instance : DecidableRel paidNoLater := fun p p' =>
  inferInstanceAs (Decidable (∀ t' ∈ p'.paidAt, ∃ t ∈ p.paidAt, t ≤ t'))

/-! ## Updates -/

/-- The data of one `updateMany`. -/
structure Clearing where
  payoutId : Uuid
  clearedAt : Instant
  bankRef : Option String
  reconciledByUserId : Uuid

def ReconcilablePayout.isUncleared (payoutId : Uuid) (p : ReconcilablePayout) : Bool :=
  p.id = payoutId && p.clearedAt = none

def ReconcilablePayout.cleared (c : Clearing) (p : ReconcilablePayout) : ReconcilablePayout :=
  { p with
    clearedAt := some c.clearedAt
    bankRef := c.bankRef
    reconciledByUserId := some c.reconciledByUserId }

theorem keepsIndexes_cleared (c : Clearing) : KeepsIndexes (ReconcilablePayout.cleared c) where
  key_eq _ := rfl
  clash_left _ _ h := h
  clash_right _ _ h := h

/-- `updateMany({ where: { id, clearedAt: null } })` -/
def clearPayout (payouts : Table ReconcilablePayout) (c : Clearing) : Table ReconcilablePayout :=
  payouts.updateWhere (ReconcilablePayout.isUncleared c.payoutId) (ReconcilablePayout.cleared c)
    (keepsIndexes_cleared c)

/-! ## Runs -/

/-- Where a run stands in its transaction. -/
inductive ReconcilePhase
  /-- the rows of the snapshot that `FOR UPDATE SKIP LOCKED` has not come to yet -/
  | selecting (candidates : List Uuid)
  | pairing (byAmount : Int → List ReconcilablePayout) (rest : List StatementRow)
  | committed
  | aborted

structure ReconcileRun where
  tenantId : Uuid
  userId : Uuid
  rows : List StatementRow
  phase : ReconcilePhase
  /-- the result of the query, locked until the transaction ends -/
  selected : List ReconcilablePayout
  now : Instant
  matched : List MatchedPayout
  unmatched : List StatementRow
  /-- the updates of the transaction so far -/
  clearings : List Clearing

def ReconcileRun.isActive (r : ReconcileRun) : Bool :=
  match r.phase with
  | .selecting _ | .pairing .. => true
  | .committed | .aborted => false

def ReconcileRun.isCommitted (r : ReconcileRun) : Bool :=
  match r.phase with
  | .committed => true
  | .selecting _ | .pairing .. | .aborted => false

def ReconcileRun.locked (r : ReconcileRun) : List Uuid :=
  if r.isActive then r.selected.map fun p => p.id else []

/-- The table as the transaction of the run sees it. -/
def ReconcileRun.view (r : ReconcileRun) (payouts : Table ReconcilablePayout) :
    Table ReconcilablePayout :=
  r.clearings.foldl clearPayout payouts

/-- The candidate at the front is locked and read again, unless somebody else has locked it. -/
def ReconcileRun.visit (r : ReconcileRun) (lockedElsewhere : Bool)
    (payouts : Table ReconcilablePayout) (id : Uuid) (candidates : List Uuid) : ReconcileRun :=
  let next := { r with phase := .selecting candidates }
  if lockedElsewhere then next
  else
    match (payouts.find? id).filter (ReconcilablePayout.isOpen r.tenantId) with
    | none => next
    | some p => { next with selected := r.selected ++ [p] }

/-- The amounts become the keys of the queues. -/
def ReconcileRun.startPairing (r : ReconcileRun) (now : Instant) : ReconcileRun :=
  { r with
    phase := .pairing (queuesOf (fun p => p.totalCents) r.selected) r.rows
    now }

/-- One round of the loop over the statement. -/
def ReconcileRun.pair (r : ReconcileRun) (payouts : Table ReconcilablePayout)
    (byAmount : Int → List ReconcilablePayout) (row : StatementRow) (rest : List StatementRow) :
    ReconcileRun :=
  let next := { r with phase := .pairing (takeFirst StatementRow.amountCents byAmount row) rest }
  match (byAmount row.amountCents).head? with
  | none => { next with unmatched := r.unmatched ++ [row] }
  | some hit =>
      if ((r.view payouts).rows.filter (ReconcilablePayout.isUncleared hit.id)).length = 0 then
        { next with unmatched := r.unmatched ++ [row] }
      else
        { next with
          clearings := r.clearings ++ [⟨hit.id, r.now, row.ref, r.userId⟩]
          matched := r.matched ++ [⟨hit.id, hit.membershipId, row.amountCents, row.ref⟩] }

/-! ## All runs -/

/-- An entry `payout.reconcile` of the audit log. -/
structure ReconcileAudit where
  tenantId : Uuid
  actorUserId : Uuid
  clearedCount : Nat
  unmatchedCount : Nat

structure ReconcileWorld where
  payouts : Table ReconcilablePayout
  runs : List ReconcileRun
  auditLogs : List ReconcileAudit

def ReconcileWorld.locked (w : ReconcileWorld) : List Uuid := w.runs.flatMap ReconcileRun.locked

def ReconcileWorld.setRun (i : Nat) (r : ReconcileRun) (w : ReconcileWorld) : ReconcileWorld :=
  { w with runs := w.runs.set i r }

/-- The ids of a query in an order that `ORDER BY paid_at` allows. -/
def isSnapshot (tenantId : Uuid) (payouts : Table ReconcilablePayout)
    (candidates : List ReconcilablePayout) : Prop :=
  candidates.Perm (payouts.rows.filter (ReconcilablePayout.isOpen tenantId)) ∧
    candidates.Pairwise paidNoLater

instance (tenantId : Uuid) (payouts : Table ReconcilablePayout)
    (candidates : List ReconcilablePayout) : Decidable (isSnapshot tenantId payouts candidates) :=
  inferInstanceAs (Decidable (_ ∧ _))

/-- What the rest of the service does to the payouts: it leaves paid ones alone, and no other
statement writes the columns of the reconciliation. -/
def isForeign (payouts payouts' : Table ReconcilablePayout) : Prop :=
  (∀ p ∈ payouts, ∃ p' ∈ payouts', p'.id = p.id ∧ p'.clearedAt = p.clearedAt ∧
    p'.bankRef = p.bankRef ∧ p'.reconciledByUserId = p.reconciledByUserId ∧
      (p.status = .paid → p' = p)) ∧
  ∀ p' ∈ payouts', (∀ p ∈ payouts, p.id ≠ p'.id) → p'.clearedAt = none ∧ p'.bankRef = none

instance (payouts payouts' : Table ReconcilablePayout) :
    Decidable (isForeign payouts payouts') :=
  inferInstanceAs (Decidable (_ ∧ _))

inductive ReconcileStep
  | begin (tenantId userId : Uuid) (rows : List StatementRow)
      (candidates : List ReconcilablePayout)
  | visit (i : Nat) (lockedElsewhere : Bool)
  | startPairing (i : Nat) (now : Instant)
  | pair (i : Nat)
  | commit (i : Nat)
  | abort (i : Nat)
  | foreign (payouts : Table ReconcilablePayout)

/-- A step that its run is not ready for does nothing. -/
def ReconcileStep.apply (step : ReconcileStep) (w : ReconcileWorld) : ReconcileWorld :=
  match step with
  | .begin tenantId userId rows candidates =>
      if isSnapshot tenantId w.payouts candidates then
        { w with
          runs := w.runs ++ [{
            tenantId, userId, rows
            phase := .selecting (candidates.map fun p => p.id)
            selected := []
            now := 0
            matched := []
            unmatched := []
            clearings := [] }] }
      else w
  | .visit i lockedElsewhere =>
      match w.runs[i]? with
      | none => w
      | some r =>
          match r.phase with
          | .selecting (id :: candidates) =>
              let skipped := lockedElsewhere || decide (id ∈ w.locked)
              w.setRun i (r.visit skipped w.payouts id candidates)
          | .selecting [] | .pairing .. | .committed | .aborted => w
  | .startPairing i now =>
      match w.runs[i]? with
      | none => w
      | some r =>
          match r.phase with
          | .selecting [] => w.setRun i (r.startPairing now)
          | .selecting (_ :: _) | .pairing .. | .committed | .aborted => w
  | .pair i =>
      match w.runs[i]? with
      | none => w
      | some r =>
          match r.phase with
          | .pairing byAmount (row :: rest) => w.setRun i (r.pair w.payouts byAmount row rest)
          | .selecting _ | .pairing _ [] | .committed | .aborted => w
  | .commit i =>
      match w.runs[i]? with
      | none => w
      | some r =>
          match r.phase with
          | .pairing _ [] =>
              { w.setRun i { r with phase := .committed } with
                payouts := r.view w.payouts
                auditLogs := w.auditLogs ++
                  [⟨r.tenantId, r.userId, r.matched.length, r.unmatched.length⟩] }
          | .selecting _ | .pairing _ (_ :: _) | .committed | .aborted => w
  | .abort i =>
      match w.runs[i]? with
      | none => w
      | some r => if r.isActive then w.setRun i { r with phase := .aborted } else w
  | .foreign payouts => if isForeign w.payouts payouts then { w with payouts } else w

/-- The states in which nobody reconciles. -/
def ReconcileWorld.Initial (w : ReconcileWorld) : Prop :=
  w.runs = [] ∧ ∀ p ∈ w.payouts, p.clearedAt = none → p.bankRef = none

end Refearn.Payouts
