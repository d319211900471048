import Refearn.Engine.Reservation
import Refearn.Support.JsText
/-!
# After the reservation

Dispatching, settling and failing a payout batch, rejecting a request, and the
member's request itself, which `payouts.service.ts` writes.
-/

namespace Refearn.Engine

open Support Support.Transaction Payouts

/-! ## Reading a batch -/

def findBatch (tenantId batchId : Uuid) : Tx PayoutSettlementBatch := do
  let db ← readDb
  orThrow ((db.batches.find? batchId).filter (fun b => b.tenantId = tenantId))
    (.notFound "payout batch not found")

def byMember (p p' : Payout) : Prop :=
  p.membershipId < p'.membershipId ∨ (p.membershipId = p'.membershipId ∧ p.id ≤ p'.id)

instance : DecidableRel byMember := fun p p' =>
  inferInstanceAs (Decidable
    (p.membershipId < p'.membershipId ∨ (p.membershipId = p'.membershipId ∧ p.id ≤ p'.id)))

def byPayoutId (p p' : Payout) : Prop := p.id ≤ p'.id

instance : DecidableRel byPayoutId := fun p p' => Fin.decLe p.id p'.id

/-- The payouts of a batch, in the order of the query. -/
def batchPayouts (order : Payout → Payout → Prop) [DecidableRel order] (db : Db)
    (batchId : Uuid) : List Payout :=
  (db.payouts.rows.filter (fun p => p.batchId = some batchId)).insertionSort order

/-- An item of a batch with the state of its ledger row. -/
structure BatchItemRow where
  id : Uuid
  payoutId : Uuid
  membershipId : Uuid
  month : String
  level : Nat
  amountCents : Int
  status : LedgerStatus
  batchId : Option Uuid

def byLedgerEntry (i i' : PayoutSettlementBatchItem) : Prop :=
  i.ledgerEntryId ≤ i'.ledgerEntryId

instance : DecidableRel byLedgerEntry := fun i i' =>
  Fin.decLe i.ledgerEntryId i'.ledgerEntryId

def joinItem (db : Db) (i : PayoutSettlementBatchItem) : Option BatchItemRow :=
  (db.ledger.find? i.ledgerEntryId).map fun r =>
    { id := i.ledgerEntryId, payoutId := i.payoutId, membershipId := i.membershipId
      month := i.month, level := i.level, amountCents := i.amountCents
      status := r.status, batchId := r.payoutBatchId }

def lockPayoutBatchItems (db : Db) (batchId : Uuid) : List BatchItemRow :=
  ((db.items.rows.filter (fun i => i.batchId = batchId)).insertionSort
    byLedgerEntry).filterMap (joinItem db)

/-- Every item still is a processing row of the batch. -/
def itemsIntact (batchId : Uuid) (items : List BatchItemRow) : Bool :=
  !items.isEmpty &&
    items.all (fun item => item.status = .processing && item.batchId = some batchId)

/-- Every payout still has an item. -/
def payoutsIntact (payouts : List Payout) (items : List BatchItemRow) : Bool :=
  payouts.all (fun payout => items.any (fun item => item.payoutId = payout.id))

def assertIntactPayoutBatchItems (batchId : Uuid) (payouts : List Payout)
    (items : List BatchItemRow) : Tx PUnit := do
  require (itemsIntact batchId items) (.conflict "processing ledger set is no longer intact")
  require (payoutsIntact payouts items) (.conflict "processing payout set is no longer intact")

/-- What a transition of a batch returns: whether this call made it, whether it had
been made before, and over how many payouts. -/
structure BatchResult where
  batchId : Uuid
  done : Bool
  already : Bool
  payoutCount : Nat

def updateBatch (batchId : Uuid) (f : PayoutSettlementBatch → PayoutSettlementBatch)
    (hf : KeepsIndexes f) : Tx PUnit := do
  let db ← readDb
  writeDb { db with batches := db.batches.updateKey batchId f hf }

/-- An audit row for each payout of a batch. -/
def auditPayouts (tenantId : Uuid) (actorUserId : Option Uuid) (action : String)
    (payouts : List Payout) (after : Json) : Tx PUnit :=
  forM payouts fun payout =>
    audit tenantId actorUserId action payout.id (.obj [("status", .str "processing")]) after

/-! ## Dispatching -/

structure DispatchParams where
  tenantId : Uuid
  batchId : Uuid
  dispatchReference : String
  dispatchEvidence : String
  actorUserId : Option Uuid := none

/-- The compliance of one payout at the moment of the transfer. -/
def recheckPayout (env : Env) (db : Db) (now : Instant) (tenantId : Uuid)
    (payout : Payout) : Except EngineError PUnit :=
  if (runtimePayoutBlock env db.registry now tenantId payout.membershipId).isSome then
    .error (.conflict "payout_compliance_changed")
  else
    match recheckSnapshot payout.complianceSnapshot
        (readInput db.registry tenantId payout.membershipId) now with
    | .recheckRequired => .error (.conflict "payout_compliance_recheck_required")
    | .changed => .error (.conflict "payout_compliance_changed")
    | .ready => .ok ⟨⟩

/-- Every member of the batch still belongs to the tenant and every payout passes. -/
def recheckPayouts (env : Env) (db : Db) (now : Instant) (tenantId : Uuid)
    (payouts : List Payout) : Except EngineError PUnit := do
  if payouts.any (fun p => (tenantMembership db.registry tenantId p.membershipId).isNone) then
    .error (.notFound "membership was not found in this business")
  else if payouts.isEmpty then
    .error (.conflict "processing batch has no payouts")
  else payouts.forM (recheckPayout env db now tenantId)

def markDispatched (now : Instant) (reference evidence : String)
    (b : PayoutSettlementBatch) : PayoutSettlementBatch :=
  { b with
    status := .dispatched
    dispatchedAt := some now
    dispatchReference := some reference
    dispatchEvidence := some evidence }

theorem markDispatched_keepsIndexes (now : Instant) (reference evidence : String) :
    KeepsIndexes (markDispatched now reference evidence) :=
  ⟨fun _ => rfl, fun _ _ h => h, fun _ _ h => h⟩

def dispatchPayoutBatch (env : Env) (now : Instant) (params : DispatchParams) :
    Tx BatchResult := do
  let reference := trim params.dispatchReference
  let evidence := trim params.dispatchEvidence
  require (reference ≠ "" ∧ evidence ≠ "")
    (.badRequest "dispatch reference and evidence are required")
  let batch ← findBatch params.tenantId params.batchId
  let db ← readDb
  if batch.status = .dispatched ∨ (batch.status = .settled ∧ batch.dispatchedAt.isSome) then
    pure ⟨batch.id, false, true, db.payouts.rows.countP (fun p =>
      p.batchId = some batch.id ∧ (p.status = .processing ∨ p.status = .paid))⟩
  else do
    require (batch.status = .processing)
      (.conflict "only processing payout batches can be dispatched")
    let payouts := batchPayouts byMember db batch.id
    fromExcept (recheckPayouts env db now params.tenantId payouts)
    let items := lockPayoutBatchItems db batch.id
    assertIntactPayoutBatchItems batch.id payouts items
    updateBatch batch.id (markDispatched now reference evidence)
      (markDispatched_keepsIndexes now reference evidence)
    auditPayouts params.tenantId params.actorUserId "payout.dispatched" payouts
      (.obj
        [("batchId", .str batch.id.text), ("dispatchReference", .str reference),
          ("dispatchEvidence", .str evidence)])
    audit params.tenantId params.actorUserId "payout_batch.dispatched" batch.id
      (.obj [("status", .str "processing")])
      (.obj
        [("dispatchReference", .str reference), ("dispatchEvidence", .str evidence),
          ("payoutCount", .num payouts.length), ("entryCount", .num items.length)])
    pure ⟨batch.id, true, false, payouts.length⟩

/-! ## What settling and failing share -/

/-- A payout of the list that still is in processing for the batch. -/
def isProcessingOf (batchId : Uuid) (payouts : List Payout) (p : Payout) : Bool :=
  (payouts.map Payout.id).contains p.id && p.batchId = some batchId &&
    p.status = .processing

/-- `UPDATE payouts`, all of the list or none. -/
def updatePayouts (batchId : Uuid) (payouts : List Payout) (f : Payout → Payout)
    (hf : KeepsIndexes f) (changed : String) : Tx PUnit := do
  let db ← readDb
  let count := db.payouts.rows.countP (isProcessingOf batchId payouts)
  writeDb
    { db with payouts := db.payouts.updateWhere (isProcessingOf batchId payouts) f hf }
  require (count = payouts.length) (.conflict changed)

/-- A ledger row of the items that still is in processing for the batch. -/
def isHeldBy (batchId : Uuid) (items : List BatchItemRow) (r : LedgerEntry) : Bool :=
  (items.map BatchItemRow.id).contains r.id && r.status = .processing &&
    r.payoutBatchId = some batchId

/-- `UPDATE ledger_entries`, all rows of the items or none. -/
def updateHeldRows (batchId : Uuid) (items : List BatchItemRow)
    (f : LedgerEntry → LedgerEntry) (hf : KeepsIndexes f) (changed : String) :
    Tx PUnit := do
  let db ← readDb
  let count := db.ledger.rows.countP (isHeldBy batchId items)
  writeDb { db with ledger := db.ledger.updateWhere (isHeldBy batchId items) f hf }
  require (count = items.length) (.conflict changed)

def itemKey (tenantId : Uuid) (item : BatchItemRow) : SummaryKey :=
  ⟨tenantId, item.membershipId, item.month, item.level⟩

/-- `moveBatchSummary`, with the difference that an amount makes as parameter. -/
def moveBatchSummary (tenantId : Uuid) (items : List BatchItemRow)
    (delta : Int → SummaryDelta) : Tx PUnit :=
  postTotals delta (groupTotals (itemKey tenantId) BatchItemRow.amountCents items)

/-! ## Settling -/

structure SettleParams where
  tenantId : Uuid
  batchId : Uuid
  settlementReference : String
  settlementEvidence : String
  actorUserId : Option Uuid := none

def settlePayout (now : Instant) (reference evidence : String) (p : Payout) : Payout :=
  { p with
    status := .paid
    activeKey := none
    paidAt := some now
    settledAt := some now
    settlementReference := some reference
    settlementEvidence := some evidence
    ref := some reference }

/-- A closed payout without an active key clashes with nothing. -/
theorem keepsIndexes_of_closed {f : Payout → Payout} (hkey : ∀ p, key (f p) = key p)
    (hactive : ∀ p, (f p).activeKey = none) (hclosed : ∀ p, (f p).status.isOpen = false) :
    KeepsIndexes f where
  key_eq := hkey
  clash_left p q h := by simp [clash, hactive, hclosed] at h
  clash_right p q h := by
    cases hp : p.activeKey with
    | none => simp [clash, hclosed, hp] at h
    | some k => simp [clash, hactive, hclosed, hp] at h

theorem settlePayout_keepsIndexes (now : Instant) (reference evidence : String) :
    KeepsIndexes (settlePayout now reference evidence) :=
  keepsIndexes_of_closed (fun _ => rfl) (fun _ => rfl) (fun _ => rfl)

def markSettled (now : Instant) (reference evidence : String)
    (b : PayoutSettlementBatch) : PayoutSettlementBatch :=
  { b with
    status := .settled
    settledAt := some now
    settlementReference := some reference
    settlementEvidence := some evidence }

theorem markSettled_keepsIndexes (now : Instant) (reference evidence : String) :
    KeepsIndexes (markSettled now reference evidence) :=
  ⟨fun _ => rfl, fun _ _ h => h, fun _ _ h => h⟩

def settleDelta (amount : Int) : SummaryDelta :=
  { processing := -amount, paid := amount }

/-- The notification of each settled payout, with its audit row. -/
def announceSettlement (params : SettleParams) (batch : PayoutSettlementBatch)
    (currency reference evidence : String) (payouts : List Payout) : Tx PUnit :=
  forM payouts fun payout => do
    createNotification params.tenantId payout.membershipId "payout_sent"
      (.obj
        [("payoutId", .str payout.id.text), ("batchId", .str batch.id.text),
          ("totalCents", .ofCents payout.totalCents), ("period", .str batch.period),
          ("currency", .str currency)])
    audit params.tenantId params.actorUserId "payout.settled" payout.id
      (.obj [("status", .str "processing")])
      (.obj
        [("batchId", .str batch.id.text), ("settlementReference", .str reference),
          ("settlementEvidence", .str evidence)])

def findCurrency (tenantId : Uuid) : Tx String := do
  let db ← readDb
  let tenant ← orThrow (db.registry.tenants.find? tenantId) .recordNotFound
  pure tenant.currency

def settlePayoutBatch (now : Instant) (params : SettleParams) : Tx BatchResult := do
  let reference := trim params.settlementReference
  let evidence := trim params.settlementEvidence
  require (reference ≠ "" ∧ evidence ≠ "")
    (.badRequest "settlement reference and evidence are required")
  let batch ← findBatch params.tenantId params.batchId
  let db ← readDb
  if batch.status = .settled then
    pure ⟨batch.id, false, true, db.payouts.rows.countP (fun p =>
      p.batchId = some batch.id ∧ p.status = .paid)⟩
  else do
    require (batch.status = .dispatched)
      (.conflict "only dispatched payout batches can be settled")
    let payouts := batchPayouts byMember db batch.id
    require (payouts ≠ []) (.conflict "dispatched batch has no payouts")
    let items := lockPayoutBatchItems db batch.id
    assertIntactPayoutBatchItems batch.id payouts items
    updatePayouts batch.id payouts (settlePayout now reference evidence)
      (settlePayout_keepsIndexes now reference evidence)
      "payout batch changed while settling"
    updateHeldRows batch.id items (setStatus .paid) (setStatus_keepsIndexes .paid)
      "processing ledger rows changed while settling"
    updateBatch batch.id (markSettled now reference evidence)
      (markSettled_keepsIndexes now reference evidence)
    moveBatchSummary params.tenantId items settleDelta
    let currency ← findCurrency params.tenantId
    announceSettlement params batch currency reference evidence payouts
    audit params.tenantId params.actorUserId "payout_batch.settled" batch.id
      (.obj [("status", .str "dispatched")])
      (.obj
        [("settlementReference", .str reference), ("settlementEvidence", .str evidence),
          ("payoutCount", .num payouts.length), ("entryCount", .num items.length)])
    pure ⟨batch.id, true, false, payouts.length⟩

/-! ## Failing -/

structure FailParams where
  tenantId : Uuid
  batchId : Uuid
  reason : String
  actorUserId : Option Uuid := none

def failPayout (now : Instant) (reason : String) (p : Payout) : Payout :=
  { p with
    status := .failed
    activeKey := none
    failedAt := some now
    failureReason := some reason
    ref := some reason }

theorem failPayout_keepsIndexes (now : Instant) (reason : String) :
    KeepsIndexes (failPayout now reason) :=
  keepsIndexes_of_closed (fun _ => rfl) (fun _ => rfl) (fun _ => rfl)

def markFailed (now : Instant) (reason : String) (b : PayoutSettlementBatch) :
    PayoutSettlementBatch :=
  { b with status := .failed, failedAt := some now, failureReason := some reason }

theorem markFailed_keepsIndexes (now : Instant) (reason : String) :
    KeepsIndexes (markFailed now reason) :=
  ⟨fun _ => rfl, fun _ _ h => h, fun _ _ h => h⟩

/-- A row back to payable, with both links removed. -/
def release (r : LedgerEntry) : LedgerEntry :=
  { r with status := .payable, payoutId := none, payoutBatchId := none }

theorem release_keepsIndexes : KeepsIndexes release :=
  ⟨fun _ => rfl, fun _ _ h => h, fun _ _ h => h⟩

def failDelta (amount : Int) : SummaryDelta :=
  { processing := -amount, payable := amount }

def failPayoutBatch (now : Instant) (params : FailParams) : Tx BatchResult := do
  let reason := trim params.reason
  require (reason ≠ "") (.badRequest "failure reason is required")
  let batch ← findBatch params.tenantId params.batchId
  let db ← readDb
  if batch.status = .failed then
    pure ⟨batch.id, false, true, db.payouts.rows.countP (fun p =>
      p.batchId = some batch.id ∧ p.status = .failed)⟩
  else do
    require (batch.status ≠ .dispatched)
      (.conflict ("dispatched payout batches cannot be released; " ++
        "reconcile the actual payment outcome instead"))
    require (batch.status = .processing)
      (.conflict "settled payout batches cannot be failed")
    let payouts := batchPayouts byPayoutId db batch.id
    let items := lockPayoutBatchItems db batch.id
    require (payouts ≠ [] ∧ itemsIntact batch.id items)
      (.conflict "processing ledger set is no longer intact")
    updateHeldRows batch.id items release release_keepsIndexes
      "processing ledger rows changed while failing"
    updatePayouts batch.id payouts (failPayout now reason)
      (failPayout_keepsIndexes now reason) "payout batch changed while failing"
    updateBatch batch.id (markFailed now reason) (markFailed_keepsIndexes now reason)
    moveBatchSummary params.tenantId items failDelta
    auditPayouts params.tenantId params.actorUserId "payout.failed" payouts
      (.obj [("batchId", .str batch.id.text), ("reason", .str reason)])
    audit params.tenantId params.actorUserId "payout_batch.failed" batch.id
      (.obj [("status", .str "processing")])
      (.obj
        [("reason", .str reason), ("payoutCount", .num payouts.length),
          ("entryCount", .num items.length)])
    pure ⟨batch.id, true, false, payouts.length⟩

/-! ## Requests -/

structure RejectParams where
  tenantId : Uuid
  payoutId : Uuid
  reason : String
  actorUserId : Option Uuid := none

def rejectPayout (now : Instant) (reason : String) (p : Payout) : Payout :=
  { p with
    status := .rejected
    activeKey := none
    rejectedAt := some now
    rejectionReason := some reason
    ref := some reason }

theorem rejectPayout_keepsIndexes (now : Instant) (reason : String) :
    KeepsIndexes (rejectPayout now reason) :=
  keepsIndexes_of_closed (fun _ => rfl) (fun _ => rfl) (fun _ => rfl)

/-- Returns the id of the rejected request. -/
def rejectPayoutRequest (now : Instant) (params : RejectParams) : Tx Uuid := do
  let reason := trim params.reason
  require (reason ≠ "") (.badRequest "rejection reason is required")
  let db ← readDb
  let payout ← orThrow
    ((db.payouts.find? params.payoutId).filter (fun p => p.tenantId = params.tenantId))
    (.notFound "payout request not found")
  require (payout.status = .requested) (.conflict "only requested payouts can be rejected")
  writeDb
    { db with
      payouts := db.payouts.updateKey payout.id (rejectPayout now reason)
        (rejectPayout_keepsIndexes now reason) }
  audit params.tenantId params.actorUserId "payout.rejected" payout.id
    (.obj [("status", .str "requested")]) (.obj [("reason", .str reason)])
  pure payout.id

/-- The open payouts of a member over all periods, oldest first. -/
def openPayouts (db : Db) (tenantId membershipId : Uuid) : List Payout :=
  (db.payouts.rows.filter (fun p =>
    p.tenantId = tenantId ∧ p.membershipId = membershipId ∧ p.status.isOpen)).insertionSort
      byPayoutCreatedAt

/-- The payout that stands in the way of a new request. -/
def existingPayout (active : List Payout) : Option Payout :=
  (active.find? (fun p => p.status = .processing)).or active.head?

def activeStatus (p : Payout) : ActivePayoutStatus :=
  if p.status = .processing then .processing else .requested

structure RequestResult where
  id : Uuid
  status : PayoutStatus
  period : String
  requestedCents : Int
  currency : String
  payoutReadiness : PayoutReadiness
  created : Bool

def newRequest (tenantId membershipId : Uuid) (total : Int) (period : String)
    (now : Instant) (id : Uuid) : Payout :=
  { blankPayout id tenantId membershipId period now with
    totalCents := total
    activeKey := some (payoutActiveKey tenantId membershipId period) }

def requestPayoutWithMeta (env : Env) (now : Instant) (membershipId tenantId : Uuid) :
    Tx RequestResult := do
  let db ← readDb
  let recipient ← orThrow (payoutRecipient db.registry tenantId membershipId)
    (.badRequest "membership not found")
  match runtimePayoutBlock env db.registry now tenantId membershipId with
  | some block => throw (.forbidden block)
  | none => do
      let tenant ← findTenant tenantId
      let period := env.monthKey now tenant.timezone
      let existing := existingPayout (openPayouts db tenantId membershipId)
      let net := netCents (payableRows db tenantId membershipId)
      let readiness := evaluatePayoutReadiness
        { readinessInput tenant recipient net (readInput db.registry tenantId membershipId)
          with activePayout := existing.map (fun p => (p.id, activeStatus p)) } now
      match existing with
      | some p =>
          pure ⟨p.id, p.status, p.period, p.totalCents, tenant.currency, readiness, false⟩
      | none => do
          require (readiness.requestable = true) (.payoutNotReady readiness)
          let payout ← createPayout (newRequest tenantId membershipId net period now)
          pure ⟨payout.id, payout.status, period, payout.totalCents, tenant.currency,
            readiness, true⟩

end Refearn.Engine
