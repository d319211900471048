import Refearn.Engine.Store
import Refearn.Payouts.Compliance
/-!
# Reserving a payout batch

`reservePayoutBatch`: which members of the scope are eligible, the review that a
caller must have seen, and the move of the eligible rows from payable to
processing. The selection only reads, so it is a function of the database; what
it does not reserve it returns with its reason.
-/

namespace Refearn.Engine

open Support Support.Transaction Payouts

/-! ## Parameters and results -/

inductive PayoutBatchSelectionScope
  | selected (membershipIds : List Uuid)
  | allEligible
  deriving DecidableEq

structure ReserveParams where
  tenantId : Uuid
  scope : PayoutBatchSelectionScope
  period : String
  method : PayoutMethod
  actorUserId : Option Uuid := none
  requestedPayoutId : Option Uuid := none
  previewOnly : Bool := false
  expectedReview : Option PayoutBatchReview := none

inductive SkipReason | nothingPayable | belowMin | alreadyProcessing | payoutNotReady
  deriving DecidableEq

def SkipReason.text : SkipReason → String
  | .nothingPayable => "nothing_payable"
  | .belowMin => "below_min"
  | .alreadyProcessing => "already_processing"
  | .payoutNotReady => "payout_not_ready"

structure Skipped where
  membershipId : Uuid
  reason : SkipReason
  netCents : Int
  deriving DecidableEq

structure PayoutLedgerRow where
  id : Uuid
  membershipId : Uuid
  level : Nat
  amountCents : Int
  month : String

structure PayoutRecipient where
  referralCode : String
  fullName : String
  email : String
  emailVerifiedAt : Option Instant
  deriving DecidableEq

structure PayoutReservation where
  membershipId : Uuid
  requestedPayoutId : Option Uuid
  amountCents : Int
  rows : List PayoutLedgerRow
  complianceSnapshot : ComplianceSnapshot
  recipient : PayoutRecipient

structure ProcessingPayout where
  membershipId : Uuid
  payoutId : Uuid
  totalCents : Int
  entryCount : Nat

structure ReserveResult where
  batchId : Option Uuid
  period : String
  processing : List ProcessingPayout
  skipped : List Skipped
  review : PayoutBatchReview

def payoutActiveKey (tenantId membershipId : Uuid) (period : String) : String :=
  tenantId.text ++ ":" ++ membershipId.text ++ ":" ++ period

def MAX_BATCH_MEMBERS : Nat := 100

/-! ## Payable rows -/

def isPayableOf (tenantId membershipId : Uuid) (r : LedgerEntry) : Bool :=
  r.tenantId = tenantId && r.beneficiaryMembershipId = membershipId &&
    r.status = .payable

def byEntryId (r r' : LedgerEntry) : Prop := r.id ≤ r'.id

instance : DecidableRel byEntryId := fun r r' => Fin.decLe r.id r'.id

/-- The payable rows of a member, by id. -/
def payableRows (db : Db) (tenantId membershipId : Uuid) : List LedgerEntry :=
  (db.ledger.rows.filter (isPayableOf tenantId membershipId)).insertionSort byEntryId

def netCents (rows : List LedgerEntry) : Int :=
  (rows.map LedgerEntry.amountCents).sum

/-- `COALESCE(le.summary_month, s.summary_month, to_char(…))`. A row with neither a
month nor a sale would give `NULL`; the engine writes no such row. -/
def coalescedMonth (env : Env) (db : Db) (timezone : String) (r : LedgerEntry) :
    String :=
  let sale := r.saleId.bind db.sales.find?
  ((r.summaryMonth.or (sale.bind Sale.summaryMonth)).or
    (sale.map (fun s => env.toCharMonth s.saleDate timezone))).getD ""

def payoutLedgerRow (env : Env) (db : Db) (timezone : String) (r : LedgerEntry) :
    PayoutLedgerRow where
  id := r.id
  membershipId := r.beneficiaryMembershipId
  level := r.level
  amountCents := r.amountCents
  month := coalescedMonth env db timezone r

/-! ## Targets -/

/-- `HAVING SUM(amount_cents) > 0 AND SUM(amount_cents) >= min`. -/
def meetsThreshold (db : Db) (tenant : Tenant) (membershipId : Uuid) : Bool :=
  let net := netCents (payableRows db tenant.id membershipId)
  0 < net && tenant.payoutMinCents ≤ net

def sortedUuids (ids : List Uuid) : List Uuid := ids.dedup.insertionSort (· ≤ ·)

/-- The members over the threshold, by id. -/
def thresholdMembers (db : Db) (tenant : Tenant) : List Uuid :=
  (sortedUuids ((db.ledger.rows.filter (fun r =>
    r.tenantId = tenant.id ∧ r.status = .payable)).map
      LedgerEntry.beneficiaryMembershipId)).filter (meetsThreshold db tenant)

def isProcessingIn (tenantId membershipId : Uuid) (period : String) (p : Payout) : Bool :=
  p.tenantId = tenantId && p.membershipId = membershipId && p.period = period &&
    p.status = .processing

/-- `string_agg(…, separator)` -/
def joinTexts (separator : String) (texts : List String) : String :=
  separator.intercalate texts

/-- The text of one member in the digest of a selection over the limit. -/
def memberMaterial (db : Db) (tenantId membershipId : Uuid) : String :=
  let rows := payableRows db tenantId membershipId
  membershipId.text ++ ":" ++ toString (netCents rows) ++ ":" ++
    joinTexts "," (rows.map (fun r => r.id.text ++ ":" ++ toString r.amountCents))

/-- The review of a selection over the limit, computed by one query. -/
def exactReview (env : Env) (db : Db) (tenant : Tenant) (period : String) :
    PayoutBatchReview :=
  let members := thresholdMembers db tenant
  let isExcluded := fun m => db.payouts.rows.any (isProcessingIn tenant.id m period)
  let eligible := members.filter (fun m => !isExcluded m)
  let excluded := members.filter isExcluded
  let totalCents := (eligible.map (fun m => netCents (payableRows db tenant.id m))).sum
  { eligibleCount := eligible.length
    excludedCount := excluded.length
    totals := if 0 < eligible.length then [(tenant.currency, totalCents)] else []
    selectionFingerprint := env.sha256 (Json.stringify (.obj
      [("currency", .str tenant.currency),
        ("eligibleCount", .ofCents eligible.length),
        ("excludedCount", .ofCents excluded.length),
        ("totalCents", .ofCents totalCents),
        ("eligibleDigest", .str (env.md5
          (joinTexts "|" (eligible.map (memberMaterial db tenant.id))))),
        ("excludedDigest", .str (env.md5
          (joinTexts "|" (excluded.map (fun m => m.text ++ ":already_processing:0")))))])) }

/-- The members a scope asks for, or the error it is refused with. -/
def batchTargets (env : Env) (db : Db) (tenant : Tenant) (params : ReserveParams) :
    Except EngineError (List Uuid) :=
  match params.scope with
  | .selected membershipIds =>
      let targets := sortedUuids membershipIds
      if targets.length = 0 then
        .error (.badRequest "select at least one membership for a payout batch")
      else if MAX_BATCH_MEMBERS < targets.length then
        .error (.badRequest "a payout batch may contain at most 100 memberships")
      else .ok targets
  | .allEligible =>
      let targets := (thresholdMembers db tenant).take (MAX_BATCH_MEMBERS + 1)
      if MAX_BATCH_MEMBERS < targets.length then
        if params.expectedReview.all (fun review =>
            MAX_BATCH_MEMBERS < review.eligibleCount + review.excludedCount) then
          .error (.badRequest "select at most 100 payable memberships for one payout batch")
        else .error (.reviewDrift (exactReview env db tenant params.period))
      else .ok targets

/-! ## Eligibility of one target -/

inductive Evaluation
  | reserved (reservation : PayoutReservation)
  | skipped (item : Skipped)

def Evaluation.reservation? : Evaluation → Option PayoutReservation
  | .reserved r => some r
  | .skipped _ => none

def Evaluation.skipped? : Evaluation → Option Skipped
  | .reserved _ => none
  | .skipped item => some item

def byPayoutCreatedAt (p p' : Payout) : Prop := p.createdAt ≤ p'.createdAt

instance : DecidableRel byPayoutCreatedAt := fun p p' => Int.decLe p.createdAt p'.createdAt

/-- The member's payouts of the period that are open or hold the active key. -/
def activePayouts (db : Db) (tenantId membershipId : Uuid) (period : String) :
    List Payout :=
  (db.payouts.rows.filter (fun p =>
    p.tenantId = tenantId ∧ p.membershipId = membershipId ∧ p.period = period ∧
      (p.activeKey = some (payoutActiveKey tenantId membershipId period) ∨
        p.status.isOpen))).insertionSort byPayoutCreatedAt

/-- The request a reservation would reuse: `none` where a payout of the member is
already processing, else the request if there is one. -/
def reusableRequest (params : ReserveParams) (active : List Payout) :
    Except EngineError (Option (Option Uuid)) :=
  match params.requestedPayoutId with
  | some requestedPayoutId =>
      match active.find? (fun p => p.id = requestedPayoutId) with
      | none => .error (.conflict "open payout request not found")
      | some request =>
          if request.status ≠ .requested then
            .error (.conflict "open payout request not found")
          else if active.any (fun p => p.id ≠ request.id ∧ p.status = .processing) then
            .ok none
          else .ok (some (some request.id))
  | none =>
      if active.any (fun p => p.status = .processing) then .ok none
      else .ok (some ((active.find? (fun p => p.status = .requested)).map Payout.id))

/-- The membership row of the tenant. -/
def tenantMembership (registry : Registry) (tenantId membershipId : Uuid) :
    Option Membership :=
  (registry.memberships.find? membershipId).filter (fun m => m.tenantId = tenantId)

def payoutRecipient (registry : Registry) (tenantId membershipId : Uuid) :
    Option PayoutRecipient :=
  (tenantMembership registry tenantId membershipId).bind fun m =>
    (registry.users.find? m.userId).map fun u =>
      ⟨m.referralCode, u.fullName, u.email, u.emailVerifiedAt⟩

def readinessInput (tenant : Tenant) (recipient : PayoutRecipient) (net : Int)
    (compliance : PayoutComplianceReadinessInput) : PayoutReadinessInput where
  emailVerified := recipient.emailVerifiedAt.isSome
  payableCents := net
  thresholdCents := tenant.payoutMinCents
  currency := tenant.currency
  activePayout := none
  mfa := .unknown
  manualChecks := compliance.manualChecks
  destination := compliance.destination

/-- The part of the eligibility check that comes after the money: the recipient, the
live risk block and the readiness of the member. -/
def evaluateRecipient (env : Env) (db : Db) (now : Instant) (tenant : Tenant)
    (params : ReserveParams) (membershipId : Uuid) (requestedPayoutId : Option Uuid)
    (rows : List LedgerEntry) : Except EngineError Evaluation :=
  let net := netCents rows
  match payoutRecipient db.registry params.tenantId membershipId with
  | none => .error (.conflict "payout recipient changed while the batch was being reserved")
  | some recipient =>
      match runtimePayoutBlock env db.registry now params.tenantId membershipId with
      | some block =>
          if params.requestedPayoutId.isSome then .error (.forbidden block)
          else .ok (.skipped ⟨membershipId, .payoutNotReady, net⟩)
      | none =>
          let compliance := readInput db.registry params.tenantId membershipId
          if !(evaluatePayoutReadiness (readinessInput tenant recipient net compliance)
              now).requestable then
            .ok (.skipped ⟨membershipId, .payoutNotReady, net⟩)
          else
            .ok (.reserved
              { membershipId := membershipId
                requestedPayoutId := requestedPayoutId
                amountCents := net
                rows := rows.map (payoutLedgerRow env db tenant.timezone)
                complianceSnapshot := buildSnapshot compliance
                recipient := recipient })

/-- One pass of the eligibility loop. -/
def evaluateTarget (env : Env) (db : Db) (now : Instant) (tenant : Tenant)
    (params : ReserveParams) (membershipId : Uuid) : Except EngineError Evaluation := do
  if (tenantMembership db.registry params.tenantId membershipId).isNone then
    .error (.notFound "membership not found")
  else
    match ← reusableRequest params
        (activePayouts db params.tenantId membershipId params.period) with
    | none => pure (.skipped ⟨membershipId, .alreadyProcessing, 0⟩)
    | some requestedPayoutId =>
        let rows := payableRows db params.tenantId membershipId
        let net := netCents rows
        if rows.length = 0 then pure (.skipped ⟨membershipId, .nothingPayable, net⟩)
        else if net ≤ 0 ∨ net < tenant.payoutMinCents then
          pure (.skipped ⟨membershipId, .belowMin, net⟩)
        else
          match lockedPeriod db.registry params.tenantId
              (rows.map (coalescedMonth env db tenant.timezone)) with
          | some lock => .error (.conflict s!"period is locked: {lock.period}")
          | none =>
              evaluateRecipient env db now tenant params membershipId requestedPayoutId rows

/-! ## The review -/

/-- What a scope selects, before anything is written. -/
structure Selection where
  reservations : List PayoutReservation
  skipped : List Skipped
  review : PayoutBatchReview

def reservationJson (r : PayoutReservation) : Json :=
  .obj
    [("membershipId", .str r.membershipId.text), ("amountCents", .ofCents r.amountCents),
      ("ledger", .arr (r.rows.map (fun row =>
        .obj [("id", .str row.id.text), ("amountCents", .ofCents row.amountCents)])))]

def skippedJson (item : Skipped) : Json :=
  .obj
    [("membershipId", .str item.membershipId.text), ("reason", .str item.reason.text),
      ("netCents", .ofCents item.netCents)]

/-- The material that is signed. -/
def selectionJson (currency : String) (reservations : List PayoutReservation)
    (skipped : List Skipped) : Json :=
  .obj
    [("currency", .str currency), ("eligible", .arr (reservations.map reservationJson)),
      ("excluded", .arr (skipped.map skippedJson))]

def selectionReview (env : Env) (tenant : Tenant)
    (reservations : List PayoutReservation) (skipped : List Skipped) :
    PayoutBatchReview where
  eligibleCount := reservations.length
  excludedCount := skipped.length
  totals :=
    if 0 < reservations.length then
      [(tenant.currency, (reservations.map PayoutReservation.amountCents).sum)]
    else []
  selectionFingerprint :=
    env.sha256 (Json.stringify (selectionJson tenant.currency reservations skipped))

def selectBatch (env : Env) (db : Db) (now : Instant) (params : ReserveParams) :
    Except EngineError Selection := do
  match db.registry.tenants.find? params.tenantId with
  | none => .error .recordNotFound
  | some tenant =>
      let targets ← batchTargets env db tenant params
      let evaluations ← targets.mapM (evaluateTarget env db now tenant params)
      let reservations := evaluations.filterMap Evaluation.reservation?
      let skipped := evaluations.filterMap Evaluation.skipped?
      let review := selectionReview env tenant reservations skipped
      if params.expectedReview.any (fun expected => expected ≠ review) then
        .error (.reviewDrift review)
      else pure ⟨reservations, skipped, review⟩

/-! ## Committing the reservation -/

/-- The columns a reservation writes, on a reused request as on a new row. -/
def reservePayout (params : ReserveParams) (batchId : Uuid) (now : Instant)
    (r : PayoutReservation) (p : Payout) : Payout :=
  { p with
    batchId := some batchId
    totalCents := r.amountCents
    method := params.method
    status := .processing
    activeKey := some (payoutActiveKey params.tenantId r.membershipId params.period)
    processingStartedAt := some now
    recipientReferralCode := some r.recipient.referralCode
    recipientFullName := some r.recipient.fullName
    recipientEmail := some r.recipient.email
    complianceSnapshot := some r.complianceSnapshot }

/-- A payout row with its defaults. -/
def blankPayout (id tenantId membershipId : Uuid) (period : String)
    (createdAt : Instant) : Payout where
  id := id
  tenantId := tenantId
  membershipId := membershipId
  batchId := none
  totalCents := 0
  method := .manual
  status := .requested
  period := period
  activeKey := none
  processingStartedAt := none
  paidAt := none
  settledAt := none
  settlementReference := none
  settlementEvidence := none
  recipientReferralCode := none
  recipientFullName := none
  recipientEmail := none
  complianceSnapshot := none
  rejectedAt := none
  rejectionReason := none
  failedAt := none
  failureReason := none
  ref := none
  createdAt := createdAt

def newPayout (params : ReserveParams) (batchId : Uuid) (now : Instant)
    (r : PayoutReservation) (id : Uuid) : Payout :=
  reservePayout params batchId now r
    (blankPayout id params.tenantId r.membershipId params.period now)

def updatePayout (id : Uuid) (f : Payout → Payout) (hf : ∀ p, key (f p) = key p) :
    Tx PUnit := do
  let db ← readDb
  let p ← orThrow (db.payouts.find? id) .recordNotFound
  require (0 ≤ (f p).totalCents) (.checkViolation "chk_payout_total")
  let payouts ← orThrow (db.payouts.replaceKey? id f hf) (.uniqueViolation "payouts")
  writeDb { db with payouts := payouts }

/-- The payout of a reservation: the reused request or a new row. -/
def openProcessingPayout (params : ReserveParams) (batchId : Uuid) (now : Instant)
    (r : PayoutReservation) : Tx Uuid :=
  match r.requestedPayoutId with
  | some id => do
      updatePayout id (reservePayout params batchId now r) (fun _ => rfl)
      pure id
  | none => do
      let payout ← createPayout (newPayout params batchId now r)
      pure payout.id

/-- A row the claim may take. -/
def isClaimable (rows : List PayoutLedgerRow) (r : LedgerEntry) : Bool :=
  (rows.map PayoutLedgerRow.id).contains r.id && r.status = .payable &&
    r.payoutId.isNone && r.payoutBatchId.isNone

def claim (payoutId batchId : Uuid) (r : LedgerEntry) : LedgerEntry :=
  { r with status := .processing, payoutId := some payoutId, payoutBatchId := some batchId }

theorem claim_keepsIndexes (payoutId batchId : Uuid) :
    KeepsIndexes (claim payoutId batchId) :=
  ⟨fun _ => rfl, fun _ _ h => h, fun _ _ h => h⟩

def claimRows (payoutId batchId : Uuid) (rows : List PayoutLedgerRow) : Tx PUnit := do
  let db ← readDb
  let claimed := db.ledger.rows.countP (isClaimable rows)
  writeDb
    { db with
      ledger := db.ledger.updateWhere (isClaimable rows) (claim payoutId batchId)
        (claim_keepsIndexes payoutId batchId) }
  require (claimed = rows.length)
    (.conflict "payable rows changed while the batch was being reserved")

def batchItem (batchId payoutId : Uuid) (now : Instant) (r : PayoutReservation)
    (row : PayoutLedgerRow) (id : Uuid) : PayoutSettlementBatchItem where
  id := id
  batchId := batchId
  payoutId := payoutId
  ledgerEntryId := row.id
  membershipId := r.membershipId
  month := row.month
  level := row.level
  amountCents := row.amountCents
  recipientReferralCode := some r.recipient.referralCode
  recipientFullName := some r.recipient.fullName
  recipientEmail := some r.recipient.email
  recipientSnapshotAt := some now

/-- One pass of the commit loop. -/
def reserveMember (params : ReserveParams) (batchId : Uuid) (now : Instant)
    (r : PayoutReservation) : Tx ProcessingPayout := do
  let payoutId ← openProcessingPayout params batchId now r
  claimRows payoutId batchId r.rows
  forM r.rows (fun row => createBatchItem (batchItem batchId payoutId now r row))
  audit params.tenantId params.actorUserId "payout.processing_started" payoutId (.obj [])
    (.obj
      [("batchId", .str batchId.text), ("totalCents", .ofCents r.amountCents),
        ("entryCount", .num r.rows.length)])
  pure ⟨r.membershipId, payoutId, r.amountCents, r.rows.length⟩

def reserveMembers (params : ReserveParams) (batchId : Uuid) (now : Instant) :
    List PayoutReservation → Tx (List ProcessingPayout)
  | [] => pure []
  | r :: rest => do
      let payout ← reserveMember params batchId now r
      let payouts ← reserveMembers params batchId now rest
      pure (payout :: payouts)

/-- What a row moves, and the summary it moves it in. -/
def reservedKey (tenantId : Uuid) (move : Uuid × PayoutLedgerRow) : SummaryKey :=
  ⟨tenantId, move.1, move.2.month, move.2.level⟩

def reservedMoves (reservations : List PayoutReservation) :
    List (Uuid × PayoutLedgerRow) :=
  reservations.flatMap (fun r => r.rows.map (fun row => (r.membershipId, row)))

/-- One total per (member, month, level); the source posts them in the order of their
keys, which only fixes the order of the row locks. -/
def reservedTotals (tenantId : Uuid) (reservations : List PayoutReservation) :
    List (SummaryKey × Int) :=
  groupTotals (reservedKey tenantId) (fun move => move.2.amountCents)
    (reservedMoves reservations)

def reserveDelta (amount : Int) : SummaryDelta :=
  { payable := -amount, processing := amount }

def postTotals (delta : Int → SummaryDelta) (totals : List (SummaryKey × Int)) :
    Tx PUnit :=
  forM totals fun (k, amount) =>
    bumpSummary k.tenantId k.membershipId k.month k.level (delta amount)

def PayoutMethod.text : PayoutMethod → String
  | .manual => "manual"
  | .csv => "csv"
  | .stripe => "stripe"
  | .check => "check"

def newBatch (params : ReserveParams) (now : Instant) (id : Uuid) :
    PayoutSettlementBatch where
  id := id
  tenantId := params.tenantId
  period := params.period
  method := params.method
  status := .processing
  processingStartedAt := now
  dispatchedAt := none
  dispatchReference := none
  dispatchEvidence := none
  settledAt := none
  settlementReference := none
  settlementEvidence := none
  failedAt := none
  failureReason := none

def commitSelection (params : ReserveParams) (now : Instant) (selection : Selection) :
    Tx ReserveResult := do
  let batch ← createBatch (newBatch params now)
  let processing ← reserveMembers params batch.id now selection.reservations
  postTotals reserveDelta (reservedTotals params.tenantId selection.reservations)
  audit params.tenantId params.actorUserId "payout_batch.processing_started" batch.id
    (.obj [])
    (.obj
      [("period", .str params.period), ("method", .str (PayoutMethod.text params.method)),
        ("processingCount", .num processing.length),
        ("entryCount", .num (reservedMoves selection.reservations).length)])
  pure ⟨some batch.id, params.period, processing, selection.skipped, selection.review⟩

def reservePayoutBatch (env : Env) (now : Instant) (params : ReserveParams) :
    Tx ReserveResult := do
  let db ← readDb
  let selection ← fromExcept (selectBatch env db now params)
  if params.previewOnly ∨ selection.reservations.length = 0 then
    pure ⟨none, params.period, [], selection.skipped, selection.review⟩
  else commitSelection params now selection

def previewPayoutBatch (env : Env) (now : Instant) (params : ReserveParams) :
    Tx PayoutBatchReview := do
  let result ← reservePayoutBatch env now { params with previewOnly := true }
  pure result.review

end Refearn.Engine
