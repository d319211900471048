import Refearn.Engine.Run
import Refearn.Sales.BulkReview
/-!
# Bulk actions on sales
-/

/-!
## Executing a bulk action

`bulk` of `sales.service.ts`: the durable record of an execution, its replay, and the
approvals or voids of the reviewed sales share one serializable transaction.
-/

namespace Refearn.Sales

open Support Support.Transaction Engine

/-! ## Execution records -/

/-- The code and the message of each failed sale are constants. -/
structure BulkExecutionResponse where
  action : BulkAction
  succeeded : Nat
  succeededIds : List Uuid
  failed : List Uuid
  retryScope : Option (List Uuid)
  deriving DecidableEq

/-- A check constraint ties the status to the presence of a response. -/
inductive ExecutionStatus
  | processing
  | completed (response : BulkExecutionResponse)
  deriving DecidableEq

structure BulkActionExecution where
  id : Uuid
  tenantId : Uuid
  actorUserId : Uuid
  idempotencyKeyHash : String
  requestHash : String
  status : ExecutionStatus

/-- `bulk_action_exec_tenant_actor_key_uidx`. -/
instance : Keyed BulkActionExecution Uuid where
  key := BulkActionExecution.id
  clash e e' := e.tenantId == e'.tenantId && e.actorUserId == e'.actorUserId &&
    e.idempotencyKeyHash == e'.idempotencyKeyHash

structure BulkDb where
  db : Db
  executions : Table BulkActionExecution

structure BulkSession where
  session : Session
  executions : Table BulkActionExecution

inductive BulkError
  | engine (error : EngineError)
  /-- `BulkReviewDriftError`, before it is answered with a new preview -/
  | reviewDrift (review : BulkReview)
  | reviewRequired (preview : BulkPreviewTokenPayload)
  | idempotencyKeyConflict
  | executionRecoveryRequired

abbrev BulkTx := Transaction BulkSession BulkError

/-- Run a transaction of the engine on the same connection. -/
def inEngine {α : Type} (m : Tx α) : BulkTx α :=
  embed BulkSession.session (fun t s => { t with session := s }) .engine m

@[simp] theorem commits_inEngine {α : Type} (m : Tx α) (t t' : BulkSession) (a : α) :
    Commits (inEngine m) t a t' ↔
      ∃ s', m.Commits t.session a s' ∧ t' = { t with session := s' } :=
  commits_embed ..

/-! ## Replays -/

/-- The version and variant digits of `[1-8][0-9a-f]{3}-[89ab][0-9a-f]{3}`. -/
def isRfcUuid (id : Uuid) : Bool :=
  (id.digits[12]?).any (fun c => '1' ≤ c && c ≤ '8') &&
    (id.digits[16]?).any (· ∈ ['8', '9', 'a', 'b'])

def isSortedUniqueUuidList (ids : List Uuid) : Bool :=
  ids.Pairwise (· < ·) && ids.all isRfcUuid

/-- The scope to retry, where a sale has failed. -/
def retryScopeOf (failed : List Uuid) : Option (List Uuid) :=
  if 0 < failed.length then some failed else none

/-- A persisted response, if it fits the token and the scope it is replayed for. -/
def validatedBulkExecutionResponse (response : BulkExecutionResponse)
    (token : BulkPreviewTokenPayload) (scope : NormalizedBulkScope) :
    Option BulkExecutionResponse :=
  let fitsScope : Bool :=
    match scope with
    | .selected ids => (response.succeededIds ++ response.failed).insertionSort (· ≤ ·) = ids
    | .allResults _ => true
  if response.action = token.action ∧ isSortedUniqueUuidList response.succeededIds ∧
      response.succeeded = response.succeededIds.length ∧
      response.succeededIds.length = token.eligibleCount ∧
      isSortedUniqueUuidList response.failed ∧ response.failed.length = token.excludedCount ∧
      (∀ id ∈ response.failed, id ∉ response.succeededIds) ∧ fitsScope ∧
      response.retryScope = retryScopeOf response.failed then
    some response
  else none

theorem validatedBulkExecutionResponse_eq_some {response replay : BulkExecutionResponse}
    {token : BulkPreviewTokenPayload} {scope : NormalizedBulkScope}
    (h : validatedBulkExecutionResponse response token scope = some replay) :
    replay = response := by
  unfold validatedBulkExecutionResponse at h
  dsimp only at h
  split_ifs at h
  cases h
  rfl

/-! ## Keys and hashes -/

/-- `/^[\x21-\x7e]{16,200}$/` -/
def isIdempotencyKey (text : String) : Bool :=
  16 ≤ text.toList.length && text.toList.length ≤ 200 &&
    text.toList.all fun c => 0x21 ≤ c.toNat && c.toNat ≤ 0x7e

def bulkIdempotencyKeyHash (env : BulkEnv) (idempotencyKey : String) : String :=
  env.sha256 (Json.stringify (.obj
    [("domain", .str "bulk-action-idempotency-key:v1"), ("key", .str idempotencyKey)]))

def bulkExecutionRequestHash (env : BulkEnv) (actor : ActorContext) (action : BulkAction)
    (scope : NormalizedBulkScope) (previewToken : String) : String :=
  env.sha256 (Json.stringify (.obj
    [("domain", .str "sales-bulk-execution:v1"), ("actorUserId", .str actor.userId.text),
      ("tenantId", .str actor.tenantId.text), ("action", .str action.text),
      ("scope", scope.json), ("previewTokenDigest", .str (env.sha256 previewToken))]))

/-! ## Beginning and completing an execution -/

def isExecutionOf (actor : ActorContext) (idempotencyKeyHash : String)
    (e : BulkActionExecution) : Bool :=
  e.tenantId = actor.tenantId && e.actorUserId = actor.userId &&
    e.idempotencyKeyHash = idempotencyKeyHash

/-- `INSERT … ON CONFLICT (tenant_id, actor_user_id, idempotency_key_hash) DO NOTHING`;
returns whether a row was inserted. -/
def insertExecution (actor : ActorContext) (idempotencyKeyHash requestHash : String) :
    BulkTx Bool := do
  let id ← inEngine genRandomUuid
  let t ← get
  if t.executions.rows.any (isExecutionOf actor idempotencyKeyHash) then pure false
  else do
    let registry := t.session.db.registry
    require ((registry.tenants.find? actor.tenantId).isSome)
      (.engine (.foreignKeyViolation "tenant_id"))
    require ((registry.users.find? actor.userId).isSome)
      (.engine (.foreignKeyViolation "actor_user_id"))
    let executions ← orThrow
      (t.executions.insert?
        ⟨id, actor.tenantId, actor.userId, idempotencyKeyHash, requestHash, .processing⟩)
      (.engine (.uniqueViolation "bulk_action_executions"))
    set { t with executions := executions }
    pure true

/-- The execution to complete, or the response of the one that has completed. -/
def beginBulkExecution (actor : ActorContext) (token : BulkPreviewTokenPayload)
    (scope : NormalizedBulkScope) (idempotencyKeyHash requestHash : String) :
    BulkTx (Uuid × Option BulkExecutionResponse) := do
  let inserted ← insertExecution actor idempotencyKeyHash requestHash
  let t ← get
  match t.executions.rows.filter (isExecutionOf actor idempotencyKeyHash) with
  | [execution] => do
      require (execution.requestHash = requestHash) .idempotencyKeyConflict
      match execution.status with
      | .completed response => do
          let replay ← orThrow (validatedBulkExecutionResponse response token scope)
            .executionRecoveryRequired
          pure (execution.id, some replay)
      | .processing => do
          require (inserted = true) .executionRecoveryRequired
          pure (execution.id, none)
  | _ => throw .executionRecoveryRequired

def complete (response : BulkExecutionResponse) (e : BulkActionExecution) :
    BulkActionExecution :=
  { e with status := .completed response }

theorem complete_keepsIndexes (response : BulkExecutionResponse) :
    KeepsIndexes (complete response) :=
  ⟨fun _ => rfl, fun _ _ h => h, fun _ _ h => h⟩

def isUnderWay (executionId : Uuid) (e : BulkActionExecution) : Bool :=
  e.id = executionId && e.status = .processing

def completeBulkExecution (executionId : Uuid) (response : BulkExecutionResponse) :
    BulkTx PUnit := do
  let t ← get
  require (t.executions.rows.countP (isUnderWay executionId) = 1) .executionRecoveryRequired
  set
    { t with
      executions := t.executions.updateWhere (isUnderWay executionId) (complete response)
        (complete_keepsIndexes response) }

/-! ## Executing the reviewed action -/

/-- `SELECT id … ORDER BY id ASC FOR UPDATE` -/
def lockSalesForTenant (db : Db) (tenantId : Uuid) (saleIds : List Uuid) : List Uuid :=
  ((db.sales.rows.filter fun s =>
    s.tenantId = tenantId ∧ s.id ∈ sortedUuids saleIds).map Sale.id).insertionSort (· ≤ ·)

def bulkMutation (env : BulkEnv) (now : Instant) (actor : ActorContext) (action : BulkAction)
    (saleId : Uuid) : Tx PUnit :=
  match action with
  | .approve =>
      Engine.discard (approveSaleInTx env.toEnv now saleId (some actor.userId) (some actor.tenantId))
  | .void =>
      Engine.discard (voidSaleInTx env.toEnv now saleId (some actor.userId) (some actor.tenantId))

def bulkResponse (action : BulkAction) (review : BulkReview) : BulkExecutionResponse where
  action := action
  succeeded := review.eligibleIds.length
  succeededIds := review.eligibleIds
  failed := review.excludedIds
  retryScope := retryScopeOf review.excludedIds

/-- What a first execution does once its record is inserted. -/
def executeReviewed (env : BulkEnv) (now : Instant) (actor : ActorContext)
    (previewToken : String) (token : BulkPreviewTokenPayload) (scope : NormalizedBulkScope)
    (executionId : Uuid) : BulkTx BulkExecutionResponse := do
  let _ ← fromExcept
    ((verifyBulkPreviewToken env previewToken actor (some now)).mapError BulkError.engine)
  let t ← get
  let review ← fromExcept
    ((calculateBulkReview env t.session.db actor token.action scope).mapError BulkError.engine)
  require (token.scopeFingerprint = bulkScopeFingerprint env scope) (.reviewDrift review)
  require (bulkReviewMatchesToken review token = true) (.reviewDrift review)
  require (lockSalesForTenant t.session.db actor.tenantId review.eligibleIds = review.eligibleIds)
    (.reviewDrift review)
  forM review.eligibleIds fun saleId => inEngine (bulkMutation env now actor token.action saleId)
  let response := bulkResponse token.action review
  completeBulkExecution executionId response
  pure response

structure ConfirmBulkInput where
  scope : BulkScope
  previewToken : String

/-- Drift is answered with a preview of what the scope selects now. -/
def answerDrift (env : BulkEnv) (now : Instant) (actor : ActorContext)
    (token : BulkPreviewTokenPayload) (scope : NormalizedBulkScope) : BulkError → BulkError
  | .reviewDrift review =>
      .reviewRequired (previewPayload env now actor token.action scope review)
  | e => e

def bulk (env : BulkEnv) (now : Instant) (actor : ActorContext) (input : ConfirmBulkInput)
    (idempotencyKey : String) : BulkTx BulkExecutionResponse := do
  require (isIdempotencyKey idempotencyKey = true)
    (.engine (.badRequest "Idempotency-Key must be 16-200 printable characters"))
  let token ← fromExcept
    ((verifyBulkPreviewToken env input.previewToken actor none).mapError BulkError.engine)
  let scope := normalizeBulkScope env input.scope
  mapErrors (answerDrift env now actor token scope) do
    let execution ← beginBulkExecution actor token scope
      (bulkIdempotencyKeyHash env idempotencyKey)
      (bulkExecutionRequestHash env actor token.action scope input.previewToken)
    match execution.2 with
    | some replay => pure replay
    | none => executeReviewed env now actor input.previewToken token scope execution.1

/-! ## Calls among everything else that happens -/

/-- A request, with the time it is executed at and the identifiers the database draws
for it. -/
structure BulkCall where
  now : Instant
  actor : ActorContext
  input : ConfirmBulkInput
  idempotencyKey : String
  uuids : Nat → Uuid

namespace BulkCall

def transaction (env : BulkEnv) (call : BulkCall) : BulkTx BulkExecutionResponse :=
  bulk env call.now call.actor call.input call.idempotencyKey

def start (call : BulkCall) (w : BulkDb) : BulkSession :=
  ⟨⟨w.db, call.uuids⟩, w.executions⟩

/-- The call returns `response`. -/
def Returns (env : BulkEnv) (call : BulkCall) (w : BulkDb) (response : BulkExecutionResponse) :
    Prop :=
  ∃ t, Commits (call.transaction env) (call.start w) response t

/-- The call is answered with an error. -/
def Fails (env : BulkEnv) (call : BulkCall) (w : BulkDb) : Prop :=
  ∃ e, Raises (call.transaction env) (call.start w) e

def apply (env : BulkEnv) (call : BulkCall) (w : BulkDb) : BulkDb :=
  let t := (call.transaction env).commit (call.start w)
  ⟨t.session.db, t.executions⟩

/-- The two calls have the same scope and the same preview token. -/
def SameRequest (env : BulkEnv) (call call' : BulkCall) : Prop :=
  normalizeBulkScope env call.input.scope = normalizeBulkScope env call'.input.scope ∧
    call.input.previewToken = call'.input.previewToken

end BulkCall

inductive BulkStep
  | engine (step : Step)
  | bulk (call : BulkCall)

def BulkStep.apply (env : BulkEnv) : BulkStep → BulkDb → BulkDb
  | .engine step, w => { w with db := step.apply env.toEnv w.db }
  | .bulk call, w => call.apply env w

/-! ## A reviewed sale

The sale of the small business is still a draft, and its approval has been reviewed. -/

namespace BulkDemo

def drafted : BulkDb :=
  ⟨Demo.after [Demo.step 100 (.createDraftSale ⟨1, none, 2, 1000, "USD", 0, none, none⟩)], .empty⟩

def actor : ActorContext := ⟨10, 1⟩

def input : ConfirmBulkInput := ⟨.selected [100], "T"⟩

/-- Nothing is signed yet. -/
def unsigned : BulkEnv :=
  { Demo.env with
    toISOString := fun time => String.ofList (Json.decimal time)
    dateOf := fun _ => 0
    containsInsensitive := fun _ _ => false
    signedPayload := fun _ => none }

def payload : Option BulkPreviewTokenPayload :=
  let scope := normalizeBulkScope unsigned input.scope
  (calculateBulkReview unsigned drafted.db actor .approve scope).toOption.map
    (previewPayload unsigned 0 actor .approve scope)

def env : BulkEnv := { unsigned with signedPayload := fun _ => payload }

def call : BulkCall where
  now := 0
  actor := actor
  input := input
  idempotencyKey := "0123456789abcdef"
  uuids := Demo.uuidsFrom 500

end BulkDemo

end Refearn.Sales

/-!
## Removing a sale, statement by statement

`remove` of `sales.service.ts` reads the sale and its status in one statement and
deletes it by its id in another, in no transaction. Everything else that happens to
sales may be committed between the two.
-/

namespace Refearn.Sales

open Support Engine

/-- A call of `remove`. -/
structure Removal where
  tenantId : Uuid
  actorUserId : Option Uuid
  saleId : Uuid
  deriving DecidableEq

/-- The first statement and the checks of what it has read. -/
def readRemovable (db : Db) (removal : Removal) : Except EngineError Sale :=
  match (db.sales.find? removal.saleId).filter (fun s => s.tenantId = removal.tenantId) with
  | none => .error (.notFound "sale was not found in this business")
  | some sale =>
      if sale.status = .draft then .ok sale
      else .error (.badRequest "only draft sales can be deleted")

def isReferenced (db : Db) (saleId : Uuid) : Bool :=
  db.ledger.rows.any fun r => r.saleId = some saleId

/-- `sale.delete({ where: { id } })`; `ledger_entries_sale_id_fkey` restricts it. -/
def deleteSale (db : Db) (removal : Removal) : Except EngineError Db :=
  match db.sales.find? removal.saleId with
  | none => .error .recordNotFound
  | some sale =>
      if isReferenced db sale.id then .error (.foreignKeyViolation "sale_id")
      else
        .ok
          { db with
            sales := db.sales.filter (fun s => s.id ≠ sale.id)
            auditLogs := db.auditLogs ++
              [⟨removal.tenantId, removal.actorUserId, "sale.delete", sale.id, .obj [],
                .obj [("deleted", .bool true)]⟩] }

/-- The committed state, and the removals that have read their sale and not deleted it. -/
structure RemovalWorld where
  bulk : BulkDb
  removing : List Removal

inductive RemovalStep
  | other (step : BulkStep)
  | read (removal : Removal)
  | delete (removal : Removal)

def RemovalStep.apply (env : BulkEnv) : RemovalStep → RemovalWorld → RemovalWorld
  | .other step, w => { w with bulk := step.apply env w.bulk }
  | .read removal, w =>
      match readRemovable w.bulk.db removal with
      | .error _ => w
      | .ok _ => { w with removing := removal :: w.removing }
  | .delete removal, w =>
      if removal ∈ w.removing then
        let removing := w.removing.erase removal
        match deleteSale w.bulk.db removal with
        | .error _ => { w with removing := removing }
        | .ok db => { bulk := { w.bulk with db := db }, removing := removing }
      else w

end Refearn.Sales
