import Refearn.Engine.Commissions
import Refearn.Engine.Settlement
import Refearn.Sales.Drafts
import Refearn.Support.Runs
/-!
# Runs of the engine

The transactions that change the money tables, and what else may happen between
them: sales come and go as drafts, and any change at all of the tables that the
engine only reads. A transaction that raises leaves the database as it was.
-/

namespace Refearn.Engine

open Support Support.Transaction

inductive Action
  /-- Another service has written the tables the engine reads. -/
  | configure (registry : Registry)
  | createDraftSale (input : Sales.DraftInput)
  | removeSale (tenantId : Uuid) (actorUserId : Option Uuid) (saleId : Uuid)
  | approveSale (now : Instant) (saleId : Uuid) (actorUserId expectedTenantId : Option Uuid)
  | applyCommissions (now : Instant) (saleId : Uuid)
  | voidSale (now : Instant) (saleId : Uuid) (actorUserId expectedTenantId : Option Uuid)
  | markDelivered (saleId : Uuid) (deliveredAt : Instant)
  | matureCommissions (now : Instant) (limit : Int) (lockedRows : List Uuid)
  | awardBonus (now : Instant) (params : AwardBonusParams)
  | reservePayoutBatch (now : Instant) (params : ReserveParams)
  | dispatchPayoutBatch (now : Instant) (params : DispatchParams)
  | settlePayoutBatch (now : Instant) (params : SettleParams)
  | failPayoutBatch (now : Instant) (params : FailParams)
  | rejectPayoutRequest (now : Instant) (params : RejectParams)
  | requestPayout (now : Instant) (membershipId tenantId : Uuid)

/-- Run a transaction for its effect. -/
def discard {α : Type} (m : Tx α) : Tx PUnit := do
  let _ ← m
  pure ⟨⟩

@[simp] theorem commits_discard {α : Type} (m : Tx α) (s s' : Session) (u : PUnit) :
    Commits (discard m) s u s' ↔ ∃ a, Commits m s a s' := by
  unfold discard
  simp only [commits_bind, commits_pure, true_and]
  constructor
  · rintro ⟨a, _, h, rfl⟩
    exact ⟨a, h⟩
  · rintro ⟨a, h⟩
    exact ⟨a, s', h, rfl⟩

def transaction (env : Env) : Action → Tx PUnit
  | .configure registry => do
      let db ← readDb
      -- `ledger_entries_tenant_id_fkey` restricts the removal of a tenant
      require (∀ r ∈ db.ledger.rows, (registry.tenants.find? r.tenantId).isSome)
        (.foreignKeyViolation "tenant_id")
      writeDb { db with registry := registry }
  | .createDraftSale input => discard (Sales.createDraftSale input)
  | .removeSale tenantId actorUserId saleId => Sales.remove tenantId actorUserId saleId
  | .approveSale now saleId actorUserId expectedTenantId =>
      discard (approveSaleInTx env now saleId actorUserId expectedTenantId)
  | .applyCommissions now saleId => discard (applyCommissions env now saleId)
  | .voidSale now saleId actorUserId expectedTenantId =>
      discard (voidSaleInTx env now saleId actorUserId expectedTenantId)
  | .markDelivered saleId deliveredAt => discard (markDelivered saleId deliveredAt)
  | .matureCommissions now limit lockedRows =>
      discard (matureCommissions env now limit lockedRows)
  | .awardBonus now params => discard (awardBonus now params)
  | .reservePayoutBatch now params => discard (reservePayoutBatch env now params)
  | .dispatchPayoutBatch now params => discard (dispatchPayoutBatch env now params)
  | .settlePayoutBatch now params => discard (settlePayoutBatch now params)
  | .failPayoutBatch now params => discard (failPayoutBatch now params)
  | .rejectPayoutRequest now params => discard (rejectPayoutRequest now params)
  | .requestPayout now membershipId tenantId =>
      discard (requestPayoutWithMeta env now membershipId tenantId)

/-- An action with the identifiers the database draws for it. -/
structure Step where
  action : Action
  uuids : Nat → Uuid

def Step.apply (env : Env) (step : Step) (db : Db) : Db :=
  execute (transaction env step.action) db step.uuids

/-- A database in which no money has moved; there may be sales of any kind. -/
structure Initial (db : Db) : Prop where
  ledger : db.ledger.rows = []
  summaries : db.summaries.rows = []
  payouts : db.payouts.rows = []
  batches : db.batches.rows = []
  items : db.items.rows = []

abbrev ReachableDb (env : Env) : Db → Prop := Reachable Initial (Step.apply env)

/-- A step has left the database as it was or committed its transaction. -/
theorem Step.apply_cases (env : Env) (step : Step) (db : Db) :
    step.apply env db = db ∨
      ∃ s', Commits (transaction env step.action) ⟨db, step.uuids⟩ ⟨⟩ s' ∧
        step.apply env db = s'.db := by
  rcases commit_cases (transaction env step.action) ⟨db, step.uuids⟩ with h | ⟨u, h⟩
  · exact .inl (by unfold Step.apply execute; rw [h])
  · exact .inr ⟨_, h, rfl⟩

theorem Step.apply_of_commits {env : Env} {action : Action} {db : Db} {uuids : Nat → Uuid}
    {s' : Session} (h : Commits (transaction env action) ⟨db, uuids⟩ ⟨⟩ s') :
    Step.apply env ⟨action, uuids⟩ db = s'.db := by
  unfold Step.apply execute
  rw [h.commit_eq]

/-- A committed transaction leads from a reachable database to one. -/
theorem reachable_of_commits {env : Env} (action : Action) {db : Db} {uuids : Nat → Uuid}
    {s' : Session} (h : ReachableDb env db)
    (hc : Commits (transaction env action) ⟨db, uuids⟩ ⟨⟩ s') : ReachableDb env s'.db :=
  Step.apply_of_commits hc ▸ h.next ⟨action, uuids⟩

/-! ## A small business

One member sells, its sponsor is above it, and both may be paid. The examples of
the later modules run on it. -/

namespace Demo

def env : Env where
  monthKey _ _ := "2026-01"
  toCharMonth _ _ := "2026-01"
  sha256 text := text
  md5 text := text
  toLowerCase text := text

def tenant : Tenant where
  id := 1
  currency := "USD"
  timezone := "UTC"
  maturationRule := .onApproval
  maturationDays := none
  payoutMinCents := 1
  compressionEnabled := false
  inactiveMembersEarn := false
  requireSeparateApprover := false
  requireKycForPayout := false

def seller : Membership := ⟨2, 1, 10, some 3, "SELLER", [3, 2], .active, 0⟩

def sponsor : Membership := ⟨3, 1, 11, none, "SPONSOR", [3], .active, 0⟩

/-- Six percent to the seller and four to the member above it. -/
def plan : CommissionPlan :=
  ⟨4, 1, 1, true, 1000, 2, 0, 0, 0, 0, [⟨5, 0, 600⟩, ⟨6, 1, 400⟩]⟩

def readyChecks (membershipId : Uuid) : List PayoutReadinessCheck :=
  Payouts.PAYOUT_COMPLIANCE_CONTROL_KEYS.map fun k => ⟨1, membershipId, k, .ready, "", none, 1⟩

def registry : Registry where
  tenants := ⟨[tenant], by decide, by decide⟩
  users := ⟨[⟨10, "Ada", "ada@example.org", some 0⟩, ⟨11, "Grace", "grace@example.org", some 0⟩],
    by decide, by decide⟩
  memberships := ⟨[seller, sponsor], by decide, by decide⟩
  plans := ⟨[plan], by decide, by decide⟩
  rankTiers := .empty
  periodLocks := .empty
  fraudFlags := .empty
  payoutProfiles := .empty
  readinessChecks := ⟨readyChecks 2 ++ readyChecks 3, by decide, by decide⟩
  destinations := ⟨[⟨0x10008000000000000002, 1, 2, some 0, 1, true⟩,
    ⟨0x10008000000000000003, 1, 3, some 0, 1, true⟩], by decide, by decide⟩
  sanctions := []

/-- Nothing sold yet. -/
def empty : Db :=
  ⟨registry, .empty, .empty, .empty, .empty, .empty, .empty, [], []⟩

theorem empty_initial : Initial empty := ⟨rfl, rfl, rfl, rfl, rfl⟩

/-- Identifiers from `n` on. -/
def uuidsFrom (n : Nat) : Nat → Uuid := fun i => Fin.ofNat _ (n + i)

def step (n : Nat) (action : Action) : Step := ⟨action, uuidsFrom n⟩

/-- The database after some steps. -/
def after (steps : List Step) : Db := run (Step.apply env) steps empty

/-- A sale of ten dollars, approved. -/
def sold : List Step :=
  [step 100 (.createDraftSale ⟨1, none, 2, 1000, "USD", 0, none, none⟩),
    step 200 (.approveSale 0 100 none none)]

def reserveAll : ReserveParams :=
  { tenantId := 1, scope := .allEligible, period := "2026-01", method := .manual }

/-- The sale, reserved as batch 300. -/
def reserved : List Step := sold ++ [step 300 (.reservePayoutBatch 0 reserveAll)]

/-- Batch 300, dispatched and settled. -/
def paidOut : List Step :=
  reserved ++
    [step 400 (.dispatchPayoutBatch 0
        { tenantId := 1, batchId := 300, dispatchReference := "D", dispatchEvidence := "E" }),
      step 500 (.settlePayoutBatch 0
        { tenantId := 1, batchId := 300, settlementReference := "S", settlementEvidence := "E" })]

theorem after_append (steps : List Step) (last : Step) :
    after (steps ++ [last]) = last.apply env (after steps) := by
  rw [after, run_append]
  rfl

theorem reachable (steps : List Step) : ReachableDb env (after steps) :=
  (Reachable.start empty_initial).run steps

example : (after sold).ledger.rows.map
    (fun r => (r.beneficiaryMembershipId, r.amountCents)) = [(2, 60), (3, 40)] := by
  decide +kernel

example : (after paidOut).ledger.rows.map LedgerEntry.status =
    [.paid, .paid] := by
  decide +kernel

end Demo

end Refearn.Engine
