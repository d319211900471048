import Refearn.Environment
import Refearn.Payouts.Readiness
import Refearn.Support.Transaction
import Refearn.Support.Postings
/-!
# Reading and writing the database inside a transaction

The statements an engine transaction is made of. Each insert draws an identifier
from `gen_random_uuid()` and fails where an index of its table objects; a summary
is an upsert that adds its four differences.
-/

namespace Refearn.Engine

open Support Support.Transaction

/-! ## Transactions of the engine -/

structure PayoutBatchReview where
  eligibleCount : Nat
  excludedCount : Nat
  totals : List (String × Int)
  selectionFingerprint : String
  deriving DecidableEq

inductive EngineError
  | badRequest (message : String)
  | conflict (message : String)
  | forbidden (message : String)
  | notFound (message : String)
  /-- `findUniqueOrThrow` found nothing. -/
  | recordNotFound
  | rangeError (message : String)
  | uniqueViolation (table : String)
  | foreignKeyViolation (column : String)
  | checkViolation (constraint : String)
  | reviewDrift (review : PayoutBatchReview)
  | payoutNotReady (readiness : Payouts.PayoutReadiness)
  deriving DecidableEq

/-- A database with the identifiers that `gen_random_uuid()` is going to return. -/
structure Session where
  db : Db
  uuids : Nat → Uuid

abbrev Tx := Transaction Session EngineError

/-- The committed state after a transaction; a raised error leaves `db`. -/
def execute {α : Type} (m : Tx α) (db : Db) (uuids : Nat → Uuid) : Db :=
  (m.commit ⟨db, uuids⟩).db

def readDb : Tx Db := fun s => .ok (s.db, s)

def writeDb (db : Db) : Tx PUnit := modify fun s => { s with db := db }

def genRandomUuid : Tx Uuid := fun s => .ok (s.uuids 0, { s with uuids := fun n => s.uuids (n + 1) })

@[simp] theorem commits_readDb (s s' : Session) (db : Db) :
    Commits readDb s db s' ↔ s.db = db ∧ s = s' := by
  unfold Commits
  constructor
  · intro h
    cases h
    exact ⟨rfl, rfl⟩
  · rintro ⟨rfl, rfl⟩
    rfl

@[simp] theorem raises_readDb (s : Session) (e : EngineError) : ¬Raises readDb s e := by
  unfold Raises
  exact nofun

@[simp] theorem commits_writeDb (db : Db) (s s' : Session) (u : PUnit) :
    Commits (writeDb db) s u s' ↔ { s with db := db } = s' :=
  commits_modify ..

@[simp] theorem raises_writeDb (db : Db) (s : Session) (e : EngineError) :
    ¬Raises (writeDb db) s e := by
  unfold writeDb
  simp

@[simp] theorem commits_genRandomUuid (s s' : Session) (id : Uuid) :
    Commits genRandomUuid s id s' ↔
      s.uuids 0 = id ∧ { s with uuids := fun n => s.uuids (n + 1) } = s' := by
  unfold Commits
  constructor
  · intro h
    cases h
    exact ⟨rfl, rfl⟩
  · rintro ⟨rfl, rfl⟩
    rfl

@[simp] theorem raises_genRandomUuid (s : Session) (e : EngineError) :
    ¬Raises genRandomUuid s e := by
  unfold Raises
  exact nofun

/-- Raise the range error of a shared function. -/
def raiseRange {α : Type} (x : Except String α) : Tx α :=
  fromExcept (x.mapError .rangeError)

@[simp] theorem commits_raiseRange {α : Type} (x : Except String α) (s s' : Session)
    (a : α) : Commits (raiseRange x) s a s' ↔ x = .ok a ∧ s = s' := by
  cases x <;> simp [raiseRange, Except.mapError]

/-! ## Summaries -/

structure SummaryDelta where
  pending : Int := 0
  payable : Int := 0
  processing : Int := 0
  paid : Int := 0

inductive Bucket | pending | payable | processing | paid
  deriving DecidableEq

def SummaryDelta.cents (d : SummaryDelta) : Bucket → Int
  | .pending => d.pending
  | .payable => d.payable
  | .processing => d.processing
  | .paid => d.paid

def summaryBucket (r : MonthlySummary) : Bucket → Int
  | .pending => r.pendingCents
  | .payable => r.payableCents
  | .processing => r.processingCents
  | .paid => r.paidCents

/-- What a bucket of the summary holds; a missing summary holds nothing. -/
def summaryCents (summaries : Table MonthlySummary) (k : SummaryKey) (b : Bucket) : Int :=
  ((summaries.find? k).map (summaryBucket · b)).getD 0

/-- The row an upsert inserts. -/
def SummaryDelta.newRow (d : SummaryDelta) (k : SummaryKey) : MonthlySummary :=
  ⟨k, d.pending, d.payable, d.processing, d.paid⟩

/-- The row an upsert updates. -/
def SummaryDelta.addTo (d : SummaryDelta) (r : MonthlySummary) : MonthlySummary where
  key := r.key
  pendingCents := r.pendingCents + d.pending
  payableCents := r.payableCents + d.payable
  processingCents := r.processingCents + d.processing
  paidCents := r.paidCents + d.paid

theorem SummaryDelta.keepsIndexes (d : SummaryDelta) : KeepsIndexes d.addTo where
  key_eq _ := rfl
  clash_left _ _ h := h
  clash_right _ _ h := h

/-- `INSERT … ON CONFLICT (tenant_id, membership_id, month, level) DO UPDATE`. -/
def upsertSummary (summaries : Table MonthlySummary) (k : SummaryKey)
    (d : SummaryDelta) : Table MonthlySummary :=
  match h : summaries.find? k with
  | some _ => summaries.updateKey k d.addTo d.keepsIndexes
  | none =>
      summaries.insert (d.newRow k)
        (fun r hr => ⟨Table.find?_eq_none.mp h r hr, rfl⟩)

theorem find?_upsertSummary (summaries : Table MonthlySummary) (k k' : SummaryKey)
    (d : SummaryDelta) :
    (upsertSummary summaries k d).find? k' =
      if k = k' then some (((summaries.find? k).map d.addTo).getD (d.newRow k))
      else summaries.find? k' := by
  unfold upsertSummary
  split
  · next r hfind =>
      have hkey := (Table.find?_eq_some.mp hfind).2
      rw [Table.find?_map_rows (Table.rows_updateKey ..)
        (fun r => by split <;> rfl)]
      by_cases hk : k = k'
      · subst hk
        simp [hfind, hkey]
      · cases hfind' : summaries.find? k' with
        | none => simp [hk]
        | some r' =>
            have hkey' := (Table.find?_eq_some.mp hfind').2
            have hne : key r' ≠ k := fun h => hk (h.symm.trans hkey')
            simp [hk, hne]
  · next hfind =>
      have hrows : (summaries.insert (d.newRow k)
          (fun r hr => ⟨Table.find?_eq_none.mp hfind r hr, rfl⟩)).find? k' =
          if k = k' then some (d.newRow k) else summaries.find? k' := by
        by_cases hk : k = k'
        · rw [if_pos hk]
          exact Table.find?_eq_some.mpr ⟨by simp [Table.mem_def], hk⟩
        · have hne : key (d.newRow k) ≠ k' := hk
          simp [hk, Table.find?, List.find?_append, hne]
      rw [hrows]
      by_cases hk : k = k' <;> simp [hk]
      rw [← hk, hfind]
      rfl

theorem summaryCents_upsertSummary (summaries : Table MonthlySummary)
    (k k' : SummaryKey) (d : SummaryDelta) (b : Bucket) :
    summaryCents (upsertSummary summaries k d) k' b =
      summaryCents summaries k' b + if k = k' then d.cents b else 0 := by
  unfold summaryCents
  rw [find?_upsertSummary]
  by_cases hk : k = k'
  · subst hk
    cases summaries.find? k with
    | none => cases b <;> simp [SummaryDelta.newRow, SummaryDelta.cents, summaryBucket]
    | some r => cases b <;> simp [SummaryDelta.addTo, SummaryDelta.cents, summaryBucket]
  · simp [hk]

/-- A difference to post and the summary it goes to. -/
abbrev Posting := SummaryKey × SummaryDelta

def postAll (summaries : Table MonthlySummary) (ps : List Posting) :
    Table MonthlySummary :=
  ps.foldl (fun t p => upsertSummary t p.1 p.2) summaries

@[simp] theorem postAll_nil (summaries : Table MonthlySummary) :
    postAll summaries [] = summaries := rfl

@[simp] theorem postAll_cons (summaries : Table MonthlySummary) (p : Posting)
    (ps : List Posting) :
    postAll summaries (p :: ps) = postAll (upsertSummary summaries p.1 p.2) ps := rfl

theorem postAll_append (summaries : Table MonthlySummary) (ps qs : List Posting) :
    postAll summaries (ps ++ qs) = postAll (postAll summaries ps) qs :=
  List.foldl_append ..

theorem summaryCents_postAll (summaries : Table MonthlySummary) (ps : List Posting)
    (k : SummaryKey) (b : Bucket) :
    summaryCents (postAll summaries ps) k b =
      summaryCents summaries k b + posted Prod.fst (fun p => p.2.cents b) ps k := by
  induction ps generalizing summaries with
  | nil => simp
  | cons p ps ih =>
      rw [postAll_cons, ih, summaryCents_upsertSummary, posted_cons, add_assoc]

/-- A summary that nothing is posted to is the row it was. -/
theorem find?_postAll {ps : List Posting} {k : SummaryKey}
    (h : ∀ p ∈ ps, p.1 ≠ k) (summaries : Table MonthlySummary) :
    (postAll summaries ps).find? k = summaries.find? k := by
  induction ps generalizing summaries with
  | nil => rfl
  | cons p ps ih =>
      rw [postAll_cons, ih (fun q hq => h q (List.mem_cons_of_mem _ hq)),
        find?_upsertSummary, if_neg (h p List.mem_cons_self)]

def bumpSummary (tenantId membershipId : Uuid) (month : String) (level : Nat)
    (delta : SummaryDelta) : Tx PUnit := do
  let db ← readDb
  writeDb
    { db with
      summaries := upsertSummary db.summaries ⟨tenantId, membershipId, month, level⟩ delta }

/-! ## Shared statements -/

def findTenant (tenantId : Uuid) : Tx Tenant := do
  let db ← readDb
  orThrow (db.registry.tenants.find? tenantId) .recordNotFound

def setStatus (status : LedgerStatus) (r : LedgerEntry) : LedgerEntry :=
  { r with status := status }

theorem setStatus_keepsIndexes (status : LedgerStatus) :
    KeepsIndexes (setStatus status) :=
  ⟨fun _ => rfl, fun _ _ h => h, fun _ _ h => h⟩

/-! ## Period locks -/

/-- The first lock on one of the periods. -/
def lockedPeriod (registry : Registry) (tenantId : Uuid) (periods : List String) :
    Option PeriodLock :=
  registry.periodLocks.rows.find? (fun l => l.tenantId = tenantId ∧ l.period ∈ periods)

def assertPeriodsOpen (tenantId : Uuid) (periods : List String) : Tx PUnit := do
  let db ← readDb
  match lockedPeriod db.registry tenantId periods with
  | some lock => throw (.conflict s!"period is locked: {lock.period}")
  | none => pure ⟨⟩

theorem commits_assertPeriodsOpen (tenantId : Uuid) (periods : List String)
    (s s' : Session) (u : PUnit) :
    Commits (assertPeriodsOpen tenantId periods) s u s' ↔
      lockedPeriod s.db.registry tenantId periods = none ∧ s = s' := by
  unfold assertPeriodsOpen
  simp only [commits_bind, commits_readDb]
  constructor
  · rintro ⟨_, _, ⟨rfl, rfl⟩, h⟩
    split at h
    · simp at h
    · next hopen => exact ⟨hopen, by simpa using h⟩
  · rintro ⟨hopen, rfl⟩
    exact ⟨_, _, ⟨rfl, rfl⟩, by simp [hopen]⟩

theorem lockedPeriod_eq_none {registry : Registry} {tenantId : Uuid}
    {periods : List String} :
    lockedPeriod registry tenantId periods = none ↔
      ∀ l ∈ registry.periodLocks, l.tenantId = tenantId → l.period ∉ periods := by
  simp [lockedPeriod, Table.mem_def]

/-! ## Inserts -/

def createLedgerEntry (row : Uuid → LedgerEntry) : Tx LedgerEntry := do
  let id ← genRandomUuid
  let db ← readDb
  let ledger ← orThrow (db.ledger.insert? (row id)) (.uniqueViolation "ledger_entries")
  writeDb { db with ledger := ledger }
  pure (row id)

def createPayout (row : Uuid → Payout) : Tx Payout := do
  let id ← genRandomUuid
  let db ← readDb
  require (0 ≤ (row id).totalCents) (.checkViolation "chk_payout_total")
  let payouts ← orThrow (db.payouts.insert? (row id)) (.uniqueViolation "payouts")
  writeDb { db with payouts := payouts }
  pure (row id)

def createBatch (row : Uuid → PayoutSettlementBatch) : Tx PayoutSettlementBatch := do
  let id ← genRandomUuid
  let db ← readDb
  let batches ← orThrow (db.batches.insert? (row id))
    (.uniqueViolation "payout_settlement_batches")
  writeDb { db with batches := batches }
  pure (row id)

def createBatchItem (row : Uuid → PayoutSettlementBatchItem) : Tx PUnit := do
  let id ← genRandomUuid
  let db ← readDb
  let items ← orThrow (db.items.insert? (row id))
    (.uniqueViolation "payout_settlement_batch_items")
  writeDb { db with items := items }

def createNotification (tenantId recipientMembershipId : Uuid) (template : String)
    (payload : Json) : Tx PUnit := do
  let db ← readDb
  writeDb
    { db with
      notifications :=
        db.notifications ++ [⟨tenantId, recipientMembershipId, template, payload⟩] }

def audit (tenantId : Uuid) (actorUserId : Option Uuid) (action : String)
    (entityId : Uuid) (before after : Json) : Tx PUnit := do
  let db ← readDb
  writeDb
    { db with
      auditLogs := db.auditLogs ++ [⟨tenantId, actorUserId, action, entityId, before, after⟩] }

/-! ## What a committed statement has done -/

theorem commits_bumpSummary (tenantId membershipId : Uuid) (month : String)
    (level : Nat) (delta : SummaryDelta) (s s' : Session) (u : PUnit) :
    Commits (bumpSummary tenantId membershipId month level delta) s u s' ↔
      s' =
        { s with
          db :=
            { s.db with
              summaries :=
                upsertSummary s.db.summaries ⟨tenantId, membershipId, month, level⟩ delta } } := by
  unfold bumpSummary
  simp only [commits_bind, commits_readDb, commits_writeDb]
  constructor
  · rintro ⟨_, _, ⟨rfl, rfl⟩, rfl⟩
    rfl
  · rintro rfl
    exact ⟨_, _, ⟨rfl, rfl⟩, rfl⟩

theorem commits_createNotification (tenantId recipient : Uuid) (template : String)
    (payload : Json) (s s' : Session) (u : PUnit) :
    Commits (createNotification tenantId recipient template payload) s u s' ↔
      s' =
        { s with
          db :=
            { s.db with
              notifications :=
                s.db.notifications ++ [⟨tenantId, recipient, template, payload⟩] } } := by
  unfold createNotification
  simp only [commits_bind, commits_readDb, commits_writeDb]
  constructor
  · rintro ⟨_, _, ⟨rfl, rfl⟩, rfl⟩
    rfl
  · rintro rfl
    exact ⟨_, _, ⟨rfl, rfl⟩, rfl⟩

theorem commits_audit (tenantId : Uuid) (actorUserId : Option Uuid) (action : String)
    (entityId : Uuid) (before after : Json) (s s' : Session) (u : PUnit) :
    Commits (audit tenantId actorUserId action entityId before after) s u s' ↔
      s' =
        { s with
          db :=
            { s.db with
              auditLogs :=
                s.db.auditLogs ++
                  [⟨tenantId, actorUserId, action, entityId, before, after⟩] } } := by
  unfold audit
  simp only [commits_bind, commits_readDb, commits_writeDb]
  constructor
  · rintro ⟨_, _, ⟨rfl, rfl⟩, rfl⟩
    rfl
  · rintro rfl
    exact ⟨_, _, ⟨rfl, rfl⟩, rfl⟩

theorem commits_createLedgerEntry (row : Uuid → LedgerEntry) (s s' : Session)
    (r : LedgerEntry) :
    Commits (createLedgerEntry row) s r s' ↔
      ∃ ledger, s.db.ledger.insert? (row (s.uuids 0)) = some ledger ∧
        r = row (s.uuids 0) ∧
        s' = ⟨{ s.db with ledger := ledger }, fun n => s.uuids (n + 1)⟩ := by
  unfold createLedgerEntry
  simp only [commits_bind, commits_genRandomUuid, commits_readDb, commits_orThrow,
    commits_writeDb, commits_pure]
  constructor
  · rintro ⟨_, _, ⟨rfl, rfl⟩, _, _, ⟨rfl, rfl⟩, ledger, _, ⟨hins, rfl⟩, _, _, rfl, rfl, rfl⟩
    exact ⟨ledger, hins, rfl, rfl⟩
  · rintro ⟨ledger, hins, rfl, rfl⟩
    exact ⟨_, _, ⟨rfl, rfl⟩, _, _, ⟨rfl, rfl⟩, ledger, _, ⟨hins, rfl⟩, ⟨⟩, _, rfl, rfl, rfl⟩

theorem commits_createPayout (row : Uuid → Payout) (s s' : Session) (p : Payout) :
    Commits (createPayout row) s p s' ↔
      0 ≤ (row (s.uuids 0)).totalCents ∧
      ∃ payouts, s.db.payouts.insert? (row (s.uuids 0)) = some payouts ∧
        p = row (s.uuids 0) ∧
        s' = ⟨{ s.db with payouts := payouts }, fun n => s.uuids (n + 1)⟩ := by
  unfold createPayout
  simp only [commits_bind, commits_genRandomUuid, commits_readDb, commits_orThrow,
    commits_require, commits_writeDb, commits_pure]
  constructor
  · rintro ⟨_, _, ⟨rfl, rfl⟩, _, _, ⟨rfl, rfl⟩, _, _, ⟨hpos, rfl⟩, payouts, _,
      ⟨hins, rfl⟩, _, _, rfl, rfl, rfl⟩
    exact ⟨hpos, payouts, hins, rfl, rfl⟩
  · rintro ⟨hpos, payouts, hins, rfl, rfl⟩
    exact ⟨_, _, ⟨rfl, rfl⟩, _, _, ⟨rfl, rfl⟩, ⟨⟩, _, ⟨hpos, rfl⟩, payouts, _,
      ⟨hins, rfl⟩, ⟨⟩, _, rfl, rfl, rfl⟩

theorem commits_createBatch (row : Uuid → PayoutSettlementBatch) (s s' : Session)
    (b : PayoutSettlementBatch) :
    Commits (createBatch row) s b s' ↔
      ∃ batches, s.db.batches.insert? (row (s.uuids 0)) = some batches ∧
        b = row (s.uuids 0) ∧
        s' = ⟨{ s.db with batches := batches }, fun n => s.uuids (n + 1)⟩ := by
  unfold createBatch
  simp only [commits_bind, commits_genRandomUuid, commits_readDb, commits_orThrow,
    commits_writeDb, commits_pure]
  constructor
  · rintro ⟨_, _, ⟨rfl, rfl⟩, _, _, ⟨rfl, rfl⟩, batches, _, ⟨hins, rfl⟩, _, _, rfl, rfl, rfl⟩
    exact ⟨batches, hins, rfl, rfl⟩
  · rintro ⟨batches, hins, rfl, rfl⟩
    exact ⟨_, _, ⟨rfl, rfl⟩, _, _, ⟨rfl, rfl⟩, batches, _, ⟨hins, rfl⟩, ⟨⟩, _, rfl, rfl, rfl⟩

theorem commits_createBatchItem (row : Uuid → PayoutSettlementBatchItem)
    (s s' : Session) (u : PUnit) :
    Commits (createBatchItem row) s u s' ↔
      ∃ items, s.db.items.insert? (row (s.uuids 0)) = some items ∧
        s' = ⟨{ s.db with items := items }, fun n => s.uuids (n + 1)⟩ := by
  unfold createBatchItem
  simp only [commits_bind, commits_genRandomUuid, commits_readDb, commits_orThrow,
    commits_writeDb]
  constructor
  · rintro ⟨_, _, ⟨rfl, rfl⟩, _, _, ⟨rfl, rfl⟩, items, _, ⟨hins, rfl⟩, rfl⟩
    exact ⟨items, hins, rfl⟩
  · rintro ⟨items, hins, rfl⟩
    exact ⟨_, _, ⟨rfl, rfl⟩, _, _, ⟨rfl, rfl⟩, items, _, ⟨hins, rfl⟩, rfl⟩

/-! ## Fresh identifiers -/

/-- The next `count` identifiers that `gen_random_uuid()` returns differ from each other
and from every identifier in use. -/
structure FreshUuids (db : Db) (uuids : Nat → Uuid) (count : Nat) : Prop where
  distinct : ∀ i < count, ∀ j < count, uuids i = uuids j → i = j
  ledger : ∀ i < count, ∀ r ∈ db.ledger, r.id ≠ uuids i
  payouts : ∀ i < count, ∀ p ∈ db.payouts, p.id ≠ uuids i
  batches : ∀ i < count, ∀ b ∈ db.batches, b.id ≠ uuids i
  items : ∀ i < count, ∀ item ∈ db.items, item.id ≠ uuids i

instance (db : Db) (uuids : Nat → Uuid) (count : Nat) : Decidable (FreshUuids db uuids count) :=
  decidable_of_iff
    ((∀ i < count, ∀ j < count, uuids i = uuids j → i = j) ∧
      (∀ i < count, ∀ r ∈ db.ledger, r.id ≠ uuids i) ∧
      (∀ i < count, ∀ p ∈ db.payouts, p.id ≠ uuids i) ∧
      (∀ i < count, ∀ b ∈ db.batches, b.id ≠ uuids i) ∧
      ∀ i < count, ∀ item ∈ db.items, item.id ≠ uuids i)
    ⟨fun ⟨h₁, h₂, h₃, h₄, h₅⟩ => ⟨h₁, h₂, h₃, h₄, h₅⟩,
      fun ⟨h₁, h₂, h₃, h₄, h₅⟩ => ⟨h₁, h₂, h₃, h₄, h₅⟩⟩

end Refearn.Engine
