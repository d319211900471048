import Refearn.Engine.Proofs.Persistence
/-!
# Failing a batch undoes its reservation

A reservation posts what its batch items say, and failing the batch posts the same
amounts back, since the items of a batch never change. A batch that has been handed
off stays so, and its rows stay with it.
-/

namespace Refearn.Engine

open Support Support.Transaction Payouts

/-! ## What a batch moves -/

/-- The amounts of the items of a batch, per summary. -/
def batchCents (tenantId batchId : Uuid) (db : Db) (k : SummaryKey) : Int :=
  posted (itemSummary tenantId) PayoutSettlementBatchItem.amountCents (itemsOf db batchId) k

/-- A row that is linked to the batch is released from it. -/
def releaseOf (batchId : Uuid) (r : LedgerEntry) : LedgerEntry :=
  if r.payoutBatchId = some batchId then release r else r

theorem releaseOf_of_ne {batchId : Uuid} {r : LedgerEntry}
    (h : r.payoutBatchId ≠ some batchId) : releaseOf batchId r = r := if_neg h

/-- A release takes a claim back. -/
theorem release_claim {r : LedgerEntry} (hstatus : r.status = .payable)
    (hpayout : r.payoutId = none) (hlink : r.payoutBatchId = none) (payoutId batchId : Uuid) :
    release (claim payoutId batchId r) = r := by
  cases r
  simp only [release, claim] at *
  rw [hstatus, hpayout, hlink]

theorem failDelta_eq_neg (x : Int) (b : Bucket) :
    (failDelta x).cents b = -(reserveDelta x).cents b := by
  cases b <;> simp [failDelta, reserveDelta, SummaryDelta.cents]

/-! ## Reserving -/

theorem MembersReserved.releaseOf_eq {params : ReserveParams} {batchId : Uuid}
    {now : Instant} {rs : List PayoutReservation} {processing : List ProcessingPayout}
    {db db' : Db} (h : MembersReserved params batchId now rs processing db db') :
    db'.ledger.rows.map (releaseOf batchId) = db.ledger.rows.map (releaseOf batchId) := by
  induction h with
  | nil db => rfl
  | cons hone _ ih =>
      rw [ih, hone.ledger, List.map_map]
      refine List.map_congr_left fun r _ => ?_
      simp only [Function.comp]
      split_ifs with hclaim
      · simp only [isClaimable, Bool.and_eq_true, decide_eq_true_eq,
          Option.isNone_iff_eq_none] at hclaim
        obtain ⟨⟨⟨-, hstatus⟩, hpayout⟩, hlink⟩ := hclaim
        have hfree : r.payoutBatchId ≠ some batchId := by
          rw [hlink]
          exact (Option.some_ne_none _).symm
        calc releaseOf batchId (claim _ batchId r)
            = release (claim _ batchId r) := if_pos rfl
          _ = r := release_claim hstatus hpayout hlink _ _
          _ = releaseOf batchId r := (releaseOf_of_ne hfree).symm
      · rfl

/-- No row is linked to a batch that does not exist. -/
theorem BatchSound.not_linked {db : Db} (h : BatchSound db) {batchId : Uuid}
    (hfresh : ∀ b ∈ db.batches, b.id ≠ batchId) {r : LedgerEntry} (hr : r ∈ db.ledger) :
    r.payoutBatchId ≠ some batchId := by
  intro hlink
  by_cases hheld : isHeld r
  · obtain ⟨i, -, b, hb, hid, -, -, hm⟩ := h.held r hr hheld
    exact hfresh b hb (hid.trans (Option.some.inj (hm.batch.symm.trans hlink)))
  · rw [(h.free r hr hheld).2] at hlink
    cases hlink

namespace BatchReserved

variable {params : ReserveParams} {now : Instant} {selection : Selection} {batchId : Uuid}
  {processing : List ProcessingPayout} {db db' : Db}

/-- Releasing the rows of the new batch gives back the rows there were. -/
theorem rows_released (h : BatchReserved params now selection batchId processing db db')
    (hbatch : BatchSound db) :
    db.ledger.rows = db'.ledger.rows.map (releaseOf batchId) := by
  obtain ⟨mid, mid', hmembers, -, -, hledger, -, -, -, -, -, hledger', -, -⟩ := h.members
  rw [hledger', hmembers.releaseOf_eq, hledger]
  symm
  refine (List.map_congr_left fun r hr => ?_).trans (List.map_id _)
  exact releaseOf_of_ne (hbatch.not_linked h.fresh hr)

/-- The items of the new batch are the moves of the reservation. -/
theorem itemsOf_moves (h : BatchReserved params now selection batchId processing db db')
    (hbatch : BatchSound db) :
    (itemsOf db' batchId).map (fun i => (itemSummary params.tenantId i, i.amountCents)) =
      (reservedMoves selection.reservations).map
        (fun m => (reservedKey params.tenantId m, m.2.amountCents)) := by
  obtain ⟨mid, mid', hmembers, -, -, -, -, hitems, -, -, -, -, -, hitems'⟩ := h.members
  obtain ⟨news, hrows, hnews, hmoves⟩ := hmembers.items_eq
  have hold : db.items.rows.filter (fun i => i.batchId = batchId) = [] := by
    refine List.filter_eq_nil_iff.mpr fun i hi => ?_
    obtain ⟨b, hb, hid, -⟩ := hbatch.item i hi
    simpa using fun heq => h.fresh b hb (hid.trans heq)
  have hnew : news.filter (fun i => i.batchId = batchId) = news :=
    List.filter_eq_self.mpr fun i hi => by simpa using hnews i hi
  rw [itemsOf, hitems', hrows, hitems, List.filter_append, hold, hnew, List.nil_append, hmoves]

/-- The summaries move by the items of the new batch. -/
theorem summaryCents_eq (h : BatchReserved params now selection batchId processing db db')
    (hbatch : BatchSound db) (k : SummaryKey) (bucket : Bucket) :
    summaryCents db'.summaries k bucket = summaryCents db.summaries k bucket +
      (reserveDelta (batchCents params.tenantId batchId db' k)).cents bucket := by
  have hcents : batchCents params.tenantId batchId db' k =
      posted (reservedKey params.tenantId) (fun m => m.2.amountCents)
        (reservedMoves selection.reservations) k := by
    have hposted := congrArg (fun xs => posted Prod.fst Prod.snd xs k)
      (h.itemsOf_moves hbatch)
    simp only [posted_map] at hposted
    exact hposted
  rw [h.summaries, summaryCents_postAll, reservedTotals, posted_totals reserveDelta_additive,
    posted_delta reserveDelta_additive, hcents]

end BatchReserved

/-! ## Closing -/

/-- Joined with data that it agrees with, a list posts what it posted. -/
theorem posted_filterMap {α β : Type} {f : α → Option β} {key : β → SummaryKey}
    {amount : β → Int} {key' : α → SummaryKey} {amount' : α → Int} {xs : List α}
    (h : ∀ x ∈ xs, ∃ y, f x = some y ∧ key y = key' x ∧ amount y = amount' x)
    (k : SummaryKey) : posted key amount (xs.filterMap f) k = posted key' amount' xs k := by
  induction xs with
  | nil => rfl
  | cons x xs ih =>
      obtain ⟨y, hf, hkey, hamount⟩ := h x List.mem_cons_self
      rw [List.filterMap_cons_some hf, posted_cons, posted_cons, hkey, hamount,
        ih fun z hz => h z (List.mem_cons_of_mem _ hz)]

namespace BatchClosed

variable {b : PayoutSettlementBatch} {row : LedgerEntry → LedgerEntry}
  {payout : Payout → Payout} {batch : PayoutSettlementBatch → PayoutSettlementBatch}
  {delta : Int → SummaryDelta} {db db' : Db}

/-- The summaries move by the items of the closed batch. -/
theorem summaryCents_eq (h : BatchClosed b row payout batch delta db db')
    (hadd : Additive delta) (hbatch : BatchSound db) (hb : b ∈ db.batches)
    (hstatus : b.status ≠ .failed) (k : SummaryKey) (bucket : Bucket) :
    summaryCents db'.summaries k bucket = summaryCents db.summaries k bucket +
      (delta (batchCents b.tenantId b.id db k)).cents bucket := by
  have hcents : posted (itemKey b.tenantId) BatchItemRow.amountCents
      (lockPayoutBatchItems db b.id) k = batchCents b.tenantId b.id db k := by
    have hjoin : ∀ i ∈ (itemsOf db b.id).insertionSort byLedgerEntry, ∃ x,
        joinItem db i = some x ∧ itemKey b.tenantId x = itemSummary b.tenantId i ∧
          x.amountCents = i.amountCents := by
      intro i hi
      rw [List.mem_insertionSort, itemsOf, List.mem_filter, decide_eq_true_eq] at hi
      obtain ⟨b', hb', hid, hrows⟩ := hbatch.item i hi.1
      have heq : b' = b := Table.eq_of_key hb' hb (hid.trans hi.2)
      subst heq
      obtain ⟨status, hheld⟩ := exists_heldStatus hstatus
      obtain ⟨r, hr, -, -, hm⟩ := hrows status hheld
      have hfind : db.ledger.find? i.ledgerEntryId = some r :=
        Table.find?_eq_some.mpr ⟨hr, hm.entry.symm⟩
      exact ⟨_, by rw [joinItem, hfind]; rfl, rfl, rfl⟩
    calc posted (itemKey b.tenantId) BatchItemRow.amountCents (lockPayoutBatchItems db b.id) k
        = posted (itemSummary b.tenantId) PayoutSettlementBatchItem.amountCents
            ((itemsOf db b.id).insertionSort byLedgerEntry) k := posted_filterMap hjoin k
      _ = batchCents b.tenantId b.id db k :=
          posted_perm _ _ (List.perm_insertionSort byLedgerEntry _) k
  rw [h.summaries, summaryCents_postAll, posted_totals hadd, posted_delta hadd, hcents]

end BatchClosed

/-- The rows linked to a batch that holds rows are the rows of its items. -/
theorem BatchSound.linked_iff {db : Db} (h : BatchSound db) {b : PayoutSettlementBatch}
    (hb : b ∈ db.batches) (hstatus : b.status ≠ .failed) (id : Uuid) :
    (∃ r ∈ db.ledger, r.id = id ∧ r.payoutBatchId = some b.id) ↔
      ∃ i ∈ itemsOf db b.id, i.ledgerEntryId = id := by
  simp only [itemsOf, List.mem_filter, decide_eq_true_eq]
  constructor
  · rintro ⟨r, hr, rfl, hlink⟩
    have hheld : isHeld r := by
      by_contra hfree
      rw [(h.free r hr hfree).2] at hlink
      cases hlink
    obtain ⟨i, hi, -, -, -, -, -, hm⟩ := h.held r hr hheld
    exact ⟨i, ⟨hi, Option.some.inj (hm.batch.symm.trans hlink)⟩, hm.entry⟩
  · rintro ⟨i, ⟨hi, hid⟩, rfl⟩
    obtain ⟨b', hb', hid', hrows⟩ := h.item i hi
    obtain ⟨status, hheld⟩ := exists_heldStatus hstatus
    obtain ⟨r, hr, -, -, hm⟩ := hrows status
      (by rw [Table.eq_of_key hb' hb (hid'.trans hid)]; exact hheld)
    exact ⟨r, hr, hm.entry.symm, h.linked hr hi hm.entry hb hid hstatus⟩

/-- Failing a batch releases the rows linked to it. -/
theorem BatchClosed.rows_released {b : PayoutSettlementBatch} {payout : Payout → Payout}
    {batch : PayoutSettlementBatch → PayoutSettlementBatch} {delta : Int → SummaryDelta}
    {db db' : Db} (h : BatchClosed b release payout batch delta db db')
    (hbatch : BatchSound db) (hb : b ∈ db.batches) (hstatus : b.status = .processing) :
    db'.ledger.rows = db.ledger.rows.map (releaseOf b.id) := by
  rw [h.rows_eq hbatch]
  refine List.map_congr_left fun r hr => ?_
  unfold closeRow releaseOf
  refine if_congr ⟨And.right, fun hlink => ⟨?_, hlink⟩⟩ rfl rfl
  have hheld : isHeld r := by
    by_contra hfree
    rw [(hbatch.free r hr hfree).2] at hlink
    cases hlink
  obtain ⟨i, -, b', hb', hid, -, hst, hm⟩ := hbatch.held r hr hheld
  have hsame : i.batchId = b.id := Option.some.inj (hm.batch.symm.trans hlink)
  rw [Table.eq_of_key hb' hb (hid.trans hsame), hstatus] at hst
  exact (Option.some.inj hst).symm

/-! ## A batch over a run -/

/-- The batch exists, in a status of `P`, with these items. -/
def BatchIn (P : BatchStatus → Prop) (batchId tenantId : Uuid)
    (items : List PayoutSettlementBatchItem) (db : Db) : Prop :=
  ∃ b ∈ db.batches, b.id = batchId ∧ b.tenantId = tenantId ∧ P b.status ∧
    itemsOf db batchId = items

theorem BatchIn.of_mem {P : BatchStatus → Prop} {db : Db} {b : PayoutSettlementBatch}
    (hb : b ∈ db.batches) (hP : P b.status) :
    BatchIn P b.id b.tenantId (itemsOf db b.id) db :=
  ⟨b, hb, rfl, rfl, hP, rfl⟩

/-- A run of actions that do not move the batch out of `P` keeps it there. -/
theorem BatchIn.run {env : Env} {P : BatchStatus → Prop} {batchId tenantId : Uuid}
    {items : List PayoutSettlementBatchItem} {db : Db} {steps : List Step}
    (hreach : ReachableDb env db) (h : BatchIn P batchId tenantId items db)
    (hP : ∀ step ∈ steps, ∀ b b' : PayoutSettlementBatch, b.id = batchId →
      BatchMoved step.action b b' → P b.status → P b'.status) :
    BatchIn P batchId tenantId items (Support.run (Step.apply env) steps db) := by
  have hstep : ∀ (step : Step) (db : Db), ReachableDb env db →
      (∀ b b' : PayoutSettlementBatch, b.id = batchId → BatchMoved step.action b b' →
        P b.status → P b'.status) →
      BatchIn P batchId tenantId items db →
      BatchIn P batchId tenantId items (step.apply env db) := by
    rintro step db hreach hmove ⟨b, hb, rfl, rfl, hst, hitems⟩
    have hkept : Kept step.action db (step.apply env db) :=
      step.kept (reachable_good hreach).sound.batch
    obtain ⟨b', hb', hmoved⟩ := hkept.batches b hb
    exact ⟨b', hb', hmoved.id_eq, hmoved.tenant_eq, hmove b b' rfl hmoved hst,
      (hkept.items b hb).trans hitems⟩
  exact run_invariant hstep hreach
    (fun pre step post heq => hP step (by rw [heq]; simp)) h

/-- The action dispatches or settles the batch. -/
def Action.handsOff (batchId : Uuid) : Action → Bool
  | .dispatchPayoutBatch _ params => params.batchId = batchId
  | .settlePayoutBatch _ params => params.batchId = batchId
  | _ => false

/-- The action fails the batch. -/
def Action.fails (batchId : Uuid) : Action → Bool
  | .failPayoutBatch _ params => params.batchId = batchId
  | _ => false

def isReleasable (st : BatchStatus) : Prop := st = .processing ∨ st = .failed

def isHandedOff (st : BatchStatus) : Prop := st = .dispatched ∨ st = .settled

section Moves

variable {action : Action} {b b' : PayoutSettlementBatch} (h : BatchMoved action b b')
include h

theorem BatchMoved.releasable (hkeep : action.handsOff b.id = false)
    (hst : isReleasable b.status) : isReleasable b'.status := by
  cases h with
  | same => exact hst
  | dispatched haction hbatch => simp [haction, Action.handsOff, hbatch] at hkeep
  | settled haction hbatch => simp [haction, Action.handsOff, hbatch] at hkeep
  | failed _ _ _ hto => exact .inr hto

theorem BatchMoved.processing (hkeep : action.handsOff b.id = false)
    (hfails : action.fails b.id = false) (hst : b.status = .processing) :
    b'.status = .processing := by
  cases h with
  | same => exact hst
  | dispatched haction hbatch => simp [haction, Action.handsOff, hbatch] at hkeep
  | settled haction hbatch => simp [haction, Action.handsOff, hbatch] at hkeep
  | failed haction hbatch => simp [haction, Action.fails, hbatch] at hfails

theorem BatchMoved.failed_of_failed (hst : b.status = .failed) : b'.status = .failed := by
  cases h with
  | same => exact hst
  | dispatched _ _ hfrom => rw [hst] at hfrom; cases hfrom
  | settled _ _ hfrom => rw [hst] at hfrom; cases hfrom
  | failed _ _ hfrom => rw [hst] at hfrom; cases hfrom

theorem BatchMoved.handedOff (hst : isHandedOff b.status) : isHandedOff b'.status := by
  cases h with
  | same => exact hst
  | dispatched _ _ _ hto => exact .inl hto
  | settled _ _ _ hto => exact .inr hto
  | failed _ _ hfrom =>
      rcases hst with hst | hst <;> rw [hst] at hfrom <;> cases hfrom

end Moves

/-! ## Failing goes through -/

theorem exists_commits_postTotals (delta : Int → SummaryDelta)
    (totals : List (SummaryKey × Int)) (s : Session) :
    ∃ s', Commits (postTotals delta totals) s ⟨⟩ s' :=
  exists_commits_forM (fun _ t => ⟨_, (commits_bumpSummary _ _ _ _ _ t _ _).mpr rfl⟩) totals s

theorem exists_commits_auditPayouts (tenantId : Uuid) (actorUserId : Option Uuid)
    (action : String) (payouts : List Payout) (after : Json) (s : Session) :
    ∃ s', Commits (auditPayouts tenantId actorUserId action payouts after) s ⟨⟩ s' :=
  exists_commits_forM (fun _ t => ⟨_, (commits_audit _ _ _ _ _ _ t _ _).mpr rfl⟩) payouts s

theorem exists_commits_updateHeldRows {batchId : Uuid} {items : List BatchItemRow}
    {s : Session} (f : LedgerEntry → LedgerEntry) (hf : KeepsIndexes f) (changed : String)
    (hcount : s.db.ledger.rows.countP (isHeldBy batchId items) = items.length) :
    ∃ s', Commits (updateHeldRows batchId items f hf changed) s ⟨⟩ s' ∧
      s'.db.payouts = s.db.payouts := by
  unfold updateHeldRows
  simp only [commits_bind, commits_readDb, commits_writeDb, commits_require]
  exact ⟨_, ⟨_, _, ⟨rfl, rfl⟩, ⟨⟩, _, rfl, hcount, rfl⟩, rfl⟩

theorem exists_commits_updatePayouts {batchId : Uuid} {payouts : List Payout} {s : Session}
    (f : Payout → Payout) (hf : KeepsIndexes f) (changed : String)
    (hcount : s.db.payouts.rows.countP (isProcessingOf batchId payouts) = payouts.length) :
    ∃ s', Commits (updatePayouts batchId payouts f hf changed) s ⟨⟩ s' := by
  unfold updatePayouts
  simp only [commits_bind, commits_readDb, commits_writeDb, commits_require]
  exact ⟨_, _, _, ⟨rfl, rfl⟩, ⟨⟩, _, rfl, hcount, rfl⟩

/-- The processing rows of a batch are as many as its items. -/
theorem countP_isHeldBy {db : Db} (hsound : Sound db) {b : PayoutSettlementBatch}
    (hb : b ∈ db.batches) (hstatus : b.status = .processing) :
    db.ledger.rows.countP (isHeldBy b.id (lockPayoutBatchItems db b.id)) =
      (lockPayoutBatchItems db b.id).length := by
  have hnodup : ((db.ledger.rows.filter
      (isHeldBy b.id (lockPayoutBatchItems db b.id))).map LedgerEntry.id).Nodup :=
    (List.filter_sublist.map _).nodup db.ledger.keys_nodup
  have hperm : ((db.ledger.rows.filter
      (isHeldBy b.id (lockPayoutBatchItems db b.id))).map LedgerEntry.id).Perm
        ((lockPayoutBatchItems db b.id).map BatchItemRow.id) := by
    rw [List.perm_ext_iff_of_nodup hnodup (nodup_lockPayoutBatchItems db b.id)]
    intro id
    simp only [List.mem_map, List.mem_filter]
    constructor
    · rintro ⟨r, ⟨-, hheld⟩, rfl⟩
      simp only [isHeldBy, Bool.and_eq_true, List.contains_eq_mem, decide_eq_true_eq,
        List.mem_map] at hheld
      exact hheld.1.1
    · rintro ⟨x, hx, rfl⟩
      obtain ⟨r, hr, hid, hst, hlink, -⟩ :=
        BatchClosed.item_row hsound hb (by rw [hstatus]; rfl) hx
      exact ⟨r, ⟨hr, (BatchClosed.isHeldBy_iff hsound.batch hr).mpr ⟨hst, hlink⟩⟩, hid⟩
  rw [List.countP_eq_length_filter]
  simpa using hperm.length_eq

/-- All payouts of a processing batch are processing. -/
theorem countP_isProcessingOf {db : Db} (hbatch : BatchSound db)
    {b : PayoutSettlementBatch} (hb : b ∈ db.batches) (hstatus : b.status = .processing)
    (order : Payout → Payout → Prop) [DecidableRel order] :
    db.payouts.rows.countP (isProcessingOf b.id (batchPayouts order db b.id)) =
      (batchPayouts order db b.id).length := by
  rw [length_batchPayouts]
  refine List.countP_congr fun p hp => ?_
  simp only [isProcessingOf, Bool.and_eq_true, List.contains_eq_mem, decide_eq_true_eq]
  constructor
  · rintro ⟨⟨-, hlink⟩, -⟩
    exact hlink
  · intro hlink
    refine ⟨⟨List.mem_map.mpr ⟨p, mem_batchPayouts.mpr ⟨hp, hlink⟩, rfl⟩, hlink⟩, ?_⟩
    obtain ⟨b', hb', hid, -, hst⟩ := hbatch.payout p hp b.id hlink
    rw [hst, Table.eq_of_key hb' hb hid, hstatus]
    rfl

theorem itemsIntact_of_processing {db : Db} (hsound : Sound db) {b : PayoutSettlementBatch}
    (hb : b ∈ db.batches) (hstatus : b.status = .processing) (hne : itemsOf db b.id ≠ []) :
    itemsIntact b.id (lockPayoutBatchItems db b.id) = true := by
  have hheld : heldStatus b.status = some .processing := by rw [hstatus]; rfl
  rw [itemsIntact, Bool.and_eq_true]
  constructor
  · obtain ⟨i, hi⟩ := List.exists_mem_of_ne_nil _ hne
    obtain ⟨r, hr, hid, hlink⟩ :=
      (hsound.batch.linked_iff hb (by simp [hstatus]) _).mpr ⟨i, hi, rfl⟩
    rw [itemsOf, List.mem_filter, decide_eq_true_eq] at hi
    have hmem := mem_lockPayoutBatchItems_of hi.1 hr hid
    rw [hi.2] at hmem
    cases hlocked : lockPayoutBatchItems db b.id with
    | nil => rw [hlocked] at hmem; cases hmem
    | cons x xs => rfl
  · rw [List.all_eq_true]
    intro x hx
    obtain ⟨i, -, -, r, hr, hid, rfl⟩ := mem_lockPayoutBatchItems hx
    obtain ⟨r', hr', hid', hst, hlink, -⟩ := BatchClosed.item_row hsound hb hheld hx
    have heq : r' = r := Table.eq_of_key hr' hr (hid'.trans hid.symm)
    subst heq
    simp [hst, hlink]

/-- A processing batch can be failed. -/
theorem exists_commits_failPayoutBatch (now : Instant) (params : FailParams) {db : Db}
    (hsound : Sound db) {b : PayoutSettlementBatch} (hb : b ∈ db.batches)
    (hstatus : b.status = .processing) (hne : itemsOf db b.id ≠ [])
    (hid : params.batchId = b.id) (htenant : params.tenantId = b.tenantId)
    (hreason : trim params.reason ≠ "") (uuids : Nat → Uuid) :
    ∃ result s', Commits (failPayoutBatch now params) ⟨db, uuids⟩ result s' ∧
      result.done = true := by
  have hpayouts : batchPayouts byPayoutId db b.id ≠ [] := by
    obtain ⟨i, hi⟩ := List.exists_mem_of_ne_nil _ hne
    rw [itemsOf, List.mem_filter, decide_eq_true_eq] at hi
    obtain ⟨p, hp, -, hlink, -⟩ := hsound.batch.itemPayout i hi.1
    exact List.ne_nil_of_mem (mem_batchPayouts.mpr ⟨hp, by rw [hlink, hi.2]⟩)
  obtain ⟨t₁, hheld, hkept⟩ := exists_commits_updateHeldRows (s := ⟨db, uuids⟩) release
    release_keepsIndexes "processing ledger rows changed while failing"
    (countP_isHeldBy hsound hb hstatus)
  obtain ⟨t₂, hfailed⟩ := exists_commits_updatePayouts (s := t₁)
    (failPayout now (trim params.reason)) (failPayout_keepsIndexes now (trim params.reason))
    "payout batch changed while failing"
    (by rw [hkept]; exact countP_isProcessingOf hsound.batch hb hstatus byPayoutId)
  obtain ⟨t₃, hpost⟩ := exists_commits_postTotals failDelta
    (groupTotals (itemKey params.tenantId) BatchItemRow.amountCents
      (lockPayoutBatchItems db b.id))
    { t₂ with
      db :=
        { t₂.db with
          batches := t₂.db.batches.updateKey b.id (markFailed now (trim params.reason))
            (markFailed_keepsIndexes now (trim params.reason)) } }
  obtain ⟨t₄, haudits⟩ := exists_commits_auditPayouts params.tenantId params.actorUserId
    "payout.failed" (batchPayouts byPayoutId db b.id)
    (.obj [("batchId", .str b.id.text), ("reason", .str (trim params.reason))]) t₃
  obtain ⟨t₅, haudit⟩ : ∃ t₅, Commits (audit params.tenantId params.actorUserId
      "payout_batch.failed" b.id (.obj [("status", .str "processing")])
      (.obj [("reason", .str (trim params.reason)),
        ("payoutCount", .num (batchPayouts byPayoutId db b.id).length),
        ("entryCount", .num (lockPayoutBatchItems db b.id).length)])) t₄ ⟨⟩ t₅ :=
    ⟨_, (commits_audit ..).mpr rfl⟩
  unfold failPayoutBatch
  simp only [commits_bind, commits_require, commits_findBatch, commits_readDb]
  refine ⟨⟨b.id, true, false, (batchPayouts byPayoutId db b.id).length⟩, t₅,
    ⟨⟨⟩, _, ⟨hreason, rfl⟩, b, _, ⟨⟨hb, hid.symm, htenant.symm⟩, rfl⟩, _, _, ⟨rfl, rfl⟩, ?_⟩, rfl⟩
  rw [if_neg (by simp [hstatus])]
  simp only [moveBatchSummary, commits_bind, commits_require, commits_updateBatch,
    commits_pure]
  exact ⟨⟨⟩, _, ⟨by simp [hstatus], rfl⟩, ⟨⟩, _, ⟨hstatus, rfl⟩, ⟨⟩, _,
    ⟨⟨hpayouts, itemsIntact_of_processing hsound hb hstatus hne⟩, rfl⟩, ⟨⟩, t₁, hheld, ⟨⟩, t₂,
    hfailed, ⟨⟩, _, rfl, ⟨⟩, t₃, hpost, ⟨⟩, t₄, haudits, ⟨⟩, t₅, haudit,
    trivial, rfl⟩

/-! ## The inverse -/

/-- A reservation of the business that commits the batch leads from `db` to `db'`. -/
def Reserves (env : Env) (tenantId batchId : Uuid) (db db' : Db) : Prop :=
  ∃ now params uuids result s', params.tenantId = tenantId ∧
    Commits (reservePayoutBatch env now params) ⟨db, uuids⟩ result s' ∧
    result.batchId = some batchId ∧ s'.db = db'

/-- A committed call of `failPayoutBatch` on the batch leads from `db` to `db'`. -/
def Fails (batchId : Uuid) (db : Db) (result : BatchResult) (db' : Db) : Prop :=
  ∃ now params uuids s', params.batchId = batchId ∧
    Commits (failPayoutBatch now params) ⟨db, uuids⟩ result s' ∧ s'.db = db'

/-- The ids of the rows linked to a batch. -/
def linkedRows (db : Db) (batchId : Uuid) : List Uuid :=
  (db.ledger.rows.filter (fun r => r.payoutBatchId = some batchId)).map LedgerEntry.id

/-- The step from `db₂` to `db₃` takes back what the step from `db₀` to `db₁` has done
for the batch. -/
structure Undone (batchId : Uuid) (db₀ db₁ db₂ db₃ : Db) : Prop where
  /-- The rows before the reservation are the released rows after it. -/
  reserved : db₀.ledger.rows = db₁.ledger.rows.map (releaseOf batchId)
  released : db₃.ledger.rows = db₂.ledger.rows.map (releaseOf batchId)
  /-- The released rows are the ones that were reserved. -/
  rows : ∀ id, id ∈ linkedRows db₂ batchId ↔ id ∈ linkedRows db₁ batchId
  summaries : ∀ k bucket,
    summaryCents db₃.summaries k bucket - summaryCents db₂.summaries k bucket =
      -(summaryCents db₁.summaries k bucket - summaryCents db₀.summaries k bucket)

theorem mem_linkedRows {db : Db} {batchId id : Uuid} :
    id ∈ linkedRows db batchId ↔
      ∃ r ∈ db.ledger, r.id = id ∧ r.payoutBatchId = some batchId := by
  simp only [linkedRows, List.mem_map, List.mem_filter, decide_eq_true_eq, Table.mem_def]
  exact ⟨fun ⟨r, ⟨hr, hlink⟩, hid⟩ => ⟨r, hr, hid, hlink⟩,
    fun ⟨r, hr, hid, hlink⟩ => ⟨r, ⟨hr, hlink⟩, hid⟩⟩

/-- A reservation that runs to a batch leads to what its step leaves. -/
theorem Reserves.of_run {env : Env} (now : Instant) (params : ReserveParams)
    (uuids : Nat → Uuid) {batchId : Uuid} {db : Db}
    (h : ((reservePayoutBatch env now params).run ⟨db, uuids⟩).toOption.any
      (fun r => r.1.batchId = some batchId) = true) :
    Reserves env params.tenantId batchId db
      (Step.apply env ⟨.reservePayoutBatch now params, uuids⟩ db) := by
  obtain ⟨result, hc, hid⟩ := exists_commits_of_run (p := fun r : ReserveResult => r.batchId = some batchId) h
  have hdone : Commits (transaction env (.reservePayoutBatch now params)) ⟨db, uuids⟩ ⟨⟩
      (commit (reservePayoutBatch env now params) ⟨db, uuids⟩) :=
    (commits_discard ..).mpr ⟨result, hc⟩
  exact ⟨now, params, uuids, result, _, rfl, hc, of_decide_eq_true hid,
    (Step.apply_of_commits hdone).symm⟩

/-- What a reservation that commits a batch has done. -/
theorem Reserves.reserved {env : Env} {tenantId batchId : Uuid} {db db' : Db}
    (h : Reserves env tenantId batchId db db') (hreach : ReachableDb env db) :
    ReachableDb env db' ∧ ∃ now params selection processing tenant targets evaluations,
      params.tenantId = tenantId ∧
      Selected env db now params selection tenant targets evaluations ∧
      selection.reservations ≠ [] ∧
      BatchReserved params now selection batchId processing db db' := by
  obtain ⟨now, params, uuids, result, s', htenant, hc, hid, rfl⟩ := h
  refine ⟨reachable_of_commits (.reservePayoutBatch now params) hreach
    ((commits_discard ..).mpr ⟨result, hc⟩), ?_⟩
  obtain ⟨selection, hselect, ⟨-, -, rfl⟩ | ⟨-, hne, b, processing, hreserved, rfl⟩⟩ :=
    commits_reservePayoutBatch hc
  · cases hid
  · cases hid
    obtain ⟨tenant, targets, evaluations, hselected⟩ := selectBatch_eq_ok.mp hselect
    exact ⟨now, params, selection, processing, tenant, targets, evaluations, htenant,
      hselected, hne, hreserved⟩

/-- The reserved batch is processing, and it has items. -/
theorem Reserves.batchIn {env : Env} {tenantId batchId : Uuid} {db db' : Db}
    (h : Reserves env tenantId batchId db db') (hreach : ReachableDb env db) :
    BatchIn (· = .processing) batchId tenantId (itemsOf db' batchId) db' ∧
      itemsOf db' batchId ≠ [] := by
  obtain ⟨-, now, params, selection, processing, tenant, targets, evaluations, rfl, hselected,
    hne, hreserved⟩ := h.reserved hreach
  constructor
  · refine ⟨newBatch params now batchId, ?_, rfl, rfl, rfl, rfl⟩
    rw [Table.mem_def, hreserved.batches]
    simp
  · obtain ⟨r, hr⟩ := List.exists_mem_of_ne_nil _ hne
    obtain ⟨row, hrow⟩ := List.exists_mem_of_ne_nil _ (hselected.eligible hr).nonempty
    have hmove : (r.membershipId, row) ∈ reservedMoves selection.reservations :=
      List.mem_flatMap.mpr ⟨r, hr, List.mem_map.mpr ⟨row, hrow, rfl⟩⟩
    intro hnil
    have hmoves := hreserved.itemsOf_moves (reachable_good hreach).sound.batch
    rw [hnil, List.map_nil] at hmoves
    rw [List.map_eq_nil_iff.mp hmoves.symm] at hmove
    cases hmove

/-- A committed failure has found the batch failed and changed nothing, or has released
it. -/
theorem Fails.cases {env : Env} {batchId : Uuid} {db db' : Db} {result : BatchResult}
    (h : Fails batchId db result db') (hreach : ReachableDb env db) :
    ReachableDb env db' ∧ ∃ b ∈ db.batches, b.id = batchId ∧
      ((db' = db ∧ b.status = .failed ∧ result.done = false) ∨
        (b.status = .processing ∧ result.done = true ∧ ∃ now reason,
          BatchClosed b release (failPayout now reason) (markFailed now reason) failDelta
            db db')) := by
  obtain ⟨now, params, uuids, s', rfl, hc, rfl⟩ := h
  refine ⟨reachable_of_commits (.failPayoutBatch now params) hreach
    ((commits_discard ..).mpr ⟨result, hc⟩), ?_⟩
  obtain ⟨b, hb, hid, -, ⟨rfl, hst, hdone⟩ | ⟨hst, hdone, hclosed⟩⟩ :=
    commits_failPayoutBatch hc
  · exact ⟨b, hb, hid, .inl ⟨rfl, hst, hdone⟩⟩
  · exact ⟨b, hb, hid, .inr ⟨hst, hdone, now, _, hclosed⟩⟩

/-- A batch that is failed stays so, and every further failure changes nothing. -/
theorem Fails.again {env : Env} {batchId tenantId : Uuid}
    {items : List PayoutSettlementBatchItem} {db db' : Db} {result : BatchResult}
    (hreach : ReachableDb env db) (hfailed : BatchIn (· = .failed) batchId tenantId items db)
    {steps : List Step}
    (h : Fails batchId (run (Step.apply env) steps db) result db') :
    result.done = false ∧ db' = run (Step.apply env) steps db := by
  obtain ⟨b, hb, hid, -, hst, -⟩ := hfailed.run hreach
    (fun step _ b b' _ hmoved hst => hmoved.failed_of_failed hst)
  obtain ⟨-, b', hb', hid', ⟨heq, -, hdone⟩ | ⟨hst', -⟩⟩ := h.cases (hreach.run steps)
  · exact ⟨hdone, heq⟩
  · rw [Table.eq_of_key hb' hb (hid'.trans hid.symm), hst] at hst'
    cases hst'

/-- The failure of a reserved batch, after any steps that leave its items alone. -/
theorem Reserves.undone {env : Env} {tenantId batchId : Uuid} {db₀ db₁ db₂ db₃ : Db}
    (h : Reserves env tenantId batchId db₀ db₁) (hreach : ReachableDb env db₀)
    (hreach₂ : ReachableDb env db₂)
    (hin : BatchIn isReleasable batchId tenantId (itemsOf db₁ batchId) db₂)
    {result : BatchResult} (hfails : Fails batchId db₂ result db₃) (hdone : result.done = true) :
    Undone batchId db₀ db₁ db₂ db₃ := by
  obtain ⟨⟨b₁, hb₁, hid₁, -, hst₁, -⟩, -⟩ := h.batchIn hreach
  obtain ⟨hreach₁, now, params, selection, processing, -, -, -, rfl, -, -, hreserved⟩ :=
    h.reserved hreach
  have hbatch₀ := (reachable_good hreach).sound.batch
  have hbatch₁ := (reachable_good hreach₁).sound.batch
  have hbatch₂ := (reachable_good hreach₂).sound.batch
  obtain ⟨b, hb, hid, htenant, -, hitems⟩ := hin
  obtain ⟨-, b', hb', hid', ⟨-, -, hnot⟩ | ⟨hst, -, at₀, reason, hclosed⟩⟩ :=
    hfails.cases hreach₂
  · rw [hnot] at hdone
    cases hdone
  · have heq : b' = b := Table.eq_of_key hb' hb (hid'.trans hid.symm)
    subst heq
    subst hid
    have hne : b'.status ≠ .failed := by simp [hst]
    have hne₁ : b₁.status ≠ .failed := by simp [hst₁]
    have hlinked₁ := fun id => hbatch₁.linked_iff hb₁ hne₁ id
    simp only [hid₁, ← hitems] at hlinked₁
    refine ⟨hreserved.rows_released hbatch₀, hclosed.rows_released hbatch₂ hb hst, ?_, ?_⟩
    · intro id
      rw [mem_linkedRows, mem_linkedRows, hlinked₁, hbatch₂.linked_iff hb hne]
    · intro k bucket
      have hcents : batchCents params.tenantId b'.id db₁ k =
          batchCents b'.tenantId b'.id db₂ k := by
        rw [batchCents, batchCents, hitems, htenant]
      rw [hreserved.summaryCents_eq hbatch₀,
        hclosed.summaryCents_eq failDelta_additive hbatch₂ hb hne, failDelta_eq_neg, hcents]
      omega

/-- A row of a handed-off batch stays on its way or paid. -/
theorem held_of_handedOff {db db' : Db} (hbatch : BatchSound db) (hbatch' : BatchSound db')
    {b : PayoutSettlementBatch} (hb : b ∈ db.batches) (hst : isHandedOff b.status)
    (hin : BatchIn isHandedOff b.id b.tenantId (itemsOf db b.id) db') {r : LedgerEntry}
    (hr : r ∈ db.ledger) (hlink : r.payoutBatchId = some b.id) :
    ∃ r' ∈ db'.ledger, r'.id = r.id ∧ r'.payoutBatchId = some b.id ∧ isHeld r' := by
  have hlive : ∀ st, isHandedOff st → st ≠ .failed := by
    rintro st (rfl | rfl) <;> simp
  obtain ⟨b', hb', hid, -, hst', hitems⟩ := hin
  obtain ⟨i, hi, hentry⟩ := (hbatch.linked_iff hb (hlive _ hst) _).mp ⟨r, hr, rfl, hlink⟩
  rw [← hitems, ← hid] at hi
  obtain ⟨r', hr', hid', hlink'⟩ :=
    (hbatch'.linked_iff hb' (hlive _ hst') _).mpr ⟨i, hi, rfl⟩
  refine ⟨r', hr', hid'.trans hentry, by rw [hlink', hid], ?_⟩
  by_contra hfree
  rw [(hbatch'.free r' hr' hfree).2] at hlink'
  cases hlink'

/-- Failing a batch is the inverse of reserving it. After any steps that do not hand it
off, the first failure with an effect gives back exactly its rows and posts the negated
amounts, and no later one has an effect; it goes through unless the batch was failed
before. A batch that has been handed off is never released. -/
theorem failPayoutBatch_undoes_reserve {env : Env} {db₀ : Db} (h : ReachableDb env db₀) :
    (∀ tenantId batchId db₁, Reserves env tenantId batchId db₀ db₁ →
      ∀ steps : List Step, (∀ step ∈ steps, step.action.handsOff batchId = false) →
        (∀ result db₃, Fails batchId (run (Step.apply env) steps db₁) result db₃ →
          (result.done = true →
            Undone batchId db₀ db₁ (run (Step.apply env) steps db₁) db₃) ∧
          (result.done = false → db₃ = run (Step.apply env) steps db₁) ∧
          ∀ (later : List Step) result' db₅,
            Fails batchId (run (Step.apply env) later db₃) result' db₅ →
              result'.done = false ∧ db₅ = run (Step.apply env) later db₃) ∧
        ((∀ step ∈ steps, step.action.fails batchId = false) →
          ∀ now reason actorUserId uuids, trim reason ≠ "" →
            ∃ result s', Commits (failPayoutBatch now ⟨tenantId, batchId, reason, actorUserId⟩)
              ⟨run (Step.apply env) steps db₁, uuids⟩ result s' ∧ result.done = true)) ∧
    ∀ b ∈ db₀.batches, b.status = .dispatched ∨ b.status = .settled → ∀ steps : List Step,
      (∀ result db₃, ¬Fails b.id (run (Step.apply env) steps db₀) result db₃) ∧
      ∀ r ∈ db₀.ledger, r.payoutBatchId = some b.id →
        ∃ r' ∈ (run (Step.apply env) steps db₀).ledger, r'.id = r.id ∧
          r'.payoutBatchId = some b.id ∧ (r'.status = .processing ∨ r'.status = .paid) := by
  constructor
  · intro tenantId batchId db₁ hreserves steps hsteps
    have hreach₁ := (hreserves.reserved h).1
    have hreach₂ : ReachableDb env (run (Step.apply env) steps db₁) := hreach₁.run steps
    obtain ⟨⟨b, hb, rfl, rfl, hst, -⟩, hne⟩ := hreserves.batchIn h
    constructor
    · intro result db₃ hfails
      have hin : BatchIn isReleasable b.id b.tenantId (itemsOf db₁ b.id)
          (run (Step.apply env) steps db₁) := by
        refine (BatchIn.of_mem hb (.inl hst)).run hreach₁ fun step hstep x x' hx hmoved => ?_
        exact hmoved.releasable (by rw [hx]; exact hsteps step hstep)
      obtain ⟨hreach₃, x, hx, hxid, hcases⟩ := hfails.cases hreach₂
      have hfailed : BatchIn (· = .failed) b.id x.tenantId (itemsOf db₃ b.id) db₃ := by
        rcases hcases with ⟨rfl, hxst, -⟩ | ⟨-, -, now, reason, hclosed⟩
        · exact ⟨x, hx, hxid, rfl, hxst, rfl⟩
        · exact ⟨_, hclosed.batch_mem hx, hxid, rfl, rfl, rfl⟩
      refine ⟨hreserves.undone h hreach₂ hin hfails, fun hnot => ?_,
        fun later result' db₅ hagain => Fails.again hreach₃ hfailed hagain⟩
      rcases hcases with ⟨heq, -, -⟩ | ⟨-, hdone, -⟩
      · exact heq
      · rw [hdone] at hnot
        cases hnot
    · intro hnofail now reason actorUserId uuids hreason
      obtain ⟨x, hx, hxid, hxtenant, hxst, hitems⟩ :=
        (BatchIn.of_mem (P := (· = .processing)) hb hst).run hreach₁
          fun step hstep x x' hx hmoved => hmoved.processing
            (by rw [hx]; exact hsteps step hstep) (by rw [hx]; exact hnofail step hstep)
      exact exists_commits_failPayoutBatch now ⟨b.tenantId, b.id, reason, actorUserId⟩
        (reachable_good hreach₂).sound hx hxst (by rw [hxid, hitems]; exact hne) hxid.symm
        hxtenant.symm hreason uuids
  · intro b hb hst steps
    have hin : BatchIn isHandedOff b.id b.tenantId (itemsOf db₀ b.id)
        (run (Step.apply env) steps db₀) :=
      (BatchIn.of_mem hb hst).run h fun step _ x x' _ hmoved => hmoved.handedOff
    have hbatch := (reachable_good h).sound.batch
    have hbatch' := (reachable_good (h.run steps)).sound.batch
    refine ⟨fun result db₃ hfails => ?_, fun r hr hlink =>
      held_of_handedOff hbatch hbatch' hb hst hin hr hlink⟩
    obtain ⟨x, hx, hxid, -, hxst, -⟩ := hin
    obtain ⟨-, y, hy, hyid, hcases⟩ := hfails.cases (h.run steps)
    have heq : y = x := Table.eq_of_key hy hx (hyid.trans hxid.symm)
    subst heq
    rcases hcases with ⟨-, hyst, -⟩ | ⟨hyst, -⟩ <;> rw [hyst] at hxst <;>
      rcases hxst with hxst | hxst <;> cases hxst

/-- The rows of the sale go into batch 300 and come back. -/
theorem failPayoutBatch_undoes_reserve_reserved :
    ∃ result db₃, Fails 300 (Demo.after Demo.reserved) result db₃ ∧ result.done = true ∧
      Undone 300 (Demo.after Demo.sold) (Demo.after Demo.reserved)
        (Demo.after Demo.reserved) db₃ := by
  have hreserves : Reserves Demo.env 1 300 (Demo.after Demo.sold)
      (Demo.after Demo.reserved) := by
    rw [Demo.reserved, Demo.after_append]
    exact Reserves.of_run 0 Demo.reserveAll (Demo.uuidsFrom 300) (by decide +kernel)
  obtain ⟨hundone, hlive⟩ := (failPayoutBatch_undoes_reserve (Demo.reachable Demo.sold)).1 1 300
    (Demo.after Demo.reserved) hreserves [] (by simp)
  simp only [run_nil] at hundone hlive
  obtain ⟨result, s', hfail, hdone⟩ := hlive (by simp) 0 "returned" none
    (Demo.uuidsFrom 400) (by decide +kernel)
  have hfails : Fails 300 (Demo.after Demo.reserved) result s'.db :=
    ⟨0, ⟨1, 300, "returned", none⟩, Demo.uuidsFrom 400, s', rfl, hfail, rfl⟩
  exact ⟨result, s'.db, hfails, hdone, (hundone result s'.db hfails).1 hdone⟩

end Refearn.Engine
