import Refearn.Engine.Proofs.Batches
/-!
# Closing a batch keeps the invariants

Settling and failing differ in the status they give the batch, and in what
follows from it for its payouts and rows. Dispatching, rejecting and requesting
move no money.
-/

namespace Refearn.Engine

open Support Support.Transaction Payouts

/-! ## The items of a batch -/

theorem mem_lockPayoutBatchItems {db : Db} {batchId : Uuid} {x : BatchItemRow}
    (h : x ∈ lockPayoutBatchItems db batchId) :
    ∃ i ∈ db.items, i.batchId = batchId ∧ ∃ r ∈ db.ledger, r.id = i.ledgerEntryId ∧
      x = ⟨i.ledgerEntryId, i.payoutId, i.membershipId, i.month, i.level, i.amountCents,
        r.status, r.payoutBatchId⟩ := by
  obtain ⟨i, hi, hjoin⟩ := List.mem_filterMap.mp h
  rw [List.mem_insertionSort, List.mem_filter] at hi
  obtain ⟨r, hfind, hx⟩ := Option.map_eq_some_iff.mp hjoin
  obtain ⟨hr, hid⟩ := Table.find?_eq_some.mp hfind
  exact ⟨i, hi.1, by simpa using hi.2, r, hr, hid, hx.symm⟩

/-- An item with its row is among the locked items of its batch. -/
theorem mem_lockPayoutBatchItems_of {db : Db} {i : PayoutSettlementBatchItem}
    (hi : i ∈ db.items) {r : LedgerEntry} (hr : r ∈ db.ledger)
    (hid : r.id = i.ledgerEntryId) :
    (⟨i.ledgerEntryId, i.payoutId, i.membershipId, i.month, i.level, i.amountCents, r.status,
      r.payoutBatchId⟩ : BatchItemRow) ∈ lockPayoutBatchItems db i.batchId := by
  refine List.mem_filterMap.mpr ⟨i, ?_, ?_⟩
  · rw [List.mem_insertionSort, List.mem_filter]
    exact ⟨hi, by simp⟩
  · have hfind : db.ledger.find? i.ledgerEntryId = some r := Table.find?_eq_some.mpr ⟨hr, hid⟩
    rw [joinItem, hfind]
    rfl

theorem map_id_joinItem (db : Db) (items : List PayoutSettlementBatchItem) :
    ((items.filterMap (joinItem db)).map BatchItemRow.id).Sublist
      (items.map PayoutSettlementBatchItem.ledgerEntryId) := by
  induction items with
  | nil => exact List.Sublist.refl []
  | cons i items ih =>
      rw [List.filterMap_cons]
      cases hjoin : joinItem db i with
      | none => exact ih.cons _
      | some x =>
          obtain ⟨r, -, rfl⟩ := Option.map_eq_some_iff.mp hjoin
          exact ih.cons_cons _

theorem clash_item_comm (i j : PayoutSettlementBatchItem) : clash i j = clash j i := by
  simp only [clash]
  rw [Bool.beq_comm (a := i.batchId), Bool.beq_comm (a := i.ledgerEntryId)]

/-- No row is locked twice. -/
theorem nodup_lockPayoutBatchItems (db : Db) (batchId : Uuid) :
    ((lockPayoutBatchItems db batchId).map BatchItemRow.id).Nodup := by
  refine List.Nodup.sublist (map_id_joinItem db _) ?_
  refine ((List.perm_insertionSort _ _).map _).nodup_iff.mpr ?_
  refine List.Nodup.map_on ?_ (db.items.rows_nodup.filter _)
  intro i hi j hj heq
  simp only [List.mem_filter, decide_eq_true_eq] at hi hj
  refine Table.eq_of_clash clash_item_comm hi.1 hj.1 ?_
  simp [clash, hi.2, hj.2, heq]

/-! ## Closing -/

/-- What closing a batch with status `st` makes of its rows, its payouts and itself. -/
structure Closes (st : BatchStatus) (row : LedgerEntry → LedgerEntry)
    (payout : Payout → Payout) (batch : PayoutSettlementBatch → PayoutSettlementBatch)
    (delta : Int → SummaryDelta) : Prop where
  row_same : ∀ r, SameEntry r (row r)
  row_status : ∀ r, (row r).status = (heldStatus st).getD .payable
  row_links : ∀ r, (heldStatus st = none ∧ (row r).payoutId = none ∧
      (row r).payoutBatchId = none) ∨
    (heldStatus st = some .paid ∧ (row r).payoutId = r.payoutId ∧
      (row r).payoutBatchId = r.payoutBatchId)
  payout_id : ∀ p, (payout p).id = p.id
  payout_tenant : ∀ p, (payout p).tenantId = p.tenantId
  payout_member : ∀ p, (payout p).membershipId = p.membershipId
  payout_batch : ∀ p, (payout p).batchId = p.batchId
  payout_total : ∀ p, (payout p).totalCents = p.totalCents
  payout_status : ∀ p, (payout p).status = payoutStatusOf st
  payout_key : ∀ p, (payout p).activeKey = none
  batch_id : ∀ b, (batch b).id = b.id
  batch_tenant : ∀ b, (batch b).tenantId = b.tenantId
  batch_status : ∀ b, (batch b).status = st
  delta_eq : ∀ x b, (delta x).cents b =
    (if statusBucket ((heldStatus st).getD .payable) = some b then x else 0) -
      if statusBucket .processing = some b then x else 0

theorem settle_closes (now : Instant) (reference evidence : String) :
    Closes .settled (setStatus .paid) (settlePayout now reference evidence)
      (markSettled now reference evidence) settleDelta where
  row_same _ := ⟨rfl, rfl, rfl, rfl, rfl, rfl, rfl, rfl, rfl, rfl⟩
  row_status _ := rfl
  row_links _ := .inr ⟨rfl, rfl, rfl⟩
  payout_id _ := rfl
  payout_tenant _ := rfl
  payout_member _ := rfl
  payout_batch _ := rfl
  payout_total _ := rfl
  payout_status _ := rfl
  payout_key _ := rfl
  batch_id _ := rfl
  batch_tenant _ := rfl
  batch_status _ := rfl
  delta_eq x b := by
    cases b <;> simp [settleDelta, SummaryDelta.cents, statusBucket, heldStatus]

theorem fail_closes (now : Instant) (reason : String) :
    Closes .failed release (failPayout now reason) (markFailed now reason) failDelta where
  row_same _ := ⟨rfl, rfl, rfl, rfl, rfl, rfl, rfl, rfl, rfl, rfl⟩
  row_status _ := rfl
  row_links _ := .inl ⟨rfl, rfl, rfl⟩
  payout_id _ := rfl
  payout_tenant _ := rfl
  payout_member _ := rfl
  payout_batch _ := rfl
  payout_total _ := rfl
  payout_status _ := rfl
  payout_key _ := rfl
  batch_id _ := rfl
  batch_tenant _ := rfl
  batch_status _ := rfl
  delta_eq x b := by
    cases b <;> simp [failDelta, SummaryDelta.cents, statusBucket, heldStatus]

namespace BatchClosed

variable {b : PayoutSettlementBatch} {row : LedgerEntry → LedgerEntry}
  {payout : Payout → Payout} {batch : PayoutSettlementBatch → PayoutSettlementBatch}
  {delta : Int → SummaryDelta} {st : BatchStatus} {db db' : Db}

/-- The rewrite of the rows of a batch. -/
def closeRow (b : PayoutSettlementBatch) (row : LedgerEntry → LedgerEntry)
    (r : LedgerEntry) : LedgerEntry :=
  if r.status = .processing ∧ r.payoutBatchId = some b.id then row r else r

/-- The rows that settling and failing rewrite are the processing rows of the batch. -/
theorem isHeldBy_iff (hbatch : BatchSound db) {batchId : Uuid} {r : LedgerEntry}
    (hr : r ∈ db.ledger) :
    isHeldBy batchId (lockPayoutBatchItems db batchId) r = true ↔
      r.status = .processing ∧ r.payoutBatchId = some batchId := by
  simp only [isHeldBy, Bool.and_eq_true, List.contains_eq_mem, decide_eq_true_eq]
  constructor
  · rintro ⟨⟨-, hstatus⟩, hlink⟩
    exact ⟨hstatus, hlink⟩
  · rintro ⟨hstatus, hlink⟩
    obtain ⟨i, hi, b, -, -, -, -, hm⟩ := hbatch.held r hr (.inl hstatus)
    have hbatchId : i.batchId = batchId := Option.some.inj (hm.batch.symm.trans hlink)
    have hmem := mem_lockPayoutBatchItems_of hi hr hm.entry.symm
    rw [hbatchId] at hmem
    exact ⟨⟨List.mem_map.mpr ⟨_, hmem, hm.entry⟩, hstatus⟩, hlink⟩

theorem rows_eq (h : BatchClosed b row payout batch delta db db') (hbatch : BatchSound db) :
    db'.ledger.rows = db.ledger.rows.map (closeRow b row) := by
  rw [h.ledger]
  refine List.map_congr_left fun r hr => ?_
  unfold closeRow
  by_cases hheld : r.status = .processing ∧ r.payoutBatchId = some b.id
  · rw [if_pos hheld, if_pos ((isHeldBy_iff hbatch hr).mpr hheld)]
  · rw [if_neg hheld, if_neg (fun hc => hheld ((isHeldBy_iff hbatch hr).mp hc))]

theorem closeRow_sameEntry (hrow : ∀ r, SameEntry r (row r)) (r : LedgerEntry) :
    SameEntry r (closeRow b row r) := by
  unfold closeRow
  split_ifs
  · exact hrow r
  · exact .refl r

theorem evolution (h : BatchClosed b row payout batch delta db db')
    (hc : Closes st row payout batch delta) (hbatch : BatchSound db) :
    Evolution (closeRow b row) [] db db' where
  sales := .of_eq h.sales
  rows := by rw [h.rows_eq hbatch, List.append_nil]
  same := closeRow_sameEntry hc.row_same

theorem saleSound (h : BatchClosed b row payout batch delta db db')
    (hc : Closes st row payout batch delta) (hsound : Sound db) : SaleSound db' := by
  refine hsound.sale.of_evolution (h.evolution hc hsound.batch) ?_ ?_ ?_ (by simp)
  · intro sale hmem sale' hmem' hid hvoid
    rw [h.sales] at hmem'
    rwa [← Table.eq_of_key hmem' hmem hid]
  · intro r _ hstatus
    unfold closeRow
    split_ifs
    · rw [hc.row_status]
      cases st <;> simp [heldStatus]
    · exact hstatus
  · intro r _ hstatus
    unfold closeRow
    rw [if_neg]
    rintro ⟨hprocessing, -⟩
    rcases hstatus with hst | hst <;> rw [hprocessing] at hst <;> cases hst

/-- A batch of the table is the closed one, or it is as it was. -/
theorem batch_mem (h : BatchClosed b row payout batch delta db db') (hb : b ∈ db.batches) :
    batch b ∈ db'.batches := by
  rw [Table.mem_def, h.batches]
  exact List.mem_map.mpr ⟨b, hb, if_pos rfl⟩

theorem batch_other (h : BatchClosed b row payout batch delta db db')
    {x : PayoutSettlementBatch} (hx : x ∈ db.batches) (hne : x.id ≠ b.id) :
    x ∈ db'.batches := by
  rw [Table.mem_def, h.batches]
  exact List.mem_map.mpr ⟨x, hx, if_neg hne⟩

theorem payout_cases (h : BatchClosed b row payout batch delta db db') {p' : Payout}
    (hp' : p' ∈ db'.payouts) :
    ∃ p ∈ db.payouts, (p.batchId = some b.id ∧ p' = payout p) ∨
      (p.batchId ≠ some b.id ∧ p' = p) := by
  rw [Table.mem_def, h.payouts] at hp'
  obtain ⟨p, hp, rfl⟩ := List.mem_map.mp hp'
  refine ⟨p, hp, ?_⟩
  split_ifs with hbatch
  · exact .inl ⟨hbatch, rfl⟩
  · exact .inr ⟨hbatch, rfl⟩

/-- A row of another batch is left alone. -/
theorem closeRow_other (row : LedgerEntry → LedgerEntry) {r : LedgerEntry} {i : PayoutSettlementBatchItem}
    (hm : Matches db r i) (hne : i.batchId ≠ b.id) : closeRow b row r = r := by
  refine if_neg ?_
  rintro ⟨-, hlink⟩
  exact hne (Option.some.inj (hm.batch.symm.trans hlink))

theorem held_kept (h : BatchClosed b row payout batch delta db db')
    (hc : Closes st row payout batch delta) (hsound : Sound db) (hb : b ∈ db.batches)
    (hstatus : heldStatus b.status = some .processing) {r' : LedgerEntry}
    (hr' : r' ∈ db'.ledger) (hheld : isHeld r') :
    ∃ i ∈ db'.items, ∃ x ∈ db'.batches, x.id = i.batchId ∧ x.tenantId = r'.tenantId ∧
      heldStatus x.status = some r'.status ∧ Matches db' r' i := by
  have hev := h.evolution hc hsound.batch
  rw [Table.mem_def, h.rows_eq hsound.batch] at hr'
  obtain ⟨r, hr, rfl⟩ := List.mem_map.mp hr'
  rw [h.items]
  have hr₀ : isHeld r := by
    by_contra hnot
    have hkeep : closeRow b row r = r := by
      refine if_neg ?_
      rintro ⟨hst, -⟩
      exact hnot (.inl hst)
    rw [hkeep] at hheld
    exact hnot hheld
  obtain ⟨i, hi, x, hx, hxid, htenant, hst, hm⟩ := hsound.batch.held r hr hr₀
  have hsame := closeRow_sameEntry (b := b) hc.row_same r
  by_cases hbatch : i.batchId = b.id
  · have hxb : x = b := Table.eq_of_key hx hb (hxid.trans hbatch)
    subst hxb
    rw [hstatus] at hst
    have hrow : closeRow x row r = row r :=
      if_pos ⟨(Option.some.inj hst).symm, by rw [hm.batch, hbatch]⟩
    rw [hrow] at hheld ⊢
    rcases hc.row_links r with ⟨hnone, -, -⟩ | ⟨hsome, hpayout, hlink⟩
    · unfold isHeld at hheld
      rw [hc.row_status, hnone] at hheld
      rcases hheld with hheld | hheld <;> cases hheld
    · refine ⟨i, hi, batch x, h.batch_mem hx, (hc.batch_id x).trans hxid,
        (hc.batch_tenant x).trans (htenant.trans (hc.row_same r).tenantId.symm), ?_,
        hm.kept (hsound.sale r hr) hev.sales (hc.row_same r) hlink hpayout⟩
      rw [hc.batch_status, hc.row_status, hsome]
      rfl
  · have hkeep := closeRow_other row hm hbatch
    rw [hkeep]
    exact ⟨i, hi, x, h.batch_other hx (fun heq => hbatch (hxid.symm.trans heq)), hxid, htenant,
      hst, hm.kept (hsound.sale r hr) hev.sales (.refl r) rfl rfl⟩

theorem item_kept (h : BatchClosed b row payout batch delta db db')
    (hc : Closes st row payout batch delta) (hsound : Sound db) (hb : b ∈ db.batches)
    (hstatus : heldStatus b.status = some .processing) {i : PayoutSettlementBatchItem}
    (hi : i ∈ db.items) :
    ∃ x ∈ db'.batches, x.id = i.batchId ∧ ∀ status, heldStatus x.status = some status →
      ∃ r ∈ db'.ledger, r.status = status ∧ x.tenantId = r.tenantId ∧ Matches db' r i := by
  have hev := h.evolution hc hsound.batch
  obtain ⟨x, hx, hxid, hrows⟩ := hsound.batch.item i hi
  by_cases hbatch : i.batchId = b.id
  · have hxb : x = b := Table.eq_of_key hx hb (hxid.trans hbatch)
    subst hxb
    refine ⟨batch x, h.batch_mem hx, (hc.batch_id x).trans hxid, fun status hst => ?_⟩
    rw [hc.batch_status] at hst
    obtain ⟨r, hr, hrst, htenant, hm⟩ := hrows _ hstatus
    have hrow : closeRow x row r = row r := if_pos ⟨hrst, by rw [hm.batch, hbatch]⟩
    rcases hc.row_links r with ⟨hnone, -, -⟩ | ⟨-, hpayout, hlink⟩
    · rw [hnone] at hst
      cases hst
    · refine ⟨row r, ?_, by rw [hc.row_status, hst]; rfl,
        (hc.batch_tenant x).trans (htenant.trans (hc.row_same r).tenantId.symm),
        hm.kept (hsound.sale r hr) hev.sales (hc.row_same r) hlink hpayout⟩
      rw [← hrow]
      exact hev.mem_old hr
  · refine ⟨x, h.batch_other hx (fun heq => hbatch (hxid.symm.trans heq)), hxid,
      fun status hst => ?_⟩
    obtain ⟨r, hr, hrst, htenant, hm⟩ := hrows status hst
    refine ⟨r, ?_, hrst, htenant, hm.kept (hsound.sale r hr) hev.sales (.refl r) rfl rfl⟩
    rw [← closeRow_other row hm hbatch]
    exact hev.mem_old hr

theorem batchSound (h : BatchClosed b row payout batch delta db db')
    (hc : Closes st row payout batch delta) (hsound : Sound db) (hb : b ∈ db.batches)
    (hstatus : heldStatus b.status = some .processing) : BatchSound db' := by
  have hbatchId : ∀ p ∈ db.payouts, ∀ p', (p.batchId = some b.id ∧ p' = payout p) ∨
      (p.batchId ≠ some b.id ∧ p' = p) →
      p'.batchId = p.batchId ∧ p'.id = p.id ∧ p'.totalCents = p.totalCents ∧
        p'.membershipId = p.membershipId ∧ p'.tenantId = p.tenantId := by
    rintro p - p' (⟨-, rfl⟩ | ⟨-, rfl⟩)
    · exact ⟨hc.payout_batch p, hc.payout_id p, hc.payout_total p, hc.payout_member p,
        hc.payout_tenant p⟩
    · exact ⟨rfl, rfl, rfl, rfl, rfl⟩
  refine ⟨fun r => h.held_kept hc hsound hb hstatus, ?_, ?_, ?_, ?_, ?_, ?_, ?_⟩
  · intro r' hr' hfree
    rw [Table.mem_def, h.rows_eq hsound.batch] at hr'
    obtain ⟨r, hr, rfl⟩ := List.mem_map.mp hr'
    unfold closeRow at hfree ⊢
    split_ifs at hfree ⊢
    · rcases hc.row_links r with ⟨-, hpayout, hlink⟩ | ⟨hsome, -, -⟩
      · exact ⟨hpayout, hlink⟩
      · refine absurd (.inr ?_) hfree
        rw [hc.row_status, hsome]
        rfl
    · exact hsound.batch.free r hr hfree
  · rw [h.items]
    exact fun i => h.item_kept hc hsound hb hstatus
  · rw [h.items]
    intro i hi
    obtain ⟨p, hp, hid, hlink, hmember⟩ := hsound.batch.itemPayout i hi
    by_cases hpb : p.batchId = some b.id
    · refine ⟨payout p, ?_, (hc.payout_id p).trans hid, (hc.payout_batch p).trans hlink,
        (hc.payout_member p).trans hmember⟩
      rw [Table.mem_def, h.payouts]
      exact List.mem_map.mpr ⟨p, hp, if_pos hpb⟩
    · refine ⟨p, ?_, hid, hlink, hmember⟩
      rw [Table.mem_def, h.payouts]
      exact List.mem_map.mpr ⟨p, hp, if_neg hpb⟩
  · intro p' hp' batchId hlink
    obtain ⟨p, hp, hcases⟩ := h.payout_cases hp'
    obtain ⟨hsame, -, -, -, htenant⟩ := hbatchId p hp p' hcases
    rw [hsame] at hlink
    obtain ⟨x, hx, hxid, hxtenant, hxstatus⟩ := hsound.batch.payout p hp batchId hlink
    rcases hcases with ⟨hpb, rfl⟩ | ⟨hpb, rfl⟩
    · have hxb : x = b := by
        refine Table.eq_of_key hx hb (hxid.trans ?_)
        exact Option.some.inj (hlink.symm.trans hpb)
      subst hxb
      exact ⟨batch x, h.batch_mem hx, (hc.batch_id x).trans hxid,
        (hc.batch_tenant x).trans (hxtenant.trans htenant.symm),
        by rw [hc.payout_status, hc.batch_status]⟩
    · refine ⟨x, h.batch_other hx fun heq => hpb ?_, hxid, hxtenant, hxstatus⟩
      rw [hlink, ← hxid, heq]
  · intro p' hp' hnone
    obtain ⟨p, hp, ⟨hpb, rfl⟩ | ⟨-, rfl⟩⟩ := h.payout_cases hp'
    · rw [hc.payout_batch, hpb] at hnone
      cases hnone
    · exact hsound.batch.request _ hp hnone
  · intro p' hp' hlink
    obtain ⟨p, hp, hcases⟩ := h.payout_cases hp'
    obtain ⟨hsame, hid, htotal, -, -⟩ := hbatchId p hp p' hcases
    rw [htotal, hid, h.items]
    exact hsound.batch.total p hp (hsame ▸ hlink)
  · intro p' hp' k hk
    obtain ⟨p, hp, ⟨-, rfl⟩ | ⟨-, rfl⟩⟩ := h.payout_cases hp'
    · rw [hc.payout_key] at hk
      cases hk
    · exact hsound.batch.activeKey _ hp k hk

/-- A locked item of the batch is the snapshot of a processing row of the batch. -/
theorem item_row (hsound : Sound db) (hb : b ∈ db.batches)
    (hstatus : heldStatus b.status = some .processing) {x : BatchItemRow}
    (hx : x ∈ lockPayoutBatchItems db b.id) :
    ∃ r ∈ db.ledger, r.id = x.id ∧ r.status = .processing ∧ r.payoutBatchId = some b.id ∧
      r.amountCents = x.amountCents ∧ rowKey db r = some (itemKey b.tenantId x) := by
  obtain ⟨i, hi, hbatch, r, hr, hid, rfl⟩ := mem_lockPayoutBatchItems hx
  obtain ⟨y, hy, hyid, hrows⟩ := hsound.batch.item i hi
  have hyb : y = b := Table.eq_of_key hy hb (hyid.trans hbatch)
  subst hyb
  obtain ⟨r', hr', hst, htenant, hm⟩ := hrows _ hstatus
  have heq : r' = r := Table.eq_of_key hr' hr (hm.entry.symm.trans hid.symm)
  subst heq
  refine ⟨r', hr', hid, hst, by rw [hm.batch, hbatch], hm.amount.symm, ?_⟩
  simp [rowKey, hm.month, rowSummary, itemKey, htenant, hm.member, hm.level]

theorem noDrift (h : BatchClosed b row payout batch delta db db')
    (hc : Closes st row payout batch delta) (hadd : Additive delta) (hsound : Sound db)
    (hb : b ∈ db.batches) (hstatus : heldStatus b.status = some .processing)
    (hdrift : NoDrift db) : NoDrift db' := by
  refine hdrift.of_evolution _ hsound.sale (h.evolution hc hsound.batch) h.summaries
    fun k bucket => ?_
  rw [posted_totals hadd, posted, List.map_nil, List.sum_nil, add_zero]
  symm
  refine Table.sum_selected (nodup_lockPayoutBatchItems db b.id) ?_ ?_
  · intro x hx
    obtain ⟨r, hr, hid, hst, hlink, hamount, hkey⟩ := item_row hsound hb hstatus hx
    refine ⟨r, hr, hid, ?_⟩
    have hrow : closeRow b row r = row r := if_pos ⟨hst, hlink⟩
    rw [statusShift, contribution, hrow, hkey, hc.row_status, hst, hamount, hc.delta_eq]
    simp only [weight, Option.some.injEq]
    generalize itemKey b.tenantId x = key
    by_cases hk : key = k <;> simp [hk]
  · intro r hr hid
    have hkeep : closeRow b row r = r := by
      refine if_neg fun hheld => hid ?_
      have hin := (isHeldBy_iff hsound.batch hr).mpr hheld
      simp only [isHeldBy, Bool.and_eq_true, List.contains_eq_mem, decide_eq_true_eq] at hin
      exact hin.1.1
    simp [statusShift, hkeep, contribution]

end BatchClosed

theorem settleDelta_additive : Additive settleDelta := by
  intro b x y
  cases b <;> simp [settleDelta, SummaryDelta.cents]
  omega

theorem failDelta_additive : Additive failDelta := by
  intro b x y
  cases b <;> simp [failDelta, SummaryDelta.cents]
  omega

/-! ## Dispatching -/

theorem BatchDispatched.sound {b : PayoutSettlementBatch} {now : Instant}
    {reference evidence : String} {db db' : Db}
    (h : BatchDispatched b now reference evidence db db') (hb : b ∈ db.batches)
    (hsound : Sound db) : Sound db' := by
  refine ⟨hsound.sale.congr h.sales h.ledger,
    hsound.batch.of_batches ?_ h.sales h.ledger h.payouts h.items⟩
  intro x hx
  refine ⟨if x.id = b.id then markDispatched now reference evidence x else x, ?_, ?_⟩
  · rw [Table.mem_def, h.batches]
    exact List.mem_map_of_mem hx
  · split_ifs with hid
    · have hxb : x = b := Table.eq_of_key hx hb hid
      subst hxb
      rw [h.status]
      exact ⟨rfl, rfl, rfl, rfl⟩
    · exact ⟨rfl, rfl, rfl, rfl⟩

theorem NoDrift.congr {db db' : Db} (h : NoDrift db) (hsales : db'.sales = db.sales)
    (hledger : db'.ledger = db.ledger) (hsum : db'.summaries = db.summaries) :
    NoDrift db' := by
  intro k b
  rw [hsum, h k b, ledgerCents_congr hsales hledger]

/-! ## Requests -/

/-- Payouts may come and change, as long as they stay in no batch and hold no key. -/
theorem Sound.of_onlyPayouts {db db' : Db} (h : Sound db) (hkept : OnlyPayouts db db')
    (hin : ∀ p ∈ db.payouts, p.batchId ≠ none → p ∈ db'.payouts)
    (hcases : ∀ p ∈ db'.payouts, (p ∈ db.payouts ∧ p.batchId ≠ none) ∨
      (p.batchId = none ∧ (p.status = .requested ∨ p.status = .rejected) ∧
        ∀ k, p.activeKey = some k →
          p.status.isOpen = true ∧ k = payoutActiveKey p.tenantId p.membershipId p.period)) :
    Sound db' := by
  have hmatch : ∀ e i, Matches db e i → Matches db' e i := fun e i hm =>
    ⟨hm.entry, hm.batch, hm.payout, hm.member, hm.level, hm.amount,
      by rw [rowMonth_congr hkept.sales]; exact hm.month⟩
  refine ⟨h.sale.congr hkept.sales hkept.ledger, ?_, hkept.ledger ▸ h.batch.free, ?_, ?_, ?_, ?_,
    ?_, ?_⟩
  · rw [hkept.ledger, hkept.items, hkept.batches]
    intro e he hheld
    obtain ⟨i, hi, b, hb, hid, htenant, hst, hm⟩ := h.batch.held e he hheld
    exact ⟨i, hi, b, hb, hid, htenant, hst, hmatch e i hm⟩
  · rw [hkept.ledger, hkept.items, hkept.batches]
    intro i hi
    obtain ⟨b, hb, hid, hrows⟩ := h.batch.item i hi
    refine ⟨b, hb, hid, fun status hst => ?_⟩
    obtain ⟨e, he, hest, htenant, hm⟩ := hrows status hst
    exact ⟨e, he, hest, htenant, hmatch e i hm⟩
  · rw [hkept.items]
    intro i hi
    obtain ⟨p, hp, hid, hlink, hmember⟩ := h.batch.itemPayout i hi
    exact ⟨p, hin p hp (by rw [hlink]; exact Option.some_ne_none _), hid, hlink, hmember⟩
  · rw [hkept.batches]
    intro p hp batchId hlink
    rcases hcases p hp with ⟨hp, -⟩ | ⟨hnone, -⟩
    · exact h.batch.payout p hp batchId hlink
    · rw [hnone] at hlink
      cases hlink
  · intro p hp hnone
    rcases hcases p hp with ⟨-, hsome⟩ | ⟨-, hstatus, -⟩
    · exact absurd hnone hsome
    · exact hstatus
  · rw [hkept.items]
    intro p hp hsome
    rcases hcases p hp with ⟨hp, -⟩ | ⟨hnone, -⟩
    · exact h.batch.total p hp hsome
    · exact absurd hnone hsome
  · intro p hp k hk
    rcases hcases p hp with ⟨hp, -⟩ | ⟨-, -, hactive⟩
    · exact h.batch.activeKey p hp k hk
    · exact hactive k hk

theorem Sound.of_reject {now : Instant} {reason : String} {p : Payout} {db db' : Db}
    (hsound : Sound db) (hp : p ∈ db.payouts) (hstatus : p.status = .requested)
    (hrows : db'.payouts.rows = db.payouts.rows.map (fun x =>
      if x.id = p.id then rejectPayout now reason x else x))
    (hkept : OnlyPayouts db db') : Sound db' := by
  have hfree := hsound.batch.request_free hp hstatus
  refine hsound.of_onlyPayouts hkept ?_ ?_
  · intro q hq hlink
    rw [Table.mem_def, hrows]
    refine List.mem_map.mpr ⟨q, hq, if_neg fun hid => hlink ?_⟩
    rw [Table.eq_of_key hq hp hid, hfree]
  · intro q' hq'
    rw [Table.mem_def, hrows] at hq'
    obtain ⟨q, hq, rfl⟩ := List.mem_map.mp hq'
    split_ifs with hid
    · have hqp : q = p := Table.eq_of_key hq hp hid
      subst hqp
      exact .inr ⟨hfree, .inr rfl, fun k hk => by cases hk⟩
    · cases hlink : q.batchId with
      | some batchId => exact .inl ⟨hq, Option.some_ne_none _⟩
      | none =>
          exact .inr ⟨rfl, hsound.batch.request q hq hlink, hsound.batch.activeKey q hq⟩

theorem Sound.of_request {now : Instant} {membershipId tenantId id : Uuid} {total : Int}
    {period : String} {db db' : Db} (hsound : Sound db)
    (hrows : db'.payouts.rows =
      db.payouts.rows ++ [newRequest tenantId membershipId total period now id])
    (hkept : OnlyPayouts db db') : Sound db' := by
  refine hsound.of_onlyPayouts hkept ?_ ?_
  · intro q hq _
    rw [Table.mem_def, hrows]
    exact List.mem_append_left _ hq
  · intro q hq
    rw [Table.mem_def, hrows, List.mem_append, List.mem_singleton] at hq
    rcases hq with hq | rfl
    · cases hlink : q.batchId with
      | some batchId => exact .inl ⟨hq, Option.some_ne_none _⟩
      | none =>
          exact .inr ⟨rfl, hsound.batch.request q hq hlink, hsound.batch.activeKey q hq⟩
    · refine .inr ⟨rfl, .inl rfl, fun k hk => ⟨rfl, ?_⟩⟩
      exact (Option.some.inj hk).symm

end Refearn.Engine
