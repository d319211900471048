import Refearn.Engine.Run
/-!
# What holds in every reachable database

Two groups of facts. `SaleSound` ties each ledger row to its sale and says which
statuses the rows of an approved and of a void sale can have. `BatchSound` ties
each row that is on its way or paid to the batch item it is held by, and each
payout to its batch.
-/

namespace Refearn.Engine

open Support

/-! ## The month and the summary of a row -/

/-- A row's own month if it carries one, otherwise the frozen month of its sale. -/
def rowMonth (db : Db) (r : LedgerEntry) : Option String :=
  r.summaryMonth.or ((r.saleId.bind db.sales.find?).bind Sale.summaryMonth)

/-- The summary a row of a known month belongs to. -/
def rowSummary (r : LedgerEntry) (month : String) : SummaryKey :=
  ⟨r.tenantId, r.beneficiaryMembershipId, month, r.level⟩

def rowKey (db : Db) (r : LedgerEntry) : Option SummaryKey :=
  (rowMonth db r).map (rowSummary r)

/-- The bucket of a status; a reversed row is in none. -/
def statusBucket : LedgerStatus → Option Bucket
  | .pending => some .pending
  | .payable => some .payable
  | .processing => some .processing
  | .paid => some .paid
  | .reversed => none

/-- What an amount under a key and a status adds to one bucket of one summary. -/
def weight (key : Option SummaryKey) (status : LedgerStatus) (amount : Int)
    (k : SummaryKey) (b : Bucket) : Int :=
  if key = some k ∧ statusBucket status = some b then amount else 0

def contribution (db : Db) (k : SummaryKey) (b : Bucket) (r : LedgerEntry) : Int :=
  weight (rowKey db r) r.status r.amountCents k b

/-- The bucket summed over the ledger. -/
def ledgerCents (db : Db) (k : SummaryKey) (b : Bucket) : Int :=
  (db.ledger.rows.map (contribution db k b)).sum

/-- Every bucket of every summary is the sum of its ledger rows. -/
def NoDrift (db : Db) : Prop :=
  ∀ k b, summaryCents db.summaries k b = ledgerCents db k b

/-! ## Rows and their sales -/

structure RowSound (db : Db) (r : LedgerEntry) : Prop where
  /-- A row of a sale carries no month of its own, its sale is frozen. -/
  ofSale : ∀ saleId, r.saleId = some saleId →
    ∃ sale ∈ db.sales, sale.id = saleId ∧ sale.tenantId = r.tenantId ∧
      sale.status ≠ .draft ∧ sale.summaryMonth.isSome = true ∧ r.summaryMonth = none ∧
      r.type ≠ .adjustment
  /-- A row without a sale is an adjustment with a month of its own. -/
  ofNone : r.saleId = none → r.type = .adjustment ∧ r.summaryMonth.isSome = true
  /-- A sale that is not void has no reversal and no reversed row. -/
  notVoid : ∀ sale ∈ db.sales, r.saleId = some sale.id → sale.status ≠ .void →
    r.type = .commission ∧ r.status ≠ .reversed
  /-- The commissions of a void sale are paid or reversed. -/
  void : ∀ sale ∈ db.sales, r.saleId = some sale.id → sale.status = .void →
    r.type = .commission → r.status = .paid ∨ r.status = .reversed

def SaleSound (db : Db) : Prop := ∀ r ∈ db.ledger, RowSound db r

/-! ## Rows and their batches -/

/-- The item is a snapshot of the row, and the row is linked to it. -/
structure Matches (db : Db) (r : LedgerEntry) (i : PayoutSettlementBatchItem) : Prop where
  entry : i.ledgerEntryId = r.id
  batch : r.payoutBatchId = some i.batchId
  payout : r.payoutId = some i.payoutId
  member : i.membershipId = r.beneficiaryMembershipId
  level : i.level = r.level
  amount : i.amountCents = r.amountCents
  month : rowMonth db r = some i.month

/-- The status of the rows that a batch holds. -/
def heldStatus : BatchStatus → Option LedgerStatus
  | .processing | .dispatched => some .processing
  | .settled => some .paid
  | .failed => none

theorem heldStatus_cases {st : BatchStatus} {status : LedgerStatus}
    (h : heldStatus st = some status) : status = .processing ∨ status = .paid := by
  cases st <;> cases h
  · exact .inl rfl
  · exact .inl rfl
  · exact .inr rfl

theorem exists_heldStatus {st : BatchStatus} (h : st ≠ .failed) :
    ∃ status, heldStatus st = some status := by
  cases st
  · exact ⟨_, rfl⟩
  · exact ⟨_, rfl⟩
  · exact ⟨_, rfl⟩
  · exact absurd rfl h

/-- The status of the payouts of a batch. -/
def payoutStatusOf : BatchStatus → PayoutStatus
  | .processing | .dispatched => .processing
  | .settled => .paid
  | .failed => .failed

/-- A row that is on its way or paid. -/
def isHeld (r : LedgerEntry) : Prop := r.status = .processing ∨ r.status = .paid

/-- The amounts of the items of a payout. -/
def itemTotal (items : List PayoutSettlementBatchItem) (payoutId : Uuid) : Int :=
  posted PayoutSettlementBatchItem.payoutId PayoutSettlementBatchItem.amountCents items
    payoutId

structure BatchSound (db : Db) : Prop where
  /-- A held row is an item of the batch it is linked to. -/
  held : ∀ r ∈ db.ledger, isHeld r →
    ∃ i ∈ db.items, ∃ b ∈ db.batches, b.id = i.batchId ∧ b.tenantId = r.tenantId ∧
      heldStatus b.status = some r.status ∧ Matches db r i
  free : ∀ r ∈ db.ledger, ¬isHeld r → r.payoutId = none ∧ r.payoutBatchId = none
  /-- An item of a batch that holds rows has its row. -/
  item : ∀ i ∈ db.items, ∃ b ∈ db.batches, b.id = i.batchId ∧
    ∀ status, heldStatus b.status = some status →
      ∃ r ∈ db.ledger, r.status = status ∧ b.tenantId = r.tenantId ∧ Matches db r i
  itemPayout : ∀ i ∈ db.items, ∃ p ∈ db.payouts, p.id = i.payoutId ∧
    p.batchId = some i.batchId ∧ p.membershipId = i.membershipId
  payout : ∀ p ∈ db.payouts, ∀ batchId, p.batchId = some batchId →
    ∃ b ∈ db.batches, b.id = batchId ∧ b.tenantId = p.tenantId ∧
      p.status = payoutStatusOf b.status
  request : ∀ p ∈ db.payouts, p.batchId = none →
    p.status = .requested ∨ p.status = .rejected
  total : ∀ p ∈ db.payouts, p.batchId ≠ none →
    p.totalCents = itemTotal db.items.rows p.id
  activeKey : ∀ p ∈ db.payouts, ∀ k, p.activeKey = some k →
    p.status.isOpen = true ∧ k = payoutActiveKey p.tenantId p.membershipId p.period

/-- A row that is an item of a batch which has not failed is linked to that batch. -/
theorem BatchSound.linked {db : Db} (h : BatchSound db) {r : LedgerEntry} (hr : r ∈ db.ledger)
    {i : PayoutSettlementBatchItem} (hi : i ∈ db.items) (hid : i.ledgerEntryId = r.id)
    {b : PayoutSettlementBatch} (hb : b ∈ db.batches) (hbatch : i.batchId = b.id)
    (hstatus : b.status ≠ .failed) : r.payoutBatchId = some b.id := by
  obtain ⟨b', hb', hbid, hrows⟩ := h.item i hi
  have heq : b' = b := Table.eq_of_key hb' hb (hbid.trans hbatch)
  subst heq
  obtain ⟨status, hheld⟩ := exists_heldStatus hstatus
  obtain ⟨r', hr', -, -, hm⟩ := hrows status hheld
  have heq : r' = r := Table.eq_of_key hr' hr (hm.entry.symm.trans hid)
  rw [← heq, hm.batch, hbatch]

structure Sound (db : Db) : Prop where
  sale : SaleSound db
  batch : BatchSound db

/-! ## How rows and sales may evolve -/

/-- A rewrite of a row that only touches its status, its due time and its links. -/
structure SameEntry (r r' : LedgerEntry) : Prop where
  id : r'.id = r.id
  tenantId : r'.tenantId = r.tenantId
  saleId : r'.saleId = r.saleId
  beneficiary : r'.beneficiaryMembershipId = r.beneficiaryMembershipId
  level : r'.level = r.level
  rate : r'.rateBpsUsed = r.rateBpsUsed
  amount : r'.amountCents = r.amountCents
  type : r'.type = r.type
  month : r'.summaryMonth = r.summaryMonth
  createdAt : r'.createdAt = r.createdAt

theorem SameEntry.refl (r : LedgerEntry) : SameEntry r r :=
  ⟨rfl, rfl, rfl, rfl, rfl, rfl, rfl, rfl, rfl, rfl⟩

theorem SameEntry.trans {r₁ r₂ r₃ : LedgerEntry} (h : SameEntry r₁ r₂)
    (h' : SameEntry r₂ r₃) : SameEntry r₁ r₃ :=
  ⟨h'.id.trans h.id, h'.tenantId.trans h.tenantId, h'.saleId.trans h.saleId,
    h'.beneficiary.trans h.beneficiary, h'.level.trans h.level, h'.rate.trans h.rate,
    h'.amount.trans h.amount, h'.type.trans h.type, h'.month.trans h.month,
    h'.createdAt.trans h.createdAt⟩

theorem SameEntry.ite {f : LedgerEntry → LedgerEntry} (hf : ∀ r, SameEntry r (f r))
    (p : Prop) [Decidable p] (r : LedgerEntry) : SameEntry r (if p then f r else r) := by
  split_ifs
  · exact hf r
  · exact .refl r

/-- A sale that is not a draft stays, keeps what money depends on, and once void or
frozen stays so. -/
structure SameSale (sale sale' : Sale) : Prop where
  id : sale'.id = sale.id
  tenantId : sale'.tenantId = sale.tenantId
  seller : sale'.sellerMembershipId = sale.sellerMembershipId
  amount : sale'.amountCents = sale.amountCents
  notDraft : sale'.status ≠ .draft
  void : sale.status = .void → sale'.status = .void
  month : ∀ m, sale.summaryMonth = some m → sale'.summaryMonth = some m
  plan : ∀ planId, sale.commissionPlanId = some planId →
    sale'.commissionPlanId = some planId

def SalesKept (db db' : Db) : Prop :=
  ∀ sale ∈ db.sales, sale.status ≠ .draft → ∃ sale' ∈ db'.sales, SameSale sale sale'

theorem SameSale.refl {sale : Sale} (h : sale.status ≠ .draft) : SameSale sale sale :=
  ⟨rfl, rfl, rfl, rfl, h, fun h => h, fun _ h => h, fun _ h => h⟩

theorem SalesKept.of_eq {db db' : Db} (h : db'.sales = db.sales) : SalesKept db db' :=
  fun sale hsale hdraft => ⟨sale, by rw [h]; exact hsale, .refl hdraft⟩

theorem SalesKept.of_map {db db' : Db} {f : Sale → Sale}
    (h : db'.sales.rows = db.sales.rows.map f)
    (hf : ∀ sale ∈ db.sales, sale.status ≠ .draft → SameSale sale (f sale)) :
    SalesKept db db' := by
  intro sale hsale hdraft
  refine ⟨f sale, ?_, hf sale hsale hdraft⟩
  rw [Table.mem_def, h]
  exact List.mem_map_of_mem hsale

theorem SalesKept.trans {db₁ db₂ db₃ : Db} (h : SalesKept db₁ db₂)
    (h' : SalesKept db₂ db₃) : SalesKept db₁ db₃ := by
  intro sale hsale hdraft
  obtain ⟨sale₂, hsale₂, hsame⟩ := h sale hsale hdraft
  obtain ⟨sale₃, hsale₃, hsame'⟩ := h' sale₂ hsale₂ hsame.notDraft
  exact ⟨sale₃, hsale₃, hsame'.id.trans hsame.id, hsame'.tenantId.trans hsame.tenantId,
    hsame'.seller.trans hsame.seller, hsame'.amount.trans hsame.amount, hsame'.notDraft,
    fun hv => hsame'.void (hsame.void hv), fun m hm => hsame'.month m (hsame.month m hm),
    fun p hp => hsame'.plan p (hsame.plan p hp)⟩

theorem find?_of_mem_sales {db : Db} {sale : Sale} (h : sale ∈ db.sales) :
    db.sales.find? sale.id = some sale :=
  Table.find?_key h

/-- The month of a row of a known sale. -/
theorem rowMonth_of_sale {db : Db} {r : LedgerEntry} {sale : Sale} (hsale : sale ∈ db.sales)
    (hid : r.saleId = some sale.id) (hown : r.summaryMonth = none) :
    rowMonth db r = sale.summaryMonth := by
  simp [rowMonth, hown, hid, find?_of_mem_sales hsale]

/-- Every row has a month. -/
theorem RowSound.exists_month {db : Db} {r : LedgerEntry} (h : RowSound db r) :
    ∃ month, rowMonth db r = some month := by
  cases hsale : r.saleId with
  | none =>
      obtain ⟨-, hmonth⟩ := h.ofNone hsale
      obtain ⟨month, hmonth⟩ := Option.isSome_iff_exists.mp hmonth
      exact ⟨month, by simp [rowMonth, hmonth]⟩
  | some saleId =>
      obtain ⟨sale, hmem, rfl, -, -, hmonth, hown, -⟩ := h.ofSale saleId hsale
      obtain ⟨month, hmonth⟩ := Option.isSome_iff_exists.mp hmonth
      exact ⟨month, by rw [rowMonth_of_sale hmem hsale hown, hmonth]⟩

/-- The month of a row outlives every change of its status and of its sale. -/
theorem RowSound.month_eq {db db' : Db} {r r' : LedgerEntry} (h : RowSound db r)
    (hsales : SalesKept db db') (hsame : SameEntry r r') :
    rowMonth db' r' = rowMonth db r := by
  cases hsale : r.saleId with
  | none =>
      obtain ⟨-, hmonth⟩ := h.ofNone hsale
      obtain ⟨month, hmonth⟩ := Option.isSome_iff_exists.mp hmonth
      simp [rowMonth, hsame.month, hmonth]
  | some saleId =>
      obtain ⟨sale, hmem, rfl, -, hdraft, hmonth, hown, -⟩ := h.ofSale saleId hsale
      obtain ⟨month, hmonth⟩ := Option.isSome_iff_exists.mp hmonth
      obtain ⟨sale', hmem', hkept⟩ := hsales sale hmem hdraft
      rw [rowMonth_of_sale hmem hsale hown, hmonth,
        rowMonth_of_sale hmem' (by rw [hsame.saleId, hsale, hkept.id])
          (hsame.month.trans hown), hkept.month month hmonth]

theorem RowSound.key_eq {db db' : Db} {r r' : LedgerEntry} (h : RowSound db r)
    (hsales : SalesKept db db') (hsame : SameEntry r r') : rowKey db' r' = rowKey db r := by
  have hsummary : rowSummary r' = rowSummary r := by
    funext month
    simp [rowSummary, hsame.tenantId, hsame.beneficiary, hsame.level]
  rw [rowKey, rowKey, h.month_eq hsales hsame, hsummary]

/-- A row stays sound when its status changes in a way that fits its sale. -/
theorem RowSound.kept {db db' : Db} {r r' : LedgerEntry} (h : RowSound db r)
    (hsales : SalesKept db db') (hsame : SameEntry r r')
    (hopen : ∀ sale' ∈ db'.sales, r.saleId = some sale'.id → sale'.status ≠ .void →
      r.status ≠ .reversed → r'.status ≠ .reversed)
    (hvoid : ∀ sale ∈ db.sales, ∀ sale' ∈ db'.sales, SameSale sale sale' →
      r.saleId = some sale.id → sale'.status = .void → r.type = .commission →
      (sale.status = .void → r.status = .paid ∨ r.status = .reversed) →
      r'.status = .paid ∨ r'.status = .reversed) : RowSound db' r' := by
  -- the sale of an old row is the one it already had
  have hold : ∀ sale' ∈ db'.sales, r'.saleId = some sale'.id →
      ∃ sale ∈ db.sales, SameSale sale sale' ∧ r.saleId = some sale.id := by
    intro sale' hsale' hid
    rw [hsame.saleId] at hid
    obtain ⟨sale, hmem, hsaleId, -, hdraft, -⟩ := h.ofSale _ hid
    obtain ⟨sale'', hmem'', hkept⟩ := hsales sale hmem hdraft
    have heq : sale'' = sale' := Table.eq_of_key hmem'' hsale' (hkept.id.trans hsaleId)
    exact ⟨sale, hmem, heq ▸ hkept, by rw [hid, hsaleId]⟩
  refine ⟨?_, ?_, ?_, ?_⟩
  · intro saleId hid
    rw [hsame.saleId] at hid
    obtain ⟨sale, hmem, rfl, htenant, hdraft, hmonth, hown, htype⟩ := h.ofSale saleId hid
    obtain ⟨sale', hmem', hkept⟩ := hsales sale hmem hdraft
    obtain ⟨month, hmonth⟩ := Option.isSome_iff_exists.mp hmonth
    refine ⟨sale', hmem', hkept.id, ?_, hkept.notDraft, ?_, ?_, ?_⟩
    · rw [hkept.tenantId, htenant, hsame.tenantId]
    · rw [hkept.month month hmonth]
      rfl
    · rw [hsame.month, hown]
    · rw [hsame.type]
      exact htype
  · intro hnone
    rw [hsame.saleId] at hnone
    rw [hsame.type, hsame.month]
    exact h.ofNone hnone
  · intro sale' hsale' hid hstatus
    obtain ⟨sale, hmem, hkept, hid'⟩ := hold sale' hsale' hid
    obtain ⟨htype, hrev⟩ := h.notVoid sale hmem hid' (fun hv => hstatus (hkept.void hv))
    rw [hsame.type]
    exact ⟨htype, hopen sale' hsale' (by rw [← hsame.saleId, hid]) hstatus hrev⟩
  · intro sale' hsale' hid hstatus htype
    rw [hsame.type] at htype
    obtain ⟨sale, hmem, hkept, hid'⟩ := hold sale' hsale' hid
    exact hvoid sale hmem sale' hsale' hkept hid' hstatus htype
      (fun hv => h.void sale hmem hid' hv htype)

end Refearn.Engine
