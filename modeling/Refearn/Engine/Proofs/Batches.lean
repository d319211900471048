import Refearn.Engine.Proofs.Evolution
import Refearn.Engine.Proofs.Selection
/-!
# The payout half keeps the invariants

A reservation claims the rows of one member after another; what has been read of
the members still to come stays true meanwhile. Settling and failing rewrite a
batch, its payouts and its rows together.
-/

namespace Refearn.Engine

open Support Support.Transaction Payouts

/-! ## What a reservation has read -/

/-- A reserved row is the payable ledger row it was read from. -/
structure Snapshot (db : Db) (tenantId membershipId : Uuid) (row : PayoutLedgerRow)
    (e : LedgerEntry) : Prop where
  mem : e ∈ db.ledger
  id : e.id = row.id
  tenantId : e.tenantId = tenantId
  member : e.beneficiaryMembershipId = membershipId
  level : e.level = row.level
  amount : e.amountCents = row.amountCents
  status : e.status = .payable
  month : rowMonth db e = some row.month

/-- What was read of a member still holds. -/
structure Reservable (params : ReserveParams) (db : Db) (r : PayoutReservation) : Prop where
  rows : ∀ row ∈ r.rows, ∃ e, Snapshot db params.tenantId r.membershipId row e
  nodup : (r.rows.map PayoutLedgerRow.id).Nodup
  amount : r.amountCents = (r.rows.map PayoutLedgerRow.amountCents).sum
  request : ∀ id, r.requestedPayoutId = some id → ∃ p ∈ db.payouts, p.id = id ∧
    p.tenantId = params.tenantId ∧ p.membershipId = r.membershipId ∧
    p.period = params.period ∧ p.status = .requested

theorem mem_payableRows {db : Db} {tenantId membershipId : Uuid} {e : LedgerEntry} :
    e ∈ payableRows db tenantId membershipId ↔
      e ∈ db.ledger ∧ e.tenantId = tenantId ∧ e.beneficiaryMembershipId = membershipId ∧
        e.status = .payable := by
  simp [payableRows, List.mem_insertionSort, isPayableOf, Table.mem_def, and_assoc]

theorem nodup_payableRows (db : Db) (tenantId membershipId : Uuid) :
    ((payableRows db tenantId membershipId).map LedgerEntry.id).Nodup := by
  unfold payableRows
  refine ((List.perm_insertionSort _ _).map _).nodup_iff.mpr ?_
  exact (List.filter_sublist.map _).nodup db.ledger.keys_nodup

theorem mem_activePayouts {db : Db} {tenantId membershipId : Uuid} {period : String}
    {p : Payout} (h : p ∈ activePayouts db tenantId membershipId period) :
    p ∈ db.payouts ∧ p.tenantId = tenantId ∧ p.membershipId = membershipId ∧
      p.period = period := by
  rw [activePayouts, List.mem_insertionSort, List.mem_filter] at h
  obtain ⟨hmem, hactive⟩ := h
  simp only [decide_eq_true_eq] at hactive
  exact ⟨hmem, hactive.1, hactive.2.1, hactive.2.2.1⟩

/-- The request that is reused is an open request of the list. -/
theorem reusableRequest_eq_some {params : ReserveParams} {active : List Payout} {id : Uuid}
    (h : reusableRequest params active = .ok (some (some id))) :
    ∃ p ∈ active, p.id = id ∧ p.status = .requested := by
  unfold reusableRequest at h
  split at h
  · split at h
    · cases h
    · next request hfind =>
        split_ifs at h with hrequested hother
        · cases h
        · have hid : request.id = id := by
            simpa using h
          exact ⟨request, List.mem_of_find?_eq_some hfind, hid, not_not.mp hrequested⟩
  · split_ifs at h
    · cases h
    · have hfound : (active.find? (fun p => p.status = .requested)).map Payout.id = some id := by
        simpa using h
      obtain ⟨p, hfind, hid⟩ := Option.map_eq_some_iff.mp hfound
      exact ⟨p, List.mem_of_find?_eq_some hfind, hid,
        by simpa using List.find?_some hfind⟩

theorem coalescedMonth_eq {env : Env} {db : Db} {timezone month : String} {e : LedgerEntry}
    (h : rowMonth db e = some month) : coalescedMonth env db timezone e = month := by
  unfold rowMonth at h
  simp [coalescedMonth, h]

theorem Eligible.reservable {env : Env} {db : Db} {tenant : Tenant} {params : ReserveParams}
    {r : PayoutReservation} (h : Eligible env db tenant params r) (hsale : SaleSound db) :
    Reservable params db r where
  rows row hrow := by
    rw [h.rows] at hrow
    obtain ⟨e, he, rfl⟩ := List.mem_map.mp hrow
    obtain ⟨hmem, htenant, hmember, hstatus⟩ := mem_payableRows.mp he
    obtain ⟨month, hmonth⟩ := (hsale e hmem).exists_month
    exact ⟨e, hmem, rfl, htenant, hmember, rfl, rfl, hstatus,
      by rw [hmonth]; exact congrArg some (coalescedMonth_eq hmonth).symm⟩
  nodup := by
    rw [h.rows, List.map_map]
    exact nodup_payableRows db params.tenantId r.membershipId
  amount := by
    rw [h.amount, h.rows, List.map_map]
    rfl
  request id hid := by
    have hreuse := h.request
    rw [hid] at hreuse
    obtain ⟨p, hp, hpid, hstatus⟩ := reusableRequest_eq_some hreuse
    obtain ⟨hmem, htenant, hmember, hperiod⟩ := mem_activePayouts hp
    exact ⟨p, hmem, hpid, htenant, hmember, hperiod, hstatus⟩

/-! ## The payout of a member -/

/-- A request is in no batch. -/
theorem BatchSound.request_free {db : Db} (h : BatchSound db) {p : Payout}
    (hp : p ∈ db.payouts) (hstatus : p.status = .requested) : p.batchId = none := by
  cases hbatch : p.batchId with
  | none => rfl
  | some batchId =>
      obtain ⟨b, -, -, -, hst⟩ := h.payout p hp batchId hbatch
      rw [hstatus] at hst
      cases hb : b.status <;> rw [hb] at hst <;> cases hst

/-- The payout that a reservation has opened, among the payouts it has left alone. -/
structure Opened (params : ReserveParams) (batchId : Uuid) (r : PayoutReservation)
    (payoutId : Uuid) (payouts payouts' : Table Payout) (p : Payout) : Prop where
  mem : p ∈ payouts'
  id : p.id = payoutId
  tenantId : p.tenantId = params.tenantId
  member : p.membershipId = r.membershipId
  batch : p.batchId = some batchId
  total : p.totalCents = r.amountCents
  status : p.status = .processing
  activeKey : p.activeKey = some (payoutActiveKey p.tenantId p.membershipId p.period)
  period : p.period = params.period
  cases : ∀ q ∈ payouts', q = p ∨ (q ∈ payouts ∧ q.id ≠ payoutId)
  kept : ∀ q ∈ payouts, q.id ≠ payoutId → q ∈ payouts'
  request : ∀ q ∈ payouts, q.id = payoutId →
    q.status = .requested ∧ q.membershipId = r.membershipId

theorem PayoutOpened.opened {params : ReserveParams} {batchId : Uuid} {now : Instant}
    {r : PayoutReservation} {payoutId : Uuid} {db : Db} {payouts' : Table Payout}
    (h : PayoutOpened params batchId now r payoutId db.payouts payouts')
    (hr : Reservable params db r) :
    ∃ p, Opened params batchId r payoutId db.payouts payouts' p := by
  cases h with
  | reused hrequest hfound hrows =>
      obtain ⟨p, hp, rfl, htenant, hmember, hperiod, hstatus⟩ := hr.request payoutId hrequest
      refine ⟨reservePayout params batchId now r p, ?_, rfl, htenant, hmember, rfl, rfl, rfl,
        ?_, hperiod, ?_, ?_, ?_⟩
      · rw [Table.mem_def, hrows]
        exact List.mem_map.mpr ⟨p, hp, if_pos rfl⟩
      · simp [reservePayout, htenant, hmember, hperiod]
      · intro q hq
        rw [Table.mem_def, hrows] at hq
        obtain ⟨q₀, hq₀, rfl⟩ := List.mem_map.mp hq
        split_ifs with hid
        · rw [Table.eq_of_key hq₀ hp hid]
          exact .inl rfl
        · exact .inr ⟨hq₀, hid⟩
      · intro q hq hid
        rw [Table.mem_def, hrows]
        exact List.mem_map.mpr ⟨q, hq, if_neg hid⟩
      · intro q hq hid
        rw [Table.eq_of_key hq hp hid]
        exact ⟨hstatus, hmember⟩
  | created hrequest hfresh hrows =>
      refine ⟨newPayout params batchId now r payoutId, ?_, rfl, rfl, rfl, rfl, rfl, rfl, rfl,
        rfl, ?_, ?_, ?_⟩
      · simp [Table.mem_def, hrows]
      · intro q hq
        rw [Table.mem_def, hrows, List.mem_append, List.mem_singleton] at hq
        rcases hq with hq | hq
        · exact .inr ⟨hq, hfresh q hq⟩
        · exact .inl hq
      · intro q hq _
        rw [Table.mem_def, hrows]
        exact List.mem_append_left _ hq
      · intro q hq hid
        exact absurd hid (hfresh q hq)

/-! ## The rows of a member -/

/-- The rewrite of a claim. -/
def claimRow (rows : List PayoutLedgerRow) (payoutId batchId : Uuid) (e : LedgerEntry) :
    LedgerEntry :=
  if isClaimable rows e then claim payoutId batchId e else e

theorem claimRow_sameEntry (rows : List PayoutLedgerRow) (payoutId batchId : Uuid)
    (e : LedgerEntry) : SameEntry e (claimRow rows payoutId batchId e) := by
  unfold claimRow
  split_ifs
  · exact ⟨rfl, rfl, rfl, rfl, rfl, rfl, rfl, rfl, rfl, rfl⟩
  · exact .refl e

/-- The rows that are claimed are the ones that were read. -/
theorem Reservable.isClaimable_iff {params : ReserveParams} {db : Db}
    {r : PayoutReservation} (h : Reservable params db r) (hbatch : BatchSound db)
    {e : LedgerEntry} (he : e ∈ db.ledger) :
    isClaimable r.rows e = true ↔
      ∃ row ∈ r.rows, Snapshot db params.tenantId r.membershipId row e := by
  simp only [isClaimable, Bool.and_eq_true, List.contains_eq_mem, decide_eq_true_eq,
    List.mem_map]
  constructor
  · rintro ⟨⟨⟨⟨row, hrow, hid⟩, -⟩, -⟩, -⟩
    obtain ⟨e', hsnap⟩ := h.rows row hrow
    have heq : e' = e := Table.eq_of_key hsnap.mem he (hsnap.id.trans hid)
    exact ⟨row, hrow, heq ▸ hsnap⟩
  · rintro ⟨row, hrow, hsnap⟩
    have hfree : ¬isHeld e := by
      unfold isHeld
      rw [hsnap.status]
      simp
    obtain ⟨hpayout, hbatchId⟩ := hbatch.free e he hfree
    refine ⟨⟨⟨⟨row, hrow, hsnap.id.symm⟩, hsnap.status⟩, ?_⟩, ?_⟩
    · rw [hpayout]
      rfl
    · rw [hbatchId]
      rfl

theorem claimRow_of_snapshot {params : ReserveParams} {db : Db} {r : PayoutReservation}
    (h : Reservable params db r) (hbatch : BatchSound db) {row : PayoutLedgerRow}
    (hrow : row ∈ r.rows) {e : LedgerEntry}
    (hsnap : Snapshot db params.tenantId r.membershipId row e) (payoutId batchId : Uuid) :
    claimRow r.rows payoutId batchId e = claim payoutId batchId e :=
  if_pos ((h.isClaimable_iff hbatch hsnap.mem).mpr ⟨row, hrow, hsnap⟩)

/-- A row that is not payable is not claimed. -/
theorem claimRow_of_not_payable {rows : List PayoutLedgerRow} {payoutId batchId : Uuid}
    {e : LedgerEntry} (h : e.status ≠ .payable) : claimRow rows payoutId batchId e = e := by
  unfold claimRow
  rw [if_neg]
  simp [isClaimable, h]

theorem claimRow_of_held {rows : List PayoutLedgerRow} {payoutId batchId : Uuid}
    {e : LedgerEntry} (h : isHeld e) : claimRow rows payoutId batchId e = e := by
  refine claimRow_of_not_payable fun hpayable => ?_
  rcases h with h | h <;> rw [hpayable] at h <;> cases h

/-- An item of a reservation matches the row that was claimed with it. -/
theorem Snapshot.matches {params : ReserveParams} {db db' : Db} {r : PayoutReservation}
    {row : PayoutLedgerRow} {e : LedgerEntry}
    (h : Snapshot db params.tenantId r.membershipId row e) (hsale : SaleSound db)
    (hsales : SalesKept db db') (batchId payoutId id : Uuid) (now : Instant) :
    Matches db' (claim payoutId batchId e) (batchItem batchId payoutId now r row id) where
  entry := h.id.symm
  batch := rfl
  payout := rfl
  member := h.member.symm
  level := h.level.symm
  amount := h.amount.symm
  month := by
    have hsame : SameEntry e (claim payoutId batchId e) :=
      ⟨rfl, rfl, rfl, rfl, rfl, rfl, rfl, rfl, rfl, rfl⟩
    rw [(hsale e h.mem).month_eq hsales hsame, h.month]
    rfl

/-! ## One member -/

namespace MemberReserved

variable {params : ReserveParams} {batchId : Uuid} {now : Instant} {r : PayoutReservation}
  {payoutId : Uuid} {db db' : Db}

theorem evolution (h : MemberReserved params batchId now r payoutId db db') :
    Evolution (claimRow r.rows payoutId batchId) [] db db' where
  sales := .of_eq h.sales
  rows := by rw [h.ledger, List.append_nil]; rfl
  same := claimRow_sameEntry _ _ _

theorem saleSound (h : MemberReserved params batchId now r payoutId db db')
    (hsale : SaleSound db) : SaleSound db' := by
  refine hsale.of_evolution h.evolution ?_ ?_ ?_ (by simp)
  · intro sale hmem sale' hmem' hid hvoid
    rw [h.sales] at hmem'
    rwa [← Table.eq_of_key hmem' hmem hid]
  · intro e _ hstatus
    unfold claimRow
    split_ifs
    · simp [claim]
    · exact hstatus
  · intro e _ hstatus
    have hne : e.status ≠ .payable := by
      rcases hstatus with hst | hst <;> simp [hst]
    rw [claimRow_of_not_payable hne]

/-- The items of the other payouts are the ones they had. -/
theorem itemTotal_eq (h : MemberReserved params batchId now r payoutId db db')
    {id : Uuid} (hid : id ≠ payoutId) :
    itemTotal db'.items.rows id = itemTotal db.items.rows id := by
  obtain ⟨news, hdrawn, hrows⟩ := h.items
  unfold itemTotal
  rw [hrows, posted_append]
  have hnew : posted PayoutSettlementBatchItem.payoutId
      PayoutSettlementBatchItem.amountCents news id = 0 := by
    refine List.sum_eq_zero fun x hx => ?_
    obtain ⟨i, hi, rfl⟩ := List.mem_map.mp hx
    obtain ⟨row, -, id', rfl⟩ := hdrawn.exists_of_mem hi
    exact if_neg (Ne.symm hid)
  rw [hnew, add_zero]

/-- The payout that was opened is worth its items. -/
theorem itemTotal_opened (h : MemberReserved params batchId now r payoutId db db')
    (hr : Reservable params db r) (hbatch : BatchSound db)
    (hrequest : ∀ q ∈ db.payouts, q.id = payoutId → q.status = .requested) :
    itemTotal db'.items.rows payoutId = r.amountCents := by
  obtain ⟨news, hdrawn, hrows⟩ := h.items
  unfold itemTotal
  rw [hrows, posted_append, hr.amount]
  have hold : posted PayoutSettlementBatchItem.payoutId
      PayoutSettlementBatchItem.amountCents db.items.rows payoutId = 0 := by
    refine List.sum_eq_zero fun x hx => ?_
    obtain ⟨i, hi, rfl⟩ := List.mem_map.mp hx
    refine if_neg fun heq => ?_
    obtain ⟨p, hp, hpid, hpbatch, -⟩ := hbatch.itemPayout i hi
    have hfree := hbatch.request_free hp (hrequest p hp (hpid.trans heq))
    rw [hfree] at hpbatch
    cases hpbatch
  rw [hold, zero_add]
  exact congrArg List.sum (hdrawn.map_eq fun row id => if_pos rfl)

theorem mem_item (h : MemberReserved params batchId now r payoutId db db')
    {i : PayoutSettlementBatchItem} (hi : i ∈ db.items) : i ∈ db'.items := by
  obtain ⟨news, -, hrows⟩ := h.items
  rw [Table.mem_def, hrows]
  exact List.mem_append_left _ hi

theorem item_cases (h : MemberReserved params batchId now r payoutId db db')
    {i : PayoutSettlementBatchItem} (hi : i ∈ db'.items) :
    i ∈ db.items ∨ ∃ row ∈ r.rows, ∃ id, i = batchItem batchId payoutId now r row id := by
  obtain ⟨news, hdrawn, hrows⟩ := h.items
  rw [Table.mem_def, hrows, List.mem_append] at hi
  exact hi.imp (fun hi => hi) hdrawn.exists_of_mem

/-- A row is the payable row of an item of this reservation, or it is as it was. -/
theorem row_cases (h : MemberReserved params batchId now r payoutId db db')
    (hr : Reservable params db r) (hbatch : BatchSound db) {e' : LedgerEntry}
    (he' : e' ∈ db'.ledger) :
    e' ∈ db.ledger ∨ ∃ row ∈ r.rows, ∃ e,
      Snapshot db params.tenantId r.membershipId row e ∧ claim payoutId batchId e = e' := by
  rcases h.evolution.mem_cases he' with ⟨e, he, rfl⟩ | hnew
  · by_cases hclaim : isClaimable r.rows e = true
    · obtain ⟨row, hrow, hsnap⟩ := (hr.isClaimable_iff hbatch he).mp hclaim
      exact .inr ⟨row, hrow, e, hsnap, (claimRow_of_snapshot hr hbatch hrow hsnap ..).symm⟩
    · have hkeep : claimRow r.rows payoutId batchId e = e := if_neg hclaim
      rw [hkeep]
      exact .inl he
  · cases hnew

theorem mem_held (h : MemberReserved params batchId now r payoutId db db')
    {e : LedgerEntry} (he : e ∈ db.ledger) (hheld : isHeld e) : e ∈ db'.ledger := by
  have hmem := h.evolution.mem_old he
  rwa [claimRow_of_held hheld] at hmem

theorem held (h : MemberReserved params batchId now r payoutId db db')
    (hr : Reservable params db r) (hsale : SaleSound db) (hbatch : BatchSound db)
    {b : PayoutSettlementBatch} (hb : b ∈ db.batches) (hbid : b.id = batchId)
    (htenant : b.tenantId = params.tenantId) (hbstatus : b.status = .processing)
    {e : LedgerEntry} (he : e ∈ db'.ledger) (hheld : isHeld e) :
    ∃ i ∈ db'.items, ∃ b ∈ db'.batches, b.id = i.batchId ∧ b.tenantId = e.tenantId ∧
      heldStatus b.status = some e.status ∧ Matches db' e i := by
  rw [h.batches]
  rcases h.row_cases hr hbatch he with he | ⟨row, hrow, e, hsnap, rfl⟩
  · obtain ⟨i, hi, b, hb, hid, htenant, hst, hm⟩ := hbatch.held e he hheld
    exact ⟨i, h.mem_item hi, b, hb, hid, htenant, hst,
      hm.kept (hsale e he) h.evolution.sales (.refl e) rfl rfl⟩
  · obtain ⟨news, hdrawn, hitems⟩ := h.items
    obtain ⟨id, hi⟩ := hdrawn.mem_of_mem hrow
    refine ⟨batchItem batchId payoutId now r row id, ?_, b, hb, hbid,
      htenant.trans hsnap.tenantId.symm, by rw [hbstatus]; rfl,
      hsnap.matches hsale h.evolution.sales batchId payoutId id now⟩
    rw [Table.mem_def, hitems]
    exact List.mem_append_right _ hi

theorem item (h : MemberReserved params batchId now r payoutId db db')
    (hr : Reservable params db r) (hsale : SaleSound db) (hbatch : BatchSound db)
    {b : PayoutSettlementBatch} (hb : b ∈ db.batches) (hbid : b.id = batchId)
    (htenant : b.tenantId = params.tenantId) (hbstatus : b.status = .processing)
    {i : PayoutSettlementBatchItem} (hi : i ∈ db'.items) :
    ∃ b ∈ db'.batches, b.id = i.batchId ∧ ∀ status, heldStatus b.status = some status →
      ∃ e ∈ db'.ledger, e.status = status ∧ b.tenantId = e.tenantId ∧ Matches db' e i := by
  rw [h.batches]
  rcases h.item_cases hi with hi | ⟨row, hrow, id, rfl⟩
  · obtain ⟨b, hb, hid, hrows⟩ := hbatch.item i hi
    refine ⟨b, hb, hid, fun status hst => ?_⟩
    obtain ⟨e, he, hest, htenant, hm⟩ := hrows status hst
    have hheld : isHeld e := by
      unfold isHeld
      rw [hest]
      exact heldStatus_cases hst
    exact ⟨e, h.mem_held he hheld, hest, htenant,
      hm.kept (hsale e he) h.evolution.sales (.refl e) rfl rfl⟩
  · refine ⟨b, hb, hbid, fun status hst => ?_⟩
    rw [hbstatus] at hst
    obtain ⟨e, hsnap⟩ := hr.rows row hrow
    refine ⟨claim payoutId batchId e, ?_, Option.some.inj hst,
      htenant.trans hsnap.tenantId.symm,
      hsnap.matches hsale h.evolution.sales batchId payoutId id now⟩
    rw [← claimRow_of_snapshot hr hbatch hrow hsnap]
    exact h.evolution.mem_old hsnap.mem

theorem batchSound (h : MemberReserved params batchId now r payoutId db db')
    (hr : Reservable params db r) (hsale : SaleSound db) (hbatch : BatchSound db)
    {b : PayoutSettlementBatch} (hb : b ∈ db.batches) (hbid : b.id = batchId)
    (htenant : b.tenantId = params.tenantId) (hbstatus : b.status = .processing) :
    BatchSound db' := by
  obtain ⟨p, hopened⟩ := h.payouts.opened hr
  have hrequest : ∀ q ∈ db.payouts, q.id = payoutId → q.batchId = none := fun q hq hid =>
    hbatch.request_free hq (hopened.request q hq hid).1
  refine ⟨fun e => h.held hr hsale hbatch hb hbid htenant hbstatus, ?_,
    fun i => h.item hr hsale hbatch hb hbid htenant hbstatus, ?_, ?_, ?_, ?_, ?_⟩
  · intro e he hfree
    rcases h.row_cases hr hbatch he with he | ⟨row, -, e, -, rfl⟩
    · exact hbatch.free e he hfree
    · exact absurd (.inl rfl) hfree
  · intro i hi
    rcases h.item_cases hi with hi | ⟨row, -, id, rfl⟩
    · obtain ⟨q, hq, hqid, hqbatch, hqmember⟩ := hbatch.itemPayout i hi
      refine ⟨q, hopened.kept q hq fun heq => ?_, hqid, hqbatch, hqmember⟩
      rw [hrequest q hq heq] at hqbatch
      exact Option.some_ne_none _ hqbatch.symm
    · exact ⟨p, hopened.mem, hopened.id, hopened.batch, hopened.member⟩
  · intro q hq bid hqbatch
    rw [h.batches]
    rcases hopened.cases q hq with rfl | ⟨hq, -⟩
    · rw [hopened.batch, Option.some.injEq] at hqbatch
      exact ⟨b, hb, hbid.trans hqbatch, htenant.trans hopened.tenantId.symm,
        by rw [hopened.status, hbstatus]; rfl⟩
    · exact hbatch.payout q hq bid hqbatch
  · intro q hq hnone
    rcases hopened.cases q hq with rfl | ⟨hq, -⟩
    · rw [hopened.batch] at hnone
      exact absurd hnone (Option.some_ne_none _)
    · exact hbatch.request q hq hnone
  · intro q hq hsome
    rcases hopened.cases q hq with rfl | ⟨hq, hid⟩
    · rw [hopened.total, hopened.id, h.itemTotal_opened hr hbatch
        (fun q hq hid => (hopened.request q hq hid).1)]
    · rw [h.itemTotal_eq hid]
      exact hbatch.total q hq hsome
  · intro q hq k hk
    rcases hopened.cases q hq with rfl | ⟨hq, -⟩
    · rw [hopened.activeKey, Option.some.injEq] at hk
      exact ⟨by rw [hopened.status]; rfl, hk.symm⟩
    · exact hbatch.activeKey q hq k hk

/-- What was read of another member still holds afterwards. -/
theorem reservable (h : MemberReserved params batchId now r payoutId db db')
    (hr : Reservable params db r) (hsale : SaleSound db) (hbatch : BatchSound db)
    {r' : PayoutReservation} (hne : r'.membershipId ≠ r.membershipId)
    (hr' : Reservable params db r') : Reservable params db' r' := by
  obtain ⟨p, hopened⟩ := h.payouts.opened hr
  have hev := h.evolution
  refine ⟨?_, hr'.nodup, hr'.amount, ?_⟩
  · intro row hrow
    obtain ⟨e, hsnap⟩ := hr'.rows row hrow
    have hkeep : claimRow r.rows payoutId batchId e = e := by
      refine if_neg fun hclaim => ?_
      obtain ⟨row', -, hsnap'⟩ := (hr.isClaimable_iff hbatch hsnap.mem).mp hclaim
      exact hne (hsnap.member.symm.trans hsnap'.member)
    have hmem := hev.mem_old hsnap.mem
    rw [hkeep] at hmem
    exact ⟨e, hmem, hsnap.id, hsnap.tenantId, hsnap.member, hsnap.level, hsnap.amount,
      hsnap.status, by rw [(hsale e hsnap.mem).month_eq hev.sales (.refl e), hsnap.month]⟩
  · intro id hid
    obtain ⟨q, hq, hqid, htenant, hmember, hperiod, hstatus⟩ := hr'.request id hid
    refine ⟨q, hopened.kept q hq fun heq => ?_, hqid, htenant, hmember, hperiod, hstatus⟩
    exact hne (hmember.symm.trans (hopened.request q hq heq).2)

end MemberReserved

/-! ## Differences per key -/

/-- The delta of an amount is additive in it. -/
def Additive (delta : Int → SummaryDelta) : Prop :=
  ∀ b x y, (delta (x + y)).cents b = (delta x).cents b + (delta y).cents b

theorem reserveDelta_additive : Additive reserveDelta := by
  intro b x y
  cases b <;> simp [reserveDelta, SummaryDelta.cents]
  omega

/-- A delta may be taken before or after the amounts are posted. -/
theorem posted_delta {α : Type} {delta : Int → SummaryDelta} (hadd : Additive delta)
    (key : α → SummaryKey) (amount : α → Int) (xs : List α) (k : SummaryKey) (b : Bucket) :
    posted key (fun x => (delta (amount x)).cents b) xs k =
      (delta (posted key amount xs k)).cents b :=
  posted_hom key amount (AddMonoidHom.mk' (fun x => (delta x).cents b) (hadd b)) xs k

/-- Posting one total per key posts what the rows post one by one. -/
theorem posted_totals {α : Type} {delta : Int → SummaryDelta} (hadd : Additive delta)
    (key : α → SummaryKey) (amount : α → Int) (xs : List α) (k : SummaryKey) (b : Bucket) :
    posted Prod.fst (fun p => p.2.cents b)
        ((groupTotals key amount xs).map (totalPosting delta)) k =
      posted key (fun x => (delta (amount x)).cents b) xs k := by
  rw [posted_map, posted_delta hadd, ← posted_groupTotals key amount]
  exact posted_delta hadd Prod.fst Prod.snd _ k b

/-! ## The members one after another -/

theorem MemberReserved.ledgerCents_eq {params : ReserveParams} {batchId : Uuid}
    {now : Instant} {r : PayoutReservation} {payoutId : Uuid} {db db' : Db}
    (h : MemberReserved params batchId now r payoutId db db') (hr : Reservable params db r)
    (hsale : SaleSound db) (hbatch : BatchSound db) (k : SummaryKey) (b : Bucket) :
    ledgerCents db' k b = ledgerCents db k b +
      posted (reservedKey params.tenantId) (fun m => (reserveDelta m.2.amountCents).cents b)
        (r.rows.map (fun row => (r.membershipId, row))) k := by
  rw [ledgerCents_of_evolution hsale h.evolution, List.map_nil, List.sum_nil, add_zero,
    posted_map, posted]
  congr 1
  refine Table.sum_selected hr.nodup ?_ ?_
  · intro row hrow
    obtain ⟨e, hsnap⟩ := hr.rows row hrow
    refine ⟨e, hsnap.mem, hsnap.id, ?_⟩
    have hkey : rowKey db e = some (reservedKey params.tenantId (r.membershipId, row)) := by
      simp [rowKey, hsnap.month, rowSummary, reservedKey, hsnap.tenantId, hsnap.member,
        hsnap.level]
    rw [statusShift, claimRow_of_snapshot hr hbatch hrow hsnap, contribution, hkey,
      hsnap.status, hsnap.amount]
    simp only [Function.comp, weight, claim, Option.some.injEq]
    generalize reservedKey params.tenantId (r.membershipId, row) = key
    by_cases hk : key = k
    · cases b <;> simp [hk, statusBucket, reserveDelta, SummaryDelta.cents]
    · simp [hk]
  · intro e he hid
    have hkeep : claimRow r.rows payoutId batchId e = e := by
      refine if_neg fun hclaim => ?_
      obtain ⟨row, hrow, hsnap⟩ := (hr.isClaimable_iff hbatch he).mp hclaim
      exact hid (List.mem_map.mpr ⟨row, hrow, hsnap.id.symm⟩)
    simp [statusShift, hkeep, contribution]

/-- The loop over the members: rows and batches stay sound, and the ledger moves what
the summaries are told afterwards. -/
theorem MembersReserved.sound {params : ReserveParams} {batchId : Uuid} {now : Instant}
    {rs : List PayoutReservation} {processing : List ProcessingPayout} {db db' : Db}
    (h : MembersReserved params batchId now rs processing db db')
    (hrs : ∀ r ∈ rs, Reservable params db r)
    (hnodup : (rs.map PayoutReservation.membershipId).Nodup) (hsound : Sound db)
    {b : PayoutSettlementBatch} (hb : b ∈ db.batches) (hbid : b.id = batchId)
    (htenant : b.tenantId = params.tenantId) (hbstatus : b.status = .processing) :
    Sound db' ∧ ∀ k bucket, ledgerCents db' k bucket = ledgerCents db k bucket +
      posted (reservedKey params.tenantId)
        (fun m => (reserveDelta m.2.amountCents).cents bucket) (reservedMoves rs) k := by
  induction h with
  | nil db => exact ⟨hsound, fun k bucket => by simp [reservedMoves]⟩
  | @cons r rest payoutId payouts db₁ db₂ db₃ hone _ ih =>
      rw [List.map_cons, List.nodup_cons] at hnodup
      have hr := hrs r List.mem_cons_self
      have hsound₂ : Sound db₂ :=
        ⟨hone.saleSound hsound.sale,
          hone.batchSound hr hsound.sale hsound.batch hb hbid htenant hbstatus⟩
      have hrest : ∀ r' ∈ rest, Reservable params db₂ r' := by
        intro r' hr'
        refine hone.reservable hr hsound.sale hsound.batch (fun heq => ?_)
          (hrs r' (List.mem_cons_of_mem _ hr'))
        exact hnodup.1 (heq ▸ List.mem_map_of_mem hr')
      have hb₂ : b ∈ db₂.batches := by
        rw [hone.batches]
        exact hb
      obtain ⟨hsound₃, hcents⟩ := ih hrest hnodup.2 hsound₂ hb₂
      refine ⟨hsound₃, fun k bucket => ?_⟩
      have hmoves : reservedMoves (r :: rest) =
          r.rows.map (fun row => (r.membershipId, row)) ++ reservedMoves rest := rfl
      rw [hcents, hone.ledgerCents_eq hr hsound.sale hsound.batch, hmoves, posted_append,
        add_assoc]

/-! ## A whole reservation -/

theorem rowMonth_congr {db db' : Db} (h : db'.sales = db.sales) (r : LedgerEntry) :
    rowMonth db' r = rowMonth db r := by
  rw [rowMonth, rowMonth, h]

/-- The batches may change their rows, as long as their statuses hold the same rows. -/
theorem BatchSound.of_batches {db db' : Db} (h : BatchSound db)
    (hbatches : ∀ b ∈ db.batches, ∃ b' ∈ db'.batches, b'.id = b.id ∧
      b'.tenantId = b.tenantId ∧ heldStatus b'.status = heldStatus b.status ∧
      payoutStatusOf b'.status = payoutStatusOf b.status)
    (hsales : db'.sales = db.sales) (hledger : db'.ledger = db.ledger)
    (hpayouts : db'.payouts = db.payouts) (hitems : db'.items = db.items) :
    BatchSound db' := by
  have hmatch : ∀ e i, Matches db e i → Matches db' e i := fun e i hm =>
    ⟨hm.entry, hm.batch, hm.payout, hm.member, hm.level, hm.amount,
      by rw [rowMonth_congr hsales]; exact hm.month⟩
  refine ⟨?_, hledger ▸ h.free, ?_, by rw [hitems, hpayouts]; exact h.itemPayout, ?_,
    hpayouts ▸ h.request, by rw [hpayouts, hitems]; exact h.total, hpayouts ▸ h.activeKey⟩
  · rw [hledger, hitems]
    intro e he hheld
    obtain ⟨i, hi, b, hb, hid, htenant, hst, hm⟩ := h.held e he hheld
    obtain ⟨b', hb', hid', htenant', hheld', -⟩ := hbatches b hb
    exact ⟨i, hi, b', hb', hid'.trans hid, htenant'.trans htenant, hheld'.trans hst,
      hmatch e i hm⟩
  · rw [hledger, hitems]
    intro i hi
    obtain ⟨b, hb, hid, hrows⟩ := h.item i hi
    obtain ⟨b', hb', hid', htenant', hheld', -⟩ := hbatches b hb
    refine ⟨b', hb', hid'.trans hid, fun status hst => ?_⟩
    obtain ⟨e, he, hest, htenant, hm⟩ := hrows status (hheld' ▸ hst)
    exact ⟨e, he, hest, htenant'.trans htenant, hmatch e i hm⟩
  · rw [hpayouts]
    intro p hp batchId hlink
    obtain ⟨b, hb, hid, htenant, hst⟩ := h.payout p hp batchId hlink
    obtain ⟨b', hb', hid', htenant', -, hpayout'⟩ := hbatches b hb
    exact ⟨b', hb', hid'.trans hid, htenant'.trans htenant, hst.trans hpayout'.symm⟩

/-- The row facts read the sales and the ledger only. -/
theorem SaleSound.congr {db db' : Db} (h : SaleSound db) (hsales : db'.sales = db.sales)
    (hledger : db'.ledger = db.ledger) : SaleSound db' := by
  intro r hr
  rw [hledger] at hr
  have hrow := h r hr
  exact ⟨hsales ▸ hrow.ofSale, hrow.ofNone, hsales ▸ hrow.notVoid, hsales ▸ hrow.void⟩

theorem ledgerCents_congr {db db' : Db} (hsales : db'.sales = db.sales)
    (hledger : db'.ledger = db.ledger) (k : SummaryKey) (b : Bucket) :
    ledgerCents db' k b = ledgerCents db k b := by
  unfold ledgerCents
  rw [hledger]
  refine congrArg List.sum (List.map_congr_left fun r _ => ?_)
  rw [contribution, contribution, rowKey, rowKey, rowMonth_congr hsales]

namespace BatchReserved

variable {params : ReserveParams} {now : Instant} {selection : Selection} {batchId : Uuid}
  {processing : List ProcessingPayout} {db db' : Db}

theorem sound_and_noDrift
    (h : BatchReserved params now selection batchId processing db db')
    (hrs : ∀ r ∈ selection.reservations, Reservable params db r)
    (hnodup : (selection.reservations.map PayoutReservation.membershipId).Nodup)
    (hsound : Sound db) (hdrift : NoDrift db) : Sound db' ∧ NoDrift db' := by
  obtain ⟨mid, mid', hmembers, -, hsales, hledger, hpayouts, hitems, hbatches, -, hsales',
    hledger', hpayouts', hitems'⟩ := h.members
  have hkept := hmembers.kept
  have hnew : newBatch params now batchId ∈ mid.batches := by
    simp [hbatches, Table.mem_def, h.batches]
  have hold : ∀ b ∈ db.batches, ∃ b' ∈ mid.batches, b'.id = b.id ∧
      b'.tenantId = b.tenantId ∧ heldStatus b'.status = heldStatus b.status ∧
      payoutStatusOf b'.status = payoutStatusOf b.status := by
    intro b hb
    refine ⟨b, ?_, rfl, rfl, rfl, rfl⟩
    rw [hbatches, Table.mem_def, h.batches]
    exact List.mem_append_left _ hb
  have hmid : Sound mid :=
    ⟨hsound.sale.congr hsales hledger,
      hsound.batch.of_batches hold hsales hledger hpayouts hitems⟩
  have hrs' : ∀ r ∈ selection.reservations, Reservable params mid r := by
    intro r hr
    have hread := hrs r hr
    refine ⟨fun row hrow => ?_, hread.nodup, hread.amount, by rw [hpayouts]; exact hread.request⟩
    obtain ⟨e, hsnap⟩ := hread.rows row hrow
    exact ⟨e, hledger ▸ hsnap.mem, hsnap.id, hsnap.tenantId, hsnap.member, hsnap.level,
      hsnap.amount, hsnap.status, by rw [rowMonth_congr hsales, hsnap.month]⟩
  obtain ⟨hsound', hcents⟩ := hmembers.sound hrs' hnodup hmid hnew rfl rfl rfl
  have hsame : mid'.batches = db'.batches := hkept.2.2.2.trans hbatches
  refine ⟨⟨hsound'.sale.congr hsales' hledger', ?_⟩, fun k b => ?_⟩
  · exact hsound'.batch.of_batches (fun b hb => ⟨b, hsame ▸ hb, rfl, rfl, rfl, rfl⟩) hsales'
      hledger' hpayouts' hitems'
  · rw [h.summaries, summaryCents_postAll, hdrift, reservedTotals,
      posted_totals reserveDelta_additive, ledgerCents_congr hsales' hledger', hcents,
      ledgerCents_congr hsales hledger]

end BatchReserved

end Refearn.Engine
