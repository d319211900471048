import Refearn.Engine.Invariants
import Refearn.Engine.Proofs.Commissions
import Refearn.Engine.Proofs.Settlement
/-!
# How the ledger evolves

Every transaction rewrites rows without touching the columns that say what they
are, appends new rows, and keeps the sales that are not drafts. From that alone
follows which facts about a row survive; each transaction only has to say what it
does to statuses and links.
-/

namespace Refearn.Engine

open Support

/-- Old rows are rewritten by `f`, `news` are appended. -/
structure Evolution (f : LedgerEntry → LedgerEntry) (news : List LedgerEntry)
    (db db' : Db) : Prop where
  sales : SalesKept db db'
  rows : db'.ledger.rows = db.ledger.rows.map f ++ news
  same : ∀ r, SameEntry r (f r)

theorem Evolution.of_eq {db db' : Db} (hledger : db'.ledger = db.ledger)
    (hsales : SalesKept db db') : Evolution (fun r => r) [] db db' where
  sales := hsales
  rows := by simp [hledger]
  same := .refl

theorem Evolution.mem_cases {f : LedgerEntry → LedgerEntry} {news : List LedgerEntry}
    {db db' : Db} (h : Evolution f news db db') {r' : LedgerEntry} (hr' : r' ∈ db'.ledger) :
    (∃ r ∈ db.ledger, f r = r') ∨ r' ∈ news := by
  rw [Table.mem_def, h.rows, List.mem_append, List.mem_map] at hr'
  exact hr'

theorem Evolution.mem_old {f : LedgerEntry → LedgerEntry} {news : List LedgerEntry}
    {db db' : Db} (h : Evolution f news db db') {r : LedgerEntry} (hr : r ∈ db.ledger) :
    f r ∈ db'.ledger := by
  rw [Table.mem_def, h.rows]
  exact List.mem_append_left _ (List.mem_map_of_mem hr)

theorem Evolution.mem_new {f : LedgerEntry → LedgerEntry} {news : List LedgerEntry}
    {db db' : Db} (h : Evolution f news db db') {r : LedgerEntry} (hr : r ∈ news) :
    r ∈ db'.ledger := by
  rw [Table.mem_def, h.rows]
  exact List.mem_append_right _ hr

/-! ## Rows and sales -/

/-- A transaction that voids no sale keeps the rows sound, if it leaves paid and
reversed rows alone and reverses none. -/
theorem SaleSound.of_evolution {f : LedgerEntry → LedgerEntry} {news : List LedgerEntry}
    {db db' : Db} (h : SaleSound db) (hev : Evolution f news db db')
    (hvoid : ∀ sale ∈ db.sales, ∀ sale' ∈ db'.sales, sale'.id = sale.id →
      sale'.status = .void → sale.status = .void)
    (hopen : ∀ r ∈ db.ledger, r.status ≠ .reversed → (f r).status ≠ .reversed)
    (hclosed : ∀ r ∈ db.ledger, r.status = .paid ∨ r.status = .reversed →
      (f r).status = r.status)
    (hnews : ∀ r ∈ news, RowSound db' r) : SaleSound db' := by
  intro r' hr'
  rcases hev.mem_cases hr' with ⟨r, hr, rfl⟩ | hnew
  · refine (h r hr).kept hev.sales (hev.same r) (fun _ _ _ _ => hopen r hr) ?_
    intro sale hmem sale' hmem' hkept _ hstatus _ hclosed'
    have hpr := hclosed' (hvoid sale hmem sale' hmem' hkept.id hstatus)
    rw [hclosed r hr hpr]
    exact hpr
  · exact hnews r' hnew

/-! ## Rows and batches -/

theorem Matches.kept {db db' : Db} {r r' : LedgerEntry} {i : PayoutSettlementBatchItem}
    (h : Matches db r i) (hsound : RowSound db r) (hsales : SalesKept db db')
    (hsame : SameEntry r r') (hbatch : r'.payoutBatchId = r.payoutBatchId)
    (hpayout : r'.payoutId = r.payoutId) : Matches db' r' i where
  entry := h.entry.trans hsame.id.symm
  batch := hbatch.trans h.batch
  payout := hpayout.trans h.payout
  member := h.member.trans hsame.beneficiary.symm
  level := h.level.trans hsame.level.symm
  amount := h.amount.trans hsame.amount.symm
  month := (hsound.month_eq hsales hsame).trans h.month

/-- A transaction that leaves the payout tables, the links and the held rows alone
keeps the batches sound. -/
theorem BatchSound.of_evolution {f : LedgerEntry → LedgerEntry} {news : List LedgerEntry}
    {db db' : Db} (h : BatchSound db) (hsale : SaleSound db)
    (hev : Evolution f news db db') (hkept : PayoutsKept db db')
    (hheld : ∀ r ∈ db.ledger, isHeld r → (f r).status = r.status)
    (hfree : ∀ r ∈ db.ledger, ¬isHeld r → ¬isHeld (f r))
    (hbatch : ∀ r, (f r).payoutBatchId = r.payoutBatchId)
    (hpayout : ∀ r, (f r).payoutId = r.payoutId)
    (hnews : ∀ r ∈ news, ¬isHeld r ∧ r.payoutId = none ∧ r.payoutBatchId = none) :
    BatchSound db' := by
  obtain ⟨hpayouts, hbatches, hitems⟩ := hkept
  have hmatch : ∀ r ∈ db.ledger, ∀ i, Matches db r i → Matches db' (f r) i :=
    fun r hr i hm => hm.kept (hsale r hr) hev.sales (hev.same r) (hbatch r) (hpayout r)
  have hstays : ∀ r ∈ db.ledger, isHeld (f r) → isHeld r := by
    intro r hr hf
    by_contra hnot
    exact hfree r hr hnot hf
  refine ⟨?_, ?_, ?_, ?_, ?_, ?_, ?_, ?_⟩
  · intro r' hr' hstatus
    rcases hev.mem_cases hr' with ⟨r, hr, rfl⟩ | hnew
    · have hr₀ := hstays r hr hstatus
      obtain ⟨i, hi, b, hb, hid, htenant, hst, hm⟩ := h.held r hr hr₀
      exact ⟨i, hitems ▸ hi, b, hbatches ▸ hb, hid, by rw [htenant, (hev.same r).tenantId],
        by rw [hst, hheld r hr hr₀], hmatch r hr i hm⟩
    · exact absurd hstatus (hnews r' hnew).1
  · intro r' hr' hstatus
    rcases hev.mem_cases hr' with ⟨r, hr, rfl⟩ | hnew
    · rw [hbatch, hpayout]
      refine h.free r hr fun hr₀ => hstatus ?_
      unfold isHeld
      rw [hheld r hr hr₀]
      exact hr₀
    · exact (hnews r' hnew).2
  · intro i hi
    rw [hitems] at hi
    obtain ⟨b, hb, hid, hrow⟩ := h.item i hi
    refine ⟨b, hbatches ▸ hb, hid, fun status hst => ?_⟩
    obtain ⟨r, hr, hrst, htenant, hm⟩ := hrow status hst
    refine ⟨f r, hev.mem_old hr, ?_, by rw [htenant, (hev.same r).tenantId],
      hmatch r hr i hm⟩
    have hr₀ : isHeld r := by
      unfold isHeld
      rw [hrst]
      exact heldStatus_cases hst
    rw [hheld r hr hr₀, hrst]
  · rw [hitems, hpayouts]
    exact h.itemPayout
  · rw [hpayouts, hbatches]
    exact h.payout
  · rw [hpayouts]
    exact h.request
  · rw [hpayouts, hitems]
    exact h.total
  · rw [hpayouts]
    exact h.activeKey

/-- Sales that are rewritten in place become void only where the rewrite says so. -/
theorem voids_of_map {db db' : Db} {f : Sale → Sale}
    (h : db'.sales.rows = db.sales.rows.map f) (hid : ∀ x, (f x).id = x.id)
    (hstatus : ∀ x, (f x).status = .void → x.status = .void) :
    ∀ sale ∈ db.sales, ∀ sale' ∈ db'.sales, sale'.id = sale.id →
      sale'.status = .void → sale.status = .void := by
  intro sale hsale sale' hsale' heq hvoid
  rw [Table.mem_def, h] at hsale'
  obtain ⟨x, hx, rfl⟩ := List.mem_map.mp hsale'
  have hsame : x = sale := Table.eq_of_key hx hsale ((hid x).symm.trans heq)
  rw [← hsame]
  exact hstatus x hvoid

/-- A transaction that writes no row and changes neither statuses nor links keeps all
rows and batches sound. -/
theorem Sound.of_quiet {f : LedgerEntry → LedgerEntry} {db db' : Db} (h : Sound db)
    (hev : Evolution f [] db db') (hkept : PayoutsKept db db')
    (hvoid : ∀ sale ∈ db.sales, ∀ sale' ∈ db'.sales, sale'.id = sale.id →
      sale'.status = .void → sale.status = .void)
    (hstatus : ∀ r, (f r).status = r.status)
    (hbatch : ∀ r, (f r).payoutBatchId = r.payoutBatchId)
    (hpayout : ∀ r, (f r).payoutId = r.payoutId) : Sound db' where
  sale := h.sale.of_evolution hev hvoid (fun r _ hr => by rwa [hstatus r])
    (fun r _ _ => hstatus r) (by simp)
  batch := h.batch.of_evolution h.sale hev hkept (fun r _ _ => hstatus r)
    (fun r _ hr => by unfold isHeld at hr ⊢; rwa [hstatus r]) hbatch hpayout (by simp)

/-! ## Sums over the ledger -/

/-- What the change of a row's status moves in one bucket. -/
def statusShift (db : Db) (f : LedgerEntry → LedgerEntry) (k : SummaryKey) (b : Bucket)
    (r : LedgerEntry) : Int :=
  weight (rowKey db r) (f r).status r.amountCents k b - contribution db k b r

theorem ledgerCents_of_evolution {f : LedgerEntry → LedgerEntry} {news : List LedgerEntry}
    {db db' : Db} (hsale : SaleSound db) (hev : Evolution f news db db')
    (k : SummaryKey) (b : Bucket) :
    ledgerCents db' k b = ledgerCents db k b +
      (db.ledger.rows.map (statusShift db f k b)).sum +
      (news.map (contribution db' k b)).sum := by
  unfold ledgerCents
  rw [hev.rows, List.map_append, List.sum_append]
  congr 1
  have hold : (db.ledger.rows.map f).map (contribution db' k b) =
      db.ledger.rows.map (fun r => contribution db k b r + statusShift db f k b r) := by
    rw [List.map_map]
    refine List.map_congr_left fun r hr => ?_
    simp only [Function.comp, statusShift, contribution]
    rw [(hsale r hr).key_eq hev.sales (hev.same r), (hev.same r).amount]
    omega
  rw [hold, List.sum_map_add]

/-- The summaries follow the ledger, if what is posted is what the rows have moved. -/
theorem NoDrift.of_evolution {f : LedgerEntry → LedgerEntry} {news : List LedgerEntry}
    {db db' : Db} (h : NoDrift db) (ps : List Posting) (hsale : SaleSound db)
    (hev : Evolution f news db db') (hsum : db'.summaries = postAll db.summaries ps)
    (hposted : ∀ k b, posted Prod.fst (fun p => p.2.cents b) ps k =
      (db.ledger.rows.map (statusShift db f k b)).sum +
        (news.map (contribution db' k b)).sum) : NoDrift db' := by
  intro k b
  rw [hsum, summaryCents_postAll, h k b, ledgerCents_of_evolution hsale hev, hposted]
  omega

/-- A rewrite that leaves all statuses alone moves nothing. -/
theorem sum_statusShift_eq_zero {db : Db} {f : LedgerEntry → LedgerEntry}
    (hf : ∀ r ∈ db.ledger, (f r).status = r.status) (k : SummaryKey) (b : Bucket) :
    (db.ledger.rows.map (statusShift db f k b)).sum = 0 := by
  refine List.sum_eq_zero fun x hx => ?_
  obtain ⟨r, hr, rfl⟩ := List.mem_map.mp hx
  simp [statusShift, contribution, hf r hr]

theorem NoDrift.of_quiet {f : LedgerEntry → LedgerEntry} {db db' : Db} (h : NoDrift db)
    (hsale : SaleSound db) (hev : Evolution f [] db db')
    (hsum : db'.summaries = db.summaries) (hstatus : ∀ r, (f r).status = r.status) :
    NoDrift db' := by
  refine h.of_evolution [] hsale hev hsum fun k b => ?_
  rw [sum_statusShift_eq_zero (fun r _ => hstatus r)]
  rfl

end Refearn.Engine
