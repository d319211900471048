import Refearn.Engine.Proofs.Evolution
/-!
# The sale half keeps the invariants

For each transaction of the sale half: how it evolves the ledger, that rows and
batches stay sound, and that the summaries follow the ledger.
-/

namespace Refearn.Engine

open Support Support.Transaction

/-! ## Applying commissions -/

/-- The row of a sale agrees with what a transaction holds of it. -/
structure Stored (db : Db) (sale x : Sale) : Prop where
  mem : x ∈ db.sales
  id : x.id = sale.id
  tenantId : x.tenantId = sale.tenantId
  status : x.status = sale.status
  month : x.summaryMonth = sale.summaryMonth

theorem Stored.of_mem {db : Db} {sale : Sale} (h : sale ∈ db.sales) : Stored db sale sale :=
  ⟨h, rfl, rfl, rfl, rfl⟩

theorem maturation_status (tenant : Tenant) (sale : Sale) (now : Instant) :
    (maturation tenant sale now).1 = .pending ∨ (maturation tenant sale now).1 = .payable := by
  unfold maturation
  cases tenant.maturationRule <;> simp

theorem stamp_sameSale {sale : Sale} {registry : Registry} (i : Inputs sale registry)
    (env : Env) {x : Sale} (h : x.status ≠ .draft) : SameSale x (i.stamp env x) := by
  unfold Inputs.stamp
  split_ifs
  · refine ⟨rfl, rfl, rfl, rfl, h, fun hv => hv, fun m hm => ?_, fun p hp => ?_⟩
    · simp [freezeMonth, pinPlan, hm]
    · simp [freezeMonth, pinPlan, hp]
  · exact .refl h

namespace Distributed

variable {env : Env} {now : Instant} {sale : Sale} {registry : Registry}
  {i : Inputs sale registry} {credits : List Credit} {db db' : Db}

/-- The stored row after the application: its month is the month of the rows. -/
theorem stored (h : Distributed env now i credits db db') {x : Sale} (hx : Stored db sale x) :
    ∃ x' ∈ db'.sales, x'.id = sale.id ∧ x'.tenantId = sale.tenantId ∧
      x'.status = sale.status ∧ x'.summaryMonth = some (i.month env) := by
  refine ⟨i.stamp env x, ?_, ?_⟩
  · rw [Table.mem_def, h.sales]
    exact List.mem_map_of_mem hx.mem
  · unfold Inputs.stamp
    rw [if_pos hx.id]
    refine ⟨hx.id, hx.tenantId, hx.status, ?_⟩
    simp only [freezeMonth, pinPlan, hx.month]
    unfold Inputs.month saleMonth
    cases sale.summaryMonth <;> rfl

theorem evolution (h : Distributed env now i credits db db') :
    ∃ news, Drawn (i.context env now).row credits news ∧
      Evolution (fun r => r) news db db' := by
  obtain ⟨news, hdrawn, hrows⟩ := h.ledger
  refine ⟨news, hdrawn, ?_, by rw [hrows, List.map_id''  (fun _ => rfl)], .refl⟩
  exact .of_map h.sales fun x _ hdraft => stamp_sameSale i env hdraft

theorem newKey (h : Distributed env now i credits db db') {x : Sale} (hx : Stored db sale x)
    (c : Credit) (id : Uuid) :
    rowKey db' ((i.context env now).row c id) =
      some ((i.context env now).posting c).1 := by
  obtain ⟨x', hx', hid, -, -, hmonth⟩ := h.stored hx
  rw [rowKey, rowMonth_of_sale hx' (by rw [hid]; rfl) rfl, hmonth]
  rfl

theorem newSound (h : Distributed env now i credits db db') {x : Sale} (hx : Stored db sale x)
    (happroved : sale.status = .approved) (c : Credit) (id : Uuid) :
    RowSound db' ((i.context env now).row c id) := by
  obtain ⟨x', hx', hid, htenant, hstatus, hmonth⟩ := h.stored hx
  refine ⟨?_, nofun, ?_, ?_⟩
  · intro saleId hsale
    cases hsale
    refine ⟨x', hx', hid, htenant, ?_, by rw [hmonth]; rfl, rfl, nofun⟩
    rw [hstatus, happroved]
    exact nofun
  · intro sale' _ _ _
    refine ⟨rfl, ?_⟩
    rcases maturation_status i.tenant sale now with hst | hst
    · change (maturation i.tenant sale now).1 ≠ _
      rw [hst]
      exact nofun
    · change (maturation i.tenant sale now).1 ≠ _
      rw [hst]
      exact nofun
  · intro sale' hsale' hsaleId hvoid _
    have heq : sale' = x' :=
      Table.eq_of_key hsale' hx' ((Option.some.inj hsaleId).symm.trans hid.symm)
    rw [heq, hstatus, happroved] at hvoid
    cases hvoid

theorem sound (h : Distributed env now i credits db db') {x : Sale} (hx : Stored db sale x)
    (happroved : sale.status = .approved) (hsound : Sound db) : Sound db' := by
  obtain ⟨news, hdrawn, hev⟩ := h.evolution
  refine ⟨hsound.sale.of_evolution hev ?_ (fun _ _ h => h) (fun _ _ _ => rfl) ?_,
    hsound.batch.of_evolution hsound.sale hev h.payouts (fun _ _ _ => rfl)
      (fun _ _ h => h) (fun _ => rfl) (fun _ => rfl) ?_⟩
  · refine voids_of_map h.sales (fun x => ?_) (fun x hx => ?_)
    · unfold Inputs.stamp
      split_ifs <;> rfl
    · unfold Inputs.stamp at hx
      split_ifs at hx <;> exact hx
  · intro r hr
    obtain ⟨c, -, id, rfl⟩ := hdrawn.exists_of_mem hr
    exact h.newSound hx happroved c id
  · intro r hr
    obtain ⟨c, -, id, rfl⟩ := hdrawn.exists_of_mem hr
    refine ⟨?_, rfl, rfl⟩
    rcases maturation_status i.tenant sale now with hst | hst <;>
      simp [isHeld, CreditContext.row, Inputs.context, hst]

/-- What the rows of an application add is what the application posts. -/
theorem newCents (h : Distributed env now i credits db db') {x : Sale}
    (hx : Stored db sale x) (k : SummaryKey) (b : Bucket) (c : Credit) (id : Uuid) :
    contribution db' k b ((i.context env now).row c id) =
      if ((i.context env now).posting c).1 = k then
        ((i.context env now).posting c).2.cents b
      else 0 := by
  unfold contribution weight
  rw [h.newKey hx]
  have hstatus : ((i.context env now).row c id).status = (maturation i.tenant sale now).1 :=
    rfl
  have hdelta : ((i.context env now).posting c).2 =
      if (maturation i.tenant sale now).1 = .payable then { payable := c.amountCents }
      else { pending := c.amountCents } := rfl
  rw [hstatus, hdelta]
  by_cases hk : ((i.context env now).posting c).1 = k
  · rcases maturation_status i.tenant sale now with hst | hst <;>
      cases b <;> simp [hst, hk, statusBucket, SummaryDelta.cents, CreditContext.row]
  · simp [hk]

theorem noDrift (h : Distributed env now i credits db db') {x : Sale} (hx : Stored db sale x)
    (hsound : Sound db) (hdrift : NoDrift db) : NoDrift db' := by
  obtain ⟨news, hdrawn, hev⟩ := h.evolution
  refine hdrift.of_evolution _ hsound.sale hev h.summaries fun k b => ?_
  rw [sum_statusShift_eq_zero (fun _ _ => rfl), zero_add, posted_map, posted]
  exact congrArg List.sum (hdrawn.map_eq (h.newCents hx k b)).symm

end Distributed

/-! ## Approving -/

namespace MarkedApproved

variable {now : Instant} {actorUserId : Option Uuid} {sale : Sale} {db db' : Db}

theorem evolution (h : MarkedApproved now actorUserId sale.id db db') (hsale : sale ∈ db.sales)
    (hdraft : sale.status = .draft) : Evolution (fun r => r) [] db db' := by
  refine .of_eq h.ledger (.of_map h.sales fun x hx hstatus => ?_)
  have hne : x.id ≠ sale.id := fun hid =>
    hstatus (by rw [Table.eq_of_key hx hsale hid, hdraft])
  rw [if_neg hne]
  exact .refl hstatus

theorem stored (h : MarkedApproved now actorUserId sale.id db db') (hsale : sale ∈ db.sales) :
    Stored db' { sale with status := .approved, approvedAt := some now }
      (markApproved now actorUserId sale) := by
  refine ⟨?_, rfl, rfl, rfl, rfl⟩
  rw [Table.mem_def, h.sales]
  exact List.mem_map.mpr ⟨sale, hsale, if_pos rfl⟩

theorem sound (h : MarkedApproved now actorUserId sale.id db db') (hsale : sale ∈ db.sales)
    (hdraft : sale.status = .draft) (hsound : Sound db) : Sound db' := by
  refine hsound.of_quiet (h.evolution hsale hdraft) h.payouts
    (voids_of_map h.sales (fun x => ?_) (fun x hx => ?_)) (fun _ => rfl) (fun _ => rfl)
    (fun _ => rfl)
  · split_ifs <;> rfl
  · split_ifs at hx
    · cases hx
    · exact hx

theorem noDrift (h : MarkedApproved now actorUserId sale.id db db') (hsale : sale ∈ db.sales)
    (hdraft : sale.status = .draft) (hsound : Sound db) (hdrift : NoDrift db) :
    NoDrift db' :=
  hdrift.of_quiet hsound.sale (h.evolution hsale hdraft) h.summaries (fun _ => rfl)

end MarkedApproved

/-! ## Voiding -/

theorem close_sameEntry (entries : List LedgerEntry) (r : LedgerEntry) :
    SameEntry r (close entries r) := by
  unfold close
  split_ifs
  · exact ⟨rfl, rfl, rfl, rfl, rfl, rfl, rfl, rfl, rfl, rfl⟩
  · exact .refl r

theorem close_links (entries : List LedgerEntry) (r : LedgerEntry) :
    (close entries r).payoutBatchId = r.payoutBatchId ∧
      (close entries r).payoutId = r.payoutId := by
  unfold close
  split_ifs <;> exact ⟨rfl, rfl⟩

/-- Which rows a void closes: the live commissions of the sale that are not paid. -/
theorem closes_iff {db : Db} {saleId : Uuid} {r : LedgerEntry} (hr : r ∈ db.ledger) :
    closes (liveCommissions db.ledger saleId) r = true ↔
      isCommissionOf saleId r = true ∧ LedgerStatus.isLive r.status = true ∧
        r.status ≠ .paid := by
  simp only [closes, List.any_eq_true, decide_eq_true_eq]
  constructor
  · rintro ⟨e, he, hid, hpaid⟩
    obtain ⟨hmem, hcom, hlive⟩ := mem_liveCommissions.mp he
    rw [← Table.eq_of_key hmem hr hid]
    exact ⟨hcom, hlive, hpaid⟩
  · rintro ⟨hcom, hlive, hpaid⟩
    exact ⟨r, mem_liveCommissions.mpr ⟨hr, hcom, hlive⟩, rfl, hpaid⟩

theorem nodup_liveCommissions (ledger : Table LedgerEntry) (saleId : Uuid) :
    ((liveCommissions ledger saleId).map LedgerEntry.id).Nodup := by
  unfold liveCommissions
  refine ((List.perm_insertionSort _ _).map _).nodup_iff.mpr ?_
  exact (List.filter_sublist.map _).nodup ledger.keys_nodup

namespace Voided

variable {now : Instant} {sale : Sale} {month : String} {db db' : Db}

theorem evolution (h : Voided now sale month db db') :
    ∃ news, Drawn (reversalRow sale now) (liveCommissions db.ledger sale.id) news ∧
      Evolution (close (liveCommissions db.ledger sale.id)) news db db' := by
  obtain ⟨news, hdrawn, hrows⟩ := h.ledger
  refine ⟨news, hdrawn, ?_, hrows, close_sameEntry _⟩
  refine .of_map h.sales fun x _ hdraft => ?_
  split_ifs
  · exact ⟨rfl, rfl, rfl, rfl, nofun, fun _ => rfl, fun _ hm => hm, fun _ hp => hp⟩
  · exact .refl hdraft

/-- The sale row after the void. -/
theorem stored (h : Voided now sale month db db') (hsale : sale ∈ db.sales) :
    markVoid sale ∈ db'.sales := by
  rw [Table.mem_def, h.sales]
  exact List.mem_map.mpr ⟨sale, hsale, if_pos rfl⟩

/-- A live commission comes with the month of its sale. -/
theorem entry (hsale : sale ∈ db.sales) (hsound : SaleSound db)
    (hmonth : ∀ frozen, sale.summaryMonth = some frozen → month = frozen)
    {e : LedgerEntry} (he : e ∈ liveCommissions db.ledger sale.id) :
    e ∈ db.ledger ∧ e.saleId = some sale.id ∧ e.tenantId = sale.tenantId ∧
      sale.summaryMonth = some month ∧ sale.status ≠ .draft ∧
      rowKey db e = some (reversalPosting sale month e).1 := by
  obtain ⟨hmem, hcom, -⟩ := mem_liveCommissions.mp he
  have hid : e.saleId = some sale.id := by
    simp only [isCommissionOf, Bool.and_eq_true, decide_eq_true_eq] at hcom
    exact hcom.1
  obtain ⟨sale', hmem', hid', htenant, hdraft, hsome, hown, -⟩ :=
    (hsound e hmem).ofSale sale.id hid
  have heq : sale' = sale := Table.eq_of_key hmem' hsale hid'
  subst heq
  obtain ⟨frozen, hfrozen⟩ := Option.isSome_iff_exists.mp hsome
  have hm : sale'.summaryMonth = some month := by rw [hfrozen, hmonth frozen hfrozen]
  refine ⟨hmem, hid, htenant.symm, hm, hdraft, ?_⟩
  rw [rowKey, rowMonth_of_sale hsale hid hown, hm]
  simp [rowSummary, reversalPosting, htenant]

/-- A reversal belongs to a void sale. -/
theorem reversalRow_sound {db : Db} (hstored : markVoid sale ∈ db.sales)
    (hmonth : sale.summaryMonth.isSome = true) (e : LedgerEntry) (id : Uuid) :
    RowSound db (reversalRow sale now e id) where
  ofSale saleId hid := by
    cases hid
    refine ⟨markVoid sale, hstored, rfl, rfl, ?_, hmonth, rfl, ?_⟩
    · intro hdraft
      cases hdraft
    · intro htype
      cases htype
  ofNone hnone := by cases hnone
  notVoid sale' hsale' hid hst := by
    have heq : sale' = markVoid sale :=
      Table.eq_of_key hsale' hstored (Option.some.inj hid).symm
    rw [heq] at hst
    exact absurd rfl hst
  void _ _ _ _ htype := by cases htype

theorem sound (h : Voided now sale month db db') (hsale : sale ∈ db.sales)
    (hvoid : sale.status ≠ .void)
    (hmonth : ∀ frozen, sale.summaryMonth = some frozen → month = frozen)
    (hprocessing : ∀ e ∈ liveCommissions db.ledger sale.id, e.status ≠ .processing)
    (hsound : Sound db) : Sound db' := by
  obtain ⟨news, hdrawn, hev⟩ := h.evolution
  have hstatus : ∀ r ∈ db.ledger, isHeld r ∨ r.status = .reversed →
      (close (liveCommissions db.ledger sale.id) r).status = r.status := by
    intro r hr hst
    unfold close
    rw [if_neg]
    intro hc
    obtain ⟨hcom, hlive, hpaid⟩ := (closes_iff hr).mp hc
    rcases hst with (hst | hst) | hst
    · exact hprocessing r (mem_liveCommissions.mpr ⟨hr, hcom, hlive⟩) hst
    · exact hpaid hst
    · rw [hst] at hlive
      cases hlive
  -- the void sale is the only one that has changed
  have hother : ∀ y ∈ db.sales, ∀ y' ∈ db'.sales, y'.id = y.id →
      (y = sale ∧ y' = markVoid sale) ∨ (y ≠ sale ∧ y' = y) := by
    intro y hy y' hy' hid
    rw [Table.mem_def, h.sales] at hy'
    obtain ⟨y₀, hy₀, rfl⟩ := List.mem_map.mp hy'
    split_ifs at hid ⊢ with hid₀
    · have hy₀' : y₀ = sale := Table.eq_of_key hy₀ hsale hid₀
      refine .inl ⟨?_, by rw [hy₀']⟩
      rw [← hy₀']
      exact Table.eq_of_key hy hy₀ hid.symm
    · have hy₀' : y₀ = y := Table.eq_of_key hy₀ hy hid
      refine .inr ⟨?_, hy₀'⟩
      rintro rfl
      exact hid₀ hid
  refine ⟨?_, hsound.batch.of_evolution hsound.sale hev h.payouts
    (fun r hr hst => hstatus r hr (.inl hst)) ?_ (fun r => (close_links _ r).1)
    (fun r => (close_links _ r).2) ?_⟩
  · intro r' hr'
    rcases hev.mem_cases hr' with ⟨r, hr, rfl⟩ | hnew
    · refine (hsound.sale r hr).kept hev.sales (hev.same r) ?_ ?_
      · intro sale' hsale' hid hst hrev
        obtain ⟨y, hy, hyid, -⟩ := (hsound.sale r hr).ofSale _ hid
        rcases hother y hy sale' hsale' hyid.symm with ⟨-, rfl⟩ | ⟨hne, rfl⟩
        · exact absurd rfl hst
        · unfold close
          rw [if_neg]
          · exact hrev
          · intro hc
            have hcom := ((closes_iff hr).mp hc).1
            simp only [isCommissionOf, Bool.and_eq_true, decide_eq_true_eq] at hcom
            exact hne (Table.eq_of_key hy hsale (Option.some.inj (hid.symm.trans hcom.1)))
      · intro y hy y' hy' hkept hid hst htype hclosed
        rcases hother y hy y' hy' hkept.id with ⟨rfl, -⟩ | ⟨-, rfl⟩
        · by_cases hpaid : r.status = .paid
          · exact .inl (by rw [hstatus r hr (.inl (.inr hpaid)), hpaid])
          · have hrev := (hsound.sale r hr).notVoid y hy hid hvoid
            refine .inr ?_
            unfold close
            rw [if_pos]
            · rfl
            · refine (closes_iff hr).mpr ⟨?_, ?_, hpaid⟩
              · simp [isCommissionOf, hid, htype]
              · cases hst' : r.status <;> first | rfl | exact absurd hst' hrev.2
        · rw [hstatus r hr (by
            rcases hclosed hst with hst | hst
            · exact .inl (.inr hst)
            · exact .inr hst)]
          exact hclosed hst
    · obtain ⟨e, he, id, rfl⟩ := hdrawn.exists_of_mem hnew
      obtain ⟨-, -, -, hm, hdraft, -⟩ := entry hsale hsound.sale hmonth he
      exact reversalRow_sound (h.stored hsale) (by simp [hm]) e id
  · intro r _ hst
    unfold close
    split_ifs
    · rintro (heq | heq) <;> cases heq
    · exact hst
  · intro r hr
    obtain ⟨e, -, id, rfl⟩ := hdrawn.exists_of_mem hr
    refine ⟨?_, rfl, rfl⟩
    by_cases hpaid : e.status = .paid <;>
      simp [isHeld, reversalRow, reversalStatus, hpaid]

/-- What closing a row takes out of a bucket. -/
def closedCents (db : Db) (k : SummaryKey) (b : Bucket) (e : LedgerEntry) : Int :=
  if e.status = .paid then 0 else -contribution db k b e

theorem noDrift (h : Voided now sale month db db') (hsale : sale ∈ db.sales)
    (hmonth : ∀ frozen, sale.summaryMonth = some frozen → month = frozen)
    (hprocessing : ∀ e ∈ liveCommissions db.ledger sale.id, e.status ≠ .processing)
    (hsound : Sound db) (hdrift : NoDrift db) : NoDrift db' := by
  obtain ⟨news, hdrawn, hev⟩ := h.evolution
  refine hdrift.of_evolution _ hsound.sale hev h.summaries fun k b => ?_
  have hold : (db.ledger.rows.map
      (statusShift db (close (liveCommissions db.ledger sale.id)) k b)).sum =
      ((liveCommissions db.ledger sale.id).map (closedCents db k b)).sum := by
    refine Table.sum_selected (nodup_liveCommissions db.ledger sale.id) ?_ ?_
    · intro e he
      obtain ⟨hmem, hcom, hlive⟩ := mem_liveCommissions.mp he
      refine ⟨e, hmem, rfl, ?_⟩
      unfold statusShift closedCents close
      by_cases hpaid : e.status = .paid
      · rw [if_neg (fun hc => ((closes_iff hmem).mp hc).2.2 hpaid), if_pos hpaid]
        simp [contribution]
      · rw [if_pos ((closes_iff hmem).mpr ⟨hcom, hlive, hpaid⟩), if_neg hpaid]
        simp [weight, setStatus, statusBucket]
    · intro r hr hnot
      have hsame : close (liveCommissions db.ledger sale.id) r = r :=
        close_of_notMem fun e he hid => hnot (List.mem_map.mpr ⟨e, he, hid⟩)
      simp [statusShift, hsame, contribution]
  have hnew : news.map (contribution db' k b) =
      (liveCommissions db.ledger sale.id).map (fun e =>
        weight (some (reversalPosting sale month e).1) (reversalStatus e) (-e.amountCents)
          k b) := by
    have hval : ∀ e ∈ liveCommissions db.ledger sale.id, ∀ id,
        contribution db' k b (reversalRow sale now e id) =
          weight (some (reversalPosting sale month e).1) (reversalStatus e)
            (-e.amountCents) k b := by
      intro e he id
      obtain ⟨-, -, -, hm, -, -⟩ := entry hsale hsound.sale hmonth he
      have hrowKey : rowKey db' (reversalRow sale now e id) =
          some (reversalPosting sale month e).1 := by
        rw [rowKey, rowMonth_of_sale (h.stored hsale) rfl rfl]
        simp [markVoid, hm, rowSummary, reversalRow, reversalPosting]
      rw [contribution, hrowKey]
      rfl
    exact hdrawn.map_eq_of_mem hval
  rw [hold, hnew, posted_map, posted, ← List.sum_map_add]
  refine congrArg List.sum (List.map_congr_left fun e he => ?_)
  obtain ⟨-, -, -, -, -, hkey⟩ := entry hsale hsound.sale hmonth he
  have hlive := (mem_liveCommissions.mp he).2.2
  have hproc := hprocessing e he
  have hdelta : (reversalPosting sale month e).2 = reversalDelta e := rfl
  simp only [Function.comp, closedCents, contribution, weight, hkey, hdelta, Option.some.injEq]
  generalize (reversalPosting sale month e).1 = key
  by_cases hk : key = k
  · cases hst : e.status with
    | processing => exact absurd hst hproc
    | reversed =>
        rw [hst] at hlive
        cases hlive
    | pending | payable | paid =>
        cases b <;>
          simp [reversalDelta, reversalStatus, hst, hk, statusBucket, SummaryDelta.cents]
  · simp [hk]

end Voided

/-! ## Delivering -/

/-- The rewrite of a delivery: waiting rows learn when they mature. -/
def deliver (saleId : Uuid) (maturesAt : Instant) (r : LedgerEntry) : LedgerEntry :=
  if awaitsDelivery saleId r then setMaturesAt maturesAt r else r

theorem deliver_sameEntry (saleId : Uuid) (maturesAt : Instant) (r : LedgerEntry) :
    SameEntry r (deliver saleId maturesAt r) := by
  unfold deliver
  split_ifs
  · exact ⟨rfl, rfl, rfl, rfl, rfl, rfl, rfl, rfl, rfl, rfl⟩
  · exact .refl r

theorem deliver_status (saleId : Uuid) (maturesAt : Instant) (r : LedgerEntry) :
    (deliver saleId maturesAt r).status = r.status := by
  unfold deliver
  split_ifs <;> rfl

namespace Delivered

variable {sale : Sale} {deliveredAt maturesAt : Instant} {db db' : Db}

theorem evolution (h : Delivered sale deliveredAt maturesAt db db') :
    Evolution (deliver sale.id maturesAt) [] db db' := by
  refine ⟨.of_map h.sales fun x _ hdraft => ?_, ?_, deliver_sameEntry _ _⟩
  · split_ifs
    · exact ⟨rfl, rfl, rfl, rfl, hdraft, fun hv => hv, fun _ hm => hm, fun _ hp => hp⟩
    · exact .refl hdraft
  · rw [h.ledger, List.append_nil]
    rfl

theorem sound (h : Delivered sale deliveredAt maturesAt db db') (hsound : Sound db) :
    Sound db' := by
  refine hsound.of_quiet h.evolution h.payouts
    (voids_of_map h.sales (fun x => ?_) (fun x hx => ?_)) (deliver_status _ _)
    (fun r => ?_) (fun r => ?_)
  · split_ifs <;> rfl
  · split_ifs at hx <;> exact hx
  · unfold deliver
    split_ifs <;> rfl
  · unfold deliver
    split_ifs <;> rfl

theorem noDrift (h : Delivered sale deliveredAt maturesAt db db') (hsound : Sound db)
    (hdrift : NoDrift db) : NoDrift db' :=
  hdrift.of_quiet hsound.sale h.evolution h.summaries (deliver_status _ _)

end Delivered

/-! ## Maturing -/

theorem setStatusOf_sameEntry (ids : List Uuid) (status : LedgerStatus) (r : LedgerEntry) :
    SameEntry r (setStatusOf ids status r) := by
  unfold setStatusOf
  split_ifs
  · exact ⟨rfl, rfl, rfl, rfl, rfl, rfl, rfl, rfl, rfl, rfl⟩
  · exact .refl r

/-- The ids of a list of due rows are the ids of pending commissions. -/
def AllDue (env : Env) (now : Instant) (db : Db) (batch : List DueRow) : Prop :=
  ∀ row ∈ batch, ∃ r ∈ db.ledger, dueRow env db now r = some row

theorem AllDue.pending {env : Env} {now : Instant} {db : Db} {batch : List DueRow}
    (h : AllDue env now db batch) {r : LedgerEntry} (hr : r ∈ db.ledger)
    (hid : r.id ∈ batch.map DueRow.id) : r.status = .pending := by
  obtain ⟨row, hrow, hrowId⟩ := List.mem_map.mp hid
  obtain ⟨r', hr', hdue⟩ := h row hrow
  obtain ⟨-, hstatus, -, -, hid', -⟩ := dueRow_eq_some hdue
  have heq : r' = r := Table.eq_of_key hr' hr (hid'.symm.trans hrowId)
  rw [← heq]
  exact hstatus

namespace Matured

variable {env : Env} {now : Instant} {batch : List DueRow} {db db' : Db}

theorem evolution (h : Matured batch db db') :
    Evolution (setStatusOf (batch.map DueRow.id) .payable) [] db db' where
  sales := .of_eq h.sales
  rows := by rw [h.ledger, List.append_nil]
  same := setStatusOf_sameEntry _ _

/-- A row that is not pending is left alone. -/
theorem keeps (hdue : AllDue env now db batch) {r : LedgerEntry} (hr : r ∈ db.ledger)
    (hstatus : r.status ≠ .pending) :
    setStatusOf (batch.map DueRow.id) .payable r = r :=
  if_neg fun hid => hstatus (hdue.pending hr hid)

theorem sound (h : Matured batch db db') (hdue : AllDue env now db batch)
    (hsound : Sound db) : Sound db' := by
  refine ⟨hsound.sale.of_evolution h.evolution ?_ ?_ ?_ (by simp),
    hsound.batch.of_evolution hsound.sale h.evolution h.payouts ?_ ?_ ?_ ?_ (by simp)⟩
  · intro sale hsale sale' hsale' hid hvoid
    rw [h.sales] at hsale'
    rwa [← Table.eq_of_key hsale' hsale hid]
  · intro r hr hstatus
    unfold setStatusOf
    split_ifs
    · exact fun hrev => LedgerStatus.noConfusion hrev
    · exact hstatus
  · intro r hr hstatus
    rw [keeps hdue hr (by rcases hstatus with hst | hst <;> simp [hst])]
  · intro r hr hstatus
    rw [keeps hdue hr (by rcases hstatus with hst | hst <;> simp [hst])]
  · intro r hr hstatus
    unfold setStatusOf
    split_ifs
    · simp [isHeld, setStatus]
    · exact hstatus
  · intro r
    unfold setStatusOf
    split_ifs <;> rfl
  · intro r
    unfold setStatusOf
    split_ifs <;> rfl

/-- The summary that a due row is posted to is the one of the ledger row. -/
theorem key_eq {row : DueRow} {r : LedgerEntry} (hsound : SaleSound db) (hr : r ∈ db.ledger)
    (hdue : dueRow env db now r = some row) : rowKey db r = some (maturePosting row).1 := by
  obtain ⟨htype, -, -, -, -, htenant, hmember, hlevel, -, sale, hsale, hmonth⟩ :=
    dueRow_eq_some hdue
  obtain ⟨saleId, hsaleId, hfind⟩ := Option.bind_eq_some_iff.mp hsale
  obtain ⟨hmem, hkey⟩ := Table.find?_eq_some.mp hfind
  obtain ⟨sale', hmem', hid', -, -, hfrozen, hown, -⟩ := (hsound r hr).ofSale saleId hsaleId
  have heq : sale' = sale := Table.eq_of_key hmem' hmem (hid'.trans hkey.symm)
  subst heq
  obtain ⟨month, hfrozen⟩ := Option.isSome_iff_exists.mp hfrozen
  rw [rowKey, rowMonth_of_sale hmem' (hsaleId.trans (congrArg some hid'.symm)) hown, hfrozen]
  simp [rowSummary, maturePosting, htenant, hmember, hlevel, hmonth month hfrozen]

theorem noDrift (h : Matured batch db db') (hdue : AllDue env now db batch)
    (hnodup : (batch.map DueRow.id).Nodup) (hsound : Sound db) (hdrift : NoDrift db) :
    NoDrift db' := by
  refine hdrift.of_evolution _ hsound.sale h.evolution h.summaries fun k b => ?_
  have hmoved : (db.ledger.rows.map
      (statusShift db (setStatusOf (batch.map DueRow.id) .payable) k b)).sum =
      (batch.map (fun row =>
        if (maturePosting row).1 = k then (maturePosting row).2.cents b else 0)).sum := by
    refine Table.sum_selected hnodup ?_ ?_
    · intro row hrow
      obtain ⟨r, hr, hrowDue⟩ := hdue row hrow
      obtain ⟨-, hpending, -, -, hid, -, -, -, hamount, -⟩ := dueRow_eq_some hrowDue
      refine ⟨r, hr, hid.symm, ?_⟩
      have hin : r.id ∈ batch.map DueRow.id := by
        rw [← hid]
        exact List.mem_map_of_mem hrow
      have hdelta : (maturePosting row).2 =
          { pending := -r.amountCents, payable := r.amountCents } := by
        rw [← hamount]
        rfl
      simp only [statusShift, contribution, weight, key_eq hsound.sale hr hrowDue, hpending,
        setStatusOf, if_pos hin, setStatus, hdelta, Option.some.injEq]
      generalize (maturePosting row).1 = key
      by_cases hk : key = k
      · cases b <;> simp [hk, statusBucket, SummaryDelta.cents]
      · simp [hk]
    · intro r _ hid
      have hkeep : setStatusOf (batch.map DueRow.id) .payable r = r := if_neg hid
      simp [statusShift, contribution, hkeep]
  rw [hmoved, posted_map, posted]
  simp

end Matured

/-! ## Bonuses without a sale -/

namespace Awarded

variable {params : AwardBonusParams} {now : Instant} {db db' : Db}

theorem evolution (h : Awarded params now db db') :
    ∃ id, Evolution (fun r => r) [bonusRow params now id] db db' := by
  obtain ⟨id, hrows⟩ := h.ledger
  exact ⟨id, .of_eq h.sales, by rw [hrows, List.map_id'' (fun _ => rfl)], .refl⟩

/-- A bonus belongs to no sale and carries its own month. -/
theorem rowSound (db : Db) (params : AwardBonusParams) (now : Instant) (id : Uuid) :
    RowSound db (bonusRow params now id) where
  ofSale _ hsale := by cases hsale
  ofNone _ := ⟨rfl, rfl⟩
  notVoid _ _ hsale := by cases hsale
  void _ _ hsale := by cases hsale

theorem sound (h : Awarded params now db db') (hsound : Sound db) : Sound db' := by
  obtain ⟨id, hev⟩ := h.evolution
  refine ⟨hsound.sale.of_evolution hev ?_ (fun _ _ h => h) (fun _ _ _ => rfl) ?_,
    hsound.batch.of_evolution hsound.sale hev h.payouts (fun _ _ _ => rfl)
      (fun _ _ h => h) (fun _ => rfl) (fun _ => rfl) ?_⟩
  · intro sale hsale sale' hsale' hid hvoid
    rw [h.sales] at hsale'
    rwa [← Table.eq_of_key hsale' hsale hid]
  · intro r hr
    rw [List.mem_singleton] at hr
    subst hr
    exact rowSound db' params now id
  · intro r hr
    rw [List.mem_singleton] at hr
    subst hr
    exact ⟨by simp [isHeld, bonusRow], rfl, rfl⟩

theorem noDrift (h : Awarded params now db db') (hsound : Sound db) (hdrift : NoDrift db) :
    NoDrift db' := by
  obtain ⟨id, hev⟩ := h.evolution
  refine hdrift.of_evolution
    [(⟨params.tenantId, params.membershipId, params.month, 0⟩, { payable := params.amountCents })]
    hsound.sale hev h.summaries fun k b => ?_
  rw [sum_statusShift_eq_zero (fun _ _ => rfl)]
  have hkey : rowKey db' (bonusRow params now id) =
      some ⟨params.tenantId, params.membershipId, params.month, 0⟩ := rfl
  have hrow : contribution db' k b (bonusRow params now id) =
      weight (some ⟨params.tenantId, params.membershipId, params.month, 0⟩) .payable
        params.amountCents k b := by
    rw [contribution, hkey]
    rfl
  rw [List.map_singleton, List.sum_singleton, hrow]
  by_cases hk : (⟨params.tenantId, params.membershipId, params.month, 0⟩ : SummaryKey) = k
  · cases b <;> simp [weight, hk, statusBucket, SummaryDelta.cents]
  · simp [weight, hk]

end Awarded

end Refearn.Engine
