import Refearn.Engine.Proofs.Reachable
/-!
# Pending commissions mature

A pending commission knows when it matures or waits for the delivery of its sale.
Approval decides which under the rule of the day, delivery turns the second into the
first, and no other step touches either. From its due time on, each call of the
maturation job either pays the row or shortens the queue before it.
-/

namespace Refearn.Engine

open Support Support.Transaction

/-- A pending commission has a due time unless its sale waits for delivery, and its
tenant is there to be joined with. -/
structure ScheduledRow (db : Db) (r : LedgerEntry) : Prop where
  due : ∀ sale ∈ db.sales, r.saleId = some sale.id →
    r.maturesAt.isSome = true ∨ sale.deliveredAt = none
  tenant : (db.registry.tenants.find? r.tenantId).isSome = true

def Scheduled (db : Db) : Prop :=
  ∀ r ∈ db.ledger, r.type = .commission → r.status = .pending → ScheduledRow db r

/-! ## Steps that leave the queue alone -/

/-- No delivery of a sale has moved. -/
def DeliveriesKept (db db' : Db) : Prop :=
  ∀ sale ∈ db.sales, sale.status ≠ .draft → ∀ sale' ∈ db'.sales, sale'.id = sale.id →
    sale'.deliveredAt = sale.deliveredAt

theorem DeliveriesKept.of_map {db db' : Db} {f : Sale → Sale}
    (h : db'.sales.rows = db.sales.rows.map f) (hid : ∀ x, (f x).id = x.id)
    (hf : ∀ x, (f x).deliveredAt = x.deliveredAt) : DeliveriesKept db db' := by
  intro sale hsale _ sale' hsale' heq
  rw [Table.mem_def, h] at hsale'
  obtain ⟨x, hx, rfl⟩ := List.mem_map.mp hsale'
  have hxs : x = sale := Table.eq_of_key hx hsale ((hid x).symm.trans heq)
  rw [hf, hxs]

theorem DeliveriesKept.of_eq {db db' : Db} (h : db'.sales = db.sales) :
    DeliveriesKept db db' :=
  .of_map (by rw [h, List.map_id'' (fun _ => rfl)]) (fun _ => rfl) (fun _ => rfl)

/-- The rows that are pending were there before, and so were their deliveries. -/
structure QueueKept (db db' : Db) : Prop where
  rows : ∀ r ∈ db'.ledger, r.status = .pending → r ∈ db.ledger
  deliveries : DeliveriesKept db db'
  tenants : ∀ r ∈ db.ledger, (db.registry.tenants.find? r.tenantId).isSome = true →
    (db'.registry.tenants.find? r.tenantId).isSome = true

/-- A row that was scheduled stays so while its delivery is kept. -/
theorem ScheduledRow.kept {db db' : Db} {r : LedgerEntry} (h : ScheduledRow db r)
    (hsound : RowSound db r) (hdeliveries : DeliveriesKept db db')
    (htenant : (db'.registry.tenants.find? r.tenantId).isSome = true) :
    ScheduledRow db' r := by
  refine ⟨fun sale' hsale' hid => ?_, htenant⟩
  obtain ⟨sale, hsale, hsaleId, -, hdraft, -⟩ := hsound.ofSale _ hid
  have hkept := hdeliveries sale hsale hdraft sale' hsale' hsaleId.symm
  rw [hkept]
  exact h.due sale hsale (by rw [hid, hsaleId])

theorem Scheduled.of_queueKept {db db' : Db} (h : Scheduled db) (hsound : SaleSound db)
    (hkept : QueueKept db db') : Scheduled db' := by
  intro r hr htype hstatus
  have hold := hkept.rows r hr hstatus
  have hrow := h r hold htype hstatus
  exact hrow.kept (hsound r hold) hkept.deliveries (hkept.tenants r hold hrow.tenant)

/-- Rows rewritten by `f` that are pending afterwards have not changed at all. -/
theorem rows_of_map {db db' : Db} {f : LedgerEntry → LedgerEntry}
    (h : db'.ledger.rows = db.ledger.rows.map f)
    (hf : ∀ r, (f r).status = .pending → f r = r) :
    ∀ r ∈ db'.ledger, r.status = .pending → r ∈ db.ledger := by
  intro r' hr' hstatus
  rw [Table.mem_def, h] at hr'
  obtain ⟨r, hr, rfl⟩ := List.mem_map.mp hr'
  rw [hf r hstatus]
  exact hr

theorem QueueKept.of_map {db db' : Db} {f : LedgerEntry → LedgerEntry}
    (h : db'.ledger.rows = db.ledger.rows.map f)
    (hf : ∀ r, (f r).status = .pending → f r = r) (hsales : db'.sales = db.sales)
    (hregistry : db'.registry = db.registry) : QueueKept db db' where
  rows := rows_of_map h hf
  deliveries := .of_eq hsales
  tenants _ _ htenant := hregistry ▸ htenant

theorem QueueKept.of_eq {db db' : Db} (hledger : db'.ledger = db.ledger)
    (hsales : db'.sales = db.sales) (hregistry : db'.registry = db.registry) :
    QueueKept db db' :=
  .of_map (f := fun r => r) (by rw [hledger, List.map_id'' (fun _ => rfl)])
    (fun _ _ => rfl) hsales hregistry

theorem ite_pending {f : LedgerEntry → LedgerEntry} (hf : ∀ r, (f r).status ≠ .pending)
    (p : Prop) [Decidable p] (r : LedgerEntry)
    (h : (if p then f r else r).status = .pending) : (if p then f r else r) = r := by
  split_ifs at h ⊢ with hp
  · exact absurd h (hf r)
  · rfl

theorem DraftsOnly.queueKept {db db' : Db} (h : DraftsOnly db db') : QueueKept db db' where
  rows r hr _ := h.ledger ▸ hr
  deliveries sale hsale _ sale' hsale' hid := by rw [h.same sale hsale sale' hsale' hid]
  tenants := h.tenants

theorem MarkedApproved.queueKept {now : Instant} {actorUserId : Option Uuid} {saleId : Uuid}
    {db db' : Db} (h : MarkedApproved now actorUserId saleId db db') : QueueKept db db' where
  rows r hr _ := h.ledger ▸ hr
  deliveries := .of_map h.sales (fun x => by split_ifs <;> rfl) (fun x => by split_ifs <;> rfl)
  tenants _ _ htenant := h.registry ▸ htenant

theorem Voided.queueKept {now : Instant} {sale : Sale} {month : String} {db db' : Db}
    (h : Voided now sale month db db') : QueueKept db db' where
  rows := by
    obtain ⟨news, hdrawn, hrows⟩ := h.ledger
    intro r' hr' hstatus
    rw [Table.mem_def, hrows, List.mem_append, List.mem_map] at hr'
    rcases hr' with ⟨r, hr, rfl⟩ | hnew
    · have hsame := ite_pending (f := setStatus .reversed) (fun _ => by simp [setStatus])
        _ r hstatus
      unfold close
      rw [hsame]
      exact hr
    · obtain ⟨e, -, id, rfl⟩ := hdrawn.exists_of_mem hnew
      have hrev : reversalStatus e = .pending := hstatus
      unfold reversalStatus at hrev
      split_ifs at hrev
  deliveries := .of_map h.sales (fun x => by split_ifs <;> rfl) (fun x => by split_ifs <;> rfl)
  tenants _ _ htenant := h.registry ▸ htenant

theorem Awarded.queueKept {params : AwardBonusParams} {now : Instant} {db db' : Db}
    (h : Awarded params now db db') : QueueKept db db' where
  rows := by
    obtain ⟨id, hrows⟩ := h.ledger
    intro r hr hstatus
    rw [Table.mem_def, hrows, List.mem_append, List.mem_singleton] at hr
    rcases hr with hr | rfl
    · exact hr
    · cases hstatus
  deliveries := .of_eq h.sales
  tenants _ _ htenant := h.registry ▸ htenant

theorem MembersReserved.pending_kept {params : ReserveParams} {batchId : Uuid} {now : Instant}
    {rs : List PayoutReservation} {processing : List ProcessingPayout} {db db' : Db}
    (h : MembersReserved params batchId now rs processing db db') :
    ∀ r ∈ db'.ledger, r.status = .pending → r ∈ db.ledger := by
  induction h with
  | nil => exact fun _ hr _ => hr
  | cons hone _ ih =>
      intro r hr hstatus
      have hmid := ih r hr hstatus
      refine rows_of_map hone.ledger (fun e he => ?_) r hmid hstatus
      exact ite_pending (f := claim _ batchId) (fun _ => by simp [claim]) _ e he

theorem BatchReserved.queueKept {params : ReserveParams} {now : Instant}
    {selection : Selection} {batchId : Uuid} {processing : List ProcessingPayout} {db db' : Db}
    (h : BatchReserved params now selection batchId processing db db') : QueueKept db db' := by
  obtain ⟨mid, mid', hmembers, hregistry, hsales, hledger, -, -, -, hregistry', hsales',
    hledger', -, -⟩ := h.members
  have hkept := hmembers.kept
  refine ⟨fun r hr hstatus => ?_, ?_, fun r _ htenant => ?_⟩
  · rw [hledger'] at hr
    rw [← hledger]
    exact hmembers.pending_kept r hr hstatus
  · exact .of_eq (hsales'.trans (hkept.2.1.trans hsales))
  · rw [hregistry', hkept.1, hregistry]
    exact htenant

theorem BatchClosed.queueKept {b : PayoutSettlementBatch} {row : LedgerEntry → LedgerEntry}
    {payout : Payout → Payout} {batch : PayoutSettlementBatch → PayoutSettlementBatch}
    {delta : Int → SummaryDelta} {db db' : Db}
    (h : BatchClosed b row payout batch delta db db')
    (hrow : ∀ r, (row r).status ≠ .pending) : QueueKept db db' :=
  .of_map h.ledger (fun r hr => ite_pending hrow _ r hr) h.sales h.registry

theorem OnlyPayouts.queueKept {db db' : Db} (h : OnlyPayouts db db') : QueueKept db db' :=
  .of_eq h.ledger h.sales h.registry

theorem Matured.queueKept {batch : List DueRow} {db db' : Db} (h : Matured batch db db') :
    QueueKept db db' :=
  .of_map h.ledger (fun r hr => ite_pending (f := setStatus .payable)
    (fun _ => by simp [setStatus]) _ r hr) h.sales h.registry

/-! ## Steps that schedule -/

/-- A pending row has a due time unless the sale waits for its delivery. -/
theorem maturation_due (tenant : Tenant) (sale : Sale) (now : Instant)
    (h : (maturation tenant sale now).1 = .pending) :
    (maturation tenant sale now).2.isSome = true ∨ sale.deliveredAt = none := by
  unfold maturation at h ⊢
  cases hrule : tenant.maturationRule with
  | onApproval => simp [hrule] at h
  | onDelivery => cases hdelivered : sale.deliveredAt <;> simp
  | daysAfterApproval => exact .inl rfl
  | daysAfterDelivery => cases hdelivered : sale.deliveredAt <;> simp

theorem Distributed.scheduled {env : Env} {now : Instant} {sale : Sale} {registry : Registry}
    {i : Inputs sale registry} {credits : List Credit} {db db' : Db}
    (h : Distributed env now i credits db db') (hregistry : registry = db.registry)
    (hsale : ∀ x ∈ db.sales, x.id = sale.id → x.deliveredAt = sale.deliveredAt)
    (hsound : SaleSound db) (hscheduled : Scheduled db) : Scheduled db' := by
  obtain ⟨news, hdrawn, hrows⟩ := h.ledger
  have hid : ∀ x, (i.stamp env x).id = x.id := fun x => by
    unfold Inputs.stamp
    split_ifs <;> rfl
  have hdeliveredAt : ∀ x, (i.stamp env x).deliveredAt = x.deliveredAt := fun x => by
    unfold Inputs.stamp
    split_ifs <;> rfl
  intro r hr htype hstatus
  rw [Table.mem_def, hrows, List.mem_append] at hr
  rcases hr with hold | hnew
  · have hrow := hscheduled r hold htype hstatus
    exact hrow.kept (hsound r hold) (.of_map h.sales hid hdeliveredAt)
      (h.registry ▸ hregistry ▸ hrow.tenant)
  · obtain ⟨c, -, id, rfl⟩ := hdrawn.exists_of_mem hnew
    refine ⟨fun x' hx' hsaleId => ?_, ?_⟩
    · rw [Table.mem_def, h.sales] at hx'
      obtain ⟨x, hx, rfl⟩ := List.mem_map.mp hx'
      have hxid : x.id = sale.id := by
        rw [← hid x]
        exact (Option.some.inj hsaleId).symm
      rw [hdeliveredAt, hsale x hx hxid]
      exact maturation_due i.tenant sale now hstatus
    · rw [h.registry, ← hregistry]
      exact Option.isSome_iff_exists.mpr ⟨i.tenant, i.tenant_eq⟩

/-- A delivery gives a due time to every row that waited for it. -/
theorem Delivered.scheduled {sale : Sale} {deliveredAt maturesAt : Instant} {db db' : Db}
    (h : Delivered sale deliveredAt maturesAt db db')
    (hscheduled : Scheduled db) : Scheduled db' := by
  intro r' hr' htype hstatus
  rw [Table.mem_def, h.ledger] at hr'
  obtain ⟨r, hr, rfl⟩ := List.mem_map.mp hr'
  have hsame := deliver_sameEntry sale.id maturesAt r
  change (deliver sale.id maturesAt r).type = .commission at htype
  change (deliver sale.id maturesAt r).status = .pending at hstatus
  rw [deliver_status] at hstatus
  have hrow := hscheduled r hr (hsame.type ▸ htype) hstatus
  refine ⟨fun x' hx' hsaleId => ?_, ?_⟩
  · change (deliver sale.id maturesAt r).saleId = some x'.id at hsaleId
    change (deliver sale.id maturesAt r).maturesAt.isSome = true ∨ x'.deliveredAt = none
    rw [hsame.saleId] at hsaleId
    unfold deliver
    by_cases hwaits : awaitsDelivery sale.id r = true
    · rw [if_pos hwaits]
      exact .inl rfl
    · rw [if_neg hwaits]
      rw [Table.mem_def, h.sales] at hx'
      obtain ⟨x, hx, rfl⟩ := List.mem_map.mp hx'
      by_cases hxs : x.id = sale.id
      · -- a pending commission of the delivered sale that did not wait has a due time
        rw [if_pos hxs] at hsaleId
        left
        by_contra hnone
        refine hwaits ?_
        have hcommission : r.type = .commission := hsame.type ▸ htype
        simp only [awaitsDelivery, isCommissionOf, hsaleId, hcommission, hstatus]
        simpa [markSaleDelivered, hxs] using hnone
      · rw [if_neg hxs] at hsaleId ⊢
        exact hrow.due x hx hsaleId
  · rw [h.registry]
    change (db.registry.tenants.find? (deliver sale.id maturesAt r).tenantId).isSome = true
    rw [hsame.tenantId]
    exact hrow.tenant

/-! ## Every step -/

theorem Scheduled.of_effect {env : Env} {action : Action} {db db' : Db}
    (heffect : Effect env db action db') (hsound : Sound db) (h : Scheduled db) :
    Scheduled db' := by
  have hsale := hsound.sale
  cases heffect with
  | same => exact h
  | drafts hdrafts => exact h.of_queueKept hsale hdrafts.queueKept
  | applied hmem _ _ _ hdist =>
      refine hdist.scheduled rfl (fun x hx hid => ?_) hsale h
      rw [Table.eq_of_key hx hmem hid]
  | approved _ _ hmarked => exact h.of_queueKept hsale hmarked.queueKept
  | approvedAndApplied hmem hdraft hmarked _ hdist =>
      refine hdist.scheduled rfl (fun x hx hid => ?_) (hmarked.sound hmem hdraft hsound).sale
        (h.of_queueKept hsale hmarked.queueKept)
      have hstored := (hmarked.stored hmem).mem
      rw [Table.eq_of_key hx hstored hid]
      rfl
  | voided _ _ _ _ hvoided => exact h.of_queueKept hsale hvoided.queueKept
  | delivered _ _ _ hdelivered => exact hdelivered.scheduled h
  | matured _ hmatured => exact h.of_queueKept hsale hmatured.queueKept
  | awarded hawarded => exact h.of_queueKept hsale hawarded.queueKept
  | reserved _ _ hreserved => exact h.of_queueKept hsale hreserved.queueKept
  | dispatched _ _ _ hdispatched =>
      exact h.of_queueKept hsale
        (.of_eq hdispatched.ledger hdispatched.sales hdispatched.registry)
  | settled _ _ _ _ hclosed =>
      exact h.of_queueKept hsale (hclosed.queueKept fun _ => by simp [setStatus])
  | failed _ _ _ _ hclosed =>
      exact h.of_queueKept hsale (hclosed.queueKept fun _ => by simp [release])
  | rejected _ _ _ hkept => exact h.of_queueKept hsale hkept.queueKept
  | requested _ hkept => exact h.of_queueKept hsale hkept.queueKept

theorem reachable_scheduled {env : Env} {db : Db} (h : ReachableDb env db) :
    Scheduled db := by
  induction h with
  | start hinit =>
      intro r hr
      rw [Table.mem_def, hinit.ledger] at hr
      cases hr
  | @next db step hreach ih =>
      exact ih.of_effect (step.effect env db) (reachable_good hreach).sound

/-! ## Draining the queue -/

/-- A commission that has not matured. -/
def isPendingCommission (r : LedgerEntry) : Bool :=
  r.type = .commission && r.status = .pending

def pendingCount (db : Db) : Nat :=
  db.ledger.rows.countP isPendingCommission

theorem exists_commits_matureRow (row : DueRow) (s : Session) :
    ∃ s', Commits (matureRow row) s ⟨⟩ s' := by
  unfold matureRow
  simp only [commits_bind, commits_updateLedgerEntry, commits_bumpSummary]
  exact ⟨_, ⟨⟩, _, rfl, rfl⟩

/-- The job never raises on a positive limit. -/
theorem matured_apply (env : Env) (db : Db) (now : Instant) {limit : Int}
    (lockedRows : List Uuid) (hlimit : 0 < limit) (uuids : Nat → Uuid) :
    Matured (matureBatch env db now limit lockedRows) db
      (Step.apply env ⟨.matureCommissions now limit lockedRows, uuids⟩ db) := by
  obtain ⟨s', hloop⟩ := exists_commits_forM exists_commits_matureRow
    (matureBatch env db now limit lockedRows) ⟨db, uuids⟩
  have hcommits : ∃ result,
      Commits (matureCommissions env now limit lockedRows) ⟨db, uuids⟩ result s' := by
    unfold matureCommissions
    simp only [commits_bind, commits_require, commits_readDb, commits_pure,
      List.take_take, Nat.min_eq_left (Nat.le_succ _)]
    exact ⟨_, ⟨⟩, _, ⟨hlimit, rfl⟩, _, _, ⟨rfl, rfl⟩, ⟨⟩, s', hloop, rfl, rfl⟩
  have htransaction : Commits (transaction env (.matureCommissions now limit lockedRows))
      ⟨db, uuids⟩ ⟨⟩ s' := (commits_discard ..).mpr hcommits
  rw [Step.apply_of_commits htransaction]
  exact Matured.of_forM hloop

/-- The row with this id is a pending commission that is due at `due`, with its sale
and its tenant there to be joined with. -/
structure DueFrom (due : Instant) (id : Uuid) (db : Db) : Prop where
  row : ∃ r ∈ db.ledger, r.id = id ∧ r.type = .commission ∧ r.status = .pending ∧
    r.maturesAt = some due ∧ (r.saleId.bind db.sales.find?).isSome = true ∧
      (db.registry.tenants.find? r.tenantId).isSome = true

/-- The row with this id is payable. -/
def IsPayable (id : Uuid) (db : Db) : Prop :=
  ∃ r ∈ db.ledger, r.id = id ∧ r.status = .payable

/-- A call of the maturation job from `due` on that is not kept from the row. -/
def Action.matures (due : Instant) (id : Uuid) : Action → Prop
  | .matureCommissions now limit lockedRows => due ≤ now ∧ 0 < limit ∧ id ∉ lockedRows
  | _ => False

theorem DueFrom.pendingCount_pos {due : Instant} {id : Uuid} {db : Db}
    (h : DueFrom due id db) : 0 < pendingCount db := by
  obtain ⟨r, hr, -, htype, hstatus, -⟩ := h.row
  refine List.countP_pos_iff.mpr ⟨r, hr, ?_⟩
  simp [isPendingCommission, htype, hstatus]

theorem DueFrom.mem_dueRows {due now : Instant} {id : Uuid} {db : Db}
    (h : DueFrom due id db) (env : Env) (hnow : due ≤ now) {lockedRows : List Uuid}
    (hfree : id ∉ lockedRows) : ∃ row, row ∈ dueRows env db now lockedRows := by
  obtain ⟨r, hr, hid, htype, hstatus, hmatures, hsale, htenant⟩ := h.row
  obtain ⟨sale, hsale⟩ := Option.isSome_iff_exists.mp hsale
  obtain ⟨tenant, htenant⟩ := Option.isSome_iff_exists.mp htenant
  have hdue : ∃ row, dueRow env db now r = some row := by
    unfold dueRow
    rw [if_pos ⟨htype, hstatus, by simpa [hmatures] using hnow⟩, hsale, htenant]
    exact ⟨_, rfl⟩
  obtain ⟨row, hrow⟩ := hdue
  refine ⟨row, List.mem_filterMap.mpr ⟨r, ?_, hrow⟩⟩
  rw [List.mem_insertionSort, List.mem_filter]
  exact ⟨hr, by simpa [hid] using hfree⟩

/-- A call that converts a row has fewer pending commissions to convert next time. -/
theorem Matured.pendingCount_lt {env : Env} {now : Instant} {batch : List DueRow}
    {db db' : Db} (h : Matured batch db db') (hdue : AllDue env now db batch)
    (hne : batch ≠ []) : pendingCount db' < pendingCount db := by
  obtain ⟨row, hrow⟩ := List.exists_mem_of_ne_nil batch hne
  obtain ⟨r, hr, hdueRow⟩ := hdue row hrow
  obtain ⟨htype, hstatus, -, -, hid, -⟩ := dueRow_eq_some hdueRow
  have hconverted : r.id ∈ batch.map DueRow.id := List.mem_map.mpr ⟨row, hrow, hid⟩
  -- no row becomes pending, and `r` no longer is
  have hsub : ∀ e, isPendingCommission (setStatusOf (batch.map DueRow.id) .payable e) = true →
      isPendingCommission e = true := by
    intro e he
    unfold setStatusOf at he
    split_ifs at he
    · simp [isPendingCommission, setStatus] at he
    · exact he
  unfold pendingCount
  rw [h.ledger, List.countP_map]
  obtain ⟨front, back, hsplit⟩ := List.append_of_mem hr
  have hfront := List.countP_mono_left (l := front) fun e _ => hsub e
  have hback := List.countP_mono_left (l := back) fun e _ => hsub e
  have hbefore : isPendingCommission r = true := by simp [isPendingCommission, htype, hstatus]
  have hafter : isPendingCommission (setStatusOf (batch.map DueRow.id) .payable r) = false := by
    simp [setStatusOf, hconverted, isPendingCommission, setStatus]
  rw [hsplit]
  simp only [List.countP_append, List.countP_cons, Function.comp_apply, hbefore, hafter,
    if_true, Bool.false_eq_true, if_false]
  have hmapped : (isPendingCommission ∘ setStatusOf (batch.map DueRow.id) .payable) =
      fun e => isPendingCommission (setStatusOf (batch.map DueRow.id) .payable e) := rfl
  rw [hmapped]
  omega

/-- From the due time on each call of the job pays the row or shortens the queue. -/
theorem DueFrom.step {env : Env} {due : Instant} {id : Uuid} {step : Step} {db : Db}
    (h : DueFrom due id db) (hmatures : step.action.matures due id) :
    IsPayable id (step.apply env db) ∨
      (DueFrom due id (step.apply env db) ∧
        pendingCount (step.apply env db) < pendingCount db) := by
  obtain ⟨action, uuids⟩ := step
  cases action with
  | matureCommissions now limit lockedRows =>
      obtain ⟨hnow, hlimit, hfree⟩ := hmatures
      have hmatured := matured_apply env db now lockedRows hlimit uuids
      have hdue : AllDue env now db (matureBatch env db now limit lockedRows) :=
        fun _ hrow => mem_matureBatch hrow
      obtain ⟨r, hr, hid, htype, hstatus, hrest⟩ := h.row
      by_cases hin : r.id ∈ (matureBatch env db now limit lockedRows).map DueRow.id
      · refine .inl ⟨setStatus .payable r, ?_, hid, rfl⟩
        have hnew := hmatured.evolution.mem_old hr
        rwa [setStatusOf, if_pos hin] at hnew
      · have hne : matureBatch env db now limit lockedRows ≠ [] := by
          obtain ⟨row, hrow⟩ := h.mem_dueRows env hnow hfree
          have hpos : 0 < limit.toNat := by omega
          unfold matureBatch
          rw [ne_eq, List.take_eq_nil_iff, not_or]
          exact ⟨by omega, List.ne_nil_of_mem hrow⟩
        refine .inr ⟨⟨r, ?_, hid, htype, hstatus, ?_⟩, hmatured.pendingCount_lt hdue hne⟩
        · have hold := hmatured.evolution.mem_old hr
          rwa [setStatusOf, if_neg hin] at hold
        · rw [hmatured.sales, hmatured.registry]
          exact hrest
  | _ => exact hmatures.elim

theorem IsPayable.step {env : Env} {due : Instant} {id : Uuid} {step : Step} {db : Db}
    (h : IsPayable id db) (hmatures : step.action.matures due id) :
    IsPayable id (step.apply env db) := by
  obtain ⟨action, uuids⟩ := step
  cases action with
  | matureCommissions now limit lockedRows =>
      have hmatured := matured_apply env db now lockedRows hmatures.2.1 uuids
      obtain ⟨r, hr, hid, hstatus⟩ := h
      refine ⟨_, hmatured.evolution.mem_old hr, ?_, ?_⟩
      · unfold setStatusOf
        split_ifs <;> exact hid
      · unfold setStatusOf
        split_ifs
        · rfl
        · exact hstatus
  | _ => exact hmatures.elim

/-! ## No stranded commission -/

/-- Every pending commission belongs to an approved sale. It has a due time, from which
on enough calls of the maturation job make it payable, or its sale is not delivered. -/
theorem no_stranded_commission {env : Env} {db : Db} (h : ReachableDb env db)
    {r : LedgerEntry} (hr : r ∈ db.ledger) (htype : r.type = .commission)
    (hstatus : r.status = .pending) :
    ∃ sale ∈ db.sales, r.saleId = some sale.id ∧ sale.status = .approved ∧
      (sale.deliveredAt = none ∨ ∃ due, r.maturesAt = some due) ∧
      ∀ due, r.maturesAt = some due → ∀ steps : List Step,
        (∀ step ∈ steps, step.action.matures due r.id) → pendingCount db ≤ steps.length →
          IsPayable r.id (run (Step.apply env) steps db) := by
  have hsound := (reachable_good h).sound.sale r hr
  have hscheduled := reachable_scheduled h r hr htype hstatus
  cases hid : r.saleId with
  | none =>
      have hadjustment := (hsound.ofNone hid).1
      rw [htype] at hadjustment
      cases hadjustment
  | some saleId =>
      obtain ⟨sale, hsale, rfl, -, hdraft, -⟩ := hsound.ofSale saleId hid
      refine ⟨sale, hsale, rfl, ?_, ?_, ?_⟩
      · cases hsaleStatus : sale.status with
        | draft => exact absurd hsaleStatus hdraft
        | approved => rfl
        | void =>
            have hclosed := hsound.void sale hsale hid hsaleStatus htype
            rw [hstatus] at hclosed
            rcases hclosed with hclosed | hclosed <;> cases hclosed
      · exact (hscheduled.due sale hsale hid).symm.imp_right Option.isSome_iff_exists.mp
      · intro due hmatures steps hsteps hlength
        have hdue : DueFrom due r.id db :=
          ⟨r, hr, rfl, htype, hstatus, hmatures, by
            rw [hid, Option.bind_some, find?_of_mem_sales hsale]; rfl, hscheduled.tenant⟩
        exact run_reaches (fun step => Action.matures due r.id step.action)
          (fun _ hp => hp.pendingCount_pos) (fun step _ ha hp => hp.step ha)
          (fun step _ ha hq => hq.step ha) hsteps hdue hlength

/-- The registry under another maturation rule. -/
def Demo.ruled (rule : MaturationRule) (days : Option Int) : Registry :=
  { registry with
    tenants := ⟨[{ tenant with maturationRule := rule, maturationDays := days }],
      by simp, by simp⟩ }

/-- A sale approved under one rule and delivered under another. -/
def Demo.delivered : List Step :=
  [step 100 (.createDraftSale ⟨1, none, 2, 1000, "USD", 0, none, none⟩),
    step 150 (.configure (ruled .onDelivery none)),
    step 200 (.approveSale 0 100 none none),
    step 250 (.configure (ruled .daysAfterDelivery (some 1))),
    step 300 (.markDelivered 100 5)]

/-- The sponsor's commission, due a day after the delivery. -/
def Demo.sponsorRow : LedgerEntry :=
  ⟨201, 1, some 100, 3, 1, 400, 40, .commission, .pending, none, some 86400005, none, none, 0⟩

/-- Two calls of the job with a limit of one row each. -/
def Demo.maturing : List Step :=
  [step 400 (.matureCommissions 86400005 1 []), step 500 (.matureCommissions 86400006 1 [])]

theorem no_stranded_commission_delivered :
    IsPayable Demo.sponsorRow.id
      (run (Step.apply Demo.env) Demo.maturing (Demo.after Demo.delivered)) := by
  have hmem : Demo.sponsorRow ∈ (Demo.after Demo.delivered).ledger :=
    Table.mem_def.mpr (by decide +kernel)
  have hcount : pendingCount (Demo.after Demo.delivered) ≤ Demo.maturing.length := by
    decide +kernel
  have hmatures : ∀ step ∈ Demo.maturing, step.action.matures 86400005 Demo.sponsorRow.id := by
    intro step hstep
    simp only [Demo.maturing, List.mem_cons, List.not_mem_nil, or_false] at hstep
    rcases hstep with rfl | rfl <;> simp [Demo.step, Action.matures]
  have hreach := Demo.reachable Demo.delivered
  obtain ⟨_, -, -, -, -, hmature⟩ := no_stranded_commission hreach hmem rfl rfl
  exact hmature 86400005 rfl Demo.maturing hmatures hcount

end Refearn.Engine
