import Refearn.Engine.Proofs.Evolution
import Refearn.Engine.Proofs.Selection
/-!
# What one step can do

The committed effect of each action, said once. Every invariant of the engine is
proved by a case distinction over it.
-/

namespace Refearn.Engine

open Support Support.Transaction

/-- Only drafts and tables the engine reads have changed. -/
structure DraftsOnly (db db' : Db) : Prop where
  sales : SalesKept db db'
  same : ∀ sale ∈ db.sales, ∀ sale' ∈ db'.sales, sale'.id = sale.id → sale' = sale
  ledger : db'.ledger = db.ledger
  summaries : db'.summaries = db.summaries
  payouts : PayoutsKept db db'
  tenants : ∀ r ∈ db.ledger, (db.registry.tenants.find? r.tenantId).isSome = true →
    (db'.registry.tenants.find? r.tenantId).isSome = true

/-- The effect of an action that has changed something. -/
inductive Effect (env : Env) (db : Db) : Action → Db → Prop
  | same {action : Action} : Effect env db action db
  | drafts {action : Action} {db' : Db} (h : DraftsOnly db db') : Effect env db action db'
  | applied {action : Action} {now : Instant} {sale : Sale} {db' : Db}
      {i : Inputs sale db.registry} {credits : List Credit} (hsale : sale ∈ db.sales)
      (haction : action = .applyCommissions now sale.id ∨
        ∃ actor expected, action = .approveSale now sale.id actor expected)
      (happroved : sale.status = .approved)
      (hnone : ∀ e ∈ db.ledger, isCommissionOf sale.id e = false)
      (h : Distributed env now i credits db db') : Effect env db action db'
  | approved {now : Instant} {sale : Sale} {actor expected : Option Uuid} {db' : Db}
      (hsale : sale ∈ db.sales) (hdraft : sale.status = .draft)
      (h : MarkedApproved now actor sale.id db db') :
      Effect env db (.approveSale now sale.id actor expected) db'
  | approvedAndApplied {now : Instant} {sale : Sale} {actor expected : Option Uuid}
      {mid db' : Db}
      {i : Inputs { sale with status := .approved, approvedAt := some now } mid.registry}
      {credits : List Credit} (hsale : sale ∈ db.sales) (hdraft : sale.status = .draft)
      (hmid : MarkedApproved now actor sale.id db mid)
      (hnone : ∀ e ∈ mid.ledger, isCommissionOf sale.id e = false)
      (h : Distributed env now i credits mid db') :
      Effect env db (.approveSale now sale.id actor expected) db'
  | voided {now : Instant} {sale : Sale} {actor expected : Option Uuid} {month : String}
      {db' : Db} (hsale : sale ∈ db.sales) (hlive : sale.status ≠ .void)
      (hprocessing : ∀ e ∈ liveCommissions db.ledger sale.id, e.status ≠ .processing)
      (hmonth : ∀ frozen, sale.summaryMonth = some frozen → month = frozen)
      (h : Voided now sale month db db') :
      Effect env db (.voidSale now sale.id actor expected) db'
  | delivered {sale : Sale} {deliveredAt maturesAt : Instant} {db' : Db}
      (hsale : sale ∈ db.sales) (happroved : sale.status = .approved)
      (hnone : sale.deliveredAt = none) (h : Delivered sale deliveredAt maturesAt db db') :
      Effect env db (.markDelivered sale.id deliveredAt) db'
  | matured {now : Instant} {limit : Int} {lockedRows : List Uuid} {db' : Db}
      (hlimit : 0 < limit) (h : Matured (matureBatch env db now limit lockedRows) db db') :
      Effect env db (.matureCommissions now limit lockedRows) db'
  | awarded {now : Instant} {params : AwardBonusParams} {db' : Db}
      (h : Awarded params now db db') : Effect env db (.awardBonus now params) db'
  | reserved {now : Instant} {params : ReserveParams} {selection : Selection}
      {tenant : Tenant} {targets : List Uuid} {evaluations : List Evaluation}
      {batchId : Uuid} {processing : List ProcessingPayout} {db' : Db}
      (hselected : Selected env db now params selection tenant targets evaluations)
      (hne : selection.reservations ≠ [])
      (h : BatchReserved params now selection batchId processing db db') :
      Effect env db (.reservePayoutBatch now params) db'
  | dispatched {now : Instant} {params : DispatchParams} {b : PayoutSettlementBatch}
      {reference evidence : String} {db' : Db} (hb : b ∈ db.batches)
      (hid : b.id = params.batchId) (htenant : b.tenantId = params.tenantId)
      (h : BatchDispatched b now reference evidence db db') :
      Effect env db (.dispatchPayoutBatch now params) db'
  | settled {now : Instant} {params : SettleParams} {b : PayoutSettlementBatch}
      {reference evidence : String} {db' : Db} (hb : b ∈ db.batches)
      (hid : b.id = params.batchId) (htenant : b.tenantId = params.tenantId)
      (hstatus : b.status = .dispatched)
      (h : BatchClosed b (setStatus .paid) (settlePayout now reference evidence)
        (markSettled now reference evidence) settleDelta db db') :
      Effect env db (.settlePayoutBatch now params) db'
  | failed {now : Instant} {params : FailParams} {b : PayoutSettlementBatch}
      {reason : String} {db' : Db} (hb : b ∈ db.batches) (hid : b.id = params.batchId)
      (htenant : b.tenantId = params.tenantId) (hstatus : b.status = .processing)
      (h : BatchClosed b release (failPayout now reason) (markFailed now reason) failDelta
        db db') :
      Effect env db (.failPayoutBatch now params) db'
  | rejected {now : Instant} {params : RejectParams} {p : Payout} {reason : String} {db' : Db}
      (hp : p ∈ db.payouts) (hstatus : p.status = .requested)
      (hrows : db'.payouts.rows = db.payouts.rows.map (fun x =>
        if x.id = p.id then rejectPayout now reason x else x))
      (h : OnlyPayouts db db') : Effect env db (.rejectPayoutRequest now params) db'
  | requested {now : Instant} {membershipId tenantId id : Uuid} {total : Int}
      {period : String} {db' : Db}
      (hrows : db'.payouts.rows =
        db.payouts.rows ++ [newRequest tenantId membershipId total period now id])
      (h : OnlyPayouts db db') : Effect env db (.requestPayout now membershipId tenantId) db'

theorem DraftsOnly.of_createDraftSale {input : Sales.DraftInput} {s s' : Session} {id : Uuid}
    (hc : Commits (Sales.createDraftSale input) s id s') : DraftsOnly s.db s'.db := by
  obtain ⟨sales, hrows, hdb⟩ := Sales.commits_createDraftSale hc
  have hin : ∀ sale ∈ s.db.sales, sale ∈ sales := by
    intro sale hsale
    rw [Table.mem_def, hrows]
    exact List.mem_append_left _ hsale
  rw [hdb]
  exact
    { sales := fun sale hsale hdraft => ⟨sale, hin sale hsale, .refl hdraft⟩
      same := fun sale hsale sale' hsale' hid => Table.eq_of_key hsale' (hin sale hsale) hid
      ledger := rfl
      summaries := rfl
      payouts := ⟨rfl, rfl, rfl⟩
      tenants := fun _ _ h => h }

theorem DraftsOnly.of_remove {tenantId saleId : Uuid} {actorUserId : Option Uuid}
    {s s' : Session} {u : PUnit}
    (hc : Commits (Sales.remove tenantId actorUserId saleId) s u s') :
    DraftsOnly s.db s'.db := by
  obtain ⟨draft, hdraft, hstatus, logs, hdb⟩ := Sales.commits_remove hc
  rw [hdb]
  refine ⟨?_, ?_, rfl, rfl, ⟨rfl, rfl, rfl⟩, fun _ _ h => h⟩
  · intro sale hsale hne
    refine ⟨sale, Table.mem_filter.mpr ⟨hsale, ?_⟩, .refl hne⟩
    simp only [decide_eq_true_eq]
    intro hid
    exact hne (by rw [Table.eq_of_key hsale hdraft hid, hstatus])
  · intro sale hsale sale' hsale' hid
    exact Table.eq_of_key (Table.mem_filter.mp hsale').1 hsale hid

/-- A committed action has had its effect. -/
theorem effect_of_commits {env : Env} {action : Action} {s s' : Session} {u : PUnit}
    (hc : Commits (transaction env action) s u s') : Effect env s.db action s'.db := by
  cases action with
  | configure registry =>
      simp only [transaction, commits_bind, commits_readDb, commits_require,
        commits_writeDb] at hc
      obtain ⟨_, _, ⟨rfl, rfl⟩, _, _, ⟨htenants, rfl⟩, rfl⟩ := hc
      exact .drafts ⟨.of_eq rfl, fun _ hsale _ hsale' hid => Table.eq_of_key hsale' hsale hid,
        rfl, rfl, ⟨rfl, rfl, rfl⟩, fun r hr _ => htenants r hr⟩
  | removeSale tenantId actorUserId saleId => exact .drafts (.of_remove hc)
  | createDraftSale input =>
      obtain ⟨_, hc⟩ := (commits_discard ..).mp hc
      exact .drafts (.of_createDraftSale hc)
  | approveSale now saleId actorUserId expected =>
      obtain ⟨_, hc⟩ := (commits_discard ..).mp hc
      obtain ⟨sale, hmem, rfl, -, ⟨-, happly⟩ | ⟨hdraft, t, hmarked, happly⟩⟩ :=
        commits_approveSaleInTx hc
      · rcases commits_applyCommissionsInTx happly with rfl | ⟨happroved, hnone, i, credits, h⟩
        · exact .same
        · exact .applied hmem (.inr ⟨_, _, rfl⟩) happroved hnone h
      · rcases commits_applyCommissionsInTx happly with rfl | ⟨-, hnone, i, credits, h⟩
        · exact .approved hmem hdraft hmarked
        · exact .approvedAndApplied hmem hdraft hmarked hnone h
  | applyCommissions now saleId =>
      obtain ⟨_, hc⟩ := (commits_discard ..).mp hc
      obtain ⟨sale, hmem, rfl, happly⟩ := commits_applyCommissions hc
      rcases commits_applyCommissionsInTx happly with rfl | ⟨happroved, hnone, i, credits, h⟩
      · exact .same
      · exact .applied hmem (.inl rfl) happroved hnone h
  | voidSale now saleId actorUserId expected =>
      obtain ⟨_, hc⟩ := (commits_discard ..).mp hc
      obtain ⟨sale, hmem, rfl, ⟨-, rfl, -⟩ | ⟨hlive, hprocessing, -, month, hmonth, h⟩⟩ :=
        commits_voidSaleInTx hc
      · exact .same
      · exact .voided hmem hlive hprocessing hmonth h
  | markDelivered saleId deliveredAt =>
      obtain ⟨_, hc⟩ := (commits_discard ..).mp hc
      obtain ⟨sale, hmem, rfl, happroved, rfl | ⟨hnone, maturesAt, h⟩⟩ :=
        commits_markDelivered hc
      · exact .same
      · exact .delivered hmem happroved hnone h
  | matureCommissions now limit lockedRows =>
      obtain ⟨_, hc⟩ := (commits_discard ..).mp hc
      exact .matured (commits_matureCommissions hc).1 (commits_matureCommissions hc).2
  | awardBonus now params =>
      obtain ⟨_, hc⟩ := (commits_discard ..).mp hc
      exact .awarded (commits_awardBonus hc)
  | reservePayoutBatch now params =>
      obtain ⟨_, hc⟩ := (commits_discard ..).mp hc
      obtain ⟨selection, hselect, ⟨rfl, -, -⟩ | ⟨-, hne, batchId, processing, h, -⟩⟩ :=
        commits_reservePayoutBatch hc
      · exact .same
      · obtain ⟨tenant, targets, evaluations, hselected⟩ := selectBatch_eq_ok.mp hselect
        exact .reserved hselected hne h
  | dispatchPayoutBatch now params =>
      obtain ⟨_, hc⟩ := (commits_discard ..).mp hc
      obtain ⟨b, hb, hid, htenant, ⟨rfl, -⟩ | h⟩ := commits_dispatchPayoutBatch hc
      · exact .same
      · exact .dispatched hb hid htenant h
  | settlePayoutBatch now params =>
      obtain ⟨_, hc⟩ := (commits_discard ..).mp hc
      obtain ⟨b, hb, hid, htenant, ⟨rfl, -⟩ | ⟨hstatus, h⟩⟩ := commits_settlePayoutBatch hc
      · exact .same
      · exact .settled hb hid htenant hstatus h
  | failPayoutBatch now params =>
      obtain ⟨_, hc⟩ := (commits_discard ..).mp hc
      obtain ⟨b, hb, hid, htenant, ⟨rfl, -, -⟩ | ⟨hstatus, -, h⟩⟩ :=
        commits_failPayoutBatch hc
      · exact .same
      · exact .failed hb hid htenant hstatus h
  | rejectPayoutRequest now params =>
      obtain ⟨_, hc⟩ := (commits_discard ..).mp hc
      obtain ⟨p, hp, -, hstatus, hrows, h⟩ := commits_rejectPayoutRequest hc
      exact .rejected hp hstatus hrows h
  | requestPayout now membershipId tenantId =>
      obtain ⟨_, hc⟩ := (commits_discard ..).mp hc
      rcases commits_requestPayoutWithMeta hc with ⟨rfl, -⟩ | ⟨tenant, id, -, hrows, h⟩
      · exact .same
      · exact .requested hrows h

/-- Whatever a step does is the effect of its action. -/
theorem Step.effect (env : Env) (step : Step) (db : Db) :
    Effect env db step.action (step.apply env db) := by
  rcases step.apply_cases env db with heq | ⟨s', hc, heq⟩
  · rw [heq]
    exact .same
  · rw [heq]
    exact effect_of_commits hc

end Refearn.Engine
