import Refearn.Engine.Proofs.Reachable
/-!
# What every step keeps

Rows, sales that are not drafts, batches and the items of a batch are never
removed. A batch only changes its status, and only by the step that is named for it.
-/

namespace Refearn.Engine

open Support Support.Transaction Payouts

/-- The items of a batch. -/
def itemsOf (db : Db) (batchId : Uuid) : List PayoutSettlementBatchItem :=
  db.items.rows.filter (fun i => i.batchId = batchId)

/-- The summary an item of the business moves its amount in. -/
def itemSummary (tenantId : Uuid) (i : PayoutSettlementBatchItem) : SummaryKey :=
  ⟨tenantId, i.membershipId, i.month, i.level⟩

/-- How an action may move a batch. -/
inductive BatchMoved (action : Action) (b : PayoutSettlementBatch) :
    PayoutSettlementBatch → Prop
  | same : BatchMoved action b b
  | dispatched {b' : PayoutSettlementBatch} {now : Instant} {params : DispatchParams}
      (haction : action = .dispatchPayoutBatch now params) (hbatch : params.batchId = b.id)
      (hfrom : b.status = .processing) (hto : b'.status = .dispatched) (hid : b'.id = b.id)
      (htenant : b'.tenantId = b.tenantId) : BatchMoved action b b'
  | settled {b' : PayoutSettlementBatch} {now : Instant} {params : SettleParams}
      (haction : action = .settlePayoutBatch now params) (hbatch : params.batchId = b.id)
      (hfrom : b.status = .dispatched) (hto : b'.status = .settled) (hid : b'.id = b.id)
      (htenant : b'.tenantId = b.tenantId) : BatchMoved action b b'
  | failed {b' : PayoutSettlementBatch} {now : Instant} {params : FailParams}
      (haction : action = .failPayoutBatch now params) (hbatch : params.batchId = b.id)
      (hfrom : b.status = .processing) (hto : b'.status = .failed) (hid : b'.id = b.id)
      (htenant : b'.tenantId = b.tenantId) : BatchMoved action b b'

theorem BatchMoved.id_eq {action : Action} {b b' : PayoutSettlementBatch}
    (h : BatchMoved action b b') : b'.id = b.id := by
  cases h <;> first | rfl | assumption

theorem BatchMoved.tenant_eq {action : Action} {b b' : PayoutSettlementBatch}
    (h : BatchMoved action b b') : b'.tenantId = b.tenantId := by
  cases h <;> first | rfl | assumption

/-- What an action keeps. -/
structure Kept (action : Action) (db db' : Db) : Prop where
  sales : SalesKept db db'
  rows : ∀ r ∈ db.ledger, ∃ r' ∈ db'.ledger, SameEntry r r'
  batches : ∀ b ∈ db.batches, ∃ b' ∈ db'.batches, BatchMoved action b b'
  items : ∀ b ∈ db.batches, itemsOf db' b.id = itemsOf db b.id

theorem SalesKept.refl (db : Db) : SalesKept db db := .of_eq rfl

theorem Kept.refl (action : Action) (db : Db) : Kept action db db where
  sales := .refl db
  rows r hr := ⟨r, hr, .refl r⟩
  batches b hb := ⟨b, hb, .same⟩
  items _ _ := rfl

/-- A step that leaves the payout tables alone. -/
theorem Kept.of_evolution {action : Action} {f : LedgerEntry → LedgerEntry}
    {news : List LedgerEntry} {db db' : Db} (hev : Evolution f news db db')
    (hkept : PayoutsKept db db') : Kept action db db' where
  sales := hev.sales
  rows r hr := ⟨f r, hev.mem_old hr, hev.same r⟩
  batches b hb := ⟨b, hkept.batches ▸ hb, .same⟩
  items _ _ := by rw [itemsOf, itemsOf, hkept.items]

theorem Kept.of_onlyPayouts {action : Action} {db db' : Db} (h : OnlyPayouts db db') :
    Kept action db db' where
  sales := .of_eq h.sales
  rows r hr := ⟨r, h.ledger ▸ hr, .refl r⟩
  batches b hb := ⟨b, h.batches ▸ hb, .same⟩
  items _ _ := by rw [itemsOf, itemsOf, h.items]

/-! ## The payout half -/

theorem MembersReserved.rows_kept {params : ReserveParams} {batchId : Uuid} {now : Instant}
    {rs : List PayoutReservation} {processing : List ProcessingPayout} {db db' : Db}
    (h : MembersReserved params batchId now rs processing db db') :
    ∀ r ∈ db.ledger, ∃ r' ∈ db'.ledger, SameEntry r r' := by
  induction h with
  | nil db => exact fun r hr => ⟨r, hr, .refl r⟩
  | cons hone _ ih =>
      intro r hr
      obtain ⟨r', hr', hsame⟩ := ih _ (hone.evolution.mem_old hr)
      exact ⟨r', hr', (hone.evolution.same r).trans hsame⟩

/-- The items a reservation appends are all of its own batch, one for each move. -/
theorem MembersReserved.items_eq {params : ReserveParams} {batchId : Uuid} {now : Instant}
    {rs : List PayoutReservation} {processing : List ProcessingPayout} {db db' : Db}
    (h : MembersReserved params batchId now rs processing db db') :
    ∃ news, db'.items.rows = db.items.rows ++ news ∧ (∀ i ∈ news, i.batchId = batchId) ∧
      news.map (fun i => (itemSummary params.tenantId i, i.amountCents)) =
        (reservedMoves rs).map (fun m => (reservedKey params.tenantId m, m.2.amountCents)) := by
  induction h with
  | nil db => exact ⟨[], by simp, by simp, rfl⟩
  | @cons r rest payoutId payouts db₁ db₂ db₃ hone _ ih =>
      obtain ⟨first, hdrawn, hrows⟩ := hone.items
      obtain ⟨news, hrows', hnews, hmoves⟩ := ih
      refine ⟨first ++ news, by rw [hrows', hrows, List.append_assoc], fun i hi => ?_, ?_⟩
      · rcases List.mem_append.mp hi with hi | hi
        · obtain ⟨row, -, id, rfl⟩ := hdrawn.exists_of_mem hi
          rfl
        · exact hnews i hi
      · have hcons : reservedMoves (r :: rest) =
            r.rows.map (fun row => (r.membershipId, row)) ++ reservedMoves rest := rfl
        rw [List.map_append, hcons, List.map_append, hmoves, List.map_map]
        congr 1
        exact hdrawn.map_eq fun row id => rfl

theorem Kept.of_batchReserved {action : Action} {params : ReserveParams} {now : Instant}
    {selection : Selection} {batchId : Uuid} {processing : List ProcessingPayout} {db db' : Db}
    (h : BatchReserved params now selection batchId processing db db') :
    Kept action db db' := by
  obtain ⟨mid, mid', hmembers, -, hsales, hledger, -, hitems, -, -, hsales', hledger', -,
    hitems'⟩ := h.members
  have hkept := hmembers.kept
  refine ⟨.of_eq (hsales'.trans (hkept.2.1.trans hsales)), ?_, ?_, ?_⟩
  · rw [← hledger, hledger']
    exact hmembers.rows_kept
  · intro b hb
    refine ⟨b, ?_, .same⟩
    rw [Table.mem_def, h.batches]
    exact List.mem_append_left _ hb
  · intro b hb
    obtain ⟨news, hrows, hnews, -⟩ := hmembers.items_eq
    have hnone : news.filter (fun i => i.batchId = b.id) = [] := by
      refine List.filter_eq_nil_iff.mpr fun i hi => ?_
      rw [hnews i hi]
      simpa using Ne.symm (h.fresh b hb)
    rw [itemsOf, itemsOf, hitems', hrows, hitems, List.filter_append, hnone, List.append_nil]

theorem Kept.of_batchClosed {action : Action} {b : PayoutSettlementBatch}
    {row : LedgerEntry → LedgerEntry} {payout : Payout → Payout}
    {batch : PayoutSettlementBatch → PayoutSettlementBatch} {delta : Int → SummaryDelta}
    {st : BatchStatus} {db db' : Db}
    (h : BatchClosed b row payout batch delta db db')
    (hc : Closes st row payout batch delta) (hbatch : BatchSound db)
    (hb : b ∈ db.batches) (hmoved : BatchMoved action b (batch b)) : Kept action db db' where
  sales := .of_eq h.sales
  rows r hr := ⟨_, (h.evolution hc hbatch).mem_old hr, (h.evolution hc hbatch).same r⟩
  batches x hx := by
    by_cases hid : x.id = b.id
    · have hxb : x = b := Table.eq_of_key hx hb hid
      subst hxb
      exact ⟨batch x, h.batch_mem hx, hmoved⟩
    · exact ⟨x, h.batch_other hx hid, .same⟩
  items _ _ := by rw [itemsOf, itemsOf, h.items]

/-! ## Every step -/

/-- Whatever an action does, a sale that is not a draft stays. -/
theorem Effect.salesKept {env : Env} {action : Action} {db db' : Db}
    (h : Effect env db action db') : SalesKept db db' := by
  cases h with
  | same => exact .of_eq rfl
  | drafts h => exact h.sales
  | applied _ _ _ _ h =>
      obtain ⟨_, -, hev⟩ := h.evolution
      exact hev.sales
  | approved hsale hdraft h => exact (h.evolution hsale hdraft).sales
  | approvedAndApplied hsale hdraft hmid _ h =>
      obtain ⟨_, -, hev⟩ := h.evolution
      exact (hmid.evolution hsale hdraft).sales.trans hev.sales
  | voided _ _ _ _ h =>
      obtain ⟨_, -, hev⟩ := h.evolution
      exact hev.sales
  | delivered _ _ _ h => exact h.evolution.sales
  | matured _ h => exact h.evolution.sales
  | awarded h =>
      obtain ⟨_, hev⟩ := h.evolution
      exact hev.sales
  | reserved _ _ h =>
      obtain ⟨mid, mid', hmembers, -, hsales, -, -, -, -, -, hsales', -⟩ := h.members
      have hkept := hmembers.kept.2.1
      exact .of_eq (hsales'.trans (hkept.trans hsales))
  | dispatched _ _ _ h => exact .of_eq h.sales
  | settled _ _ _ _ h => exact .of_eq h.sales
  | failed _ _ _ _ h => exact .of_eq h.sales
  | rejected _ _ _ h => exact .of_eq h.sales
  | requested _ h => exact .of_eq h.sales

theorem Kept.of_effect {env : Env} {action : Action} {db db' : Db}
    (heffect : Effect env db action db') (hbatch : BatchSound db) : Kept action db db' := by
  cases heffect with
  | same => exact .refl _ _
  | drafts h => exact .of_evolution (.of_eq h.ledger h.sales) h.payouts
  | applied _ _ _ _ h =>
      obtain ⟨news, -, hev⟩ := h.evolution
      exact .of_evolution hev h.payouts
  | approved hsale hdraft h => exact .of_evolution (h.evolution hsale hdraft) h.payouts
  | approvedAndApplied hsale hdraft hmid _ h =>
      obtain ⟨news, -, hev⟩ := h.evolution
      have hmark := hmid.evolution hsale hdraft
      have hall : Evolution (fun r => r) news db db' :=
        ⟨hmark.sales.trans hev.sales, by rw [hev.rows, hmid.ledger], hev.same⟩
      exact .of_evolution hall (hmid.payouts.trans h.payouts)
  | voided _ _ _ _ h =>
      obtain ⟨news, -, hev⟩ := h.evolution
      exact .of_evolution hev h.payouts
  | delivered _ _ _ h => exact .of_evolution h.evolution h.payouts
  | matured _ h => exact .of_evolution h.evolution h.payouts
  | awarded h =>
      obtain ⟨id, hev⟩ := h.evolution
      exact .of_evolution hev h.payouts
  | reserved _ _ h => exact .of_batchReserved h
  | @dispatched now params b reference evidence _ hb hid _ h =>
      refine ⟨.of_eq h.sales, fun r hr => ⟨r, h.ledger ▸ hr, .refl r⟩, fun x hx => ?_,
        fun _ _ => by rw [itemsOf, itemsOf, h.items]⟩
      rw [Table.mem_def] at hx
      have hin : (if x.id = b.id then markDispatched now reference evidence x else x) ∈
          db'.batches := by
        rw [Table.mem_def, h.batches]
        exact List.mem_map_of_mem hx
      refine ⟨_, hin, ?_⟩
      split_ifs with hxb
      · have heq : x = b := Table.eq_of_key hx hb hxb
        subst heq
        exact .dispatched rfl hid.symm h.status rfl rfl rfl
      · exact .same
  | settled hb hid _ hstatus h =>
      exact .of_batchClosed h (settle_closes ..) hbatch hb
        (.settled rfl hid.symm hstatus rfl rfl rfl)
  | failed hb hid _ hstatus h =>
      exact .of_batchClosed h (fail_closes ..) hbatch hb
        (.failed rfl hid.symm hstatus rfl rfl rfl)
  | rejected _ _ _ h => exact .of_onlyPayouts h
  | requested _ h => exact .of_onlyPayouts h

/-- Whatever a step does, it keeps these. -/
theorem Step.kept {env : Env} {db : Db} (step : Step) (hbatch : BatchSound db) :
    Kept step.action db (step.apply env db) :=
  .of_effect (step.effect env db) hbatch

/-! ## Over a run -/

/-- Sales that are not drafts outlive every run. -/
theorem salesKept_run {env : Env} {db : Db} (h : ReachableDb env db) (steps : List Step) :
    SalesKept db (run (Step.apply env) steps db) :=
  run_relation SalesKept.refl (fun _ _ _ => SalesKept.trans)
    (fun step _ hreach => (step.kept (reachable_good hreach).sound.batch).sales) h steps

end Refearn.Engine
