import Mathlib.Logic.Relation
import Refearn.Engine.Proofs.Persistence
/-!
# The life of a ledger row

What one step may do to the ledger, said once: which rows it writes, and how it moves the status
of the others. From that follow the life cycle of a row, that a sale is distributed at most once,
and what a period lock freezes.
-/

namespace Refearn.Engine

open Support Support.Transaction

/-! ## Moves of one step -/

/-- The action applies the commissions of the sale. -/
def Action.Applies (saleId : Uuid) (action : Action) : Prop :=
  ∃ now, action = .applyCommissions now saleId ∨
    ∃ actor expected, action = .approveSale now saleId actor expected

def Action.Voids (saleId : Uuid) (action : Action) : Prop :=
  ∃ now actor expected, action = .voidSale now saleId actor expected

/-- How an action may move a row that is there. -/
inductive RowMoved (action : Action) (r r' : LedgerEntry) : Prop
  | same (h : r'.status = r.status)
  | matured {now : Instant} {limit : Int} {lockedRows : List Uuid}
      (haction : action = .matureCommissions now limit lockedRows)
      (hfrom : r.status = .pending) (hto : r'.status = .payable)
  | reserved {now : Instant} {params : ReserveParams}
      (haction : action = .reservePayoutBatch now params)
      (hfrom : r.status = .payable) (hto : r'.status = .processing)
  | settled {now : Instant} {params : SettleParams}
      (haction : action = .settlePayoutBatch now params)
      (hfrom : r.status = .processing) (hto : r'.status = .paid)
  | released {now : Instant} {params : FailParams}
      (haction : action = .failPayoutBatch now params)
      (hfrom : r.status = .processing) (hto : r'.status = .payable)
  | reversed {saleId : Uuid} (haction : action.Voids saleId) (hsale : r.saleId = some saleId)
      (hfrom : r.status = .pending ∨ r.status = .payable) (hto : r'.status = .reversed)

/-- How an action may write a row. -/
inductive RowWritten (action : Action) (db db' : Db) (r : LedgerEntry) : Prop
  | commission {saleId : Uuid} {k : SummaryKey} (haction : action.Applies saleId)
      (hsale : r.saleId = some saleId)
      (hnone : ∀ e ∈ db.ledger, isCommissionOf saleId e = false) (hkey : rowKey db' r = some k)
      (hopen : lockedPeriod db.registry k.tenantId [k.month] = none)
      (hstatus : r.status = .pending ∨ r.status = .payable)
  | reversal {saleId : Uuid} {e : LedgerEntry} (haction : action.Voids saleId)
      (hsale : r.saleId = some saleId) (htype : r.type = .reversal) (he : e ∈ db.ledger)
      (hof : e.saleId = some saleId) (hkey : rowKey db' r = rowKey db e)
      (hstatus : r.status = .payable ∨ r.status = .reversed)
  | adjustment {now : Instant} {params : AwardBonusParams} {k : SummaryKey}
      (haction : action = .awardBonus now params) (hsale : r.saleId = none)
      (hkey : rowKey db' r = some k)
      (hopen : lockedPeriod db.registry k.tenantId [k.month] = none)
      (hstatus : r.status = .payable)

/-- The ledger after an action. -/
structure LedgerMoved (action : Action) (f : LedgerEntry → LedgerEntry)
    (news : List LedgerEntry) (db db' : Db) : Prop where
  evolution : Evolution f news db db'
  moved : ∀ r ∈ db.ledger, RowMoved action r (f r)
  written : ∀ r ∈ news, RowWritten action db db' r

section Moves

variable {env : Env} {action : Action} {db db' : Db}

theorem LedgerMoved.quiet (hledger : db'.ledger = db.ledger) (hsales : SalesKept db db') :
    LedgerMoved action (fun r => r) [] db db' where
  evolution := .of_eq hledger hsales
  moved _ _ := .same rfl
  written _ hr := absurd hr List.not_mem_nil

/-- Only the status of rows changes. -/
theorem LedgerMoved.rewritten {f : LedgerEntry → LedgerEntry} (h : Evolution f [] db db')
    (hmoved : ∀ r ∈ db.ledger, RowMoved action r (f r)) : LedgerMoved action f [] db db' where
  evolution := h
  moved := hmoved
  written _ hr := absurd hr List.not_mem_nil

/-- Only new rows are written. -/
theorem LedgerMoved.appended {news : List LedgerEntry}
    (h : Evolution (fun r => r) news db db')
    (hwritten : ∀ r ∈ news, RowWritten action db db' r) :
    LedgerMoved action (fun r => r) news db db' where
  evolution := h
  moved _ _ := .same rfl
  written := hwritten

/-- The rows of a distribution, seen from the database `db₀` that the action found. -/
theorem Distributed.written {now : Instant} {sale x : Sale} {registry : Registry}
    {i : Inputs sale registry} {credits : List Credit} {db₀ : Db}
    (h : Distributed env now i credits db db') (hx : Stored db sale x)
    (hregistry : registry = db₀.registry) (hledger : db.ledger = db₀.ledger)
    (hnone : ∀ e ∈ db.ledger, isCommissionOf sale.id e = false)
    (haction : action.Applies sale.id) {news : List LedgerEntry}
    (hdrawn : Drawn (i.context env now).row credits news) :
    ∀ r ∈ news, RowWritten action db₀ db' r := by
  intro r hr
  obtain ⟨c, -, id, rfl⟩ := hdrawn.exists_of_mem hr
  refine .commission haction rfl (fun e he => hnone e (hledger ▸ he)) (h.newKey hx c id) ?_
    (maturation_status i.tenant sale now)
  rw [← hregistry]
  exact h.monthOpen

theorem BatchClosed.ledgerMoved {b : PayoutSettlementBatch} {row : LedgerEntry → LedgerEntry}
    {payout : Payout → Payout} {batch : PayoutSettlementBatch → PayoutSettlementBatch}
    {delta : Int → SummaryDelta} {st : BatchStatus}
    (h : BatchClosed b row payout batch delta db db')
    (hc : Closes st row payout batch delta) (hbatch : BatchSound db)
    (hrow : ∀ r, r.status = .processing → RowMoved action r (row r)) :
    ∃ f, LedgerMoved action f [] db db' := by
  refine ⟨_, .rewritten (h.evolution hc hbatch) fun r _ => ?_⟩
  unfold BatchClosed.closeRow
  split_ifs with hheld
  · exact hrow r hheld.1
  · exact .same rfl

/-- Reserving claims payable rows, member after member. -/
theorem MembersReserved.evolution {params : ReserveParams} {batchId : Uuid} {now : Instant}
    {rs : List PayoutReservation} {processing : List ProcessingPayout}
    (h : MembersReserved params batchId now rs processing db db') :
    ∃ f, Evolution f [] db db' ∧ ∀ r, (f r).status = r.status ∨
      r.status = .payable ∧ (f r).status = .processing := by
  induction h with
  | nil db => exact ⟨fun r => r, .of_eq rfl (.refl db), fun _ => .inl rfl⟩
  | @cons r rest payoutId payouts db₁ db₂ db₃ hone _ ih =>
      obtain ⟨f, hev, hf⟩ := ih
      have hfirst := hone.evolution
      refine ⟨fun e => f (claimRow r.rows payoutId batchId e), ⟨hfirst.sales.trans hev.sales, ?_,
        fun e => (hfirst.same e).trans (hev.same _)⟩, fun e => ?_⟩
      · rw [hev.rows, hfirst.rows, List.append_nil, List.append_nil, List.append_nil,
          List.map_map]
        rfl
      · dsimp only
        rcases hf (claimRow r.rows payoutId batchId e) with hsame | ⟨hfrom, hto⟩
        · by_cases hpayable : e.status = .payable
          · by_cases hclaim : isClaimable r.rows e = true
            · refine .inr ⟨hpayable, hsame.trans ?_⟩
              unfold claimRow
              rw [if_pos hclaim]
              rfl
            · refine .inl (hsame.trans ?_)
              unfold claimRow
              rw [if_neg hclaim]
          · rw [claimRow_of_not_payable hpayable] at hsame ⊢
            exact .inl hsame
        · by_cases hpayable : e.status = .payable
          · exact .inr ⟨hpayable, hto⟩
          · rw [claimRow_of_not_payable hpayable] at hfrom
            exact absurd hfrom hpayable

theorem Voided.ledgerMoved {now : Instant} {sale : Sale} {month : String}
    (h : Voided now sale month db db') (hsale : sale ∈ db.sales) (hsound : SaleSound db)
    (hmonth : ∀ frozen, sale.summaryMonth = some frozen → month = frozen)
    (hprocessing : ∀ e ∈ liveCommissions db.ledger sale.id, e.status ≠ .processing)
    (haction : action.Voids sale.id) : ∃ f news, LedgerMoved action f news db db' := by
  obtain ⟨news, hdrawn, hev⟩ := h.evolution
  refine ⟨_, news, hev, fun r hr => ?_, fun r hr => ?_⟩
  · unfold close
    split_ifs with hcloses
    · obtain ⟨hcom, hst, hpaid⟩ := (closes_iff hr).mp hcloses
      have hlive : r ∈ liveCommissions db.ledger sale.id := mem_liveCommissions.mpr ⟨hr, hcom, hst⟩
      have hsale : r.saleId = some sale.id := by
        unfold isCommissionOf at hcom
        simp only [Bool.and_eq_true, decide_eq_true_eq] at hcom
        exact hcom.1
      refine .reversed haction hsale ?_ rfl
      have hnot := hprocessing r hlive
      cases hstatus : r.status with
      | pending => exact .inl rfl
      | payable => exact .inr rfl
      | processing => exact absurd hstatus hnot
      | paid => exact absurd hstatus hpaid
      | reversed =>
          rw [hstatus] at hst
          cases hst
    · exact .same rfl
  · obtain ⟨e, he, id, rfl⟩ := hdrawn.exists_of_mem hr
    obtain ⟨hmem, hof, -, hfrozen, -, hkey⟩ := Voided.entry hsale hsound hmonth he
    have hrowKey : rowKey db' (reversalRow sale now e id) =
        some (reversalPosting sale month e).1 := by
      rw [rowKey, rowMonth_of_sale (h.stored hsale) rfl rfl]
      simp [markVoid, hfrozen, rowSummary, reversalRow, reversalPosting]
    refine .reversal haction rfl rfl hmem hof (hrowKey.trans hkey.symm) ?_
    change reversalStatus e = .payable ∨ reversalStatus e = .reversed
    unfold reversalStatus
    split_ifs
    · exact .inl rfl
    · exact .inr rfl

/-- Whatever a step does, it does to the ledger one of these. -/
theorem Effect.ledgerMoved (h : Effect env db action db') (hgood : Good db) :
    ∃ f news, LedgerMoved action f news db db' := by
  cases h with
  | same => exact ⟨_, _, .quiet rfl (.refl db)⟩
  | drafts h => exact ⟨_, _, .quiet h.ledger h.sales⟩
  | applied hsale haction _ hnone h =>
      obtain ⟨news, hdrawn, hev⟩ := h.evolution
      exact ⟨_, news, .appended hev
        (h.written (.of_mem hsale) rfl rfl hnone ⟨_, haction⟩ hdrawn)⟩
  | approved hsale hdraft h => exact ⟨_, _, .quiet h.ledger (h.evolution hsale hdraft).sales⟩
  | approvedAndApplied hsale hdraft hmid hnone h =>
      obtain ⟨news, hdrawn, hev⟩ := h.evolution
      have hsales := (hmid.evolution hsale hdraft).sales
      have hall : Evolution (fun r => r) news db _ :=
        ⟨hsales.trans hev.sales, by rw [hev.rows, hmid.ledger], hev.same⟩
      exact ⟨_, news, .appended hall (h.written (hmid.stored hsale) hmid.registry hmid.ledger
        hnone ⟨_, .inr ⟨_, _, rfl⟩⟩ hdrawn)⟩
  | voided hsale _ hprocessing hmonth h =>
      exact h.ledgerMoved hsale hgood.sound.sale hmonth hprocessing ⟨_, _, _, rfl⟩
  | delivered _ _ _ h =>
      exact ⟨_, _, .rewritten h.evolution fun r _ => .same (deliver_status _ _ r)⟩
  | @matured now limit lockedRows _ hlimit h =>
      refine ⟨_, _, .rewritten h.evolution fun r hr => ?_⟩
      unfold setStatusOf
      split_ifs with hid
      · have hdue : AllDue env now db (matureBatch env db now limit lockedRows) :=
          fun _ hrow => mem_matureBatch hrow
        exact .matured rfl (hdue.pending hr hid) rfl
      · exact .same rfl
  | @awarded now params db' h =>
      obtain ⟨id, hev⟩ := h.evolution
      refine ⟨_, _, .appended hev fun r hr => ?_⟩
      cases List.mem_singleton.mp hr
      exact .adjustment rfl rfl rfl h.monthOpen rfl
  | reserved _ _ h =>
      obtain ⟨mid, mid', hmembers, -, hsales, hledger, -, -, -, -, hsales', hledger', -, -⟩ :=
        h.members
      obtain ⟨f, hev, hf⟩ := hmembers.evolution
      have hall : Evolution f [] db db' :=
        ⟨.of_eq (hsales'.trans (hmembers.kept.2.1.trans hsales)),
          by rw [hledger', hev.rows, hledger], hev.same⟩
      refine ⟨f, _, .rewritten hall fun r _ => ?_⟩
      rcases hf r with hsame | ⟨hfrom, hto⟩
      · exact .same hsame
      · exact .reserved rfl hfrom hto
  | dispatched _ _ _ h => exact ⟨_, _, .quiet h.ledger (.of_eq h.sales)⟩
  | settled _ _ _ _ h =>
      obtain ⟨f, hmoved⟩ := h.ledgerMoved (settle_closes ..) hgood.sound.batch
        fun r hr => .settled rfl hr rfl
      exact ⟨f, _, hmoved⟩
  | failed _ _ _ _ h =>
      obtain ⟨f, hmoved⟩ := h.ledgerMoved (fail_closes ..) hgood.sound.batch
        fun r hr => .released rfl hr rfl
      exact ⟨f, _, hmoved⟩
  | rejected _ _ _ h => exact ⟨_, _, .quiet h.ledger (.of_eq h.sales)⟩
  | requested _ h => exact ⟨_, _, .quiet h.ledger (.of_eq h.sales)⟩

theorem Step.ledgerMoved (step : Step) (h : ReachableDb env db) :
    ∃ f news, LedgerMoved step.action f news db (step.apply env db) :=
  (step.effect env db).ledgerMoved (reachable_good h)

end Moves

/-! ## The life cycle -/

/-- One step of the life of a row. -/
inductive NextStatus : LedgerStatus → LedgerStatus → Prop
  | matures : NextStatus .pending .payable
  | reserves : NextStatus .payable .processing
  | settles : NextStatus .processing .paid
  | releases : NextStatus .processing .payable
  | reversesPending : NextStatus .pending .reversed
  | reversesPayable : NextStatus .payable .reversed

theorem RowMoved.nextStatus {action : Action} {r r' : LedgerEntry} (h : RowMoved action r r') :
    Relation.ReflTransGen NextStatus r.status r'.status := by
  cases h with
  | same h => rw [h]
  | matured _ hfrom hto =>
      rw [hfrom, hto]
      exact .single .matures
  | reserved _ hfrom hto =>
      rw [hfrom, hto]
      exact .single .reserves
  | settled _ hfrom hto =>
      rw [hfrom, hto]
      exact .single .settles
  | released _ hfrom hto =>
      rw [hfrom, hto]
      exact .single .releases
  | reversed _ _ hfrom hto =>
      rw [hto]
      rcases hfrom with hfrom | hfrom
      · rw [hfrom]
        exact .single .reversesPending
      · rw [hfrom]
        exact .single .reversesPayable

theorem eq_of_final {status status' : LedgerStatus} (hfinal : status = .paid ∨ status = .reversed)
    (h : Relation.ReflTransGen NextStatus status status') : status' = status := by
  induction h with
  | refl => rfl
  | tail _ hnext ih =>
      subst ih
      rcases hfinal with rfl | rfl
      · cases hnext
      · cases hnext

/-- In every run a row stays, keeps what it says, and its status moves along the life cycle; paid
and reversed are its ends. -/
theorem rows_follow_life_cycle {env : Env} {db : Db} (h : ReachableDb env db) (steps : List Step)
    {r : LedgerEntry} (hr : r ∈ db.ledger) :
    ∃ r' ∈ (run (Step.apply env) steps db).ledger, SameEntry r r' ∧
      Relation.ReflTransGen NextStatus r.status r'.status ∧
      (r.status = .paid ∨ r.status = .reversed → r'.status = r.status) := by
  have hrun : ∀ r ∈ db.ledger, ∃ r' ∈ (run (Step.apply env) steps db).ledger, SameEntry r r' ∧
      Relation.ReflTransGen NextStatus r.status r'.status := by
    refine run_relation (R := fun db db' : Db => ∀ r ∈ db.ledger, ∃ r' ∈ db'.ledger,
      SameEntry r r' ∧ Relation.ReflTransGen NextStatus r.status r'.status)
      (fun db r hr => ⟨r, hr, .refl r, .refl⟩) (fun db₁ db₂ db₃ h h' r hr => ?_)
      (fun step db hreach r hr => ?_) h steps
    · obtain ⟨r₂, hr₂, hsame, hstatus⟩ := h r hr
      obtain ⟨r₃, hr₃, hsame', hstatus'⟩ := h' r₂ hr₂
      exact ⟨r₃, hr₃, hsame.trans hsame', hstatus.trans hstatus'⟩
    · obtain ⟨f, news, hmoved⟩ := step.ledgerMoved hreach
      exact ⟨f r, hmoved.evolution.mem_old hr, hmoved.evolution.same r,
        (hmoved.moved r hr).nextStatus⟩
  obtain ⟨r', hr', hsame, hstatus⟩ := hrun r hr
  exact ⟨r', hr', hsame, hstatus, fun hfinal => eq_of_final hfinal hstatus⟩

/-- Batch 300, reserved, dispatched and settled. -/
def Demo.payingOut : List Step :=
  [step 300 (.reservePayoutBatch 0 reserveAll),
    step 400 (.dispatchPayoutBatch 0
      { tenantId := 1, batchId := 300, dispatchReference := "D", dispatchEvidence := "E" }),
    step 500 (.settlePayoutBatch 0
      { tenantId := 1, batchId := 300, settlementReference := "S", settlementEvidence := "E" })]

theorem rows_follow_life_cycle_payingOut :
    ∃ r ∈ (Demo.after Demo.sold).ledger,
      ∃ r' ∈ (run (Step.apply Demo.env) Demo.payingOut (Demo.after Demo.sold)).ledger,
        SameEntry r r' ∧ Relation.ReflTransGen NextStatus r.status r'.status ∧
        (r.status = .paid ∨ r.status = .reversed → r'.status = r.status) := by
  obtain ⟨r, hr, -⟩ : ∃ r ∈ (Demo.after Demo.sold).ledger, r.level = 0 := by decide +kernel
  exact ⟨r, hr, rows_follow_life_cycle (Demo.reachable Demo.sold) Demo.payingOut hr⟩

/-! ## Distributing once -/

/-- What a row says about whom a sale pays. -/
def share (r : LedgerEntry) : Uuid × Uuid × Nat × Int × Int :=
  (r.id, r.beneficiaryMembershipId, r.level, r.rateBpsUsed, r.amountCents)

def distribution (db : Db) (saleId : Uuid) : List (Uuid × Uuid × Nat × Int × Int) :=
  (db.ledger.rows.filter (isCommissionOf saleId)).map share

theorem SameEntry.isCommissionOf {saleId : Uuid} {r r' : LedgerEntry} (h : SameEntry r r') :
    isCommissionOf saleId r' = isCommissionOf saleId r := by
  unfold Engine.isCommissionOf
  rw [h.saleId, h.type]

theorem SameEntry.share {r r' : LedgerEntry} (h : SameEntry r r') : share r' = share r := by
  unfold Engine.share
  rw [h.id, h.beneficiary, h.level, h.rate, h.amount]

theorem LedgerMoved.distribution_eq {action : Action} {f : LedgerEntry → LedgerEntry}
    {news : List LedgerEntry} {db db' : Db} (h : LedgerMoved action f news db db')
    {saleId : Uuid} (hsome : distribution db saleId ≠ []) :
    distribution db' saleId = distribution db saleId := by
  have hnone : news.filter (isCommissionOf saleId) = [] := by
    refine List.filter_eq_nil_iff.mpr fun r hr hcom => ?_
    unfold isCommissionOf at hcom
    rw [Bool.and_eq_true, decide_eq_true_eq, decide_eq_true_eq] at hcom
    cases h.written r hr with
    | commission _ hsale hfree =>
        cases hsale.symm.trans hcom.1
        refine hsome ?_
        unfold distribution
        rw [List.filter_eq_nil_iff.mpr fun e he => by rw [hfree e he]; exact Bool.false_ne_true]
        rfl
    | reversal _ _ htype => cases htype.symm.trans hcom.2
    | adjustment _ hsale => cases hsale.symm.trans hcom.1
  unfold distribution
  rw [h.evolution.rows, List.filter_append, hnone, List.append_nil, List.filter_map,
    List.map_map]
  have hfilter : (isCommissionOf saleId ∘ f) = isCommissionOf saleId :=
    funext fun r => (h.evolution.same r).isCommissionOf
  rw [hfilter]
  exact List.map_congr_left fun r _ => (h.evolution.same r).share

/-- Once a sale has commission rows, no run ever adds one, takes one away or changes what one
pays. -/
theorem distributed_once {env : Env} {db : Db} (h : ReachableDb env db) {saleId : Uuid}
    (hsome : distribution db saleId ≠ []) (steps : List Step) :
    distribution (run (Step.apply env) steps db) saleId = distribution db saleId := by
  refine run_relation (R := fun db db' : Db => distribution db saleId ≠ [] →
    distribution db' saleId = distribution db saleId) (fun _ _ => rfl)
    (fun db₁ db₂ db₃ h₁ h₂ hne => ?_) (fun step db hreach hne => ?_) h steps hsome
  · have heq := h₁ hne
    exact (h₂ (heq ▸ hne)).trans heq
  · obtain ⟨f, news, hmoved⟩ := step.ledgerMoved hreach
    exact hmoved.distribution_eq hne

/-- The same sale is approved and distributed once more, after the sponsor has left. -/
def Demo.repeated : List Step :=
  [step 300 (.configure { registry with
      memberships := ⟨[seller, { sponsor with status := .inactive }], by decide, by decide⟩ }),
    step 400 (.approveSale 5 100 none none), step 500 (.applyCommissions 6 100)]

theorem distributed_once_repeated :
    distribution (run (Step.apply Demo.env) Demo.repeated (Demo.after Demo.sold)) 100 =
      distribution (Demo.after Demo.sold) 100 :=
  distributed_once (Demo.reachable Demo.sold) (by decide +kernel) Demo.repeated

/-! ## Locked months -/

def Locked (tenantId : Uuid) (month : String) (db : Db) : Prop :=
  (lockedPeriod db.registry tenantId [month]).isSome = true

/-- The month stays locked, and no sale is voided that has a row in it. -/
structure LeavesMonth (tenantId : Uuid) (month : String) (step : Step) (db : Db) : Prop where
  locked : Locked tenantId month db
  voids : ∀ saleId, step.action.Voids saleId → ∀ r ∈ db.ledger, r.saleId = some saleId →
    ∀ k, rowKey db r = some k → ¬(k.tenantId = tenantId ∧ k.month = month)

/-- All that a summary accounts for. -/
def monthCents (db : Db) (k : SummaryKey) : Int :=
  summaryCents db.summaries k .pending + summaryCents db.summaries k .payable +
    summaryCents db.summaries k .processing + summaryCents db.summaries k .paid

/-- What a row that is not reversed adds to its summary. -/
def liveShare (db : Db) (k : SummaryKey) (r : LedgerEntry) : Int :=
  if rowKey db r = some k ∧ r.status ≠ .reversed then r.amountCents else 0

theorem Good.monthCents_eq {db : Db} (h : Good db) (k : SummaryKey) :
    monthCents db k = (db.ledger.rows.map (liveShare db k)).sum := by
  unfold monthCents
  rw [h.noDrift, h.noDrift, h.noDrift, h.noDrift]
  unfold ledgerCents
  rw [← List.sum_map_add, ← List.sum_map_add, ← List.sum_map_add]
  refine congrArg List.sum (List.map_congr_left fun r _ => ?_)
  unfold contribution weight liveShare
  by_cases hkey : rowKey db r = some k
  · cases hstatus : r.status <;> simp [hkey, statusBucket]
  · simp [hkey]

section LockedMonth

variable {env : Env} {db : Db} {tenantId : Uuid} {month : String} {k : SummaryKey} {step : Step}

theorem Locked.not_open (h : Locked tenantId month db) (htenant : k.tenantId = tenantId)
    (hmonth : k.month = month) : lockedPeriod db.registry k.tenantId [k.month] ≠ none := by
  rw [htenant, hmonth]
  exact Option.isSome_iff_ne_none.mp h

theorem monthCents_step (h : ReachableDb env db) (hleaves : LeavesMonth tenantId month step db)
    (htenant : k.tenantId = tenantId) (hmonth : k.month = month) :
    monthCents (step.apply env db) k = monthCents db k := by
  have hgood := reachable_good h
  obtain ⟨f, news, hmoved⟩ := step.ledgerMoved h
  rw [(hgood.step step).monthCents_eq, hgood.monthCents_eq, hmoved.evolution.rows,
    List.map_append, List.sum_append, List.map_map]
  have hnew : (news.map (liveShare (step.apply env db) k)).sum = 0 := by
    refine List.sum_eq_zero fun x hx => ?_
    obtain ⟨r, hr, rfl⟩ := List.mem_map.mp hx
    refine if_neg fun hlive => ?_
    cases hmoved.written r hr with
    | commission _ _ _ hkey hopen =>
        cases hkey.symm.trans hlive.1
        exact hleaves.locked.not_open htenant hmonth hopen
    | reversal haction _ _ he hof hkey =>
        exact hleaves.voids _ haction _ he hof k (hkey.symm.trans hlive.1) ⟨htenant, hmonth⟩
    | adjustment _ _ hkey hopen =>
        cases hkey.symm.trans hlive.1
        exact hleaves.locked.not_open htenant hmonth hopen
  rw [hnew, add_zero]
  refine congrArg List.sum (List.map_congr_left fun r hr => ?_)
  have hkey := (hgood.sound.sale r hr).key_eq hmoved.evolution.sales (hmoved.evolution.same r)
  unfold liveShare
  rw [Function.comp_apply, hkey, (hmoved.evolution.same r).amount]
  refine if_congr (and_congr_right fun hk => ?_) rfl rfl
  cases hmoved.moved r hr with
  | same hstatus => rw [hstatus]
  | matured _ hfrom hto => simp [hfrom, hto]
  | reserved _ hfrom hto => simp [hfrom, hto]
  | settled _ hfrom hto => simp [hfrom, hto]
  | released _ hfrom hto => simp [hfrom, hto]
  | reversed haction hsale => exact absurd ⟨htenant, hmonth⟩ (hleaves.voids _ haction r hr hsale k hk)

/-- While a month is locked, nothing but the void of a sale booked in it changes what its
summaries account for. -/
theorem locked_month_frozen (h : ReachableDb env db) {steps : List Step}
    (hleaves : Throughout (Step.apply env) (LeavesMonth tenantId month) steps db)
    (htenant : k.tenantId = tenantId) (hmonth : k.month = month) :
    monthCents (run (Step.apply env) steps db) k = monthCents db k := by
  induction steps generalizing db with
  | nil => rfl
  | cons step steps ih =>
      exact (ih (h.next step) hleaves.2).trans (monthCents_step h hleaves.1 htenant hmonth)

end LockedMonth

/-- The month of the sale is locked between the reservation and the settlement. -/
def Demo.locked : List Step :=
  reserved ++ [step 350 (.configure { registry with
    periodLocks := ⟨[⟨1, "2026-01"⟩], by decide, by decide⟩ })]

/-- The batch is released after all. -/
def Demo.releasing : List Step :=
  [step 400 (.failPayoutBatch 0 { tenantId := 1, batchId := 300, reason := "R" })]

theorem locked_month_frozen_releasing :
    monthCents (run (Step.apply Demo.env) Demo.releasing (Demo.after Demo.locked))
      ⟨1, 2, "2026-01", 0⟩ = monthCents (Demo.after Demo.locked) ⟨1, 2, "2026-01", 0⟩ := by
  have hlocked : Locked 1 "2026-01" (Demo.after Demo.locked) := by
    unfold Locked
    decide +kernel
  refine locked_month_frozen (Demo.reachable Demo.locked) ⟨⟨hlocked, fun saleId hvoids => ?_⟩,
    trivial⟩ rfl rfl
  obtain ⟨_, _, _, h⟩ := hvoids
  cases h

end Refearn.Engine
