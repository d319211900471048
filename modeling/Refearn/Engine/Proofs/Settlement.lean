import Refearn.Engine.Settlement
/-!
# What a committed payout transaction has done

One theorem for each transaction of the payout half, in the form of the sale half:
the rows appended and rewritten in each table, the postings, and the frame.
-/

namespace Refearn.Engine

open Support Support.Transaction Payouts

/-! ## Shared statements -/

/-- Everything but the notifications and the audit log is the same. -/
structure MoneyKept (db db' : Db) : Prop where
  registry : db'.registry = db.registry
  sales : db'.sales = db.sales
  ledger : db'.ledger = db.ledger
  summaries : db'.summaries = db.summaries
  payouts : db'.payouts = db.payouts
  batches : db'.batches = db.batches
  items : db'.items = db.items

theorem MoneyKept.refl (db : Db) : MoneyKept db db := ⟨rfl, rfl, rfl, rfl, rfl, rfl, rfl⟩

theorem MoneyKept.trans {db₁ db₂ db₃ : Db} (h : MoneyKept db₁ db₂)
    (h' : MoneyKept db₂ db₃) : MoneyKept db₁ db₃ :=
  ⟨h'.registry.trans h.registry, h'.sales.trans h.sales, h'.ledger.trans h.ledger,
    h'.summaries.trans h.summaries, h'.payouts.trans h.payouts,
    h'.batches.trans h.batches, h'.items.trans h.items⟩

/-- A loop whose body keeps the money tables keeps them. -/
theorem MoneyKept.of_forM {α : Type} {f : α → Tx PUnit}
    (hf : ∀ a s s', Commits (f a) s ⟨⟩ s' → MoneyKept s.db s'.db) {as : List α}
    {s s' : Session} (h : Commits (forM as f) s ⟨⟩ s') : MoneyKept s.db s'.db :=
  Commits.forM (fun _ t => MoneyKept s.db t.db)
    (fun a _ _ _ hkept hbody => hkept.trans (hf a _ _ hbody)) h (.refl _)

theorem MoneyKept.of_audit {tenantId entityId : Uuid} {actorUserId : Option Uuid}
    {action : String} {before after : Json} {s s' : Session} {u : PUnit}
    (h : Commits (audit tenantId actorUserId action entityId before after) s u s') :
    MoneyKept s.db s'.db := by
  rw [commits_audit] at h
  rw [h]
  exact ⟨rfl, rfl, rfl, rfl, rfl, rfl, rfl⟩

theorem MoneyKept.of_auditPayouts {tenantId : Uuid} {actorUserId : Option Uuid}
    {action : String} {payouts : List Payout} {after : Json} {s s' : Session}
    (h : Commits (auditPayouts tenantId actorUserId action payouts after) s ⟨⟩ s') :
    MoneyKept s.db s'.db :=
  MoneyKept.of_forM (fun _ _ _ hbody => .of_audit hbody) h

theorem MoneyKept.of_announceSettlement {params : SettleParams}
    {batch : PayoutSettlementBatch} {currency reference evidence : String}
    {payouts : List Payout} {s s' : Session}
    (h : Commits (announceSettlement params batch currency reference evidence payouts)
      s ⟨⟩ s') : MoneyKept s.db s'.db := by
  refine MoneyKept.of_forM (fun payout t t' hbody => ?_) h
  simp only [commits_bind, commits_createNotification] at hbody
  obtain ⟨_, _, rfl, haudit⟩ := hbody
  have hkept := MoneyKept.of_audit haudit
  exact ⟨hkept.registry, hkept.sales, hkept.ledger, hkept.summaries, hkept.payouts,
    hkept.batches, hkept.items⟩

def totalPosting (delta : Int → SummaryDelta) (total : SummaryKey × Int) : Posting :=
  (total.1, delta total.2)

theorem commits_postTotals {delta : Int → SummaryDelta} {totals : List (SummaryKey × Int)}
    {s s' : Session} (h : Commits (postTotals delta totals) s ⟨⟩ s') :
    s' = { s with db := { s.db with
      summaries := postAll s.db.summaries (totals.map (totalPosting delta)) } } := by
  unfold postTotals at h
  induction totals generalizing s with
  | nil =>
      simp only [List.forM_nil, commits_pure, true_and] at h
      exact h.symm
  | cons total totals ih =>
      rw [commits_forM_cons] at h
      obtain ⟨t, hone, hrest⟩ := h
      rw [commits_bumpSummary] at hone
      rw [ih hrest, hone]
      rfl

theorem commits_findBatch {tenantId batchId : Uuid} {s s' : Session}
    {b : PayoutSettlementBatch} :
    Commits (findBatch tenantId batchId) s b s' ↔
      (b ∈ s.db.batches ∧ b.id = batchId ∧ b.tenantId = tenantId) ∧ s = s' := by
  unfold findBatch
  simp only [commits_bind, commits_readDb, commits_orThrow, Option.filter_eq_some_iff,
    Table.find?_eq_some, decide_eq_true_eq]
  constructor
  · rintro ⟨_, _, ⟨rfl, rfl⟩, ⟨⟨hmem, hkey⟩, htenant⟩, rfl⟩
    exact ⟨⟨hmem, hkey, htenant⟩, rfl⟩
  · rintro ⟨⟨hmem, hkey, htenant⟩, rfl⟩
    exact ⟨_, _, ⟨rfl, rfl⟩, ⟨⟨hmem, hkey⟩, htenant⟩, rfl⟩

theorem commits_updateBatch {batchId : Uuid}
    {f : PayoutSettlementBatch → PayoutSettlementBatch} {hf : KeepsIndexes f}
    {s s' : Session} {u : PUnit} :
    Commits (updateBatch batchId f hf) s u s' ↔
      s' = { s with db := { s.db with batches := s.db.batches.updateKey batchId f hf } } := by
  unfold updateBatch
  simp only [commits_bind, commits_readDb, commits_writeDb]
  constructor
  · rintro ⟨_, _, ⟨rfl, rfl⟩, rfl⟩
    rfl
  · rintro rfl
    exact ⟨_, _, ⟨rfl, rfl⟩, rfl⟩

theorem mem_batchPayouts {order : Payout → Payout → Prop} [DecidableRel order] {db : Db}
    {batchId : Uuid} {p : Payout} :
    p ∈ batchPayouts order db batchId ↔ p ∈ db.payouts ∧ p.batchId = some batchId := by
  simp [batchPayouts, List.mem_insertionSort, Table.mem_def]

theorem length_batchPayouts {order : Payout → Payout → Prop} [DecidableRel order]
    (db : Db) (batchId : Uuid) :
    (batchPayouts order db batchId).length =
      db.payouts.rows.countP (fun p => p.batchId = some batchId) := by
  rw [batchPayouts, List.length_insertionSort, List.countP_eq_length_filter]

/-! ## Reserving -/

/-- The payout of a reservation is open: a reused request, or a new row. -/
inductive PayoutOpened (params : ReserveParams) (batchId : Uuid) (now : Instant)
    (r : PayoutReservation) (payoutId : Uuid) (payouts payouts' : Table Payout) : Prop
  | reused (hrequest : r.requestedPayoutId = some payoutId)
      (hfound : ∃ p ∈ payouts, p.id = payoutId)
      (hrows : payouts'.rows = payouts.rows.map (fun p =>
        if p.id = payoutId then reservePayout params batchId now r p else p))
  | created (hrequest : r.requestedPayoutId = none)
      (hfresh : ∀ p ∈ payouts, p.id ≠ payoutId)
      (hrows : payouts'.rows = payouts.rows ++ [newPayout params batchId now r payoutId])

/-- One member has been reserved. -/
structure MemberReserved (params : ReserveParams) (batchId : Uuid) (now : Instant)
    (r : PayoutReservation) (payoutId : Uuid) (db db' : Db) : Prop where
  payouts : PayoutOpened params batchId now r payoutId db.payouts db'.payouts
  claimed : db.ledger.rows.countP (isClaimable r.rows) = r.rows.length
  ledger : db'.ledger.rows = db.ledger.rows.map (fun e =>
    if isClaimable r.rows e then claim payoutId batchId e else e)
  items : ∃ news, Drawn (batchItem batchId payoutId now r) r.rows news ∧
    db'.items.rows = db.items.rows ++ news
  registry : db'.registry = db.registry
  sales : db'.sales = db.sales
  summaries : db'.summaries = db.summaries
  batches : db'.batches = db.batches

/-- The members have been reserved one after another. -/
inductive MembersReserved (params : ReserveParams) (batchId : Uuid) (now : Instant) :
    List PayoutReservation → List ProcessingPayout → Db → Db → Prop
  | nil (db : Db) : MembersReserved params batchId now [] [] db db
  | cons {r : PayoutReservation} {rest : List PayoutReservation} {payoutId : Uuid}
      {payouts : List ProcessingPayout} {db₁ db₂ db₃ : Db}
      (hone : MemberReserved params batchId now r payoutId db₁ db₂)
      (hrest : MembersReserved params batchId now rest payouts db₂ db₃) :
      MembersReserved params batchId now (r :: rest)
        (⟨r.membershipId, payoutId, r.amountCents, r.rows.length⟩ :: payouts) db₁ db₃

theorem commits_openProcessingPayout {params : ReserveParams} {batchId : Uuid}
    {now : Instant} {r : PayoutReservation} {payoutId : Uuid} {s s' : Session}
    (h : Commits (openProcessingPayout params batchId now r) s payoutId s') :
    PayoutOpened params batchId now r payoutId s.db.payouts s'.db.payouts ∧
      ∃ payouts, s'.db = { s.db with payouts := payouts } := by
  unfold openProcessingPayout at h
  split at h
  · next id hrequest =>
      simp only [updatePayout, commits_bind, commits_readDb, commits_orThrow,
        commits_require, commits_writeDb, commits_pure] at h
      obtain ⟨_, _, ⟨_, _, ⟨rfl, rfl⟩, p, _, ⟨hfind, rfl⟩, _, _, ⟨-, rfl⟩, payouts, _,
        ⟨hreplace, rfl⟩, rfl⟩, rfl, rfl⟩ := h
      obtain ⟨hmem, hkey⟩ := Table.find?_eq_some.mp hfind
      exact ⟨.reused hrequest ⟨p, hmem, hkey⟩ (Table.replaceKey?_eq_some.mp hreplace),
        payouts, rfl⟩
  · next hrequest =>
      simp only [commits_bind, commits_createPayout, commits_pure] at h
      obtain ⟨_, _, ⟨-, payouts, hins, rfl, rfl⟩, rfl, rfl⟩ := h
      obtain ⟨hfresh, hrows⟩ := Table.insert?_eq_some.mp hins
      exact ⟨.created hrequest (fun p hp => (hfresh p hp).1) hrows, payouts, rfl⟩

theorem commits_claimRows {payoutId batchId : Uuid} {rows : List PayoutLedgerRow}
    {s s' : Session} {u : PUnit} (h : Commits (claimRows payoutId batchId rows) s u s') :
    s.db.ledger.rows.countP (isClaimable rows) = rows.length ∧
      s'.db =
        { s.db with
          ledger := s.db.ledger.updateWhere (isClaimable rows) (claim payoutId batchId)
            (claim_keepsIndexes payoutId batchId) } := by
  unfold claimRows at h
  simp only [commits_bind, commits_readDb, commits_writeDb, commits_require] at h
  obtain ⟨_, _, ⟨rfl, rfl⟩, _, _, rfl, hcount, rfl⟩ := h
  exact ⟨hcount, rfl⟩

theorem commits_createItems {row : PayoutLedgerRow → Uuid → PayoutSettlementBatchItem}
    {rows : List PayoutLedgerRow} {s s' : Session}
    (h : Commits (forM rows (fun r => createBatchItem (row r))) s ⟨⟩ s') :
    ∃ items news, Drawn row rows news ∧ items.rows = s.db.items.rows ++ news ∧
      s'.db = { s.db with items := items } := by
  induction rows generalizing s with
  | nil =>
      simp only [List.forM_nil, commits_pure, true_and] at h
      exact ⟨s.db.items, [], .nil, by simp, by rw [h]⟩
  | cons r rows ih =>
      rw [commits_forM_cons] at h
      obtain ⟨t, hone, hrest⟩ := h
      rw [commits_createBatchItem] at hone
      obtain ⟨items₁, hins, rfl⟩ := hone
      obtain ⟨items, news, hdrawn, hrows, hdb⟩ := ih hrest
      refine ⟨items, row r (s.uuids 0) :: news, hdrawn.cons, ?_, hdb⟩
      rw [hrows]
      change items₁.rows ++ news = _
      rw [(Table.insert?_eq_some.mp hins).2, List.append_assoc, List.singleton_append]

theorem commits_reserveMember {params : ReserveParams} {batchId : Uuid} {now : Instant}
    {r : PayoutReservation} {processing : ProcessingPayout} {s s' : Session}
    (h : Commits (reserveMember params batchId now r) s processing s') :
    ∃ payoutId, processing = ⟨r.membershipId, payoutId, r.amountCents, r.rows.length⟩ ∧
      MemberReserved params batchId now r payoutId s.db s'.db := by
  unfold reserveMember at h
  simp only [commits_bind, commits_pure] at h
  obtain ⟨payoutId, t₁, hopen, _, t₂, hclaim, _, t₃, hitems, _, t₄, haudit, rfl, rfl⟩ := h
  obtain ⟨hopened, payouts, hdb₁⟩ := commits_openProcessingPayout hopen
  obtain ⟨hcount, hdb₂⟩ := commits_claimRows hclaim
  obtain ⟨items, news, hdrawn, hrows, hdb₃⟩ := commits_createItems hitems
  have hkept := MoneyKept.of_audit haudit
  have hledger : t₁.db.ledger = s.db.ledger := by rw [hdb₁]
  rw [hledger] at hcount
  refine ⟨payoutId, rfl, ?_⟩
  exact
    { payouts := by
        have hsame : t₄.db.payouts = t₁.db.payouts := by
          rw [hkept.payouts, hdb₃, hdb₂]
        rw [hsame]
        exact hopened
      claimed := hcount
      ledger := by
        rw [hkept.ledger, hdb₃, hdb₂]
        change t₁.db.ledger.rows.map _ = _
        rw [hledger]
      items := by
        refine ⟨news, hdrawn, ?_⟩
        have hsame : t₂.db.items = s.db.items := by rw [hdb₂, hdb₁]
        rw [hkept.items, hdb₃, ← hsame]
        exact hrows
      registry := by rw [hkept.registry, hdb₃, hdb₂, hdb₁]
      sales := by rw [hkept.sales, hdb₃, hdb₂, hdb₁]
      summaries := by rw [hkept.summaries, hdb₃, hdb₂, hdb₁]
      batches := by rw [hkept.batches, hdb₃, hdb₂, hdb₁] }

theorem commits_reserveMembers {params : ReserveParams} {batchId : Uuid} {now : Instant}
    {rs : List PayoutReservation} {processing : List ProcessingPayout} {s s' : Session}
    (h : Commits (reserveMembers params batchId now rs) s processing s') :
    MembersReserved params batchId now rs processing s.db s'.db := by
  induction rs generalizing s processing with
  | nil =>
      simp only [reserveMembers, commits_pure] at h
      obtain ⟨rfl, rfl⟩ := h
      exact .nil s.db
  | cons r rs ih =>
      simp only [reserveMembers, commits_bind, commits_pure] at h
      obtain ⟨payout, t, hone, payouts, t', hrest, rfl, rfl⟩ := h
      obtain ⟨payoutId, rfl, hreserved⟩ := commits_reserveMember hone
      exact .cons hreserved (ih hrest)

/-- A selection has been committed as batch `batchId`. -/
structure BatchReserved (params : ReserveParams) (now : Instant) (selection : Selection)
    (batchId : Uuid) (processing : List ProcessingPayout) (db db' : Db) : Prop where
  fresh : ∀ b ∈ db.batches, b.id ≠ batchId
  batches : db'.batches.rows = db.batches.rows ++ [newBatch params now batchId]
  members : ∃ mid mid' : Db,
    MembersReserved params batchId now selection.reservations processing mid mid' ∧
      mid.registry = db.registry ∧ mid.sales = db.sales ∧ mid.ledger = db.ledger ∧
      mid.payouts = db.payouts ∧ mid.items = db.items ∧ mid.batches = db'.batches ∧
      db'.registry = mid'.registry ∧ db'.sales = mid'.sales ∧ db'.ledger = mid'.ledger ∧
      db'.payouts = mid'.payouts ∧ db'.items = mid'.items
  summaries : db'.summaries = postAll db.summaries
    ((reservedTotals params.tenantId selection.reservations).map (totalPosting reserveDelta))

theorem MembersReserved.kept {params : ReserveParams} {batchId : Uuid} {now : Instant}
    {rs : List PayoutReservation} {processing : List ProcessingPayout} {db db' : Db}
    (h : MembersReserved params batchId now rs processing db db') :
    db'.registry = db.registry ∧ db'.sales = db.sales ∧ db'.summaries = db.summaries ∧
      db'.batches = db.batches := by
  induction h with
  | nil => exact ⟨rfl, rfl, rfl, rfl⟩
  | cons hone _ ih =>
      obtain ⟨hreg, hsales, hsum, hbatches⟩ := ih
      exact ⟨hreg.trans hone.registry, hsales.trans hone.sales, hsum.trans hone.summaries,
        hbatches.trans hone.batches⟩

theorem commits_commitSelection {params : ReserveParams} {now : Instant}
    {selection : Selection} {result : ReserveResult} {s s' : Session}
    (h : Commits (commitSelection params now selection) s result s') :
    ∃ batchId processing,
      BatchReserved params now selection batchId processing s.db s'.db ∧
        result = ⟨some batchId, params.period, processing, selection.skipped,
          selection.review⟩ := by
  unfold commitSelection at h
  simp only [commits_bind, commits_createBatch, commits_pure] at h
  obtain ⟨_, _, ⟨batches, hins, rfl, rfl⟩, processing, t, hmembers, _, t', hpost, _, t'',
    haudit, rfl, rfl⟩ := h
  obtain ⟨hfresh, hrows⟩ := Table.insert?_eq_some.mp hins
  have hmembers := commits_reserveMembers hmembers
  obtain ⟨hreg, hsales, hsum, hbatches⟩ := hmembers.kept
  have hpost := commits_postTotals hpost
  have hkept := MoneyKept.of_audit haudit
  have hsame : t'.db =
      { t.db with
        summaries := postAll t.db.summaries
          ((reservedTotals params.tenantId selection.reservations).map
            (totalPosting reserveDelta)) } := by
    rw [hpost]
  refine ⟨s.uuids 0, processing, ?_, rfl⟩
  exact
    { fresh := fun b hb => (hfresh b hb).1
      batches := by rw [hkept.batches, hsame, ← hrows]; exact congrArg _ hbatches
      members := by
        refine ⟨_, t.db, hmembers, rfl, rfl, rfl, rfl, rfl, ?_, ?_, ?_, ?_, ?_, ?_⟩
        · rw [hkept.batches, hsame]
          exact hbatches.symm
        · rw [hkept.registry, hsame]
        · rw [hkept.sales, hsame]
        · rw [hkept.ledger, hsame]
        · rw [hkept.payouts, hsame]
        · rw [hkept.items, hsame]
      summaries := by
        rw [hkept.summaries, hsame]
        change postAll t.db.summaries _ = _
        rw [hsum] }

/-- A reservation changes nothing, or commits the selection it has computed. -/
theorem commits_reservePayoutBatch {env : Env} {now : Instant} {params : ReserveParams}
    {result : ReserveResult} {s s' : Session}
    (h : Commits (reservePayoutBatch env now params) s result s') :
    ∃ selection, selectBatch env s.db now params = .ok selection ∧
      ((s' = s ∧ (params.previewOnly = true ∨ selection.reservations = []) ∧
          result = ⟨none, params.period, [], selection.skipped, selection.review⟩) ∨
        (params.previewOnly = false ∧ selection.reservations ≠ [] ∧
          ∃ batchId processing,
            BatchReserved params now selection batchId processing s.db s'.db ∧
              result = ⟨some batchId, params.period, processing, selection.skipped,
                selection.review⟩)) := by
  unfold reservePayoutBatch at h
  simp only [commits_bind, commits_readDb, commits_fromExcept] at h
  obtain ⟨_, _, ⟨rfl, rfl⟩, selection, _, ⟨hselect, rfl⟩, h⟩ := h
  refine ⟨selection, hselect, ?_⟩
  split_ifs at h with hstop
  · simp only [commits_pure] at h
    rw [List.length_eq_zero_iff] at hstop
    exact .inl ⟨h.2.symm, hstop, h.1.symm⟩
  · rw [List.length_eq_zero_iff] at hstop
    push Not at hstop
    obtain ⟨batchId, processing, hreserved, hresult⟩ := commits_commitSelection h
    exact .inr ⟨by simpa using hstop.1, hstop.2, batchId, processing, hreserved, hresult⟩

/-! ## Dispatching -/

/-- The batch has been handed off; only its own row has changed. -/
structure BatchDispatched (b : PayoutSettlementBatch) (now : Instant)
    (reference evidence : String) (db db' : Db) : Prop where
  status : b.status = .processing
  batches : db'.batches.rows = db.batches.rows.map (fun x =>
    if x.id = b.id then markDispatched now reference evidence x else x)
  registry : db'.registry = db.registry
  sales : db'.sales = db.sales
  ledger : db'.ledger = db.ledger
  summaries : db'.summaries = db.summaries
  payouts : db'.payouts = db.payouts
  items : db'.items = db.items

theorem commits_dispatchPayoutBatch {env : Env} {now : Instant} {params : DispatchParams}
    {result : BatchResult} {s s' : Session}
    (h : Commits (dispatchPayoutBatch env now params) s result s') :
    ∃ b ∈ s.db.batches, b.id = params.batchId ∧ b.tenantId = params.tenantId ∧
      ((s' = s ∧ b.status ≠ .processing) ∨
        BatchDispatched b now (trim params.dispatchReference)
          (trim params.dispatchEvidence) s.db s'.db) := by
  unfold dispatchPayoutBatch at h
  simp only [commits_bind, commits_require, commits_findBatch, commits_readDb] at h
  obtain ⟨_, _, ⟨-, rfl⟩, b, _, ⟨⟨hmem, hid, htenant⟩, rfl⟩, _, _, ⟨rfl, rfl⟩, h⟩ := h
  refine ⟨b, hmem, hid, htenant, ?_⟩
  split_ifs at h with hdone
  · simp only [commits_pure] at h
    refine .inl ⟨h.2.symm, fun hprocessing => ?_⟩
    rw [hprocessing] at hdone
    simp at hdone
  · simp only [assertIntactPayoutBatchItems, commits_bind, commits_require,
      commits_fromExcept, commits_updateBatch, commits_pure] at h
    obtain ⟨_, _, ⟨hstatus, rfl⟩, _, _, ⟨-, rfl⟩, _, _, ⟨_, _, ⟨-, rfl⟩, -, rfl⟩, _, _, rfl,
      _, t, haudits, _, t', haudit, rfl, rfl⟩ := h
    have hkept := (MoneyKept.of_auditPayouts haudits).trans (.of_audit haudit)
    exact .inr
      { status := hstatus
        batches := by
          rw [hkept.batches]
          exact Table.rows_updateKey _ _ _ (markDispatched_keepsIndexes ..)
        registry := hkept.registry
        sales := hkept.sales
        ledger := hkept.ledger
        summaries := hkept.summaries
        payouts := hkept.payouts
        items := hkept.items }

/-! ## Settling and failing -/

/-- A batch has been closed: its payouts, its rows and the batch itself are rewritten,
and the amounts of its items are posted. -/
structure BatchClosed (b : PayoutSettlementBatch) (row : LedgerEntry → LedgerEntry)
    (payout : Payout → Payout) (batch : PayoutSettlementBatch → PayoutSettlementBatch)
    (delta : Int → SummaryDelta) (db db' : Db) : Prop where
  nonempty : ∃ p ∈ db.payouts, p.batchId = some b.id
  intact : itemsIntact b.id (lockPayoutBatchItems db b.id) = true
  processing : ∀ p ∈ db.payouts, p.batchId = some b.id → p.status = .processing
  payouts : db'.payouts.rows =
    db.payouts.rows.map (fun p => if p.batchId = some b.id then payout p else p)
  held : db.ledger.rows.countP (isHeldBy b.id (lockPayoutBatchItems db b.id)) =
    (lockPayoutBatchItems db b.id).length
  ledger : db'.ledger.rows = db.ledger.rows.map (fun r =>
    if isHeldBy b.id (lockPayoutBatchItems db b.id) r then row r else r)
  batches : db'.batches.rows =
    db.batches.rows.map (fun x => if x.id = b.id then batch x else x)
  summaries : db'.summaries = postAll db.summaries
    ((groupTotals (itemKey b.tenantId) BatchItemRow.amountCents
      (lockPayoutBatchItems db b.id)).map (totalPosting delta))
  registry : db'.registry = db.registry
  sales : db'.sales = db.sales
  items : db'.items = db.items

/-- All payouts of the batch have been rewritten, since none was left out. -/
theorem rows_of_updatePayouts {db : Db} {batchId : Uuid}
    {order : Payout → Payout → Prop} [DecidableRel order] (f : Payout → Payout)
    (hcount : db.payouts.rows.countP
      (isProcessingOf batchId (batchPayouts order db batchId)) =
        (batchPayouts order db batchId).length) :
    (∀ p ∈ db.payouts, p.batchId = some batchId → p.status = .processing) ∧
      db.payouts.rows.map (fun p =>
        if isProcessingOf batchId (batchPayouts order db batchId) p then f p else p) =
      db.payouts.rows.map (fun p => if p.batchId = some batchId then f p else p) := by
  rw [length_batchPayouts] at hcount
  have hall : ∀ p ∈ db.payouts, p.batchId = some batchId →
      isProcessingOf batchId (batchPayouts order db batchId) p = true := by
    intro p hp hbatch
    refine forall_of_countP_eq (fun q _ hq => ?_) hcount p hp (by simpa using hbatch)
    simp only [isProcessingOf, Bool.and_eq_true] at hq
    exact hq.1.2
  constructor
  · intro p hp hbatch
    have hproc := hall p hp hbatch
    simp only [isProcessingOf, Bool.and_eq_true, decide_eq_true_eq] at hproc
    exact hproc.2
  · refine List.map_congr_left fun p hp => ?_
    by_cases hbatch : p.batchId = some batchId
    · rw [if_pos hbatch, if_pos (hall p hp hbatch)]
    · rw [if_neg hbatch, if_neg]
      simp [isProcessingOf, hbatch]

theorem commits_updatePayouts {batchId : Uuid} {payouts : List Payout}
    {f : Payout → Payout} {hf : KeepsIndexes f} {changed : String} {s s' : Session}
    {u : PUnit} (h : Commits (updatePayouts batchId payouts f hf changed) s u s') :
    s.db.payouts.rows.countP (isProcessingOf batchId payouts) = payouts.length ∧
      s'.db =
        { s.db with
          payouts := s.db.payouts.updateWhere (isProcessingOf batchId payouts) f hf } := by
  unfold updatePayouts at h
  simp only [commits_bind, commits_readDb, commits_writeDb, commits_require] at h
  obtain ⟨_, _, ⟨rfl, rfl⟩, _, _, rfl, hcount, rfl⟩ := h
  exact ⟨hcount, rfl⟩

theorem commits_updateHeldRows {batchId : Uuid} {items : List BatchItemRow}
    {f : LedgerEntry → LedgerEntry} {hf : KeepsIndexes f} {changed : String}
    {s s' : Session} {u : PUnit}
    (h : Commits (updateHeldRows batchId items f hf changed) s u s') :
    s.db.ledger.rows.countP (isHeldBy batchId items) = items.length ∧
      s'.db =
        { s.db with ledger := s.db.ledger.updateWhere (isHeldBy batchId items) f hf } := by
  unfold updateHeldRows at h
  simp only [commits_bind, commits_readDb, commits_writeDb, commits_require] at h
  obtain ⟨_, _, ⟨rfl, rfl⟩, _, _, rfl, hcount, rfl⟩ := h
  exact ⟨hcount, rfl⟩

theorem commits_findCurrency {tenantId : Uuid} {s s' : Session} {currency : String}
    (h : Commits (findCurrency tenantId) s currency s') : s' = s := by
  unfold findCurrency at h
  simp only [commits_bind, commits_readDb, commits_orThrow, commits_pure] at h
  obtain ⟨_, _, ⟨rfl, rfl⟩, _, _, ⟨-, rfl⟩, -, rfl⟩ := h
  rfl

theorem commits_settlePayoutBatch {now : Instant} {params : SettleParams}
    {result : BatchResult} {s s' : Session}
    (h : Commits (settlePayoutBatch now params) s result s') :
    ∃ b ∈ s.db.batches, b.id = params.batchId ∧ b.tenantId = params.tenantId ∧
      ((s' = s ∧ b.status = .settled) ∨
        (b.status = .dispatched ∧
          BatchClosed b (setStatus .paid)
            (settlePayout now (trim params.settlementReference)
              (trim params.settlementEvidence))
            (markSettled now (trim params.settlementReference)
              (trim params.settlementEvidence)) settleDelta s.db s'.db)) := by
  unfold settlePayoutBatch at h
  simp only [commits_bind, commits_require, commits_findBatch, commits_readDb] at h
  obtain ⟨_, _, ⟨-, rfl⟩, b, _, ⟨⟨hmem, hid, htenant⟩, rfl⟩, _, _, ⟨rfl, rfl⟩, h⟩ := h
  refine ⟨b, hmem, hid, htenant, ?_⟩
  split_ifs at h with hdone
  · simp only [commits_pure] at h
    exact .inl ⟨h.2.symm, hdone⟩
  · simp only [assertIntactPayoutBatchItems, moveBatchSummary, commits_bind,
      commits_require, commits_updateBatch, commits_pure] at h
    obtain ⟨_, _, ⟨hstatus, rfl⟩, _, _, ⟨hne, rfl⟩, _, _, ⟨_, _, ⟨hintact, rfl⟩, -, rfl⟩,
      _, t₁, hpayouts, _, t₂, hheld, _, _, rfl, _, t₃, hpost, _, t₄, hcurrency,
      _, t₅, hannounce, _, t₆, haudit, rfl, rfl⟩ := h
    obtain ⟨hcount, hdb₁⟩ := commits_updatePayouts hpayouts
    obtain ⟨hcount', hdb₂⟩ := commits_updateHeldRows hheld
    have hpost := commits_postTotals hpost
    have hcur := commits_findCurrency hcurrency
    have hkept := (MoneyKept.of_announceSettlement hannounce).trans (.of_audit haudit)
    obtain ⟨hall, hrows⟩ := rows_of_updatePayouts
      (settlePayout now (trim params.settlementReference) (trim params.settlementEvidence))
      hcount
    have hledger : t₁.db.ledger = s.db.ledger := by rw [hdb₁]
    rw [hledger] at hcount'
    rw [hcur, hpost] at hkept
    have hsameBatches : t₂.db.batches = s.db.batches := by rw [hdb₂, hdb₁]
    refine .inr ⟨hstatus, ?_⟩
    exact
      { nonempty := by
          obtain ⟨p, hp⟩ := List.exists_mem_of_ne_nil _ hne
          exact ⟨p, mem_batchPayouts.mp hp⟩
        intact := hintact
        processing := hall
        payouts := by
          rw [hkept.payouts]
          change t₂.db.payouts.rows = _
          rw [hdb₂, hdb₁, ← hrows]
          rfl
        held := hcount'
        ledger := by
          rw [hkept.ledger]
          change t₂.db.ledger.rows = _
          rw [hdb₂]
          change t₁.db.ledger.rows.map _ = _
          rw [hledger]
        batches := by
          rw [hkept.batches, ← hsameBatches]
          exact Table.rows_updateKey _ _ _ (markSettled_keepsIndexes ..)
        summaries := by
          rw [hkept.summaries, htenant]
          change postAll t₂.db.summaries _ = _
          rw [hdb₂, hdb₁]
        registry := by rw [hkept.registry]; change t₂.db.registry = _; rw [hdb₂, hdb₁]
        sales := by rw [hkept.sales]; change t₂.db.sales = _; rw [hdb₂, hdb₁]
        items := by rw [hkept.items]; change t₂.db.items = _; rw [hdb₂, hdb₁] }

theorem commits_failPayoutBatch {now : Instant} {params : FailParams}
    {result : BatchResult} {s s' : Session}
    (h : Commits (failPayoutBatch now params) s result s') :
    ∃ b ∈ s.db.batches, b.id = params.batchId ∧ b.tenantId = params.tenantId ∧
      ((s' = s ∧ b.status = .failed ∧ result.done = false) ∨
        (b.status = .processing ∧ result.done = true ∧
          BatchClosed b release (failPayout now (trim params.reason))
            (markFailed now (trim params.reason)) failDelta s.db s'.db)) := by
  unfold failPayoutBatch at h
  simp only [commits_bind, commits_require, commits_findBatch, commits_readDb] at h
  obtain ⟨_, _, ⟨-, rfl⟩, b, _, ⟨⟨hmem, hid, htenant⟩, rfl⟩, _, _, ⟨rfl, rfl⟩, h⟩ := h
  refine ⟨b, hmem, hid, htenant, ?_⟩
  split_ifs at h with hdone
  · simp only [commits_pure] at h
    exact .inl ⟨h.2.symm, hdone, by rw [← h.1]⟩
  · simp only [moveBatchSummary, commits_bind, commits_require, commits_updateBatch,
      commits_pure] at h
    obtain ⟨_, _, ⟨-, rfl⟩, _, _, ⟨hstatus, rfl⟩, _, _, ⟨⟨hne, hintact⟩, rfl⟩, _, t₁, hheld,
      _, t₂, hpayouts, _, _, rfl, _, t₃, hpost, _, t₄, haudits, _, t₅, haudit,
      rfl, rfl⟩ := h
    obtain ⟨hcount', hdb₁⟩ := commits_updateHeldRows hheld
    obtain ⟨hcount, hdb₂⟩ := commits_updatePayouts hpayouts
    have hpost := commits_postTotals hpost
    have hkept := (MoneyKept.of_auditPayouts haudits).trans (.of_audit haudit)
    have hsame : t₁.db.payouts = s.db.payouts := by rw [hdb₁]
    rw [hsame] at hcount
    obtain ⟨hall, hrows⟩ := rows_of_updatePayouts
      (failPayout now (trim params.reason)) hcount
    rw [hpost] at hkept
    have hsameBatches : t₂.db.batches = s.db.batches := by rw [hdb₂, hdb₁]
    refine .inr ⟨hstatus, rfl, ?_⟩
    exact
      { nonempty := by
          obtain ⟨p, hp⟩ := List.exists_mem_of_ne_nil _ hne
          exact ⟨p, mem_batchPayouts.mp hp⟩
        intact := hintact
        processing := hall
        payouts := by
          rw [hkept.payouts]
          change t₂.db.payouts.rows = _
          rw [hdb₂, ← hrows]
          change t₁.db.payouts.rows.map _ = _
          rw [hsame]
        held := hcount'
        ledger := by
          rw [hkept.ledger]
          change t₂.db.ledger.rows = _
          rw [hdb₂, hdb₁]
          rfl
        batches := by
          rw [hkept.batches, ← hsameBatches]
          exact Table.rows_updateKey _ _ _ (markFailed_keepsIndexes ..)
        summaries := by
          rw [hkept.summaries, htenant]
          change postAll t₂.db.summaries _ = _
          rw [hdb₂, hdb₁]
        registry := by rw [hkept.registry]; change t₂.db.registry = _; rw [hdb₂, hdb₁]
        sales := by rw [hkept.sales]; change t₂.db.sales = _; rw [hdb₂, hdb₁]
        items := by rw [hkept.items]; change t₂.db.items = _; rw [hdb₂, hdb₁] }

/-! ## Requests -/

/-- Only the payouts have changed. -/
structure OnlyPayouts (db db' : Db) : Prop where
  registry : db'.registry = db.registry
  sales : db'.sales = db.sales
  ledger : db'.ledger = db.ledger
  summaries : db'.summaries = db.summaries
  batches : db'.batches = db.batches
  items : db'.items = db.items

theorem commits_rejectPayoutRequest {now : Instant} {params : RejectParams} {id : Uuid}
    {s s' : Session} (h : Commits (rejectPayoutRequest now params) s id s') :
    ∃ p ∈ s.db.payouts, p.id = params.payoutId ∧ p.status = .requested ∧
      s'.db.payouts.rows = s.db.payouts.rows.map (fun x =>
        if x.id = p.id then rejectPayout now (trim params.reason) x else x) ∧
      OnlyPayouts s.db s'.db := by
  unfold rejectPayoutRequest at h
  simp only [commits_bind, commits_require, commits_readDb, commits_orThrow,
    Option.filter_eq_some_iff, Table.find?_eq_some, commits_writeDb, commits_pure] at h
  obtain ⟨_, _, ⟨-, rfl⟩, _, _, ⟨rfl, rfl⟩, p, _, ⟨⟨⟨hmem, hkey⟩, -⟩, rfl⟩, _, _,
    ⟨hstatus, rfl⟩, _, _, rfl, _, t, haudit, rfl, rfl⟩ := h
  have hkept := MoneyKept.of_audit haudit
  refine ⟨p, hmem, hkey, hstatus, ?_, ?_⟩
  · rw [hkept.payouts]
    exact Table.rows_updateKey _ _ _ (rejectPayout_keepsIndexes ..)
  · exact ⟨hkept.registry, hkept.sales, hkept.ledger, hkept.summaries, hkept.batches,
      hkept.items⟩

theorem commits_requestPayoutWithMeta {env : Env} {now : Instant}
    {membershipId tenantId : Uuid} {result : RequestResult} {s s' : Session}
    (h : Commits (requestPayoutWithMeta env now membershipId tenantId) s result s') :
    (s' = s ∧ result.created = false) ∨
      (∃ tenant id, s.db.registry.tenants.find? tenantId = some tenant ∧
        s'.db.payouts.rows = s.db.payouts.rows ++
          [newRequest tenantId membershipId
            (netCents (payableRows s.db tenantId membershipId))
            (env.monthKey now tenant.timezone) now id] ∧
        OnlyPayouts s.db s'.db) := by
  unfold requestPayoutWithMeta at h
  simp only [commits_bind, commits_readDb, commits_orThrow] at h
  obtain ⟨_, _, ⟨rfl, rfl⟩, recipient, _, ⟨-, rfl⟩, h⟩ := h
  split at h
  · simp at h
  · simp only [commits_bind, commits_readDb, findTenant, commits_orThrow] at h
    obtain ⟨tenant, _, ⟨_, _, ⟨rfl, rfl⟩, htenant, rfl⟩, h⟩ := h
    split at h
    · simp only [commits_pure] at h
      exact .inl ⟨h.2.symm, by rw [← h.1]⟩
    · simp only [commits_bind, commits_require, commits_createPayout, commits_pure] at h
      obtain ⟨_, _, ⟨-, rfl⟩, _, _, ⟨-, payouts, hins, rfl, rfl⟩, -, rfl⟩ := h
      exact .inr ⟨tenant, _, htenant, (Table.insert?_eq_some.mp hins).2,
        ⟨rfl, rfl, rfl, rfl, rfl, rfl⟩⟩

end Refearn.Engine
