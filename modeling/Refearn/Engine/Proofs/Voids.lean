import Refearn.Engine.Proofs.Books
import Refearn.Engine.Proofs.Persistence
/-!
# Voiding a sale

A void of a sale without processing rows goes through, takes back every commission
of the sale, and no later step on sales touches the rows of the sale again.
-/

namespace Refearn.Engine

open Support Support.Transaction

/-! ## A void goes through -/

theorem exists_commits_closeEntry (entry : LedgerEntry) (s : Session) :
    ∃ t, Commits (closeEntry entry) s ⟨⟩ t ∧ t.uuids = s.uuids ∧
      t.db.ledger.rows = s.db.ledger.rows.map (close [entry]) := by
  unfold closeEntry
  split_ifs with hpaid
  · refine ⟨_, commits_updateLedgerEntry.mpr rfl, rfl, ?_⟩
    simp only [Table.rows_updateKey]
    refine List.map_congr_left fun r _ => ?_
    by_cases hid : r.id = entry.id
    · have hkey : key r = entry.id := hid
      rw [if_pos hkey]
      simp [close, closes, hid, hpaid]
    · have hkey : ¬key r = entry.id := hid
      rw [if_neg hkey]
      exact (close_of_notMem (by simpa using Ne.symm hid)).symm
  · refine ⟨s, (commits_pure ..).mpr ⟨rfl, rfl⟩, rfl, ?_⟩
    rw [List.map_id'' fun r => ?_]
    simp [close, closes, not_not.mp hpaid]

theorem exists_commits_reverseEntry {sale : Sale} (month : String) (now : Instant)
    {entry : LedgerEntry} {s : Session}
    (hfresh : ∀ r ∈ s.db.ledger, r.id ≠ s.uuids 0)
    (hclash : ∀ r ∈ s.db.ledger, r.saleId = some sale.id → r.type = .reversal →
      r.level ≠ entry.level) :
    ∃ t, Commits (reverseEntry sale month now entry) s ⟨⟩ t ∧
      t.uuids = (fun n => s.uuids (n + 1)) ∧
      t.db.ledger.rows = s.db.ledger.rows.map (close [entry]) ++
        [close [entry] (reversalRow sale now entry (s.uuids 0))] := by
  have hno : ∀ r ∈ s.db.ledger, key r ≠ key (reversalRow sale now entry (s.uuids 0)) ∧
      clash r (reversalRow sale now entry (s.uuids 0)) = false := by
    intro r hr
    refine ⟨hfresh r hr, ?_⟩
    simp only [clash, Bool.and_eq_false_iff, beq_eq_false_iff_ne]
    by_cases hsale : r.saleId = some sale.id
    · by_cases htype : r.type = .reversal
      · exact .inl (.inr (hclash r hr hsale htype))
      · exact .inr htype
    · exact .inl (.inl (.inr hsale))
  obtain ⟨ledger, hins⟩ := Table.exists_insert? hno
  obtain ⟨t, hclose, huuids, hrows⟩ := exists_commits_closeEntry entry
    ⟨{ s.db with ledger := ledger }, fun n => s.uuids (n + 1)⟩
  have hdone : ∃ t', Commits (reverseEntry sale month now entry) s ⟨⟩ t' ∧
      t'.uuids = t.uuids ∧ t'.db.ledger = t.db.ledger := by
    unfold reverseEntry
    simp only [commits_bind, commits_createLedgerEntry, commits_bumpSummary,
      commits_createNotification]
    exact ⟨_, ⟨_, _, ⟨ledger, hins, rfl, rfl⟩, ⟨⟩, t, hclose, ⟨⟩, _, rfl, rfl⟩, rfl, rfl⟩
  obtain ⟨t', hdone, huuids', hledger'⟩ := hdone
  refine ⟨t', hdone, huuids'.trans huuids, ?_⟩
  rw [hledger', hrows, (Table.insert?_eq_some.mp hins).2, List.map_append]
  rfl

/-- The void loop goes through: no reversal of these levels exists, the levels differ,
and the identifiers are fresh. -/
theorem exists_commits_reverseEntries {sale : Sale} {month : String} {now : Instant}
    {entries : List LedgerEntry} {s : Session}
    (hdistinct : ∀ i < entries.length, ∀ j < entries.length, s.uuids i = s.uuids j → i = j)
    (hfresh : ∀ i < entries.length, ∀ r ∈ s.db.ledger, r.id ≠ s.uuids i)
    (hlevels : (entries.map LedgerEntry.level).Nodup)
    (hclash : ∀ e ∈ entries, ∀ r ∈ s.db.ledger, r.saleId = some sale.id →
      r.type = .reversal → r.level ≠ e.level) :
    ∃ s', Commits (forM entries (reverseEntry sale month now)) s ⟨⟩ s' := by
  induction entries generalizing s with
  | nil => exact ⟨s, by simp⟩
  | cons e entries ih =>
      rw [List.map_cons, List.nodup_cons] at hlevels
      obtain ⟨t, hone, huuids, hrows⟩ := exists_commits_reverseEntry month now
        (hfresh 0 (by simp)) (hclash e List.mem_cons_self)
      -- a row of the next state is an old one up to its status, or the new reversal
      have hcases : ∀ r ∈ t.db.ledger, (∃ r₀ ∈ s.db.ledger, SameEntry r₀ r) ∨
          SameEntry (reversalRow sale now e (s.uuids 0)) r := by
        intro r hr
        rw [Table.mem_def, hrows, List.mem_append, List.mem_singleton, List.mem_map] at hr
        rcases hr with ⟨r₀, hr₀, rfl⟩ | rfl
        · exact .inl ⟨r₀, hr₀, close_sameEntry [e] r₀⟩
        · exact .inr (close_sameEntry [e] _)
      have hrest : ∃ s', Commits (forM entries (reverseEntry sale month now)) t ⟨⟩ s' := by
        refine ih ?_ ?_ hlevels.2 ?_
        · intro i hi j hj heq
          rw [huuids] at heq
          have hij := hdistinct (i + 1) (by simpa using hi) (j + 1) (by simpa using hj) heq
          omega
        · intro i hi r hr
          rw [huuids]
          rcases hcases r hr with ⟨r₀, hr₀, hsame⟩ | hsame
          · rw [hsame.id]
            exact hfresh (i + 1) (by simpa using hi) r₀ hr₀
          · rw [hsame.id]
            intro heq
            have hij := hdistinct 0 (by simp) (i + 1) (by simpa using hi) heq
            omega
        · intro e' he' r hr hsale htype
          rcases hcases r hr with ⟨r₀, hr₀, hsame⟩ | hsame
          · rw [hsame.level]
            exact hclash e' (List.mem_cons_of_mem _ he') r₀ hr₀ (hsame.saleId ▸ hsale)
              (hsame.type ▸ htype)
          · rw [hsame.level]
            intro heq
            exact hlevels.1 (List.mem_map.mpr ⟨e', he', heq.symm⟩)
      obtain ⟨s', hrest⟩ := hrest
      exact ⟨s', (commits_forM_cons ..).mpr ⟨t, hone, hrest⟩⟩

/-! ## The commissions of a sale that is not void -/

/-- All rows of a sale that is not void are live commissions. -/
theorem mem_liveCommissions_iff {db : Db} (hsale : SaleSound db) {sale : Sale}
    (hmem : sale ∈ db.sales) (hlive : sale.status ≠ .void) {r : LedgerEntry} :
    r ∈ liveCommissions db.ledger sale.id ↔ r ∈ db.ledger ∧ r.saleId = some sale.id := by
  rw [mem_liveCommissions]
  constructor
  · rintro ⟨hr, hcom, -⟩
    simp only [isCommissionOf, Bool.and_eq_true, decide_eq_true_eq] at hcom
    exact ⟨hr, hcom.1⟩
  · rintro ⟨hr, hid⟩
    obtain ⟨htype, hstatus⟩ := (hsale r hr).notVoid sale hmem hid hlive
    refine ⟨hr, by simp [isCommissionOf, hid, htype], ?_⟩
    cases hst : r.status <;> first | rfl | exact absurd hst hstatus

/-- Two commissions of one sale are of different levels. -/
theorem nodup_levels (ledger : Table LedgerEntry) (saleId : Uuid) :
    ((liveCommissions ledger saleId).map LedgerEntry.level).Nodup := by
  refine List.Nodup.map_on ?_ (List.Nodup.of_map _ (nodup_liveCommissions ledger saleId))
  intro r hr r' hr' hlevel
  obtain ⟨hmem, hcom, -⟩ := mem_liveCommissions.mp hr
  obtain ⟨hmem', hcom', -⟩ := mem_liveCommissions.mp hr'
  exact commission_unique hmem hmem' hcom hcom' hlevel

/-- The session of a void that has marked its sale. -/
def markedVoid (db : Db) (uuids : Nat → Uuid) (sale : Sale) (actorUserId : Option Uuid) :
    Session where
  db :=
    { db with
      sales := db.sales.updateKey sale.id markVoid markVoid_keepsIndexes
      auditLogs := db.auditLogs ++ [⟨sale.tenantId, actorUserId, "sale.void", sale.id,
        statusJson (SaleStatus.text sale.status), statusJson "void"⟩] }
  uuids := uuids

/-- The loop over the commissions of a sale that is not void goes through. -/
theorem exists_commits_voidLoop {db : Db} (hsound : SaleSound db) {sale : Sale}
    (hmem : sale ∈ db.sales) (hlive : sale.status ≠ .void) (now : Instant)
    (actorUserId : Option Uuid) (month : String) {uuids : Nat → Uuid}
    (hfresh : FreshUuids db uuids (liveCommissions db.ledger sale.id).length) :
    ∃ s', Commits (forM (liveCommissions db.ledger sale.id) (reverseEntry sale month now))
      (markedVoid db uuids sale actorUserId) ⟨⟩ s' := by
  refine exists_commits_reverseEntries hfresh.distinct hfresh.ledger
    (nodup_levels db.ledger sale.id) ?_
  intro _ _ r hr hsale htype
  have hcom := ((hsound r hr).notVoid sale hmem hsale hlive).1
  rw [htype] at hcom
  cases hcom

theorem exists_commits_voidSale (env : Env) {db : Db} (hsound : SaleSound db) {sale : Sale}
    (hmem : sale ∈ db.sales) (hlive : sale.status ≠ .void)
    (hprocessing : ∀ e ∈ liveCommissions db.ledger sale.id, e.status ≠ .processing)
    (now : Instant) (actorUserId : Option Uuid) {uuids : Nat → Uuid}
    (hfresh : FreshUuids db uuids (liveCommissions db.ledger sale.id).length) :
    ∃ r s', Commits (voidSale env now sale.id actorUserId) ⟨db, uuids⟩ r s' := by
  suffices hrest : ∃ r s', Commits
      (if (liveCommissions db.ledger sale.id).length = 0 then
        (pure ⟨true, 0⟩ : Tx VoidSaleResult)
      else do
        let month ← voidMonth env sale
        forM (liveCommissions db.ledger sale.id) (reverseEntry sale month now)
        pure ⟨true, (liveCommissions db.ledger sale.id).length⟩)
      (markedVoid db uuids sale actorUserId) r s' by
    obtain ⟨r, s', hrest⟩ := hrest
    refine ⟨r, s', ?_⟩
    unfold voidSale voidSaleInTx
    simp only [commits_bind, commits_lockSale]
    refine ⟨sale, ⟨db, uuids⟩, ⟨⟨hmem, rfl, rfl⟩, rfl⟩, ?_⟩
    rw [if_neg hlive]
    simp only [commits_bind, commits_readDb, commits_require, commits_updateSale,
      commits_audit]
    exact ⟨db, _, ⟨rfl, rfl⟩, ⟨⟩, _, ⟨hprocessing, rfl⟩, ⟨⟩, _, rfl, ⟨⟩,
      markedVoid db uuids sale actorUserId, rfl, hrest⟩
  split_ifs with hempty
  · exact ⟨_, _, (commits_pure ..).mpr ⟨rfl, rfl⟩⟩
  · -- a sale with rows has a frozen month, so no tenant is looked up
    obtain ⟨e, he⟩ := List.exists_mem_of_length_pos (Nat.pos_of_ne_zero hempty)
    obtain ⟨hr, hid⟩ := (mem_liveCommissions_iff hsound hmem hlive).mp he
    obtain ⟨sale', hmem', hid', -, -, hmonth, -⟩ := (hsound e hr).ofSale sale.id hid
    rw [Table.eq_of_key hmem' hmem hid'] at hmonth
    obtain ⟨month, hmonth⟩ := Option.isSome_iff_exists.mp hmonth
    obtain ⟨s', hloop⟩ :=
      exists_commits_voidLoop hsound hmem hlive now actorUserId month hfresh
    refine ⟨⟨true, (liveCommissions db.ledger sale.id).length⟩, s', ?_⟩
    simp only [commits_bind, voidMonth, hmonth, commits_pure]
    exact ⟨month, _, ⟨rfl, rfl⟩, ⟨⟩, s', hloop, trivial, rfl⟩

/-! ## What a void leaves behind -/

/-- The row takes a commission back. -/
structure IsReversalOf (r v : LedgerEntry) : Prop where
  saleId : v.saleId = r.saleId
  type : v.type = .reversal
  beneficiary : v.beneficiaryMembershipId = r.beneficiaryMembershipId
  level : v.level = r.level
  rate : v.rateBpsUsed = r.rateBpsUsed
  amount : v.amountCents = -r.amountCents

def isRowOf (saleId membershipId : Uuid) (r : LedgerEntry) : Bool :=
  r.saleId = some saleId && r.beneficiaryMembershipId = membershipId

/-- What the rows of a sale come to for one beneficiary. -/
def saleCents (db : Db) (saleId membershipId : Uuid) : Int :=
  ((db.ledger.rows.filter (isRowOf saleId membershipId)).map LedgerEntry.amountCents).sum

/-- `db'` is `db` with the sale neutralised. -/
structure Neutralised (sale : Sale) (db db' : Db) : Prop where
  void : ∃ sale' ∈ db'.sales, sale'.id = sale.id ∧ sale'.status = .void
  /-- Every commission of the sale is still there, paid or reversed. -/
  commission : ∀ r ∈ db.ledger, isCommissionOf sale.id r = true → ∃ r' ∈ db'.ledger,
    SameEntry r r' ∧ r'.status = if r.status = .paid then .paid else .reversed
  /-- It has exactly one reversal. -/
  reversal : ∀ r ∈ db.ledger, isCommissionOf sale.id r = true → ∃ v ∈ db'.ledger,
    IsReversalOf r v ∧ v.status = (if r.status = .paid then .payable else .reversed) ∧
      ∀ v' ∈ db'.ledger, IsReversalOf r v' → v' = v
  /-- The sale has no other rows. -/
  only : ∀ r' ∈ db'.ledger, r'.saleId = some sale.id → ∃ r ∈ db.ledger,
    isCommissionOf sale.id r = true ∧ (SameEntry r r' ∨ IsReversalOf r r')
  zero : ∀ membershipId, saleCents db' sale.id membershipId = 0
  paidRows : ∀ tenantId membershipId,
    paidCents db' tenantId membershipId = paidCents db tenantId membershipId
  paidSummaries : ∀ k, summaryCents db'.summaries k .paid = summaryCents db.summaries k .paid

namespace Voided

variable {now : Instant} {sale : Sale} {month : String} {db db' : Db}

theorem saleCents_eq_zero (h : Voided now sale month db db') (hsound : SaleSound db)
    (hmem : sale ∈ db.sales) (hlive : sale.status ≠ .void) (membershipId : Uuid) :
    saleCents db' sale.id membershipId = 0 := by
  obtain ⟨news, hdrawn, hrows⟩ := h.ledger
  let entries := liveCommissions db.ledger sale.id
  let amount := fun e : LedgerEntry =>
    if e.beneficiaryMembershipId = membershipId then e.amountCents else 0
  have hold : ((db.ledger.rows.map (close entries)).map (fun r =>
      if isRowOf sale.id membershipId r then r.amountCents else 0)).sum =
        (entries.map amount).sum := by
    rw [List.map_map]
    refine Table.sum_selected (nodup_liveCommissions db.ledger sale.id) ?_ ?_
    · intro e he
      obtain ⟨hr, hid⟩ := (mem_liveCommissions_iff hsound hmem hlive).mp he
      have hsame := close_sameEntry entries e
      refine ⟨e, hr, rfl, ?_⟩
      simp [Function.comp, isRowOf, hsame.saleId, hsame.beneficiary, hsame.amount, hid, amount]
    · intro r hr hnot
      have hsame := close_sameEntry entries r
      refine if_neg fun hrow => hnot ?_
      simp only [isRowOf, hsame.saleId, Bool.and_eq_true, decide_eq_true_eq] at hrow
      exact List.mem_map_of_mem ((mem_liveCommissions_iff hsound hmem hlive).mpr ⟨hr, hrow.1⟩)
  have hnew : news.map (fun r =>
      if isRowOf sale.id membershipId r then r.amountCents else 0) =
        entries.map (fun e => -amount e) := by
    refine hdrawn.map_eq fun e id => ?_
    by_cases hm : e.beneficiaryMembershipId = membershipId <;>
      simp [isRowOf, reversalRow, amount, hm]
  have hneg : (entries.map (fun e => -amount e)).sum = -(entries.map amount).sum := by
    induction entries with
    | nil => rfl
    | cons e rest ih =>
        simp only [List.map_cons, List.sum_cons, ih]
        omega
  rw [saleCents, ← sum_map_ite, hrows, List.map_append, List.sum_append, hold, hnew, hneg]
  omega

theorem neutralised (h : Voided now sale month db db') (hsound : SaleSound db)
    (hmem : sale ∈ db.sales) (hlive : sale.status ≠ .void) : Neutralised sale db db' := by
  obtain ⟨news, hdrawn, hev⟩ := h.evolution
  have hisLive : ∀ r ∈ db.ledger, isCommissionOf sale.id r = true →
      r ∈ liveCommissions db.ledger sale.id := by
    intro r hr hcom
    simp only [isCommissionOf, Bool.and_eq_true, decide_eq_true_eq] at hcom
    exact (mem_liveCommissions_iff hsound hmem hlive).mpr ⟨hr, hcom.1⟩
  have hcommission : ∀ e ∈ liveCommissions db.ledger sale.id,
      e ∈ db.ledger ∧ isCommissionOf sale.id e = true := fun e he =>
    ⟨(mem_liveCommissions.mp he).1, (mem_liveCommissions.mp he).2.1⟩
  refine ⟨⟨markVoid sale, h.stored hmem, rfl, rfl⟩, ?_, ?_, ?_,
    h.saleCents_eq_zero hsound hmem hlive, ?_, ?_⟩
  · intro r hr hcom
    refine ⟨_, hev.mem_old hr, close_sameEntry _ r, ?_⟩
    have hclosable := mem_liveCommissions.mp (hisLive r hr hcom)
    unfold close
    by_cases hpaid : r.status = .paid
    · rw [if_neg (fun hc => ((closes_iff hr).mp hc).2.2 hpaid), if_pos hpaid, hpaid]
    · rw [if_pos ((closes_iff hr).mpr ⟨hcom, hclosable.2.2, hpaid⟩), if_neg hpaid]
      rfl
  · intro r hr hcom
    obtain ⟨id, hnew⟩ := hdrawn.mem_of_mem (hisLive r hr hcom)
    simp only [isCommissionOf, Bool.and_eq_true, decide_eq_true_eq] at hcom
    refine ⟨_, hev.mem_new hnew, ⟨hcom.1.symm, rfl, rfl, rfl, rfl, rfl⟩, rfl, ?_⟩
    intro v' hv' hrev
    refine Table.eq_of_clash clash_entry_comm hv' (hev.mem_new hnew) ?_
    simp [clash, hrev.saleId, hrev.level, hrev.type, hcom.1, reversalRow]
  · intro r' hr' hid
    rcases hev.mem_cases hr' with ⟨r, hr, rfl⟩ | hnew
    · have hsame := close_sameEntry (liveCommissions db.ledger sale.id) r
      rw [hsame.saleId] at hid
      have hlive' := (mem_liveCommissions_iff hsound hmem hlive).mpr ⟨hr, hid⟩
      exact ⟨r, hr, (hcommission r hlive').2, .inl hsame⟩
    · obtain ⟨e, he, id, rfl⟩ := hdrawn.exists_of_mem hnew
      obtain ⟨hr, hcom⟩ := hcommission e he
      have hsale := ((mem_liveCommissions_iff hsound hmem hlive).mp he).2
      exact ⟨e, hr, hcom, .inr ⟨hsale.symm, rfl, rfl, rfl, rfl, rfl⟩⟩
  · intro tenantId membershipId
    obtain ⟨news', hdrawn', hrows⟩ := h.ledger
    have hnone : news'.filter (isPaidTo tenantId membershipId) = [] := by
      refine List.filter_eq_nil_iff.mpr fun v hv => ?_
      obtain ⟨e, -, id, rfl⟩ := hdrawn'.exists_of_mem hv
      by_cases hpaid : e.status = .paid <;> simp [isPaidTo, reversalRow, reversalStatus, hpaid]
    have hkeep : ∀ r ∈ db.ledger.rows, isPaidTo tenantId membershipId
        (close (liveCommissions db.ledger sale.id) r) = isPaidTo tenantId membershipId r := by
      intro r hr
      unfold close
      split_ifs with hc
      · have hpaid := ((closes_iff hr).mp hc).2.2
        simp [isPaidTo, setStatus, hpaid]
      · rfl
    unfold paidCents
    rw [hrows, List.filter_append, hnone, List.append_nil, List.filter_map, List.map_map]
    have hfilter : db.ledger.rows.filter (isPaidTo tenantId membershipId ∘
        close (liveCommissions db.ledger sale.id)) =
        db.ledger.rows.filter (isPaidTo tenantId membershipId) :=
      List.filter_congr hkeep
    rw [hfilter]
    refine congrArg List.sum (List.map_congr_left fun r _ => ?_)
    exact (close_sameEntry _ r).amount
  · intro k
    rw [h.summaries, summaryCents_postAll, posted_map, posted]
    have hzero : ∀ e, ((reversalPosting sale month e).2).cents .paid = 0 := by
      intro e
      by_cases hpending : e.status = .pending <;>
        simp [reversalPosting, reversalDelta, hpending, SummaryDelta.cents]
    simp [hzero]

end Voided

/-! ## Later steps on sales -/

/-- The rows of a sale. -/
def rowsOf (db : Db) (saleId : Uuid) : List LedgerEntry :=
  db.ledger.rows.filter (fun r => r.saleId = some saleId)

/-- The actions that work on sales. -/
def Action.onSale : Action → Bool
  | .approveSale .. | .applyCommissions .. | .voidSale .. | .markDelivered ..
  | .matureCommissions .. => true
  | _ => false

theorem rowsOf_of_evolution {f : LedgerEntry → LedgerEntry} {news : List LedgerEntry}
    {db db' : Db} (hev : Evolution f news db db') {saleId : Uuid}
    (hkeep : ∀ r ∈ db.ledger, r.saleId = some saleId → f r = r)
    (hnews : ∀ r ∈ news, r.saleId ≠ some saleId) : rowsOf db' saleId = rowsOf db saleId := by
  unfold rowsOf
  have hnone : news.filter (fun r => r.saleId = some saleId) = [] := by
    refine List.filter_eq_nil_iff.mpr fun r hr => ?_
    simpa using hnews r hr
  have hsame : ∀ r, decide ((f r).saleId = some saleId) = decide (r.saleId = some saleId) :=
    fun r => by rw [(hev.same r).saleId]
  rw [hev.rows, List.filter_append, hnone, List.append_nil, List.filter_map]
  have hcomp : (fun r : LedgerEntry => decide (r.saleId = some saleId)) ∘ f =
      fun r => decide (r.saleId = some saleId) := funext hsame
  rw [hcomp, List.map_congr_left (g := id), List.map_id]
  intro r hr
  obtain ⟨hr, hsale⟩ := List.mem_filter.mp hr
  exact hkeep r hr (by simpa using hsale)

theorem Distributed.rowsOf_eq {env : Env} {now : Instant} {sale : Sale}
    {registry : Registry} {i : Inputs sale registry} {credits : List Credit} {db db' : Db}
    (h : Distributed env now i credits db db') {saleId : Uuid} (hne : sale.id ≠ saleId) :
    rowsOf db' saleId = rowsOf db saleId := by
  obtain ⟨news, hdrawn, hev⟩ := h.evolution
  refine rowsOf_of_evolution hev (fun _ _ _ => rfl) fun r hr hid => ?_
  obtain ⟨c, -, id, rfl⟩ := hdrawn.exists_of_mem hr
  exact hne (Option.some.inj hid)

theorem Voided.rowsOf_eq {now : Instant} {sale : Sale} {month : String} {db db' : Db}
    (h : Voided now sale month db db') {saleId : Uuid} (hne : sale.id ≠ saleId) :
    rowsOf db' saleId = rowsOf db saleId := by
  obtain ⟨news, hdrawn, hev⟩ := h.evolution
  refine rowsOf_of_evolution hev (fun r hr hid => ?_) fun r hr hid => ?_
  · refine if_neg fun hc => hne ?_
    have hcom := ((closes_iff hr).mp hc).1
    simp only [isCommissionOf, Bool.and_eq_true, decide_eq_true_eq] at hcom
    exact Option.some.inj (hcom.1.symm.trans hid)
  · obtain ⟨e, -, id, rfl⟩ := hdrawn.exists_of_mem hr
    exact hne (Option.some.inj hid)

theorem Delivered.rowsOf_eq {sale : Sale} {deliveredAt maturesAt : Instant} {db db' : Db}
    (h : Delivered sale deliveredAt maturesAt db db') {saleId : Uuid}
    (hne : sale.id ≠ saleId) : rowsOf db' saleId = rowsOf db saleId := by
  refine rowsOf_of_evolution h.evolution (fun r _ hid => if_neg fun hwaits => hne ?_) (by simp)
  simp only [awaitsDelivery, isCommissionOf, Bool.and_eq_true, decide_eq_true_eq] at hwaits
  exact Option.some.inj (hwaits.1.1.1.symm.trans hid)

/-- Maturing passes over the rows of a void sale: none of its commissions is pending. -/
theorem Matured.rowsOf_void {env : Env} {now : Instant} {batch : List DueRow} {db db' : Db}
    (h : Matured batch db db') (hdue : AllDue env now db batch) (hsound : SaleSound db)
    {sale : Sale} (hmem : sale ∈ db.sales) (hvoid : sale.status = .void) :
    rowsOf db' sale.id = rowsOf db sale.id := by
  refine rowsOf_of_evolution h.evolution (fun r hr hid => if_neg fun hin => ?_) (by simp)
  obtain ⟨row, hrow, hrowId⟩ := List.mem_map.mp hin
  obtain ⟨r', hr', hdueRow⟩ := hdue row hrow
  obtain ⟨htype, hpending, -, -, hid', -⟩ := dueRow_eq_some hdueRow
  have heq : r' = r := Table.eq_of_key hr' hr (hid'.symm.trans hrowId)
  subst heq
  rcases (hsound r' hr').void sale hmem hid hvoid htype with hst | hst <;>
    rw [hpending] at hst <;> cases hst

/-- A step on sales leaves the rows of a void sale alone. -/
theorem rowsOf_void_of_effect {env : Env} {action : Action} {db db' : Db}
    (heffect : Effect env db action db') (hsale : action.onSale = true)
    (hsound : SaleSound db) {sale : Sale} (hmem : sale ∈ db.sales)
    (hvoid : sale.status = .void) : rowsOf db' sale.id = rowsOf db sale.id := by
  have hother : ∀ other ∈ db.sales, other.status ≠ .void → other.id ≠ sale.id :=
    fun other hother hlive hid => hlive (by rw [Table.eq_of_key hother hmem hid, hvoid])
  cases heffect with
  | same => rfl
  | drafts h => rw [rowsOf, rowsOf, h.ledger]
  | applied hin _ happroved _ h =>
      exact h.rowsOf_eq (hother _ hin (by rw [happroved]; exact nofun))
  | approved _ _ h => rw [rowsOf, rowsOf, h.ledger]
  | approvedAndApplied hin hdraft hmid _ h =>
      have hne := hother _ hin (by rw [hdraft]; exact nofun)
      rw [h.rowsOf_eq hne, rowsOf, rowsOf, hmid.ledger]
  | voided hin hlive _ _ h => exact h.rowsOf_eq (hother _ hin hlive)
  | delivered hin happroved _ h =>
      exact h.rowsOf_eq (hother _ hin (by rw [happroved]; exact nofun))
  | matured _ h => exact h.rowsOf_void (fun _ hrow => mem_matureBatch hrow) hsound hmem hvoid
  | _ => cases hsale

/-! ## Voiding neutralises -/

/-- Once void, a sale stays void, and no step on sales touches its rows. -/
theorem rowsOf_void_of_run {env : Env} {db : Db} (h : ReachableDb env db) {sale : Sale}
    (hmem : sale ∈ db.sales) (hvoid : sale.status = .void) (steps : List Step) (later : Step)
    (hlater : later.action.onSale = true) :
    rowsOf (later.apply env (run (Step.apply env) steps db)) sale.id =
      rowsOf (run (Step.apply env) steps db) sale.id := by
  have hsound := (reachable_good (h.run steps)).sound.sale
  obtain ⟨sale', hmem', hkept⟩ := salesKept_run h steps sale hmem (by rw [hvoid]; exact nofun)
  rw [← hkept.id]
  exact rowsOf_void_of_effect (later.effect env _) hlater hsound hmem' (hkept.void hvoid)

/-- Voiding a sale that is not void either raises, exactly when a commission of it is
processing, or neutralises it for good. -/
theorem voidSale_neutralises {env : Env} {db : Db} (h : ReachableDb env db) {sale : Sale}
    (hmem : sale ∈ db.sales) (hlive : sale.status ≠ .void) (now : Instant)
    (actorUserId : Option Uuid) {uuids : Nat → Uuid}
    (hfresh : FreshUuids db uuids (liveCommissions db.ledger sale.id).length) :
    ((∃ e, Raises (voidSale env now sale.id actorUserId) ⟨db, uuids⟩ e) ↔
        ∃ r ∈ db.ledger, isCommissionOf sale.id r = true ∧ r.status = .processing) ∧
      ((∃ r ∈ db.ledger, isCommissionOf sale.id r = true ∧ r.status = .processing) →
        execute (voidSale env now sale.id actorUserId) db uuids = db) ∧
      ((∀ r ∈ db.ledger, isCommissionOf sale.id r = true → r.status ≠ .processing) →
        Neutralised sale db (execute (voidSale env now sale.id actorUserId) db uuids) ∧
          ∀ (steps : List Step) (later : Step), later.action.onSale = true →
            rowsOf (later.apply env (run (Step.apply env) steps
                (execute (voidSale env now sale.id actorUserId) db uuids))) sale.id =
              rowsOf (run (Step.apply env) steps
                (execute (voidSale env now sale.id actorUserId) db uuids)) sale.id) := by
  have hsound := (reachable_good h).sound.sale
  -- processing commissions are live, so the guard sees exactly them
  have hguard : (∀ e ∈ liveCommissions db.ledger sale.id, e.status ≠ .processing) ↔
      ∀ r ∈ db.ledger, isCommissionOf sale.id r = true → r.status ≠ .processing := by
    constructor
    · intro hall r hr hcom
      simp only [isCommissionOf, Bool.and_eq_true, decide_eq_true_eq] at hcom
      exact hall r ((mem_liveCommissions_iff hsound hmem hlive).mpr ⟨hr, hcom.1⟩)
    · intro hall e he
      obtain ⟨hr, hcom, -⟩ := mem_liveCommissions.mp he
      exact hall e hr hcom
  have hstuck : (∃ r ∈ db.ledger, isCommissionOf sale.id r = true ∧ r.status = .processing) →
      ∃ e, Raises (voidSale env now sale.id actorUserId) ⟨db, uuids⟩ e := by
    rintro ⟨r, hr, hcom, hprocessing⟩
    rcases commits_or_raises (voidSale env now sale.id actorUserId) ⟨db, uuids⟩ with
      ⟨result, s', hc⟩ | hraises
    · obtain ⟨other, hin, hid, ⟨hvoid, -⟩ | ⟨-, hall, -⟩⟩ := commits_voidSaleInTx hc
      · rw [Table.eq_of_key hin hmem hid] at hvoid
        exact absurd hvoid hlive
      · exact absurd hprocessing (hguard.mp hall r hr hcom)
    · exact hraises
  refine ⟨⟨?_, hstuck⟩, ?_, ?_⟩
  · rintro ⟨e, hraises⟩
    by_contra hnone
    push Not at hnone
    obtain ⟨result, s', hc⟩ :=
      exists_commits_voidSale env hsound hmem hlive (hguard.mpr hnone) now actorUserId
        hfresh
    exact hc.not_raises hraises
  · intro hprocessing
    obtain ⟨e, hraises⟩ := hstuck hprocessing
    unfold execute
    rw [hraises.commit_eq]
  · intro hnone
    obtain ⟨result, s', hc⟩ :=
      exists_commits_voidSale env hsound hmem hlive (hguard.mpr hnone) now actorUserId
        hfresh
    have hdb : execute (voidSale env now sale.id actorUserId) db uuids = s'.db := by
      unfold execute
      rw [hc.commit_eq]
    have hreach : ReachableDb env s'.db :=
      reachable_of_commits (.voidSale now sale.id actorUserId none) h
        ((commits_discard ..).mpr ⟨result, hc⟩)
    obtain ⟨other, hin, hid, ⟨hvoid, -⟩ | ⟨-, -, -, month, -, hvoided⟩⟩ :=
      commits_voidSaleInTx hc
    · rw [Table.eq_of_key hin hmem hid] at hvoid
      exact absurd hvoid hlive
    · have hsame : other = sale := Table.eq_of_key hin hmem hid
      subst hsame
      rw [hdb]
      exact ⟨hvoided.neutralised hsound hmem hlive, fun steps later hlater =>
        rowsOf_void_of_run hreach (hvoided.stored hmem) rfl steps later hlater⟩

/-- The paid commissions of the sale are taken back by payable reversals. -/
theorem voidSale_neutralises_paidOut :
    ∃ sale ∈ (Demo.after Demo.paidOut).sales, sale.id = 100 ∧
      Neutralised sale (Demo.after Demo.paidOut)
        (execute (voidSale Demo.env 0 sale.id none) (Demo.after Demo.paidOut)
          (Demo.uuidsFrom 600)) := by
  obtain ⟨sale, hmem, hid, hlive, hfresh, hnone⟩ :
      ∃ sale ∈ (Demo.after Demo.paidOut).sales, sale.id = 100 ∧ sale.status ≠ .void ∧
        FreshUuids (Demo.after Demo.paidOut) (Demo.uuidsFrom 600)
          (liveCommissions (Demo.after Demo.paidOut).ledger sale.id).length ∧
        ∀ r ∈ (Demo.after Demo.paidOut).ledger, isCommissionOf sale.id r = true →
          r.status ≠ .processing := by
    decide +kernel
  exact ⟨sale, hmem, hid,
    ((voidSale_neutralises (Demo.reachable Demo.paidOut) hmem hlive 0 none hfresh).2.2
      hnone).1⟩

end Refearn.Engine
