import Refearn.Reports.Financials
import Refearn.Engine.Proofs.Totals
/-!
# What the audit of the money tables reports

A bucket is reported if the summaries at their reading differ from the ledger at its own.
In a reachable state neither payouts nor buckets are off, so the audit is right exactly if
the ledgers of the two readings add up to the same for each member.
-/

namespace Refearn.Reports

open Support Engine

/-- One member of one business. -/
def only (tenantId membershipId : Uuid) : Uuid → Uuid → Bool := fun t m =>
  t = tenantId && m = membershipId

/-! ## The sums of one member -/

theorem statusCents_eq (status : LedgerStatus) (cents : Int) (b : Bucket) :
    statusCents status cents b = if statusBucket status = some b then cents else 0 := by
  cases status <;> cases b <;> rfl

theorem sum_apply (fs : List (Bucket → Int)) (b : Bucket) :
    fs.sum b = (fs.map (fun f => f b)).sum := by
  induction fs with
  | nil => rfl
  | cons f fs ih => rw [List.sum_cons, Pi.add_apply, ih, List.map_cons, List.sum_cons]

theorem posted_apply {α κ : Type} [DecidableEq κ] (f : α → κ) (amount : α → Bucket → Int)
    (xs : List α) (k : κ) (b : Bucket) :
    posted f amount xs k b = posted f (fun x => amount x b) xs k := by
  unfold posted
  rw [sum_apply, List.map_map]
  refine congrArg List.sum (List.map_congr_left fun x _ => ?_)
  change (if f x = k then amount x else 0) b = _
  split_ifs
  · rfl
  · rfl

theorem lookup_summarySums (db : Db) (tenantId membershipId : Uuid) (b : Bucket) :
    (lookupSum (summarySums db tenantId) membershipId).getD 0 b =
      summaryTotal db (only tenantId membershipId) b := by
  have hsum := sum_map_ite (db.summaries.rows.filter fun s => s.key.tenantId = tenantId)
    (fun s => decide (s.key.membershipId = membershipId)) (summaryBucket · b)
  simp only [decide_eq_true_eq] at hsum
  rw [summarySums, lookupSum_groupSums, posted_apply, posted, hsum, List.filter_filter,
    summaryTotal]
  congr 2
  refine List.filter_congr fun s _ => ?_
  rw [only, Bool.and_comm]

theorem lookup_ledgerByMember (db : Db) (tenantId membershipId : Uuid) (b : Bucket) :
    (lookupSum (ledgerByMember (ledgerSums db tenantId)) membershipId).getD 0 b =
      ledgerTotal db (only tenantId membershipId) b := by
  have hchosen : posted (fun g : (Uuid × LedgerStatus) × Int => g.1.1)
      (fun g => statusCents g.1.2 g.2 b) (ledgerSums db tenantId) membershipId =
        ((ledgerSums db tenantId).map (fun g =>
          if decide (g.1.1 = membershipId ∧ statusBucket g.1.2 = some b) then g.2 else 0)).sum := by
    refine congrArg List.sum (List.map_congr_left fun g _ => ?_)
    simp only [statusCents_eq]
    by_cases hm : g.1.1 = membershipId
    · simp [hm]
    · simp [hm]
  have hrows := sum_map_groupSums
    (fun k : Uuid × LedgerStatus => decide (k.1 = membershipId ∧ statusBucket k.2 = some b))
    (fun r : LedgerEntry => (r.beneficiaryMembershipId, r.status)) LedgerEntry.amountCents
    (db.ledger.rows.filter fun r => r.tenantId = tenantId)
  rw [ledgerByMember, lookupSum_groupTotals, posted_apply, hchosen]
  refine hrows.trans ?_
  rw [sum_map_ite, List.filter_filter, ledgerTotal]
  congr 2
  refine List.filter_congr fun r _ => ?_
  rw [only, Bool.decide_and, Bool.and_comm, Bool.and_assoc]

/-! ## The mismatches -/

theorem mem_memberChecks {s l : Bucket → Int} {membershipId : Uuid} {x : SummaryMismatch} :
    x ∈ memberChecks s l membershipId ↔ x.membershipId = membershipId ∧
      x.summary = s x.field ∧ x.ledger = l x.field ∧ x.summary ≠ x.ledger := by
  unfold memberChecks
  rw [List.mem_filterMap]
  constructor
  · rintro ⟨field, -, hx⟩
    split_ifs at hx with hne
    cases hx
    exact ⟨rfl, rfl, rfl, hne⟩
  · rintro ⟨hid, hs, hl, hne⟩
    refine ⟨x.field, by cases x.field <;> simp, ?_⟩
    rw [← hs, ← hl, ← hid, if_pos hne]

/-- A bucket is reported if the two readings differ in it. -/
theorem mem_summaryMismatches {sBy lBy : List (Uuid × (Bucket → Int))} {x : SummaryMismatch} :
    x ∈ summaryMismatches sBy lBy ↔
      x.summary = (lookupSum sBy x.membershipId).getD 0 x.field ∧
        x.ledger = (lookupSum lBy x.membershipId).getD 0 x.field ∧ x.summary ≠ x.ledger := by
  unfold summaryMismatches
  rw [List.mem_flatMap]
  constructor
  · rintro ⟨id, -, hx⟩
    obtain ⟨rfl, hs, hl, hne⟩ := mem_memberChecks.mp hx
    exact ⟨hs, hl, hne⟩
  · rintro ⟨hs, hl, hne⟩
    refine ⟨x.membershipId, ?_, mem_memberChecks.mpr ⟨rfl, hs, hl, hne⟩⟩
    -- a member that neither reading has is zero in both
    by_contra hnot
    rw [List.mem_eraseDups, List.mem_append, not_or] at hnot
    rw [lookupSum_eq_none hnot.1] at hs
    rw [lookupSum_eq_none hnot.2] at hl
    exact hne (hs.trans hl.symm)

/-- What is off when the summaries are read in one state and the ledger in another. -/
theorem mem_mismatches (summaries ledger : Db) (tenantId : Uuid) {x : SummaryMismatch} :
    x ∈ summaryMismatches (summarySums summaries tenantId)
        (ledgerByMember (ledgerSums ledger tenantId)) ↔
      x.summary = summaryTotal summaries (only tenantId x.membershipId) x.field ∧
        x.ledger = ledgerTotal ledger (only tenantId x.membershipId) x.field ∧
          x.summary ≠ x.ledger := by
  rw [mem_summaryMismatches, lookup_summarySums, lookup_ledgerByMember]

theorem mem_payoutMismatches {db : Db} {tenantId : Uuid} {x : PayoutMismatch} :
    x ∈ payoutMismatches db tenantId ↔
      (∃ p ∈ db.payouts, p.tenantId = tenantId ∧ p.status = .paid ∧ x.payoutId = p.id ∧
        x.totalCents = p.totalCents) ∧
          x.lineSum = linkedCents db x.payoutId ∧ x.totalCents ≠ x.lineSum := by
  unfold payoutMismatches
  rw [List.mem_filter, List.mem_map, decide_eq_true_eq]
  constructor
  · rintro ⟨⟨p, hp, rfl⟩, hne⟩
    obtain ⟨hmem, hof⟩ := List.mem_filter.mp hp
    simp only [decide_eq_true_eq] at hof
    exact ⟨⟨p, hmem, hof.1, hof.2, rfl, rfl⟩, rfl, hne⟩
  · rintro ⟨⟨p, hp, htenant, hpaid, hid, htotal⟩, hline, hne⟩
    refine ⟨⟨p, List.mem_filter.mpr ⟨hp, by simp [htenant, hpaid]⟩, ?_⟩, hne⟩
    obtain ⟨payoutId, totalCents, line⟩ := x
    change payoutId = p.id at hid
    change totalCents = p.totalCents at htotal
    change line = lineSum db payoutId at hline
    rw [hline, hid, htotal]

/-! ## The report -/

/-- The tables of a business are in balance. -/
structure Balanced (db : Db) (tenantId : Uuid) : Prop where
  payouts : ∀ p ∈ db.payouts, p.tenantId = tenantId → p.status = .paid →
    p.totalCents = linkedCents db p.id
  buckets : ∀ membershipId b, summaryTotal db (only tenantId membershipId) b =
    ledgerTotal db (only tenantId membershipId) b

theorem payoutMismatches_eq_nil {db : Db} {tenantId : Uuid} :
    payoutMismatches db tenantId = [] ↔ ∀ p ∈ db.payouts, p.tenantId = tenantId →
      p.status = .paid → p.totalCents = linkedCents db p.id := by
  rw [List.eq_nil_iff_forall_not_mem]
  constructor
  · intro hnone p hp htenant hpaid
    by_contra hne
    exact hnone ⟨p.id, p.totalCents, linkedCents db p.id⟩
      (mem_payoutMismatches.mpr ⟨⟨p, hp, htenant, hpaid, rfl, rfl⟩, rfl, hne⟩)
  · intro hall x hx
    obtain ⟨⟨p, hp, htenant, hpaid, hid, htotal⟩, hline, hne⟩ := mem_payoutMismatches.mp hx
    exact hne (by rw [htotal, hline, hid, hall p hp htenant hpaid])

theorem summaryMismatches_eq_nil {summaries ledger : Db} {tenantId : Uuid} :
    summaryMismatches (summarySums summaries tenantId)
        (ledgerByMember (ledgerSums ledger tenantId)) = [] ↔
      ∀ membershipId b, summaryTotal summaries (only tenantId membershipId) b =
        ledgerTotal ledger (only tenantId membershipId) b := by
  rw [List.eq_nil_iff_forall_not_mem]
  constructor
  · intro hnone membershipId b
    by_contra hne
    exact hnone ⟨membershipId, b, _, _⟩
      ((mem_mismatches summaries ledger tenantId).mpr ⟨rfl, rfl, hne⟩)
  · intro hall x hx
    obtain ⟨hs, hl, hne⟩ := (mem_mismatches summaries ledger tenantId).mp hx
    exact hne (by rw [hs, hl, hall])

theorem verifyFinancials_ok {reads : Reads} {tenantId : Uuid} :
    (verifyFinancials reads tenantId).ok = true ↔
      payoutMismatches reads.payouts tenantId = [] ∧
        summaryMismatches (summarySums reads.summaries tenantId)
          (ledgerByMember (ledgerSums reads.ledger tenantId)) = [] := by
  unfold verifyFinancials
  rw [Bool.and_eq_true, List.isEmpty_iff, List.isEmpty_iff]

/-- Read in one state, the audit is content exactly if the tables are in balance. -/
theorem verifyFinancials_at (db : Db) (tenantId : Uuid) :
    (verifyFinancials (.at db) tenantId).ok = true ↔ Balanced db tenantId := by
  rw [verifyFinancials_ok]
  change payoutMismatches db tenantId = [] ∧ _ = [] ↔ _
  rw [payoutMismatches_eq_nil]
  constructor
  · rintro ⟨hpayouts, hbuckets⟩
    exact ⟨hpayouts, summaryMismatches_eq_nil.mp hbuckets⟩
  · intro h
    exact ⟨h.payouts, summaryMismatches_eq_nil.mpr h.buckets⟩

/-- Every good database is in balance. -/
theorem Balanced.of_good {db : Db} (h : Good db) (tenantId : Uuid) : Balanced db tenantId where
  payouts _ hp _ hpaid := (h.sound.batch.linkedCents_eq hp hpaid).symm
  buckets _ b := h.summaryTotal_eq _ b

/-! ## An audit among the transactions of the engine -/

/-- The payouts are read in `start`; `before` and `between` commit before and between the two
reads that follow, of which either may come first. -/
structure Audit where
  start : Db
  before : List Step
  between : List Step
  ledgerFirst : Bool

namespace Audit

variable (env : Env) (a : Audit)

/-- What is committed at the first of the two reads, and at the second. -/
def first : Db := run (Step.apply env) a.before a.start

def second : Db := run (Step.apply env) a.between (a.first env)

def reads : Reads where
  payouts := a.start
  summaries := if a.ledgerFirst then a.second env else a.first env
  ledger := if a.ledgerFirst then a.first env else a.second env

/-- The states that are committed while the audit runs. -/
def Committed (db : Db) : Prop :=
  ∃ steps, steps <+: a.before ++ a.between ∧ db = run (Step.apply env) steps a.start

/-- What the audit reports is off in some state committed while it ran. -/
structure ReportsReal (tenantId : Uuid) : Prop where
  payouts : ∀ x ∈ (verifyFinancials (a.reads env) tenantId).payoutMismatches,
    ∃ db, a.Committed env db ∧ ∃ p ∈ db.payouts, p.id = x.payoutId ∧ p.status = .paid ∧
      p.totalCents ≠ linkedCents db p.id
  buckets : ∀ x ∈ (verifyFinancials (a.reads env) tenantId).summaryMismatches,
    ∃ db, a.Committed env db ∧ summaryTotal db (only tenantId x.membershipId) x.field ≠
      ledgerTotal db (only tenantId x.membershipId) x.field

/-- The transactions between the two reads leave what each member has in each status. -/
def BalancesHeld (tenantId : Uuid) : Prop :=
  ∀ membershipId b, ledgerTotal (a.first env) (only tenantId membershipId) b =
    ledgerTotal (a.second env) (only tenantId membershipId) b

variable {env a}

theorem good_of_committed (h : ReachableDb env a.start) {db : Db} (hdb : a.Committed env db) :
    Good db := by
  obtain ⟨steps, -, rfl⟩ := hdb
  exact reachable_good (h.run steps)

theorem good_first (h : ReachableDb env a.start) : Good (a.first env) :=
  reachable_good (h.run a.before)

theorem good_second (h : ReachableDb env a.start) : Good (a.second env) :=
  reachable_good ((h.run a.before).run a.between)

/-- The audit of a run is content exactly if the balances are held between its reads. -/
theorem ok_iff (h : ReachableDb env a.start) (tenantId : Uuid) :
    (verifyFinancials (a.reads env) tenantId).ok = true ↔ a.BalancesHeld env tenantId := by
  have hpayouts : payoutMismatches a.start tenantId = [] :=
    payoutMismatches_eq_nil.mpr (Balanced.of_good (reachable_good h) tenantId).payouts
  rw [verifyFinancials_ok, summaryMismatches_eq_nil]
  constructor
  · rintro ⟨-, hsame⟩ membershipId b
    have hread := hsame membershipId b
    unfold reads at hread
    by_cases hfirst : a.ledgerFirst = true
    · simp only [hfirst, if_true] at hread
      rw [← hread, (good_second h).summaryTotal_eq]
    · simp only [hfirst] at hread
      rw [← (good_first h).summaryTotal_eq]
      exact hread
  · intro hheld
    refine ⟨hpayouts, fun membershipId b => ?_⟩
    unfold reads
    by_cases hfirst : a.ledgerFirst = true
    · simp only [hfirst, if_true]
      rw [(good_second h).summaryTotal_eq, hheld]
    · simp only [hfirst]
      exact ((good_first h).summaryTotal_eq _ b).trans (hheld membershipId b)

/-- A reachable database is never off, so what the audit reports is real only if it reports
nothing. -/
theorem reportsReal_iff_ok (h : ReachableDb env a.start) (tenantId : Uuid) :
    a.ReportsReal env tenantId ↔ (verifyFinancials (a.reads env) tenantId).ok = true := by
  rw [verifyFinancials_ok]
  constructor
  · intro hreal
    constructor
    · by_contra hne
      obtain ⟨x, hx⟩ := List.exists_mem_of_ne_nil _ hne
      obtain ⟨db, hdb, p, hp, -, hpaid, hoff⟩ := hreal.payouts x hx
      exact hoff ((good_of_committed h hdb).sound.batch.linkedCents_eq hp hpaid).symm
    · by_contra hne
      obtain ⟨x, rest, hlist⟩ := List.exists_cons_of_ne_nil hne
      have hx : x ∈ (verifyFinancials (a.reads env) tenantId).summaryMismatches := by
        unfold verifyFinancials
        rw [hlist]
        exact List.mem_cons_self
      obtain ⟨db, hdb, hoff⟩ := hreal.buckets x hx
      exact hoff ((good_of_committed h hdb).summaryTotal_eq _ _)
  · rintro ⟨hpayouts, hbuckets⟩
    refine ⟨fun x hx => ?_, fun x hx => ?_⟩
    · change x ∈ payoutMismatches _ _ at hx
      rw [hpayouts] at hx
      exact absurd hx List.not_mem_nil
    · unfold verifyFinancials at hx
      rw [hbuckets] at hx
      exact absurd hx List.not_mem_nil

end Audit

/-- The audit cries wolf exactly if transactions that commit between its reads of the summaries
and of the ledger move money of a member; without them it tells balance from imbalance. -/
theorem audit_right_iff {env : Env} {a : Audit} (h : ReachableDb env a.start) (tenantId : Uuid) :
    (a.ReportsReal env tenantId ↔ a.BalancesHeld env tenantId) ∧
      ((verifyFinancials (a.reads env) tenantId).ok = true ↔ a.BalancesHeld env tenantId) ∧
        ∀ db, (verifyFinancials (.at db) tenantId).ok = true ↔ Balanced db tenantId :=
  ⟨(Audit.reportsReal_iff_ok h tenantId).trans (Audit.ok_iff h tenantId), Audit.ok_iff h tenantId,
    fun db => verifyFinancials_at db tenantId⟩

namespace Demo

open Engine.Demo (step reserveAll after reachable)

/-- An audit that starts after some steps, with others between its two last reads. -/
def audit (steps between : List Step) (ledgerFirst : Bool) : Audit :=
  ⟨after steps, [], between, ledgerFirst⟩

theorem audit_reachable (steps between : List Step) (ledgerFirst : Bool) :
    ReachableDb Engine.Demo.env (audit steps between ledgerFirst).start :=
  reachable steps

def reservation : List Step := [step 300 (.reservePayoutBatch 0 reserveAll)]

def drafting : List Step :=
  [step 300 (.createDraftSale ⟨1, none, 2, 500, "USD", 0, none, none⟩)]

end Demo

/-- The sale is reserved between the reads: the audit reports four buckets although none has
been off. -/
theorem reservation_cries_wolf :
    let a := Demo.audit Engine.Demo.sold Demo.reservation false
    ReachableDb Engine.Demo.env a.start ∧
      (verifyFinancials (a.reads Engine.Demo.env) 1).ok = false ∧
      (verifyFinancials (a.reads Engine.Demo.env) 1).summaryMismatches =
        [⟨2, .payable, 60, 0⟩, ⟨2, .processing, 0, 60⟩,
          ⟨3, .payable, 40, 0⟩, ⟨3, .processing, 0, 40⟩] ∧
      ¬a.ReportsReal Engine.Demo.env 1 := by
  intro a
  have hreach := Demo.audit_reachable Engine.Demo.sold Demo.reservation false
  have hok : (verifyFinancials (a.reads Engine.Demo.env) 1).ok = false := by decide +kernel
  refine ⟨hreach, hok, by decide +kernel, fun hreal => ?_⟩
  rw [Audit.reportsReal_iff_ok hreach, hok] at hreal
  cases hreal

/-- An audit during which a draft is written. -/
theorem audit_right_iff_draft :
    let a := Demo.audit Engine.Demo.sold Demo.drafting true
    (a.ReportsReal Engine.Demo.env 1 ↔ a.BalancesHeld Engine.Demo.env 1) ∧
      ((verifyFinancials (a.reads Engine.Demo.env) 1).ok = true ↔
        a.BalancesHeld Engine.Demo.env 1) ∧
        ∀ db, (verifyFinancials (.at db) 1).ok = true ↔ Balanced db 1 :=
  audit_right_iff (Demo.audit_reachable Engine.Demo.sold Demo.drafting true) 1

end Refearn.Reports
