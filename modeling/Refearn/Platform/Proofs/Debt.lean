import Refearn.Platform.Platform
import Refearn.Engine.Proofs.Totals
import Refearn.Engine.Proofs.Members
import Refearn.Memberships.Proofs.Uplines
import Refearn.Wallet.Proofs.Eligibility
/-!
# What a business owes, on every screen

Wallets, dashboard, overview, company page and summaries each compute the payable debt of a
business by a query of their own. The rows are the same: each belongs to a member of the
business, the summaries follow them, and a row with a sale has the currency of its sale.
-/

namespace Refearn.Platform

open Support Engine Reports Wallet

/-! ## Sums over the ledger of a business -/

theorem statusBucket_eq_some {status : LedgerStatus} {b : Bucket} (st : LedgerStatus)
    (h : statusBucket st = some b) : statusBucket status = some b ↔ status = st := by
  cases st <;> cases h <;> cases status <;> simp [statusBucket]

theorem ledgerSum_eq_ledgerTotal (db : Db) (tenantId : Uuid) :
    ledgerSum db tenantId .payable = ledgerTotal db (fun t _ => t = tenantId) .payable := by
  unfold ledgerSum ledgerTotal
  congr 2
  refine List.filter_congr fun r _ => ?_
  rw [Bool.decide_and]
  congr 1
  exact decide_eq_decide.mpr (statusBucket_eq_some .payable rfl).symm

/-- The summaries of a business hold what its ledger does. -/
theorem summaries_eq_ledgerSum {db : Db} (h : Good db) (tenantId : Uuid) :
    summaryTotal db (fun t _ => t = tenantId) .payable = ledgerSum db tenantId .payable := by
  rw [ledgerSum_eq_ledgerTotal]
  exact h.summaryTotal_eq _ _

/-! ## Wallets -/

/-- The payable rows of a business. -/
def payableEntries (db : Db) (tenantId : Uuid) : List LedgerEntry :=
  db.ledger.rows.filter fun r => r.tenantId = tenantId ∧ r.status = .payable

theorem bucketCents_eq_posted (db : Db) (tenantId membershipId : Uuid) :
    bucketCents db tenantId membershipId .payable =
      posted LedgerEntry.beneficiaryMembershipId LedgerEntry.amountCents
        (payableEntries db tenantId) membershipId := by
  have hsum := sum_map_ite (payableEntries db tenantId)
    (fun r => decide (r.beneficiaryMembershipId = membershipId)) LedgerEntry.amountCents
  simp only [decide_eq_true_eq] at hsum
  rw [posted, hsum, payableEntries, List.filter_filter]
  unfold bucketCents
  congr 2
  refine List.filter_congr fun r _ => ?_
  rw [← Bool.decide_and]
  exact decide_eq_decide.mpr and_left_comm

/-- What the members of a business may be paid is what it owes. -/
theorem sum_bucketCents {db : Db} (h : Staffed db) (tenantId : Uuid) :
    ((membersOf db tenantId).map (fun m => bucketCents db tenantId m.id .payable)).sum =
      ledgerSum db tenantId .payable := by
  have hids : (membersOf db tenantId).map (fun m => bucketCents db tenantId m.id .payable) =
      ((membersOf db tenantId).map Membership.id).map
        (posted LedgerEntry.beneficiaryMembershipId LedgerEntry.amountCents
          (payableEntries db tenantId)) := by
    rw [List.map_map]
    exact List.map_congr_left fun m _ => bucketCents_eq_posted db tenantId m.id
  have hnodup : ((membersOf db tenantId).map Membership.id).Nodup :=
    (List.filter_sublist.map _).nodup db.registry.memberships.keys_nodup
  rw [hids, sum_posted _ _ hnodup, ledgerSum]
  refine congrArg List.sum (List.map_congr_left fun r hr => if_pos ?_)
  obtain ⟨hmem, hof⟩ := List.mem_filter.mp hr
  simp only [decide_eq_true_eq] at hof
  obtain ⟨m, hm, hid, htenant⟩ := h.rows r hmem
  rw [← hid]
  refine List.mem_map_of_mem (List.mem_filter.mpr ⟨hm, ?_⟩)
  rw [decide_eq_true_eq, htenant, hof.1]

/-- A wallet shows the payable bucket of the member. -/
theorem wallet_of_member (env : Env) {db : Db} {t : Tenant} (ht : t ∈ db.registry.tenants)
    {m : Membership} (hm : m ∈ membersOf db t.id)
    (huser : (db.registry.users.find? m.userId).isSome = true) (now : Instant)
    (q : WalletQuery) :
    ∃ view, wallet env db now m.id t.id q = .ok view ∧
      view.balance.payableCents = bucketCents db t.id m.id .payable := by
  obtain ⟨hmem, htenant⟩ := List.mem_filter.mp hm
  have hfind : tenantMembership db.registry t.id m.id = some m := by
    have hkey : db.registry.memberships.find? m.id = some m := Table.find?_key hmem
    unfold tenantMembership
    rw [hkey]
    exact Option.filter_eq_some_iff.mpr ⟨rfl, htenant⟩
  obtain ⟨user, huser⟩ := Option.isSome_iff_exists.mp huser
  exact ⟨_, wallet_of_rows (Table.find?_key ht) hfind huser, rfl⟩

theorem wallets_of_members (env : Env) {db : Db} {t : Tenant} (ht : t ∈ db.registry.tenants)
    {ms : List Membership} (hms : ms ⊆ membersOf db t.id)
    (husers : ∀ m ∈ db.registry.memberships, (db.registry.users.find? m.userId).isSome = true)
    (clock : Uuid → Instant) (q : WalletQuery) :
    ∃ views, ms.mapM (fun m => wallet env db (clock m.id) m.id t.id q) = .ok views ∧
      views.map (fun v => v.balance.payableCents) =
        ms.map fun m => bucketCents db t.id m.id .payable := by
  induction ms with
  | nil => exact ⟨[], rfl, rfl⟩
  | cons m ms ih =>
      have hm : m ∈ membersOf db t.id := hms List.mem_cons_self
      have huser := husers m (List.mem_filter.mp hm).1
      obtain ⟨view, hview, hcents⟩ := wallet_of_member env ht hm huser (clock m.id) q
      obtain ⟨views, hviews, hall⟩ := ih fun x hx => hms (List.mem_cons_of_mem _ hx)
      refine ⟨view :: views, ?_, by rw [List.map_cons, List.map_cons, hcents, hall]⟩
      rw [List.mapM_cons, hview, hviews]
      rfl

/-! ## The overview -/

theorem payable_addCompanies (env : Env) (p : PlatformDb) (clock : Uuid → Instant)
    (ts : List Tenant) (acc : Portfolio) :
    (ts.foldl (addCompany env p clock) acc).payable =
      acc.payable + (ts.map (fun t => ledgerSum p.db t.id .payable)).sum := by
  induction ts generalizing acc with
  | nil => simp
  | cons t ts ih =>
      rw [List.foldl_cons, ih, List.map_cons, List.sum_cons]
      change acc.payable + ledgerSum p.db t.id .payable + _ = _
      omega

theorem overview_payable (env : Env) (p : PlatformDb) (clock : Uuid → Instant)
    (now : Instant) :
    (overview env p clock now).totals.payableCents =
      ((activeTenants p).map (fun t => ledgerSum p.db t.id .payable)).sum := by
  change ((activeTenants p).foldl (addCompany env p clock) {}).payable = _
  rw [payable_addCompanies]
  change 0 + _ = _
  omega

/-! ## The page of a company -/

theorem payableOfSale_of_payable {db : Db} (h : SaleSound db) {tenantId : Uuid} {r : LedgerEntry}
    (hr : r ∈ db.ledger) (hof : r.tenantId = tenantId ∧ r.status = .payable)
    (hsale : r.saleId ≠ none) :
    ∃ currency, payableOfSale db tenantId r = some (currency, r.amountCents) := by
  obtain ⟨saleId, hsaleId⟩ := Option.ne_none_iff_exists'.mp hsale
  obtain ⟨sale, hmem, hid, -⟩ := (h r hr).ofSale saleId hsaleId
  have hfind : db.sales.find? saleId = some sale := hid ▸ Table.find?_key hmem
  refine ⟨sale.currency, ?_⟩
  unfold payableOfSale
  rw [if_pos hof, hsaleId, Option.bind_some, hfind]
  rfl

/-- Where every payable row has a sale, the join loses none. -/
theorem sum_payableOfSales {db : Db} (h : SaleSound db) (tenantId : Uuid)
    (hsales : ∀ r ∈ db.ledger, r.tenantId = tenantId → r.status = .payable → r.saleId ≠ none) :
    ((payableOfSales db tenantId).map Prod.snd).sum = ledgerSum db tenantId .payable := by
  have hrows : ∀ rows : List LedgerEntry, (∀ r ∈ rows, r ∈ db.ledger) →
      (rows.filterMap (payableOfSale db tenantId)).map Prod.snd =
        (rows.filter (fun r => r.tenantId = tenantId ∧ r.status = .payable)).map
          LedgerEntry.amountCents := by
    intro rows hin
    induction rows with
    | nil => rfl
    | cons r rows ih =>
        have hmem := hin r List.mem_cons_self
        have hrest := ih fun x hx => hin x (List.mem_cons_of_mem _ hx)
        by_cases hr : r.tenantId = tenantId ∧ r.status = .payable
        · obtain ⟨currency, heq⟩ :=
            payableOfSale_of_payable h hmem hr (hsales r hmem hr.1 hr.2)
          rw [List.filterMap_cons_some heq, List.map_cons, hrest,
            List.filter_cons_of_pos (by simpa using hr), List.map_cons]
        · have hnone : payableOfSale db tenantId r = none := if_neg hr
          rw [List.filterMap_cons_none hnone, hrest,
            List.filter_cons_of_neg (by simpa using hr)]
  rw [payableOfSales, hrows db.ledger.rows (fun r hr => hr), ledgerSum]

/-- The amounts of all currencies are the sum of what the join returns. -/
theorem sum_payableRows (db : Db) (tenantId : Uuid) :
    ((serializeOutstandingPayable (payableRows db tenantId)).map
      CurrencyAmount.outstandingPayableCents).sum =
        ((payableOfSales db tenantId).map Prod.snd).sum := by
  have hperm := (List.perm_insertionSort
    (fun a b : CurrencyAmount => a.currency ≤ b.currency) (payableRows db tenantId)).map
      CurrencyAmount.outstandingPayableCents
  rw [serializeOutstandingPayable, hperm.sum_eq, payableRows, List.map_map,
    ← sum_groupSums Prod.fst Prod.snd (payableOfSales db tenantId)]
  rfl

/-! ## The sponsors of a tree -/

/-- In a tree that the membership service has grown, sponsors are of the same business. -/
theorem sponsorsInside_of_tree {db : Memberships.TreeDb} (h : Memberships.TreeHolds db)
    (rest : Registry) : SponsorsInside (db.registry rest) := by
  intro m hm s hs hsponsor
  obtain ⟨row, hrow, rfl⟩ := List.mem_map.mp hm
  obtain ⟨srow, hsrow, rfl⟩ := List.mem_map.mp hs
  obtain ⟨p, hp, hid, htenant, -⟩ := h.under_sponsor row hrow srow.id hsponsor
  have heq : p = srow := Table.eq_of_key hp hsrow hid
  rw [heq] at htenant
  exact htenant.symm

/-! ## One number -/

/-- The screens agree that the business owes `cents`; the page of the company does if no
payable row is without a sale. -/
structure OneDebt (env : Env) (p : PlatformDb) (clock : Uuid → Instant) (now : Instant)
    (q : WalletQuery) (t : Tenant) (cents : Int) : Prop where
  wallets : ∃ views, (membersOf p.db t.id).mapM
      (fun m => wallet env p.db (clock m.id) m.id t.id q) = .ok views ∧
    (views.map fun v => v.balance.payableCents).sum = cents
  dashboard : ∀ month, ∃ view, dashboard env p.db now t.id month = some view ∧
    view.outstandingPayableCents = cents
  company : (∀ r ∈ p.db.ledger, r.tenantId = t.id → r.status = .payable → r.saleId ≠ none) →
    ∃ view, company env p now t.id = some view ∧
      (view.kpis.outstandingPayableByCurrency.map CurrencyAmount.outstandingPayableCents).sum =
        cents
  summaries : summaryTotal p.db (fun tenantId _ => tenantId = t.id) .payable = cents

theorem OneDebt.of_good {env : Env} {p : PlatformDb} (hgood : Good p.db)
    (hstaffed : Staffed p.db) (husers : ∀ m ∈ p.db.registry.memberships,
      (p.db.registry.users.find? m.userId).isSome = true) {t : Tenant}
    (ht : t ∈ p.db.registry.tenants) (clock : Uuid → Instant) (now : Instant)
    (q : WalletQuery) : OneDebt env p clock now q t (ledgerSum p.db t.id .payable) where
  wallets := by
    obtain ⟨views, hviews, hcents⟩ :=
      wallets_of_members env ht (List.Subset.refl _) husers clock q
    exact ⟨views, hviews, by rw [hcents, sum_bucketCents hstaffed]⟩
  dashboard month := by
    unfold Reports.dashboard
    rw [show p.db.registry.tenants.find? t.id = some t from Table.find?_key ht]
    exact ⟨_, rfl, rfl⟩
  company hsales := by
    unfold Platform.company
    rw [show p.db.registry.tenants.find? t.id = some t from Table.find?_key ht]
    refine ⟨_, rfl, ?_⟩
    rw [← sum_payableOfSales hgood.sound.sale t.id hsales]
    exact sum_payableRows p.db t.id
  summaries := summaries_eq_ledgerSum hgood t.id

/-- In every state that checked steps lead to, the screens agree on what each business owes,
and the overview adds this up over the active ones. -/
theorem screens_agree {env : Env} {start : Db} (hinit : Initial start) (hstaffed : Staffed start)
    {steps : List Step} (hchecked : Throughout (Step.apply env) Step.Checked steps start)
    {p : PlatformDb} (hdb : p.db = run (Step.apply env) steps start)
    (husers : ∀ m ∈ p.db.registry.memberships,
      (p.db.registry.users.find? m.userId).isSome = true)
    (clock : Uuid → Instant) (now : Instant) (q : WalletQuery) :
    ∃ debt : Uuid → Int,
      (∀ t ∈ p.db.registry.tenants, OneDebt env p clock now q t (debt t.id)) ∧
        (overview env p clock now).totals.payableCents =
          ((activeTenants p).map (fun t => debt t.id)).sum := by
  have hgood : Good p.db := by
    rw [hdb]
    exact reachable_good ((Reachable.start hinit).run steps)
  have hstaffed' : Staffed p.db := by
    rw [hdb]
    exact hstaffed.run (.of_initial hinit) hchecked
  exact ⟨fun tenantId => ledgerSum p.db tenantId .payable,
    fun t ht => .of_good hgood hstaffed' husers ht clock now q,
    overview_payable env p clock now⟩

namespace Demo

open Engine.Demo (env step sold after empty)

/-- A prize of 25 cents for the seller. -/
def prize : AwardBonusParams := ⟨1, 2, 25, "2026-01", "prize", none, []⟩

def awarded : List Step := sold ++ [step 300 (.awardBonus 0 prize)]

def columns (status : TenantStatus) : TenantColumns := ⟨"acme", "Acme", status, .null, 0⟩

def platform (db : Db) (status : TenantStatus) : PlatformDb :=
  ⟨db, fun _ => columns status, fun _ => "plan", [], [], .empty⟩

def query : WalletQuery := ⟨1, 20, none, none⟩

theorem empty_staffed : Staffed empty where
  sponsors := by decide
  sellers _ hsale := absurd hsale List.not_mem_nil
  rows _ hr := absurd hr List.not_mem_nil

theorem awarded_checked : Throughout (Step.apply env) Step.Checked awarded empty := by
  decide +kernel

/-- The company with a sale and a prize, in good standing and suspended. -/
def trading : PlatformDb := platform (after awarded) .active

def suspended : PlatformDb := platform (after awarded) .suspended

theorem platform_db (db : Db) (status : TenantStatus) : (platform db status).db = db := rfl

theorem trading_db : trading.db = run (Step.apply env) awarded empty := by
  have hafter : ∀ steps, after steps = run (Step.apply env) steps empty := fun _ => rfl
  exact (platform_db _ _).trans (hafter _)

theorem suspended_reachable : ReachableDb env suspended.db := by
  rw [suspended, platform_db]
  exact Engine.Demo.reachable awarded

theorem trading_users : ∀ m ∈ trading.db.registry.memberships.rows,
    (trading.db.registry.users.find? m.userId).isSome = true := by
  decide +kernel

end Demo

/-- A suspended company owes 125 cents, 25 of them a prize: the overview counts nothing and
the page of the company leaves the prize out. -/
theorem suspended_and_prize_missing :
    ReachableDb Engine.Demo.env Demo.suspended.db ∧
      (((membersOf Demo.suspended.db 1).mapM (fun m =>
          wallet Engine.Demo.env Demo.suspended.db 0 m.id 1 Demo.query)).toOption.map
            fun views => (views.map fun v => v.balance.payableCents).sum) = some 125 ∧
      (dashboard Engine.Demo.env Demo.suspended.db 0 1 none).map
        DashboardView.outstandingPayableCents = some 125 ∧
      summaryTotal Demo.suspended.db (fun tenantId _ => tenantId = 1) .payable = 125 ∧
      (overview Engine.Demo.env Demo.suspended (fun _ => 0) 0).totals.payableCents = 0 ∧
      (company Engine.Demo.env Demo.suspended 0 1).map (fun view =>
        (view.kpis.outstandingPayableByCurrency.map
          CurrencyAmount.outstandingPayableCents).sum) = some 100 :=
  ⟨Demo.suspended_reachable, by decide +kernel, by decide +kernel, by decide +kernel,
    by decide +kernel, by decide +kernel⟩

/-- A company in good standing with a sale and a prize. -/
theorem screens_agree_trading :
    ∃ debt : Uuid → Int,
      (∀ t ∈ Demo.trading.db.registry.tenants,
        OneDebt Engine.Demo.env Demo.trading (fun _ => 0) 0 Demo.query t (debt t.id)) ∧
          (overview Engine.Demo.env Demo.trading (fun _ => 0) 0).totals.payableCents =
            ((activeTenants Demo.trading).map (fun t => debt t.id)).sum :=
  screens_agree Engine.Demo.empty_initial Demo.empty_staffed Demo.awarded_checked
    Demo.trading_db Demo.trading_users (fun _ => 0) 0 Demo.query

end Refearn.Platform
