import Refearn.Engine.Proofs.Members
import Refearn.Sales.Entry
/-!
# The currency of sales

What is about to be inserted carries the currency of its tenant, whatever happens in
between; the engine rewrites sales and never their currency. Only the default of the column
is nobody's currency in particular.
-/

namespace Refearn.Sales

open Support Support.Transaction Engine

/-! ## What the engine leaves alone -/

/-- The sales are those of before, rewritten but for id, tenant and currency. -/
structure CurrenciesKept (db db' : Db) : Prop where
  registry : db'.registry = db.registry
  sales : ∀ sale' ∈ db'.sales, ∃ sale ∈ db.sales, sale'.id = sale.id ∧
    sale'.tenantId = sale.tenantId ∧ sale'.currency = sale.currency

theorem CurrenciesKept.refl (db : Db) : CurrenciesKept db db :=
  ⟨rfl, fun sale hsale => ⟨sale, hsale, rfl, rfl, rfl⟩⟩

theorem CurrenciesKept.trans {db₁ db₂ db₃ : Db} (h : CurrenciesKept db₁ db₂)
    (h' : CurrenciesKept db₂ db₃) : CurrenciesKept db₁ db₃ where
  registry := h'.registry.trans h.registry
  sales sale'' hsale'' := by
    obtain ⟨sale', hsale', hid', htenant', hcurrency'⟩ := h'.sales sale'' hsale''
    obtain ⟨sale, hsale, hid, htenant, hcurrency⟩ := h.sales sale' hsale'
    exact ⟨sale, hsale, hid'.trans hid, htenant'.trans htenant, hcurrency'.trans hcurrency⟩

theorem CurrenciesKept.of_eq {db db' : Db} (hregistry : db'.registry = db.registry)
    (hsales : db'.sales = db.sales) : CurrenciesKept db db' :=
  ⟨hregistry, fun sale hsale => ⟨sale, hsales ▸ hsale, rfl, rfl, rfl⟩⟩

theorem CurrenciesKept.of_map {db db' : Db} {f : Sale → Sale}
    (hregistry : db'.registry = db.registry) (hsales : db'.sales.rows = db.sales.rows.map f)
    (hf : ∀ sale, (f sale).id = sale.id ∧ (f sale).tenantId = sale.tenantId ∧
      (f sale).currency = sale.currency) :
    CurrenciesKept db db' where
  registry := hregistry
  sales sale' hsale' := by
    rw [Table.mem_def, hsales] at hsale'
    obtain ⟨sale, hsale, rfl⟩ := List.mem_map.mp hsale'
    exact ⟨sale, hsale, hf sale⟩

theorem CurrenciesKept.of_distributed {env : Env} {now : Instant} {db db' : Db} {sale : Sale}
    {i : Inputs sale db.registry} {credits : List Credit}
    (h : Distributed env now i credits db db') : CurrenciesKept db db' :=
  .of_map h.registry h.sales fun x => by
    unfold Inputs.stamp
    split_ifs
    · exact ⟨rfl, rfl, rfl⟩
    · exact ⟨rfl, rfl, rfl⟩

theorem CurrenciesKept.of_applied {env : Env} {now : Instant} {sale : Sale} {s s' : Session}
    {result : ApplyResult}
    (hc : Commits (applyCommissionsInTx env now sale) s result s') :
    CurrenciesKept s.db s'.db := by
  rcases commits_applyCommissionsInTx hc with rfl | ⟨-, -, i, credits, h⟩
  · exact .refl _
  · exact .of_distributed h

theorem CurrenciesKept.of_onlyPayouts {db db' : Db} (h : OnlyPayouts db db') :
    CurrenciesKept db db' := .of_eq h.registry h.sales

theorem CurrenciesKept.of_batchReserved {params : ReserveParams} {now : Instant}
    {selection : Selection} {batchId : Uuid} {processing : List ProcessingPayout} {db db' : Db}
    (h : BatchReserved params now selection batchId processing db db') :
    CurrenciesKept db db' := by
  obtain ⟨mid, mid', hmembers, hregistry, hsales, -, -, -, -, hregistry', hsales', -⟩ :=
    h.members
  obtain ⟨hmidRegistry, hmidSales, -, -⟩ := hmembers.kept
  exact .of_eq (hregistry'.trans (hmidRegistry.trans hregistry))
    (hsales'.trans (hmidSales.trans hsales))

/-- Every transaction of the engine but the writing of the registry and of drafts. -/
theorem CurrenciesKept.of_commits {env : Env} {action : Engine.Action} {s s' : Session}
    {u : PUnit} (hc : Commits (transaction env action) s u s')
    (hregistry : ∀ registry, action ≠ .configure registry)
    (hdraft : ∀ input, action ≠ .createDraftSale input) : CurrenciesKept s.db s'.db := by
  cases action with
  | configure registry => exact absurd rfl (hregistry registry)
  | createDraftSale input => exact absurd rfl (hdraft input)
  | removeSale tenantId actorUserId saleId =>
      obtain ⟨draft, -, -, logs, hdb⟩ := commits_remove hc
      rw [hdb]
      exact ⟨rfl, fun sale hsale => ⟨sale, (Table.mem_filter.mp hsale).1, rfl, rfl, rfl⟩⟩
  | approveSale now saleId actorUserId expected =>
      obtain ⟨_, hc⟩ := (commits_discard ..).mp hc
      obtain ⟨sale, -, rfl, -, ⟨-, happly⟩ | ⟨-, t, hmarked, happly⟩⟩ :=
        commits_approveSaleInTx hc
      · exact .of_applied happly
      · have hmid : CurrenciesKept s.db t.db := .of_map hmarked.registry hmarked.sales fun x => by
          split_ifs
          · exact ⟨rfl, rfl, rfl⟩
          · exact ⟨rfl, rfl, rfl⟩
        exact hmid.trans (.of_applied happly)
  | applyCommissions now saleId =>
      obtain ⟨_, hc⟩ := (commits_discard ..).mp hc
      obtain ⟨sale, -, rfl, happly⟩ := commits_applyCommissions hc
      exact .of_applied happly
  | voidSale now saleId actorUserId expected =>
      obtain ⟨_, hc⟩ := (commits_discard ..).mp hc
      obtain ⟨sale, -, rfl, ⟨-, rfl, -⟩ | ⟨-, -, -, month, -, h⟩⟩ := commits_voidSaleInTx hc
      · exact .refl _
      · exact .of_map h.registry h.sales fun x => by
          split_ifs
          · exact ⟨rfl, rfl, rfl⟩
          · exact ⟨rfl, rfl, rfl⟩
  | markDelivered saleId deliveredAt =>
      obtain ⟨_, hc⟩ := (commits_discard ..).mp hc
      obtain ⟨sale, -, rfl, -, rfl | ⟨-, maturesAt, h⟩⟩ := commits_markDelivered hc
      · exact .refl _
      · exact .of_map h.registry h.sales fun x => by
          split_ifs
          · exact ⟨rfl, rfl, rfl⟩
          · exact ⟨rfl, rfl, rfl⟩
  | matureCommissions now limit lockedRows =>
      obtain ⟨_, hc⟩ := (commits_discard ..).mp hc
      have h := (commits_matureCommissions hc).2
      exact .of_eq h.registry h.sales
  | awardBonus now params =>
      obtain ⟨_, hc⟩ := (commits_discard ..).mp hc
      have h := commits_awardBonus hc
      exact .of_eq h.registry h.sales
  | reservePayoutBatch now params =>
      obtain ⟨_, hc⟩ := (commits_discard ..).mp hc
      obtain ⟨selection, -, ⟨rfl, -, -⟩ | ⟨-, -, batchId, processing, h, -⟩⟩ :=
        commits_reservePayoutBatch hc
      · exact .refl _
      · exact .of_batchReserved h
  | dispatchPayoutBatch now params =>
      obtain ⟨_, hc⟩ := (commits_discard ..).mp hc
      obtain ⟨b, -, -, -, ⟨rfl, -⟩ | h⟩ := commits_dispatchPayoutBatch hc
      · exact .refl _
      · exact .of_eq h.registry h.sales
  | settlePayoutBatch now params =>
      obtain ⟨_, hc⟩ := (commits_discard ..).mp hc
      obtain ⟨b, -, -, -, ⟨rfl, -⟩ | ⟨-, h⟩⟩ := commits_settlePayoutBatch hc
      · exact .refl _
      · exact .of_eq h.registry h.sales
  | failPayoutBatch now params =>
      obtain ⟨_, hc⟩ := (commits_discard ..).mp hc
      obtain ⟨b, -, -, -, ⟨rfl, -, -⟩ | ⟨-, -, h⟩⟩ := commits_failPayoutBatch hc
      · exact .refl _
      · exact .of_eq h.registry h.sales
  | rejectPayoutRequest now params =>
      obtain ⟨_, hc⟩ := (commits_discard ..).mp hc
      obtain ⟨p, -, -, -, -, h⟩ := commits_rejectPayoutRequest hc
      exact .of_onlyPayouts h
  | requestPayout now membershipId tenantId =>
      obtain ⟨_, hc⟩ := (commits_discard ..).mp hc
      rcases commits_requestPayoutWithMeta hc with ⟨rfl, -⟩ | ⟨tenant, id, -, -, h⟩
      · exact .refl _
      · exact .of_onlyPayouts h

/-! ## The invariant -/

/-- Everything that carries a currency carries that of its tenant. -/
structure CurrencySound (currencyOf : Uuid → String) (w : SalesWorld) : Prop where
  tenants : ∀ t ∈ w.db.registry.tenants, t.currency = currencyOf t.id
  sales : ∀ sale ∈ w.db.sales, sale.currency = currencyOf sale.tenantId
  imports : ∀ i ∈ w.imports, i.currency = currencyOf i.actor.tenantId
  drafts : ∀ d ∈ w.drafts, d.currency = currencyOf d.tenantId

/-- Nothing is entered yet. -/
structure SalesWorld.Start (currencyOf : Uuid → String) (w : SalesWorld) : Prop where
  tenants : ∀ t ∈ w.db.registry.tenants, t.currency = currencyOf t.id
  sales : w.db.sales.rows = []
  imports : w.imports = []
  drafts : w.drafts = []

/-- A tenant gets its currency when it is created and keeps it. -/
def SalesStep.FixedCurrencies (currencyOf : Uuid → String) (step : SalesStep) : Prop :=
  ∀ registry, step.action = .engine (.configure registry) →
    ∀ t ∈ registry.tenants, t.currency = currencyOf t.id

/-- A member who enters a sale, and is there to do so, does it in a business whose currency
is the default of the column. -/
def SalesStep.SelfCreateInDefault (step : SalesStep) (w : SalesWorld) : Prop :=
  ∀ now actor membershipId input, step.action = .selfCreate now actor membershipId input →
    ∀ seller, resolveSeller w.db.registry actor.tenantId (.sellerMembershipId membershipId) =
      some seller → seller.status = .active →
        ∀ t ∈ w.db.registry.tenants, t.id = actor.tenantId →
          t.currency = SALE_CURRENCY_DEFAULT

variable {env : Env} {currencyOf : Uuid → String} {w : SalesWorld}

theorem SalesWorld.Start.sound (h : w.Start currencyOf) : CurrencySound currencyOf w where
  tenants := h.tenants
  sales sale hsale := by
    rw [Table.mem_def, h.sales] at hsale
    exact absurd hsale List.not_mem_nil
  imports i hi := by
    rw [h.imports] at hi
    exact absurd hi List.not_mem_nil
  drafts d hd := by
    rw [h.drafts] at hd
    exact absurd hd List.not_mem_nil

theorem CurrencySound.of_kept {db : Db} (h : CurrencySound currencyOf w)
    (hkept : CurrenciesKept w.db db) : CurrencySound currencyOf { w with db := db } where
  tenants t ht := h.tenants t (hkept.registry ▸ ht)
  sales sale hsale := by
    obtain ⟨old, hold, -, htenant, hcurrency⟩ := hkept.sales sale hsale
    rw [hcurrency, htenant]
    exact h.sales old hold
  imports := h.imports
  drafts := h.drafts

/-- One more sale. -/
theorem CurrencySound.insert {sales : Table Sale} {sale : Sale} (h : CurrencySound currencyOf w)
    (hrows : sales.rows = w.db.sales.rows ++ [sale])
    (hsale : sale.currency = currencyOf sale.tenantId) :
    ∀ sale' ∈ sales, sale'.currency = currencyOf sale'.tenantId := by
  intro sale' hmem
  rw [Table.mem_def, hrows] at hmem
  rcases List.mem_append.mp hmem with hold | hnew
  · exact h.sales sale' hold
  · rw [List.mem_singleton.mp hnew]
    exact hsale

theorem prepareSale_currency {db : Db} {now : Instant} {actor : ActorContext}
    {input : CreateSaleInput} {draft : DraftInput}
    (h : prepareSale db now actor input = some draft) :
    ∃ tenant ∈ db.registry.tenants, tenant.id = draft.tenantId ∧
      draft.currency = tenant.currency := by
  unfold prepareSale at h
  simp only at h
  split_ifs at h with hexists
  simp only [Option.bind_eq_bind, Option.bind_eq_some_iff, Option.pure_def,
    Option.some.injEq] at h
  obtain ⟨seller, -, -, -, tenant, htenant, rfl⟩ := h
  obtain ⟨hmem, hid⟩ := Table.find?_eq_some.mp htenant
  exact ⟨tenant, hmem, hid, rfl⟩

theorem commits_selfCreate {now : Instant} {actor : ActorContext} {membershipId id : Uuid}
    {input : SelfCreateSaleInput} {s s' : Session}
    (hc : Commits (selfCreate now actor membershipId input) s id s') :
    ∃ seller, resolveSeller s.db.registry actor.tenantId (.sellerMembershipId membershipId) =
        some seller ∧ seller.status = .active ∧
      (∃ tenant ∈ s.db.registry.tenants, tenant.id = actor.tenantId) ∧
      ∃ sales logs sale, sales.rows = s.db.sales.rows ++ [sale] ∧
        sale.tenantId = actor.tenantId ∧ sale.currency = SALE_CURRENCY_DEFAULT ∧
        s'.db = { s.db with sales := sales, auditLogs := logs } := by
  unfold selfCreate at hc
  simp only [commits_bind, commits_readDb, commits_orThrow, commits_require,
    commits_genRandomUuid, commits_writeDb, commits_audit, commits_pure] at hc
  obtain ⟨_, _, ⟨rfl, rfl⟩, seller, _, ⟨hseller, rfl⟩, _, _, ⟨hactive, rfl⟩, _, _, ⟨rfl, rfl⟩,
    _, _, ⟨htenant, rfl⟩, _, _, ⟨-, rfl⟩, sales, _, ⟨hins, rfl⟩, _, _, rfl, _, _, rfl, -, rfl⟩ := hc
  obtain ⟨tenant, hfind⟩ := Option.isSome_iff_exists.mp htenant
  exact ⟨seller, hseller, hactive, ⟨tenant, Table.find?_eq_some.mp hfind⟩, sales, _, _,
    (Table.insert?_eq_some.mp hins).2, rfl, rfl, rfl⟩

/-- What `execute` leaves: the database as it was or the one a commit leaves. -/
theorem execute_cases {α : Type} (m : Tx α) (db : Db) (uuids : Nat → Uuid) :
    execute m db uuids = db ∨
      ∃ a s', Commits m ⟨db, uuids⟩ a s' ∧ execute m db uuids = s'.db := by
  rcases commit_cases m ⟨db, uuids⟩ with h | ⟨a, h⟩
  · exact .inl (by unfold execute; rw [h])
  · exact .inr ⟨a, _, h, rfl⟩

theorem CurrencySound.createDraftSale {draft : DraftInput} (h : CurrencySound currencyOf w)
    (uuids : Nat → Uuid) (hdraft : draft.currency = currencyOf draft.tenantId) :
    CurrencySound currencyOf
      { w with db := execute (Sales.createDraftSale draft) w.db uuids } := by
  rcases execute_cases (Sales.createDraftSale draft) w.db uuids with heq | ⟨id, s', hc, heq⟩
  · rw [heq]
    exact h
  · obtain ⟨sales, hrows, hdb⟩ := commits_createDraftSale hc
    rw [heq, hdb]
    exact ⟨h.tenants, h.insert hrows hdraft, h.imports, h.drafts⟩

theorem CurrencySound.selfCreate {now : Instant} {actor : ActorContext} {membershipId : Uuid}
    {input : SelfCreateSaleInput} {uuids : Nat → Uuid} (h : CurrencySound currencyOf w)
    (hdefault : SalesStep.SelfCreateInDefault
      ⟨.selfCreate now actor membershipId input, uuids⟩ w) :
    CurrencySound currencyOf
      { w with db := execute (Sales.selfCreate now actor membershipId input) w.db uuids } := by
  rcases execute_cases (Sales.selfCreate now actor membershipId input) w.db uuids with
    heq | ⟨id, s', hc, heq⟩
  · rw [heq]
    exact h
  · obtain ⟨seller, hseller, hactive, ⟨tenant, htenant, hid⟩, sales, logs, sale, hrows,
      hsaleTenant, hcurrency, hdb⟩ := commits_selfCreate hc
    have husd := hdefault now actor membershipId input rfl seller hseller hactive tenant htenant hid
    have hsale : sale.currency = currencyOf sale.tenantId := by
      rw [hcurrency, hsaleTenant, ← husd, ← hid]
      exact h.tenants tenant htenant
    rw [heq, hdb]
    exact ⟨h.tenants, h.insert hrows hsale, h.imports, h.drafts⟩

theorem CurrencySound.engine {action : Engine.Action} {uuids : Nat → Uuid}
    (h : CurrencySound currencyOf w) (env : Env)
    (hfixed : SalesStep.FixedCurrencies currencyOf ⟨.engine action, uuids⟩)
    (hdraft : ∀ input, action ≠ .createDraftSale input) :
    CurrencySound currencyOf { w with db := Engine.Step.apply env ⟨action, uuids⟩ w.db } := by
  rcases Engine.Step.apply_cases env ⟨action, uuids⟩ w.db with heq | ⟨s', hc, heq⟩
  · rw [heq]
    exact h
  · rw [heq]
    by_cases hconfigure : ∃ registry, action = .configure registry
    · obtain ⟨registry, rfl⟩ := hconfigure
      simp only [transaction, commits_bind, commits_readDb, commits_require,
        commits_writeDb] at hc
      obtain ⟨_, _, ⟨rfl, rfl⟩, _, _, ⟨-, rfl⟩, rfl⟩ := hc
      exact ⟨hfixed registry rfl, h.sales, h.imports, h.drafts⟩
    · exact h.of_kept (.of_commits hc (fun registry heq => hconfigure ⟨registry, heq⟩) hdraft)

/-- One step keeps the currencies in order. -/
theorem CurrencySound.step {step : SalesStep} (hfixed : step.FixedCurrencies currencyOf)
    (hdefault : step.SelfCreateInDefault w) (h : CurrencySound currencyOf w) :
    CurrencySound currencyOf (step.apply env w) := by
  obtain ⟨action, uuids⟩ := step
  cases action with
  | create now actor input =>
      simp only [SalesStep.apply]
      cases hprepare : prepareSale w.db now actor input with
      | none => exact h
      | some draft =>
          obtain ⟨tenant, htenant, hid, hcurrency⟩ := prepareSale_currency hprepare
          refine ⟨h.tenants, h.sales, h.imports, fun d hd => ?_⟩
          rcases List.mem_append.mp hd with hold | hnew
          · exact h.drafts d hold
          · rw [List.mem_singleton.mp hnew, hcurrency, ← hid]
            exact h.tenants tenant htenant
  | importCsv actor =>
      simp only [SalesStep.apply]
      cases hfind : w.db.registry.tenants.find? actor.tenantId with
      | none => exact h
      | some tenant =>
          obtain ⟨htenant, hid⟩ := Table.find?_eq_some.mp hfind
          refine ⟨h.tenants, h.sales, fun i hi => ?_, h.drafts⟩
          rcases List.mem_append.mp hi with hold | hnew
          · exact h.imports i hold
          · have hcurrency : tenant.currency = currencyOf actor.tenantId := by
              rw [h.tenants tenant htenant]
              exact congrArg currencyOf hid
            rw [List.mem_singleton.mp hnew]
            exact hcurrency
  | importLine index line =>
      simp only [SalesStep.apply]
      cases hget : w.imports[index]? with
      | none => exact h
      | some i =>
          refine ⟨h.tenants, h.sales, h.imports, fun d hd => ?_⟩
          rcases List.mem_append.mp hd with hold | hnew
          · exact h.drafts d hold
          · rw [List.mem_singleton.mp hnew]
            exact h.imports i (List.mem_of_getElem? hget)
  | createDraftSale index =>
      simp only [SalesStep.apply]
      cases hget : w.drafts[index]? with
      | none => exact h
      | some draft =>
          have hdraft := h.drafts draft (List.mem_of_getElem? hget)
          have hinserted := h.createDraftSale uuids hdraft
          exact ⟨hinserted.tenants, hinserted.sales, hinserted.imports,
            fun d hd => h.drafts d (List.mem_of_mem_eraseIdx hd)⟩
  | selfCreate now actor membershipId input => exact h.selfCreate hdefault
  | engine action =>
      by_cases hdraft : ∃ input, action = .createDraftSale input
      · obtain ⟨input, rfl⟩ := hdraft
        exact h
      · have hengine := h.engine env hfixed fun input heq => hdraft ⟨input, heq⟩
        cases action with
        | createDraftSale input => exact absurd ⟨input, rfl⟩ hdraft
        | _ => exact hengine

/-! ## Runs -/

/-- Two sales of one business have one currency, so their amounts may be added. -/
def NeverMixed (db : Db) : Prop :=
  ∀ sale ∈ db.sales, ∀ other ∈ db.sales, sale.tenantId = other.tenantId →
    sale.currency = other.currency

theorem CurrencySound.inTenantCurrency (h : CurrencySound currencyOf w) :
    InTenantCurrency w.db ∧ NeverMixed w.db := by
  constructor
  · intro sale hsale tenant htenant hid
    rw [h.sales sale hsale, h.tenants tenant htenant, hid]
  · intro sale hsale other hother htenant
    rw [h.sales sale hsale, h.sales other hother, htenant]

/-- In every run in which members enter their own sales only in businesses whose currency is
the default of the column, every sale is in the currency of its business. -/
theorem inTenantCurrency_run (env : Env) (currencyOf : Uuid → String) (w : SalesWorld)
    (hstart : w.Start currencyOf) (steps : List SalesStep)
    (hfixed : ∀ step ∈ steps, step.FixedCurrencies currencyOf)
    (hdefault : Throughout (SalesStep.apply env) SalesStep.SelfCreateInDefault steps w) :
    InTenantCurrency (run (SalesStep.apply env) steps w).db ∧
      NeverMixed (run (SalesStep.apply env) steps w).db := by
  have hsound : ∀ (steps : List SalesStep) (w : SalesWorld),
      (∀ step ∈ steps, step.FixedCurrencies currencyOf) →
      Throughout (SalesStep.apply env) SalesStep.SelfCreateInDefault steps w →
      CurrencySound currencyOf w →
      CurrencySound currencyOf (run (SalesStep.apply env) steps w) := by
    intro steps
    induction steps with
    | nil => exact fun _ _ _ h => h
    | cons step steps ih =>
        intro w hfixed hdefault h
        have hstep : CurrencySound currencyOf (step.apply env w) :=
          h.step (hfixed step (List.mem_cons_self ..)) hdefault.1
        exact ih _ (fun other hother => hfixed other (List.mem_cons_of_mem _ hother))
          hdefault.2 hstep
  exact (hsound steps w hfixed hdefault hstart.sound).inTenantCurrency

/-- Where every business has the default currency nothing is asked of a run. -/
theorem throughout_default (env : Env) {steps : List SalesStep} {w : SalesWorld}
    (hfixed : ∀ step ∈ steps, step.FixedCurrencies fun _ => SALE_CURRENCY_DEFAULT)
    (h : CurrencySound (fun _ => SALE_CURRENCY_DEFAULT) w) :
    Throughout (SalesStep.apply env) SalesStep.SelfCreateInDefault steps w := by
  induction steps generalizing w with
  | nil => trivial
  | cons step steps ih =>
      have hdefault : step.SelfCreateInDefault w :=
        fun _ _ _ _ _ _ _ _ tenant htenant _ => h.tenants tenant htenant
      have hstep : CurrencySound (fun _ => SALE_CURRENCY_DEFAULT) (step.apply env w) :=
        h.step (hfixed step (List.mem_cons_self ..)) hdefault
      exact ⟨hdefault, ih (fun other hother => hfixed other (List.mem_cons_of_mem _ hother)) hstep⟩

namespace EntryDemo

/-- The business of the engine's example with another currency. -/
def registryIn (currency : String) : Registry :=
  { Engine.Demo.registry with
    tenants := ⟨[{ Engine.Demo.tenant with currency := currency }], by simp, by simp⟩ }

def worldIn (currency : String) : SalesWorld :=
  ⟨{ Engine.Demo.empty with registry := registryIn currency }, [], []⟩

def staff : ActorContext := ⟨11, 1⟩

def member : ActorContext := ⟨10, 1⟩

/-- Ten dollars, or whatever a hundred cents are called. -/
def ownSale : SalesStep :=
  ⟨.selfCreate 0 member 2 ⟨1000, none, none⟩, Engine.Demo.uuidsFrom 100⟩

/-- A sale of the staff, entered and inserted. -/
def entered : List SalesStep :=
  [⟨.create 0 staff ⟨.sellerReferralCode "SELLER", 1000, none, none, some " R1 "⟩,
      Engine.Demo.uuidsFrom 200⟩,
    ⟨.createDraftSale 0, Engine.Demo.uuidsFrom 300⟩]

theorem start (currency : String) : (worldIn currency).Start fun _ => currency where
  tenants t ht := by
    rw [List.mem_singleton.mp ht]
  sales := rfl
  imports := rfl
  drafts := rfl

/-- The currencies of the sales after a run. -/
def currenciesAfter (steps : List SalesStep) (currency : String) : List (Uuid × String) :=
  (run (SalesStep.apply Engine.Demo.env) steps (worldIn currency)).db.sales.rows.map fun sale =>
    (sale.tenantId, sale.currency)

/-- The currencies of the businesses after a run. -/
def tenantsAfter (steps : List SalesStep) (currency : String) : List (Uuid × String) :=
  (run (SalesStep.apply Engine.Demo.env) steps
    (worldIn currency)).db.registry.tenants.rows.map fun tenant => (tenant.id, tenant.currency)

theorem currenciesAfter_ownSale : currenciesAfter [ownSale] "EUR" = [(1, "USD")] := by
  decide

theorem tenantsAfter_ownSale : tenantsAfter [ownSale] "EUR" = [(1, "EUR")] := by
  decide

end EntryDemo

/-- A member of a business in euros enters a sale: it is in dollars. -/
theorem not_inTenantCurrency_run :
    ¬ ∀ (env : Env) (currencyOf : Uuid → String) (w : SalesWorld), w.Start currencyOf →
      ∀ steps : List SalesStep, (∀ step ∈ steps, step.FixedCurrencies currencyOf) →
        InTenantCurrency (run (SalesStep.apply env) steps w).db ∧
          NeverMixed (run (SalesStep.apply env) steps w).db := by
  intro h
  have hfixed : ∀ step ∈ [EntryDemo.ownSale], step.FixedCurrencies fun _ => "EUR" := by
    intro step hstep registry haction
    rw [List.mem_singleton.mp hstep] at haction
    cases haction
  have hrun := (h Engine.Demo.env _ (EntryDemo.worldIn "EUR") (EntryDemo.start "EUR")
    [EntryDemo.ownSale] hfixed).1
  have hsale : ((1, "USD") : Uuid × String) ∈
      EntryDemo.currenciesAfter [EntryDemo.ownSale] "EUR" := by
    rw [EntryDemo.currenciesAfter_ownSale]
    exact List.mem_singleton_self _
  have htenant : ((1, "EUR") : Uuid × String) ∈
      EntryDemo.tenantsAfter [EntryDemo.ownSale] "EUR" := by
    rw [EntryDemo.tenantsAfter_ownSale]
    exact List.mem_singleton_self _
  obtain ⟨sale, hmem, hsale⟩ := List.mem_map.mp hsale
  obtain ⟨tenant, hmem', htenant⟩ := List.mem_map.mp htenant
  have hid : tenant.id = sale.tenantId :=
    (congrArg Prod.fst htenant).trans (congrArg Prod.fst hsale).symm
  have hcurrency := hrun sale hmem tenant hmem' hid
  rw [show sale.currency = "USD" from congrArg Prod.snd hsale,
    show tenant.currency = "EUR" from congrArg Prod.snd htenant] at hcurrency
  exact absurd hcurrency (by decide)

/-- In a business in dollars staff and a member enter sales. -/
theorem inTenantCurrency_run_dollars :
    InTenantCurrency (run (SalesStep.apply Engine.Demo.env)
      (EntryDemo.entered ++ [EntryDemo.ownSale]) (EntryDemo.worldIn "USD")).db := by
  have hfixed : ∀ step ∈ EntryDemo.entered ++ [EntryDemo.ownSale],
      step.FixedCurrencies fun _ => SALE_CURRENCY_DEFAULT := by
    intro step hstep registry haction
    simp only [EntryDemo.entered, List.cons_append, List.nil_append, List.mem_cons,
      List.not_mem_nil, or_false] at hstep
    rcases hstep with rfl | rfl | rfl <;> cases haction
  have hstart : (EntryDemo.worldIn "USD").Start fun _ => SALE_CURRENCY_DEFAULT :=
    EntryDemo.start "USD"
  exact (inTenantCurrency_run Engine.Demo.env _ _ hstart _ hfixed
    (throughout_default Engine.Demo.env hfixed hstart.sound)).1

end Refearn.Sales
