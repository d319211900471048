import Refearn.Engine.Proofs.Reachable
/-!
# Rows belong to members of their business

The engine itself never looks at the business of a membership. It pays the seller of a
sale, the members above it and the winners of a campaign; the callers have checked the
first and the last, and the membership service puts a member under a sponsor of its own
business. So in a run of checked steps every row belongs to a member of its business.
-/

namespace Refearn.Engine

open Support Support.Transaction Shared

/-! ## Members of a business -/

def IsMember (registry : Registry) (tenantId membershipId : Uuid) : Prop :=
  ∃ m ∈ registry.memberships, m.id = membershipId ∧ m.tenantId = tenantId

instance (registry : Registry) (tenantId membershipId : Uuid) :
    Decidable (IsMember registry tenantId membershipId) :=
  inferInstanceAs (Decidable
    (∃ m ∈ registry.memberships.rows, m.id = membershipId ∧ m.tenantId = tenantId))

/-- Every sponsor is a member of the business of those it has sponsored. -/
def SponsorsInside (registry : Registry) : Prop :=
  ∀ m ∈ registry.memberships, ∀ s ∈ registry.memberships,
    m.sponsorMembershipId = some s.id → s.tenantId = m.tenantId

instance (registry : Registry) : Decidable (SponsorsInside registry) :=
  inferInstanceAs (Decidable (∀ m ∈ registry.memberships.rows,
    ∀ s ∈ registry.memberships.rows, m.sponsorMembershipId = some s.id →
      s.tenantId = m.tenantId))

structure Staffed (db : Db) : Prop where
  sponsors : SponsorsInside db.registry
  sellers : ∀ sale ∈ db.sales, IsMember db.registry sale.tenantId sale.sellerMembershipId
  rows : ∀ r ∈ db.ledger, IsMember db.registry r.tenantId r.beneficiaryMembershipId

/-- What the services that call the engine have checked: `resolveSeller` of the sales
service, the standings of a campaign, the sponsor of a new member. Foreign keys keep the
memberships that sales and rows refer to, and nothing moves one to another business. -/
def Step.Checked (step : Step) (db : Db) : Prop :=
  match step.action with
  | .configure registry => SponsorsInside registry ∧
      (∀ sale ∈ db.sales, IsMember db.registry sale.tenantId sale.sellerMembershipId →
        IsMember registry sale.tenantId sale.sellerMembershipId) ∧
      ∀ r ∈ db.ledger, IsMember db.registry r.tenantId r.beneficiaryMembershipId →
        IsMember registry r.tenantId r.beneficiaryMembershipId
  | .createDraftSale input => IsMember db.registry input.tenantId input.sellerMembershipId
  | .awardBonus _ params => IsMember db.registry params.tenantId params.membershipId
  | _ => True

instance (step : Step) (db : Db) : Decidable (step.Checked db) :=
  match step with
  | ⟨.configure registry, _⟩ => inferInstanceAs (Decidable (SponsorsInside registry ∧
      (∀ sale ∈ db.sales.rows, IsMember db.registry sale.tenantId sale.sellerMembershipId →
        IsMember registry sale.tenantId sale.sellerMembershipId) ∧
      ∀ r ∈ db.ledger.rows, IsMember db.registry r.tenantId r.beneficiaryMembershipId →
        IsMember registry r.tenantId r.beneficiaryMembershipId))
  | ⟨.createDraftSale input, _⟩ =>
      inferInstanceAs (Decidable (IsMember db.registry input.tenantId input.sellerMembershipId))
  | ⟨.awardBonus _ params, _⟩ =>
      inferInstanceAs (Decidable (IsMember db.registry params.tenantId params.membershipId))
  | ⟨.removeSale .., _⟩ | ⟨.approveSale .., _⟩ | ⟨.applyCommissions .., _⟩
  | ⟨.voidSale .., _⟩ | ⟨.markDelivered .., _⟩ | ⟨.matureCommissions .., _⟩
  | ⟨.reservePayoutBatch .., _⟩ | ⟨.dispatchPayoutBatch .., _⟩ | ⟨.settlePayoutBatch .., _⟩
  | ⟨.failPayoutBatch .., _⟩ | ⟨.rejectPayoutRequest .., _⟩ | ⟨.requestPayout .., _⟩ =>
      .isTrue trivial

/-! ## Who is paid for a sale -/

theorem mem_uplineChain {registry : Registry} (hsponsors : SponsorsInside registry)
    {tenantId : Uuid} {depth : Nat} {id : Option Uuid} {chain : List Membership}
    (h : uplineChain registry depth id = .ok chain)
    (hstart : ∀ m ∈ registry.memberships, id = some m.id → m.tenantId = tenantId) :
    ∀ m ∈ chain, m ∈ registry.memberships ∧ m.tenantId = tenantId := by
  induction depth generalizing id chain with
  | zero =>
      cases h
      exact fun m hm => absurd hm List.not_mem_nil
  | succ depth ih =>
      cases id with
      | none =>
          cases h
          exact fun m hm => absurd hm List.not_mem_nil
      | some currentId =>
          unfold uplineChain at h
          cases hfind : registry.memberships.find? currentId with
          | none => rw [hfind] at h; cases h
          | some current =>
              obtain ⟨hmem, hid⟩ := Table.find?_eq_some.mp hfind
              have hid : current.id = currentId := hid
              have htenant := hstart current hmem (by rw [hid])
              rw [hfind] at h
              change (do
                let rest ← uplineChain registry depth current.sponsorMembershipId
                pure (current :: rest)) = Except.ok chain at h
              cases hrest : uplineChain registry depth current.sponsorMembershipId with
              | error e => rw [hrest] at h; cases h
              | ok rest =>
                  rw [hrest] at h
                  cases h
                  intro m hm
                  rcases List.mem_cons.mp hm with rfl | hm
                  · exact ⟨hmem, htenant⟩
                  · exact ih hrest (fun s hs hsponsor =>
                      (hsponsors current hmem s hs hsponsor).trans htenant) m hm

/-- A place of the chain that earns is held by a member of the chain. -/
theorem mem_effectiveBaseChain {raw : List Membership} {tenant : Tenant} {id : Uuid}
    (h : some id ∈ effectiveBaseChain raw tenant) : ∃ m ∈ raw, m.id = id := by
  unfold effectiveBaseChain at h
  cases raw with
  | nil => exact absurd h List.not_mem_nil
  | cons seller uplines =>
      simp only at h
      split_ifs at h
      · rcases List.mem_cons.mp h with heq | h
        · exact ⟨seller, List.mem_cons_self, (Option.some.inj heq).symm⟩
        · obtain ⟨u, hu, heq⟩ := List.mem_map.mp h
          exact ⟨u, List.mem_cons_of_mem _ (List.mem_filter.mp hu).1, Option.some.inj heq⟩
      · rcases List.mem_cons.mp h with heq | h
        · exact ⟨seller, List.mem_cons_self, (Option.some.inj heq).symm⟩
        · obtain ⟨u, hu, heq⟩ := List.mem_map.mp h
          split_ifs at heq
          exact ⟨u, List.mem_cons_of_mem _ hu, Option.some.inj heq⟩
      · obtain ⟨u, hu, heq⟩ := List.mem_map.mp h
        exact ⟨u, hu, Option.some.inj heq⟩

theorem mem_bonusCredits {sale : Sale} {sponsorId : Uuid} {level : Nat}
    {amountCents rateBps : Int} {due : Bool} {c : Credit}
    (h : c ∈ bonusCredits sale sponsorId level amountCents rateBps due) :
    c.beneficiaryMembershipId = sponsorId := by
  unfold bonusCredits at h
  simp only at h
  split_ifs at h
  · exact absurd h List.not_mem_nil
  · rw [List.mem_singleton.mp h]
    rfl
  · exact absurd h List.not_mem_nil

theorem mem_overrideCredits {registry : Registry} {rows : List LedgerEntry} {sale : Sale}
    {c : Credit} (h : c ∈ overrideCredits registry rows sale) :
    c.beneficiaryMembershipId = sale.sellerMembershipId := by
  unfold overrideCredits at h
  simp only at h
  split_ifs at h
  · rw [List.mem_singleton.mp h]
    rfl
  · exact absurd h List.not_mem_nil
  · exact absurd h List.not_mem_nil

/-- The base lines and the bonuses go to members of the chain. -/
theorem Inputs.mem_baseCredits {sale : Sale} {registry : Registry} (i : Inputs sale registry)
    {c : Credit} (h : c ∈ i.baseCredits) : ∃ m ∈ i.rawChain, m.id = c.beneficiaryMembershipId := by
  unfold Inputs.baseCredits at h
  rcases List.mem_append.mp h with h | h
  · obtain ⟨line, hline, rfl⟩ := List.mem_map.mp h
    rw [computeCommissionLines_eq_ok i.lines_eq] at hline
    obtain ⟨level, -, hat⟩ := List.mem_filterMap.mp hline
    have hplace := (lineAt_eq_some.mp hat).1
    exact mem_effectiveBaseChain (List.mem_of_getElem? (Option.join_eq_some_iff.mp hplace))
  · unfold sponsorCredits at h
    cases hsponsor : earningSponsor i.tenant i.rawChain with
    | none => rw [hsponsor] at h; exact absurd h List.not_mem_nil
    | some sponsorId =>
        rw [hsponsor] at h
        have hbeneficiary : c.beneficiaryMembershipId = sponsorId := by
          rcases List.mem_append.mp h with h | h
          · exact mem_bonusCredits h
          · unfold matchingCredits at h
            split at h
            · exact absurd h List.not_mem_nil
            · exact mem_bonusCredits h
        unfold earningSponsor at hsponsor
        cases hget : i.rawChain[1]? with
        | none => rw [hget] at hsponsor; cases hsponsor
        | some sponsor =>
            rw [hget] at hsponsor
            simp only at hsponsor
            split_ifs at hsponsor
            exact ⟨sponsor, List.mem_of_getElem? hget,
              (Option.some.inj hsponsor).trans hbeneficiary.symm⟩

/-! ## What a step keeps -/

section Step

variable {env : Env} {db db' : Db}

/-- Nobody has changed: sales and rows are those of before, up to what the engine
rewrites, and the rows in `news`. -/
structure Continued (news : List LedgerEntry) (db db' : Db) : Prop where
  registry : db'.registry = db.registry
  sales : ∀ sale' ∈ db'.sales, ∃ sale ∈ db.sales, sale'.tenantId = sale.tenantId ∧
    sale'.sellerMembershipId = sale.sellerMembershipId
  rows : ∀ r' ∈ db'.ledger, (∃ r ∈ db.ledger, SameEntry r r') ∨ r' ∈ news

theorem Continued.staffed {news : List LedgerEntry} (h : Continued news db db')
    (hstaffed : Staffed db)
    (hnews : ∀ r ∈ news, IsMember db.registry r.tenantId r.beneficiaryMembershipId) :
    Staffed db' where
  sponsors := h.registry ▸ hstaffed.sponsors
  sellers sale' hsale' := by
    obtain ⟨sale, hsale, htenant, hseller⟩ := h.sales sale' hsale'
    rw [h.registry, htenant, hseller]
    exact hstaffed.sellers sale hsale
  rows r' hr' := by
    rw [h.registry]
    rcases h.rows r' hr' with ⟨r, hr, hsame⟩ | hnew
    · rw [hsame.tenantId, hsame.beneficiary]
      exact hstaffed.rows r hr
    · exact hnews r' hnew

theorem salesFrom_map {f : Sale → Sale} (h : db'.sales.rows = db.sales.rows.map f)
    (hf : ∀ sale, (f sale).tenantId = sale.tenantId ∧
      (f sale).sellerMembershipId = sale.sellerMembershipId) :
    ∀ sale' ∈ db'.sales, ∃ sale ∈ db.sales, sale'.tenantId = sale.tenantId ∧
      sale'.sellerMembershipId = sale.sellerMembershipId := by
  intro sale' hsale'
  rw [Table.mem_def, h] at hsale'
  obtain ⟨sale, hsale, rfl⟩ := List.mem_map.mp hsale'
  exact ⟨sale, hsale, hf sale⟩

theorem salesFrom_eq (h : db'.sales = db.sales) :
    ∀ sale' ∈ db'.sales, ∃ sale ∈ db.sales, sale'.tenantId = sale.tenantId ∧
      sale'.sellerMembershipId = sale.sellerMembershipId := fun sale' hsale' =>
  ⟨sale', h ▸ hsale', rfl, rfl⟩

theorem rowsFrom_map {f : LedgerEntry → LedgerEntry} {news : List LedgerEntry}
    (h : db'.ledger.rows = db.ledger.rows.map f ++ news) (hf : ∀ r, SameEntry r (f r)) :
    ∀ r' ∈ db'.ledger, (∃ r ∈ db.ledger, SameEntry r r') ∨ r' ∈ news := by
  intro r' hr'
  rw [Table.mem_def, h] at hr'
  rcases List.mem_append.mp hr' with hr' | hr'
  · obtain ⟨r, hr, rfl⟩ := List.mem_map.mp hr'
    exact .inl ⟨r, hr, hf r⟩
  · exact .inr hr'

theorem rowsFrom_eq (h : db'.ledger = db.ledger) :
    ∀ r' ∈ db'.ledger, (∃ r ∈ db.ledger, SameEntry r r') ∨ r' ∈ ([] : List LedgerEntry) :=
  fun r' hr' => .inl ⟨r', h ▸ hr', .refl r'⟩

theorem Distributed.staffed {now : Instant} {sale : Sale} {i : Inputs sale db.registry}
    {credits : List Credit} (h : Distributed env now i credits db db') (hstaffed : Staffed db)
    (hseller : IsMember db.registry sale.tenantId sale.sellerMembershipId) : Staffed db' := by
  obtain ⟨split, hsplit, hcredits⟩ := h.split
  obtain ⟨news, hdrawn, hrows⟩ := h.ledger
  have hstart : ∀ m ∈ db.registry.memberships, some sale.sellerMembershipId = some m.id →
      m.tenantId = sale.tenantId := by
    intro m hm heq
    obtain ⟨seller, hsellerMem, hid, htenant⟩ := hseller
    have hsame : m = seller :=
      Table.eq_of_key hm hsellerMem ((Option.some.inj heq).symm.trans hid.symm)
    rw [hsame]
    exact htenant
  have hchain := mem_uplineChain hstaffed.sponsors i.chain_eq hstart
  have hsame : db'.ledger.rows = db.ledger.rows.map (fun r => r) ++ news := by
    rw [List.map_id']
    exact hrows
  have hcontinued : Continued news db db' :=
    { registry := h.registry
      sales := salesFrom_map h.sales fun x => by
        unfold Inputs.stamp
        split_ifs
        · exact ⟨rfl, rfl⟩
        · exact ⟨rfl, rfl⟩
      rows := rowsFrom_map hsame .refl }
  refine hcontinued.staffed hstaffed fun r hr => ?_
  obtain ⟨c, hc, id, rfl⟩ := hdrawn.exists_of_mem hr
  change IsMember db.registry sale.tenantId c.beneficiaryMembershipId
  rw [hcredits] at hc
  rcases List.mem_append.mp hc with hc | hc
  · obtain ⟨m, hm, hid⟩ := i.mem_baseCredits hc
    obtain ⟨hmem, htenant⟩ := hchain m hm
    exact ⟨m, hmem, hid, htenant⟩
  · rw [mem_overrideCredits hc]
    exact hseller

theorem MarkedApproved.staffed {now : Instant} {actor : Option Uuid} {saleId : Uuid}
    (h : MarkedApproved now actor saleId db db') (hstaffed : Staffed db) : Staffed db' := by
  have hcontinued : Continued [] db db' :=
    { registry := h.registry
      sales := salesFrom_map h.sales fun x => by
        split_ifs
        · exact ⟨rfl, rfl⟩
        · exact ⟨rfl, rfl⟩
      rows := rowsFrom_eq h.ledger }
  exact hcontinued.staffed hstaffed fun r hr => absurd hr List.not_mem_nil

theorem Voided.staffed {now : Instant} {sale : Sale} {month : String}
    (h : Voided now sale month db db') (hsound : SaleSound db) (hsale : sale ∈ db.sales)
    (hstaffed : Staffed db) : Staffed db' := by
  obtain ⟨news, hdrawn, hrows⟩ := h.ledger
  have hcontinued : Continued news db db' :=
    { registry := h.registry
      sales := salesFrom_map h.sales fun x => by
        split_ifs
        · exact ⟨rfl, rfl⟩
        · exact ⟨rfl, rfl⟩
      rows := rowsFrom_map hrows fun r => by
        unfold close
        split_ifs
        · exact ⟨rfl, rfl, rfl, rfl, rfl, rfl, rfl, rfl, rfl, rfl⟩
        · exact .refl r }
  refine hcontinued.staffed hstaffed fun r hr => ?_
  obtain ⟨entry, hentry, id, rfl⟩ := hdrawn.exists_of_mem hr
  -- a reversal goes to the beneficiary of the row it reverses
  obtain ⟨hmem, hof, -⟩ := mem_liveCommissions.mp hentry
  have hmember := hstaffed.rows entry hmem
  have hid : entry.saleId = some sale.id := by
    unfold isCommissionOf at hof
    simp only [Bool.and_eq_true, decide_eq_true_eq] at hof
    exact hof.1
  obtain ⟨sale', hsale', hid', htenant, -⟩ := (hsound entry hmem).ofSale sale.id hid
  rw [Table.eq_of_key hsale' hsale hid'] at htenant
  rw [← htenant] at hmember
  exact hmember

theorem Delivered.staffed {sale : Sale} {deliveredAt maturesAt : Instant}
    (h : Delivered sale deliveredAt maturesAt db db') (hstaffed : Staffed db) : Staffed db' := by
  have hrows : db'.ledger.rows = db.ledger.rows.map (fun r =>
      if awaitsDelivery sale.id r then setMaturesAt maturesAt r else r) ++ [] := by
    rw [List.append_nil]
    exact h.ledger
  have hcontinued : Continued [] db db' :=
    { registry := h.registry
      sales := salesFrom_map h.sales fun x => by
        split_ifs
        · exact ⟨rfl, rfl⟩
        · exact ⟨rfl, rfl⟩
      rows := rowsFrom_map hrows fun r => by
        split_ifs
        · exact ⟨rfl, rfl, rfl, rfl, rfl, rfl, rfl, rfl, rfl, rfl⟩
        · exact .refl r }
  exact hcontinued.staffed hstaffed fun r hr => absurd hr List.not_mem_nil

theorem Matured.staffed {batch : List DueRow} (h : Matured batch db db')
    (hstaffed : Staffed db) : Staffed db' := by
  have hrows : db'.ledger.rows =
      db.ledger.rows.map (setStatusOf (batch.map DueRow.id) .payable) ++ [] := by
    rw [List.append_nil]
    exact h.ledger
  have hcontinued : Continued [] db db' :=
    { registry := h.registry
      sales := salesFrom_eq h.sales
      rows := rowsFrom_map hrows fun r => by
        unfold setStatusOf
        split_ifs
        · exact ⟨rfl, rfl, rfl, rfl, rfl, rfl, rfl, rfl, rfl, rfl⟩
        · exact .refl r }
  exact hcontinued.staffed hstaffed fun r hr => absurd hr List.not_mem_nil

theorem Awarded.staffed {params : AwardBonusParams} {now : Instant}
    (h : Awarded params now db db') (hstaffed : Staffed db)
    (hmember : IsMember db.registry params.tenantId params.membershipId) : Staffed db' := by
  obtain ⟨id, hrows⟩ := h.ledger
  have hsame : db'.ledger.rows = db.ledger.rows.map (fun r => r) ++ [bonusRow params now id] := by
    rw [List.map_id']
    exact hrows
  have hcontinued : Continued [bonusRow params now id] db db' :=
    { registry := h.registry
      sales := salesFrom_eq h.sales
      rows := rowsFrom_map hsame .refl }
  refine hcontinued.staffed hstaffed fun r hr => ?_
  rw [List.mem_singleton.mp hr]
  exact hmember

/-- Reserving rewrites rows and adds none. -/
theorem MembersReserved.rows_from {params : ReserveParams} {batchId : Uuid} {now : Instant}
    {rs : List PayoutReservation} {processing : List ProcessingPayout}
    (h : MembersReserved params batchId now rs processing db db') :
    ∀ r' ∈ db'.ledger, ∃ r ∈ db.ledger, SameEntry r r' := by
  induction h with
  | nil db => exact fun r hr => ⟨r, hr, .refl r⟩
  | cons hone _ ih =>
      intro r' hr'
      obtain ⟨r, hr, hsame⟩ := ih r' hr'
      rcases hone.evolution.mem_cases hr with ⟨r₀, hr₀, rfl⟩ | hnew
      · exact ⟨r₀, hr₀, (hone.evolution.same r₀).trans hsame⟩
      · exact absurd hnew List.not_mem_nil

theorem BatchReserved.staffed {params : ReserveParams} {now : Instant} {selection : Selection}
    {batchId : Uuid} {processing : List ProcessingPayout}
    (h : BatchReserved params now selection batchId processing db db') (hstaffed : Staffed db) :
    Staffed db' := by
  obtain ⟨mid, mid', hmembers, hregistry, hsales, hledger, -, -, -, hregistry', hsales',
    hledger', -⟩ := h.members
  obtain ⟨hmidRegistry, hmidSales, -, -⟩ := hmembers.kept
  have hcontinued : Continued [] db db' :=
    { registry := hregistry'.trans (hmidRegistry.trans hregistry)
      sales := salesFrom_eq (hsales'.trans (hmidSales.trans hsales))
      rows := fun r' hr' => by
        rw [hledger'] at hr'
        obtain ⟨r, hr, hsame⟩ := hmembers.rows_from r' hr'
        exact .inl ⟨r, hledger ▸ hr, hsame⟩ }
  exact hcontinued.staffed hstaffed fun r hr => absurd hr List.not_mem_nil

theorem BatchClosed.staffed {b : PayoutSettlementBatch} {row : LedgerEntry → LedgerEntry}
    {payout : Payout → Payout} {batch : PayoutSettlementBatch → PayoutSettlementBatch}
    {delta : Int → SummaryDelta} (h : BatchClosed b row payout batch delta db db')
    (hrow : ∀ r, SameEntry r (row r)) (hstaffed : Staffed db) : Staffed db' := by
  have hrows : db'.ledger.rows = db.ledger.rows.map (fun r =>
      if isHeldBy b.id (lockPayoutBatchItems db b.id) r then row r else r) ++ [] := by
    rw [List.append_nil]
    exact h.ledger
  have hcontinued : Continued [] db db' :=
    { registry := h.registry
      sales := salesFrom_eq h.sales
      rows := rowsFrom_map hrows fun r => SameEntry.ite hrow _ r }
  exact hcontinued.staffed hstaffed fun r hr => absurd hr List.not_mem_nil

theorem Continued.of_onlyPayouts (h : OnlyPayouts db db') : Continued [] db db' where
  registry := h.registry
  sales := salesFrom_eq h.sales
  rows := rowsFrom_eq h.ledger

theorem Continued.of_dispatched {b : PayoutSettlementBatch} {now : Instant}
    {reference evidence : String} (h : BatchDispatched b now reference evidence db db') :
    Continued [] db db' where
  registry := h.registry
  sales := salesFrom_eq h.sales
  rows := rowsFrom_eq h.ledger

theorem Continued.quiet (h : Continued [] db db') (hstaffed : Staffed db) : Staffed db' :=
  h.staffed hstaffed fun _ hr => absurd hr List.not_mem_nil

/-! ## A checked step -/

theorem Staffed.configure {registry : Registry} (hstaffed : Staffed db)
    (hsponsors : SponsorsInside registry)
    (hsellers : ∀ sale ∈ db.sales, IsMember db.registry sale.tenantId sale.sellerMembershipId →
      IsMember registry sale.tenantId sale.sellerMembershipId)
    (hrows : ∀ r ∈ db.ledger, IsMember db.registry r.tenantId r.beneficiaryMembershipId →
      IsMember registry r.tenantId r.beneficiaryMembershipId) :
    Staffed { db with registry := registry } where
  sponsors := hsponsors
  sellers sale hsale := hsellers sale hsale (hstaffed.sellers sale hsale)
  rows r hr := hrows r hr (hstaffed.rows r hr)

theorem Staffed.createDraftSale {input : Sales.DraftInput} {s s' : Session} {id : Uuid}
    (hc : Commits (Sales.createDraftSale input) s id s') (hstaffed : Staffed s.db)
    (hseller : IsMember s.db.registry input.tenantId input.sellerMembershipId) :
    Staffed s'.db := by
  obtain ⟨sales, hrows, hdb⟩ := Sales.commits_createDraftSale hc
  rw [hdb]
  refine ⟨hstaffed.sponsors, fun sale hsale => ?_, hstaffed.rows⟩
  have hsale : sale ∈ sales.rows := hsale
  rw [hrows] at hsale
  rcases List.mem_append.mp hsale with hold | hnew
  · exact hstaffed.sellers sale hold
  · rw [List.mem_singleton.mp hnew]
    exact hseller

theorem Staffed.remove {tenantId saleId : Uuid} {actorUserId : Option Uuid}
    {s s' : Session} {u : PUnit} (hc : Commits (Sales.remove tenantId actorUserId saleId) s u s')
    (hstaffed : Staffed s.db) : Staffed s'.db := by
  obtain ⟨draft, -, -, logs, hdb⟩ := Sales.commits_remove hc
  rw [hdb]
  exact ⟨hstaffed.sponsors, fun sale hsale => hstaffed.sellers sale (Table.mem_filter.mp hsale).1,
    hstaffed.rows⟩

theorem Staffed.approveSale {env : Env} {now : Instant} {saleId : Uuid}
    {actorUserId expected : Option Uuid} {s s' : Session} {result : ApplyResult}
    (hc : Commits (approveSaleInTx env now saleId actorUserId expected) s result s')
    (hstaffed : Staffed s.db) : Staffed s'.db := by
  obtain ⟨sale, hsale, rfl, -, ⟨-, happly⟩ | ⟨hdraft, t, hmarked, happly⟩⟩ :=
    commits_approveSaleInTx hc
  · rcases commits_applyCommissionsInTx happly with rfl | ⟨-, -, i, credits, h⟩
    · exact hstaffed
    · exact h.staffed hstaffed (hstaffed.sellers sale hsale)
  · have hmid := hmarked.staffed hstaffed
    have hseller := hstaffed.sellers sale hsale
    rw [← hmarked.registry] at hseller
    rcases commits_applyCommissionsInTx happly with rfl | ⟨-, -, i, credits, h⟩
    · exact hmid
    · exact h.staffed hmid hseller

theorem Staffed.closed {b : PayoutSettlementBatch} {row : LedgerEntry → LedgerEntry}
    {payout : Payout → Payout} {batch : PayoutSettlementBatch → PayoutSettlementBatch}
    {delta : Int → SummaryDelta} {st : BatchStatus} (hstaffed : Staffed db)
    (h : BatchClosed b row payout batch delta db db') (hc : Closes st row payout batch delta) :
    Staffed db' :=
  h.staffed hc.row_same hstaffed

/-- Every transaction but a write of the registry. -/
theorem Staffed.of_commits {env : Env} {action : Action} {uuids : Nat → Uuid} {s s' : Session}
    {u : PUnit} (hc : Commits (transaction env action) s u s') (hsound : SaleSound s.db)
    (hchecked : Step.Checked ⟨action, uuids⟩ s.db) (hstaffed : Staffed s.db) :
    Staffed s'.db := by
  cases action with
  | configure registry =>
      simp only [transaction, commits_bind, commits_readDb, commits_require,
        commits_writeDb] at hc
      obtain ⟨_, _, ⟨rfl, rfl⟩, _, _, ⟨-, rfl⟩, rfl⟩ := hc
      exact hstaffed.configure hchecked.1 hchecked.2.1 hchecked.2.2
  | createDraftSale input =>
      obtain ⟨id, hc⟩ := (commits_discard ..).mp hc
      exact .createDraftSale hc hstaffed hchecked
  | removeSale tenantId actorUserId saleId => exact .remove hc hstaffed
  | approveSale now saleId actorUserId expected =>
      obtain ⟨result, hc⟩ := (commits_discard ..).mp hc
      exact .approveSale hc hstaffed
  | applyCommissions now saleId =>
      obtain ⟨_, hc⟩ := (commits_discard ..).mp hc
      obtain ⟨sale, hsale, rfl, happly⟩ := commits_applyCommissions hc
      rcases commits_applyCommissionsInTx happly with rfl | ⟨-, -, i, credits, h⟩
      · exact hstaffed
      · exact h.staffed hstaffed (hstaffed.sellers sale hsale)
  | voidSale now saleId actorUserId expected =>
      obtain ⟨_, hc⟩ := (commits_discard ..).mp hc
      obtain ⟨sale, hsale, rfl, ⟨-, rfl, -⟩ | ⟨-, -, -, month, -, h⟩⟩ := commits_voidSaleInTx hc
      · exact hstaffed
      · exact h.staffed hsound hsale hstaffed
  | markDelivered saleId deliveredAt =>
      obtain ⟨_, hc⟩ := (commits_discard ..).mp hc
      obtain ⟨sale, -, rfl, -, rfl | ⟨-, maturesAt, h⟩⟩ := commits_markDelivered hc
      · exact hstaffed
      · exact h.staffed hstaffed
  | matureCommissions now limit lockedRows =>
      obtain ⟨_, hc⟩ := (commits_discard ..).mp hc
      exact (commits_matureCommissions hc).2.staffed hstaffed
  | awardBonus now params =>
      obtain ⟨_, hc⟩ := (commits_discard ..).mp hc
      exact (commits_awardBonus hc).staffed hstaffed hchecked
  | reservePayoutBatch now params =>
      obtain ⟨_, hc⟩ := (commits_discard ..).mp hc
      obtain ⟨selection, -, ⟨rfl, -, -⟩ | ⟨-, -, batchId, processing, h, -⟩⟩ :=
        commits_reservePayoutBatch hc
      · exact hstaffed
      · exact h.staffed hstaffed
  | dispatchPayoutBatch now params =>
      obtain ⟨_, hc⟩ := (commits_discard ..).mp hc
      obtain ⟨b, -, -, -, ⟨rfl, -⟩ | h⟩ := commits_dispatchPayoutBatch hc
      · exact hstaffed
      · exact (Continued.of_dispatched h).quiet hstaffed
  | settlePayoutBatch now params =>
      obtain ⟨_, hc⟩ := (commits_discard ..).mp hc
      obtain ⟨b, -, -, -, ⟨rfl, -⟩ | ⟨-, h⟩⟩ := commits_settlePayoutBatch hc
      · exact hstaffed
      · exact hstaffed.closed h (settle_closes ..)
  | failPayoutBatch now params =>
      obtain ⟨_, hc⟩ := (commits_discard ..).mp hc
      obtain ⟨b, -, -, -, ⟨rfl, -, -⟩ | ⟨-, -, h⟩⟩ := commits_failPayoutBatch hc
      · exact hstaffed
      · exact hstaffed.closed h (fail_closes ..)
  | rejectPayoutRequest now params =>
      obtain ⟨_, hc⟩ := (commits_discard ..).mp hc
      obtain ⟨p, -, -, -, -, h⟩ := commits_rejectPayoutRequest hc
      exact (Continued.of_onlyPayouts h).quiet hstaffed
  | requestPayout now membershipId tenantId =>
      obtain ⟨_, hc⟩ := (commits_discard ..).mp hc
      rcases commits_requestPayoutWithMeta hc with ⟨rfl, -⟩ | ⟨tenant, id, -, -, h⟩
      · exact hstaffed
      · exact (Continued.of_onlyPayouts h).quiet hstaffed

end Step

/-- A checked step keeps rows with members. -/
theorem Staffed.step {env : Env} {db : Db} (step : Step) (hsound : SaleSound db)
    (hchecked : step.Checked db) (hstaffed : Staffed db) : Staffed (step.apply env db) := by
  rcases step.apply_cases env db with heq | ⟨s', hc, heq⟩
  · rw [heq]
    exact hstaffed
  · rw [heq]
    exact .of_commits hc hsound hchecked hstaffed

/-- A run of checked steps keeps rows with members. -/
theorem Staffed.run {env : Env} {db : Db} {steps : List Step} (hgood : Good db)
    (hchecked : Throughout (Step.apply env) Step.Checked steps db) (hstaffed : Staffed db) :
    Staffed (run (Step.apply env) steps db) := by
  have hboth : Good (Support.run (Step.apply env) steps db) ∧
      Staffed (Support.run (Step.apply env) steps db) := by
    refine hchecked.invariant (I := fun db => Good db ∧ Staffed db) ?_ ⟨hgood, hstaffed⟩
    intro step db hstep h
    exact ⟨h.1.step step, h.2.step step h.1.sound.sale hstep⟩
  exact hboth.2

end Refearn.Engine
