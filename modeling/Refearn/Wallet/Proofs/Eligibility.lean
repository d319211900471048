import Refearn.Wallet.Wallet
import Refearn.Engine.Proofs.Reachable
/-!
# What the wallet promises

The wallet and the request read the same readiness, but the wallet looks for open
payouts in the current month only and does not ask for a runtime block. So what it
shows is what a request would do exactly where neither makes a difference.
-/

namespace Refearn.Wallet

open Support Support.Transaction Engine Payouts

/-! ## Requestable members -/

/-- Each control is listed at most once, under its own key. -/
theorem filter_controls (f : ReadinessKey → Option ManualPayoutReadinessDecision)
    (hkey : ∀ k control, f k = some control → control.key = k) (key : ReadinessKey) :
    (PAYOUT_COMPLIANCE_CONTROL_KEYS.filterMap f).filter (fun c => c.key = key) =
      (f key).toList := by
  have hone : ∀ k, (f k).toList.filter (fun c => c.key = key) =
      if k = key then (f k).toList else [] := by
    intro k
    cases hf : f k with
    | none => simp
    | some control =>
        have hcontrol := hkey k control hf
        by_cases hk : k = key
        · simp [hcontrol, hk]
        · simp [hcontrol, hk]
  have hsplit : PAYOUT_COMPLIANCE_CONTROL_KEYS.filterMap f =
      PAYOUT_COMPLIANCE_CONTROL_KEYS.flatMap fun k => (f k).toList :=
    List.filterMap_eq_flatMap_toList ..
  rw [hsplit]
  unfold PAYOUT_COMPLIANCE_CONTROL_KEYS
  simp only [List.flatMap_cons, List.flatMap_nil, List.filter_append, hone,
    List.append_nil]
  cases key <;> simp

/-- The destination a payment can go to. -/
def destinationReady (destination : Option ActivePayoutDestination) : Bool :=
  destination.any fun d => d.verifiedAt.isSome && isValidPayoutReadinessVersion d.version

theorem manualCheck_ready (f : ReadinessKey → Option ManualPayoutReadinessDecision)
    (hkey : ∀ k control, f k = some control → control.key = k) {input : PayoutReadinessInput}
    (hinput : input.manualChecks = PAYOUT_COMPLIANCE_CONTROL_KEYS.filterMap f) (now : Instant)
    (key : ReadinessKey) :
    (manualCheck key input now).status = .ready ↔
      (f key).any (controlReady now) = true ∧
        (key = .paymentMethod → destinationReady input.destination = true) := by
  unfold manualCheck
  rw [hinput, filter_controls f hkey key]
  cases f key with
  | none => simp
  | some control =>
      simp only [Option.toList_some, Option.any_some, controlReady]
      by_cases hversion : isValidPayoutReadinessVersion control.version = true
      · cases hstatus : control.status with
        | pending => simp [hversion]
        | blocked => simp [hversion]
        | ready =>
            by_cases hexpired : control.expiresAt.any (fun e => decide (e ≤ now)) = true
            · simp [hversion, hexpired]
            · by_cases hmethod : key = .paymentMethod
              · by_cases hdest : destinationReady input.destination = true
                · have hdest' := hdest
                  unfold destinationReady at hdest'
                  simp [hversion, hexpired, hmethod, hdest, hdest']
                · have hdest' := hdest
                  unfold destinationReady at hdest'
                  simp [hversion, hexpired, hmethod, hdest, hdest']
              · simp [hversion, hexpired, hmethod]
      · simp [hversion]

theorem isReady_iff (f : ReadinessKey → Option ManualPayoutReadinessDecision)
    (hkey : ∀ k control, f k = some control → control.key = k)
    (destination : Option ActivePayoutDestination) (now : Instant) :
    isReady ⟨PAYOUT_COMPLIANCE_CONTROL_KEYS.filterMap f, destination⟩ now = true ↔
      (∀ key, (f key).any (controlReady now) = true) ∧ destinationReady destination = true := by
  have hfind : ∀ key, (PAYOUT_COMPLIANCE_CONTROL_KEYS.filterMap f).find?
      (fun c => c.key = key) = f key := by
    intro key
    rw [← List.head?_filter, filter_controls f hkey key]
    cases f key <;> rfl
  have hall : (∀ key, (f key).any (controlReady now) = true) ↔
      ∀ key ∈ PAYOUT_COMPLIANCE_CONTROL_KEYS, (f key).any (controlReady now) = true := by
    refine ⟨fun h key _ => h key, fun h key => h key ?_⟩
    cases key <;> decide
  unfold isReady
  simp only [hfind, Bool.and_eq_true, decide_eq_true_eq, List.all_eq_true]
  rw [hall]
  constructor
  · rintro ⟨⟨-, hready⟩, hdest⟩
    exact ⟨hready, hdest⟩
  · rintro ⟨hready, hdest⟩
    refine ⟨⟨?_, hready⟩, hdest⟩
    -- a control that is ready is there, so none is missing
    have hsome : ∀ key ∈ PAYOUT_COMPLIANCE_CONTROL_KEYS, (f key).isSome = true := by
      intro key hmem
      have hany := hready key hmem
      cases hf : f key with
      | none => rw [hf] at hany; cases hany
      | some control => rfl
    rw [List.length_filterMap_eq_countP, List.countP_eq_length]
    exact hsome

theorem manualCheck_key (key : ReadinessKey) (input : PayoutReadinessInput) (now : Instant) :
    (manualCheck key input now).key = .manual key := by
  unfold manualCheck
  dsimp only
  repeat' split
  all_goals rfl

/-- The stored decisions of a member as a function of the control. -/
def control (registry : Registry) (tenantId membershipId : Uuid) (key : ReadinessKey) :
    Option ManualPayoutReadinessDecision :=
  (registry.readinessChecks.find? (tenantId, membershipId, key)).map fun c =>
    ⟨c.key, c.status, c.reasonCode, c.expiresAt, c.version⟩

theorem control_key {registry : Registry} {tenantId membershipId : Uuid} (key : ReadinessKey)
    (decision : ManualPayoutReadinessDecision)
    (h : control registry tenantId membershipId key = some decision) : decision.key = key := by
  unfold control at h
  obtain ⟨c, hfind, rfl⟩ := Option.map_eq_some_iff.mp h
  have hkey := (Table.find?_eq_some.mp hfind).2
  have hkey : (c.tenantId, c.membershipId, c.key) = (tenantId, membershipId, key) := hkey
  exact (Prod.mk.inj (Prod.mk.inj hkey).2).2

/-- A member without an open payout is requestable with a verified e-mail, a balance over
the threshold and decisions that are all ready. -/
theorem requestable_iff {input : PayoutReadinessInput} {now : Instant}
    {compliance : PayoutComplianceReadinessInput} {registry : Registry}
    {tenantId membershipId : Uuid} (hread : compliance = readInput registry tenantId membershipId)
    (hmanual : input.manualChecks = compliance.manualChecks)
    (hdest : input.destination = compliance.destination) (hmfa : input.mfa = .unknown) :
    (evaluatePayoutReadiness input now).requestable = true ↔
      input.emailVerified = true ∧ 0 < input.payableCents ∧
        input.thresholdCents ≤ input.payableCents ∧ input.activePayout = none ∧
          isReady compliance now = true := by
  have hlist : input.manualChecks = PAYOUT_COMPLIANCE_CONTROL_KEYS.filterMap
      (control registry tenantId membershipId) := by
    rw [hmanual, hread]
    rfl
  have hcompliance : compliance = ⟨PAYOUT_COMPLIANCE_CONTROL_KEYS.filterMap
      (control registry tenantId membershipId), input.destination⟩ := by
    rw [hdest, hread]
    rfl
  have hopen : (openRequestCheck input.activePayout).status = .ready ↔
      input.activePayout = none := by
    rcases input.activePayout with _ | ⟨id, _ | _⟩ <;> simp [openRequestCheck]
  have hkeys : (openRequestCheck input.activePayout).key ≠ .mfa := by
    rcases input.activePayout with _ | ⟨id, _ | _⟩ <;> simp [openRequestCheck]
  have hcheck := fun key => manualCheck_ready (control registry tenantId membershipId) control_key
    hlist now key
  have hready : isReady compliance now = true ↔
      (∀ key, (control registry tenantId membershipId key).any (controlReady now) = true) ∧
        destinationReady input.destination = true := by
    rw [hcompliance]
    exact isReady_iff (control registry tenantId membershipId) control_key input.destination now
  have hall : ((∀ key, (control registry tenantId membershipId key).any
      (controlReady now) = true) ∧ destinationReady input.destination = true) ↔
      ∀ key, (manualCheck key input now).status = .ready := by
    simp only [hcheck]
    constructor
    · rintro ⟨hcontrols, hdestination⟩ key
      exact ⟨hcontrols key, fun _ => hdestination⟩
    · intro h
      exact ⟨fun key => (h key).1, (h .paymentMethod).2 rfl⟩
  have hfive : (∀ key, (manualCheck key input now).status = .ready) ↔
      (manualCheck .address input now).status = .ready ∧
        (manualCheck .kyc input now).status = .ready ∧
          (manualCheck .fraud input now).status = .ready ∧
            (manualCheck .sanctions input now).status = .ready ∧
              (manualCheck .paymentMethod input now).status = .ready := by
    constructor
    · intro h
      exact ⟨h _, h _, h _, h _, h _⟩
    · rintro ⟨haddress, hkyc, hfraud, hsanctions, hmethod⟩ key
      cases key <;> assumption
  rw [hready, hall, hfive]
  simp [evaluatePayoutReadiness, hmfa, evaluateMfa, hopen, hkeys, manualCheck_key, emailCheck,
    payableBalanceCheck, thresholdCheck]

/-! ## Open payouts -/

theorem clash_payout_comm (p p' : Payout) : clash p p' = clash p' p := by
  rw [Bool.eq_iff_iff]
  simp only [clash, Bool.or_eq_true, Bool.and_eq_true, beq_iff_eq]
  constructor
  · rintro (⟨hsome, heq⟩ | ⟨⟨⟨hopen, hopen'⟩, htenant⟩, hmember⟩)
    · exact .inl ⟨heq ▸ hsome, heq.symm⟩
    · exact .inr ⟨⟨⟨hopen', hopen⟩, htenant.symm⟩, hmember.symm⟩
  · rintro (⟨hsome, heq⟩ | ⟨⟨⟨hopen, hopen'⟩, htenant⟩, hmember⟩)
    · exact .inl ⟨heq ▸ hsome, heq.symm⟩
    · exact .inr ⟨⟨⟨hopen', hopen⟩, htenant.symm⟩, hmember.symm⟩

theorem mem_openPayouts {db : Db} {tenantId membershipId : Uuid} {p : Payout} :
    p ∈ openPayouts db tenantId membershipId ↔
      p ∈ db.payouts ∧ p.tenantId = tenantId ∧ p.membershipId = membershipId ∧
        p.status.isOpen = true := by
  unfold openPayouts
  rw [List.mem_insertionSort, List.mem_filter, decide_eq_true_eq]
  exact Iff.rfl

theorem mem_periodPayouts {db : Db} {tenantId membershipId : Uuid} {period : String}
    {p : Payout} :
    p ∈ periodPayouts db tenantId membershipId period ↔
      p ∈ openPayouts db tenantId membershipId ∧ p.period = period := by
  unfold periodPayouts
  rw [mem_openPayouts, List.mem_insertionSort, List.mem_filter, decide_eq_true_eq]
  constructor
  · rintro ⟨hp, htenant, hmember, hperiod, hopen⟩
    exact ⟨⟨hp, htenant, hmember, hopen⟩, hperiod⟩
  · rintro ⟨⟨hp, htenant, hmember, hopen⟩, hperiod⟩
    exact ⟨hp, htenant, hmember, hperiod, hopen⟩

/-- `payouts_one_open_per_member`. -/
theorem openPayouts_unique {db : Db} {tenantId membershipId : Uuid} {p p' : Payout}
    (hp : p ∈ openPayouts db tenantId membershipId)
    (hp' : p' ∈ openPayouts db tenantId membershipId) : p = p' := by
  obtain ⟨hmem, htenant, hmember, hopen⟩ := mem_openPayouts.mp hp
  obtain ⟨hmem', htenant', hmember', hopen'⟩ := mem_openPayouts.mp hp'
  refine Table.eq_of_clash clash_payout_comm hmem hmem' ?_
  simp [clash, hopen, hopen', htenant, htenant', hmember, hmember']

theorem existingPayout_eq_none {active : List Payout} :
    existingPayout active = none ↔ active = [] := by
  unfold existingPayout
  cases active with
  | nil => simp
  | cons p active => simp

theorem mem_of_existingPayout {active : List Payout} {p : Payout}
    (h : existingPayout active = some p) : p ∈ active := by
  unfold existingPayout at h
  rcases Option.or_eq_some_iff.mp h with hfind | ⟨-, hhead⟩
  · exact List.mem_of_find?_eq_some hfind
  · exact List.mem_of_head? hhead

/-- Of at most one payout it is that one. -/
theorem existingPayout_eq_some {active : List Payout} {p : Payout}
    (hunique : ∀ q ∈ active, ∀ q' ∈ active, q = q') :
    existingPayout active = some p ↔ p ∈ active := by
  refine ⟨mem_of_existingPayout, fun hp => ?_⟩
  cases hfound : existingPayout active with
  | none =>
      rw [existingPayout_eq_none.mp hfound] at hp
      exact absurd hp List.not_mem_nil
  | some q => rw [hunique q (mem_of_existingPayout hfound) p hp]

theorem payoutActiveKey_inj {tenantId tenantId' membershipId membershipId' : Uuid}
    {period period' : String}
    (h : payoutActiveKey tenantId membershipId period =
      payoutActiveKey tenantId' membershipId' period') :
    tenantId = tenantId' ∧ membershipId = membershipId' := by
  have hlists := congrArg String.toList h
  simp only [payoutActiveKey, String.toList_append, List.append_assoc] at hlists
  have hlength : ∀ a b : Uuid, a.text.toList.length = b.text.toList.length := by
    intro a b
    unfold Uuid.text
    rw [String.toList_ofList, String.toList_ofList, Uuid.length_chars, Uuid.length_chars]
  obtain ⟨htenant, hrest⟩ := List.append_inj hlists (hlength _ _)
  obtain ⟨-, hrest⟩ := List.append_inj hrest rfl
  obtain ⟨hmember, -⟩ := List.append_inj hrest (hlength _ _)
  exact ⟨Uuid.text_inj (String.toList_inj.mp htenant), Uuid.text_inj (String.toList_inj.mp hmember)⟩

/-- Where no payout of the member is open another one can be written. -/
theorem exists_insert_request {db : Db} (h : BatchSound db) {tenantId membershipId id : Uuid}
    (hnone : openPayouts db tenantId membershipId = []) (hfresh : ∀ p ∈ db.payouts, p.id ≠ id)
    (total : Int) (period : String) (now : Instant) :
    ∃ payouts, db.payouts.insert? (newRequest tenantId membershipId total period now id) =
      some payouts := by
  refine Table.exists_insert? fun p hp => ⟨hfresh p hp, ?_⟩
  have hclosed : p.tenantId = tenantId → p.membershipId = membershipId →
      p.status.isOpen = false := by
    intro htenant hmember
    by_contra hopen
    have hmem : p ∈ openPayouts db tenantId membershipId :=
      mem_openPayouts.mpr ⟨hp, htenant, hmember, by simpa using hopen⟩
    rw [hnone] at hmem
    exact absurd hmem List.not_mem_nil
  simp only [clash, Bool.or_eq_false_iff, Bool.and_eq_false_iff]
  constructor
  · -- a key is held by an open payout of its member only
    cases hkey : p.activeKey with
    | none => exact .inl rfl
    | some k =>
        obtain ⟨hopen, rfl⟩ := h.activeKey p hp k hkey
        right
        rw [beq_eq_false_iff_ne]
        intro heq
        obtain ⟨htenant, hmember⟩ := payoutActiveKey_inj (Option.some.inj heq)
        rw [hclosed htenant hmember] at hopen
        cases hopen
  · by_cases htenant : p.tenantId = tenantId
    · by_cases hmember : p.membershipId = membershipId
      · exact .inl (.inl (.inl (hclosed htenant hmember)))
      · right
        rw [beq_eq_false_iff_ne]
        exact hmember
    · left
      right
      rw [beq_eq_false_iff_ne]
      exact htenant

/-! ## What a request does -/

section Request

variable {env : Env} {db : Db} {now : Instant} {tenantId membershipId : Uuid}
  {uuids : Nat → Uuid}

/-- A request of the member writes a new payout, which is requested. -/
def Creates (env : Env) (db : Db) (now : Instant) (membershipId tenantId : Uuid)
    (uuids : Nat → Uuid) : Prop :=
  ∃ result s', Commits (requestPayoutWithMeta env now membershipId tenantId) ⟨db, uuids⟩ result s' ∧
    result.created = true ∧ result.status = .requested ∧
      ∃ p, s'.db.payouts.rows = db.payouts.rows ++ [p] ∧ p.id = result.id ∧
        p.tenantId = tenantId ∧ p.membershipId = membershipId ∧ p.status = .requested

/-- A request of the member writes nothing and returns an open payout. -/
def ReturnsExisting (env : Env) (db : Db) (now : Instant) (membershipId tenantId : Uuid)
    (uuids : Nat → Uuid) (payoutId : Uuid) : Prop :=
  ∃ result s', Commits (requestPayoutWithMeta env now membershipId tenantId) ⟨db, uuids⟩ result s' ∧
    result.created = false ∧ result.id = payoutId ∧ s'.db = db

/-- The readiness of a request that finds no open payout. -/
def requestReadiness (db : Db) (now : Instant) (tenant : Tenant) (recipient : PayoutRecipient)
    (tenantId membershipId : Uuid) : PayoutReadiness :=
  evaluatePayoutReadiness (readinessInput tenant recipient
    (netCents (payableRows db tenantId membershipId))
      (readInput db.registry tenantId membershipId)) now

variable {tenant : Tenant} {recipient : PayoutRecipient}

theorem creates_iff (h : BatchSound db)
    (htenant : db.registry.tenants.find? tenantId = some tenant)
    (hrecipient : payoutRecipient db.registry tenantId membershipId = some recipient)
    (hfresh : ∀ p ∈ db.payouts, p.id ≠ uuids 0) :
    Creates env db now membershipId tenantId uuids ↔
      runtimePayoutBlock env db.registry now tenantId membershipId = none ∧
        openPayouts db tenantId membershipId = [] ∧
          (requestReadiness db now tenant recipient tenantId membershipId).requestable = true := by
  unfold Creates requestPayoutWithMeta
  simp only [commits_bind, commits_readDb, commits_orThrow]
  constructor
  · rintro ⟨result, s', ⟨_, _, ⟨rfl, rfl⟩, found, _, ⟨hfound, rfl⟩, hrun⟩, hcreated, -⟩
    obtain rfl : recipient = found := Option.some.inj (hrecipient.symm.trans hfound)
    split at hrun
    · simp at hrun
    · next hblock =>
        simp only [commits_bind, commits_readDb, findTenant, commits_orThrow] at hrun
        obtain ⟨read, _, ⟨_, _, ⟨rfl, rfl⟩, hread, rfl⟩, hrun⟩ := hrun
        obtain rfl : tenant = read := Option.some.inj (htenant.symm.trans hread)
        split at hrun
        · simp only [commits_pure] at hrun
          rw [← hrun.1] at hcreated
          cases hcreated
        · next hnone =>
            simp only [commits_bind, commits_require] at hrun
            obtain ⟨_, _, ⟨hready, rfl⟩, -⟩ := hrun
            rw [hnone] at hready
            exact ⟨hblock, existingPayout_eq_none.mp hnone, hready⟩
  · rintro ⟨hblock, hnone, hready⟩
    obtain ⟨payouts, hins⟩ := exists_insert_request h hnone hfresh
      (netCents (payableRows db tenantId membershipId)) (env.monthKey now tenant.timezone) now
    have hexisting := existingPayout_eq_none.mpr hnone
    have hrows := (Table.insert?_eq_some.mp hins).2
    have hpositive : 0 ≤ netCents (payableRows db tenantId membershipId) :=
      (requestable_balance hready).2.1.le
    refine ⟨⟨uuids 0, .requested, env.monthKey now tenant.timezone,
        netCents (payableRows db tenantId membershipId), tenant.currency,
        requestReadiness db now tenant recipient tenantId membershipId, true⟩,
      ⟨{ db with payouts := payouts }, fun n => uuids (n + 1)⟩,
      ⟨db, ⟨db, uuids⟩, ⟨rfl, rfl⟩, recipient, ⟨db, uuids⟩, ⟨hrecipient, rfl⟩, ?_⟩, ?_⟩
    · rw [hblock, hexisting]
      simp only [commits_bind, commits_readDb, findTenant, commits_orThrow]
      refine ⟨tenant, ⟨db, uuids⟩, ⟨db, ⟨db, uuids⟩, ⟨rfl, rfl⟩, htenant, rfl⟩, ?_⟩
      simp only [commits_require, commits_createPayout, commits_pure]
      exact ⟨⟨⟩, _, ⟨hready, rfl⟩, _, _, ⟨hpositive, payouts, hins, rfl, rfl⟩, rfl, rfl⟩
    · exact ⟨rfl, rfl, newRequest tenantId membershipId
        (netCents (payableRows db tenantId membershipId)) (env.monthKey now tenant.timezone) now
          (uuids 0), hrows, rfl, rfl, rfl, rfl⟩

theorem returnsExisting_iff (htenant : db.registry.tenants.find? tenantId = some tenant)
    (hrecipient : payoutRecipient db.registry tenantId membershipId = some recipient)
    (payoutId : Uuid) :
    ReturnsExisting env db now membershipId tenantId uuids payoutId ↔
      runtimePayoutBlock env db.registry now tenantId membershipId = none ∧
        ∃ p ∈ openPayouts db tenantId membershipId, p.id = payoutId := by
  unfold ReturnsExisting requestPayoutWithMeta
  simp only [commits_bind, commits_readDb, commits_orThrow]
  constructor
  · rintro ⟨result, s', ⟨_, _, ⟨rfl, rfl⟩, found, _, ⟨hfound, rfl⟩, hrun⟩, hcreated, hid, -⟩
    obtain rfl : recipient = found := Option.some.inj (hrecipient.symm.trans hfound)
    split at hrun
    · simp at hrun
    · next hblock =>
        simp only [commits_bind, commits_readDb, findTenant, commits_orThrow] at hrun
        obtain ⟨read, _, ⟨_, _, ⟨rfl, rfl⟩, hread, rfl⟩, hrun⟩ := hrun
        obtain rfl : tenant = read := Option.some.inj (htenant.symm.trans hread)
        split at hrun
        · next p hexisting =>
            simp only [commits_pure] at hrun
            rw [← hrun.1] at hid
            exact ⟨hblock, p, mem_of_existingPayout hexisting, hid⟩
        · simp only [commits_bind, commits_require, commits_createPayout, commits_pure] at hrun
          obtain ⟨_, _, -, _, _, -, rfl, -⟩ := hrun
          cases hcreated
  · rintro ⟨hblock, p, hp, hid⟩
    have hexisting : existingPayout (openPayouts db tenantId membershipId) = some p :=
      (existingPayout_eq_some fun q hq q' hq' => openPayouts_unique hq hq').mpr hp
    refine ⟨⟨p.id, p.status, p.period, p.totalCents, tenant.currency,
        evaluatePayoutReadiness
          { readinessInput tenant recipient (netCents (payableRows db tenantId membershipId))
              (readInput db.registry tenantId membershipId)
            with activePayout := some (p.id, activeStatus p) } now, false⟩, ⟨db, uuids⟩,
      ⟨db, ⟨db, uuids⟩, ⟨rfl, rfl⟩, recipient, ⟨db, uuids⟩, ⟨hrecipient, rfl⟩, ?_⟩, ?_⟩
    · rw [hblock, hexisting]
      simp only [commits_bind, commits_readDb, findTenant, commits_orThrow]
      refine ⟨tenant, ⟨db, uuids⟩, ⟨db, ⟨db, uuids⟩, ⟨rfl, rfl⟩, htenant, rfl⟩, ?_⟩
      exact (commits_pure ..).mpr ⟨rfl, rfl⟩
    · exact ⟨rfl, hid, rfl⟩

end Request

/-! ## What the wallet shows -/

theorem netCents_payableRows (db : Db) (tenantId membershipId : Uuid) :
    netCents (payableRows db tenantId membershipId) =
      bucketCents db tenantId membershipId .payable := by
  have hfilter : db.ledger.rows.filter (isPayableOf tenantId membershipId) =
      db.ledger.rows.filter (fun r => r.tenantId = tenantId ∧
        r.beneficiaryMembershipId = membershipId ∧ r.status = .payable) := by
    refine List.filter_congr fun r _ => ?_
    unfold isPayableOf
    rw [Bool.eq_iff_iff]
    simp [and_assoc]
  unfold netCents payableRows bucketCents
  rw [hfilter]
  exact ((List.perm_insertionSort _ _).map _).sum_eq

theorem wallet_of_rows {env : Env} {db : Db} {now : Instant} {membershipId tenantId : Uuid}
    {q : WalletQuery} {tenant : Tenant} {membership : Membership} {user : User}
    (htenant : db.registry.tenants.find? tenantId = some tenant)
    (hmembership : tenantMembership db.registry tenantId membershipId = some membership)
    (huser : db.registry.users.find? membership.userId = some user) :
    wallet env db now membershipId tenantId q =
      .ok (walletView env db now tenant user tenantId membershipId q) := by
  unfold wallet
  simp only [htenant, hmembership, huser]

/-- A wallet that could be shown, with the rows it was read from. -/
theorem wallet_eq_ok {env : Env} {db : Db} {now : Instant} {membershipId tenantId : Uuid}
    {q : WalletQuery} {view : WalletView} (h : wallet env db now membershipId tenantId q = .ok view) :
    ∃ tenant recipient user, db.registry.tenants.find? tenantId = some tenant ∧
      payoutRecipient db.registry tenantId membershipId = some recipient ∧
        recipient.emailVerifiedAt = user.emailVerifiedAt ∧
          view = walletView env db now tenant user tenantId membershipId q := by
  unfold wallet at h
  split at h
  · cases h
  · next tenant htenant =>
      split at h
      · cases h
      · next membership hmembership =>
          split at h
          · cases h
          · next user huser =>
              cases h
              refine ⟨tenant, ⟨membership.referralCode, user.fullName, user.email,
                user.emailVerifiedAt⟩, user, htenant, ?_, rfl, rfl⟩
              unfold payoutRecipient
              rw [hmembership, Option.bind_some, huser]
              rfl

/-- The wallet and a request of the member agree: the wallet says that the member can
request a payout if a request creates one, and shows the open payout that a request
returns. -/
def PromiseKept (env : Env) (db : Db) (now : Instant) (membershipId tenantId : Uuid)
    (uuids : Nat → Uuid) (view : WalletView) : Prop :=
  (view.payoutEligibility.requestable = true ↔
    Creates env db now membershipId tenantId uuids) ∧
  ∀ payoutId, view.payoutEligibility.activePayout.map Prod.fst = some payoutId ↔
    ReturnsExisting env db now membershipId tenantId uuids payoutId

/-- Nothing but a runtime block would refuse a first request: the e-mail is verified, the
balance reaches the threshold and all stored decisions are ready. -/
def OtherwiseReady (db : Db) (now : Instant) (tenant : Tenant) (recipient : PayoutRecipient)
    (tenantId membershipId : Uuid) : Prop :=
  recipient.emailVerifiedAt.isSome = true ∧ 0 < bucketCents db tenantId membershipId .payable ∧
    tenant.payoutMinCents ≤ bucketCents db tenantId membershipId .payable ∧
      isReady (readInput db.registry tenantId membershipId) now = true

/-- Without a runtime block every open payout is of the current month; with one no open
payout is, and the member is not ready otherwise. -/
def NothingHidden (env : Env) (db : Db) (now : Instant) (tenant : Tenant)
    (recipient : PayoutRecipient) (tenantId membershipId : Uuid) : Prop :=
  let period := env.monthKey now tenant.timezone
  match runtimePayoutBlock env db.registry now tenantId membershipId with
  | none => ∀ p ∈ openPayouts db tenantId membershipId, p.period = period
  | some _ => (∀ p ∈ openPayouts db tenantId membershipId, p.period ≠ period) ∧
      ¬OtherwiseReady db now tenant recipient tenantId membershipId

section Shown

variable {env : Env} {db : Db} {now : Instant} {tenantId membershipId : Uuid} {tenant : Tenant}
  {recipient : PayoutRecipient} {user : User} {q : WalletQuery}

theorem requestReadiness_requestable :
    (requestReadiness db now tenant recipient tenantId membershipId).requestable = true ↔
      OtherwiseReady db now tenant recipient tenantId membershipId := by
  unfold requestReadiness OtherwiseReady
  rw [requestable_iff rfl rfl rfl rfl, ← netCents_payableRows]
  simp [readinessInput]

theorem shown_active_iff (payoutId : Uuid) :
    (walletView env db now tenant user tenantId membershipId q).payoutEligibility.activePayout.map
      Prod.fst = some payoutId ↔
        ∃ p ∈ openPayouts db tenantId membershipId,
          p.period = env.monthKey now tenant.timezone ∧ p.id = payoutId := by
  have hactive : ∀ p, existingPayout (periodPayouts db tenantId membershipId
      (env.monthKey now tenant.timezone)) = some p ↔ p ∈ openPayouts db tenantId membershipId ∧
        p.period = env.monthKey now tenant.timezone := by
    intro p
    rw [existingPayout_eq_some fun a ha b hb => openPayouts_unique
      (mem_periodPayouts.mp ha).1 (mem_periodPayouts.mp hb).1, mem_periodPayouts]
  unfold walletView eligibility
  simp only [Option.map_map, Option.map_eq_some_iff, hactive, Function.comp_apply]
  constructor
  · rintro ⟨p, ⟨hp, hperiod⟩, hid⟩
    exact ⟨p, hp, hperiod, hid⟩
  · rintro ⟨p, hp, hperiod, hid⟩
    exact ⟨p, ⟨hp, hperiod⟩, hid⟩

theorem shown_requestable_iff (hemail : recipient.emailVerifiedAt = user.emailVerifiedAt) :
    (walletView env db now tenant user tenantId membershipId q).payoutEligibility.requestable =
      true ↔ (∀ p ∈ openPayouts db tenantId membershipId,
        p.period ≠ env.monthKey now tenant.timezone) ∧
          OtherwiseReady db now tenant recipient tenantId membershipId := by
  have hnone : existingPayout (periodPayouts db tenantId membershipId
      (env.monthKey now tenant.timezone)) = none ↔ ∀ p ∈ openPayouts db tenantId membershipId,
        p.period ≠ env.monthKey now tenant.timezone := by
    rw [existingPayout_eq_none, List.eq_nil_iff_forall_not_mem]
    simp only [mem_periodPayouts, not_and]
  unfold walletView
  simp only
  rw [eligibility_requestable _ _ _ rfl, requestable_iff rfl rfl rfl rfl, ← hnone]
  unfold OtherwiseReady
  rw [hemail]
  simp only [Option.map_eq_none_iff]
  constructor
  · rintro ⟨hverified, hpositive, hthreshold, hactive, hready⟩
    exact ⟨hactive, hverified, hpositive, hthreshold, hready⟩
  · rintro ⟨hactive, hverified, hpositive, hthreshold, hready⟩
    exact ⟨hverified, hpositive, hthreshold, hactive, hready⟩

end Shown

/-- In a reachable database the wallet keeps its promise to a member exactly where neither
the month of an open payout nor a runtime block makes a difference. -/
theorem wallet_promise_iff {env : Env} {db : Db} (h : ReachableDb env db) {now : Instant}
    {membershipId tenantId : Uuid} {q : WalletQuery} {view : WalletView}
    (hview : wallet env db now membershipId tenantId q = .ok view) {tenant : Tenant}
    (htenant : db.registry.tenants.find? tenantId = some tenant) {recipient : PayoutRecipient}
    (hrecipient : payoutRecipient db.registry tenantId membershipId = some recipient)
    {uuids : Nat → Uuid} (hfresh : ∀ p ∈ db.payouts, p.id ≠ uuids 0) :
    PromiseKept env db now membershipId tenantId uuids view ↔
      NothingHidden env db now tenant recipient tenantId membershipId := by
  obtain ⟨tenant', recipient', user, htenant', hrecipient', hemail, rfl⟩ := wallet_eq_ok hview
  obtain rfl : tenant = tenant' := Option.some.inj (htenant.symm.trans htenant')
  obtain rfl : recipient = recipient' := Option.some.inj (hrecipient.symm.trans hrecipient')
  unfold PromiseKept NothingHidden
  simp only [shown_requestable_iff hemail, shown_active_iff,
    creates_iff (reachable_good h).sound.batch htenant hrecipient hfresh,
    returnsExisting_iff htenant hrecipient, requestReadiness_requestable]
  cases hblock : runtimePayoutBlock env db.registry now tenantId membershipId with
  | none =>
      simp only [true_and]
      constructor
      · rintro ⟨-, hactive⟩ p hp
        obtain ⟨p', hp', hperiod, -⟩ := (hactive p.id).mpr ⟨p, hp, rfl⟩
        rw [openPayouts_unique hp hp']
        exact hperiod
      · intro hcurrent
        refine ⟨and_congr_left fun _ => ?_, fun payoutId => ?_⟩
        · rw [List.eq_nil_iff_forall_not_mem]
          exact ⟨fun hno p hp => hno p hp (hcurrent p hp), fun hno p hp => absurd hp (hno p)⟩
        · constructor
          · rintro ⟨p, hp, -, hid⟩
            exact ⟨p, hp, hid⟩
          · rintro ⟨p, hp, hid⟩
            exact ⟨p, hp, hcurrent p hp, hid⟩
  | some block =>
      simp only [reduceCtorEq, false_and, iff_false, not_and, not_exists]
      constructor
      · rintro ⟨hready, hactive⟩
        have hperiods : ∀ p ∈ openPayouts db tenantId membershipId,
            p.period ≠ env.monthKey now tenant.timezone := fun p hp hperiod =>
          hactive p.id p hp hperiod rfl
        exact ⟨hperiods, hready hperiods⟩
      · rintro ⟨hperiods, hready⟩
        exact ⟨fun _ => hready, fun payoutId p hp hperiod _ => hperiods p hp hperiod⟩

namespace Demo

open Engine.Demo

def query : WalletQuery := ⟨1, 20, none, none⟩

/-- January up to the instant 0, then February. -/
def monthlyEnv : Env :=
  { Engine.Demo.env with monthKey := fun t _ => if t ≤ 0 then "2026-01" else "2026-02" }

/-- The seller's money, requested in January. -/
def requestedDb : Db :=
  run (Step.apply monthlyEnv) (sold ++ [step 300 (.requestPayout 0 2 1)]) empty

theorem requestedDb_reachable : ReachableDb monthlyEnv requestedDb :=
  (Reachable.start empty_initial).run _

def ada : User := ⟨10, "Ada", "ada@example.org", some 0⟩

def adaRecipient : PayoutRecipient := ⟨"SELLER", "Ada", "ada@example.org", some 0⟩

end Demo

/-- Before any request the wallet of the seller says that it can request its money, and a
request creates a payout. -/
theorem wallet_promise_iff_sold :
    PromiseKept Engine.Demo.env (Engine.Demo.after Engine.Demo.sold) 0 2 1
      (Engine.Demo.uuidsFrom 300)
      (walletView Engine.Demo.env (Engine.Demo.after Engine.Demo.sold) 0 Engine.Demo.tenant
        Demo.ada 1 2 Demo.query) := by
  have htenant : (Engine.Demo.after Engine.Demo.sold).registry.tenants.find? 1 =
      some Engine.Demo.tenant := by decide +kernel
  have hmember : tenantMembership (Engine.Demo.after Engine.Demo.sold).registry 1 2 =
      some Engine.Demo.seller := by decide +kernel
  have huser : (Engine.Demo.after Engine.Demo.sold).registry.users.find? 10 = some Demo.ada := by
    decide +kernel
  have hrecipient : payoutRecipient (Engine.Demo.after Engine.Demo.sold).registry 1 2 =
      some Demo.adaRecipient := by decide +kernel
  have hblock : runtimePayoutBlock Engine.Demo.env (Engine.Demo.after Engine.Demo.sold).registry
      0 1 2 = none := by decide +kernel
  refine (wallet_promise_iff (Engine.Demo.reachable Engine.Demo.sold)
    (wallet_of_rows htenant hmember huser) htenant hrecipient (by decide +kernel)).mpr ?_
  unfold NothingHidden
  rw [hblock]
  decide +kernel

/-- In February the wallet offers the seller a new request, and a request returns the one
of January. -/
theorem january_request_hidden :
    ReachableDb Demo.monthlyEnv Demo.requestedDb ∧
      ∃ view, wallet Demo.monthlyEnv Demo.requestedDb 1 2 1 Demo.query = .ok view ∧
        view.payoutEligibility.requestable = true ∧ view.payoutEligibility.activePayout = none ∧
          ReturnsExisting Demo.monthlyEnv Demo.requestedDb 1 2 1 (Engine.Demo.uuidsFrom 400) 300 ∧
            ¬PromiseKept Demo.monthlyEnv Demo.requestedDb 1 2 1 (Engine.Demo.uuidsFrom 400)
              view := by
  have htenant : Demo.requestedDb.registry.tenants.find? 1 = some Engine.Demo.tenant := by
    decide +kernel
  have hmember : tenantMembership Demo.requestedDb.registry 1 2 = some Engine.Demo.seller := by
    decide +kernel
  have huser : Demo.requestedDb.registry.users.find? 10 = some Demo.ada := by decide +kernel
  have hrecipient : payoutRecipient Demo.requestedDb.registry 1 2 = some Demo.adaRecipient := by
    decide +kernel
  have hreturns : ReturnsExisting Demo.monthlyEnv Demo.requestedDb 1 2 1
      (Engine.Demo.uuidsFrom 400) 300 :=
    (returnsExisting_iff htenant hrecipient 300).mpr (by decide +kernel)
  have hhidden : (walletView Demo.monthlyEnv Demo.requestedDb 1 Engine.Demo.tenant Demo.ada 1 2
      Demo.query).payoutEligibility.activePayout = none := by decide +kernel
  refine ⟨Demo.requestedDb_reachable, _, wallet_of_rows htenant hmember huser, by decide +kernel,
    hhidden, hreturns, ?_⟩
  intro hkept
  have hshown := (hkept.2 300).mpr hreturns
  rw [hhidden] at hshown
  cases hshown

end Refearn.Wallet
