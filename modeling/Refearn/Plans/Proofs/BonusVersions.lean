import Refearn.Plans.Proofs.Readers
/-!
# Bonus versions

A change of the bonus is a new version of the plan. It starts at the first free instant after one
clock reading and copies the plan that is in force at a later one, so it copies another plan than
the one it follows exactly if a version with other terms starts between the two.
-/

namespace Refearn.Plans

open Support Support.Transaction
open Shared (PlanLevelRate byLevel rateSum)

/-! ## The statements of the transaction -/

section Statements

variable (s s' : PlanSession)

@[simp] theorem commits_newDate (t : Instant) :
    Commits newDate s t s' ↔
      s.clock 0 = t ∧ { s with clock := fun n => s.clock (n + 1) } = s' := by
  unfold Commits
  constructor
  · intro h
    cases h
    exact ⟨rfl, rfl⟩
  · rintro ⟨rfl, rfl⟩
    rfl

@[simp] theorem commits_genRandomUuid (id : Uuid) :
    Commits genRandomUuid s id s' ↔
      s.uuids 0 = id ∧ { s with uuids := fun n => s.uuids (n + 1) } = s' := by
  unfold Commits
  constructor
  · intro h
    cases h
    exact ⟨rfl, rfl⟩
  · rintro ⟨rfl, rfl⟩
    rfl

@[simp] theorem commits_readPlans (plans : Table PlanRow) :
    Commits readPlans s plans s' ↔ s.plans = plans ∧ s = s' := by
  unfold Commits
  constructor
  · intro h
    cases h
    exact ⟨rfl, rfl⟩
  · rintro ⟨rfl, rfl⟩
    rfl

@[simp] theorem commits_writePlans (plans : Table PlanRow) (u : PUnit) :
    Commits (writePlans plans) s u s' ↔ { s with plans := plans } = s' :=
  commits_modify ..

end Statements

/-- The levels of a new plan are those asked for, and nothing else has happened to the plans. -/
theorem commits_createLevels {rates : List PlanLevelRate} {s s' : PlanSession}
    {levels : List CommissionPlanLevel} (h : Commits (createLevels rates) s levels s') :
    levels.map (fun l => (⟨l.level, l.rateBps⟩ : PlanLevelRate)) = rates ∧
      s'.plans = s.plans ∧ s'.clock = s.clock := by
  induction rates generalizing s levels with
  | nil =>
      obtain ⟨rfl, rfl⟩ := (commits_pure ..).mp h
      exact ⟨rfl, rfl, rfl⟩
  | cons l rest ih =>
      obtain ⟨id, t, hid, h⟩ := (commits_bind ..).mp h
      obtain ⟨rfl, rfl⟩ := (commits_genRandomUuid ..).mp hid
      obtain ⟨tail, u, htail, h⟩ := (commits_bind ..).mp h
      obtain ⟨rfl, rfl⟩ := (commits_pure ..).mp h
      obtain ⟨hrates, hplans, hclock⟩ := ih htail
      exact ⟨congrArg (List.cons l) hrates, hplans, hclock⟩

theorem commits_createPlan {row : PlanRow} {s s' : PlanSession} {u : PUnit}
    (h : Commits (createPlan row) s u s') :
    startsAt s.plans row.tenantId row.effectiveFrom = false ∧
      ∃ inserted, s.plans.insert? row = some inserted ∧ s' = { s with plans := inserted } := by
  obtain ⟨plans, _, hread, h⟩ := (commits_bind ..).mp h
  obtain ⟨rfl, rfl⟩ := (commits_readPlans ..).mp hread
  obtain ⟨_, _, hchecks, h⟩ := (commits_bind ..).mp h
  obtain ⟨-, rfl⟩ := (commits_require ..).mp hchecks
  obtain ⟨_, _, hlevels, h⟩ := (commits_bind ..).mp h
  obtain ⟨-, rfl⟩ := (commits_require ..).mp hlevels
  obtain ⟨_, _, hcheck, h⟩ := (commits_bind ..).mp h
  obtain ⟨hfree, rfl⟩ := (commits_require ..).mp hcheck
  obtain ⟨inserted, _, hthrow, h⟩ := (commits_bind ..).mp h
  obtain ⟨hinsert, rfl⟩ := (commits_orThrow ..).mp hthrow
  exact ⟨hfree, inserted, hinsert, ((commits_writePlans ..).mp h).symm⟩

theorem commits_finalizePlan {row : PlanRow} {s s' : PlanSession} {u : PUnit}
    (h : Commits (finalizePlan row) s u s') :
    s' = { s with
      plans := s.plans.updateKey row.id markFinalized markFinalized_keepsIndexes } := by
  obtain ⟨plans, _, hread, h⟩ := (commits_bind ..).mp h
  obtain ⟨rfl, rfl⟩ := (commits_readPlans ..).mp hread
  obtain ⟨_, _, hchecks, h⟩ := (commits_bind ..).mp h
  obtain ⟨-, rfl⟩ := (commits_require ..).mp hchecks
  exact ((commits_writePlans ..).mp h).symm

/-- The version that a transaction writes, from what its caller has asked for. -/
structure NewVersion (actor : ActorContext) (plans : Table PlanRow) (start : Instant)
    (data : PlanSnapshotInput) (row : PlanRow) : Prop where
  tenantId : row.tenantId = actor.tenantId
  version : row.version = maxVersion plans actor.tenantId + 1
  finalized : row.finalized = true
  name : row.name = data.name
  poolRateBps : row.poolRateBps = data.poolRateBps
  depth : row.depth = data.depth
  levels : levelRates row = data.levels.insertionSort byLevel
  bonus : (⟨row.fastStartBps, row.fastStartDays, row.matchingBps⟩ : PlanBonusInput) = data.bonus
  effectiveFrom : row.effectiveFrom = start
  free : startsAt plans actor.tenantId start = false

theorem commits_nextImmediateEffectiveFrom {tenantId : Uuid} {s s' : PlanSession} {start : Instant}
    (h : Commits (nextImmediateEffectiveFrom tenantId) s start s') :
    start = nextFreeInstant s.plans tenantId (s.clock 0) ∧ s'.plans = s.plans ∧
      s'.clock = fun n => s.clock (n + 1) := by
  obtain ⟨candidate, _, hdraw, h⟩ := (commits_bind ..).mp h
  obtain ⟨rfl, rfl⟩ := (commits_newDate ..).mp hdraw
  obtain ⟨plans, _, hread, h⟩ := (commits_bind ..).mp h
  obtain ⟨rfl, rfl⟩ := (commits_readPlans ..).mp hread
  obtain ⟨rfl, rfl⟩ := (commits_pure ..).mp h
  exact ⟨rfl, rfl, rfl⟩

/-- A version without a requested start appends one row to the plans. -/
theorem commits_createImmutableVersion {actor : ActorContext} {snapshot : PlanTx PlanSnapshotInput}
    {auditAction : String} {s s' : PlanSession} {result : PlanRow}
    (h : Commits (createImmutableVersion actor none snapshot auditAction) s result s')
    (hkeeps : ∀ t t' data, Commits snapshot t data t' → t'.plans = t.plans) :
    ∃ t t' data row, t.plans = s.plans ∧ t.clock = (fun n => s.clock (n + 1)) ∧
      Commits snapshot t data t' ∧
      NewVersion actor s.plans (nextFreeInstant s.plans actor.tenantId (s.clock 0)) data row ∧
      s'.plans.rows = s.plans.rows ++ [row] := by
  unfold createImmutableVersion at h
  rw [commits_mapErrors] at h
  unfold insertVersion at h
  obtain ⟨plans, _, hread, h⟩ := (commits_bind ..).mp h
  obtain ⟨rfl, rfl⟩ := (commits_readPlans ..).mp hread
  obtain ⟨start, t, hstart, h⟩ := (commits_bind ..).mp h
  obtain ⟨rfl, hplans, hclock⟩ := commits_nextImmediateEffectiveFrom hstart
  obtain ⟨data, t', hdata, h⟩ := (commits_bind ..).mp h
  have hplans' : t'.plans = s.plans := (hkeeps t t' data hdata).trans hplans
  obtain ⟨id, _, hid, h⟩ := (commits_bind ..).mp h
  obtain ⟨rfl, rfl⟩ := (commits_genRandomUuid ..).mp hid
  obtain ⟨createdAt, _, hcreated, h⟩ := (commits_bind ..).mp h
  obtain ⟨rfl, rfl⟩ := (commits_newDate ..).mp hcreated
  obtain ⟨levels, u, hlevels, h⟩ := (commits_bind ..).mp h
  obtain ⟨hrates, huplans, -⟩ := commits_createLevels hlevels
  have huplans' : u.plans = s.plans := huplans.trans hplans'
  obtain ⟨_, v, hinsert, h⟩ := (commits_bind ..).mp h
  obtain ⟨hfree, inserted, hinserted, rfl⟩ := commits_createPlan hinsert
  rw [huplans'] at hfree hinserted
  obtain ⟨_, w, hseal, h⟩ := (commits_bind ..).mp h
  have hsealed := commits_finalizePlan hseal
  subst hsealed
  obtain ⟨_, x, haudit, h⟩ := (commits_bind ..).mp h
  have haudited := (commits_modify ..).mp haudit
  subst haudited
  obtain ⟨_, _, hsum, h⟩ := (commits_bind ..).mp h
  obtain ⟨-, rfl⟩ := (commits_require ..).mp hsum
  obtain ⟨-, rfl⟩ := (commits_pure ..).mp h
  refine ⟨t, t', data, _, hplans, hclock, hdata, ?_,
    Table.rows_updateKey_insert? markFinalized markFinalized_keepsIndexes hinserted⟩
  exact
    { tenantId := rfl
      version := rfl
      finalized := rfl
      name := rfl
      poolRateBps := rfl
      depth := rfl
      levels := congrArg (List.insertionSort byLevel) hrates
      bonus := rfl
      effectiveFrom := rfl
      free := hfree }

theorem commits_bonusSnapshot {actor : ActorContext} {input : PlanBonusInput}
    {s s' : PlanSession} {data : PlanSnapshotInput}
    (h : Commits (bonusSnapshot actor input) s data s') :
    ∃ active, activePlan s.plans actor.tenantId (s.clock 0) = some active ∧
      data = ⟨active.name, active.poolRateBps, active.depth, levelRates active, input⟩ ∧
      s'.plans = s.plans := by
  obtain ⟨now, _, hdraw, h⟩ := (commits_bind ..).mp h
  obtain ⟨rfl, rfl⟩ := (commits_newDate ..).mp hdraw
  obtain ⟨plans, _, hread, h⟩ := (commits_bind ..).mp h
  obtain ⟨rfl, rfl⟩ := (commits_readPlans ..).mp hread
  obtain ⟨active, _, hthrow, h⟩ := (commits_bind ..).mp h
  obtain ⟨hactive, rfl⟩ := (commits_orThrow ..).mp hthrow
  obtain ⟨rfl, rfl⟩ := (commits_pure ..).mp h
  exact ⟨active, hactive, rfl, rfl⟩

/-! ## Where a version starts -/

theorem mem_starts {plans : Table PlanRow} {tenantId : Uuid} (t : Instant)
    (h : startsAt plans tenantId t = true) : t ∈ plans.rows.map PlanRow.effectiveFrom := by
  obtain ⟨p, hp, hstarts⟩ := List.any_eq_true.mp h
  rw [Bool.and_eq_true, beq_iff_eq, beq_iff_eq] at hstarts
  exact List.mem_map.mpr ⟨p, hp, hstarts.2⟩

/-- The search ends, and at the first instant from the clock reading on that is free. -/
theorem nextFreeInstant_spec (plans : Table PlanRow) (tenantId : Uuid) (candidate : Instant) :
    candidate ≤ nextFreeInstant plans tenantId candidate ∧
      startsAt plans tenantId (nextFreeInstant plans tenantId candidate) = false ∧
      ∀ t, candidate ≤ t → t < nextFreeInstant plans tenantId candidate →
        startsAt plans tenantId t = true := by
  refine ⟨le_firstFree _ _ _, ?_, fun t hfrom hto => taken_of_lt_firstFree _ hfrom hto⟩
  have hfree := firstFree_not_taken (startsAt plans tenantId) mem_starts candidate
  rw [List.length_map] at hfree
  exact hfree

/-! ## What a bonus version copies -/

/-- The plans pay alike, but for their bonuses. -/
structure SameTerms (p q : PlanRow) : Prop where
  name : p.name = q.name
  poolRateBps : p.poolRateBps = q.poolRateBps
  depth : p.depth = q.depth
  levels : levelRates p = levelRates q

theorem SameTerms.refl (p : PlanRow) : SameTerms p p := ⟨rfl, rfl, rfl, rfl⟩

theorem SameTerms.symm {p q : PlanRow} (h : SameTerms p q) : SameTerms q p :=
  ⟨h.name.symm, h.poolRateBps.symm, h.depth.symm, h.levels.symm⟩

theorem SameTerms.trans {p q r : PlanRow} (h : SameTerms p q) (h' : SameTerms q r) :
    SameTerms p r :=
  ⟨h.name.trans h'.name, h.poolRateBps.trans h'.poolRateBps, h.depth.trans h'.depth,
    h.levels.trans h'.levels⟩

/-- A sealed plan of the tenant is in force. -/
def SealedInForce (plans : Table PlanRow) (tenantId : Uuid) (t : Instant) (p : PlanRow) : Prop :=
  InForce PlanRow.effectiveFrom (plans.rows.filter (sealedOf tenantId)) t p

theorem SealedInForce.unique {plans : Table PlanRow} {tenantId : Uuid} {t : Instant}
    {p q : PlanRow} (hp : SealedInForce plans tenantId t p)
    (hq : SealedInForce plans tenantId t q) : p = q :=
  InForce.unique hp hq (starts_inj _ tenant_of_sealedOf)

theorem levelRates_sorted (p : PlanRow) :
    (levelRates p).insertionSort byLevel = levelRates p := by
  have htrans : IsTrans PlanLevelRate byLevel := ⟨fun _ _ _ => Nat.le_trans⟩
  have htotal : Std.Total byLevel := ⟨fun l l' => Nat.le_total l.level l'.level⟩
  exact List.Pairwise.insertionSort_eq (List.pairwise_insertionSort byLevel _)

/-- A bonus version has the terms of the plan that the second clock reading finds. -/
theorem commits_createBonusVersion {actor : ActorContext} {input : PlanBonusInput}
    {s s' : PlanSession} {result : PlanBonus}
    (h : Commits (createBonusVersion actor input) s result s') :
    ∃ active created, SealedInForce s.plans actor.tenantId (s.clock 1) active ∧
      s'.plans.rows = s.plans.rows ++ [created] ∧ SameTerms active created ∧
      NewVersion actor s.plans (nextFreeInstant s.plans actor.tenantId (s.clock 0))
        ⟨active.name, active.poolRateBps, active.depth, levelRates active, input⟩ created := by
  obtain ⟨row, _, hcreate, hreturn⟩ := (commits_bind ..).mp h
  obtain ⟨-, rfl⟩ := (commits_pure ..).mp hreturn
  obtain ⟨t, t', data, created, hplans, hclock, hdata, hnew, hrows⟩ :=
    commits_createImmutableVersion hcreate fun t t' data hdata => by
      obtain ⟨_, -, -, hkept⟩ := commits_bonusSnapshot hdata
      exact hkept
  obtain ⟨active, hactive, rfl, -⟩ := commits_bonusSnapshot hdata
  rw [hplans, hclock] at hactive
  refine ⟨active, created, activePlan_eq_some.mp hactive, hrows, ?_, hnew⟩
  exact
    { name := hnew.name.symm
      poolRateBps := hnew.poolRateBps.symm
      depth := hnew.depth.symm
      levels := (hnew.levels.trans (levelRates_sorted active)).symm }

/-! ## When only the bonus changes -/

/-- One version is added to the plans: it carries the next number, starts where nothing else
starts, has the asked bonus, and its terms are those of the sealed plan that was in force
immediately before. -/
def OnlyBonusChanges (plans plans' : Table PlanRow) (tenantId : Uuid) (input : PlanBonusInput) :
    Prop :=
  ∃ created previous, plans'.rows = plans.rows ++ [created] ∧ created.tenantId = tenantId ∧
    created.finalized = true ∧ created.version = maxVersion plans tenantId + 1 ∧
    startsAt plans tenantId created.effectiveFrom = false ∧
    (⟨created.fastStartBps, created.fastStartDays, created.matchingBps⟩ : PlanBonusInput) =
      input ∧
    SealedInForce plans tenantId (created.effectiveFrom - 1) previous ∧ SameTerms previous created

/-- A sealed plan is in force at the first instant, and no plan with other terms has taken over
from it by the second one. -/
def Undisturbed (plans : Table PlanRow) (tenantId : Uuid) (t t' : Instant) : Prop :=
  ∃ p, SealedInForce plans tenantId t p ∧
    ∀ q, SealedInForce plans tenantId t' q → t < q.effectiveFrom → SameTerms p q

/-- Undisturbed means that the plans in force at both ends have the same terms. -/
theorem undisturbed_iff {plans : Table PlanRow} {tenantId : Uuid} {t t' : Instant}
    (ht : t ≤ t') :
    Undisturbed plans tenantId t t' ↔ ∃ p q, SealedInForce plans tenantId t p ∧
      SealedInForce plans tenantId t' q ∧ SameTerms p q := by
  constructor
  · rintro ⟨p, hp, hquiet⟩
    obtain ⟨q, hq⟩ := exists_inForce hp.1 (le_trans hp.2.1 ht)
    refine ⟨p, q, hp, hq, ?_⟩
    by_cases hlate : t < q.effectiveFrom
    · exact hquiet q hq hlate
    · have hearly : SealedInForce plans tenantId t q := InForce.earlier hq ht (not_lt.mp hlate)
      rw [hp.unique hearly]
      exact .refl q
  · rintro ⟨p, q, hp, hq, hterms⟩
    exact ⟨p, hp, fun r hr _ => hr.unique hq ▸ hterms⟩

/-- A bonus version changes only the bonus exactly if no plan with other terms takes over
between the second clock reading and the instant before the version starts, whichever of the two
comes first. -/
theorem createBonusVersion_exact {actor : ActorContext} {input : PlanBonusInput}
    {s s' : PlanSession} {result : PlanBonus}
    (h : Commits (createBonusVersion actor input) s result s') :
    OnlyBonusChanges s.plans s'.plans actor.tenantId input ↔
      Undisturbed s.plans actor.tenantId
        (min (s.clock 1) (nextFreeInstant s.plans actor.tenantId (s.clock 0) - 1))
        (max (s.clock 1) (nextFreeInstant s.plans actor.tenantId (s.clock 0) - 1)) := by
  obtain ⟨active, created, hactive, hrows, hterms, hnew⟩ := commits_createBonusVersion h
  rw [undisturbed_iff min_le_max]
  constructor
  · rintro ⟨created', previous, hrows', -, -, -, -, -, hprevious, hsame⟩
    have hcreated : created = created' :=
      List.cons.inj (List.append_cancel_left (hrows.symm.trans hrows')) |>.1
    rw [← hcreated, hnew.effectiveFrom] at hprevious
    rw [← hcreated] at hsame
    have hboth : SameTerms active previous := hterms.trans hsame.symm
    rcases le_total (s.clock 1)
      (nextFreeInstant s.plans actor.tenantId (s.clock 0) - 1) with hle | hle
    · rw [min_eq_left hle, max_eq_right hle]
      exact ⟨active, previous, hactive, hprevious, hboth⟩
    · rw [min_eq_right hle, max_eq_left hle]
      exact ⟨previous, active, hprevious, hactive, hboth.symm⟩
  · rintro ⟨p, q, hp, hq, hpq⟩
    obtain ⟨previous, hprevious, hboth⟩ : ∃ previous, SealedInForce s.plans actor.tenantId
        (nextFreeInstant s.plans actor.tenantId (s.clock 0) - 1) previous ∧
        SameTerms active previous := by
      rcases le_total (s.clock 1)
        (nextFreeInstant s.plans actor.tenantId (s.clock 0) - 1) with hle | hle
      · rw [min_eq_left hle] at hp
        rw [max_eq_right hle] at hq
        exact ⟨q, hq, hactive.unique hp ▸ hpq⟩
      · rw [min_eq_right hle] at hp
        rw [max_eq_left hle] at hq
        exact ⟨p, hp, hactive.unique hq ▸ hpq.symm⟩
    refine ⟨created, previous, hrows, hnew.tenantId, hnew.finalized, hnew.version, ?_, hnew.bonus,
      ?_, hboth.symm.trans hterms⟩
    · rw [hnew.effectiveFrom]
      exact hnew.free
    · rw [hnew.effectiveFrom]
      exact hprevious

namespace Demo

/-- Twenty percent to the seller from eleven on. -/
def scheduledPlan : PlanRow :=
  ⟨7, 1, 2, true, "Second", 2000, 1, 0, 0, 0, 11, none, 9, [⟨8, 0, 2000⟩]⟩

/-- A session whose clock reads `10` first and then `later`. -/
def sessionAt (later : Instant) : PlanSession where
  plans := ⟨[firstPlan, scheduledPlan], by decide, by decide⟩
  auditLogs := []
  clock n := if n = 0 then 10 else later
  uuids := Engine.Demo.uuidsFrom 100

def owner : ActorContext := ⟨some 20, 1⟩

def fastStart : PlanBonusInput := ⟨500, 30, 0⟩

theorem sessionAt_commits (later : Instant)
    (hruns : ((createBonusVersion owner fastStart).run (sessionAt later)).toOption.any
      (fun _ => true) = true) :
    ∃ result, Commits (createBonusVersion owner fastStart) (sessionAt later) result
      ((createBonusVersion owner fastStart).commit (sessionAt later)) := by
  obtain ⟨result, h, -⟩ := exists_commits_of_run (p := fun _ => true) hruns
  exact ⟨result, h⟩

end Demo

/-- Both readings come before the scheduled plan: the version copies the first one. -/
theorem createBonusVersion_exact_unhurried :
    OnlyBonusChanges (Demo.sessionAt 10).plans
      ((createBonusVersion Demo.owner Demo.fastStart).commit (Demo.sessionAt 10)).plans 1
      Demo.fastStart := by
  obtain ⟨result, h⟩ := Demo.sessionAt_commits 10 (by decide)
  refine (createBonusVersion_exact h).mpr ?_
  have hstart : nextFreeInstant (Demo.sessionAt 10).plans 1 10 = 10 := by decide
  change Undisturbed (Demo.sessionAt 10).plans 1
    (min 10 (nextFreeInstant (Demo.sessionAt 10).plans 1 10 - 1))
    (max 10 (nextFreeInstant (Demo.sessionAt 10).plans 1 10 - 1))
  rw [hstart]
  have hearly : SealedInForce (Demo.sessionAt 10).plans 1 (min 10 (10 - 1)) Demo.firstPlan :=
    activePlan_eq_some.mp (by decide)
  have hlate : SealedInForce (Demo.sessionAt 10).plans 1 (max 10 (10 - 1)) Demo.firstPlan :=
    activePlan_eq_some.mp (by decide)
  exact ⟨Demo.firstPlan, hearly, fun q hq _ => hlate.unique hq ▸ .refl Demo.firstPlan⟩

/-- The second reading comes after the scheduled plan has started: the version that starts at ten
copies the plan of eleven, not the one it follows. -/
theorem createBonusVersion_copies_later_plan :
    ∃ result s', Commits (createBonusVersion Demo.owner Demo.fastStart) (Demo.sessionAt 12)
        result s' ∧
      ¬OnlyBonusChanges (Demo.sessionAt 12).plans s'.plans 1 Demo.fastStart := by
  obtain ⟨result, h⟩ := Demo.sessionAt_commits 12 (by decide)
  refine ⟨result, _, h, ?_⟩
  obtain ⟨active, created, hactive, hrows, hterms, hnew⟩ := commits_createBonusVersion h
  rintro ⟨created', previous, hrows', -, -, -, -, -, hprevious, hsame⟩
  have hcreated : created = created' :=
    (List.cons.inj (List.append_cancel_left (hrows.symm.trans hrows'))).1
  have hstart : created.effectiveFrom = 10 := hnew.effectiveFrom.trans (by decide)
  rw [← hcreated, hstart] at hprevious
  rw [← hcreated] at hsame
  have hscheduled : SealedInForce (Demo.sessionAt 12).plans 1 12 Demo.scheduledPlan :=
    activePlan_eq_some.mp (by decide)
  have hfirst : SealedInForce (Demo.sessionAt 12).plans 1 (10 - 1) Demo.firstPlan :=
    activePlan_eq_some.mp (by decide)
  have hname : Demo.scheduledPlan.name = Demo.firstPlan.name := by
    calc
      Demo.scheduledPlan.name = active.name := by rw [hscheduled.unique hactive]
      _ = created.name := hterms.name
      _ = previous.name := hsame.name.symm
      _ = Demo.firstPlan.name := by rw [hfirst.unique hprevious]
  exact absurd hname (by decide)

end Refearn.Plans
