import Refearn.Plans.Plans
import Refearn.Auth.Resolve
import Refearn.Engine.Run
/-!
# Readers of the plan in force

Five queries ask for the plan of a tenant at an instant. No two plans of a tenant start at one
instant, so their ways to break ties never matter; what matters is that two of them also look at
plans that are not sealed.
-/

namespace Refearn.Plans

open Support

/-! ## Starts -/

theorem clash_row_comm (p q : PlanRow) : clash p q = clash q p := by
  change (p.tenantId == q.tenantId && (p.effectiveFrom == q.effectiveFrom || p.version == q.version)) =
    (q.tenantId == p.tenantId && (q.effectiveFrom == p.effectiveFrom || q.version == p.version))
  rw [Bool.beq_comm (a := p.tenantId), Bool.beq_comm (a := p.effectiveFrom),
    Bool.beq_comm (a := p.version)]

/-- The plans of a tenant start at instants of their own. -/
theorem eq_of_effectiveFrom {plans : Table PlanRow} {p q : PlanRow} (hp : p ∈ plans)
    (hq : q ∈ plans) (htenant : p.tenantId = q.tenantId)
    (hstart : p.effectiveFrom = q.effectiveFrom) : p = q := by
  refine Table.eq_of_clash clash_row_comm hp hq ?_
  change (p.tenantId == q.tenantId &&
    (p.effectiveFrom == q.effectiveFrom || p.version == q.version)) = true
  rw [htenant, hstart, beq_self_eq_true, beq_self_eq_true]
  rfl

def ofTenant (tenantId : Uuid) (p : PlanRow) : Bool := p.tenantId == tenantId

def sealedOf (tenantId : Uuid) (p : PlanRow) : Bool := p.tenantId == tenantId && p.finalized

theorem starts_inj {plans : Table PlanRow} {tenantId : Uuid} (keep : PlanRow → Bool)
    (hkeep : ∀ p, keep p = true → p.tenantId = tenantId) :
    ∀ p ∈ plans.rows.filter keep, ∀ q ∈ plans.rows.filter keep,
      p.effectiveFrom = q.effectiveFrom → p = q := by
  intro p hp q hq hstart
  obtain ⟨hp, hpt⟩ := List.mem_filter.mp hp
  obtain ⟨hq, hqt⟩ := List.mem_filter.mp hq
  exact eq_of_effectiveFrom hp hq ((hkeep p hpt).trans (hkeep q hqt).symm) hstart

theorem tenant_of_ofTenant {tenantId : Uuid} (p : PlanRow) (h : ofTenant tenantId p = true) :
    p.tenantId = tenantId :=
  beq_iff_eq.mp h

theorem tenant_of_sealedOf {tenantId : Uuid} (p : PlanRow) (h : sealedOf tenantId p = true) :
    p.tenantId = tenantId :=
  beq_iff_eq.mp (Bool.and_elim_left h)

instance : Std.Total newerRow where
  total p q := by
    unfold newerRow
    rcases lt_trichotomy p.effectiveFrom q.effectiveFrom with h | h | h
    · exact .inr (.inl h)
    · rcases Nat.le_total p.version q.version with hv | hv
      · exact .inr (.inr ⟨h, hv⟩)
      · exact .inl (.inr ⟨h.symm, hv⟩)
    · exact .inl (.inl h)

instance : IsTrans PlanRow newerRow where
  trans p q r hpq hqr := by
    unfold newerRow at *
    rcases hpq with h | ⟨h, hv⟩
    · rcases hqr with h' | ⟨h', -⟩
      · exact .inl (lt_trans h' h)
      · exact .inl (h' ▸ h)
    · rcases hqr with h' | ⟨h', hv'⟩
      · exact .inl (h ▸ h')
      · exact .inr ⟨h'.trans h, le_trans hv' hv⟩

theorem effectiveFrom_le_of_newerRow (p q : PlanRow) (h : newerRow p q) :
    q.effectiveFrom ≤ p.effectiveFrom := by
  rcases h with h | ⟨h, -⟩
  · exact le_of_lt h
  · exact le_of_eq h

/-! ## What each reader finds -/

theorem activePlan_eq_some {plans : Table PlanRow} {tenantId : Uuid} {t : Instant}
    {p : PlanRow} :
    activePlan plans tenantId t = some p ↔
      InForce PlanRow.effectiveFrom (plans.rows.filter (sealedOf tenantId)) t p :=
  head?_started_eq_some newerRow effectiveFrom_le_of_newerRow (sealedOf tenantId)
    (starts_inj _ tenant_of_sealedOf) t

/-- The engine's query finds the row of `activePlan`. -/
theorem findPlan_eq {registry : Registry} {plans : Table PlanRow}
    (hview : registry.plans = enginePlans plans) (tenantId : Uuid) (t : Instant) :
    Engine.findPlan registry tenantId t = (activePlan plans tenantId t).map PlanRow.forEngine := by
  unfold Engine.findPlan activePlan
  rw [hview]
  refine head?_insertionSort_view PlanRow.forEngine newerRow (fun _ _ => Iff.rfl) (fun p => ?_) plans.rows
  rw [Bool.eq_iff_iff, decide_eq_true_iff, Bool.and_eq_true, Bool.and_eq_true, beq_iff_eq,
    decide_eq_true_iff, and_assoc]
  exact Iff.rfl

/-- `ORDER BY effective_from DESC, created_at DESC, id DESC`. -/
def newerCreated (p q : PlanRow) : Prop :=
  q.effectiveFrom < p.effectiveFrom ∨ (q.effectiveFrom = p.effectiveFrom ∧
    (q.createdAt < p.createdAt ∨ (q.createdAt = p.createdAt ∧ q.id ≤ p.id)))

instance : DecidableRel newerCreated := fun p q =>
  inferInstanceAs (Decidable
    (q.effectiveFrom < p.effectiveFrom ∨ (q.effectiveFrom = p.effectiveFrom ∧
      (q.createdAt < p.createdAt ∨ (q.createdAt = p.createdAt ∧ q.id ≤ p.id)))))

instance : Std.Total newerCreated where
  total p q := by
    unfold newerCreated
    rcases lt_trichotomy p.effectiveFrom q.effectiveFrom with h | h | h
    · exact .inr (.inl h)
    · rcases lt_trichotomy p.createdAt q.createdAt with hc | hc | hc
      · exact .inr (.inr ⟨h, .inl hc⟩)
      · rcases le_total p.id q.id with hi | hi
        · exact .inr (.inr ⟨h, .inr ⟨hc, hi⟩⟩)
        · exact .inl (.inr ⟨h.symm, .inr ⟨hc.symm, hi⟩⟩)
      · exact .inl (.inr ⟨h.symm, .inl hc⟩)
    · exact .inl (.inl h)

instance : IsTrans PlanRow newerCreated where
  trans p q r hpq hqr := by
    unfold newerCreated at *
    rcases hpq with h | ⟨h, hpq⟩
    · rcases hqr with h' | ⟨h', -⟩
      · exact .inl (lt_trans h' h)
      · exact .inl (h' ▸ h)
    · rcases hqr with h' | ⟨h', hqr⟩
      · exact .inl (h ▸ h')
      · refine .inr ⟨h'.trans h, ?_⟩
        rcases hpq with hc | ⟨hc, hi⟩
        · rcases hqr with hc' | ⟨hc', -⟩
          · exact .inl (lt_trans hc' hc)
          · exact .inl (hc' ▸ hc)
        · rcases hqr with hc' | ⟨hc', hi'⟩
          · exact .inl (hc ▸ hc')
          · exact .inr ⟨hc'.trans hc, le_trans hi' hi⟩

theorem effectiveFrom_le_of_newerCreated (p q : PlanRow) (h : newerCreated p q) :
    q.effectiveFrom ≤ p.effectiveFrom := by
  rcases h with h | ⟨h, -⟩
  · exact le_of_lt h
  · exact le_of_eq h

/-- The newest plan of a tenant, sealed or not. -/
def newestPlan (plans : Table PlanRow) (tenantId : Uuid) (t : Instant) : Option PlanRow :=
  ((plans.rows.filter fun p => ofTenant tenantId p && decide (p.effectiveFrom ≤ t)).insertionSort
    newerCreated).head?

theorem newestPlan_eq_some {plans : Table PlanRow} {tenantId : Uuid} {t : Instant}
    {p : PlanRow} :
    newestPlan plans tenantId t = some p ↔
      InForce PlanRow.effectiveFrom (plans.rows.filter (ofTenant tenantId)) t p :=
  head?_started_eq_some newerCreated effectiveFrom_le_of_newerCreated (ofTenant tenantId)
    (starts_inj _ tenant_of_ofTenant) t

/-- The consent records the newest plan, sealed or not. -/
theorem effectivePlan_eq {db : Auth.AuthDb} {plans : Table PlanRow}
    (hview : db.directory.plans = invitePlans plans) (tenantId : Uuid) (t : Instant) :
    Auth.effectivePlan db tenantId t =
      (newestPlan plans tenantId t).map PlanRow.forInvites := by
  unfold Auth.effectivePlan newestPlan
  rw [hview]
  exact head?_insertionSort_view PlanRow.forInvites newerCreated (fun _ _ => Iff.rfl) (fun _ => rfl) plans.rows

/-- So does the page. -/
theorem shownPlan_eq {db : Auth.AuthDb} {plans : Table PlanRow}
    (hview : db.directory.plans = invitePlans plans) (tenantId : Uuid) (t : Instant) :
    Auth.shownPlan db tenantId t = (newestPlan plans tenantId t).map PlanRow.forInvites :=
  effectivePlan_eq hview tenantId t

/-! ## When they agree -/

/-- The tables of the engine and of the invites, with the plans that both are views of. -/
structure PlanViews extends PlanTables where
  auth : Auth.AuthDb
  authView : auth.directory.plans = invitePlans plans

/-- All five readers find the same row, or none of them finds one. -/
def SamePlan (v : PlanViews) (tenantId : Uuid) (t : Instant) : Prop :=
  ∃ found : Option Uuid,
    (activePlan v.plans tenantId t).map PlanRow.id = found ∧
      (Engine.findPlan v.registry tenantId t).map CommissionPlan.id = found ∧
      (Engine.resolvePlan v.registry tenantId t none).map CommissionPlan.id = found ∧
      (Auth.shownPlan v.auth tenantId t).map Auth.CommissionPlan.id = found ∧
      (Auth.effectivePlan v.auth tenantId t).map Auth.CommissionPlan.id = found

/-- The plan of the tenant that started last is sealed, if there is one. -/
def NewestSealed (plans : Table PlanRow) (tenantId : Uuid) (t : Instant) : Prop :=
  ∀ p, InForce PlanRow.effectiveFrom (plans.rows.filter (ofTenant tenantId)) t p →
    p.finalized = true

section SamePlan

variable {plans : Table PlanRow} {tenantId : Uuid} {t : Instant}

/-- A sealed plan that is the newest of all is the newest of the sealed ones. -/
theorem InForce.ofSealed {p : PlanRow}
    (h : InForce PlanRow.effectiveFrom (plans.rows.filter (ofTenant tenantId)) t p)
    (hsealed : p.finalized = true) :
    InForce PlanRow.effectiveFrom (plans.rows.filter (sealedOf tenantId)) t p := by
  obtain ⟨hmem, htenant⟩ := List.mem_filter.mp h.1
  refine ⟨List.mem_filter.mpr ⟨hmem, ?_⟩, h.2.1, fun q hq hstart => ?_⟩
  · rw [sealedOf, hsealed, Bool.and_true]
    exact htenant
  · obtain ⟨hq, hkept⟩ := List.mem_filter.mp hq
    exact h.2.2 q (List.mem_filter.mpr ⟨hq, Bool.and_elim_left hkept⟩) hstart

theorem activePlan_eq_newestPlan_iff :
    (activePlan plans tenantId t).map PlanRow.id = (newestPlan plans tenantId t).map PlanRow.id ↔
      NewestSealed plans tenantId t := by
  constructor
  · intro h p hp
    rw [newestPlan_eq_some.mpr hp] at h
    obtain ⟨q, hq, hid⟩ := Option.map_eq_some_iff.mp h
    have hactive := (activePlan_eq_some.mp hq).1
    obtain ⟨hmem, hkept⟩ := List.mem_filter.mp hactive
    have hsame : q = p := Table.eq_of_key hmem (List.mem_of_mem_filter hp.1) hid
    exact hsame ▸ Bool.and_elim_right hkept
  · intro h
    cases hnewest : newestPlan plans tenantId t with
    | some p =>
        have hp := newestPlan_eq_some.mp hnewest
        rw [activePlan_eq_some.mpr (InForce.ofSealed hp (h p hp))]
    | none =>
        cases hactive : activePlan plans tenantId t with
        | none => rfl
        | some q =>
            -- a sealed plan that has started is a plan that has started
            have hq := activePlan_eq_some.mp hactive
            obtain ⟨hmem, hkept⟩ := List.mem_filter.mp hq.1
            have hown : q ∈ plans.rows.filter (ofTenant tenantId) :=
              List.mem_filter.mpr ⟨hmem, Bool.and_elim_left hkept⟩
            obtain ⟨p, hp⟩ := exists_inForce hown hq.2.1
            rw [newestPlan_eq_some.mpr hp] at hnewest
            cases hnewest

end SamePlan

/-- The five readers agree exactly if no plan that is not sealed has started last. -/
theorem readers_exact (v : PlanViews) (tenantId : Uuid) (t : Instant) :
    SamePlan v tenantId t ↔ NewestSealed v.plans tenantId t := by
  have hfind : (Engine.findPlan v.registry tenantId t).map CommissionPlan.id =
      (activePlan v.plans tenantId t).map PlanRow.id := by
    rw [findPlan_eq v.view, Option.map_map]
    rfl
  have hconsent : (Auth.effectivePlan v.auth tenantId t).map Auth.CommissionPlan.id =
      (newestPlan v.plans tenantId t).map PlanRow.id := by
    rw [effectivePlan_eq v.authView, Option.map_map]
    rfl
  have hshown : (Auth.shownPlan v.auth tenantId t).map Auth.CommissionPlan.id =
      (newestPlan v.plans tenantId t).map PlanRow.id := hconsent
  rw [← activePlan_eq_newestPlan_iff]
  constructor
  · rintro ⟨found, hactive, -, -, -, heffective⟩
    exact hactive.trans (heffective.symm.trans hconsent)
  · intro h
    exact ⟨_, rfl, hfind, hfind, hshown.trans h.symm, hconsent.trans h.symm⟩

namespace Demo

/-- One plan is in force from zero on. -/
def firstPlan : PlanRow :=
  ⟨4, 1, 1, true, "First", 1000, 2, 0, 0, 0, 0, none, 0, [⟨5, 0, 600⟩, ⟨6, 1, 400⟩]⟩

/-- Another one would start at ten, but it is not sealed. -/
def unsealedPlan : PlanRow :=
  ⟨7, 1, 2, false, "Second", 2000, 2, 0, 0, 0, 10, none, 9, [⟨8, 0, 2000⟩]⟩

def unsealedPlans : Table PlanRow := ⟨[firstPlan, unsealedPlan], by decide, by decide⟩

/-- The engine and the invites over the same plans. -/
def viewsOf (plans : Table PlanRow) : PlanViews where
  plans := plans
  registry := { Engine.Demo.registry with plans := enginePlans plans }
  view := rfl
  auth := Auth.Demo.database (Auth.Demo.directory .empty (invitePlans plans)) .empty
  authView := rfl

end Demo

/-- The engine pays by the first plan, the page and the consent show the second one. -/
theorem readers_disagree : ¬SamePlan (Demo.viewsOf Demo.unsealedPlans) 1 10 := by
  rintro ⟨found, hactive, -, -, -, hconsent⟩
  have hpaid : (activePlan Demo.unsealedPlans 1 10).map PlanRow.id = some 4 := by
    decide
  have hrecorded : (Auth.effectivePlan (Demo.viewsOf Demo.unsealedPlans).auth 1 10).map
      Auth.CommissionPlan.id = some 7 := by
    decide
  have hsame : (some 4 : Option Uuid) = some 7 :=
    (hpaid.symm.trans hactive).trans (hconsent.symm.trans hrecorded)
  exact absurd hsame (by decide)

end Refearn.Plans
