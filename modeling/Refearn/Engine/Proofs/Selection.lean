import Refearn.Engine.Invariants
import Mathlib.Data.List.Dedup
/-!
# What a scope selects

A selection is the list of its targets, each evaluated against the same database.
The reserved targets come with the payable rows that were read for them, and in a
sound database those rows are snapshots of ledger rows.
-/

namespace Refearn.Engine

open Support Support.Transaction Payouts

/-! ## One target -/

/-- What the eligibility loop has found of a target that it reserves. -/
structure Eligible (env : Env) (db : Db) (tenant : Tenant) (params : ReserveParams)
    (r : PayoutReservation) : Prop where
  request : reusableRequest params
    (activePayouts db params.tenantId r.membershipId params.period) =
      .ok (some r.requestedPayoutId)
  rows : r.rows = (payableRows db params.tenantId r.membershipId).map
    (payoutLedgerRow env db tenant.timezone)
  amount : r.amountCents = netCents (payableRows db params.tenantId r.membershipId)
  nonempty : r.rows ≠ []
  positive : 0 < r.amountCents
  unlocked : lockedPeriod db.registry params.tenantId
    (r.rows.map PayoutLedgerRow.month) = none

theorem evaluateRecipient_eq_reserved {env : Env} {db : Db} {now : Instant}
    {tenant : Tenant} {params : ReserveParams} {membershipId : Uuid}
    {requestedPayoutId : Option Uuid} {rows : List LedgerEntry} {r : PayoutReservation}
    (h : evaluateRecipient env db now tenant params membershipId requestedPayoutId rows =
      .ok (.reserved r)) :
    r.membershipId = membershipId ∧ r.requestedPayoutId = requestedPayoutId ∧
      r.amountCents = netCents rows ∧
      r.rows = rows.map (payoutLedgerRow env db tenant.timezone) := by
  unfold evaluateRecipient at h
  dsimp only at h
  split at h
  · cases h
  · split at h
    · split_ifs at h
      cases h
    · split_ifs at h
      · cases h
      · cases h
        exact ⟨rfl, rfl, rfl, rfl⟩

theorem evaluateTarget_eq_reserved {env : Env} {db : Db} {now : Instant} {tenant : Tenant}
    {params : ReserveParams} {membershipId : Uuid} {r : PayoutReservation}
    (h : evaluateTarget env db now tenant params membershipId = .ok (.reserved r)) :
    r.membershipId = membershipId ∧ Eligible env db tenant params r := by
  unfold evaluateTarget at h
  split_ifs at h
  cases hreuse : reusableRequest params
      (activePayouts db params.tenantId membershipId params.period) with
  | error e => rw [hreuse] at h; cases h
  | ok reuse =>
      rw [hreuse] at h
      cases reuse with
      | none => cases h
      | some requestedPayoutId =>
          dsimp only [bind, Except.bind] at h
          split_ifs at h with hempty hbelow
          · cases h
          · cases h
          · split at h
            · cases h
            · next hopen =>
                obtain ⟨rfl, rfl, hamount, hrows⟩ := evaluateRecipient_eq_reserved h
                push Not at hbelow
                refine ⟨rfl, hreuse, hrows, hamount, ?_, ?_, ?_⟩
                · rw [hrows]
                  exact fun hnil => hempty (by simpa using hnil)
                · rw [hamount]
                  exact hbelow.1
                · rw [hrows, List.map_map]
                  exact hopen

/-! ## All targets -/

/-- A selection that was not refused: the targets, each with its evaluation. -/
structure Selected (env : Env) (db : Db) (now : Instant) (params : ReserveParams)
    (selection : Selection) (tenant : Tenant) (targets : List Uuid)
    (evaluations : List Evaluation) : Prop where
  found : db.registry.tenants.find? params.tenantId = some tenant
  targeted : batchTargets env db tenant params = .ok targets
  evaluated : List.Forall₂ (fun m e => evaluateTarget env db now tenant params m = .ok e)
    targets evaluations
  reservations : selection.reservations = evaluations.filterMap Evaluation.reservation?
  skipped : selection.skipped = evaluations.filterMap Evaluation.skipped?
  review : selection.review =
    selectionReview env tenant selection.reservations selection.skipped
  expected : ∀ review, params.expectedReview = some review → review = selection.review

theorem selectBatch_eq_ok {env : Env} {db : Db} {now : Instant} {params : ReserveParams}
    {selection : Selection} :
    selectBatch env db now params = .ok selection ↔
      ∃ tenant targets evaluations,
        Selected env db now params selection tenant targets evaluations := by
  unfold selectBatch
  constructor
  · intro h
    cases htenant : db.registry.tenants.find? params.tenantId with
    | none => rw [htenant] at h; cases h
    | some tenant =>
        rw [htenant] at h
        dsimp only [bind, Except.bind] at h
        cases htargets : batchTargets env db tenant params with
        | error e => rw [htargets] at h; cases h
        | ok targets =>
            rw [htargets] at h
            dsimp only at h
            cases hevals : targets.mapM (evaluateTarget env db now tenant params) with
            | error e => rw [hevals] at h; cases h
            | ok evaluations =>
                rw [hevals] at h
                dsimp only at h
                split_ifs at h with hdrift
                cases h
                refine ⟨tenant, targets, evaluations, htenant, htargets,
                  mapM_eq_ok.mp hevals, rfl, rfl, rfl, fun review hreview => ?_⟩
                by_contra hne
                exact hdrift (by simp [hreview, hne])
  · rintro ⟨tenant, targets, evaluations, h⟩
    rw [h.found]
    dsimp only [bind, Except.bind]
    rw [h.targeted]
    dsimp only
    rw [mapM_eq_ok.mpr h.evaluated]
    dsimp only
    rw [← h.reservations, ← h.skipped, ← h.review, if_neg]
    · rfl
    · intro hdrift
      cases hexpected : params.expectedReview with
      | none => simp [hexpected] at hdrift
      | some review =>
          rw [hexpected] at hdrift
          simp [h.expected review hexpected] at hdrift

theorem nodup_sortedUuids (ids : List Uuid) : (sortedUuids ids).Nodup :=
  (List.perm_insertionSort _ _).nodup_iff.mpr (List.nodup_dedup ids)

theorem nodup_batchTargets {env : Env} {db : Db} {tenant : Tenant} {params : ReserveParams}
    {targets : List Uuid} (h : batchTargets env db tenant params = .ok targets) :
    targets.Nodup := by
  unfold batchTargets at h
  split at h
  · dsimp only at h
    split_ifs at h
    cases h
    exact nodup_sortedUuids _
  · dsimp only at h
    split_ifs at h
    cases h
    exact ((nodup_sortedUuids _).filter _).sublist (List.take_sublist _ _)

/-- Each evaluation is that of a target. -/
theorem exists_of_mem_evaluated {f : Uuid → Except EngineError Evaluation}
    {targets : List Uuid} {evaluations : List Evaluation}
    (h : List.Forall₂ (fun m e => f m = .ok e) targets evaluations) {e : Evaluation}
    (he : e ∈ evaluations) : ∃ m ∈ targets, f m = .ok e := by
  induction h with
  | nil => cases he
  | cons heval _ ih =>
      rcases List.mem_cons.mp he with rfl | he
      · exact ⟨_, List.mem_cons_self, heval⟩
      · obtain ⟨m, hm, heval⟩ := ih he
        exact ⟨m, List.mem_cons_of_mem _ hm, heval⟩

namespace Selected

variable {env : Env} {db : Db} {now : Instant} {params : ReserveParams}
  {selection : Selection} {tenant : Tenant} {targets : List Uuid}
  {evaluations : List Evaluation}

theorem eligible (h : Selected env db now params selection tenant targets evaluations)
    {r : PayoutReservation} (hr : r ∈ selection.reservations) :
    Eligible env db tenant params r := by
  rw [h.reservations, List.mem_filterMap] at hr
  obtain ⟨e, he, hres⟩ := hr
  cases e with
  | skipped item => cases hres
  | reserved r' =>
      cases hres
      obtain ⟨m, -, heval⟩ := exists_of_mem_evaluated h.evaluated he
      exact (evaluateTarget_eq_reserved heval).2

/-- No member is reserved twice. -/
theorem nodup_members
    (h : Selected env db now params selection tenant targets evaluations) :
    (selection.reservations.map PayoutReservation.membershipId).Nodup := by
  refine (nodup_batchTargets h.targeted).sublist ?_
  rw [h.reservations]
  have hevaluated := h.evaluated
  clear h
  induction hevaluated with
  | nil => exact List.Sublist.refl []
  | @cons m e targets evaluations heval _ ih =>
      cases e with
      | skipped item => exact ih.cons m
      | reserved r =>
          have hmember := (evaluateTarget_eq_reserved heval).1
          have hcons : (Evaluation.reserved r :: evaluations).filterMap
              Evaluation.reservation? =
              r :: evaluations.filterMap Evaluation.reservation? := rfl
          rw [hcons, List.map_cons, hmember]
          exact ih.cons_cons m

end Selected

end Refearn.Engine
