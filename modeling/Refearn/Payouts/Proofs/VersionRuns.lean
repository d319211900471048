import Refearn.Engine.Run
import Refearn.Payouts.Proofs.Versions
import Refearn.Support.Register
/-!
# Versions of compliance decisions

The decisions on a control form a register, and so do the destinations of a member: the n-th
write has named version n - 1. In every interleaving the tables hold the last write of each
register, which is what the payout services read.
-/

namespace Refearn.Payouts

open Support Support.Transaction Engine

theorem filter_concat_of_pos {α : Type} {p : α → Bool} {as : List α} {a : α} (h : p a = true) :
    (as ++ [a]).filter p = as.filter p ++ [a] := by
  rw [List.filter_append, List.filter_cons_of_pos h, List.filter_nil]

theorem filter_concat_of_neg {α : Type} {p : α → Bool} {as : List α} {a : α} (h : ¬p a = true) :
    (as ++ [a]).filter p = as.filter p := by
  rw [List.filter_append, List.filter_cons_of_neg h, List.filter_nil, List.append_nil]

/-! ## Every interleaving -/

/-- Each decision names the number of decisions before it. -/
abbrev DecisionRegister := Register CommittedDecision fun u => u.input.expectedVersion

/-- Each replacement names the number of replacements before it. -/
abbrev DestinationRegister := Register CommittedReplacement fun u => u.input.expectedVersion

def CommittedDecision.isOf (tenantId membershipId : Uuid) (k : ReadinessKey)
    (u : CommittedDecision) : Bool :=
  u.tenantId == tenantId && u.membershipId == membershipId && u.key == k

def CommittedReplacement.isOf (tenantId membershipId : Uuid) (u : CommittedReplacement) : Bool :=
  u.tenantId == tenantId && u.membershipId == membershipId

/-- What has been decided on a control, oldest first. -/
def decisionsOf (w : ComplianceWorld) (tenantId membershipId : Uuid) (k : ReadinessKey) :
    List CommittedDecision :=
  w.decisions.filter (CommittedDecision.isOf tenantId membershipId k)

/-- The destinations that a member has been given, oldest first. -/
def replacementsOf (w : ComplianceWorld) (tenantId membershipId : Uuid) :
    List CommittedReplacement :=
  w.replacements.filter (CommittedReplacement.isOf tenantId membershipId)

/-- The control as a decision states it. -/
def CommittedDecision.control (u : CommittedDecision) : ManualPayoutReadinessDecision :=
  ⟨u.key, u.input.status.status, u.input.reasonCode, u.input.expiresAt, u.version⟩

/-- The destination as a replacement states it. -/
def CommittedReplacement.destination (u : CommittedReplacement) : ActivePayoutDestination :=
  ⟨u.id, some u.input.verifiedAt, u.version⟩

def ReadinessCheckRow.selected (r : ReadinessCheckRow) : ManualPayoutReadinessDecision :=
  ⟨r.key, r.status, r.reasonCode, r.expiresAt, r.version⟩

def DestinationRow.selected (d : DestinationRow) : ActivePayoutDestination :=
  ⟨d.id, d.verifiedAt, d.version⟩

/-- The tables hold the last write of each register. -/
structure HoldsLast (w : ComplianceWorld) : Prop where
  controls : ∀ tenantId membershipId k, ∃ x : DecisionRegister,
    x.writes = decisionsOf w tenantId membershipId k ∧
      (w.db.checks.rows.find? (isCheckOf tenantId membershipId k)).map ReadinessCheckRow.selected =
        x.current.map CommittedDecision.control
  destinations : ∀ tenantId membershipId, ∃ x : DestinationRegister,
    x.writes = replacementsOf w tenantId membershipId ∧
      (w.db.destinations.rows.find? (isActiveOf tenantId membershipId)).map
          DestinationRow.selected = x.current.map CommittedReplacement.destination
  decisions_made : ∀ u ∈ w.decisions, u.version = u.input.expectedVersion + 1
  replacements_made : ∀ u ∈ w.replacements, u.version = u.input.expectedVersion + 1
  checks_positive : ∀ r ∈ w.db.checks, 0 < r.version
  destinations_positive : ∀ d ∈ w.db.destinations, 0 < d.version

/-- Before any decision or destination. -/
structure ComplianceWorld.Initial (w : ComplianceWorld) : Prop where
  checks : w.db.checks = Table.empty
  destinations : w.db.destinations = Table.empty
  decisions : w.decisions = []
  replacements : w.replacements = []

section Step

variable {toISOString : Instant → String} {actor : PayoutComplianceActor} {membershipId : Uuid}
  {w : ComplianceWorld} {uuids : Nat → Uuid} {s' : ComplianceSession}

theorem CommittedDecision.isOf_iff {tenantId membershipId : Uuid} {k : ReadinessKey}
    {u : CommittedDecision} : u.isOf tenantId membershipId k = true ↔
      u.tenantId = tenantId ∧ u.membershipId = membershipId ∧ u.key = k := by
  simp only [CommittedDecision.isOf, Bool.and_eq_true, beq_iff_eq, and_assoc]

theorem CommittedReplacement.isOf_iff {tenantId membershipId : Uuid}
    {u : CommittedReplacement} : u.isOf tenantId membershipId = true ↔
      u.tenantId = tenantId ∧ u.membershipId = membershipId := by
  simp only [CommittedReplacement.isOf, Bool.and_eq_true, beq_iff_eq]

/-- The version that the tables ask for is the one that the register asks for. -/
theorem HoldsLast.checkVersion_eq (h : HoldsLast w) {tenantId membershipId : Uuid}
    {k : ReadinessKey} {x : DecisionRegister}
    (hwrites : x.writes = decisionsOf w tenantId membershipId k)
    (hrow : (w.db.checks.rows.find? (isCheckOf tenantId membershipId k)).map
      ReadinessCheckRow.selected = x.current.map CommittedDecision.control) :
    checkVersion w.db tenantId membershipId k = x.version := by
  have hversion : (w.db.checks.rows.find? (isCheckOf tenantId membershipId k)).map
      ReadinessCheckRow.version = x.current.map CommittedDecision.version := by
    have hmap := congrArg (Option.map fun d => d.version.toNat) hrow
    rw [Option.map_map, Option.map_map] at hmap
    exact hmap
  unfold checkVersion
  rw [hversion]
  cases hcurrent : x.current with
  | none => exact (Register.version_of_current_none hcurrent).symm
  | some u =>
      have hu : u ∈ w.decisions := by
        have hmem := List.mem_of_getLast? hcurrent
        rw [hwrites] at hmem
        exact List.mem_of_mem_filter hmem
      rw [Register.version_of_current hcurrent, Option.map_some, Option.getD_some]
      exact h.decisions_made u hu

theorem HoldsLast.destinationVersion_eq (h : HoldsLast w) {tenantId membershipId : Uuid}
    {x : DestinationRegister} (hwrites : x.writes = replacementsOf w tenantId membershipId)
    (hrow : (w.db.destinations.rows.find? (isActiveOf tenantId membershipId)).map
      DestinationRow.selected = x.current.map CommittedReplacement.destination) :
    destinationVersion w.db tenantId membershipId = x.version := by
  have hversion : (w.db.destinations.rows.find? (isActiveOf tenantId membershipId)).map
      DestinationRow.version = x.current.map CommittedReplacement.version := by
    have hmap := congrArg (Option.map fun d => d.version.toNat) hrow
    rw [Option.map_map, Option.map_map] at hmap
    exact hmap
  unfold destinationVersion
  rw [hversion]
  cases hcurrent : x.current with
  | none => exact (Register.version_of_current_none hcurrent).symm
  | some u =>
      have hu : u ∈ w.replacements := by
        have hmem := List.mem_of_getLast? hcurrent
        rw [hwrites] at hmem
        exact List.mem_of_mem_filter hmem
      rw [Register.version_of_current hcurrent, Option.map_some, Option.getD_some]
      exact h.replacements_made u hu

theorem HoldsLast.of_decide {k : ReadinessKey} {input : PayoutComplianceDecisionInput}
    {reviewedAt : Instant} {control : ReadinessCheckRow} (h : HoldsLast w)
    (hcommits : Commits (PayoutCompliance.decide toISOString actor membershipId k input reviewedAt)
      ⟨w.db, uuids⟩ control s') :
    HoldsLast { w with
      db := s'.db
      decisions := w.decisions ++
        [⟨actor.tenantId, membershipId, k, input, control.version⟩] } := by
  obtain ⟨hwritten, hleaves, hdestinations⟩ := commits_decide hcommits
  have hnamed := CheckWritten.named (s := ⟨w.db, uuids⟩) hwritten
  refine ⟨fun tenantId' membershipId' k' => ?_, fun tenantId' membershipId' => ?_, fun u hu => ?_,
    h.replacements_made, fun r hr => ?_, ?_⟩
  · obtain ⟨x, hwrites, hrow⟩ := h.controls tenantId' membershipId' k'
    by_cases hown : actor.tenantId = tenantId' ∧ membershipId = membershipId' ∧ k = k'
    · obtain ⟨rfl, rfl, rfl⟩ := hown
      have hversion : input.expectedVersion = x.version :=
        hnamed.trans (h.checkVersion_eq hwrites hrow)
      obtain ⟨y, hy⟩ := Register.exists_write? (x := x)
        (a := ⟨actor.tenantId, membershipId, k, input, control.version⟩) hversion
      refine ⟨y, ?_, ?_⟩
      · rw [(Register.write?_eq_some.mp hy).2, hwrites]
        unfold decisionsOf
        exact (filter_concat_of_pos (p := CommittedDecision.isOf actor.tenantId membershipId k)
          (CommittedDecision.isOf_iff.mpr ⟨rfl, rfl, rfl⟩)).symm
      · rw [Register.current_of_write? hy]
        change (s'.db.checks.rows.find? _).map _ = _
        rw [hleaves.found, Option.map_some, Option.map_some]
        unfold ReadinessCheckRow.selected CommittedDecision.control
        rw [hleaves.key_eq, hleaves.status_eq, hleaves.reason_eq, hleaves.expires_eq]
    · refine ⟨x, ?_, ?_⟩
      · rw [hwrites]
        unfold decisionsOf
        exact (filter_concat_of_neg fun hof => hown (CommittedDecision.isOf_iff.mp hof)).symm
      · rw [← hrow]
        exact congrArg _ (hwritten.others hown)
  · rw [hdestinations]
    exact h.destinations tenantId' membershipId'
  · rcases List.mem_append.mp hu with hu | hu
    · exact h.decisions_made u hu
    · rw [List.mem_singleton.mp hu]
      exact hleaves.version_eq
  · cases hwritten with
    | created id hnamed hinserted =>
        rcases (Table.mem_insert? hinserted).mp hr with hr | rfl
        · exact h.checks_positive r hr
        · exact Nat.one_pos
    | updated r₀ hr₀ hof hnamed hupdated =>
        change r ∈ s'.db.checks.rows at hr
        rw [hupdated] at hr
        obtain ⟨r₁, hr₁, rfl⟩ := List.mem_map.mp hr
        split_ifs
        · exact Nat.succ_pos _
        · exact h.checks_positive r₁ hr₁
  · rw [hdestinations]
    exact h.destinations_positive

theorem HoldsLast.of_replaceDestination {input : PayoutDestinationInput}
    {destination : DestinationRow} (h : HoldsLast w)
    (hcommits : Commits
      (PayoutCompliance.replaceDestination toISOString actor membershipId input)
      ⟨w.db, uuids⟩ destination s') :
    HoldsLast { w with
      db := s'.db
      replacements := w.replacements ++
        [⟨actor.tenantId, membershipId, input, destination.id, destination.version⟩] } := by
  obtain ⟨hwritten, ⟨id, hid⟩, hchecks⟩ := commits_replaceDestination hcommits
  have hactive : isActiveOf actor.tenantId membershipId destination = true := by
    rw [hid]
    exact isActiveOf_newDestination id
  have hnamed := DestinationWritten.named (s := ⟨w.db, uuids⟩) hwritten
  refine ⟨?_, fun tenantId' membershipId' => ?_, h.decisions_made, fun u hu => ?_, ?_,
    fun d hd => ?_⟩
  · rw [hchecks]
    exact h.controls
  · obtain ⟨x, hwrites, hrow⟩ := h.destinations tenantId' membershipId'
    by_cases hown : actor.tenantId = tenantId' ∧ membershipId = membershipId'
    · obtain ⟨rfl, rfl⟩ := hown
      have hversion : input.expectedVersion = x.version :=
        hnamed.trans (h.destinationVersion_eq hwrites hrow)
      obtain ⟨y, hy⟩ := Register.exists_write? (x := x)
        (a := ⟨actor.tenantId, membershipId, input, destination.id, destination.version⟩) hversion
      refine ⟨y, ?_, ?_⟩
      · rw [(Register.write?_eq_some.mp hy).2, hwrites]
        unfold replacementsOf
        exact (filter_concat_of_pos (p := CommittedReplacement.isOf actor.tenantId membershipId)
          (CommittedReplacement.isOf_iff.mpr ⟨rfl, rfl⟩)).symm
      · rw [Register.current_of_write? hy]
        change (s'.db.destinations.rows.find? _).map _ = _
        rw [hwritten.found hactive, hid]
        rfl
    · refine ⟨x, ?_, ?_⟩
      · rw [hwrites]
        unfold replacementsOf
        exact (filter_concat_of_neg fun hof => hown (CommittedReplacement.isOf_iff.mp hof)).symm
      · rw [← hrow]
        exact congrArg _ (hwritten.others hactive hown)
  · rcases List.mem_append.mp hu with hu | hu
    · exact h.replacements_made u hu
    · rw [List.mem_singleton.mp hu, hid]
      rfl
  · rw [hchecks]
    exact h.checks_positive
  · have hnew : 0 < destination.version := by
      rw [hid]
      exact Nat.succ_pos _
    cases hwritten with
    | first hnamed hnone hinserted =>
        rcases (Table.mem_insert? hinserted).mp hd with hd | rfl
        · exact h.destinations_positive d hd
        · exact hnew
    | replaced d₀ hd₀ hof hnamed hinserted =>
        rcases (Table.mem_insert? hinserted).mp hd with hd | rfl
        · obtain ⟨d₁, hd₁, rfl⟩ := List.mem_map.mp hd
          split_ifs
          · exact h.destinations_positive d₁ hd₁
          · exact h.destinations_positive d₁ hd₁
        · exact hnew

theorem apply_of_commits_decide {k : ReadinessKey} {input : PayoutComplianceDecisionInput}
    {reviewedAt : Instant} {control : ReadinessCheckRow}
    (hcommits : Commits (PayoutCompliance.decide toISOString actor membershipId k input reviewedAt)
      ⟨w.db, uuids⟩ control s') :
    (ComplianceStep.decide actor membershipId k input reviewedAt uuids).apply toISOString w =
      { w with
        db := s'.db
        decisions := w.decisions ++
          [⟨actor.tenantId, membershipId, k, input, control.version⟩] } := by
  unfold Commits at hcommits
  simp only [ComplianceStep.apply, hcommits]

theorem apply_of_raises_decide {k : ReadinessKey} {input : PayoutComplianceDecisionInput}
    {reviewedAt : Instant} {e : EngineError}
    (hraises : Raises (PayoutCompliance.decide toISOString actor membershipId k input reviewedAt)
      ⟨w.db, uuids⟩ e) :
    (ComplianceStep.decide actor membershipId k input reviewedAt uuids).apply toISOString w = w := by
  unfold Raises at hraises
  simp only [ComplianceStep.apply, hraises]

theorem apply_of_commits_replaceDestination {input : PayoutDestinationInput}
    {destination : DestinationRow}
    (hcommits : Commits
      (PayoutCompliance.replaceDestination toISOString actor membershipId input)
      ⟨w.db, uuids⟩ destination s') :
    (ComplianceStep.replaceDestination actor membershipId input uuids).apply toISOString w =
      { w with
        db := s'.db
        replacements := w.replacements ++
          [⟨actor.tenantId, membershipId, input, destination.id, destination.version⟩] } := by
  unfold Commits at hcommits
  simp only [ComplianceStep.apply, hcommits]

theorem apply_of_raises_replaceDestination {input : PayoutDestinationInput} {e : EngineError}
    (hraises : Raises (PayoutCompliance.replaceDestination toISOString actor membershipId input)
      ⟨w.db, uuids⟩ e) :
    (ComplianceStep.replaceDestination actor membershipId input uuids).apply toISOString w =
      w := by
  unfold Raises at hraises
  simp only [ComplianceStep.apply, hraises]

theorem HoldsLast.step (step : ComplianceStep) (h : HoldsLast w) :
    HoldsLast (step.apply toISOString w) := by
  cases step with
  | members memberships =>
      exact ⟨h.controls, h.destinations, h.decisions_made, h.replacements_made,
        h.checks_positive, h.destinations_positive⟩
  | decide actor membershipId k input reviewedAt uuids =>
      rcases commits_or_raises (PayoutCompliance.decide toISOString actor membershipId k input
        reviewedAt) ⟨w.db, uuids⟩ with ⟨control, s', hcommits⟩ | ⟨e, hraises⟩
      · rw [apply_of_commits_decide hcommits]
        exact h.of_decide hcommits
      · rw [apply_of_raises_decide hraises]
        exact h
  | replaceDestination actor membershipId input uuids =>
      rcases commits_or_raises (PayoutCompliance.replaceDestination toISOString actor membershipId
        input) ⟨w.db, uuids⟩ with ⟨destination, s', hcommits⟩ | ⟨e, hraises⟩
      · rw [apply_of_commits_replaceDestination hcommits]
        exact h.of_replaceDestination hcommits
      · rw [apply_of_raises_replaceDestination hraises]
        exact h

theorem HoldsLast.initial (hinit : w.Initial) : HoldsLast w where
  controls tenantId membershipId k := by
    refine ⟨Register.empty, ?_, ?_⟩
    · unfold decisionsOf
      rw [hinit.decisions]
      rfl
    · rw [hinit.checks]
      rfl
  destinations tenantId membershipId := by
    refine ⟨Register.empty, ?_, ?_⟩
    · unfold replacementsOf
      rw [hinit.replacements]
      rfl
    · rw [hinit.destinations]
      rfl
  decisions_made u hu := by
    rw [hinit.decisions] at hu
    cases hu
  replacements_made u hu := by
    rw [hinit.replacements] at hu
    cases hu
  checks_positive r hr := by
    rw [hinit.checks] at hr
    cases hr
  destinations_positive d hd := by
    rw [hinit.destinations] at hd
    cases hd

end Step

/-! ## What is read afterwards -/

section Snapshot

variable {db : ComplianceDb} {tenantId membershipId : Uuid}

theorem filter_eq_find? {ρ : Type} {p : ρ → Bool} {rows : List ρ} (hnodup : rows.Nodup)
    (hunique : ∀ a ∈ rows, ∀ b ∈ rows, p a = true → p b = true → a = b) :
    rows.filter p = (rows.find? p).toList := by
  induction rows with
  | nil => rfl
  | cons a rows ih =>
      obtain ⟨hfresh, hrest⟩ := List.nodup_cons.mp hnodup
      by_cases ha : p a = true
      · have hnone : rows.filter p = [] := by
          refine List.filter_eq_nil_iff.mpr fun b hb hpb => hfresh ?_
          rw [hunique a List.mem_cons_self b (List.mem_cons_of_mem _ hb) ha hpb]
          exact hb
        rw [List.filter_cons_of_pos ha, List.find?_cons_of_pos ha, hnone]
        rfl
      · rw [List.filter_cons_of_neg ha, List.find?_cons_of_neg ha]
        exact ih hrest fun b hb c hc =>
          hunique b (List.mem_cons_of_mem _ hb) c (List.mem_cons_of_mem _ hc)

theorem find?_checksRead (checks : Table ReadinessCheckRow) (k : ReadinessKey) :
    (checksRead checks).find? (tenantId, membershipId, k) =
      (checks.rows.find? (isCheckOf tenantId membershipId k)).map ReadinessCheckRow.check := by
  have hpred : (fun c : PayoutReadinessCheck => decide (key c = (tenantId, membershipId, k))) ∘
      ReadinessCheckRow.check = isCheckOf tenantId membershipId k := by
    funext r
    refine Bool.eq_iff_iff.mpr ?_
    rw [Function.comp_apply, decide_eq_true_eq, isCheckOf_iff]
    change (r.tenantId, r.membershipId, r.key) = (tenantId, membershipId, k) ↔ _
    rw [Prod.mk.injEq, Prod.mk.injEq]
  change (checks.rows.map ReadinessCheckRow.check).find? _ = _
  rw [List.find?_map, hpred]

theorem filter_destinationsRead (destinations : Table DestinationRow) :
    (destinationsRead destinations).rows.filter (fun d =>
      d.tenantId = tenantId ∧ d.membershipId = membershipId ∧ d.active) =
      ((destinations.rows.find? (isActiveOf tenantId membershipId)).map
        DestinationRow.destination).toList := by
  have hpred : (fun d : PayoutDestination =>
      decide (d.tenantId = tenantId ∧ d.membershipId = membershipId ∧ d.active)) ∘
        DestinationRow.destination = isActiveOf tenantId membershipId := by
    funext d
    refine Bool.eq_iff_iff.mpr ?_
    rw [Function.comp_apply, decide_eq_true_eq, isActiveOf_iff]
    exact Iff.rfl
  change (destinations.rows.map DestinationRow.destination).filter _ = _
  rw [List.filter_map, hpred, filter_eq_find? destinations.rows_nodup active_unique]
  exact Option.toList_map.symm

theorem readInput_registry (rest : Registry) :
    readInput (db.registry rest) tenantId membershipId =
      { manualChecks := PAYOUT_COMPLIANCE_CONTROL_KEYS.filterMap fun k =>
          (db.checks.rows.find? (isCheckOf tenantId membershipId k)).map
            ReadinessCheckRow.selected
        destination := (db.destinations.rows.find? (isActiveOf tenantId membershipId)).map
          DestinationRow.selected } := by
  unfold readInput
  congr 1
  · refine congrArg (fun f => PAYOUT_COMPLIANCE_CONTROL_KEYS.filterMap f) (funext fun k => ?_)
    change ((checksRead db.checks).find? (tenantId, membershipId, k)).map _ = _
    rw [find?_checksRead, Option.map_map]
    rfl
  · change (((destinationsRead db.destinations).rows.filter _).insertionSort _).head?.map _ = _
    rw [filter_destinationsRead]
    cases db.destinations.rows.find? (isActiveOf tenantId membershipId) with
    | none => rfl
    | some d => rfl

end Snapshot

/-! ## No update is lost -/

section Runs

variable (toISOString : Instant → String)

/-- A reviewer who may write, with an id that is new. -/
structure ComplianceWorld.Ready (w : ComplianceWorld) (actor : PayoutComplianceActor)
    (membershipId : Uuid) (uuids : Nat → Uuid) : Prop where
  writable : Writable w.db actor membershipId
  fresh_check : ∀ r ∈ w.db.checks, r.id ≠ uuids 0
  fresh_destination : ∀ d ∈ w.db.destinations, d.id ≠ uuids 0

/-- Each update is based on the version it names. -/
structure VersionsHold (w : ComplianceWorld) : Prop where
  decision_versions : ∀ tenantId membershipId k,
    (decisionsOf w tenantId membershipId k).map (fun u => (u.input.expectedVersion, u.version)) =
      (List.range (decisionsOf w tenantId membershipId k).length).map fun n => (n, n + 1)
  destination_versions : ∀ tenantId membershipId,
    (replacementsOf w tenantId membershipId).map
        (fun u => (u.input.expectedVersion, u.version)) =
      (List.range (replacementsOf w tenantId membershipId).length).map fun n => (n, n + 1)
  decision_commits : ∀ actor membershipId k input reviewedAt uuids,
    w.Ready actor membershipId uuids →
      input.expectedVersion = (decisionsOf w actor.tenantId membershipId k).length →
        decisionsOf ((ComplianceStep.decide actor membershipId k input reviewedAt uuids).apply
            toISOString w) actor.tenantId membershipId k =
          decisionsOf w actor.tenantId membershipId k ++
            [⟨actor.tenantId, membershipId, k, input, input.expectedVersion + 1⟩]
  replacement_commits : ∀ actor membershipId input uuids,
    w.Ready actor membershipId uuids →
      input.expectedVersion = (replacementsOf w actor.tenantId membershipId).length →
        ∃ id, replacementsOf ((ComplianceStep.replaceDestination actor membershipId input
            uuids).apply toISOString w) actor.tenantId membershipId =
          replacementsOf w actor.tenantId membershipId ++
            [⟨actor.tenantId, membershipId, input, id, input.expectedVersion + 1⟩]
  decision_stale : ∀ actor membershipId k input reviewedAt uuids,
    input.expectedVersion ≠ (decisionsOf w actor.tenantId membershipId k).length →
      (ComplianceStep.decide actor membershipId k input reviewedAt uuids).apply toISOString w = w ∧
        (Writable w.db actor membershipId → Raises
          (PayoutCompliance.decide toISOString actor membershipId k input reviewedAt)
            ⟨w.db, uuids⟩ versionChanged)
  replacement_stale : ∀ actor membershipId input uuids,
    input.expectedVersion ≠ (replacementsOf w actor.tenantId membershipId).length →
      (ComplianceStep.replaceDestination actor membershipId input uuids).apply toISOString w = w ∧
        (Writable w.db actor membershipId → Raises
          (PayoutCompliance.replaceDestination toISOString actor membershipId input)
            ⟨w.db, uuids⟩ destinationChanged)
  read_last : ∀ rest tenantId membershipId,
    readInput (w.db.registry rest) tenantId membershipId =
      { manualChecks := PAYOUT_COMPLIANCE_CONTROL_KEYS.filterMap fun k =>
          (decisionsOf w tenantId membershipId k).getLast?.map CommittedDecision.control
        destination := (replacementsOf w tenantId membershipId).getLast?.map
          CommittedReplacement.destination }
  one_active : ∀ tenantId membershipId,
    w.db.destinations.rows.countP (isActiveOf tenantId membershipId) ≤ 1

variable {toISOString} {w : ComplianceWorld}

theorem HoldsLast.checkVersion_eq_length (h : HoldsLast w) (tenantId membershipId : Uuid)
    (k : ReadinessKey) : checkVersion w.db tenantId membershipId k =
      (decisionsOf w tenantId membershipId k).length := by
  obtain ⟨x, hwrites, hrow⟩ := h.controls tenantId membershipId k
  rw [h.checkVersion_eq hwrites hrow, ← hwrites]
  rfl

theorem HoldsLast.destinationVersion_eq_length (h : HoldsLast w) (tenantId membershipId : Uuid) :
    destinationVersion w.db tenantId membershipId =
      (replacementsOf w tenantId membershipId).length := by
  obtain ⟨x, hwrites, hrow⟩ := h.destinations tenantId membershipId
  rw [h.destinationVersion_eq hwrites hrow, ← hwrites]
  rfl

/-- The versions named and made, of writes of which each has made the version after its own. -/
theorem map_versions {α : Type} {named version : α → Nat} (x : Register α named)
    (hmade : ∀ u ∈ x.writes, version u = named u + 1) :
    x.writes.map (fun u => (named u, version u)) =
      (List.range x.writes.length).map fun n => (n, n + 1) := by
  rw [← x.consecutive, List.map_map]
  exact List.map_congr_left fun u hu => congrArg (Prod.mk (named u)) (hmade u hu)

theorem HoldsLast.decision_commits (h : HoldsLast w) {actor : PayoutComplianceActor}
    {membershipId : Uuid} {k : ReadinessKey} {input : PayoutComplianceDecisionInput}
    {reviewedAt : Instant} {uuids : Nat → Uuid} (hready : w.Ready actor membershipId uuids)
    (hcurrent : input.expectedVersion = (decisionsOf w actor.tenantId membershipId k).length) :
    decisionsOf ((ComplianceStep.decide actor membershipId k input reviewedAt uuids).apply
        toISOString w) actor.tenantId membershipId k =
      decisionsOf w actor.tenantId membershipId k ++
        [⟨actor.tenantId, membershipId, k, input, input.expectedVersion + 1⟩] := by
  rw [← h.checkVersion_eq_length] at hcurrent
  have hexists : ∃ control s', Commits
      (PayoutCompliance.decide toISOString actor membershipId k input reviewedAt)
        ⟨w.db, uuids⟩ control s' :=
    exists_commits_decide hready.writable h.checks_positive hready.fresh_check hcurrent
  obtain ⟨control, s', hcommits⟩ := hexists
  obtain ⟨-, hleaves, -⟩ := commits_decide hcommits
  rw [apply_of_commits_decide hcommits, hleaves.version_eq]
  exact filter_concat_of_pos (p := CommittedDecision.isOf actor.tenantId membershipId k)
    (CommittedDecision.isOf_iff.mpr ⟨rfl, rfl, rfl⟩)

theorem HoldsLast.replacement_commits (h : HoldsLast w) {actor : PayoutComplianceActor}
    {membershipId : Uuid} {input : PayoutDestinationInput} {uuids : Nat → Uuid}
    (hready : w.Ready actor membershipId uuids)
    (hcurrent : input.expectedVersion = (replacementsOf w actor.tenantId membershipId).length) :
    ∃ id, replacementsOf ((ComplianceStep.replaceDestination actor membershipId input uuids).apply
        toISOString w) actor.tenantId membershipId =
      replacementsOf w actor.tenantId membershipId ++
        [⟨actor.tenantId, membershipId, input, id, input.expectedVersion + 1⟩] := by
  rw [← h.destinationVersion_eq_length] at hcurrent
  have hexists : ∃ destination s', Commits
      (PayoutCompliance.replaceDestination toISOString actor membershipId input)
        ⟨w.db, uuids⟩ destination s' :=
    exists_commits_replaceDestination hready.writable h.destinations_positive
      hready.fresh_destination hcurrent
  obtain ⟨destination, s', hcommits⟩ := hexists
  obtain ⟨-, ⟨id, hid⟩, -⟩ := commits_replaceDestination hcommits
  refine ⟨destination.id, ?_⟩
  have hversion : destination.version = input.expectedVersion + 1 := by
    rw [hid]
    rfl
  rw [apply_of_commits_replaceDestination hcommits, hversion]
  exact filter_concat_of_pos (p := CommittedReplacement.isOf actor.tenantId membershipId)
    (CommittedReplacement.isOf_iff.mpr ⟨rfl, rfl⟩)

theorem HoldsLast.decision_stale (h : HoldsLast w) {actor : PayoutComplianceActor}
    {membershipId : Uuid} {k : ReadinessKey} {input : PayoutComplianceDecisionInput}
    {reviewedAt : Instant} {uuids : Nat → Uuid}
    (hstale : input.expectedVersion ≠ (decisionsOf w actor.tenantId membershipId k).length) :
    (ComplianceStep.decide actor membershipId k input reviewedAt uuids).apply toISOString w =
      w := by
  rw [← h.checkVersion_eq_length] at hstale
  rcases commits_or_raises (PayoutCompliance.decide toISOString actor membershipId k input
    reviewedAt) ⟨w.db, uuids⟩ with ⟨control, s', hcommits⟩ | ⟨e, hraises⟩
  · obtain ⟨hwritten, -, -⟩ := commits_decide hcommits
    exact absurd (CheckWritten.named (s := ⟨w.db, uuids⟩) hwritten) hstale
  · exact apply_of_raises_decide hraises

theorem HoldsLast.replacement_stale (h : HoldsLast w) {actor : PayoutComplianceActor}
    {membershipId : Uuid} {input : PayoutDestinationInput} {uuids : Nat → Uuid}
    (hstale : input.expectedVersion ≠ (replacementsOf w actor.tenantId membershipId).length) :
    (ComplianceStep.replaceDestination actor membershipId input uuids).apply toISOString w =
      w := by
  rw [← h.destinationVersion_eq_length] at hstale
  rcases commits_or_raises (PayoutCompliance.replaceDestination toISOString actor membershipId
    input) ⟨w.db, uuids⟩ with ⟨destination, s', hcommits⟩ | ⟨e, hraises⟩
  · obtain ⟨hwritten, -, -⟩ := commits_replaceDestination hcommits
    exact absurd (DestinationWritten.named (s := ⟨w.db, uuids⟩) hwritten) hstale
  · exact apply_of_raises_replaceDestination hraises

theorem HoldsLast.read_last (h : HoldsLast w) (rest : Registry) (tenantId membershipId : Uuid) :
    readInput (w.db.registry rest) tenantId membershipId =
      { manualChecks := PAYOUT_COMPLIANCE_CONTROL_KEYS.filterMap fun k =>
          (decisionsOf w tenantId membershipId k).getLast?.map CommittedDecision.control
        destination := (replacementsOf w tenantId membershipId).getLast?.map
          CommittedReplacement.destination } := by
  rw [readInput_registry]
  congr 1
  · refine congrArg (fun f => PAYOUT_COMPLIANCE_CONTROL_KEYS.filterMap f) (funext fun k => ?_)
    obtain ⟨x, hwrites, hrow⟩ := h.controls tenantId membershipId k
    rw [hrow, ← hwrites]
    rfl
  · obtain ⟨x, hwrites, hrow⟩ := h.destinations tenantId membershipId
    rw [hrow, ← hwrites]
    rfl

theorem HoldsLast.versionsHold (h : HoldsLast w) : VersionsHold toISOString w where
  decision_versions tenantId membershipId k := by
    obtain ⟨x, hwrites, -⟩ := h.controls tenantId membershipId k
    rw [← hwrites]
    refine map_versions x fun u hu => h.decisions_made u ?_
    rw [hwrites] at hu
    exact List.mem_of_mem_filter hu
  destination_versions tenantId membershipId := by
    obtain ⟨x, hwrites, -⟩ := h.destinations tenantId membershipId
    rw [← hwrites]
    refine map_versions x fun u hu => h.replacements_made u ?_
    rw [hwrites] at hu
    exact List.mem_of_mem_filter hu
  decision_commits _ _ _ _ _ _ hready hcurrent := h.decision_commits hready hcurrent
  replacement_commits _ _ _ _ hready hcurrent := h.replacement_commits hready hcurrent
  decision_stale _ _ _ _ _ _ hstale := by
    refine ⟨h.decision_stale hstale, fun hw => raises_decide_stale hw ?_⟩
    rw [h.checkVersion_eq_length]
    exact hstale
  replacement_stale _ _ _ _ hstale := by
    refine ⟨h.replacement_stale hstale, fun hw => raises_replaceDestination_stale hw ?_⟩
    rw [h.destinationVersion_eq_length]
    exact hstale
  read_last := h.read_last
  one_active tenantId membershipId := by
    rw [List.countP_eq_length_filter, filter_eq_find? w.db.destinations.rows_nodup active_unique]
    cases w.db.destinations.rows.find? (isActiveOf tenantId membershipId) with
    | none => exact Nat.zero_le 1
    | some d => exact Nat.le_refl 1

/-- However decisions and replacements interleave, no update is lost. -/
theorem versions_hold (toISOString : Instant → String)
    (h : Reachable ComplianceWorld.Initial (ComplianceStep.apply toISOString) w) :
    VersionsHold toISOString w :=
  HoldsLast.versionsHold
    (h.invariant (fun _ => HoldsLast.initial) fun step _ => HoldsLast.step step)

namespace Demo

open Engine.Demo (registry uuidsFrom)

def undecided : ComplianceWorld := ⟨⟨registry.memberships, .empty, .empty, []⟩, [], []⟩

theorem undecided_initial : undecided.Initial := ⟨rfl, rfl, rfl, rfl⟩

/-- The sponsor reviews the seller. -/
def reviewer : PayoutComplianceActor := ⟨11, 1, 3⟩

def firstDecision (status : ReviewedStatus) : PayoutComplianceDecisionInput :=
  ⟨status, "reviewed", none, 0, by decide⟩

def firstAccount (reference : String) : PayoutDestinationInput :=
  ⟨reference, none, "US", "USD", 0, 0, by decide⟩

def secondAccount : PayoutDestinationInput := ⟨"C", none, "US", "USD", 0, 1, by decide⟩

/-- Two first decisions and two first destinations race, and the destination is replaced. -/
def racing : List ComplianceStep :=
  [.decide reviewer 2 .kyc (firstDecision .ready) 1 (uuidsFrom 100),
    .decide reviewer 2 .kyc (firstDecision .blocked) 1 (uuidsFrom 200),
    .replaceDestination reviewer 2 (firstAccount "A") (uuidsFrom 300),
    .replaceDestination reviewer 2 (firstAccount "B") (uuidsFrom 400),
    .replaceDestination reviewer 2 secondAccount (uuidsFrom 500)]

def raced : ComplianceWorld := run (ComplianceStep.apply fun _ => "") racing undecided

end Demo

/-- Of two first decisions one stands, and of three destinations the second is refused. -/
theorem versions_hold_racing :
    (decisionsOf Demo.raced 1 2 .kyc).map (fun u => u.input.status) = [.ready] ∧
      (replacementsOf Demo.raced 1 2).map (fun u => u.input.providerReference) = ["A", "C"] ∧
        VersionsHold (fun _ => "") Demo.raced :=
  ⟨by decide, by decide,
    versions_hold (fun _ => "") ((Reachable.start Demo.undecided_initial).run Demo.racing)⟩

end Runs

end Refearn.Payouts
