import Refearn.Payouts.Decisions
/-!
# What a compliance write does

A write commits exactly on the version it names. A decision leaves one row of its control behind
and the other controls alone; a replacement leaves one active destination of its member and
the other members alone.
-/

namespace Refearn.Payouts

open Support Support.Transaction Engine

/-! ## The one row of a control, the one active destination -/

theorem find?_eq_some_of_unique {ρ : Type} {p : ρ → Bool} {rows : List ρ} {r : ρ}
    (hunique : ∀ a ∈ rows, ∀ b ∈ rows, p a = true → p b = true → a = b) (hr : r ∈ rows)
    (hp : p r = true) : rows.find? p = some r := by
  cases hfind : rows.find? p with
  | none => exact absurd hp (List.find?_eq_none.mp hfind r hr)
  | some a =>
      have ha := List.mem_of_find?_eq_some hfind
      rw [hunique a ha r hr (List.find?_some hfind) hp]

/-- Rewriting rows that a search does not look for leaves what it finds alone. -/
theorem find?_map_of_kept {ρ : Type} {p : ρ → Bool} {f : ρ → ρ} (hp : ∀ r, p (f r) = p r)
    (hf : ∀ r, p r = true → f r = r) (rows : List ρ) :
    (rows.map f).find? p = rows.find? p := by
  rw [List.find?_map]
  have hpf : p ∘ f = p := funext hp
  rw [hpf]
  cases hfind : rows.find? p with
  | none => rfl
  | some r => exact congrArg some (hf r (List.find?_some hfind))

/-- A row that no other row matches is counted once. -/
theorem countP_eq_one_of_unique {ρ : Type} {p : ρ → Bool} {rows : List ρ} {r : ρ}
    (hnodup : rows.Nodup) (hr : r ∈ rows) (hp : p r = true)
    (hunique : ∀ a ∈ rows, p a = true → a = r) : rows.countP p = 1 := by
  induction rows with
  | nil => cases hr
  | cons a rows ih =>
      obtain ⟨hfresh, hrest⟩ := List.nodup_cons.mp hnodup
      rcases List.mem_cons.mp hr with rfl | hr'
      · rw [List.countP_cons_of_pos hp, Nat.succ_inj]
        refine List.countP_eq_zero.mpr fun b hb hpb => hfresh ?_
        rw [← hunique b (List.mem_cons_of_mem _ hb) hpb]
        exact hb
      · have hpa : ¬p a = true := fun hpa =>
          hfresh (hunique a List.mem_cons_self hpa ▸ hr')
        rw [List.countP_cons_of_neg hpa]
        exact ih hrest hr' fun b hb => hunique b (List.mem_cons_of_mem _ hb)

/-- An update of the one row that matches finds it exactly if it names the version of the row. -/
theorem countP_named_eq_one {ρ : Type} {p : ρ → Bool} {version : ρ → Nat} {rows : List ρ}
    (hnodup : rows.Nodup)
    (hunique : ∀ a ∈ rows, ∀ b ∈ rows, p a = true → p b = true → a = b) {n : Nat} (hn : n ≠ 0) :
    rows.countP (fun r => p r && version r == n) = 1 ↔
      ((rows.find? p).map version).getD 0 = n := by
  constructor
  · intro hcount
    have hpos : 0 < rows.countP (fun r => p r && version r == n) := by
      rw [hcount]
      exact Nat.one_pos
    obtain ⟨r, hr, hmatch⟩ := List.countP_pos_iff.mp hpos
    rw [Bool.and_eq_true, beq_iff_eq] at hmatch
    rw [find?_eq_some_of_unique hunique hr hmatch.1]
    exact hmatch.2
  · intro hcurrent
    cases hfind : rows.find? p with
    | none =>
        rw [hfind] at hcurrent
        exact absurd hcurrent.symm hn
    | some r =>
        rw [hfind] at hcurrent
        have hr := List.mem_of_find?_eq_some hfind
        have hof := List.find?_some hfind
        refine countP_eq_one_of_unique hnodup hr ?_ fun r' hr' hmatch => ?_
        · rw [hof, Bool.true_and, beq_iff_eq]
          exact hcurrent
        · rw [Bool.and_eq_true] at hmatch
          exact hunique r' hr' r hr hmatch.1 hof

theorem isCheckOf_iff {tenantId membershipId : Uuid} {k : ReadinessKey}
    {r : ReadinessCheckRow} : isCheckOf tenantId membershipId k r = true ↔
      r.tenantId = tenantId ∧ r.membershipId = membershipId ∧ r.key = k := by
  simp only [isCheckOf, Bool.and_eq_true, beq_iff_eq, and_assoc]

theorem isActiveOf_iff {tenantId membershipId : Uuid} {d : DestinationRow} :
    isActiveOf tenantId membershipId d = true ↔
      d.tenantId = tenantId ∧ d.membershipId = membershipId ∧ d.active = true := by
  simp only [isActiveOf, Bool.and_eq_true, beq_iff_eq, and_assoc]

theorem clash_of_isCheckOf {tenantId membershipId : Uuid} {k : ReadinessKey}
    {r r' : ReadinessCheckRow} (h : isCheckOf tenantId membershipId k r = true)
    (h' : isCheckOf tenantId membershipId k r' = true) : clash r r' = true := by
  obtain ⟨ht, hm, hk⟩ := isCheckOf_iff.mp h
  obtain ⟨ht', hm', hk'⟩ := isCheckOf_iff.mp h'
  refine clash_of_check_key ?_
  change (r.tenantId, r.membershipId, r.key) = (r'.tenantId, r'.membershipId, r'.key)
  rw [ht, hm, hk, ht', hm', hk']

theorem clash_of_isActiveOf {tenantId membershipId : Uuid} {d d' : DestinationRow}
    (h : isActiveOf tenantId membershipId d = true)
    (h' : isActiveOf tenantId membershipId d' = true) : clash d d' = true := by
  obtain ⟨ht, hm, ha⟩ := isActiveOf_iff.mp h
  obtain ⟨ht', hm', ha'⟩ := isActiveOf_iff.mp h'
  change (d.active && d'.active && d.tenantId == d'.tenantId &&
    d.membershipId == d'.membershipId) = true
  rw [ha, ha', ht, hm, ht', hm', beq_self_eq_true, beq_self_eq_true]
  rfl

theorem clash_check_comm (r r' : ReadinessCheckRow) : clash r r' = clash r' r := by
  change (_ && _ && _) = (_ && _ && _)
  rw [Bool.beq_comm (a := r.tenantId), Bool.beq_comm (a := r.membershipId),
    Bool.beq_comm (a := r.key)]

theorem clash_destination_comm (d d' : DestinationRow) : clash d d' = clash d' d := by
  change (_ && _ && _ && _) = (_ && _ && _ && _)
  rw [Bool.and_comm d.active, Bool.beq_comm (a := d.tenantId),
    Bool.beq_comm (a := d.membershipId)]

/-- One row for each control of a member. -/
theorem check_unique {checks : Table ReadinessCheckRow} {tenantId membershipId : Uuid}
    {k : ReadinessKey} : ∀ a ∈ checks.rows, ∀ b ∈ checks.rows,
      isCheckOf tenantId membershipId k a = true →
        isCheckOf tenantId membershipId k b = true → a = b :=
  fun _ ha _ hb h h' => Table.eq_of_clash clash_check_comm ha hb (clash_of_isCheckOf h h')

/-- One active destination for each member. -/
theorem active_unique {destinations : Table DestinationRow} {tenantId membershipId : Uuid} :
    ∀ a ∈ destinations.rows, ∀ b ∈ destinations.rows,
      isActiveOf tenantId membershipId a = true →
        isActiveOf tenantId membershipId b = true → a = b :=
  fun _ ha _ hb h h' => Table.eq_of_clash clash_destination_comm ha hb (clash_of_isActiveOf h h')

/-- The version that a decision on a control has to name. -/
def checkVersion (db : ComplianceDb) (tenantId membershipId : Uuid) (k : ReadinessKey) : Nat :=
  ((db.checks.rows.find? (isCheckOf tenantId membershipId k)).map
    ReadinessCheckRow.version).getD 0

/-- The version that a replacement of a destination has to name. -/
def destinationVersion (db : ComplianceDb) (tenantId membershipId : Uuid) : Nat :=
  ((db.destinations.rows.find? (isActiveOf tenantId membershipId)).map
    DestinationRow.version).getD 0

theorem version_of_check {db : ComplianceDb} {tenantId membershipId : Uuid} {k : ReadinessKey}
    {r : ReadinessCheckRow} (hr : r ∈ db.checks)
    (hof : isCheckOf tenantId membershipId k r = true) :
    r.version = checkVersion db tenantId membershipId k := by
  unfold checkVersion
  rw [find?_eq_some_of_unique check_unique hr hof]
  rfl

theorem version_of_active {db : ComplianceDb} {tenantId membershipId : Uuid}
    {d : DestinationRow} (hd : d ∈ db.destinations)
    (hof : isActiveOf tenantId membershipId d = true) :
    d.version = destinationVersion db tenantId membershipId := by
  unfold destinationVersion
  rw [find?_eq_some_of_unique active_unique hd hof]
  rfl

/-! ## A committed decision -/

/-- What a committed decision has done to the checks. -/
inductive CheckWritten (actor : PayoutComplianceActor) (membershipId : Uuid)
    (k : ReadinessKey) (input : PayoutComplianceDecisionInput) (reviewedAt : Instant)
    (checks checks' : Table ReadinessCheckRow) : Prop
  | created (id : Uuid) (hnamed : input.expectedVersion = 0)
      (hinserted : checks.insert? (firstCheck actor membershipId k input reviewedAt id) =
        some checks')
  | updated (r : ReadinessCheckRow) (hr : r ∈ checks)
      (hof : isCheckOf actor.tenantId membershipId k r = true)
      (hnamed : r.version = input.expectedVersion)
      (hupdated : checks' = checks.updateWhere
        (fun r => isCheckOf actor.tenantId membershipId k r && r.version == input.expectedVersion)
        (ReadinessCheckRow.decided actor input reviewedAt) (keepsIndexes_decided ..))

/-- A member that a reviewer may decide on. -/
structure Writable (db : ComplianceDb) (actor : PayoutComplianceActor) (membershipId : Uuid) :
    Prop where
  other : actor.membershipId ≠ membershipId
  member : ((db.memberships.find? membershipId).filter (·.tenantId = actor.tenantId)).isSome

section Decision

variable {toISOString : Instant → String} {actor : PayoutComplianceActor} {membershipId : Uuid}
  {k : ReadinessKey} {input : PayoutComplianceDecisionInput} {reviewedAt : Instant}
  {s s' : ComplianceSession} {control : ReadinessCheckRow}

theorem commits_lockMembership {tenantId : Uuid} {u : PUnit} :
    Commits (lockMembership tenantId membershipId) s u s' ↔
      ((s.db.memberships.find? membershipId).filter (·.tenantId = tenantId)).isSome ∧ s = s' := by
  unfold lockMembership
  simp only [commits_bind, commits_get, commits_require]
  constructor
  · rintro ⟨_, _, ⟨rfl, rfl⟩, h⟩
    exact h
  · intro h
    exact ⟨s, s, ⟨rfl, rfl⟩, h⟩

/-- The row that a committed decision leaves behind. -/
structure LeavesCheck (tenantId membershipId : Uuid) (k : ReadinessKey)
    (input : PayoutComplianceDecisionInput) (checks : Table ReadinessCheckRow)
    (control : ReadinessCheckRow) : Prop where
  found : checks.rows.find? (isCheckOf tenantId membershipId k) = some control
  key_eq : control.key = k
  status_eq : control.status = input.status.status
  reason_eq : control.reasonCode = input.reasonCode
  expires_eq : control.expiresAt = input.expiresAt
  version_eq : control.version = input.expectedVersion + 1

theorem leavesCheck_created {checks checks' : Table ReadinessCheckRow} {id : Uuid}
    (hnamed : input.expectedVersion = 0)
    (hinserted : checks.insert? (firstCheck actor membershipId k input reviewedAt id) =
      some checks') : LeavesCheck actor.tenantId membershipId k input checks'
        (firstCheck actor membershipId k input reviewedAt id) where
  found := find?_eq_some_of_unique check_unique ((Table.mem_insert? hinserted).mpr (.inr rfl))
    (isCheckOf_iff.mpr ⟨rfl, rfl, rfl⟩)
  key_eq := rfl
  status_eq := rfl
  reason_eq := rfl
  expires_eq := rfl
  version_eq := by
    rw [hnamed]
    rfl

theorem leavesCheck_updated {checks checks' : Table ReadinessCheckRow} {r : ReadinessCheckRow}
    (hr : r ∈ checks) (hof : isCheckOf actor.tenantId membershipId k r = true)
    (hnamed : r.version = input.expectedVersion)
    (hupdated : checks' = checks.updateWhere
      (fun r => isCheckOf actor.tenantId membershipId k r && r.version == input.expectedVersion)
      (ReadinessCheckRow.decided actor input reviewedAt) (keepsIndexes_decided ..)) :
    LeavesCheck actor.tenantId membershipId k input checks'
      (ReadinessCheckRow.decided actor input reviewedAt r) where
  found := by
    have hmem : ReadinessCheckRow.decided actor input reviewedAt r ∈ checks'.rows := by
      rw [hupdated, Table.rows_updateWhere]
      refine List.mem_map.mpr ⟨r, hr, ?_⟩
      rw [hof, hnamed, beq_self_eq_true]
      rfl
    exact find?_eq_some_of_unique check_unique hmem hof
  key_eq := (isCheckOf_iff.mp hof).2.2
  status_eq := rfl
  reason_eq := rfl
  expires_eq := rfl
  version_eq := congrArg (· + 1) hnamed

theorem commits_writeCheck (h : Commits (writeCheck actor membershipId k input reviewedAt) s
    control s') : CheckWritten actor membershipId k input reviewedAt s.db.checks s'.db.checks ∧
      LeavesCheck actor.tenantId membershipId k input s'.db.checks control ∧
        s'.db.destinations = s.db.destinations := by
  unfold writeCheck at h
  rw [commits_ite] at h
  rcases h with ⟨hnamed, h⟩ | ⟨-, h⟩
  · unfold createCheck at h
    simp only [commits_bind, commits_newId, commits_get, commits_orThrow, commits_set,
      commits_pure] at h
    obtain ⟨id, _, ⟨rfl, rfl⟩, _, _, ⟨rfl, rfl⟩, checks, _, ⟨hinserted, rfl⟩, _, _, rfl, rfl, rfl⟩ :=
      h
    exact ⟨.created _ hnamed hinserted, leavesCheck_created hnamed hinserted, rfl⟩
  · unfold updateCheck at h
    simp only [commits_bind, commits_get, commits_require, commits_orThrow, commits_set] at h
    obtain ⟨_, _, ⟨rfl, rfl⟩, _, _, ⟨hcount, rfl⟩, _, _, rfl, hfound, rfl⟩ := h
    have hpos : 0 < s.db.checks.rows.countP fun r =>
        isCheckOf actor.tenantId membershipId k r && r.version == input.expectedVersion := by
      rw [hcount]
      exact Nat.one_pos
    obtain ⟨r, hr, hmatch⟩ := List.countP_pos_iff.mp hpos
    rw [Bool.and_eq_true, beq_iff_eq] at hmatch
    have hleaves : LeavesCheck actor.tenantId membershipId k input _
        (ReadinessCheckRow.decided actor input reviewedAt r) :=
      leavesCheck_updated hr hmatch.1 hmatch.2 rfl
    have hcontrol := Option.some.inj (hleaves.found.symm.trans hfound)
    exact ⟨.updated r hr hmatch.1 hmatch.2 rfl, hcontrol ▸ hleaves, rfl⟩

theorem commits_decide
    (h : Commits (PayoutCompliance.decide toISOString actor membershipId k input reviewedAt) s
      control s') : CheckWritten actor membershipId k input reviewedAt s.db.checks s'.db.checks ∧
        LeavesCheck actor.tenantId membershipId k input s'.db.checks control ∧
          s'.db.destinations = s.db.destinations := by
  unfold PayoutCompliance.decide decideInTransaction writeAudit at h
  simp only [commits_bind, commits_require, commits_mapErrors, commits_lockMembership,
    commits_modify, commits_pure] at h
  obtain ⟨_, _, ⟨-, rfl⟩, _, _, ⟨-, rfl⟩, _, _, hwrite, _, _, rfl, rfl, rfl⟩ := h
  obtain ⟨hwritten, hleaves, hdestinations⟩ := commits_writeCheck hwrite
  exact ⟨hwritten, hleaves, hdestinations⟩

/-- A decision commits on the version it names. -/
theorem CheckWritten.named {checks' : Table ReadinessCheckRow}
    (h : CheckWritten actor membershipId k input reviewedAt s.db.checks checks') :
    input.expectedVersion = checkVersion s.db actor.tenantId membershipId k := by
  unfold checkVersion
  cases h with
  | created id hnamed hinserted =>
      have hnone : s.db.checks.rows.find? (isCheckOf actor.tenantId membershipId k) = none := by
        refine List.find?_eq_none.mpr fun r hr hof => ?_
        have hself : isCheckOf actor.tenantId membershipId k
            (firstCheck actor membershipId k input reviewedAt id) = true :=
          isCheckOf_iff.mpr ⟨rfl, rfl, rfl⟩
        have hfree := ((Table.insert?_eq_some.mp hinserted).1 r hr).2
        rw [clash_of_isCheckOf hof hself] at hfree
        cases hfree
      rw [hnone, hnamed]
      rfl
  | updated r hr hof hnamed hupdated =>
      rw [find?_eq_some_of_unique check_unique hr hof]
      exact hnamed.symm

/-- A decision leaves the other controls alone. -/
theorem CheckWritten.others {checks checks' : Table ReadinessCheckRow}
    (h : CheckWritten actor membershipId k input reviewedAt checks checks')
    {tenantId' membershipId' : Uuid} {k' : ReadinessKey}
    (hother : ¬(actor.tenantId = tenantId' ∧ membershipId = membershipId' ∧ k = k')) :
    checks'.rows.find? (isCheckOf tenantId' membershipId' k') =
      checks.rows.find? (isCheckOf tenantId' membershipId' k') := by
  -- no row is of two controls
  have hdisjoint : ∀ r, isCheckOf actor.tenantId membershipId k r = true →
      isCheckOf tenantId' membershipId' k' r = false := by
    intro r hof
    obtain ⟨ht, hm, hk⟩ := isCheckOf_iff.mp hof
    refine Bool.of_not_eq_true fun hof' => hother ?_
    obtain ⟨ht', hm', hk'⟩ := isCheckOf_iff.mp hof'
    exact ⟨ht.symm.trans ht', hm.symm.trans hm', hk.symm.trans hk'⟩
  cases h with
  | created id hnamed hinserted =>
      rw [(Table.insert?_eq_some.mp hinserted).2, List.find?_append, List.find?_singleton,
        hdisjoint _ (isCheckOf_iff.mpr ⟨rfl, rfl, rfl⟩), if_neg Bool.false_ne_true, Option.or_none]
  | updated r hr hof hnamed hupdated =>
      rw [hupdated, Table.rows_updateWhere]
      refine find?_map_of_kept (fun r => ?_) (fun r hof' => if_neg fun hnamed => ?_) _
      · split_ifs
        · rfl
        · rfl
      · rw [Bool.and_eq_true] at hnamed
        have hfalse := hdisjoint r hnamed.1
        rw [hof'] at hfalse
        cases hfalse

/-- A decision that names another version than the current one is refused. -/
theorem raises_decide_stale (hw : Writable s.db actor membershipId)
    (hstale : input.expectedVersion ≠ checkVersion s.db actor.tenantId membershipId k) :
    Raises (PayoutCompliance.decide toISOString actor membershipId k input reviewedAt) s
      versionChanged := by
  have hwrite : ∃ e, Raises (writeCheck actor membershipId k input reviewedAt) s e ∧
      rethrowVersionConflict e = versionChanged := by
    unfold writeCheck
    by_cases hzero : input.expectedVersion = 0
    · refine ⟨.uniqueViolation "payout_readiness_checks", ?_, rfl⟩
      rw [if_pos hzero]
      unfold createCheck
      simp only [raises_bind, raises_newId, commits_newId, raises_get, commits_get,
        raises_orThrow, false_or]
      -- the control has a row already, to which the index objects
      have hnone : s.db.checks.insert?
          (firstCheck actor membershipId k input reviewedAt (s.uuids 0)) = none := by
        refine Option.eq_none_iff_forall_ne_some.mpr fun checks' hinsert => hstale ?_
        exact CheckWritten.named (.created _ hzero hinsert)
      exact ⟨_, _, ⟨rfl, rfl⟩, _, _, ⟨rfl, rfl⟩, .inl ⟨hnone, trivial⟩⟩
    · refine ⟨versionChanged, ?_, rfl⟩
      rw [if_neg hzero]
      unfold updateCheck
      simp only [raises_bind, raises_get, commits_get, raises_require, false_or]
      exact ⟨_, _, ⟨rfl, rfl⟩, .inl ⟨fun hcount =>
        hstale ((countP_named_eq_one s.db.checks.rows_nodup check_unique hzero).mp hcount).symm, trivial⟩⟩
  obtain ⟨e, hraises, hrename⟩ := hwrite
  unfold PayoutCompliance.decide decideInTransaction
  simp only [raises_bind, commits_require, commits_lockMembership, raises_mapErrors]
  exact .inr ⟨⟨⟩, s, ⟨hw.other, rfl⟩, e, .inr ⟨⟨⟩, s, ⟨hw.member, rfl⟩, .inl hraises⟩, hrename⟩

/-- A decision that names the current version commits. -/
theorem exists_commits_decide (hw : Writable s.db actor membershipId)
    (hpositive : ∀ r ∈ s.db.checks, 0 < r.version)
    (hfresh : ∀ r ∈ s.db.checks, r.id ≠ s.uuids 0)
    (hcurrent : input.expectedVersion = checkVersion s.db actor.tenantId membershipId k) :
    ∃ control s', Commits
      (PayoutCompliance.decide toISOString actor membershipId k input reviewedAt) s control s' := by
  have hwrite : ∃ control s', Commits (writeCheck actor membershipId k input reviewedAt) s
      control s' := by
    unfold writeCheck
    by_cases hzero : input.expectedVersion = 0
    · rw [if_pos hzero]
      have hnone : ∀ r ∈ s.db.checks, isCheckOf actor.tenantId membershipId k r = false := by
        intro r hr
        refine Bool.of_not_eq_true fun hof => ?_
        have hpos := hpositive r hr
        rw [version_of_check hr hof, ← hcurrent, hzero] at hpos
        exact absurd hpos (Nat.lt_irrefl 0)
      obtain ⟨checks', hinsert⟩ := Table.exists_insert? (t := s.db.checks)
        (r := firstCheck actor membershipId k input reviewedAt (s.uuids 0)) fun r hr =>
          ⟨hfresh r hr, hnone r hr⟩
      unfold createCheck
      simp only [commits_bind, commits_newId, commits_get, commits_orThrow, commits_set,
        commits_pure]
      exact ⟨_, _, _, _, ⟨rfl, rfl⟩, _, _, ⟨rfl, rfl⟩, _, _, ⟨hinsert, rfl⟩, ⟨⟩, _, rfl, rfl, rfl⟩
    · rw [if_neg hzero]
      have hcount := (countP_named_eq_one s.db.checks.rows_nodup check_unique hzero).mpr hcurrent.symm
      obtain ⟨r, hr, hmatch⟩ := List.countP_pos_iff.mp (hcount ▸ Nat.one_pos)
      rw [Bool.and_eq_true, beq_iff_eq] at hmatch
      have hleaves : LeavesCheck actor.tenantId membershipId k input _
          (ReadinessCheckRow.decided actor input reviewedAt r) :=
        leavesCheck_updated hr hmatch.1 hmatch.2 rfl
      unfold updateCheck
      simp only [commits_bind, commits_get, commits_require, commits_orThrow, commits_set]
      exact ⟨_, _, _, _, ⟨rfl, rfl⟩, ⟨⟩, _, ⟨hcount, rfl⟩, ⟨⟩, _, rfl, hleaves.found, rfl⟩
  obtain ⟨control, s', hcommits⟩ := hwrite
  unfold PayoutCompliance.decide decideInTransaction writeAudit
  simp only [commits_bind, commits_require, commits_mapErrors, commits_lockMembership,
    commits_modify, commits_pure]
  exact ⟨control, _, ⟨⟩, s, ⟨hw.other, rfl⟩, ⟨⟩, s, ⟨hw.member, rfl⟩, control, s', hcommits, ⟨⟩, _,
    rfl, rfl, rfl⟩

end Decision

/-! ## A committed replacement -/

/-- What a committed replacement has done to the destinations. -/
inductive DestinationWritten (actor : PayoutComplianceActor) (membershipId : Uuid)
    (input : PayoutDestinationInput) (destinations destinations' : Table DestinationRow)
    (destination : DestinationRow) : Prop
  | first (hnamed : input.expectedVersion = 0)
      (hnone : destinations.rows.find? (isActiveOf actor.tenantId membershipId) = none)
      (hinserted : destinations.insert? destination = some destinations')
  | replaced (d : DestinationRow) (hd : d ∈ destinations)
      (hof : isActiveOf actor.tenantId membershipId d = true)
      (hnamed : d.version = input.expectedVersion)
      (hinserted : (destinations.updateWhere
        (fun d => isActiveOf actor.tenantId membershipId d && d.version == input.expectedVersion)
        DestinationRow.deactivated keepsIndexes_deactivated).insert? destination =
          some destinations')

section Replacement

variable {toISOString : Instant → String} {actor : PayoutComplianceActor} {membershipId : Uuid}
  {input : PayoutDestinationInput} {s s' : ComplianceSession} {destination : DestinationRow}

theorem isActiveOf_newDestination (id : Uuid) : isActiveOf actor.tenantId membershipId
    (newDestination actor membershipId input id) = true :=
  isActiveOf_iff.mpr ⟨rfl, rfl, rfl⟩

theorem commits_createDestination
    (h : Commits (createDestination actor membershipId input) s destination s') :
    (∃ id, destination = newDestination actor membershipId input id) ∧
      s.db.destinations.insert? destination = some s'.db.destinations ∧
        s'.db.checks = s.db.checks := by
  unfold createDestination at h
  simp only [commits_bind, commits_newId, commits_get, commits_orThrow, commits_set,
    commits_pure] at h
  obtain ⟨_, _, ⟨rfl, rfl⟩, _, _, ⟨rfl, rfl⟩, _, _, ⟨hinserted, rfl⟩, _, _, rfl, rfl, rfl⟩ := h
  exact ⟨⟨_, rfl⟩, hinserted, rfl⟩

theorem commits_replaceDestination
    (h : Commits (PayoutCompliance.replaceDestination toISOString actor membershipId input) s
      destination s') :
    DestinationWritten actor membershipId input s.db.destinations s'.db.destinations destination ∧
      (∃ id, destination = newDestination actor membershipId input id) ∧
        s'.db.checks = s.db.checks := by
  unfold PayoutCompliance.replaceDestination replaceDestinationInTransaction writeAudit
    retireDestination at h
  simp only [commits_bind, commits_require, commits_mapErrors, commits_lockMembership,
    commits_get, commits_ite, commits_set, commits_modify, commits_pure] at h
  obtain ⟨_, _, ⟨-, rfl⟩, _, _, ⟨-, rfl⟩, _, _, ⟨_, _, ⟨rfl, rfl⟩, hretire⟩, _, _, hcreate, _, _,
    rfl, rfl, rfl⟩ := h
  obtain ⟨hid, hinserted, hchecks⟩ := commits_createDestination hcreate
  rcases hretire with ⟨hnamed, hnone, rfl⟩ | ⟨-, _, _, ⟨hcount, rfl⟩, rfl⟩
  · exact ⟨.first hnamed (Option.isNone_iff_eq_none.mp hnone) hinserted, hid, hchecks⟩
  · obtain ⟨d, hd, hmatch⟩ := List.countP_pos_iff.mp (hcount ▸ Nat.one_pos)
    rw [Bool.and_eq_true, beq_iff_eq] at hmatch
    exact ⟨.replaced d hd hmatch.1 hmatch.2 hinserted, hid, hchecks⟩

/-- A replacement commits on the version it names. -/
theorem DestinationWritten.named {destinations' : Table DestinationRow}
    (h : DestinationWritten actor membershipId input s.db.destinations destinations' destination) :
    input.expectedVersion = destinationVersion s.db actor.tenantId membershipId := by
  unfold destinationVersion
  cases h with
  | first hnamed hnone hinserted =>
      rw [hnone, hnamed]
      rfl
  | replaced d hd hof hnamed hinserted =>
      rw [find?_eq_some_of_unique active_unique hd hof]
      exact hnamed.symm

/-- The new destination is the one that is active. -/
theorem DestinationWritten.found {destinations destinations' : Table DestinationRow}
    (h : DestinationWritten actor membershipId input destinations destinations' destination)
    (hactive : isActiveOf actor.tenantId membershipId destination = true) :
    destinations'.rows.find? (isActiveOf actor.tenantId membershipId) = some destination := by
  have hmem : destination ∈ destinations' := by
    cases h with
    | first hnamed hnone hinserted => exact (Table.mem_insert? hinserted).mpr (.inr rfl)
    | replaced d hd hof hnamed hinserted => exact (Table.mem_insert? hinserted).mpr (.inr rfl)
  exact find?_eq_some_of_unique active_unique hmem hactive

/-- A replacement leaves the destinations of other members alone. -/
theorem DestinationWritten.others {destinations destinations' : Table DestinationRow}
    (h : DestinationWritten actor membershipId input destinations destinations' destination)
    (hactive : isActiveOf actor.tenantId membershipId destination = true)
    {tenantId' membershipId' : Uuid}
    (hother : ¬(actor.tenantId = tenantId' ∧ membershipId = membershipId')) :
    destinations'.rows.find? (isActiveOf tenantId' membershipId') =
      destinations.rows.find? (isActiveOf tenantId' membershipId') := by
  -- no destination is of two members
  have hdisjoint : ∀ d, isActiveOf actor.tenantId membershipId d = true →
      isActiveOf tenantId' membershipId' d = false := by
    intro d hof
    obtain ⟨ht, hm, -⟩ := isActiveOf_iff.mp hof
    refine Bool.of_not_eq_true fun hof' => hother ?_
    obtain ⟨ht', hm', -⟩ := isActiveOf_iff.mp hof'
    exact ⟨ht.symm.trans ht', hm.symm.trans hm'⟩
  have hlast : ∀ rows : List DestinationRow,
      (rows ++ [destination]).find? (isActiveOf tenantId' membershipId') =
        rows.find? (isActiveOf tenantId' membershipId') := by
    intro rows
    rw [List.find?_append, List.find?_singleton, hdisjoint _ hactive,
      if_neg Bool.false_ne_true, Option.or_none]
  cases h with
  | first hnamed hnone hinserted =>
      rw [(Table.insert?_eq_some.mp hinserted).2, hlast]
  | replaced d hd hof hnamed hinserted =>
      rw [(Table.insert?_eq_some.mp hinserted).2, hlast, Table.rows_updateWhere]
      refine find?_map_of_kept (fun d => ?_) (fun d hof' => if_neg fun hnamed => ?_) _
      · by_cases hretired : (isActiveOf actor.tenantId membershipId d &&
            d.version == input.expectedVersion) = true
        · rw [if_pos hretired]
          rw [Bool.and_eq_true] at hretired
          rw [hdisjoint d hretired.1]
          exact Bool.and_false _
        · rw [if_neg hretired]
      · rw [Bool.and_eq_true] at hnamed
        have hfalse := hdisjoint d hnamed.1
        rw [hof'] at hfalse
        cases hfalse

/-- A replacement that names another version than the current one is refused. -/
theorem raises_replaceDestination_stale (hw : Writable s.db actor membershipId)
    (hstale : input.expectedVersion ≠ destinationVersion s.db actor.tenantId membershipId) :
    Raises (PayoutCompliance.replaceDestination toISOString actor membershipId input) s
      destinationChanged := by
  have hretire : Raises (retireDestination actor membershipId input.expectedVersion) s
      destinationChanged := by
    unfold retireDestination
    simp only [raises_bind, raises_get, commits_get, raises_ite, raises_require, false_or]
    refine ⟨_, _, ⟨rfl, rfl⟩, ?_⟩
    by_cases hzero : input.expectedVersion = 0
    · refine .inl ⟨hzero, fun hnone => hstale ?_, trivial⟩
      unfold destinationVersion
      rw [Option.isNone_iff_eq_none.mp hnone, hzero]
      rfl
    · exact .inr ⟨hzero, .inl ⟨fun hcount => hstale
        ((countP_named_eq_one s.db.destinations.rows_nodup active_unique hzero).mp hcount).symm,
        trivial⟩⟩
  unfold PayoutCompliance.replaceDestination replaceDestinationInTransaction
  simp only [raises_bind, commits_require, commits_lockMembership, raises_mapErrors]
  exact .inr ⟨⟨⟩, s, ⟨hw.other, rfl⟩, destinationChanged,
    .inr ⟨⟨⟩, s, ⟨hw.member, rfl⟩, .inl hretire⟩, rfl⟩

/-- A replacement that names the current version commits. -/
theorem exists_commits_replaceDestination (hw : Writable s.db actor membershipId)
    (hpositive : ∀ d ∈ s.db.destinations, 0 < d.version)
    (hfresh : ∀ d ∈ s.db.destinations, d.id ≠ s.uuids 0)
    (hcurrent : input.expectedVersion = destinationVersion s.db actor.tenantId membershipId) :
    ∃ destination s', Commits
      (PayoutCompliance.replaceDestination toISOString actor membershipId input) s
        destination s' := by
  -- what the retirement leaves, no active destination of the member is among it
  have hretire : ∃ t, Commits (retireDestination actor membershipId input.expectedVersion) s ⟨⟩ t ∧
      t.uuids = s.uuids ∧ ∀ d ∈ t.db.destinations, d.id ≠ s.uuids 0 ∧
        isActiveOf actor.tenantId membershipId d = false := by
    unfold retireDestination
    simp only [commits_bind, commits_get, commits_ite, commits_require, commits_set]
    by_cases hzero : input.expectedVersion = 0
    · have hnone : ∀ d ∈ s.db.destinations,
          isActiveOf actor.tenantId membershipId d = false := by
        intro d hd
        refine Bool.of_not_eq_true fun hof => ?_
        have hpos := hpositive d hd
        rw [version_of_active hd hof, ← hcurrent, hzero] at hpos
        exact absurd hpos (Nat.lt_irrefl 0)
      refine ⟨s, ⟨s, s, ⟨rfl, rfl⟩, .inl ⟨hzero, ?_, rfl⟩⟩, rfl, fun d hd =>
        ⟨hfresh d hd, hnone d hd⟩⟩
      refine Option.isNone_iff_eq_none.mpr (List.find?_eq_none.mpr fun d hd hof => ?_)
      rw [hnone d hd] at hof
      cases hof
    · have hcount := (countP_named_eq_one s.db.destinations.rows_nodup active_unique hzero).mpr
        hcurrent.symm
      refine ⟨_, ⟨s, s, ⟨rfl, rfl⟩, .inr ⟨hzero, ⟨⟩, s, ⟨hcount, rfl⟩, rfl⟩⟩, rfl,
        fun d hd => ?_⟩
      obtain ⟨d₀, hd₀, rfl⟩ := List.mem_map.mp hd
      by_cases hnamed : (isActiveOf actor.tenantId membershipId d₀ &&
          d₀.version == input.expectedVersion) = true
      · rw [if_pos hnamed]
        exact ⟨hfresh d₀ hd₀, Bool.and_false _⟩
      · rw [if_neg hnamed]
        refine ⟨hfresh d₀ hd₀, Bool.of_not_eq_true fun hof => hnamed ?_⟩
        rw [hof, Bool.true_and, beq_iff_eq, version_of_active hd₀ hof, hcurrent]
  obtain ⟨t, hretired, huuids, hfree⟩ := hretire
  obtain ⟨destinations', hinsert⟩ := Table.exists_insert? (t := t.db.destinations)
    (r := newDestination actor membershipId input (t.uuids 0)) fun d hd => by
      refine ⟨huuids ▸ (hfree d hd).1, Bool.of_not_eq_true fun hclash => ?_⟩
      have hof : isActiveOf actor.tenantId membershipId d = true := by
        change (d.active && true && d.tenantId == actor.tenantId &&
          d.membershipId == membershipId) = true at hclash
        rw [Bool.and_true, Bool.and_eq_true, Bool.and_eq_true, beq_iff_eq, beq_iff_eq] at hclash
        exact isActiveOf_iff.mpr ⟨hclash.1.2, hclash.2, hclash.1.1⟩
      rw [(hfree d hd).2] at hof
      cases hof
  have hcreate : ∃ destination s', Commits (createDestination actor membershipId input) t
      destination s' := by
    unfold createDestination
    simp only [commits_bind, commits_newId, commits_get, commits_orThrow, commits_set,
      commits_pure]
    exact ⟨_, _, _, _, ⟨rfl, rfl⟩, _, _, ⟨rfl, rfl⟩, _, _, ⟨hinsert, rfl⟩, ⟨⟩, _, rfl, rfl, rfl⟩
  obtain ⟨destination, s', hcreated⟩ := hcreate
  unfold PayoutCompliance.replaceDestination replaceDestinationInTransaction writeAudit
  simp only [commits_bind, commits_require, commits_mapErrors, commits_lockMembership,
    commits_modify, commits_pure]
  exact ⟨destination, _, ⟨⟩, s, ⟨hw.other, rfl⟩, ⟨⟩, s, ⟨hw.member, rfl⟩, ⟨⟩, t, hretired,
    destination, s', hcreated, ⟨⟩, _, rfl, rfl, rfl⟩

end Replacement

end Refearn.Payouts
