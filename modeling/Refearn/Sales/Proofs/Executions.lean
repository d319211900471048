import Refearn.Sales.Bulk
/-!
# One execution for each idempotency key

A committed call leaves a completed record under its key, no later step touches a
completed record, and a call that finds one changes nothing.
-/

namespace Refearn.Sales

open Support Support.Transaction Engine
open scoped List

/-! ## Records of a key -/

theorem isExecutionOf_iff {actor : ActorContext} {keyHash : String} {e : BulkActionExecution} :
    isExecutionOf actor keyHash e = true ↔
      e.tenantId = actor.tenantId ∧ e.actorUserId = actor.userId ∧
        e.idempotencyKeyHash = keyHash := by
  simp [isExecutionOf, and_assoc]

theorem clash_execution_comm (e e' : BulkActionExecution) : clash e e' = clash e' e := by
  simp only [clash, Bool.beq_comm]

/-- The unique index allows one record for each key of an actor. -/
theorem execution_unique {executions : Table BulkActionExecution} {actor : ActorContext}
    {keyHash : String} {e e' : BulkActionExecution} (he : e ∈ executions) (he' : e' ∈ executions)
    (hof : isExecutionOf actor keyHash e = true) (hof' : isExecutionOf actor keyHash e' = true) :
    e = e' := by
  obtain ⟨htenant, hactor, hkey⟩ := isExecutionOf_iff.mp hof
  obtain ⟨htenant', hactor', hkey'⟩ := isExecutionOf_iff.mp hof'
  refine Table.eq_of_clash clash_execution_comm he he' ?_
  simp [clash, htenant, htenant', hactor, hactor', hkey, hkey']

theorem executions_of_key {executions : Table BulkActionExecution} {actor : ActorContext}
    {keyHash : String} {e : BulkActionExecution} (he : e ∈ executions)
    (hof : isExecutionOf actor keyHash e = true) :
    executions.rows.filter (isExecutionOf actor keyHash) = [e] := by
  have hnodup : (executions.rows.filter (isExecutionOf actor keyHash)).Nodup :=
    executions.rows_nodup.filter _
  have hperm : executions.rows.filter (isExecutionOf actor keyHash) ~ [e] := by
    refine (List.perm_ext_iff_of_nodup hnodup (List.nodup_singleton e)).mpr fun e' => ?_
    rw [List.mem_filter, List.mem_singleton]
    constructor
    · rintro ⟨hin, hof'⟩
      exact execution_unique hin he hof' hof
    · rintro rfl
      exact ⟨he, hof⟩
  exact List.perm_singleton.mp hperm

/-- Every completed record of `executions` is still there in `executions'`. -/
def KeepsCompleted (executions executions' : Table BulkActionExecution) : Prop :=
  ∀ e ∈ executions, ∀ response, e.status = .completed response → e ∈ executions'

theorem KeepsCompleted.refl (executions : Table BulkActionExecution) :
    KeepsCompleted executions executions := fun _ he _ _ => he

theorem KeepsCompleted.trans {executions executions' executions'' : Table BulkActionExecution}
    (h : KeepsCompleted executions executions') (h' : KeepsCompleted executions' executions'') :
    KeepsCompleted executions executions'' :=
  fun e he response hcompleted => h' e (h e he response hcompleted) response hcompleted

/-! ## Beginning an execution -/

/-- A record is appended where the key has none. -/
structure Appended (actor : ActorContext) (keyHash requestHash : String) (id : Uuid)
    (executions executions' : Table BulkActionExecution) : Prop where
  free : ∀ e ∈ executions, isExecutionOf actor keyHash e = false
  fresh : ∀ e ∈ executions, e.id ≠ id
  rows : executions'.rows = executions.rows ++
    [⟨id, actor.tenantId, actor.userId, keyHash, requestHash, .processing⟩]

theorem commits_insertExecution {actor : ActorContext} {keyHash requestHash : String}
    {t t' : BulkSession} {inserted : Bool}
    (h : Commits (insertExecution actor keyHash requestHash) t inserted t') :
    t'.session.db = t.session.db ∧
      ((inserted = false ∧ t'.executions = t.executions ∧
          ∃ e ∈ t.executions, isExecutionOf actor keyHash e = true) ∨
        (inserted = true ∧ ∃ id, Appended actor keyHash requestHash id t.executions t'.executions)) := by
  unfold insertExecution at h
  simp only [commits_bind, commits_inEngine, commits_genRandomUuid, commits_get, commits_ite,
    commits_pure, commits_require, commits_orThrow, commits_set] at h
  obtain ⟨id, _, ⟨_, ⟨-, rfl⟩, rfl⟩, _, _, ⟨rfl, rfl⟩, hcase⟩ := h
  rcases hcase with ⟨hany, rfl, rfl⟩ | ⟨hnone, _, _, ⟨-, rfl⟩, _, _, ⟨-, rfl⟩, executions, _,
    ⟨hins, rfl⟩, _, _, rfl, rfl, rfl⟩
  · obtain ⟨e, he, hof⟩ := List.any_eq_true.mp hany
    exact ⟨rfl, .inl ⟨rfl, rfl, e, he, hof⟩⟩
  · have hfree : ∀ e ∈ t.executions, isExecutionOf actor keyHash e = false := by
      intro e he
      by_contra hof
      exact hnone (List.any_eq_true.mpr ⟨e, he, Bool.of_not_eq_false hof⟩)
    obtain ⟨hadmits, hrows⟩ := Table.insert?_eq_some.mp hins
    exact ⟨rfl, .inr ⟨rfl, id, hfree, fun e he => (hadmits e he).1, hrows⟩⟩

/-- A replay answers with the response of the completed record; otherwise the key had no
record and has one under way now. -/
theorem commits_beginBulkExecution {actor : ActorContext} {token : BulkPreviewTokenPayload}
    {scope : NormalizedBulkScope} {keyHash requestHash : String} {t t' : BulkSession}
    {execution : Uuid × Option BulkExecutionResponse}
    (h : Commits (beginBulkExecution actor token scope keyHash requestHash) t execution t') :
    t'.session.db = t.session.db ∧
      ((∃ e ∈ t.executions, isExecutionOf actor keyHash e = true ∧ e.requestHash = requestHash ∧
          t'.executions = t.executions ∧
          ∃ response, e.status = .completed response ∧ execution.2 = some response) ∨
        (execution.2 = none ∧
          Appended actor keyHash requestHash execution.1 t.executions t'.executions)) := by
  unfold beginBulkExecution at h
  simp only [commits_bind, commits_get] at h
  obtain ⟨inserted, u, hinsert, _, _, ⟨rfl, rfl⟩, hselect⟩ := h
  obtain ⟨hdb, hcase⟩ := commits_insertExecution hinsert
  split at hselect
  · next e hrows =>
      have hmem : e ∈ u.executions.rows.filter (isExecutionOf actor keyHash) := by
        rw [hrows]
        exact List.mem_singleton_self e
      obtain ⟨he, hof⟩ := List.mem_filter.mp hmem
      simp only [commits_bind, commits_require] at hselect
      obtain ⟨_, _, ⟨hhash, rfl⟩, hstatus⟩ := hselect
      split at hstatus
      · next response hcompleted =>
          simp only [commits_bind, commits_orThrow, commits_pure] at hstatus
          obtain ⟨replay, _, ⟨hvalid, rfl⟩, rfl, rfl⟩ := hstatus
          have hreplay := validatedBulkExecutionResponse_eq_some hvalid
          rcases hcase with ⟨-, hsame, -⟩ | ⟨-, id, happended⟩
          · exact ⟨hdb, .inl ⟨e, hsame ▸ he, hof, hhash, hsame, response, hcompleted, by
              rw [hreplay]⟩⟩
          · -- a record that has just been inserted is not completed
            have hmem' : e ∈ t.executions.rows ++ _ := happended.rows ▸ he
            rcases List.mem_append.mp hmem' with hold | hnew
            · exact absurd hof (by rw [happended.free e hold]; exact Bool.false_ne_true)
            · rw [List.mem_singleton.mp hnew] at hcompleted
              cases hcompleted
      · next hprocessing =>
          simp only [commits_bind, commits_require, commits_pure] at hstatus
          obtain ⟨_, _, ⟨hinserted, rfl⟩, rfl, rfl⟩ := hstatus
          rcases hcase with ⟨hno, -⟩ | ⟨-, id, happended⟩
          · rw [hno] at hinserted
            cases hinserted
          · have hmem' : e ∈ t.executions.rows ++ _ := happended.rows ▸ he
            rcases List.mem_append.mp hmem' with hold | hnew
            · exact absurd hof (by rw [happended.free e hold]; exact Bool.false_ne_true)
            · rw [List.mem_singleton.mp hnew]
              exact ⟨hdb, .inr ⟨rfl, happended⟩⟩
  · exact absurd hselect (commits_throw _ _ _ _)

/-! ## Completing it -/

theorem commits_completeBulkExecution {executionId : Uuid} {response : BulkExecutionResponse}
    {t t' : BulkSession} {u : PUnit}
    (h : Commits (completeBulkExecution executionId response) t u t') :
    t'.session = t.session ∧
      t'.executions.rows = t.executions.rows.map fun e =>
        if isUnderWay executionId e then complete response e else e := by
  unfold completeBulkExecution at h
  simp only [commits_bind, commits_get, commits_require, commits_set] at h
  obtain ⟨_, _, ⟨rfl, rfl⟩, _, _, ⟨-, rfl⟩, rfl⟩ := h
  exact ⟨rfl, rfl⟩

/-- The mutations of the sales are a loop of the engine; they leave the records alone. -/
theorem commits_forM_inEngine {f : Uuid → Tx PUnit} {ids : List Uuid} {t t' : BulkSession} :
    (forM ids fun id => inEngine (f id)).Commits t ⟨⟩ t' ↔
      ∃ s', (forM ids f).Commits t.session ⟨⟩ s' ∧ t' = { t with session := s' } := by
  induction ids generalizing t with
  | nil =>
      simp only [List.forM_nil, commits_pure, true_and]
      constructor
      · rintro rfl
        exact ⟨t.session, rfl, rfl⟩
      · rintro ⟨_, rfl, rfl⟩
        rfl
  | cons id ids ih =>
      rw [commits_forM_cons]
      constructor
      · rintro ⟨u, hlifted, htail⟩
        obtain ⟨s, hone, rfl⟩ := (commits_inEngine ..).mp hlifted
        obtain ⟨s', hrest, rfl⟩ := ih.mp htail
        exact ⟨s', (commits_forM_cons ..).mpr ⟨s, hone, hrest⟩, rfl⟩
      · rintro ⟨s', hall, rfl⟩
        obtain ⟨s, hone, hrest⟩ := (commits_forM_cons ..).mp hall
        exact ⟨{ t with session := s }, (commits_inEngine ..).mpr ⟨s, hone, rfl⟩,
          ih.mpr ⟨s', hrest, rfl⟩⟩

/-- The mutations of the reviewed sales, and then the record, are what an execution
changes. -/
theorem commits_executeReviewed {env : BulkEnv} {now : Instant} {actor : ActorContext}
    {previewToken : String} {token : BulkPreviewTokenPayload} {scope : NormalizedBulkScope}
    {executionId : Uuid} {t t' : BulkSession} {response : BulkExecutionResponse}
    (h : Commits (executeReviewed env now actor previewToken token scope executionId) t
      response t') :
    (∃ ids : List Uuid,
      (forM ids (bulkMutation env now actor token.action)).Commits t.session ⟨⟩ t'.session) ∧
      t'.executions.rows = t.executions.rows.map fun e =>
        if isUnderWay executionId e then complete response e else e := by
  unfold executeReviewed at h
  simp only [commits_bind, commits_fromExcept, commits_get, commits_require, commits_pure] at h
  obtain ⟨_, _, ⟨-, rfl⟩, _, _, ⟨rfl, rfl⟩, review, _, ⟨-, rfl⟩, _, _, ⟨-, rfl⟩, _, _, ⟨-, rfl⟩,
    _, _, ⟨-, rfl⟩, _, u, hmutations, _, _, hcomplete, rfl, rfl⟩ := h
  obtain ⟨s, hloop, rfl⟩ := commits_forM_inEngine.mp hmutations
  obtain ⟨hsession, hrows⟩ := commits_completeBulkExecution hcomplete
  exact ⟨⟨review.eligibleIds, hsession ▸ hloop⟩, hrows⟩

/-! ## One call -/

/-- A call has found its key completed and repeated the response, or found no record
under it and left a completed one. -/
inductive Outcome (env : BulkEnv) (now : Instant) (actor : ActorContext) (action : BulkAction)
    (idempotencyKey requestHash : String) (response : BulkExecutionResponse)
    (t t' : BulkSession) : Prop
  | replayed (db : t'.session.db = t.session.db) (executions : t'.executions = t.executions)
      (e : BulkActionExecution) (mem : e ∈ t.executions)
      (key : isExecutionOf actor (bulkIdempotencyKeyHash env idempotencyKey) e = true)
      (request : e.requestHash = requestHash) (completed : e.status = .completed response)
  | executed (id : Uuid)
      (free : ∀ e ∈ t.executions,
        isExecutionOf actor (bulkIdempotencyKeyHash env idempotencyKey) e = false)
      (mutations : ∃ (ids : List Uuid) (s : Session), s.db = t.session.db ∧
        (forM ids (bulkMutation env now actor action)).Commits s ⟨⟩ t'.session)
      (rows : t'.executions.rows = t.executions.rows ++
        [⟨id, actor.tenantId, actor.userId, bulkIdempotencyKeyHash env idempotencyKey,
          requestHash, .completed response⟩])

/-- Completing the record that has just been appended touches no other. -/
theorem rows_of_completed {actor : ActorContext} {keyHash requestHash : String} {id : Uuid}
    {executions executions' executions'' : Table BulkActionExecution}
    {response : BulkExecutionResponse}
    (happended : Appended actor keyHash requestHash id executions executions')
    (hrows : executions''.rows = executions'.rows.map fun e =>
      if isUnderWay id e then complete response e else e) :
    executions''.rows = executions.rows ++
      [⟨id, actor.tenantId, actor.userId, keyHash, requestHash, .completed response⟩] := by
  have hother : ∀ e ∈ executions.rows,
      (if isUnderWay id e then complete response e else e) = e := by
    intro e he
    have hnot : isUnderWay id e = false := by
      simp [isUnderWay, happended.fresh e he]
    rw [hnot]
    rfl
  have hold : executions.rows.map (fun e => if isUnderWay id e then complete response e else e) =
      executions.rows :=
    calc
      executions.rows.map _ = executions.rows.map fun e => e := List.map_congr_left hother
      _ = executions.rows := List.map_id' _
  rw [hrows, happended.rows, List.map_append, hold]
  simp [isUnderWay, complete]

theorem commits_bulk {env : BulkEnv} {now : Instant} {actor : ActorContext}
    {input : ConfirmBulkInput} {idempotencyKey : String} {t t' : BulkSession}
    {response : BulkExecutionResponse}
    (h : Commits (bulk env now actor input idempotencyKey) t response t') :
    ∃ token, verifyBulkPreviewToken env input.previewToken actor none = .ok token ∧
      Outcome env now actor token.action idempotencyKey
        (bulkExecutionRequestHash env actor token.action (normalizeBulkScope env input.scope)
          input.previewToken) response t t' := by
  unfold bulk at h
  simp only [commits_bind, commits_require, commits_fromExcept, commits_mapErrors] at h
  obtain ⟨_, _, ⟨-, rfl⟩, token, _, ⟨htoken, rfl⟩, execution, u, hbegin, hfinish⟩ := h
  have hverified : verifyBulkPreviewToken env input.previewToken actor none = .ok token := by
    cases hverify : verifyBulkPreviewToken env input.previewToken actor none with
    | error e => rw [hverify] at htoken; cases htoken
    | ok token' => rw [hverify] at htoken; cases htoken; rfl
  refine ⟨token, hverified, ?_⟩
  obtain ⟨hdb, ⟨e, he, hof, hhash, hsame, stored, hcompleted, hreplay⟩ | ⟨hfirst, happended⟩⟩ :=
    commits_beginBulkExecution hbegin
  · rw [hreplay] at hfinish
    simp only [commits_pure] at hfinish
    obtain ⟨rfl, rfl⟩ := hfinish
    exact .replayed hdb hsame e he hof hhash hcompleted
  · rw [hfirst] at hfinish
    obtain ⟨⟨ids, hmutations⟩, hrows⟩ := commits_executeReviewed hfinish
    exact .executed execution.1 happended.free ⟨ids, u.session, hdb, hmutations⟩
      (rows_of_completed happended hrows)

/-- A request hash says the scope and the token it is the hash of. -/
theorem bulkExecutionRequestHash_inj {env : BulkEnv} (hsha : Function.Injective env.sha256)
    {actor actor' : ActorContext} {action action' : BulkAction}
    {scope scope' : NormalizedBulkScope} {previewToken previewToken' : String}
    (h : bulkExecutionRequestHash env actor action scope previewToken =
      bulkExecutionRequestHash env actor' action' scope' previewToken') :
    scope = scope' ∧ previewToken = previewToken' := by
  have hjson := Json.obj.inj (Json.stringify_injective (hsha h))
  simp only [List.cons.injEq, Prod.mk.injEq, true_and, and_true, Json.str.injEq] at hjson
  obtain ⟨-, -, -, hscope, htoken⟩ := hjson
  exact ⟨NormalizedBulkScope.json_injective hscope, hsha htoken⟩

/-! ## Runs -/

/-- The key of `call` is completed with `response`, for the request of `call`. -/
def CompletedBy (env : BulkEnv) (call : BulkCall) (response : BulkExecutionResponse)
    (w : BulkDb) : Prop :=
  ∃ token, verifyBulkPreviewToken env call.input.previewToken call.actor none = .ok token ∧
    ∃ e ∈ w.executions,
      isExecutionOf call.actor (bulkIdempotencyKeyHash env call.idempotencyKey) e = true ∧
        e.requestHash = bulkExecutionRequestHash env call.actor token.action
          (normalizeBulkScope env call.input.scope) call.input.previewToken ∧
        e.status = .completed response

theorem BulkCall.apply_of_returns {env : BulkEnv} {call : BulkCall} {w : BulkDb}
    {response : BulkExecutionResponse} {t : BulkSession}
    (h : Commits (call.transaction env) (call.start w) response t) :
    call.apply env w = ⟨t.session.db, t.executions⟩ := by
  unfold BulkCall.apply
  rw [h.commit_eq]

theorem BulkCall.apply_of_fails {env : BulkEnv} {call : BulkCall} {w : BulkDb}
    (h : call.Fails env w) : call.apply env w = w := by
  obtain ⟨e, hraises⟩ := h
  unfold BulkCall.apply
  rw [hraises.commit_eq]
  rfl

theorem BulkCall.returns_or_fails (env : BulkEnv) (call : BulkCall) (w : BulkDb) :
    (∃ response, call.Returns env w response) ∨ call.Fails env w := by
  rcases commits_or_raises (call.transaction env) (call.start w) with ⟨response, t, h⟩ | h
  · exact .inl ⟨response, t, h⟩
  · exact .inr h

/-- A call that returns leaves its key completed. -/
theorem completedBy_of_returns {env : BulkEnv} {call : BulkCall} {w : BulkDb}
    {response : BulkExecutionResponse} (h : call.Returns env w response) :
    CompletedBy env call response (call.apply env w) := by
  obtain ⟨t, hcommits⟩ := h
  obtain ⟨token, htoken, houtcome⟩ := commits_bulk hcommits
  rw [BulkCall.apply_of_returns hcommits]
  refine ⟨token, htoken, ?_⟩
  cases houtcome with
  | replayed hdb hsame e he hof hhash hcompleted =>
      exact ⟨e, hsame ▸ he, hof, hhash, hcompleted⟩
  | executed id hfree _ hrows =>
      have hmem : _ ∈ t.executions.rows :=
        hrows ▸ List.mem_append_right w.executions.rows (List.mem_singleton_self _)
      exact ⟨_, hmem, isExecutionOf_iff.mpr ⟨rfl, rfl, rfl⟩, rfl, rfl⟩

/-- Whatever happens, a completed record stays. -/
theorem BulkStep.keepsCompleted (env : BulkEnv) (step : BulkStep) (w : BulkDb) :
    KeepsCompleted w.executions (step.apply env w).executions := by
  cases step with
  | engine step => exact .refl _
  | bulk call =>
      rcases call.returns_or_fails env w with ⟨response, t, hcommits⟩ | hfails
      · have happly : BulkStep.apply env (.bulk call) w = ⟨t.session.db, t.executions⟩ :=
          BulkCall.apply_of_returns hcommits
        rw [happly]
        obtain ⟨token, -, houtcome⟩ := commits_bulk hcommits
        cases houtcome with
        | replayed hdb hsame => exact hsame ▸ KeepsCompleted.refl w.executions
        | executed id hfree _ hrows =>
            intro e he _ _
            change e ∈ t.executions.rows
            rw [hrows]
            exact List.mem_append_left _ he
      · have happly : BulkStep.apply env (.bulk call) w = w := BulkCall.apply_of_fails hfails
        rw [happly]
        exact .refl _

theorem run_keepsCompleted (env : BulkEnv) (steps : List BulkStep) (w : BulkDb) :
    KeepsCompleted w.executions (run (BulkStep.apply env) steps w).executions := by
  induction steps generalizing w with
  | nil => exact .refl _
  | cons step steps ih => exact (step.keepsCompleted env w).trans (ih _)

/-- A call that finds its key completed changes nothing; what it returns is the response
of the call that completed it, whose scope and token are its own. -/
theorem returns_of_completedBy {env : BulkEnv} (hsha : Function.Injective env.sha256)
    {first later : BulkCall} {response response' : BulkExecutionResponse} {w : BulkDb}
    (hactor : later.actor = first.actor) (hkey : later.idempotencyKey = first.idempotencyKey)
    (hcompleted : CompletedBy env first response w) (h : later.Returns env w response') :
    later.apply env w = w ∧ response' = response ∧ later.SameRequest env first := by
  obtain ⟨token, -, e, he, hof, hhash, hstatus⟩ := hcompleted
  obtain ⟨t, hcommits⟩ := h
  obtain ⟨token', -, houtcome⟩ := commits_bulk hcommits
  rw [BulkCall.apply_of_returns hcommits]
  rw [hactor, hkey] at houtcome
  cases houtcome with
  | replayed hdb hsame e' he' hof' hhash' hstatus' =>
      have heq : e' = e := execution_unique he' he hof' hof
      subst heq
      refine ⟨by rw [hdb, hsame]; rfl, ?_, ?_⟩
      · rw [hstatus] at hstatus'
        exact (ExecutionStatus.completed.inj hstatus').symm
      · exact bulkExecutionRequestHash_inj hsha (hhash'.symm.trans hhash)
  | executed id hfree _ hrows =>
      have hno := hfree e he
      rw [hof] at hno
      cases hno

/-- **Exactly once.** A call that fails changes nothing at all, the record of executions
included. Once a call has returned a response, then after any further steps a call of the
same actor with the same key changes nothing, returns no other response, and returns none
at all for another scope or another token. -/
theorem bulk_exactly_once (env : BulkEnv) (hsha : Function.Injective env.sha256) :
    (∀ (call : BulkCall) (w : BulkDb), call.Fails env w → call.apply env w = w) ∧
      ∀ (first later : BulkCall) (w : BulkDb) (response : BulkExecutionResponse)
        (steps : List BulkStep), later.actor = first.actor →
        later.idempotencyKey = first.idempotencyKey → first.Returns env w response →
        let w' := run (BulkStep.apply env) steps (first.apply env w)
        later.apply env w' = w' ∧
          (∀ response', later.Returns env w' response' → response' = response) ∧
          (¬later.SameRequest env first → later.Fails env w') := by
  refine ⟨fun call w h => BulkCall.apply_of_fails h, ?_⟩
  intro first later w response steps hactor hkey hfirst w'
  obtain ⟨token, htoken, e, he, hof, hhash, hstatus⟩ := completedBy_of_returns hfirst
  have hcompleted : CompletedBy env first response w' :=
    ⟨token, htoken, e, run_keepsCompleted env steps _ e he response hstatus, hof, hhash, hstatus⟩
  have hreturns : ∀ response', later.Returns env w' response' →
      later.apply env w' = w' ∧ response' = response ∧ later.SameRequest env first :=
    fun _ => returns_of_completedBy hsha hactor hkey hcompleted
  refine ⟨?_, fun response' h => (hreturns response' h).2.1, fun hother => ?_⟩
  · rcases later.returns_or_fails env w' with ⟨response', h⟩ | h
    · exact (hreturns response' h).1
    · exact BulkCall.apply_of_fails h
  · rcases later.returns_or_fails env w' with ⟨response', h⟩ | h
    · exact absurd (hreturns response' h).2.2 hother
    · exact h

/-! ## A first call that executes -/

theorem exists_insertExecution {actor : ActorContext} {keyHash : String} (requestHash : String)
    {t : BulkSession} (hfree : ∀ e ∈ t.executions, isExecutionOf actor keyHash e = false)
    (hfresh : ∀ e ∈ t.executions, e.id ≠ t.session.uuids 0)
    (htenant : (t.session.db.registry.tenants.find? actor.tenantId).isSome)
    (hactor : (t.session.db.registry.users.find? actor.userId).isSome) :
    ∃ executions, Appended actor keyHash requestHash (t.session.uuids 0) t.executions executions ∧
      Commits (insertExecution actor keyHash requestHash) t true
        ⟨⟨t.session.db, fun n => t.session.uuids (n + 1)⟩, executions⟩ := by
  have hadmits : ∀ e ∈ t.executions,
      key e ≠ key (BulkActionExecution.mk (t.session.uuids 0) actor.tenantId actor.userId keyHash
        requestHash .processing) ∧
        clash e (BulkActionExecution.mk (t.session.uuids 0) actor.tenantId actor.userId keyHash
          requestHash .processing) = false := by
    intro e he
    have hclash : isExecutionOf actor keyHash e = false := hfree e he
    refine ⟨hfresh e he, ?_⟩
    simpa [isExecutionOf, clash, ← beq_eq_decide] using hclash
  obtain ⟨executions, hinsert⟩ := Table.exists_insert? hadmits
  have hnone : ¬(t.executions.rows.any (isExecutionOf actor keyHash) = true) := by
    intro hany
    obtain ⟨e, he, hof⟩ := List.any_eq_true.mp hany
    rw [hfree e he] at hof
    cases hof
  refine ⟨executions, ⟨hfree, hfresh, (Table.insert?_eq_some.mp hinsert).2⟩, ?_⟩
  unfold insertExecution
  simp only [commits_bind, commits_inEngine, commits_genRandomUuid, commits_get, commits_ite,
    commits_pure, commits_require, commits_orThrow, commits_set]
  exact ⟨_, _, ⟨_, ⟨rfl, rfl⟩, rfl⟩, _, _, ⟨rfl, rfl⟩, .inr ⟨hnone, ⟨⟩, _, ⟨htenant, rfl⟩, ⟨⟩, _,
    ⟨hactor, rfl⟩, executions, _, ⟨hinsert, rfl⟩, ⟨⟩, _, rfl, trivial, rfl⟩⟩

theorem isExecutionOf_appended {actor : ActorContext} {keyHash requestHash : String} {id : Uuid}
    {executions executions' : Table BulkActionExecution}
    (h : Appended actor keyHash requestHash id executions executions') :
    executions'.rows.filter (isExecutionOf actor keyHash) =
      [⟨id, actor.tenantId, actor.userId, keyHash, requestHash, .processing⟩] := by
  refine executions_of_key (Table.mem_def.mpr ?_) (isExecutionOf_iff.mpr ⟨rfl, rfl, rfl⟩)
  rw [h.rows]
  exact List.mem_append_right _ (List.mem_singleton_self _)

theorem exists_beginBulkExecution {actor : ActorContext} {keyHash : String} (requestHash : String)
    {t : BulkSession} (token : BulkPreviewTokenPayload) (scope : NormalizedBulkScope)
    (hfree : ∀ e ∈ t.executions, isExecutionOf actor keyHash e = false)
    (hfresh : ∀ e ∈ t.executions, e.id ≠ t.session.uuids 0)
    (htenant : (t.session.db.registry.tenants.find? actor.tenantId).isSome)
    (hactor : (t.session.db.registry.users.find? actor.userId).isSome) :
    ∃ executions, Appended actor keyHash requestHash (t.session.uuids 0) t.executions executions ∧
      Commits (beginBulkExecution actor token scope keyHash requestHash) t
        (t.session.uuids 0, none)
        ⟨⟨t.session.db, fun n => t.session.uuids (n + 1)⟩, executions⟩ := by
  obtain ⟨executions, happended, hinsert⟩ :=
    exists_insertExecution requestHash hfree hfresh htenant hactor
  refine ⟨executions, happended, ?_⟩
  unfold beginBulkExecution
  simp only [commits_bind, commits_get]
  refine ⟨_, _, hinsert, _, _, ⟨rfl, rfl⟩, ?_⟩
  rw [isExecutionOf_appended happended]
  simp only [commits_bind, commits_require, commits_pure]
  exact ⟨⟨⟩, _, ⟨trivial, rfl⟩, ⟨⟩, _, ⟨trivial, rfl⟩, trivial, rfl⟩

/-- The record that has just been appended is the one under way. -/
theorem exists_completeBulkExecution {actor : ActorContext} {keyHash requestHash : String}
    {id : Uuid} {executions : Table BulkActionExecution} (response : BulkExecutionResponse)
    {t : BulkSession} (h : Appended actor keyHash requestHash id executions t.executions) :
    ∃ t', Commits (completeBulkExecution id response) t ⟨⟩ t' := by
  have hold : executions.rows.countP (isUnderWay id) = 0 := by
    refine List.countP_eq_zero.mpr fun e he => ?_
    simp [isUnderWay, h.fresh e he]
  have hone : t.executions.rows.countP (isUnderWay id) = 1 := by
    rw [h.rows, List.countP_append, hold]
    simp [isUnderWay]
  unfold completeBulkExecution
  simp only [commits_bind, commits_get, commits_require, commits_set]
  exact ⟨_, t, t, ⟨rfl, rfl⟩, ⟨⟩, t, ⟨hone, rfl⟩, rfl⟩

/-- With a fresh key, a token that is still good for what the review finds now, and
mutations that commit, a call executes and returns what it has done. -/
theorem returns_of_reviewed {env : BulkEnv} {call : BulkCall} {w : BulkDb}
    {token : BulkPreviewTokenPayload} {review : BulkReview} {s : Session}
    (hkey : isIdempotencyKey call.idempotencyKey = true)
    (hverified : verifyBulkPreviewToken env call.input.previewToken call.actor (some call.now) =
      .ok token)
    (hfree : ∀ e ∈ w.executions,
      isExecutionOf call.actor (bulkIdempotencyKeyHash env call.idempotencyKey) e = false)
    (hfresh : ∀ e ∈ w.executions, e.id ≠ call.uuids 0)
    (htenant : (w.db.registry.tenants.find? call.actor.tenantId).isSome)
    (hactor : (w.db.registry.users.find? call.actor.userId).isSome)
    (hscope : token.scopeFingerprint =
      bulkScopeFingerprint env (normalizeBulkScope env call.input.scope))
    (hreview : calculateBulkReview env w.db call.actor token.action
      (normalizeBulkScope env call.input.scope) = .ok review)
    (hmatches : bulkReviewMatchesToken review token = true)
    (hlocked : lockSalesForTenant w.db call.actor.tenantId review.eligibleIds = review.eligibleIds)
    (hmutations : (forM review.eligibleIds
        (bulkMutation env call.now call.actor token.action)).Commits
      ⟨w.db, fun n => call.uuids (n + 1)⟩ ⟨⟩ s) :
    call.Returns env w (bulkResponse token.action review) := by
  have hsigned := verifyBulkPreviewToken_eq_ok.mp hverified
  have htoken : verifyBulkPreviewToken env call.input.previewToken call.actor none = .ok token :=
    verifyBulkPreviewToken_eq_ok.mpr ⟨hsigned.1, hsigned.2.1, hsigned.2.2.1, nofun⟩
  obtain ⟨executions, happended, hbegin⟩ := exists_beginBulkExecution
    (bulkExecutionRequestHash env call.actor token.action
      (normalizeBulkScope env call.input.scope) call.input.previewToken) (t := call.start w)
    token (normalizeBulkScope env call.input.scope) hfree hfresh htenant hactor
  obtain ⟨t, hcomplete⟩ := exists_completeBulkExecution (bulkResponse token.action review)
    (t := ⟨s, executions⟩) happended
  have hexecute : Commits
      (executeReviewed env call.now call.actor call.input.previewToken token
        (normalizeBulkScope env call.input.scope) (call.uuids 0))
      ⟨⟨w.db, fun n => call.uuids (n + 1)⟩, executions⟩ (bulkResponse token.action review) t := by
    unfold executeReviewed
    simp only [commits_bind, commits_fromExcept, commits_get, commits_require, commits_pure]
    exact ⟨token, _, ⟨by rw [hverified]; rfl, rfl⟩, _, _, ⟨rfl, rfl⟩, review, _,
      ⟨by rw [hreview]; rfl, rfl⟩, ⟨⟩, _, ⟨hscope, rfl⟩, ⟨⟩, _, ⟨hmatches, rfl⟩, ⟨⟩, _,
      ⟨hlocked, rfl⟩, ⟨⟩, _, commits_forM_inEngine.mpr ⟨s, hmutations, rfl⟩, ⟨⟩, _, hcomplete, rfl,
      rfl⟩
  refine ⟨t, ?_⟩
  unfold BulkCall.transaction bulk
  simp only [commits_bind, commits_require, commits_fromExcept, commits_mapErrors]
  exact ⟨⟨⟩, _, ⟨hkey, rfl⟩, token, _, ⟨by rw [htoken]; rfl, rfl⟩, _, _, hbegin, hexecute⟩

theorem BulkDemo.returns :
    ∃ response, call.Returns env drafted response ∧ response.succeededIds = [100] := by
  have hids : ((calculateBulkReview unsigned drafted.db actor .approve
      (normalizeBulkScope unsigned input.scope)).toOption.any
        fun review => review.eligibleIds == [100]) = true := by
    decide +kernel
  cases hreview : calculateBulkReview unsigned drafted.db actor .approve
      (normalizeBulkScope unsigned input.scope) with
  | error e =>
      rw [hreview] at hids
      cases hids
  | ok review =>
      rw [hreview] at hids
      have heligible : review.eligibleIds = [100] := by simpa [Except.toOption] using hids
      have hpayload : payload = some (previewPayload unsigned 0 actor .approve
          (normalizeBulkScope unsigned input.scope) review) := by
        unfold payload
        dsimp only
        rw [hreview]
        rfl
      have hverified : verifyBulkPreviewToken env call.input.previewToken call.actor
          (some call.now) = .ok (previewPayload unsigned 0 actor .approve
            (normalizeBulkScope unsigned input.scope) review) := by
        refine verifyBulkPreviewToken_eq_ok.mpr ⟨hpayload, rfl, rfl, fun time htime => ?_⟩
        cases htime
        change (0 : Int) < 0 + BULK_PREVIEW_TTL_MS
        decide
      have hruns : (((forM [100] (bulkMutation env 0 actor .approve)).run
          ⟨drafted.db, fun n => call.uuids (n + 1)⟩).toOption.any fun _ => true) = true := by
        decide +kernel
      obtain ⟨_, hmutations, -⟩ := exists_commits_of_run (p := fun _ => true) hruns
      have hlocked : lockSalesForTenant drafted.db actor.tenantId [100] = [100] := by
        decide +kernel
      refine ⟨_, returns_of_reviewed (by decide +kernel) hverified nofun nofun
        (by decide +kernel) (by decide +kernel) rfl hreview
        (bulkReviewMatchesToken_previewPayload ..) (heligible.symm ▸ hlocked)
        (heligible.symm ▸ hmutations), heligible⟩

theorem bulk_exactly_once_approved :
    ∃ response, BulkDemo.call.Returns BulkDemo.env BulkDemo.drafted response ∧
      response.succeededIds = [100] ∧
        BulkDemo.call.apply BulkDemo.env (BulkDemo.call.apply BulkDemo.env BulkDemo.drafted) =
          BulkDemo.call.apply BulkDemo.env BulkDemo.drafted := by
  obtain ⟨response, hreturns, hids⟩ := BulkDemo.returns
  have hsha : Function.Injective BulkDemo.env.sha256 := fun _ _ h => h
  have honce := (bulk_exactly_once BulkDemo.env hsha).2 BulkDemo.call BulkDemo.call
    BulkDemo.drafted response [] rfl rfl hreturns
  simp only [run_nil] at honce
  exact ⟨response, hreturns, hids, honce.1⟩

end Refearn.Sales
