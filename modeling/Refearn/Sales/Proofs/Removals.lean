import Refearn.Engine.Proofs.Persistence
import Refearn.Sales.Proofs.Executions
import Refearn.Sales.Bulk
/-!
# Removals among approvals and voids

The delete of a removal names its sale by id alone. It spares a sale that has been
decided on since it was read only where a ledger row refers to the sale.
-/

namespace Refearn.Sales

open Support Support.Transaction Engine

/-! ## What spares the sales that are not drafts -/

/-- Where the step is a delete, its sale is a draft still, or a ledger row refers to it. -/
def RemovalStep.Guarded (w : RemovalWorld) : RemovalStep → Prop
  | .delete removal =>
      removal ∈ w.removing → ∀ sale ∈ w.bulk.db.sales, sale.id = removal.saleId →
        sale.status = .draft ∨ isReferenced w.bulk.db sale.id = true
  | _ => True

/-- The step removes no sale but a draft. -/
def RemovalStep.RemovesOnlyDrafts (env : BulkEnv) (w : RemovalWorld) (step : RemovalStep) : Prop :=
  ∀ sale ∈ w.bulk.db.sales,
    (∀ sale' ∈ (step.apply env w).bulk.db.sales, sale'.id ≠ sale.id) → sale.status = .draft

theorem SalesKept.removesOnlyDrafts {env : BulkEnv} {w : RemovalWorld} {step : RemovalStep}
    (h : SalesKept w.bulk.db (step.apply env w).bulk.db) : step.RemovesOnlyDrafts env w := by
  intro sale hsale hgone
  by_contra hdecided
  obtain ⟨sale', hsale', hsame⟩ := h sale hsale hdecided
  exact hgone sale' hsale' hsame.id

/-! ## Bulk calls -/

theorem bulkMutation_salesKept {env : BulkEnv} {now : Instant} {actor : ActorContext}
    {action : BulkAction} {saleId : Uuid} {s s' : Session}
    (h : Commits (bulkMutation env now actor action saleId) s ⟨⟩ s') : SalesKept s.db s'.db := by
  cases action with
  | approve =>
      have heffect : Effect env.toEnv s.db
          (.approveSale now saleId (some actor.userId) (some actor.tenantId)) s'.db :=
        effect_of_commits h
      exact heffect.salesKept
  | void =>
      have heffect : Effect env.toEnv s.db
          (.voidSale now saleId (some actor.userId) (some actor.tenantId)) s'.db :=
        effect_of_commits h
      exact heffect.salesKept

theorem mutations_salesKept {env : BulkEnv} {now : Instant} {actor : ActorContext}
    {action : BulkAction} {ids : List Uuid} {s s' : Session}
    (h : (forM ids (bulkMutation env now actor action)).Commits s ⟨⟩ s') :
    SalesKept s.db s'.db := by
  refine Commits.forM (fun _ u => SalesKept s.db u.db) ?_ h (.refl s.db)
  intro id rest u u' hkept hone
  exact hkept.trans (bulkMutation_salesKept hone)

theorem BulkStep.salesKept (env : BulkEnv) (step : BulkStep) (w : BulkDb) :
    SalesKept w.db (step.apply env w).db := by
  cases step with
  | engine step => exact (step.effect env.toEnv w.db).salesKept
  | bulk call =>
      rcases call.returns_or_fails env w with ⟨response, t, hcommits⟩ | hfails
      · have happly : BulkStep.apply env (.bulk call) w = ⟨t.session.db, t.executions⟩ :=
          BulkCall.apply_of_returns hcommits
        rw [happly]
        obtain ⟨token, -, houtcome⟩ := commits_bulk hcommits
        cases houtcome with
        | replayed hdb =>
            have hsame : t.session.db = w.db := hdb
            exact hsame ▸ SalesKept.refl w.db
        | executed _ _ hmutations =>
            obtain ⟨ids, s, hdb, hloop⟩ := hmutations
            have hstart : s.db = w.db := hdb
            exact hstart ▸ mutations_salesKept hloop
      · have happly : BulkStep.apply env (.bulk call) w = w := BulkCall.apply_of_fails hfails
        rw [happly]
        exact .refl _

/-! ## Deletes -/

theorem deleteSale_eq_ok {db db' : Db} {removal : Removal} (h : deleteSale db removal = .ok db') :
    ∃ sale ∈ db.sales, sale.id = removal.saleId ∧ isReferenced db sale.id = false ∧
      db'.sales.rows = db.sales.rows.filter (fun s => s.id ≠ sale.id) := by
  unfold deleteSale at h
  split at h
  · cases h
  · next sale hfind =>
      obtain ⟨hmem, hid⟩ := Table.find?_eq_some.mp hfind
      split at h
      · cases h
      · next hfree =>
          cases h
          exact ⟨sale, hmem, hid, Bool.eq_false_of_not_eq_true hfree, rfl⟩

/-- A delete that meets a sale which is no draft and has no ledger row removes it. -/
theorem exists_deleteSale {db : Db} {removal : Removal} {sale : Sale} (hsale : sale ∈ db.sales)
    (hid : sale.id = removal.saleId) (hfree : isReferenced db sale.id = false) :
    ∃ db', deleteSale db removal = .ok db' ∧ ∀ sale' ∈ db'.sales, sale'.id ≠ sale.id := by
  have hfind : db.sales.find? removal.saleId = some sale :=
    Table.find?_eq_some.mpr ⟨hsale, hid⟩
  unfold deleteSale
  rw [hfind]
  simp only [hfree, Bool.false_eq_true, if_false]
  refine ⟨_, rfl, fun sale' hsale' => ?_⟩
  simpa using (Table.mem_filter.mp hsale').2

/-- A guarded delete spares every sale that is not a draft. -/
theorem deleteSale_salesKept {db db' : Db} {removal : Removal}
    (hguard : ∀ sale ∈ db.sales, sale.id = removal.saleId →
      sale.status = .draft ∨ isReferenced db sale.id = true)
    (h : deleteSale db removal = .ok db') : SalesKept db db' := by
  obtain ⟨draft, hdraft, hid, hfree, hrows⟩ := deleteSale_eq_ok h
  have hstatus : draft.status = .draft := by
    rcases hguard draft hdraft hid with hstatus | href
    · exact hstatus
    · rw [hfree] at href
      cases href
  intro sale hsale hdecided
  have hother : sale.id ≠ draft.id := by
    intro heq
    rw [Table.eq_of_key hsale hdraft heq] at hdecided
    exact hdecided hstatus
  have hin : sale ∈ db'.sales := by
    rw [Table.mem_def, hrows]
    exact List.mem_filter.mpr ⟨hsale, by simpa using hother⟩
  exact ⟨sale, hin, .refl hdecided⟩

/-! ## Steps and runs -/

theorem RemovalStep.salesKept {env : BulkEnv} {w : RemovalWorld} {step : RemovalStep}
    (hguard : step.Guarded w) : SalesKept w.bulk.db (step.apply env w).bulk.db := by
  cases step with
  | other step => exact step.salesKept env w.bulk
  | read removal =>
      unfold RemovalStep.apply
      dsimp only
      split <;> exact .refl _
  | delete removal =>
      unfold RemovalStep.apply
      dsimp only
      split_ifs with hpending
      · split
        · exact .refl _
        · next db' hdelete => exact deleteSale_salesKept (hguard hpending) hdelete
      · exact .refl _

/-- A step removes only drafts exactly where it is guarded. -/
theorem RemovalStep.removesOnlyDrafts_iff {env : BulkEnv} {w : RemovalWorld}
    {step : RemovalStep} : step.RemovesOnlyDrafts env w ↔ step.Guarded w := by
  constructor
  · intro honly
    cases step with
    | other step => trivial
    | read removal => trivial
    | delete removal =>
        intro hpending sale hsale hid
        by_cases href : isReferenced w.bulk.db sale.id = true
        · exact .inr href
        · obtain ⟨db', hdelete, hgone⟩ :=
            exists_deleteSale hsale hid (Bool.eq_false_of_not_eq_true href)
          have happly : (RemovalStep.apply env (.delete removal) w).bulk.db = db' := by
            unfold RemovalStep.apply
            simp only [if_pos hpending, hdelete]
          exact .inl (honly sale hsale (by rw [happly]; exact hgone))
  · exact fun hguard => SalesKept.removesOnlyDrafts (RemovalStep.salesKept hguard)

theorem run_salesKept {env : BulkEnv} {w : RemovalWorld} {steps : List RemovalStep}
    (hguarded : ∀ pre step post, steps = pre ++ step :: post →
      step.Guarded (run (RemovalStep.apply env) pre w)) :
    SalesKept w.bulk.db (run (RemovalStep.apply env) steps w).bulk.db := by
  induction steps generalizing w with
  | nil => exact .refl _
  | cons step steps ih =>
      have hone : SalesKept w.bulk.db (step.apply env w).bulk.db :=
        RemovalStep.salesKept (hguarded [] step steps rfl)
      refine hone.trans (ih fun pre later post heq => ?_)
      exact hguarded (step :: pre) later post (by rw [heq]; rfl)

/-- Every sale that was approved or voided in the course of the run exists at its end, and
every step removes only sales that are drafts at that moment. -/
def DecidedSalesStay (env : BulkEnv) (steps : List RemovalStep) (w : RemovalWorld) : Prop :=
  (∀ pre post, steps = pre ++ post →
    SalesKept (run (RemovalStep.apply env) pre w).bulk.db
      (run (RemovalStep.apply env) steps w).bulk.db) ∧
    ∀ pre step post, steps = pre ++ step :: post →
      step.RemovesOnlyDrafts env (run (RemovalStep.apply env) pre w)

/-- Decided sales stay exactly in the runs in which every delete finds its sale a draft
still, gone, or referred to by a ledger row. -/
theorem decidedSalesStay_iff (env : BulkEnv) (steps : List RemovalStep) (w : RemovalWorld) :
    DecidedSalesStay env steps w ↔
      ∀ pre step post, steps = pre ++ step :: post →
        step.Guarded (run (RemovalStep.apply env) pre w) := by
  constructor
  · intro h pre step post heq
    exact RemovalStep.removesOnlyDrafts_iff.mp (h.2 pre step post heq)
  · intro hguarded
    refine ⟨fun pre post heq => ?_, fun pre step post heq =>
      RemovalStep.removesOnlyDrafts_iff.mpr (hguarded pre step post heq)⟩
    subst heq
    rw [run_append]
    refine run_salesKept fun pre' step post' heq => ?_
    rw [← run_append]
    exact hguarded (pre ++ pre') step post' (by rw [heq, List.append_assoc])

/-! ## A penny sale

No level of the plan has a share of one cent, so an approval leaves no ledger row. -/

namespace RemovalDemo

def removal : Removal := ⟨1, none, 100⟩

def start : RemovalWorld := ⟨⟨Demo.empty, .empty⟩, []⟩

/-- The sale is approved between the two statements of its removal. -/
def steps : List RemovalStep :=
  [.other (.engine (Demo.step 100 (.createDraftSale ⟨1, none, 2, 1, "USD", 0, none, none⟩))),
    .read removal, .other (.engine (Demo.step 200 (.approveSale 0 100 none none))),
    .delete removal]

end RemovalDemo

/-- The approval has committed, and the removal that had read the draft deletes the sale. -/
theorem approved_sale_removed :
    (run (RemovalStep.apply BulkDemo.env) (RemovalDemo.steps.take 3)
        RemovalDemo.start).bulk.db.sales.rows.map Sale.status = [.approved] ∧
      (run (RemovalStep.apply BulkDemo.env) RemovalDemo.steps
        RemovalDemo.start).bulk.db.sales.rows.map Sale.status = [] ∧
      ¬DecidedSalesStay BulkDemo.env RemovalDemo.steps RemovalDemo.start := by
  refine ⟨by decide, by decide, fun hstay => ?_⟩
  have honly := hstay.2 (RemovalDemo.steps.take 3) (.delete RemovalDemo.removal) [] rfl
  have hguard := RemovalStep.removesOnlyDrafts_iff.mp honly
  have hpending : RemovalDemo.removal ∈ (run (RemovalStep.apply BulkDemo.env)
      (RemovalDemo.steps.take 3) RemovalDemo.start).removing := by
    decide
  have hbare : ((run (RemovalStep.apply BulkDemo.env) (RemovalDemo.steps.take 3)
      RemovalDemo.start).bulk.db.sales.rows.any fun sale =>
        sale.id == RemovalDemo.removal.saleId && sale.status != .draft &&
          !isReferenced (run (RemovalStep.apply BulkDemo.env) (RemovalDemo.steps.take 3)
            RemovalDemo.start).bulk.db sale.id) = true := by
    decide
  obtain ⟨sale, hsale, hcond⟩ := List.any_eq_true.mp hbare
  simp only [Bool.and_eq_true, beq_iff_eq, bne_iff_ne, Bool.not_eq_true'] at hcond
  obtain ⟨⟨hid, hdecided⟩, hfree⟩ := hcond
  rcases hguard hpending sale (Table.mem_def.mpr hsale) hid with hdraft | href
  · exact hdecided hdraft
  · rw [hfree] at href
    cases href

end Refearn.Sales
