import Refearn.Payouts.Proofs.Reconcile
/-!
# What a reconciliation amounts to

Every committed run has taken its statement apart into rows that cleared a payout and rows that
did not, and no payout was cleared twice. A run that meets nobody else clears as many payouts of
each amount as there are.
-/

namespace Refearn.Payouts

open Support Support.Table

/-! ## A run on its own -/

/-- The steps of one run while no other transaction holds a payout. -/
def ReconcileStep.isAlone (i : Nat) : ReconcileStep → Bool
  | .visit j lockedElsewhere => j = i && !lockedElsewhere
  | .startPairing j _ | .pair j | .commit j | .abort j => j = i
  | .begin .. | .foreign _ => false

/-- A run that has met nobody has selected, or is going to select, every open payout. -/
def ReconcileRun.Complete (tenantId : Uuid) (before now : Table ReconcilablePayout)
    (r : ReconcileRun) : Prop :=
  match r.phase with
  | .selecting candidates =>
      now = before ∧ ∀ p ∈ before, p.isOpen tenantId = true →
        p.id ∈ (r.selected.map fun p => p.id) ++ candidates
  | .pairing .. => now = before ∧ ∀ p ∈ before, p.isOpen tenantId = true → p ∈ r.selected
  | .committed => now = r.view before ∧ ∀ p ∈ before, p.isOpen tenantId = true → p ∈ r.selected
  | .aborted => True

/-- The state while one run is alone. -/
structure Alone (i : Nat) (tenantId : Uuid) (before : Table ReconcilablePayout)
    (w : ReconcileWorld) : Prop where
  sound : w.Sound
  others : ∀ j s, j ≠ i → w.runs[j]? = some s → s.isActive = false
  run : ∃ r, w.runs[i]? = some r ∧ r.tenantId = tenantId ∧ r.Complete tenantId before w.payouts

section Alone

variable {i : Nat} {tenantId : Uuid} {before : Table ReconcilablePayout} {w : ReconcileWorld}

theorem Alone.mem_locked (h : Alone i tenantId before w) {r : ReconcileRun}
    (hr : w.runs[i]? = some r) {id : Uuid} (hid : id ∈ w.locked) : id ∈ r.locked := by
  obtain ⟨s, hs, hmem⟩ := List.mem_flatMap.mp hid
  obtain ⟨j, hj⟩ := List.getElem?_of_mem hs
  by_cases hsame : j = i
  · rw [hsame, hr] at hj
    exact Option.some.inj hj ▸ hmem
  · unfold ReconcileRun.locked at hmem
    rw [h.others j s hsame hj] at hmem
    exact absurd hmem List.not_mem_nil

/-- What a step of the run has to show. -/
theorem Alone.setRun (h : Alone i tenantId before w) {w' : ReconcileWorld} {r r' : ReconcileRun}
    (hr : w.runs[i]? = some r) (hsound : w'.Sound) (hruns : w'.runs = w.runs.set i r')
    (htenant : r'.tenantId = tenantId) (hcomplete : r'.Complete tenantId before w'.payouts) :
    Alone i tenantId before w' := by
  refine ⟨hsound, fun j s hj hs => ?_, r', ?_, htenant, hcomplete⟩
  · rw [hruns, List.getElem?_set_ne (Ne.symm hj)] at hs
    exact h.others j s hj hs
  · obtain ⟨hi, -⟩ := List.getElem?_eq_some_iff.mp hr
    rw [hruns]
    exact List.getElem?_set_self hi

/-- The candidate at the front is not locked by anybody. -/
theorem Alone.not_locked (h : Alone i tenantId before w) {r : ReconcileRun}
    (hr : w.runs[i]? = some r) {id : Uuid} {candidates : List Uuid}
    (hphase : r.phase = .selecting (id :: candidates)) : id ∉ w.locked := by
  intro hmem
  have hown := h.mem_locked hr hmem
  rw [r.locked_of_active (r.isActive_of_selecting hphase)] at hown
  have hprogress := (h.sound.runs i r hr).progress
  unfold ReconcileRun.Progress at hprogress
  rw [hphase] at hprogress
  obtain ⟨-, remaining, hids, hnodup, -⟩ := hprogress
  rw [List.map_append, ← hids] at hnodup
  exact (List.nodup_append.mp hnodup).2.2 id hown id List.mem_cons_self rfl

theorem Alone.visit (h : Alone i tenantId before w) {r : ReconcileRun}
    (hr : w.runs[i]? = some r) {id : Uuid} {candidates : List Uuid}
    (hphase : r.phase = .selecting (id :: candidates)) :
    Alone i tenantId before (w.setRun i
      (r.visit (false || decide (id ∈ w.locked)) w.payouts id candidates)) := by
  obtain ⟨r₀, hr₀, htenant, hcomplete⟩ := h.run
  rw [hr] at hr₀
  cases hr₀
  unfold ReconcileRun.Complete at hcomplete
  rw [hphase] at hcomplete
  obtain ⟨hsame, hall⟩ := hcomplete
  refine h.setRun hr (h.sound.visit hr hphase false) rfl ?_ ?_
  · unfold ReconcileRun.visit
    split_ifs
    · exact htenant
    · cases (w.payouts.find? id).filter (ReconcilablePayout.isOpen r.tenantId) with
      | none => exact htenant
      | some p => exact htenant
  · unfold ReconcileRun.visit
    rw [decide_eq_false (h.not_locked hr hphase), Bool.or_false, if_neg Bool.false_ne_true]
    cases hfind : (w.payouts.find? id).filter (ReconcilablePayout.isOpen r.tenantId) with
    | none =>
        refine ⟨hsame, fun p hp hopen => ?_⟩
        rcases List.mem_append.mp (hall p hp hopen) with hmem | hmem
        · exact List.mem_append_left _ hmem
        · rcases List.mem_cons.mp hmem with hid | hmem
          · -- an open payout under the id would have been found
            have hfound : (w.payouts.find? id).filter
                (ReconcilablePayout.isOpen r.tenantId) = some p :=
              find?_open_eq_some.mpr ⟨hsame ▸ hp, hid, htenant ▸ hopen⟩
            rw [hfind] at hfound
            cases hfound
          · exact List.mem_append_right _ hmem
    | some q =>
        refine ⟨hsame, fun p hp hopen => ?_⟩
        have hqid := (find?_open_eq_some.mp hfind).2.1
        change p.id ∈ ((r.selected ++ [q]).map fun p => p.id) ++ candidates
        rw [List.map_append, List.append_assoc, List.map_singleton, hqid]
        exact hall p hp hopen

theorem Alone.startPairing (h : Alone i tenantId before w) {r : ReconcileRun}
    (hr : w.runs[i]? = some r) (hphase : r.phase = .selecting []) (now : Instant) :
    Alone i tenantId before (w.setRun i (r.startPairing now)) := by
  obtain ⟨r₀, hr₀, htenant, hcomplete⟩ := h.run
  rw [hr] at hr₀
  cases hr₀
  unfold ReconcileRun.Complete at hcomplete
  rw [hphase] at hcomplete
  obtain ⟨hsame, hall⟩ := hcomplete
  refine h.setRun hr (h.sound.startPairing hr hphase now) rfl htenant ⟨hsame, fun p hp hopen => ?_⟩
  have hid := hall p hp hopen
  rw [List.append_nil] at hid
  obtain ⟨q, hq, hqid⟩ := List.mem_map.mp hid
  have hheld := (h.sound.runs i r hr).held (r.isActive_of_selecting hphase) q hq
  have heq : q = p := Table.eq_of_key hheld (hsame ▸ hp) hqid
  exact heq ▸ hq

/-- Pairing a row changes neither the selection nor the payouts. -/
theorem ReconcileRun.pair_fields (r : ReconcileRun) (payouts : Table ReconcilablePayout)
    (byAmount : Int → List ReconcilablePayout) (row : StatementRow) (rest : List StatementRow) :
    (r.pair payouts byAmount row rest).tenantId = r.tenantId ∧
      (r.pair payouts byAmount row rest).selected = r.selected ∧
        (r.pair payouts byAmount row rest).phase =
          .pairing (takeFirst StatementRow.amountCents byAmount row) rest := by
  unfold ReconcileRun.pair
  cases (byAmount row.amountCents).head? with
  | none => exact ⟨rfl, rfl, rfl⟩
  | some hit =>
      simp only
      split_ifs
      · exact ⟨rfl, rfl, rfl⟩
      · exact ⟨rfl, rfl, rfl⟩

theorem Alone.apply (h : Alone i tenantId before w) {step : ReconcileStep}
    (halone : step.isAlone i = true) : Alone i tenantId before (step.apply w) := by
  obtain ⟨r, hr, htenant, hcomplete⟩ := h.run
  have hsame : ∀ {j : Nat}, decide (j = i) = true → w.runs[j]? = some r :=
    fun hj => of_decide_eq_true hj ▸ hr
  cases step with
  | begin => cases halone
  | foreign => cases halone
  | visit j lockedElsewhere =>
      obtain ⟨hj, hfree⟩ := Bool.and_eq_true_iff.mp halone
      cases lockedElsewhere with
      | true => cases hfree
      | false =>
          obtain rfl := of_decide_eq_true hj
          simp only [ReconcileStep.apply, hr]
          split
          · rename_i id candidates hphase
            exact h.visit hr hphase
          all_goals exact h
  | startPairing j now =>
      obtain rfl : j = i := of_decide_eq_true halone
      simp only [ReconcileStep.apply, hr]
      split
      · rename_i hphase
        exact h.startPairing hr hphase now
      all_goals exact h
  | pair j =>
      obtain rfl : j = i := of_decide_eq_true halone
      simp only [ReconcileStep.apply, hr]
      split
      · rename_i byAmount row rest hphase
        unfold ReconcileRun.Complete at hcomplete
        rw [hphase] at hcomplete
        obtain ⟨htenant', hselected, hphase'⟩ := r.pair_fields w.payouts byAmount row rest
        refine h.setRun hr (h.sound.pair hr hphase) rfl (htenant'.trans htenant) ?_
        unfold ReconcileRun.Complete
        rw [hphase', hselected]
        exact hcomplete
      all_goals exact h
  | commit j =>
      obtain rfl : j = i := of_decide_eq_true halone
      simp only [ReconcileStep.apply, hr]
      split
      · rename_i byAmount hphase
        unfold ReconcileRun.Complete at hcomplete
        rw [hphase] at hcomplete
        refine h.setRun hr (h.sound.commit hr hphase rfl rfl) rfl htenant ⟨?_, hcomplete.2⟩
        exact congrArg r.view hcomplete.1
      all_goals exact h
  | abort j =>
      obtain rfl : j = i := of_decide_eq_true halone
      simp only [ReconcileStep.apply, hr]
      split_ifs with hactive
      · exact h.setRun hr (h.sound.abort hr hactive) rfl htenant trivial
      · exact h

theorem Alone.run_steps (h : Alone i tenantId before w) {steps : List ReconcileStep}
    (halone : ∀ step ∈ steps, step.isAlone i = true) :
    Alone i tenantId before (Support.run ReconcileStep.apply steps w) := by
  induction steps generalizing w with
  | nil => exact h
  | cons step steps ih =>
      obtain ⟨hfirst, hrest⟩ := List.forall_mem_cons.mp halone
      exact ih (h.apply hfirst) hrest

/-- A run that was alone leaves a row over only where no payout of its amount is left. -/
theorem Alone.exhausted (h : Alone i tenantId before w) {r : ReconcileRun}
    (hr : w.runs[i]? = some r) (hphase : r.phase = .committed) {row : StatementRow}
    (hrow : row ∈ r.unmatched) {p : ReconcilablePayout} (hp : p ∈ w.payouts)
    (hopen : p.isOpen tenantId = true) : p.totalCents ≠ row.amountCents := by
  intro hamount
  obtain ⟨r₀, hr₀, -, hcomplete⟩ := h.run
  rw [hr] at hr₀
  cases hr₀
  unfold ReconcileRun.Complete at hcomplete
  rw [hphase] at hcomplete
  obtain ⟨hview, hall⟩ := hcomplete
  have hsound := h.sound.runs i r hr
  have hpaired := hsound.progress
  unfold ReconcileRun.Progress at hpaired
  rw [hphase] at hpaired
  rw [hview] at hp
  obtain ⟨p₀, hp₀, rfl⟩ := mem_view.mp hp
  rcases afterClearings_cases (nodup_clearings hsound.ids hpaired) p₀ with
    ⟨heq, hnone⟩ | ⟨c, -, -, -, heq⟩
  · rw [heq] at hopen hamount
    rw [hpaired.unmatched] at hrow
    have hmatched := exists_matched_of_unmatched hrow (hall p₀ hp₀ hopen) hamount
    rw [← ids_clearings hpaired] at hmatched
    obtain ⟨c, hc, hid⟩ := List.mem_map.mp hmatched
    exact hnone c hc hid (isOpen_iff.mp hopen).2.2
  · rw [heq] at hopen
    cases (isOpen_iff.mp hopen).2.2

/-! ### A run that is never interrupted commits -/

theorem exists_commit_of_pairing {rest : List StatementRow} {w : ReconcileWorld}
    {r : ReconcileRun} (hr : w.runs[i]? = some r) {byAmount : Int → List ReconcilablePayout}
    (hphase : r.phase = .pairing byAmount rest) :
    ∃ steps : List ReconcileStep, (∀ step ∈ steps, step.isAlone i = true) ∧
      ∃ r', (Support.run ReconcileStep.apply steps w).runs[i]? = some r' ∧
        r'.phase = .committed := by
  induction rest generalizing w r byAmount with
  | nil =>
      refine ⟨[.commit i], fun step hstep => ?_, { r with phase := .committed }, ?_, rfl⟩
      · rw [List.mem_singleton.mp hstep]
        exact decide_eq_true rfl
      · rw [run_cons, run_nil]
        simp only [ReconcileStep.apply, hr, hphase]
        exact getElem?_setRun_self hr
  | cons row rest ih =>
      have hnext : (ReconcileStep.apply (.pair i) w).runs[i]? =
          some (r.pair w.payouts byAmount row rest) := by
        simp only [ReconcileStep.apply, hr, hphase]
        exact getElem?_setRun_self hr
      obtain ⟨steps, halone, hdone⟩ :=
        ih hnext (r.pair_fields w.payouts byAmount row rest).2.2
      refine ⟨.pair i :: steps, List.forall_mem_cons.mpr ⟨decide_eq_true rfl, halone⟩, hdone⟩

theorem exists_commit_of_selecting {candidates : List Uuid} {w : ReconcileWorld}
    {r : ReconcileRun} (hr : w.runs[i]? = some r) (hphase : r.phase = .selecting candidates) :
    ∃ steps : List ReconcileStep, (∀ step ∈ steps, step.isAlone i = true) ∧
      ∃ r', (Support.run ReconcileStep.apply steps w).runs[i]? = some r' ∧
        r'.phase = .committed := by
  induction candidates generalizing w r with
  | nil =>
      have hnext : (ReconcileStep.apply (.startPairing i 0) w).runs[i]? =
          some (r.startPairing 0) := by
        simp only [ReconcileStep.apply, hr, hphase]
        exact getElem?_setRun_self hr
      obtain ⟨steps, halone, hdone⟩ := exists_commit_of_pairing hnext rfl
      exact ⟨.startPairing i 0 :: steps,
        List.forall_mem_cons.mpr ⟨decide_eq_true rfl, halone⟩, hdone⟩
  | cons id candidates ih =>
      have hnext : (ReconcileStep.apply (.visit i false) w).runs[i]? =
          some (r.visit (false || decide (id ∈ w.locked)) w.payouts id candidates) := by
        simp only [ReconcileStep.apply, hr, hphase]
        exact getElem?_setRun_self hr
      have hleft : (r.visit (false || decide (id ∈ w.locked)) w.payouts id candidates).phase =
          .selecting candidates := by
        unfold ReconcileRun.visit
        split_ifs
        · rfl
        · cases (w.payouts.find? id).filter (ReconcilablePayout.isOpen r.tenantId) with
          | none => rfl
          | some p => rfl
      obtain ⟨steps, halone, hdone⟩ := ih hnext hleft
      refine ⟨.visit i false :: steps, List.forall_mem_cons.mpr ⟨?_, halone⟩, hdone⟩
      exact Bool.and_eq_true_iff.mpr ⟨decide_eq_true rfl, rfl⟩

end Alone

/-! ## All runs -/

/-- What a committed run has made of its statement. -/
structure ReconcileRun.Exact (payouts : Table ReconcilablePayout) (r : ReconcileRun) : Prop where
  matchedRows : (r.matched.map MatchedPayout.row).Sublist r.rows
  unmatchedRows : r.unmatched.Sublist r.rows
  partition : (r.matched.map MatchedPayout.row ++ r.unmatched).Perm r.rows
  pairs : ∀ m ∈ r.matched, ∃ p ∈ r.selected, p.id = m.payoutId ∧
    p.membershipId = m.membershipId ∧ p.totalCents = m.amountCents ∧ p.tenantId = r.tenantId ∧
      p.status = .paid ∧ p.clearedAt = none
  cleared : ∀ m ∈ r.matched, ∃ p ∈ payouts, p.id = m.payoutId ∧ p.clearedAt = some r.now ∧
    p.bankRef = m.bankRef ∧ p.reconciledByUserId = some r.userId
  sorted : r.selected.Pairwise paidNoLater
  earliest : ∀ amountCents,
    (r.matched.filter fun m => m.amountCents = amountCents).map MatchedPayout.payoutId =
      ((r.selected.filter fun p => p.totalCents = amountCents).take
        (r.rows.countP fun row => row.amountCents = amountCents)).map fun p => p.id

/-- The start of a run that nobody disturbs, and its end. -/
def ReconcileWorld.alone (w : ReconcileWorld) (tenantId userId : Uuid) (rows : List StatementRow)
    (candidates : List ReconcilablePayout) (steps : List ReconcileStep) : ReconcileWorld :=
  run ReconcileStep.apply (.begin tenantId userId rows candidates :: steps) w

structure ReconcileWorld.Reconciled (w : ReconcileWorld) : Prop where
  exact : ∀ r ∈ w.runs, r.phase = .committed → r.Exact w.payouts
  /-- what a run has selected is open until the run ends -/
  held : ∀ r ∈ w.runs, r.isActive = true → ∀ p ∈ r.selected,
    p ∈ w.payouts ∧ p.isOpen r.tenantId = true
  once : ((w.runs.filter ReconcileRun.isCommitted).flatMap fun r =>
    r.matched.map MatchedPayout.payoutId).Nodup
  kept : ∀ steps : List ReconcileStep, ∀ p ∈ w.payouts,
    (p.clearedAt ≠ none ∨ p.bankRef ≠ none) →
      ∃ p' ∈ (run ReconcileStep.apply steps w).payouts, p'.id = p.id ∧
        p'.clearedAt = p.clearedAt ∧ p'.bankRef = p.bankRef
  alone : (∀ r ∈ w.runs, r.isActive = false) → ∀ tenantId userId rows candidates,
    isSnapshot tenantId w.payouts candidates →
      (∃ steps : List ReconcileStep, (∀ step ∈ steps, step.isAlone w.runs.length = true) ∧
        ∃ r, (w.alone tenantId userId rows candidates steps).runs[w.runs.length]? = some r ∧
          r.phase = .committed) ∧
      ∀ steps : List ReconcileStep, (∀ step ∈ steps, step.isAlone w.runs.length = true) →
        ∀ r, (w.alone tenantId userId rows candidates steps).runs[w.runs.length]? = some r →
          r.phase = .committed → ∀ row ∈ r.unmatched,
            ∀ p ∈ (w.alone tenantId userId rows candidates steps).payouts,
              p.isOpen tenantId = true → p.totalCents ≠ row.amountCents

theorem ReconcileRun.Sound.exact {payouts : Table ReconcilablePayout} {r : ReconcileRun}
    (h : r.Sound payouts) (hphase : r.phase = .committed) : r.Exact payouts := by
  have hpaired := h.progress
  unfold ReconcileRun.Progress at hpaired
  rw [hphase] at hpaired
  have hcommitted : r.isCommitted = true := by
    unfold ReconcileRun.isCommitted
    rw [hphase]
  have hrows := map_fst_served r r.rows
  refine ⟨?_, ?_, ?_, ?_, ?_, h.sorted, fun amountCents => ?_⟩
  · have hsub := sublist_matched (r.served r.rows)
    rw [hrows] at hsub
    rw [hpaired.matched]
    exact hsub
  · have hsub := sublist_unmatched (r.served r.rows)
    rw [hrows] at hsub
    rw [hpaired.unmatched]
    exact hsub
  · rw [hpaired.matched, hpaired.unmatched]
    exact (perm_rows (r.served r.rows)).trans (.of_eq hrows)
  · intro m hm
    rw [hpaired.matched] at hm
    obtain ⟨p, hp, hamount, hid, hmember, -⟩ := exists_of_mem_matched hm
    exact ⟨p, hp, hid, hmember, hamount, isOpen_iff.mp (h.isOpen p hp)⟩
  · intro m hm
    have hc : m.clearing r.now r.userId ∈ r.clearings := by
      rw [hpaired.clearings]
      exact List.mem_map_of_mem hm
    exact h.stored hcommitted _ hc
  · rw [hpaired.matched]
    exact matched_of_amount r r.rows amountCents

theorem clearedIds_eq {w : ReconcileWorld} (h : w.Sound) :
    w.clearedIds = (w.runs.filter ReconcileRun.isCommitted).flatMap fun r =>
      r.matched.map MatchedPayout.payoutId := by
  have hrun : ∀ r ∈ w.runs, r.isCommitted = true →
      r.clearings.map Clearing.payoutId = r.matched.map MatchedPayout.payoutId := by
    intro r hmem hcommitted
    obtain ⟨i, hr⟩ := List.getElem?_of_mem hmem
    have hprogress := (h.runs i r hr).progress
    unfold ReconcileRun.Progress at hprogress
    unfold ReconcileRun.isCommitted at hcommitted
    cases hphase : r.phase with
    | committed =>
        rw [hphase] at hprogress
        rw [ids_clearings hprogress, hprogress.matched]
    | selecting | pairing | aborted =>
        rw [hphase] at hcommitted
        cases hcommitted
  unfold ReconcileWorld.clearedIds
  generalize w.runs = runs at hrun
  induction runs with
  | nil => rfl
  | cons r runs ih =>
      obtain ⟨hfirst, hrest⟩ := List.forall_mem_cons.mp hrun
      rw [List.flatMap_cons, ih hrest, ReconcileRun.clearedIds]
      by_cases hcommitted : r.isCommitted = true
      · rw [if_pos hcommitted, hfirst hcommitted, List.filter_cons_of_pos hcommitted,
          List.flatMap_cons]
      · rw [if_neg hcommitted, List.filter_cons_of_neg hcommitted, List.nil_append]

/-- The run that has just begun. -/
theorem alone_begin {w : ReconcileWorld} (h : w.Sound)
    (hidle : ∀ r ∈ w.runs, r.isActive = false) {tenantId userId : Uuid}
    {rows : List StatementRow} {candidates : List ReconcilablePayout}
    (hsnapshot : isSnapshot tenantId w.payouts candidates) :
    ∃ r, (ReconcileStep.apply (.begin tenantId userId rows candidates) w).runs[w.runs.length]? =
        some r ∧ r.phase = .selecting (candidates.map fun p => p.id) ∧
      Alone w.runs.length tenantId w.payouts
        (ReconcileStep.apply (.begin tenantId userId rows candidates) w) := by
  have hsound := h.apply (.begin tenantId userId rows candidates)
  simp only [ReconcileStep.apply, if_pos hsnapshot] at hsound ⊢
  refine ⟨_, List.getElem?_concat_length, rfl, hsound, fun j s hj hs => ?_, _,
    List.getElem?_concat_length, rfl, rfl, fun p hp hopen => ?_⟩
  · rw [List.getElem?_append] at hs
    split_ifs at hs with hlt
    · exact hidle s (List.mem_of_getElem? hs)
    · have hbound := (List.getElem?_eq_some_iff.mp hs).1
      rw [List.length_singleton] at hbound
      omega
  · have hmem : p ∈ candidates := hsnapshot.1.mem_iff.mpr (List.mem_filter.mpr ⟨hp, hopen⟩)
    exact List.mem_map_of_mem hmem

/-- Reconciliations, however many there are and however they interleave, match the rows of their
statements with payouts of the same amount, earliest first and each payout once. -/
theorem reconcile_exact {w : ReconcileWorld}
    (h : Reachable ReconcileWorld.Initial ReconcileStep.apply w) : w.Reconciled := by
  have hsound := sound_of_reachable h
  refine ⟨fun r hmem hphase => ?_, fun r hmem hactive p hp => ?_, ?_, ?_, ?_⟩
  · obtain ⟨i, hr⟩ := List.getElem?_of_mem hmem
    exact (hsound.runs i r hr).exact hphase
  · obtain ⟨i, hr⟩ := List.getElem?_of_mem hmem
    exact ⟨(hsound.runs i r hr).held hactive p hp, (hsound.runs i r hr).isOpen p hp⟩
  · rw [← clearedIds_eq hsound, List.nodup_iff_count_le_one]
    intro id
    have honce := hsound.once id
    rwa [List.count_eq_countP]
  · intro steps p hp hset
    have hclear : p.clearedAt ≠ none := by
      rcases hset with hclear | href
      · exact hclear
      · exact fun hnone => href (hsound.refs p hp hnone)
    obtain ⟨p', hp', hid, hclear', href, -⟩ := keepsCleared_run h steps p hp hclear
    exact ⟨p', hp', hid, hclear', href⟩
  · intro hidle tenantId userId rows candidates hsnapshot
    obtain ⟨r₀, hr₀, hphase₀, halone⟩ := alone_begin hsound hidle hsnapshot
    refine ⟨exists_commit_of_selecting hr₀ hphase₀, fun steps hsteps r hr hphase row hrow p hp => ?_⟩
    exact (halone.run_steps hsteps).exhausted hr hphase hrow hp

namespace Demo

/-- A paid payout of one member of the first tenant. -/
def paidPayout (id : Uuid) (totalCents : Int) (paidAt : Instant) : ReconcilablePayout where
  id := id
  tenantId := 1
  membershipId := id
  batchId := none
  totalCents := totalCents
  method := .manual
  status := .paid
  period := "2026-06"
  activeKey := none
  processingStartedAt := none
  paidAt := some paidAt
  settledAt := none
  settlementReference := none
  settlementEvidence := none
  recipientReferralCode := none
  recipientFullName := none
  recipientEmail := none
  complianceSnapshot := none
  rejectedAt := none
  rejectionReason := none
  failedAt := none
  failureReason := none
  ref := none
  createdAt := 0
  clearedAt := none
  bankRef := none
  reconciledByUserId := none

/-- Two payouts of one amount, the later one first in the table. -/
def unreconciled : ReconcileWorld where
  payouts :=
    { rows := [paidPayout 8 500 20, paidPayout 7 500 10]
      keys_nodup := by decide
      no_clash := by decide }
  runs := []
  auditLogs := []

theorem unreconciled_initial : unreconciled.Initial := ⟨rfl, by decide⟩

/-- Two runs at once: the first locks the earlier payout, the second finds the other one. -/
def reconciling : List ReconcileStep :=
  [.begin 1 2 [⟨500, some "a"⟩, ⟨500, some "b"⟩] [paidPayout 7 500 10, paidPayout 8 500 20],
    .begin 1 2 [⟨500, some "c"⟩] [paidPayout 7 500 10, paidPayout 8 500 20],
    .visit 0 false, .visit 1 false, .visit 1 false, .visit 0 false, .startPairing 0 30,
    .startPairing 1 40, .pair 0, .pair 0, .pair 1, .commit 1, .commit 0]

end Demo

theorem reconcile_exact_together :
    ((run ReconcileStep.apply Demo.reconciling Demo.unreconciled).payouts.rows.map fun p =>
        (p.id, p.clearedAt, p.bankRef)) = [(8, some 40, some "c"), (7, some 30, some "a")] ∧
      (run ReconcileStep.apply Demo.reconciling Demo.unreconciled).Reconciled :=
  ⟨by decide,
    reconcile_exact ((Reachable.start Demo.unreconciled_initial).run Demo.reconciling)⟩

end Refearn.Payouts
