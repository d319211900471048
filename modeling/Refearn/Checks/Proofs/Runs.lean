import Refearn.Checks.Runs
/-!
# Check numbers over whole runs

The numbers of a tenant are those from its first counter to its present one, whatever comes
between the statements of a check run: nobody but the holder of the lock moves the counter, and
the payouts it has selected are paid, which every other transaction leaves alone.
-/

namespace Refearn.Checks

open Support

/-! ## The loop of a run -/

section Assign

variable (payee : CheckPayout → Payee)

theorem assignChecks_cons_skip {p : CheckPayout} {reason : String} (next : Nat)
    (targets : List CheckPayout) (h : skipReason p (payee p) = some reason) :
    (assignChecks payee next (p :: targets)).1 = (assignChecks payee next targets).1 := by
  simp only [assignChecks, h]

theorem assignChecks_cons_assign {p : CheckPayout} (next : Nat) (targets : List CheckPayout)
    (h : skipReason p (payee p) = none) :
    (assignChecks payee next (p :: targets)).1 =
      ⟨p.id, next + 1, snapshotOf (payee p), p.totalCents, p.period⟩ ::
        (assignChecks payee (next + 1) targets).1 := by
  simp only [assignChecks, h]

/-- The checks of a run are numbered from the counter on, without a gap. -/
theorem checkNumbers_assignChecks (next : Nat) (targets : List CheckPayout) :
    (assignChecks payee next targets).1.map AssignedCheck.checkNumber =
      List.range' (next + 1) (assignChecks payee next targets).1.length := by
  induction targets generalizing next with
  | nil => rfl
  | cons p targets ih =>
      cases hskip : skipReason p (payee p) with
      | some reason =>
          rw [assignChecks_cons_skip payee next targets hskip]
          exact ih next
      | none =>
          rw [assignChecks_cons_assign payee next targets hskip, List.map_cons, ih (next + 1),
            List.length_cons, List.range'_succ]

theorem payoutIds_assignChecks (next : Nat) (targets : List CheckPayout) :
    ((assignChecks payee next targets).1.map AssignedCheck.payoutId).Sublist
      (targets.map fun p => p.id) := by
  induction targets generalizing next with
  | nil => exact List.Sublist.refl _
  | cons p targets ih =>
      cases hskip : skipReason p (payee p) with
      | some reason =>
          rw [assignChecks_cons_skip payee next targets hskip]
          exact (ih next).cons _
      | none =>
          rw [assignChecks_cons_assign payee next targets hskip]
          exact (ih (next + 1)).cons_cons _

/-- A check is written for a target that nothing speaks against. -/
theorem mem_assignChecks {next : Nat} {targets : List CheckPayout} {a : AssignedCheck}
    (h : a ∈ (assignChecks payee next targets).1) :
    ∃ p ∈ targets, p.id = a.payoutId ∧ skipReason p (payee p) = none := by
  induction targets generalizing next with
  | nil => cases h
  | cons p targets ih =>
      have hrest : ∀ {next}, a ∈ (assignChecks payee next targets).1 →
          ∃ q ∈ p :: targets, q.id = a.payoutId ∧ skipReason q (payee q) = none := by
        intro next h
        obtain ⟨q, hq, hid, hskip⟩ := ih h
        exact ⟨q, List.mem_cons_of_mem _ hq, hid, hskip⟩
      cases hskip : skipReason p (payee p) with
      | some reason =>
          rw [assignChecks_cons_skip payee next targets hskip] at h
          exact hrest h
      | none =>
          rw [assignChecks_cons_assign payee next targets hskip] at h
          rcases List.mem_cons.mp h with rfl | h
          · exact ⟨p, List.mem_cons_self, rfl, hskip⟩
          · exact hrest h

end Assign

theorem amount_of_skipReason {p : CheckPayout} {m : Payee} (h : skipReason p m = none) :
    0 < p.totalCents ∧ p.totalCents ≤ CHECK_AMOUNT_MAX := by
  unfold skipReason at h
  split_ifs at h with haddress hamount
  push Not at hamount
  exact hamount

/-! ## The updates of a run -/

/-- After its updates a payout is as it was, or carries the number of the check written for
it. -/
theorem mem_writeChecks {payouts : Table CheckPayout} {assigned : List AssignedCheck}
    (hids : (assigned.map AssignedCheck.payoutId).Nodup) {p' : CheckPayout} :
    p' ∈ writeChecks payouts assigned ↔ ∃ p ∈ payouts,
      (p' = p ∧ ∀ a ∈ assigned, a.payoutId ≠ p.id) ∨
        ∃ a ∈ assigned, a.payoutId = p.id ∧ p' = p.numbered a := by
  let isFor : AssignedCheck → CheckPayout → Bool := fun a p => key p = a.payoutId
  have hrows : (writeChecks payouts assigned).rows =
      payouts.rows.map (Table.rewrites isFor (fun a p => p.numbered a) assigned) :=
    Table.rows_foldl_updateWhere isFor (fun a p => p.numbered a) numbered_keepsIndexes assigned
      payouts
  have hcases : ∀ p : CheckPayout, _ := fun p =>
    Table.rewrites_cases isFor (fun a p => p.numbered a) hids
      (fun a r h => (of_decide_eq_true h).symm) (fun a r => (numbered_keepsIndexes a).key_eq r) p
  have hfor : ∀ {a : AssignedCheck} {p : CheckPayout}, a.payoutId = p.id ↔ isFor a p = true :=
    ⟨fun h => decide_eq_true h.symm, fun h => (of_decide_eq_true h).symm⟩
  rw [Table.mem_def, hrows, List.mem_map]
  refine exists_congr fun p => and_congr_right fun hp => ?_
  rcases hcases p with ⟨hsame, hnone⟩ | ⟨a, ha, hpa, heq⟩
  · rw [hsame]
    constructor
    · rintro rfl
      refine .inl ⟨rfl, fun a ha hid => ?_⟩
      rw [hfor, hnone a ha] at hid
      cases hid
    · rintro (⟨rfl, -⟩ | ⟨a, ha, hid, -⟩)
      · rfl
      · rw [hfor, hnone a ha] at hid
        cases hid
  · rw [heq]
    constructor
    · rintro rfl
      exact .inr ⟨a, ha, hfor.mpr hpa, rfl⟩
    · rintro (⟨-, hnone⟩ | ⟨b, hb, hid, rfl⟩)
      · exact absurd (hfor.mpr hpa) (hnone a ha)
      · rw [List.inj_on_of_nodup_map hids ha hb ((hfor.mpr hpa).trans hid.symm)]

/-! ## What holds in every state -/

/-- The last number given in a business, that of a new one before there is a row. -/
def ChecksWorld.counter (w : ChecksWorld) (tenantId : Uuid) : Nat :=
  (w.tenants.find? tenantId).elim LAST_CHECK_NUMBER_DEFAULT CheckTenant.lastCheckNumber

structure CheckPayout.Payable (p : CheckPayout) : Prop where
  paid : p.status = .paid
  byCheck : p.method = .check
  positive : 0 < p.totalCents
  withinLimit : p.totalCents ≤ CHECK_AMOUNT_MAX
  addressed : p.payeeSnapshot.isSome

/-- The numbers of each business are those after `start` up to its counter, each on one
payout, which a check may be written for; only what is numbered is mailed. -/
structure Numbered (start : Uuid → Nat) (w : ChecksWorld) : Prop where
  started : ∀ tenantId, start tenantId ≤ w.counter tenantId
  consecutive : ∀ tenantId n,
    (∃ p ∈ w.payouts, p.tenantId = tenantId ∧ p.checkNumber = some n) ↔
      start tenantId < n ∧ n ≤ w.counter tenantId
  distinct : ∀ p ∈ w.payouts, ∀ q ∈ w.payouts, p.tenantId = q.tenantId →
    p.checkNumber.isSome → p.checkNumber = q.checkNumber → p = q
  payable : ∀ p ∈ w.payouts, p.checkNumber.isSome → p.Payable
  mailed : ∀ p ∈ w.payouts, p.mailedAt.isSome → p.checkNumber.isSome

/-- A run has read the present counter of its tenant, and what it has selected still waits
for a number. -/
structure RunSound (w : ChecksWorld) (tenantId : Uuid) (r : CheckRun) : Prop where
  counter : w.tenants.find? tenantId = some ⟨tenantId, r.lastCheckNumber⟩
  selected : ∀ s ∈ r.selected, (s.1.map fun p => p.id).Nodup ∧
    ∀ p ∈ s.1, p ∈ w.payouts ∧ p.isPaidCheck tenantId = true ∧ p.checkNumber = none

def RunsSound (w : ChecksWorld) : Prop :=
  ∀ tenantId r, w.runs tenantId = some r → RunSound w tenantId r

/-! ## Changes that no run makes -/

/-- What becomes of a payout in a transaction other than a check run. -/
structure Carried (p p' : CheckPayout) : Prop where
  id : p'.id = p.id
  tenantId : p'.tenantId = p.tenantId
  checkNumber : p'.checkNumber = p.checkNumber
  payeeSnapshot : p'.payeeSnapshot = p.payeeSnapshot
  paid : p.status = .paid → p'.status = .paid ∧ p'.method = p.method ∧ p'.totalCents = p.totalCents
  mailed : p.mailedAt.isSome → p'.mailedAt.isSome
  marked : p'.mailedAt.isSome → p.mailedAt.isSome ∨ p.checkNumber.isSome
  waiting : p.status = .paid → p.checkNumber = none → p' = p

theorem Carried.refl (p : CheckPayout) : Carried p p :=
  ⟨rfl, rfl, rfl, rfl, fun h => ⟨h, rfl, rfl⟩, fun h => h, .inl, fun _ _ => rfl⟩

/-- Every payout is carried over, and one that is not carried from another is new. -/
structure CarriedOver (payouts payouts' : Table CheckPayout) : Prop where
  kept : ∀ p ∈ payouts, ∃ p' ∈ payouts', Carried p p'
  origin : ∀ p' ∈ payouts', (∃ p ∈ payouts, Carried p p') ∨
    (p'.checkNumber = none ∧ p'.mailedAt = none)

theorem carriedOver_updateWhere {payouts : Table CheckPayout} {isChanged : CheckPayout → Bool}
    {f : CheckPayout → CheckPayout} (hf : KeepsIndexes f)
    (h : ∀ p, isChanged p = true → Carried p (f p)) :
    CarriedOver payouts (payouts.updateWhere isChanged f hf) := by
  have hrow : ∀ p, Carried p (if isChanged p then f p else p) := by
    intro p
    split_ifs with hp
    · exact h p hp
    · exact Carried.refl p
  refine ⟨fun p hp => ?_, fun p' hp' => .inl ?_⟩
  · exact ⟨_, List.mem_map_of_mem hp, hrow p⟩
  · obtain ⟨p, hp, rfl⟩ := List.mem_map.mp hp'
    exact ⟨p, hp, hrow p⟩

theorem carriedOver_markMailed (payouts : Table CheckPayout) (tenantId : Uuid)
    (payoutIds : List Uuid) (now : Instant) :
    CarriedOver payouts (markMailed payouts tenantId payoutIds now) := by
  refine carriedOver_updateWhere _ fun p hp => ?_
  simp only [isMailable, Bool.and_eq_true] at hp
  refine ⟨rfl, rfl, rfl, rfl, fun h => ⟨h, rfl, rfl⟩, fun _ => rfl, fun _ => .inr hp.1.2,
    fun _ hnone => ?_⟩
  rw [hnone] at hp
  cases hp.1.2

theorem carriedOver_settleBatch (payouts : Table CheckPayout) (batchId : Uuid) (now : Instant)
    (reference evidence : String) :
    CarriedOver payouts (settleBatch payouts batchId now reference evidence) := by
  refine carriedOver_updateWhere _ fun p hp => ?_
  simp only [isOfBatch, Bool.and_eq_true, beq_iff_eq] at hp
  have hopen : p.status ≠ .paid := by
    rw [hp.2]
    nofun
  exact ⟨rfl, rfl, rfl, rfl, fun h => absurd h hopen, id, .inl, fun h => absurd h hopen⟩

theorem carriedOver_of_isForeign {payouts payouts' : Table CheckPayout}
    (h : isForeign payouts payouts') : CarriedOver payouts payouts' := by
  have hcarried : ∀ p ∈ payouts, ∃ p' ∈ payouts', p'.id = p.id ∧ Carried p p' := by
    intro p hp
    obtain ⟨p', hp', hid, htenant, hnumber, hmailed, hsnapshot, hpaid⟩ := h.1 p hp
    refine ⟨p', hp', hid, hid, htenant, hnumber, hsnapshot, fun hstatus => ?_, fun hsome => ?_,
      fun hsome => .inl (hmailed ▸ hsome), fun hstatus _ => hpaid hstatus⟩
    · rw [hpaid hstatus]
      exact ⟨hstatus, rfl, rfl⟩
    · rw [hmailed]
      exact hsome
  refine ⟨fun p hp => ?_, fun p' hp' => ?_⟩
  · obtain ⟨p', hp', -, hp⟩ := hcarried p hp
    exact ⟨p', hp', hp⟩
  · by_cases hnew : ∀ p ∈ payouts, p.id ≠ p'.id
    · obtain ⟨hnumber, hmailed, -⟩ := h.2 p' hp' hnew
      exact .inr ⟨hnumber, hmailed⟩
    · push Not at hnew
      obtain ⟨p, hp, hid⟩ := hnew
      obtain ⟨q, hq, hqid, hcarried⟩ := hcarried p hp
      have heq : q = p' := Table.eq_of_key hq hp' (hqid.trans hid)
      exact .inl ⟨p, hp, heq ▸ hcarried⟩

/-- What is numbered after such a change was so before. -/
theorem CarriedOver.exists_numbered {payouts payouts' : Table CheckPayout}
    (h : CarriedOver payouts payouts') {p' : CheckPayout} (hp' : p' ∈ payouts')
    (hnumber : p'.checkNumber.isSome) : ∃ p ∈ payouts, Carried p p' := by
  rcases h.origin p' hp' with hcarried | hnone
  · exact hcarried
  · rw [hnone.1] at hnumber
    cases hnumber

theorem Numbered.of_carriedOver {start : Uuid → Nat} {w : ChecksWorld}
    {payouts : Table CheckPayout} (hw : Numbered start w) (h : CarriedOver w.payouts payouts) :
    Numbered start { w with payouts } where
  started := hw.started
  consecutive tenantId n := by
    rw [show ({ w with payouts } : ChecksWorld).counter = w.counter from rfl,
      ← hw.consecutive tenantId n]
    constructor
    · rintro ⟨p', hp', htenant, hnumber⟩
      obtain ⟨p, hp, hc⟩ := h.exists_numbered hp' (by rw [hnumber]; rfl)
      exact ⟨p, hp, hc.tenantId ▸ htenant, hc.checkNumber ▸ hnumber⟩
    · rintro ⟨p, hp, htenant, hnumber⟩
      obtain ⟨p', hp', hc⟩ := h.kept p hp
      exact ⟨p', hp', hc.tenantId.trans htenant, hc.checkNumber.trans hnumber⟩
  distinct := by
    intro p' hp' q' hq' htenant hsome hnumber
    obtain ⟨p, hp, hcp⟩ := h.exists_numbered hp' hsome
    obtain ⟨q, hq, hcq⟩ := h.exists_numbered hq' (hnumber ▸ hsome)
    rw [hcp.tenantId, hcq.tenantId] at htenant
    rw [hcp.checkNumber] at hsome
    rw [hcp.checkNumber, hcq.checkNumber] at hnumber
    have heq : p = q := hw.distinct p hp q hq htenant hsome hnumber
    refine Table.eq_of_key hp' hq' ?_
    calc p'.id = p.id := hcp.id
      _ = q.id := by rw [heq]
      _ = q'.id := hcq.id.symm
  payable := by
    intro p' hp' hsome
    obtain ⟨p, hp, hc⟩ := h.exists_numbered hp' hsome
    have hpayable := hw.payable p hp (hc.checkNumber ▸ hsome)
    obtain ⟨hpaid, hmethod, htotal⟩ := hc.paid hpayable.paid
    exact ⟨hpaid, hmethod.trans hpayable.byCheck, htotal ▸ hpayable.positive,
      htotal ▸ hpayable.withinLimit, hc.payeeSnapshot ▸ hpayable.addressed⟩
  mailed := by
    intro p' hp' hsome
    rcases h.origin p' hp' with ⟨p, hp, hc⟩ | ⟨-, hnone⟩
    · rw [hc.checkNumber]
      exact (hc.marked hsome).elim (hw.mailed p hp) id
    · rw [hnone] at hsome
      cases hsome

theorem RunSound.of_carriedOver {w : ChecksWorld} {payouts : Table CheckPayout}
    {tenantId : Uuid} {r : CheckRun} (hr : RunSound w tenantId r)
    (h : CarriedOver w.payouts payouts) : RunSound { w with payouts } tenantId r where
  counter := hr.counter
  selected s hs := by
    obtain ⟨hids, htargets⟩ := hr.selected s hs
    refine ⟨hids, fun p hp => ?_⟩
    obtain ⟨hmem, hpaid, hnone⟩ := htargets p hp
    refine ⟨?_, hpaid, hnone⟩
    obtain ⟨p', hp', hc⟩ := h.kept p hmem
    simp only [CheckPayout.isPaidCheck, Bool.and_eq_true, beq_iff_eq] at hpaid
    exact hc.waiting hpaid.2 hnone ▸ hp'

/-! ## The commit of a run -/

/-- Checks that a run may write: for payouts that wait for one, with the numbers after the
counter. -/
structure Assignable (w : ChecksWorld) (tenantId : Uuid) (last : Nat)
    (assigned : List AssignedCheck) : Prop where
  counter : w.tenants.find? tenantId = some ⟨tenantId, last⟩
  ids_nodup : (assigned.map AssignedCheck.payoutId).Nodup
  numbers : assigned.map AssignedCheck.checkNumber = List.range' (last + 1) assigned.length
  waiting : ∀ a ∈ assigned, ∃ p ∈ w.payouts, p.id = a.payoutId ∧
    p.isPaidCheck tenantId = true ∧ p.checkNumber = none ∧
      0 < p.totalCents ∧ p.totalCents ≤ CHECK_AMOUNT_MAX

theorem RunSound.assignable {w : ChecksWorld} {tenantId : Uuid} {r : CheckRun}
    (hr : RunSound w tenantId r) {targets : List CheckPayout} {payee : CheckPayout → Payee}
    (hs : r.selected = some (targets, payee)) :
    Assignable w tenantId r.lastCheckNumber (assignChecks payee r.lastCheckNumber targets).1 := by
  obtain ⟨hids, htargets⟩ := hr.selected (targets, payee) hs
  refine ⟨hr.counter, (payoutIds_assignChecks payee _ targets).nodup hids,
    checkNumbers_assignChecks payee _ targets, fun a ha => ?_⟩
  obtain ⟨p, hp, hid, hskip⟩ := mem_assignChecks payee ha
  obtain ⟨hmem, hpaid, hnone⟩ := htargets p hp
  exact ⟨p, hmem, hid, hpaid, hnone, amount_of_skipReason hskip⟩

/-- The world after the commit of a run. -/
def ChecksWorld.written (w : ChecksWorld) (tenantId : Uuid) (last : Nat)
    (assigned : List AssignedCheck) : ChecksWorld where
  tenants := w.tenants.updateKey tenantId
    (fun t => { t with lastCheckNumber := last + assigned.length }) (counter_keepsIndexes _)
  payouts := writeChecks w.payouts assigned
  runs := Function.update w.runs tenantId none

theorem commitRun_eq (w : ChecksWorld) (tenantId : Uuid) (r : CheckRun)
    (targets : List CheckPayout) (payee : CheckPayout → Payee) :
    w.commitRun tenantId r targets payee = w.setRun tenantId none ∨
      w.commitRun tenantId r targets payee =
        w.written tenantId r.lastCheckNumber (assignChecks payee r.lastCheckNumber targets).1 := by
  unfold ChecksWorld.commitRun
  dsimp only
  split_ifs with hmax
  · exact .inr rfl
  · exact .inl rfl

namespace Assignable

variable {w : ChecksWorld} {tenantId : Uuid} {last : Nat} {assigned : List AssignedCheck}

/-- The payout that a check is written for. -/
theorem of_payoutId (h : Assignable w tenantId last assigned) {a : AssignedCheck}
    (ha : a ∈ assigned) {p : CheckPayout} (hp : p ∈ w.payouts) (hid : a.payoutId = p.id) :
    p.isPaidCheck tenantId = true ∧ p.checkNumber = none ∧
      0 < p.totalCents ∧ p.totalCents ≤ CHECK_AMOUNT_MAX := by
  obtain ⟨q, hq, hqid, hwaiting⟩ := h.waiting a ha
  have heq : q = p := Table.eq_of_key hq hp (hqid.trans hid)
  exact heq ▸ hwaiting

theorem tenantId_of_isPaidCheck {p : CheckPayout} (h : p.isPaidCheck tenantId = true) :
    p.tenantId = tenantId ∧ p.method = .check ∧ p.status = .paid := by
  simp only [CheckPayout.isPaidCheck, Bool.and_eq_true, beq_iff_eq] at h
  exact ⟨h.1.1, h.1.2, h.2⟩

theorem mem_numbers (h : Assignable w tenantId last assigned) {n : Nat} :
    (∃ a ∈ assigned, a.checkNumber = n) ↔ last < n ∧ n ≤ last + assigned.length := by
  have hmem : (∃ a ∈ assigned, a.checkNumber = n) ↔
      n ∈ assigned.map AssignedCheck.checkNumber := List.mem_map.symm
  rw [hmem, h.numbers, List.mem_range'_1]
  omega

theorem counter_written (h : Assignable w tenantId last assigned) (tenantId' : Uuid) :
    (w.written tenantId last assigned).counter tenantId' =
      if tenantId' = tenantId then last + assigned.length else w.counter tenantId' := by
  have hfind : (w.written tenantId last assigned).tenants.find? tenantId' = _ :=
    Table.find?_updateKey w.tenants tenantId _ (counter_keepsIndexes _) tenantId'
  unfold ChecksWorld.counter
  rw [hfind]
  split_ifs with heq
  · rw [heq, h.counter]
    simp [key]
  · cases hrow : w.tenants.find? tenantId' with
    | none => rfl
    | some t =>
        have hkey : key t ≠ tenantId := fun hk => heq ((Table.find?_eq_some.mp hrow).2 ▸ hk)
        rw [Option.map_some, if_neg hkey]

theorem counter_eq (h : Assignable w tenantId last assigned) : w.counter tenantId = last := by
  unfold ChecksWorld.counter
  rw [h.counter]
  rfl

/-- A payout keeps the number that it has. -/
theorem mem_written_of_numbered (h : Assignable w tenantId last assigned) {p : CheckPayout}
    (hp : p ∈ w.payouts) (hsome : p.checkNumber.isSome) :
    p ∈ (w.written tenantId last assigned).payouts := by
  refine (mem_writeChecks h.ids_nodup).mpr ⟨p, hp, .inl ⟨rfl, fun a ha hid => ?_⟩⟩
  rw [(h.of_payoutId ha hp hid).2.1] at hsome
  cases hsome

/-- The numbers of a run are new in its business. -/
theorem number_ne (h : Assignable w tenantId last assigned) {start : Uuid → Nat}
    (hw : Numbered start w) {p : CheckPayout} (hp : p ∈ w.payouts)
    (htenant : p.tenantId = tenantId) {a : AssignedCheck} (ha : a ∈ assigned) :
    p.checkNumber ≠ some a.checkNumber := by
  intro hnumber
  have hold : a.checkNumber ≤ w.counter tenantId :=
    ((hw.consecutive tenantId _).mp ⟨p, hp, htenant, hnumber⟩).2
  have hnew : last < a.checkNumber := (h.mem_numbers.mp ⟨a, ha, rfl⟩).1
  rw [h.counter_eq] at hold
  omega

theorem consecutive_written (h : Assignable w tenantId last assigned) {start : Uuid → Nat}
    (hw : Numbered start w) (tenantId' : Uuid) (n : Nat) :
    (∃ p ∈ (w.written tenantId last assigned).payouts,
        p.tenantId = tenantId' ∧ p.checkNumber = some n) ↔
      start tenantId' < n ∧ n ≤ (w.written tenantId last assigned).counter tenantId' := by
  rw [h.counter_written]
  constructor
  · rintro ⟨p', hp', htenant, hnumber⟩
    obtain ⟨p, hp, ⟨rfl, -⟩ | ⟨a, ha, hid, rfl⟩⟩ := (mem_writeChecks h.ids_nodup).mp hp'
    · have hold := (hw.consecutive tenantId' n).mp ⟨p', hp, htenant, hnumber⟩
      split_ifs with heq
      · rw [heq, h.counter_eq] at hold
        rw [heq]
        omega
      · exact hold
    · have htenant' : tenantId' = tenantId :=
        htenant.symm.trans (tenantId_of_isPaidCheck (h.of_payoutId ha hp hid).1).1
      have hn : a.checkNumber = n := Option.some.inj hnumber
      have hnew := h.mem_numbers.mp ⟨a, ha, hn⟩
      have hstart := hw.started tenantId
      rw [h.counter_eq] at hstart
      rw [if_pos htenant', htenant']
      omega
  · rintro ⟨hlow, hhigh⟩
    by_cases hold : n ≤ w.counter tenantId'
    · obtain ⟨p, hp, htenant, hnumber⟩ := (hw.consecutive tenantId' n).mpr ⟨hlow, hold⟩
      exact ⟨p, h.mem_written_of_numbered hp (by rw [hnumber]; rfl), htenant, hnumber⟩
    · split_ifs at hhigh with heq
      · rw [heq, h.counter_eq] at hold
        obtain ⟨a, ha, hn⟩ := h.mem_numbers.mpr ⟨by omega, hhigh⟩
        obtain ⟨p, hp, hid, hpaid, -⟩ := h.waiting a ha
        refine ⟨p.numbered a, (mem_writeChecks h.ids_nodup).mpr ⟨p, hp, .inr ⟨a, ha, hid.symm, rfl⟩⟩,
          ?_, congrArg some hn⟩
        exact (tenantId_of_isPaidCheck hpaid).1.trans heq.symm
      · exact absurd hhigh hold

theorem distinct_written (h : Assignable w tenantId last assigned) {start : Uuid → Nat}
    (hw : Numbered start w) {p' q' : CheckPayout}
    (hp' : p' ∈ (w.written tenantId last assigned).payouts)
    (hq' : q' ∈ (w.written tenantId last assigned).payouts) (htenant : p'.tenantId = q'.tenantId)
    (hsome : p'.checkNumber.isSome) (hnumber : p'.checkNumber = q'.checkNumber) : p' = q' := by
  obtain ⟨p, hp, ⟨rfl, -⟩ | ⟨a, ha, hpid, rfl⟩⟩ := (mem_writeChecks h.ids_nodup).mp hp' <;>
    obtain ⟨q, hq, ⟨rfl, -⟩ | ⟨b, hb, hqid, rfl⟩⟩ := (mem_writeChecks h.ids_nodup).mp hq'
  · exact hw.distinct p' hp q' hq htenant hsome hnumber
  · have hq := (tenantId_of_isPaidCheck (h.of_payoutId hb hq hqid).1).1
    exact absurd hnumber (h.number_ne hw hp (htenant.trans hq) hb)
  · have hp := (tenantId_of_isPaidCheck (h.of_payoutId ha hp hpid).1).1
    exact absurd hnumber.symm (h.number_ne hw hq (htenant.symm.trans hp) ha)
  · -- one number is written by one check, and that for one payout
    have hnodup : (assigned.map AssignedCheck.checkNumber).Nodup := by
      rw [h.numbers]
      exact List.nodup_range'
    have hab : a = b := List.inj_on_of_nodup_map hnodup ha hb (Option.some.inj hnumber)
    have hpq : p = q := Table.eq_of_key hp hq (hpid.symm.trans (hab ▸ hqid))
    rw [hab, hpq]

theorem numbered {start : Uuid → Nat} (h : Assignable w tenantId last assigned)
    (hw : Numbered start w) : Numbered start (w.written tenantId last assigned) where
  started tenantId' := by
    have hstart := hw.started tenantId'
    rw [h.counter_written]
    split_ifs with heq
    · rw [heq, h.counter_eq] at hstart
      rw [heq]
      omega
    · exact hstart
  consecutive := h.consecutive_written hw
  distinct := fun p hp q hq => h.distinct_written hw hp hq
  payable := by
    intro p' hp' hsome
    obtain ⟨p, hp, ⟨rfl, -⟩ | ⟨a, ha, hid, rfl⟩⟩ := (mem_writeChecks h.ids_nodup).mp hp'
    · exact hw.payable p' hp hsome
    · obtain ⟨hpaid, -, hpos, hmax⟩ := h.of_payoutId ha hp hid
      obtain ⟨-, hmethod, hstatus⟩ := tenantId_of_isPaidCheck hpaid
      exact ⟨hstatus, hmethod, hpos, hmax, rfl⟩
  mailed := by
    intro p' hp' hsome
    obtain ⟨p, hp, ⟨rfl, -⟩ | ⟨a, ha, hid, rfl⟩⟩ := (mem_writeChecks h.ids_nodup).mp hp'
    · exact hw.mailed p' hp hsome
    · rfl

/-- The run of another business goes on. -/
theorem runSound (h : Assignable w tenantId last assigned) {tenantId' : Uuid} {r : CheckRun}
    (hne : tenantId' ≠ tenantId) (hr : RunSound w tenantId' r) :
    RunSound (w.written tenantId last assigned) tenantId' r where
  counter := by
    have hfind := Table.find?_updateKey w.tenants tenantId
      (fun t => { t with lastCheckNumber := last + assigned.length }) (counter_keepsIndexes _)
      tenantId'
    rw [hr.counter, Option.map_some] at hfind
    exact hfind.trans (congrArg some (if_neg hne))
  selected s hs := by
    obtain ⟨hids, htargets⟩ := hr.selected s hs
    refine ⟨hids, fun p hp => ?_⟩
    obtain ⟨hmem, hpaid, hnone⟩ := htargets p hp
    refine ⟨(mem_writeChecks h.ids_nodup).mpr ⟨p, hmem, .inl ⟨rfl, fun a ha hid => ?_⟩⟩, hpaid,
      hnone⟩
    -- such a check would be for a payout of the other business
    have htenant := (tenantId_of_isPaidCheck (h.of_payoutId ha hmem hid).1).1
    exact hne ((tenantId_of_isPaidCheck hpaid).1.symm.trans htenant)

end Assignable

/-! ## One step -/

/-- What a step makes of a world whose runs are sound. -/
inductive StepEffect (w : ChecksWorld) : ChecksWorld → Prop
  | payouts {payouts : Table CheckPayout} (h : CarriedOver w.payouts payouts) :
      StepEffect w { w with payouts }
  | tenants {tenantId : Uuid} {tenants : Table CheckTenant}
      (h : w.tenants.insert? ⟨tenantId, LAST_CHECK_NUMBER_DEFAULT⟩ = some tenants) :
      StepEffect w { w with tenants }
  | run (tenantId : Uuid) (r : Option CheckRun) (h : ∀ r' ∈ r, RunSound w tenantId r') :
      StepEffect w (w.setRun tenantId r)
  | written {tenantId : Uuid} {last : Nat} {assigned : List AssignedCheck}
      (h : Assignable w tenantId last assigned) :
      StepEffect w (w.written tenantId last assigned)

theorem StepEffect.refl (w : ChecksWorld) : StepEffect w w :=
  .payouts ⟨fun p hp => ⟨p, hp, .refl p⟩, fun p hp => .inl ⟨p, hp, .refl p⟩⟩

/-- A selection is of payouts that wait for a number. -/
theorem runSound_of_isSelection {w : ChecksWorld} {tenantId : Uuid} {payoutIds : List Uuid}
    {last : Nat} {targets : List CheckPayout} {payee : CheckPayout → Payee}
    (hcounter : w.tenants.find? tenantId = some ⟨tenantId, last⟩)
    (h : isSelection w.payouts tenantId payoutIds targets) :
    RunSound w tenantId ⟨payoutIds, last, some (targets, payee)⟩ where
  counter := hcounter
  selected s hs := by
    obtain rfl := Option.some.inj hs
    constructor
    · have hkeys : (w.payouts.rows.map fun p => p.id).Nodup := w.payouts.keys_nodup
      exact (h.1.map _).nodup_iff.mpr ((List.filter_sublist.map _).nodup hkeys)
    · intro p hp
      obtain ⟨hmem, htarget⟩ := List.mem_filter.mp (h.1.mem_iff.mp hp)
      simp only [isTarget, Bool.and_eq_true, Option.isNone_iff_eq_none] at htarget
      exact ⟨hmem, htarget.1.1, htarget.1.2⟩

theorem stepEffect_apply (step : ChecksStep) {w : ChecksWorld} (hw : RunsSound w) :
    StepEffect w (step.apply w) := by
  cases step with
  | createTenant tenantId =>
      unfold ChecksStep.apply
      dsimp only
      split
      · next tenants htenants => exact .tenants htenants
      · exact .refl w
  | lockTenant tenantId payoutIds =>
      unfold ChecksStep.apply
      dsimp only
      split
      · next t hfree hfind =>
          refine .run tenantId _ fun r hr => ?_
          obtain rfl := Option.some.inj hr
          have hid : t.id = tenantId := (Table.find?_eq_some.mp hfind).2
          exact ⟨hid ▸ hfind, nofun⟩
      · exact .refl w
  | selectTargets tenantId targets payee =>
      unfold ChecksStep.apply
      dsimp only
      split
      · next payoutIds last hrun =>
          split_ifs with hselection
          · refine .run tenantId _ fun r hr => ?_
            obtain rfl := Option.some.inj hr
            exact runSound_of_isSelection (hw tenantId _ hrun).counter hselection
          · exact .refl w
      · exact .refl w
  | commitRun tenantId =>
      unfold ChecksStep.apply
      dsimp only
      split
      · next r hrun =>
          split
          · next targets payee hselected =>
              rcases commitRun_eq w tenantId r targets payee with heq | heq <;> rw [heq]
              · exact .run tenantId none nofun
              · exact .written ((hw tenantId r hrun).assignable hselected)
          · exact .refl w
      · exact .refl w
  | abortRun tenantId => exact .run tenantId none nofun
  | markMailed tenantId payoutIds now => exact .payouts (carriedOver_markMailed ..)
  | settleBatch batchId now reference evidence => exact .payouts (carriedOver_settleBatch ..)
  | foreign payouts =>
      unfold ChecksStep.apply
      dsimp only
      split_ifs with hforeign
      · exact .payouts (carriedOver_of_isForeign hforeign)
      · exact .refl w

/-- A new business starts with the counter that it had without a row. -/
theorem counter_insert? {w : ChecksWorld} {tenantId : Uuid} {tenants : Table CheckTenant}
    (h : w.tenants.insert? ⟨tenantId, LAST_CHECK_NUMBER_DEFAULT⟩ = some tenants) :
    ({ w with tenants } : ChecksWorld).counter = w.counter := by
  funext tenantId'
  obtain ⟨hfree, hrows⟩ := Table.insert?_eq_some.mp h
  unfold ChecksWorld.counter
  dsimp only
  cases hfind : w.tenants.find? tenantId' with
  | some t => rw [Table.find?_insert? h hfind]
  | none =>
      cases hnew : tenants.find? tenantId' with
      | none => rfl
      | some t =>
          obtain ⟨hmem, hkey⟩ := Table.find?_eq_some.mp hnew
          rcases (Table.mem_insert? h).mp hmem with hold | rfl
          · exact absurd hkey (Table.find?_eq_none.mp hfind t hold)
          · rfl

theorem Numbered.effect {start : Uuid → Nat} {w w' : ChecksWorld} (hw : Numbered start w)
    (h : StepEffect w w') : Numbered start w' := by
  cases h with
  | payouts h => exact hw.of_carriedOver h
  | @tenants _ tenants h =>
      have hcounter := counter_insert? h
      refine ⟨?_, ?_, hw.distinct, hw.payable, hw.mailed⟩ <;> rw [hcounter]
      · exact hw.started
      · exact hw.consecutive
  | run tenantId r h => exact ⟨hw.started, hw.consecutive, hw.distinct, hw.payable, hw.mailed⟩
  | written h => exact h.numbered hw

theorem RunsSound.effect {w w' : ChecksWorld} (hw : RunsSound w) (h : StepEffect w w') :
    RunsSound w' := by
  have hupdate : ∀ {tenantId : Uuid} {r : Option CheckRun} {tenantId' : Uuid} {r' : CheckRun},
      Function.update w.runs tenantId r tenantId' = some r' →
        (tenantId' = tenantId ∧ r = some r') ∨ (tenantId' ≠ tenantId ∧ w.runs tenantId' = some r') := by
    intro tenantId r tenantId' r' hr
    by_cases heq : tenantId' = tenantId
    · rw [heq, Function.update_self] at hr
      exact .inl ⟨heq, hr⟩
    · rw [Function.update_of_ne heq] at hr
      exact .inr ⟨heq, hr⟩
  intro tenantId' r' hr'
  cases h with
  | payouts h => exact (hw tenantId' r' hr').of_carriedOver h
  | tenants h =>
      have hold := hw tenantId' r' hr'
      exact ⟨Table.find?_insert? h hold.counter, hold.selected⟩
  | run tenantId r h =>
      rcases hupdate hr' with ⟨rfl, hnew⟩ | ⟨-, hold⟩
      · have hsound := h r' hnew
        exact ⟨hsound.counter, hsound.selected⟩
      · have hsound := hw tenantId' r' hold
        exact ⟨hsound.counter, hsound.selected⟩
  | written h =>
      rcases hupdate hr' with ⟨-, hnone⟩ | ⟨hne, hold⟩
      · cases hnone
      · exact h.runSound hne (hw tenantId' r' hold)

/-! ## Whole runs -/

/-- Before the first check nothing is numbered, and no run is under way. -/
structure ChecksWorld.Initial (w : ChecksWorld) : Prop where
  unnumbered : ∀ p ∈ w.payouts, p.checkNumber = none
  unmailed : ∀ p ∈ w.payouts, p.mailedAt = none
  idle : ∀ tenantId, w.runs tenantId = none

theorem ChecksWorld.Initial.numbered {w : ChecksWorld} (h : w.Initial) : Numbered w.counter w where
  started _ := le_rfl
  consecutive tenantId n := by
    constructor
    · rintro ⟨p, hp, -, hnumber⟩
      rw [h.unnumbered p hp] at hnumber
      cases hnumber
    · rintro ⟨hlow, hhigh⟩
      omega
  distinct p hp q hq htenant hsome := by
    rw [h.unnumbered p hp] at hsome
    cases hsome
  payable p hp hsome := by
    rw [h.unnumbered p hp] at hsome
    cases hsome
  mailed p hp hsome := by
    rw [h.unmailed p hp] at hsome
    cases hsome

/-- A payout stays, its mailing mark too, and with a number its number and its snapshot. -/
structure Held (p p' : CheckPayout) : Prop where
  id : p'.id = p.id
  tenantId : p'.tenantId = p.tenantId
  numbered : p.checkNumber.isSome →
    p'.checkNumber = p.checkNumber ∧ p'.payeeSnapshot = p.payeeSnapshot
  mailed : p.mailedAt.isSome → p'.mailedAt.isSome

theorem Held.refl (p : CheckPayout) : Held p p :=
  ⟨rfl, rfl, fun _ => ⟨rfl, rfl⟩, fun h => h⟩

theorem Held.trans {p q r : CheckPayout} (h : Held p q) (h' : Held q r) : Held p r where
  id := h'.id.trans h.id
  tenantId := h'.tenantId.trans h.tenantId
  numbered hsome := by
    obtain ⟨hnumber, hsnapshot⟩ := h.numbered hsome
    obtain ⟨hnumber', hsnapshot'⟩ := h'.numbered (hnumber ▸ hsome)
    exact ⟨hnumber'.trans hnumber, hsnapshot'.trans hsnapshot⟩
  mailed hsome := h'.mailed (h.mailed hsome)

def HeldOver (w w' : ChecksWorld) : Prop := ∀ p ∈ w.payouts, ∃ p' ∈ w'.payouts, Held p p'

theorem StepEffect.heldOver {w w' : ChecksWorld} (h : StepEffect w w') : HeldOver w w' := by
  intro p hp
  cases h with
  | payouts h =>
      obtain ⟨p', hp', hc⟩ := h.kept p hp
      exact ⟨p', hp', hc.id, hc.tenantId, fun _ => ⟨hc.checkNumber, hc.payeeSnapshot⟩, hc.mailed⟩
  | tenants h => exact ⟨p, hp, .refl p⟩
  | run tenantId r h => exact ⟨p, hp, .refl p⟩
  | @written _ _ assigned h =>
      by_cases hfor : ∃ a ∈ assigned, a.payoutId = p.id
      · obtain ⟨a, ha, hid⟩ := hfor
        have hnone : p.checkNumber = none := (h.of_payoutId ha hp hid).2.1
        refine ⟨p.numbered a, (mem_writeChecks h.ids_nodup).mpr ⟨p, hp, .inr ⟨a, ha, hid, rfl⟩⟩,
          rfl, rfl, fun hsome => ?_, fun hsome => hsome⟩
        rw [hnone] at hsome
        cases hsome
      · push Not at hfor
        exact ⟨p, (mem_writeChecks h.ids_nodup).mpr ⟨p, hp, .inl ⟨rfl, hfor⟩⟩, .refl p⟩

theorem sound_run {start : Uuid → Nat} {w : ChecksWorld} (hn : Numbered start w)
    (hr : RunsSound w) (steps : List ChecksStep) :
    Numbered start (run ChecksStep.apply steps w) ∧ RunsSound (run ChecksStep.apply steps w) ∧
      HeldOver w (run ChecksStep.apply steps w) := by
  induction steps generalizing w with
  | nil => exact ⟨hn, hr, fun p hp => ⟨p, hp, .refl p⟩⟩
  | cons step steps ih =>
      have heffect : StepEffect w (step.apply w) := stepEffect_apply step hr
      obtain ⟨hn', hr', hheld⟩ := ih (hn.effect heffect) (hr.effect heffect)
      refine ⟨hn', hr', fun p hp => ?_⟩
      obtain ⟨q, hq, hpq⟩ := heffect.heldOver p hp
      obtain ⟨r, hr, hqr⟩ := hheld q hq
      exact ⟨r, hr, hpq.trans hqr⟩

/-! ## Printing -/

theorem checkNumber_of_toCheckDoc {p : CheckPayout} {doc : CheckDoc}
    (h : toCheckDoc p = .ok doc) : doc.checkNumber = p.checkNumber.getD 0 := by
  unfold toCheckDoc at h
  dsimp only at h
  split at h
  · cases h
  · split_ifs at h
    cases h
    rfl

/-- What is printed is numbered and not marked as mailed when it is read. -/
theorem mem_buildPdf {payouts : Table CheckPayout} {tenantId : Uuid} {payoutIds : List Uuid}
    {pdf : ChecksPdf} (h : buildPdf payouts tenantId payoutIds = .ok pdf) {doc : CheckDoc}
    (hdoc : doc ∈ pdf.checks) :
    ∃ p ∈ payouts, p.tenantId = tenantId ∧ p.mailedAt = none ∧
      p.checkNumber = some doc.checkNumber := by
  obtain ⟨docs, hdocs, hpdf⟩ := Transaction.bind_eq_ok.mp h
  have hchecks : pdf.checks = docs := by
    split at hpdf
    · cases hpdf
      rfl
    · cases hpdf
  rw [hchecks] at hdoc
  obtain ⟨p, hp, hprinted⟩ := Transaction.exists_of_mem_mapM hdocs hdoc
  obtain ⟨hmem, hprintable⟩ := List.mem_filter.mp ((List.perm_insertionSort ..).mem_iff.mp hp)
  simp only [isPrintable, Bool.and_eq_true, Option.isNone_iff_eq_none] at hprintable
  obtain ⟨⟨⟨hpaid, hsome⟩, hunmailed⟩, -⟩ := hprintable
  obtain ⟨n, hn⟩ := Option.isSome_iff_exists.mp hsome
  refine ⟨p, hmem, (Assignable.tenantId_of_isPaidCheck hpaid).1, hunmailed, ?_⟩
  rw [checkNumber_of_toCheckDoc hprinted, hn, Option.getD_some]

/-- The numbers of a business run on from its first counter without gap or repetition, each
on a payout by check that is paid, and for good; what was mailed is not printed any more. -/
theorem checkNumbers_hold (w₀ : ChecksWorld) (h₀ : w₀.Initial) (steps later : List ChecksStep) :
    let w := run ChecksStep.apply steps w₀
    let w' := run ChecksStep.apply later w
    Numbered w₀.counter w ∧
      (∀ p ∈ w.payouts, p.checkNumber.isSome → ∃ p' ∈ w'.payouts, p'.id = p.id ∧
        p'.checkNumber = p.checkNumber ∧ p'.payeeSnapshot = p.payeeSnapshot) ∧
      ∀ p ∈ w.payouts, p.mailedAt.isSome → ∀ payoutIds pdf,
        buildPdf w'.payouts p.tenantId payoutIds = .ok pdf →
          ∀ doc ∈ pdf.checks, p.checkNumber ≠ some doc.checkNumber := by
  intro w w'
  obtain ⟨hn, hr, -⟩ := sound_run h₀.numbered
    (fun tenantId r hr => by rw [h₀.idle] at hr; cases hr) steps
  obtain ⟨hn', -, hheld⟩ := sound_run hn hr later
  refine ⟨hn, fun p hp hsome => ?_, fun p hp hmailed payoutIds pdf hpdf doc hdoc hnumber => ?_⟩
  · obtain ⟨p', hp', h⟩ := hheld p hp
    exact ⟨p', hp', h.id, h.numbered hsome⟩
  · -- the payout that is printed under the number is the mailed one
    obtain ⟨p', hp', h⟩ := hheld p hp
    obtain ⟨q, hq, htenant, hunmailed, hq'⟩ := mem_buildPdf hpdf hdoc
    have hsome : p.checkNumber.isSome := hn.mailed p hp hmailed
    have hsame : p'.checkNumber = p.checkNumber := (h.numbered hsome).1
    have heq : p' = q := hn'.distinct p' hp' q hq (h.tenantId.trans htenant.symm)
      (hsame ▸ hsome) (by rw [hsame, hnumber, hq'])
    have hmark := h.mailed hmailed
    rw [heq, hunmailed] at hmark
    cases hmark

namespace Demo

def paidCheck (id : Uuid) (totalCents : Int) (paidAt : Instant) : CheckPayout where
  id := id
  tenantId := 1
  membershipId := id
  batchId := none
  totalCents := totalCents
  method := .check
  status := .paid
  period := "2026-06"
  activeKey := none
  processingStartedAt := none
  paidAt := some paidAt
  settledAt := none
  settlementReference := none
  settlementEvidence := none
  recipientReferralCode := none
  recipientFullName := none
  recipientEmail := none
  complianceSnapshot := none
  rejectedAt := none
  rejectionReason := none
  failedAt := none
  failureReason := none
  ref := none
  createdAt := 0
  checkNumber := none
  mailedAt := none
  payeeSnapshot := none

def payee : Payee where
  mailingName := some "Ada Long"
  mailingLine1 := some "1 Main Street"
  mailingLine2 := none
  mailingCity := some "Springfield"
  mailingState := some "IL"
  mailingPostal := some "62701"
  mailingCountry := none
  fullName := "Ada Long"

/-- Two paid payouts of one business, the later one first in the table. -/
def unprinted : ChecksWorld where
  tenants :=
    { rows := [⟨1, 1000⟩]
      keys_nodup := by decide
      no_clash := by decide }
  payouts :=
    { rows := [paidCheck 8 700 20, paidCheck 7 500 10]
      keys_nodup := by decide
      no_clash := by decide }
  runs := fun _ => none

theorem unprinted_initial : unprinted.Initial := ⟨by decide, by decide, fun _ => rfl⟩

/-- A second run asks for the lock while the first one has it. -/
def numbering : List ChecksStep :=
  [.lockTenant 1 [], .lockTenant 1 [8],
    .selectTargets 1 [paidCheck 7 500 10, paidCheck 8 700 20] (fun _ => payee),
    .markMailed 1 [7, 8] 30, .commitRun 1, .markMailed 1 [7] 40]

end Demo

theorem checkNumbers_hold_printed :
    ((run ChecksStep.apply Demo.numbering Demo.unprinted).payouts.rows.map fun p =>
        (p.id, p.checkNumber, p.mailedAt)) = [(8, some 1002, none), (7, some 1001, some 40)] ∧
      Numbered Demo.unprinted.counter (run ChecksStep.apply Demo.numbering Demo.unprinted) :=
  ⟨by decide,
    (checkNumbers_hold Demo.unprinted Demo.unprinted_initial Demo.numbering []).1⟩

end Refearn.Checks
