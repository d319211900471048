import Refearn.Billing.Invoices
/-!
# The life of an invoice

The unique index keeps one invoice for each tenant and period in every order of the statements.
What a call reads of an invoice says nothing about it at the update: the statuses are final, and
an invoice is paid once, as long as no other call moves the invoice on in between.
-/

namespace Refearn.Billing

open Support
open Platform (InvoiceStatus)

variable {db db' : BillingDb} {d : Draw} {point : Point}

/-! ## Reading -/

theorem invoiceOf_isSome {tenantId : Uuid} {period : String} :
    (db.invoiceOf tenantId period).isSome = true ↔
      ∃ i ∈ db.invoices, i.tenantId = tenantId ∧ i.period = period := by
  rw [BillingDb.invoiceOf, List.find?_isSome]
  simp only [Bool.and_eq_true, beq_iff_eq]
  exact Iff.rfl

theorem invoice_unique {i j : Invoice} (hi : i ∈ db.invoices) (hj : j ∈ db.invoices)
    (htenant : i.tenantId = j.tenantId) (hperiod : i.period = j.period) : i = j := by
  refine Table.eq_of_clash (fun r r' => ?_) hi hj ?_
  · exact congrArg₂ and BEq.comm BEq.comm
  · simp [clash, htenant, hperiod]

/-- What a statement may do to the invoices: add some, and move open ones on. -/
def Extends (db db' : BillingDb) : Prop :=
  ∀ i ∈ db.invoices, ∃ i' ∈ db'.invoices, i'.id = i.id ∧ i'.tenantId = i.tenantId ∧
    i'.period = i.period ∧ (i.status ≠ .opened → i'.status = i.status)

theorem Extends.refl (db : BillingDb) : Extends db db :=
  fun i hi => ⟨i, hi, rfl, rfl, rfl, fun _ => rfl⟩

theorem Extends.of_invoices_eq (h : db'.invoices = db.invoices) : Extends db db' := by
  intro i hi
  exact ⟨i, h ▸ hi, rfl, rfl, rfl, fun _ => rfl⟩

theorem Extends.keepsFinal (h : Extends db db') : KeepsFinal db db' := by
  intro i hi hstatus
  obtain ⟨i', hi', hid, -, -, hkept⟩ := h i hi
  exact ⟨i', hi', hid, hkept hstatus⟩

theorem KeepsFinal.refl (db : BillingDb) : KeepsFinal db db := (Extends.refl db).keepsFinal

theorem KeepsFinal.trans {db'' : BillingDb} (h : KeepsFinal db db') (h' : KeepsFinal db' db'') :
    KeepsFinal db db'' := by
  intro i hi hstatus
  obtain ⟨j, hj, hid, hkept⟩ := h i hi hstatus
  obtain ⟨k, hk, hid', hkept'⟩ := h' j hj (hkept ▸ hstatus)
  exact ⟨k, hk, hid'.trans hid, hkept'.trans hkept⟩

theorem Extends.isInvoiced (h : Extends db db') {period : String} {c : TenantBilling}
    (hc : db.isInvoiced period c) : db'.isInvoiced period c := by
  obtain ⟨i, hi, htenant, hperiod⟩ := invoiceOf_isSome.mp hc
  obtain ⟨i', hi', -, htenant', hperiod', -⟩ := h i hi
  exact invoiceOf_isSome.mpr ⟨i', hi', htenant'.trans htenant, hperiod'.trans hperiod⟩

def HasStatus (db : BillingDb) (id : Uuid) (status : InvoiceStatus) : Prop :=
  ∃ i ∈ db.invoices, i.id = id ∧ i.status = status

theorem Extends.hasStatus (h : Extends db db') {id : Uuid} {status : InvoiceStatus}
    (hs : HasStatus db id status) (hne : status ≠ .opened) : HasStatus db' id status := by
  obtain ⟨i, hi, rfl, rfl⟩ := hs
  exact h.keepsFinal i hi hne

/-! ## Writing -/

theorem extends_insert {i : Invoice} {invoices : Table Invoice}
    (h : db.invoices.insert? i = some invoices) : Extends db { db with invoices } :=
  fun r hr => ⟨r, (Table.mem_insert? h).mpr (.inl hr), rfl, rfl, rfl, fun _ => rfl⟩

theorem extends_update {id : Uuid} {f : Invoice → Invoice} (hf : KeepsIndexes f)
    (hcolumns : ∀ i, (f i).tenantId = i.tenantId ∧ (f i).period = i.period)
    (hstatus : ∀ r ∈ db.invoices, r.id = id → r.status ≠ .opened → (f r).status = r.status) :
    Extends db { db with invoices := db.invoices.updateKey id f hf } := by
  intro r hr
  refine ⟨if key r = id then f r else r, ?_, ?_⟩
  · rw [Table.mem_def, Table.rows_updateKey]
    exact List.mem_map_of_mem hr
  · by_cases hid : key r = id
    · rw [if_pos hid]
      exact ⟨hf.key_eq r, (hcolumns r).1, (hcolumns r).2, hstatus r hr hid⟩
    · rw [if_neg hid]
      exact ⟨rfl, rfl, rfl, fun _ => rfl⟩

theorem hasStatus_update {id : Uuid} {r : Invoice} {f : Invoice → Invoice} (hf : KeepsIndexes f)
    (hr : db.invoices.find? id = some r) :
    HasStatus { db with invoices := db.invoices.updateKey id f hf } id (f r).status := by
  obtain ⟨hmem, hid⟩ := Table.find?_eq_some.mp hr
  refine ⟨f r, ?_, (hf.key_eq r).trans hid, rfl⟩
  rw [Table.mem_def, Table.rows_updateKey]
  exact List.mem_map.mpr ⟨r, hmem, if_pos hid⟩

/-! ## Calls -/

/-- What a call has brought about so far. -/
def Point.Sound (db : BillingDb) : Point → Prop
  | .periodCheck b c rest => ∀ c' ∈ b.configs, c' = c ∨ c' ∈ rest ∨ db.isInvoiced b.period c'
  | .periodInsert b c rest => ∀ c' ∈ b.configs, c' = c ∨ c' ∈ rest ∨ db.isInvoiced b.period c'
  | .periodAudit b _ _ rest => ∀ c' ∈ b.configs, c' ∈ rest ∨ db.isInvoiced b.period c'
  | .periodEnded b failedAt => ∀ c' ∈ b.configs, failedAt = some c' ∨ db.isInvoiced b.period c'
  | .payAudit _ inv _ => HasStatus db inv.id .paid
  | .markedPaid id => HasStatus db id .paid
  | .voidAudit _ inv => HasStatus db inv.id .void
  | .markedVoid id => HasStatus db id .void
  | _ => True

/-- The invoice that a call has paid. -/
def Point.paidId : Point → Option Uuid
  | .payAudit _ inv _ => some inv.id
  | .markedPaid id => some id
  | _ => none

theorem Point.Sound.extends (h : point.Sound db) (hext : Extends db db') : point.Sound db' := by
  cases point with
  | periodCheck => exact fun c' hc' => (h c' hc').imp_right (.imp_right hext.isInvoiced)
  | periodInsert => exact fun c' hc' => (h c' hc').imp_right (.imp_right hext.isInvoiced)
  | periodAudit => exact fun c' hc' => (h c' hc').imp_right hext.isInvoiced
  | periodEnded => exact fun c' hc' => (h c' hc').imp_right hext.isInvoiced
  | payAudit => exact hext.hasStatus h nofun
  | markedPaid => exact hext.hasStatus h nofun
  | voidAudit => exact hext.hasStatus h nofun
  | markedVoid => exact hext.hasStatus h nofun
  | _ => trivial

theorem sound_start (db : BillingDb) (r : Request) : r.start.Sound db ∧ r.start.paidId = none := by
  cases r <;> simp only [Request.start] <;> (try split_ifs) <;> exact ⟨trivial, rfl⟩

theorem sound_next {b : PeriodRun} {rest : List TenantBilling}
    (h : ∀ c' ∈ b.configs, c' ∈ rest ∨ db.isInvoiced b.period c') : (b.next rest).Sound db := by
  cases rest with
  | nil => exact fun c' hc' => .inr ((h c' hc').resolve_left List.not_mem_nil)
  | cons c rest =>
      intro c' hc'
      rcases h c' hc' with hrest | hinvoiced
      · exact (List.mem_cons.mp hrest).imp_right .inl
      · exact .inr (.inr hinvoiced)

theorem paidId_next (b : PeriodRun) (rest : List TenantBilling) : (b.next rest).paidId = none := by
  cases rest <;> rfl

/-- A loop that ends at a tenant leaves no other uninvoiced. -/
theorem sound_ended {b : PeriodRun} {c : TenantBilling} {rest : List TenantBilling}
    (h : ∀ c' ∈ b.configs, c' = c ∨ c' ∈ rest ∨ db.isInvoiced b.period c')
    (hrest : ∀ c' ∈ rest, db.isInvoiced b.period c') :
    (Point.periodEnded b (some c)).Sound db := by
  intro c' hc'
  rcases h c' hc' with rfl | hmem | hinvoiced
  · exact .inl rfl
  · exact .inr (hrest c' hmem)
  · exact .inr hinvoiced

theorem sound_fail (h : point.Sound db) (hundisturbed : point.Undisturbed d db)
    (hfails : d.fails = true) : point.fail.Sound db := by
  have hne : d.fails ≠ false := fun h => Bool.false_ne_true (h.symm.trans hfails)
  cases point with
  | periodCheck => exact sound_ended h (hundisturbed.resolve_left hne)
  | periodInsert => exact sound_ended h (hundisturbed.resolve_left fun h => hne h.1)
  | periodAudit =>
      exact sound_ended (fun c' hc' => .inr (h c' hc')) (hundisturbed.resolve_left hne)
  | issued => exact h
  | periodEnded => exact h
  | markedPaid => exact h
  | markedVoid => exact h
  | _ => trivial

theorem paidId_fail {id : Uuid} (h : point.fail.paidId = some id) : point.paidId = some id := by
  cases point with
  | markedPaid => exact h
  | _ => cases h

theorem hasStatus_of_paidId (h : point.Sound db) {id : Uuid} (hid : point.paidId = some id) :
    HasStatus db id .paid := by
  cases point with
  | payAudit => exact Option.some.inj hid ▸ h
  | markedPaid => exact Option.some.inj hid ▸ h
  | _ => cases hid

/-! ## Statements -/

/-- What a statement brings about: it keeps what is final, its call stays sound, and what it pays
was open. -/
structure Kept (db : BillingDb) (point : Point) (after : BillingDb × Point) : Prop where
  invoices : Extends db after.1
  sound : after.2.Sound after.1
  paid (id : Uuid) (h : after.2.paidId = some id) : point.paidId = some id ∨
    ∀ r ∈ db.invoices, r.id = id → r.status = .opened

theorem Kept.of_paidId_none {after : Point} (hsound : after.Sound db)
    (hpaid : after.paidId = none) : Kept db point (db, after) :=
  ⟨.refl db, hsound, fun id h => by rw [hpaid] at h; cases h⟩

/-- A statement that writes no invoice. -/
theorem Kept.of_invoices_eq {after : Point} (h : db'.invoices = db.invoices)
    (hsound : after.Sound db) (hpaid : ∀ id, after.paidId = some id → point.paidId = some id) :
    Kept db point (db', after) :=
  ⟨.of_invoices_eq h, hsound.extends (.of_invoices_eq h), fun id hid => .inl (hpaid id hid)⟩

/-- A statement that writes no invoice and ends no payment. -/
theorem Kept.of_unpaid {after : Point} (h : db'.invoices = db.invoices)
    (hsound : after.Sound db) (hpaid : after.paidId = none) : Kept db point (db', after) :=
  .of_invoices_eq h hsound fun _ hid => absurd (hpaid.symm.trans hid) (Option.some_ne_none _).symm

theorem exists_insert_invoiceFor {c : TenantBilling} {period : String} {newId : Uuid}
    (hnone : db.invoiceOf c.tenantId period = none) (hid : db.invoices.find? newId = none)
    (now : Instant) (dueInDays : Int) :
    ∃ invoices, db.invoices.insert? (invoiceFor c period newId now dueInDays) = some invoices := by
  refine Table.exists_insert? fun r hr => ⟨Table.find?_eq_none.mp hid r hr, ?_⟩
  refine Bool.eq_false_iff.mpr fun hclash => ?_
  have hsame := Bool.and_eq_true_iff.mp hclash
  have hsome := invoiceOf_isSome.mpr ⟨r, hr, beq_iff_eq.mp hsame.1, beq_iff_eq.mp hsame.2⟩
  rw [show (invoiceFor c period newId now dueInDays).tenantId = c.tenantId from rfl,
    show (invoiceFor c period newId now dueInDays).period = period from rfl, hnone] at hsome
  cases hsome

theorem kept_periodInsert {b : PeriodRun} {c : TenantBilling} {rest : List TenantBilling}
    (hsound : (Point.periodInsert b c rest).Sound db)
    (hundisturbed : (Point.periodInsert b c rest).Undisturbed d db) :
    Kept db (.periodInsert b c rest) ((Point.periodInsert b c rest).run d db) := by
  simp only [Point.run]
  cases hinsert : db.invoices.insert? (invoiceFor c b.period d.newId d.now b.dueInDays) with
  | none =>
      refine .of_paidId_none ?_ rfl
      rcases hundisturbed with ⟨-, hnone, hid⟩ | hrest
      · obtain ⟨invoices, h⟩ := exists_insert_invoiceFor hnone hid d.now b.dueInDays
        rw [hinsert] at h
        cases h
      · exact sound_ended hsound hrest
  | some invoices =>
      have hext := extends_insert hinsert
      refine ⟨hext, fun c' hc' => ?_, fun id h => absurd h (Option.some_ne_none id).symm⟩
      rcases hsound c' hc' with rfl | hrest | hinvoiced
      · exact .inr (invoiceOf_isSome.mpr ⟨_, (Table.mem_insert? hinsert).mpr (.inr rfl), rfl, rfl⟩)
      · exact .inl hrest
      · exact .inr (hext.isInvoiced hinvoiced)

theorem kept_payUpdate {actorUserId : Uuid} {inv : Invoice} {note : Option String}
    (hopen : ∀ r ∈ db.invoices, r.id = inv.id → r.status = .opened) :
    Kept db (.payUpdate actorUserId inv note) ((Point.payUpdate actorUserId inv note).run d db) := by
  simp only [Point.run]
  cases hfind : db.invoices.find? inv.id with
  | none => exact .of_paidId_none trivial rfl
  | some r =>
      exact ⟨extends_update _ (fun _ => ⟨rfl, rfl⟩) fun r hr hid hne => absurd (hopen r hr hid) hne,
        hasStatus_update _ hfind, fun id h => .inr (Option.some.inj h ▸ hopen)⟩

theorem kept_voidUpdate {actorUserId : Uuid} {inv : Invoice}
    (hunpaid : ∀ r ∈ db.invoices, r.id = inv.id → r.status ≠ .paid) :
    Kept db (.voidUpdate actorUserId inv) ((Point.voidUpdate actorUserId inv).run d db) := by
  simp only [Point.run]
  cases hfind : db.invoices.find? inv.id with
  | none => exact .of_paidId_none trivial rfl
  | some r =>
      refine ⟨extends_update _ (fun _ => ⟨rfl, rfl⟩) fun r hr hid hne => ?_,
        hasStatus_update _ hfind, fun id h => absurd h (Option.some_ne_none id).symm⟩
      cases hstatus : r.status with
      | opened => exact absurd hstatus hne
      | paid => exact absurd hstatus (hunpaid r hr hid)
      | void => rfl

theorem kept_run (hsound : point.Sound db) (hundisturbed : point.Undisturbed d db)
    (hfails : d.fails = false) : Kept db point (point.run d db) := by
  have hne : d.fails ≠ true := fun h => Bool.false_ne_true (hfails.symm.trans h)
  cases point with
  | oneConfig =>
      simp only [Point.run]
      split
      · exact .of_paidId_none trivial rfl
      · split_ifs <;> exact .of_paidId_none trivial rfl
  | oneCheck =>
      simp only [Point.run]
      split_ifs <;> exact .of_paidId_none trivial rfl
  | oneInsert =>
      simp only [Point.run]
      split
      · exact .of_paidId_none trivial rfl
      · next hinsert => exact ⟨extends_insert hinsert, trivial, fun id h => absurd h (Option.some_ne_none id).symm⟩
  | oneAudit => exact .of_unpaid rfl trivial rfl
  | periodConfigs =>
      simp only [Point.run]
      split_ifs
      · exact .of_paidId_none (sound_next fun _ => .inl) (paidId_next _ _)
      · exact .of_paidId_none trivial rfl
  | periodCheck b c rest =>
      simp only [Point.run]
      split_ifs with hinvoiced
      · refine .of_paidId_none (sound_next fun c' hc' => ?_) (paidId_next _ _)
        rcases hsound c' hc' with rfl | h
        · exact .inr hinvoiced
        · exact h
      · exact .of_paidId_none hsound rfl
  | periodInsert => exact kept_periodInsert hsound hundisturbed
  | periodAudit b c i rest =>
      exact .of_invoices_eq rfl (sound_next hsound) fun id h => by
        rw [paidId_next] at h
        cases h
  | payRead =>
      simp only [Point.run]
      split
      · exact .of_paidId_none trivial rfl
      · split_ifs <;> exact .of_paidId_none trivial rfl
  | payUpdate => exact kept_payUpdate (hundisturbed.resolve_left hne)
  | payAudit => exact .of_invoices_eq rfl hsound fun _ h => h
  | voidRead =>
      simp only [Point.run]
      split
      · exact .of_paidId_none trivial rfl
      · split_ifs <;> exact .of_paidId_none trivial rfl
  | voidUpdate => exact kept_voidUpdate (hundisturbed.resolve_left hne)
  | voidAudit => exact .of_unpaid rfl hsound rfl
  | issued => exact .of_unpaid rfl trivial rfl
  | periodEnded => exact .of_unpaid rfl hsound rfl
  | markedPaid => exact .of_invoices_eq rfl hsound fun _ h => h
  | markedVoid => exact .of_unpaid rfl hsound rfl
  | failed => exact .of_unpaid rfl trivial rfl

/-! ## Runs -/

/-- Every call is sound, and no two have paid one invoice. -/
structure Sound (w : BillingWorld) : Prop where
  calls (point : Point) (h : point ∈ w.calls) : point.Sound w.db
  paidOnce (m n : Nat) (p q : Point) (id : Uuid) (hm : w.calls[m]? = some p)
    (hn : w.calls[n]? = some q) (hp : p.paidId = some id) (hq : q.paidId = some id) : m = n

theorem Sound.configure {w : BillingWorld} (h : Sound w) (configs : Table TenantBilling) :
    Sound { w with db := { w.db with configs } } :=
  ⟨fun point hpoint => (h.calls point hpoint).extends (.of_invoices_eq rfl), h.paidOnce⟩

theorem Sound.call {w : BillingWorld} (h : Sound w) (r : Request) :
    Sound { w with calls := w.calls ++ [r.start] } := by
  have hstart : ∀ {m : Nat} {p : Point} {id : Uuid}, (w.calls ++ [r.start])[m]? = some p →
      p.paidId = some id → w.calls[m]? = some p := by
    intro m p id hm hp
    rw [List.getElem?_append] at hm
    split_ifs at hm
    · exact hm
    · obtain rfl := List.mem_singleton.mp (List.mem_of_getElem? hm)
      rw [(sound_start w.db r).2] at hp
      cases hp
  refine ⟨fun point hpoint => ?_, fun m n p q id hm hn hp hq =>
    h.paidOnce m n p q id (hstart hm hp) (hstart hn hq) hp hq⟩
  rcases List.mem_append.mp hpoint with hpoint | hpoint
  · exact h.calls point hpoint
  · exact List.mem_singleton.mp hpoint ▸ (sound_start w.db r).1

/-- A statement of one call, on what the others have brought about. -/
theorem Sound.statement {w : BillingWorld} (h : Sound w) {i : Nat} {after : BillingDb × Point}
    (hpoint : w.calls[i]? = some point) (hkept : Kept w.db point after) :
    Sound ⟨after.1, w.calls.set i after.2⟩ := by
  have hpaid : ∀ {m : Nat} {p : Point}, m ≠ i →
      (w.calls.set i after.2)[m]? = some p → w.calls[m]? = some p := by
    intro m p hm hget
    rwa [List.getElem?_set_ne (Ne.symm hm)] at hget
  -- no other call has paid what this one pays
  have hother : ∀ {m : Nat} {p : Point} {id : Uuid}, m ≠ i → w.calls[m]? = some p →
      p.paidId = some id → after.2.paidId ≠ some id := by
    intro m p id hm hp hid hafter
    rcases hkept.paid id hafter with hbefore | hopen
    · exact hm (h.paidOnce m i p point id hp hpoint hid hbefore)
    · obtain ⟨r, hr, hrid, hstatus⟩ :=
        hasStatus_of_paidId (h.calls p (List.mem_of_getElem? hp)) hid
      rw [hopen r hr hrid] at hstatus
      cases hstatus
  have hself : ∀ {p : Point}, (w.calls.set i after.2)[i]? = some p → p = after.2 := by
    intro p hget
    obtain ⟨hlt, -⟩ := List.getElem?_eq_some_iff.mp hpoint
    rw [List.getElem?_set_self hlt] at hget
    exact (Option.some.inj hget).symm
  refine ⟨fun p hp => ?_, fun m n p q id hm hn hp hq => ?_⟩
  · rcases List.mem_or_eq_of_mem_set hp with hold | rfl
    · exact (h.calls p hold).extends hkept.invoices
    · exact hkept.sound
  · by_cases hmi : m = i
    · by_cases hni : n = i
      · exact hmi.trans hni.symm
      · subst hmi
        obtain rfl := hself hm
        exact absurd hp (hother hni (hpaid hni hn) hq)
    · by_cases hni : n = i
      · subst hni
        obtain rfl := hself hn
        exact absurd hq (hother hmi (hpaid hmi hm) hp)
      · exact h.paidOnce m n p q id (hpaid hmi hm) (hpaid hni hn) hp hq

theorem step_kept (step : BillingStep) (w : BillingWorld) (h : Undisturbed step w)
    (hw : Sound w) : Sound (step.apply w) ∧ KeepsFinal w.db (step.apply w).db := by
  cases step with
  | call r => exact ⟨hw.call r, .refl w.db⟩
  | configure configs =>
      exact ⟨hw.configure configs, (Extends.of_invoices_eq rfl).keepsFinal⟩
  | statement i d =>
      simp only [BillingStep.apply]
      cases hpoint : w.calls[i]? with
      | none => exact ⟨hw, .refl w.db⟩
      | some point =>
          have hsound := hw.calls point (List.mem_of_getElem? hpoint)
          have hundisturbed := h point hpoint
          cases hfails : d.fails with
          | true =>
              simp only [if_true]
              have hkept : Kept w.db point (w.db, point.fail) :=
                .of_invoices_eq rfl (sound_fail hsound hundisturbed hfails) fun _ => paidId_fail
              exact ⟨hw.statement hpoint hkept, .refl w.db⟩
          | false =>
              simp only [Bool.false_eq_true, if_false]
              have hkept := kept_run hsound hundisturbed hfails
              exact ⟨hw.statement hpoint hkept, hkept.invoices.keepsFinal⟩

theorem Sound.lifecycle {w : BillingWorld} (h : Sound w) : Lifecycle w where
  onePerPeriod _ _ hi hj htenant hperiod := invoice_unique hi hj htenant hperiod
  neverVoid _ hcall := h.calls _ hcall
  neverPaid _ hcall := h.calls _ hcall
  paidOnce id m n hm hn := h.paidOnce m n _ _ id hm hn rfl rfl
  othersInvoiced _ _ hcall c hc hne := (h.calls _ hcall c hc).resolve_left hne

/-- In every run in which no call moves an invoice on between another's read and its update, and
no tenant fails while a loop has others to invoice, the invoices keep their promises. -/
theorem invoices_lifecycle (w : BillingWorld) (hcalls : w.calls = []) (steps : List BillingStep)
    (hsteps : Throughout BillingStep.apply Undisturbed steps w) :
    Lifecycle (run BillingStep.apply steps w) ∧
      ∀ before after, steps = before ++ after →
        KeepsFinal (run BillingStep.apply before w).db (run BillingStep.apply steps w).db := by
  have hinit : Sound w :=
    ⟨fun point hpoint => absurd (hcalls ▸ hpoint) List.not_mem_nil,
      fun m n p q id hm => absurd (hcalls ▸ List.mem_of_getElem? hm) List.not_mem_nil⟩
  have hstep : ∀ step w, Undisturbed step w → Sound w → Sound (step.apply w) :=
    fun step w h hw => (step_kept step w h hw).1
  refine ⟨(hsteps.invariant hstep hinit).lifecycle, ?_⟩
  rintro before after rfl
  rw [run_append]
  have hbefore := hsteps.left.invariant hstep hinit
  refine (hsteps.right.invariant (I := fun v =>
    Sound v ∧ KeepsFinal (run BillingStep.apply before w).db v.db) ?_ ⟨hbefore, .refl _⟩).2
  rintro step v hallowed ⟨hv, hkept⟩
  obtain ⟨hv', hkept'⟩ := step_kept step v hallowed hv
  exact ⟨hv', hkept.trans hkept'⟩

namespace Demo

def invoice : Invoice := ⟨7, 1, "2026-07", 5000, "USD", .opened, 0, none, none, none⟩

def world : BillingWorld := ⟨⟨.empty, ⟨[invoice], by decide, by decide⟩, []⟩, []⟩

def next (i : Nat) : BillingStep := .statement i ⟨false, 0, 0, []⟩

/-- One call marks the invoice as paid. -/
def payment : List BillingStep := [.call (.markPaid 9 7 none), next 0, next 0, next 0]

/-- Another one voids it that has read it while it was open. -/
def overtaken : List BillingStep :=
  [.call (.markPaid 9 7 none), .call (.voidInvoice 9 7), next 0, next 1, next 0, next 0, next 1,
    next 1]

end Demo

theorem invoices_lifecycle_payment :
    Lifecycle (run BillingStep.apply Demo.payment Demo.world) ∧
      ∀ before after, Demo.payment = before ++ after →
        KeepsFinal (run BillingStep.apply before Demo.world).db
          (run BillingStep.apply Demo.payment Demo.world).db := by
  refine invoices_lifecycle Demo.world rfl Demo.payment ⟨trivial, ?_, ?_, ?_, trivial⟩
  · intro point hpoint
    obtain rfl := Option.some.inj hpoint
    trivial
  · intro point hpoint
    obtain rfl := Option.some.inj hpoint
    exact .inr (by decide)
  · intro point hpoint
    obtain rfl := Option.some.inj hpoint
    trivial

/-- The invoice is void in the end, although the call that paid it has succeeded. -/
theorem not_lifecycle :
    ¬∀ (w : BillingWorld), w.calls = [] → ∀ steps : List BillingStep,
      Lifecycle (run BillingStep.apply steps w) := by
  intro h
  have hpaid : Point.markedPaid 7 ∈ (run BillingStep.apply Demo.overtaken Demo.world).calls := by
    decide
  have hvoid : ∀ i ∈ (run BillingStep.apply Demo.overtaken Demo.world).db.invoices,
      i.status ≠ .paid := by
    decide
  obtain ⟨i, hi, -, hstatus⟩ := (h Demo.world rfl Demo.overtaken).neverVoid 7 hpaid
  exact hvoid i hi hstatus

end Refearn.Billing
