import Refearn.Platform.Platform
import Refearn.Support.Runs
/-!
# Invoices of the platform

`BillingService.issueOne`, `issuePeriod`, `markPaid` and `voidInvoice`. Each call runs its
statements one after another outside of any transaction, so the statements of any number of calls
come in any order. A statement may fail, and ends its call.
-/

namespace Refearn.Billing

open Support
open Platform (InvoiceStatus)

/-! ## Rows -/

structure TenantBilling where
  tenantId : Uuid
  monthlyFeeCents : Int
  currency : String
  active : Bool
  deriving DecidableEq

instance : Keyed TenantBilling Uuid := { key := TenantBilling.tenantId }

structure Invoice where
  id : Uuid
  tenantId : Uuid
  period : String
  amountCents : Int
  currency : String
  status : InvoiceStatus
  dueAt : Instant
  paidAt : Option Instant
  paidNote : Option String
  markedByUserId : Option Uuid
  deriving DecidableEq

/-- `@@unique([tenantId, period])` -/
instance : Keyed Invoice Uuid where
  key := Invoice.id
  clash i i' := i.tenantId == i'.tenantId && i.period == i'.period

inductive BillingAudit
  | invoiceIssued (invoiceId : Uuid) (period : String) (amountCents : Int) (bulk : Bool)
  | invoicePaid (invoiceId : Uuid) (period : String) (amountCents : Int) (note : Option String)
  | invoiceVoid (invoiceId : Uuid) (period : String)
  deriving DecidableEq

structure BillingDb where
  configs : Table TenantBilling
  invoices : Table Invoice
  /-- actor, tenant and the action with what it is about -/
  audits : List (Uuid × Uuid × BillingAudit)

inductive BillingError
  | badRequest (message : String)
  | conflict (message : String)
  | notFound (message : String)
  /-- a statement that the database refuses -/
  | database
  deriving DecidableEq

/-- `PERIOD_RE` -/
def isPeriod (period : String) : Bool :=
  match period.toList with
  | [a, b, c, d, dash, m, n] =>
      [a, b, c, d].all Char.isDigit && dash == '-' &&
        ((m == '0' && n.isDigit && n != '0') || (m == '1' && ['0', '1', '2'].contains n))
  | _ => false

def BillingDb.invoiceOf (db : BillingDb) (tenantId : Uuid) (period : String) : Option Invoice :=
  db.invoices.rows.find? fun i => i.tenantId == tenantId && i.period == period

def Invoice.paid (actorUserId : Uuid) (note : Option String) (now : Instant) (i : Invoice) :
    Invoice :=
  { i with
    status := .paid
    paidAt := some now
    paidNote := note
    markedByUserId := some actorUserId }

def Invoice.voided (i : Invoice) : Invoice := { i with status := .void }

theorem paid_keepsIndexes (actorUserId : Uuid) (note : Option String) (now : Instant) :
    KeepsIndexes (Invoice.paid actorUserId note now) :=
  ⟨fun _ => rfl, fun _ _ h => h, fun _ _ h => h⟩

theorem voided_keepsIndexes : KeepsIndexes Invoice.voided :=
  ⟨fun _ => rfl, fun _ _ h => h, fun _ _ h => h⟩

def invoiceFor (c : TenantBilling) (period : String) (newId : Uuid) (now : Instant)
    (dueInDays : Int) : Invoice where
  id := newId
  tenantId := c.tenantId
  period := period
  amountCents := c.monthlyFeeCents
  currency := c.currency
  status := .opened
  dueAt := now + dueInDays * DAY_MS
  paidAt := none
  paidNote := none
  markedByUserId := none

/-! ## Calls -/

inductive Request
  | issueOne (actorUserId tenantId : Uuid) (period : String) (dueInDays : Int)
  | issuePeriod (actorUserId : Uuid) (period : String) (dueInDays : Int)
  | markPaid (actorUserId invoiceId : Uuid) (note : Option String)
  | voidInvoice (actorUserId invoiceId : Uuid)

/-- What `issuePeriod` carries through its loop. -/
structure PeriodRun where
  actorUserId : Uuid
  period : String
  dueInDays : Int
  /-- the configurations that it has read -/
  configs : List TenantBilling
  created : Nat
  skipped : Nat
  deriving DecidableEq

/-- Where a call stands: the statement that it runs next, or how it has ended. -/
inductive Point
  | oneConfig (actorUserId tenantId : Uuid) (period : String) (dueInDays : Int)
  | oneCheck (actorUserId : Uuid) (c : TenantBilling) (period : String) (dueInDays : Int)
  | oneInsert (actorUserId : Uuid) (c : TenantBilling) (period : String) (dueInDays : Int)
  | oneAudit (actorUserId : Uuid) (invoice : Invoice)
  | issued (invoice : Invoice)
  | periodConfigs (actorUserId : Uuid) (period : String) (dueInDays : Int)
  | periodCheck (b : PeriodRun) (c : TenantBilling) (rest : List TenantBilling)
  | periodInsert (b : PeriodRun) (c : TenantBilling) (rest : List TenantBilling)
  | periodAudit (b : PeriodRun) (c : TenantBilling) (invoice : Invoice)
      (rest : List TenantBilling)
  /-- at the end of its list, or at the tenant at which it failed -/
  | periodEnded (b : PeriodRun) (failedAt : Option TenantBilling)
  | payRead (actorUserId invoiceId : Uuid) (note : Option String)
  | payUpdate (actorUserId : Uuid) (inv : Invoice) (note : Option String)
  | payAudit (actorUserId : Uuid) (inv : Invoice) (note : Option String)
  | markedPaid (invoiceId : Uuid)
  | voidRead (actorUserId invoiceId : Uuid)
  | voidUpdate (actorUserId : Uuid) (inv : Invoice)
  | voidAudit (actorUserId : Uuid) (inv : Invoice)
  | markedVoid (invoiceId : Uuid)
  | failed (e : BillingError)
  deriving DecidableEq

def BAD_PERIOD : BillingError := .badRequest "gecersiz donem (YYYY-MM bekleniyor)"

def Request.start : Request → Point
  | .issueOne actorUserId tenantId period dueInDays =>
      if isPeriod period then .oneConfig actorUserId tenantId period dueInDays
      else .failed BAD_PERIOD
  | .issuePeriod actorUserId period dueInDays =>
      if isPeriod period then .periodConfigs actorUserId period dueInDays
      else .failed BAD_PERIOD
  | .markPaid actorUserId invoiceId note => .payRead actorUserId invoiceId note
  | .voidInvoice actorUserId invoiceId => .voidRead actorUserId invoiceId

/-- The next round of the loop, or its end. -/
def PeriodRun.next (b : PeriodRun) : List TenantBilling → Point
  | [] => .periodEnded b none
  | c :: rest => .periodCheck b c rest

/-- How a call ends whose next statement fails; one that has ended stays as it is. -/
def Point.fail : Point → Point
  | .issued invoice => .issued invoice
  | .periodCheck b c _ => .periodEnded b (some c)
  | .periodInsert b c _ => .periodEnded b (some c)
  | .periodAudit b c _ _ => .periodEnded b (some c)
  | .periodEnded b failedAt => .periodEnded b failedAt
  | .markedPaid invoiceId => .markedPaid invoiceId
  | .markedVoid invoiceId => .markedVoid invoiceId
  | .failed e => .failed e
  | _ => .failed .database

/-- What a statement takes from outside. -/
structure Draw where
  fails : Bool
  newId : Uuid
  now : Instant
  /-- the order in which `findMany` answers -/
  configs : List TenantBilling

def isBillable (c : TenantBilling) : Bool := c.active && decide (0 < c.monthlyFeeCents)

def BillingDb.audit (db : BillingDb) (actorUserId tenantId : Uuid) (a : BillingAudit) :
    BillingDb :=
  { db with audits := db.audits ++ [(actorUserId, tenantId, a)] }

/-- One statement of a call, and the code up to the next one. -/
def Point.run (d : Draw) (db : BillingDb) : Point → BillingDb × Point
  | .oneConfig actorUserId tenantId period dueInDays =>
      match db.configs.find? tenantId with
      | none => (db, .failed (.badRequest "bu sirket icin aktif billing yapilandirmasi yok"))
      | some c =>
          if c.active = false then
            (db, .failed (.badRequest "bu sirket icin aktif billing yapilandirmasi yok"))
          else if c.monthlyFeeCents ≤ 0 then
            (db, .failed (.badRequest "aylik ucret 0 — faturalanacak tutar yok"))
          else (db, .oneCheck actorUserId c period dueInDays)
  | .oneCheck actorUserId c period dueInDays =>
      if (db.invoiceOf c.tenantId period).isSome then
        (db, .failed (.conflict (period ++ " donemi icin fatura zaten var")))
      else (db, .oneInsert actorUserId c period dueInDays)
  | .oneInsert actorUserId c period dueInDays =>
      let invoice := invoiceFor c period d.newId d.now dueInDays
      match db.invoices.insert? invoice with
      | none => (db, .failed .database)
      | some invoices => ({ db with invoices }, .oneAudit actorUserId invoice)
  | .oneAudit actorUserId i =>
      (db.audit actorUserId i.tenantId (.invoiceIssued i.id i.period i.amountCents false),
        .issued i)
  | .periodConfigs actorUserId period dueInDays =>
      if d.configs.Perm (db.configs.rows.filter isBillable) then
        (db, PeriodRun.next ⟨actorUserId, period, dueInDays, d.configs, 0, 0⟩ d.configs)
      else (db, .periodConfigs actorUserId period dueInDays)
  | .periodCheck b c rest =>
      if (db.invoiceOf c.tenantId b.period).isSome then
        (db, PeriodRun.next { b with skipped := b.skipped + 1 } rest)
      else (db, .periodInsert b c rest)
  | .periodInsert b c rest =>
      let invoice := invoiceFor c b.period d.newId d.now b.dueInDays
      match db.invoices.insert? invoice with
      | none => (db, .periodEnded b (some c))
      | some invoices => ({ db with invoices }, .periodAudit b c invoice rest)
  | .periodAudit b c i rest =>
      (db.audit b.actorUserId c.tenantId (.invoiceIssued i.id i.period i.amountCents true),
        PeriodRun.next { b with created := b.created + 1 } rest)
  | .payRead actorUserId invoiceId note =>
      match db.invoices.find? invoiceId with
      | none => (db, .failed (.notFound "fatura bulunamadi"))
      | some inv =>
          if inv.status ≠ .opened then
            (db, .failed (.conflict "yalnizca acik fatura odendi isaretlenebilir"))
          else (db, .payUpdate actorUserId inv note)
  | .payUpdate actorUserId inv note =>
      match db.invoices.find? inv.id with
      | none => (db, .failed .database)
      | some _ =>
          ({ db with
              invoices := db.invoices.updateKey inv.id (Invoice.paid actorUserId note d.now)
                (paid_keepsIndexes actorUserId note d.now) },
            .payAudit actorUserId inv note)
  | .payAudit actorUserId inv note =>
      (db.audit actorUserId inv.tenantId (.invoicePaid inv.id inv.period inv.amountCents note),
        .markedPaid inv.id)
  | .voidRead actorUserId invoiceId =>
      match db.invoices.find? invoiceId with
      | none => (db, .failed (.notFound "fatura bulunamadi"))
      | some inv =>
          if inv.status = .paid then
            (db, .failed (.conflict "odenmis fatura iptal edilemez"))
          else (db, .voidUpdate actorUserId inv)
  | .voidUpdate actorUserId inv =>
      match db.invoices.find? inv.id with
      | none => (db, .failed .database)
      | some _ =>
          ({ db with
              invoices := db.invoices.updateKey inv.id Invoice.voided voided_keepsIndexes },
            .voidAudit actorUserId inv)
  | .voidAudit actorUserId inv =>
      (db.audit actorUserId inv.tenantId (.invoiceVoid inv.id inv.period), .markedVoid inv.id)
  | ended => (db, ended)

/-! ## The system -/

structure BillingWorld where
  db : BillingDb
  /-- all calls so far, in the order of their arrival -/
  calls : List Point

inductive BillingStep
  | call (r : Request)
  /-- the next statement of a call -/
  | statement (i : Nat) (d : Draw)
  /-- `setConfig`, and what else changes the configurations -/
  | configure (configs : Table TenantBilling)

def BillingStep.apply (step : BillingStep) (w : BillingWorld) : BillingWorld :=
  match step with
  | .call r => { w with calls := w.calls ++ [r.start] }
  | .statement i d =>
      match w.calls[i]? with
      | none => w
      | some point =>
          if d.fails then { w with calls := w.calls.set i point.fail }
          else
            let (db, after) := point.run d w.db
            ⟨db, w.calls.set i after⟩
  | .configure configs => { w with db := { w.db with configs } }

/-! ## What the invoices owe -/

/-- Paid and void are final. -/
def KeepsFinal (db db' : BillingDb) : Prop :=
  ∀ i ∈ db.invoices, i.status ≠ .opened → ∃ i' ∈ db'.invoices, i'.id = i.id ∧ i'.status = i.status

def BillingDb.isInvoiced (db : BillingDb) (period : String) (c : TenantBilling) : Prop :=
  (db.invoiceOf c.tenantId period).isSome = true

/-- What is promised of each state. -/
structure Lifecycle (w : BillingWorld) : Prop where
  onePerPeriod (i j : Invoice) (hi : i ∈ w.db.invoices) (hj : j ∈ w.db.invoices)
    (htenant : i.tenantId = j.tenantId) (hperiod : i.period = j.period) : i = j
  neverVoid (id : Uuid) (h : .markedPaid id ∈ w.calls) :
    ∃ i ∈ w.db.invoices, i.id = id ∧ i.status = .paid
  neverPaid (id : Uuid) (h : .markedVoid id ∈ w.calls) :
    ∃ i ∈ w.db.invoices, i.id = id ∧ i.status = .void
  paidOnce (id : Uuid) (m n : Nat) (hm : w.calls[m]? = some (.markedPaid id))
    (hn : w.calls[n]? = some (.markedPaid id)) : m = n
  othersInvoiced (b : PeriodRun) (failedAt : Option TenantBilling)
    (h : .periodEnded b failedAt ∈ w.calls) (c : TenantBilling) (hc : c ∈ b.configs)
    (hne : failedAt ≠ some c) : w.db.isInvoiced b.period c

/-- No call has moved the invoice on since this one has read it, and no tenant fails while the
loop has others to invoice. -/
def Point.Undisturbed (d : Draw) (db : BillingDb) : Point → Prop
  | .payUpdate _ inv _ =>
      d.fails = true ∨ ∀ r ∈ db.invoices, r.id = inv.id → r.status = .opened
  | .voidUpdate _ inv =>
      d.fails = true ∨ ∀ r ∈ db.invoices, r.id = inv.id → r.status ≠ .paid
  | .periodCheck b _ rest => d.fails = false ∨ ∀ c ∈ rest, db.isInvoiced b.period c
  | .periodInsert b c rest =>
      (d.fails = false ∧ db.invoiceOf c.tenantId b.period = none ∧
          db.invoices.find? d.newId = none) ∨
        ∀ c ∈ rest, db.isInvoiced b.period c
  | .periodAudit b _ _ rest => d.fails = false ∨ ∀ c ∈ rest, db.isInvoiced b.period c
  | _ => True

def Undisturbed (step : BillingStep) (w : BillingWorld) : Prop :=
  match step with
  | .statement i d => ∀ point, w.calls[i]? = some point → point.Undisturbed d w.db
  | _ => True

end Refearn.Billing
