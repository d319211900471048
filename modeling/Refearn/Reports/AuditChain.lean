import Refearn.Schema
import Refearn.Support.Runs
import Mathlib.Data.List.Sort
/-!
# The audit chain

`reports.service.ts`, the hash chain over the audit log of a tenant. A row takes its sequence
number when it is inserted and becomes visible when its transaction commits. A seal reads the
last sealed row, then the rows without a hash, and writes a hash into one row after another;
nothing holds these statements together.
-/

namespace Refearn.Reports

open Support

/-- SHA-256 and the text of a `Date`. -/
structure ReportsEnv where
  sha256 : String → String
  toISOString : Instant → String

/-- A missing `before` or `after` is read as `null`. -/
structure AuditRow where
  id : Uuid
  tenantId : Option Uuid
  actorUserId : Option Uuid
  action : String
  entity : String
  entityId : Option Uuid
  before : Json
  after : Json
  ip : Option String
  createdAt : Instant
  prevHash : Option String
  hash : Option String
  seq : Nat

instance : Keyed AuditRow Uuid := { key := AuditRow.id }

/-! ## Reading the chain -/

def auditContent (env : ReportsEnv) (a : AuditRow) : String :=
  Json.stringify (.obj
    [("id", .str a.id.text), ("action", .str a.action), ("entity", .str a.entity),
      ("entityId", Json.ofOption (a.entityId.map Uuid.text)),
      ("actorUserId", Json.ofOption (a.actorUserId.map Uuid.text)), ("before", a.before),
      ("after", a.after), ("ip", Json.ofOption a.ip),
      ("createdAt", .str (env.toISOString a.createdAt))])

/-- `sha256((prev ?? '') + this.auditContent(a))` -/
def chainHash (env : ReportsEnv) (prev : Option String) (content : String) : String :=
  env.sha256 (prev.getD "" ++ content)

def isSealed (tenantId : Uuid) (a : AuditRow) : Bool :=
  a.tenantId == some tenantId && a.hash.isSome

def isUnsealed (tenantId : Uuid) (a : AuditRow) : Bool :=
  a.tenantId == some tenantId && a.hash.isNone

def bySeq (a b : AuditRow) : Prop := a.seq ≤ b.seq

instance : DecidableRel bySeq := fun a b => Nat.decLe a.seq b.seq

def sealedRows (rows : Table AuditRow) (tenantId : Uuid) : List AuditRow :=
  (rows.rows.filter (isSealed tenantId)).insertionSort bySeq

def unsealedRows (rows : Table AuditRow) (tenantId : Uuid) : List AuditRow :=
  (rows.rows.filter (isUnsealed tenantId)).insertionSort bySeq

/-- `last?.hash ?? null` of the sealed row with the greatest sequence number. -/
def headHash (rows : Table AuditRow) (tenantId : Uuid) : Option String :=
  (sealedRows rows tenantId).getLast?.bind AuditRow.hash

/-- How far a call of `sealAuditChain` has come. -/
inductive SealPhase
  | headRead
  | writing (left : List AuditRow)
  | ended

structure SealCall where
  tenantId : Uuid
  prev : Option String
  phase : SealPhase

/-- The rows that a call still has to write. -/
def SealCall.left (call : SealCall) : List AuditRow :=
  match call.phase with
  | .writing left => left
  | _ => []

def AuditRow.chained (prev : Option String) (hash : String) (a : AuditRow) : AuditRow :=
  { a with prevHash := prev, hash := some hash }

theorem AuditRow.keepsIndexes_chained (prev : Option String) (hash : String) :
    KeepsIndexes (AuditRow.chained prev hash) where
  key_eq _ := rfl
  clash_left _ _ h := h
  clash_right _ _ h := h

/-! ## The system -/

/-- The committed rows, the rows that have a sequence number and are not committed, and the
calls of `sealAuditChain`. -/
structure AuditWorld where
  rows : Table AuditRow
  nextSeq : Nat
  inserting : List AuditRow
  sealing : List SealCall

inductive AuditStep
  /-- an insert takes the next sequence number -/
  | startInsert (entry : AuditRow)
  | commitInsert (n : Nat)
  | abortInsert (n : Nat)
  | openSeal (tenantId : Uuid)
  | readUnsealed (n : Nat)
  | writeNext (n : Nat)
  /-- a call returns, or its process dies -/
  | endSeal (n : Nat)

def AuditWorld.writeNext (env : ReportsEnv) (w : AuditWorld) (n : Nat) (call : SealCall)
    (a : AuditRow) (left : List AuditRow) : AuditWorld :=
  let hash := chainHash env call.prev (auditContent env a)
  { w with
    rows := w.rows.updateKey a.id (AuditRow.chained call.prev hash)
      (AuditRow.keepsIndexes_chained ..)
    sealing := w.sealing.set n { call with prev := some hash, phase := .writing left } }

def AuditStep.apply (env : ReportsEnv) (step : AuditStep) (w : AuditWorld) : AuditWorld :=
  match step with
  | .startInsert entry =>
      { w with
        nextSeq := w.nextSeq + 1
        inserting :=
          w.inserting ++ [{ entry with seq := w.nextSeq, prevHash := none, hash := none }] }
  | .commitInsert n =>
      match w.inserting[n]? with
      | some row =>
          { w with
            rows := (w.rows.insert? row).getD w.rows
            inserting := w.inserting.eraseIdx n }
      | none => w
  | .abortInsert n => { w with inserting := w.inserting.eraseIdx n }
  | .openSeal tenantId =>
      { w with sealing := w.sealing ++ [⟨tenantId, headHash w.rows tenantId, .headRead⟩] }
  | .readUnsealed n =>
      match w.sealing[n]? with
      | some ⟨tenantId, prev, .headRead⟩ =>
          { w with
            sealing :=
              w.sealing.set n ⟨tenantId, prev, .writing (unsealedRows w.rows tenantId)⟩ }
      | _ => w
  | .writeNext n =>
      match w.sealing[n]? with
      | some ⟨tenantId, prev, .writing (a :: left)⟩ =>
          w.writeNext env n ⟨tenantId, prev, .writing (a :: left)⟩ a left
      | _ => w
  | .endSeal n =>
      match w.sealing[n]? with
      | some call => { w with sealing := w.sealing.set n { call with phase := .ended } }
      | none => w

end Refearn.Reports
