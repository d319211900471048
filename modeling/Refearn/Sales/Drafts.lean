import Refearn.Engine.Store
/-!
# Draft sales

The two statements of `sales.service.ts` that change which sales exist. A sale is
created as a draft, and only a draft can be removed.
-/

namespace Refearn.Sales

open Support Support.Transaction Engine

structure DraftInput where
  tenantId : Uuid
  actorUserId : Option Uuid
  sellerMembershipId : Uuid
  amountCents : Int
  currency : String
  saleDate : Instant
  customerRef : Option String
  externalRef : Option String

def draftSale (input : DraftInput) (id : Uuid) : Sale where
  id := id
  tenantId := input.tenantId
  sellerMembershipId := input.sellerMembershipId
  commissionPlanId := none
  amountCents := input.amountCents
  currency := input.currency
  customerRef := input.customerRef
  externalRef := input.externalRef
  createdBy := input.actorUserId
  saleDate := input.saleDate
  summaryMonth := none
  status := .draft
  approvedBy := none
  approvedAt := none
  deliveredAt := none

/-- Returns the id of the new sale. -/
def createDraftSale (input : DraftInput) : Tx Uuid := do
  let id ← genRandomUuid
  let db ← readDb
  require (0 ≤ input.amountCents) (.checkViolation "chk_sale_amount")
  let sales ← orThrow (db.sales.insert? (draftSale input id)) (.uniqueViolation "sales")
  writeDb { db with sales := sales }
  pure id

def remove (tenantId : Uuid) (actorUserId : Option Uuid) (saleId : Uuid) : Tx PUnit := do
  let db ← readDb
  let sale ← orThrow ((db.sales.find? saleId).filter (fun s => s.tenantId = tenantId))
    (.notFound "sale was not found in this business")
  require (sale.status = .draft) (.badRequest "only draft sales can be deleted")
  writeDb { db with sales := db.sales.filter (fun s => s.id ≠ sale.id) }
  audit tenantId actorUserId "sale.delete" sale.id (.obj []) (.obj [("deleted", .bool true)])

/-! ## What they have done when they commit -/

theorem commits_createDraftSale {input : DraftInput} {s s' : Session} {id : Uuid}
    (h : Commits (createDraftSale input) s id s') :
    ∃ sales, sales.rows = s.db.sales.rows ++ [draftSale input id] ∧
      s'.db = { s.db with sales := sales } := by
  unfold createDraftSale at h
  simp only [commits_bind, commits_genRandomUuid, commits_readDb, commits_require,
    commits_orThrow, commits_writeDb, commits_pure] at h
  obtain ⟨_, _, ⟨rfl, rfl⟩, _, _, ⟨rfl, rfl⟩, _, _, ⟨-, rfl⟩, sales, _, ⟨hins, rfl⟩, _, _,
    rfl, rfl, rfl⟩ := h
  exact ⟨sales, (Table.insert?_eq_some.mp hins).2, rfl⟩

theorem commits_remove {tenantId saleId : Uuid} {actorUserId : Option Uuid}
    {s s' : Session} {u : PUnit} (h : Commits (remove tenantId actorUserId saleId) s u s') :
    ∃ sale ∈ s.db.sales, sale.status = .draft ∧
      ∃ auditLogs, s'.db =
        { s.db with
          sales := s.db.sales.filter (fun other => other.id ≠ sale.id)
          auditLogs := auditLogs } := by
  unfold remove at h
  simp only [commits_bind, commits_readDb, commits_require, commits_orThrow,
    commits_writeDb, commits_audit] at h
  obtain ⟨_, _, ⟨rfl, rfl⟩, sale, _, ⟨hfind, rfl⟩, _, _, ⟨hdraft, rfl⟩, _, _, rfl, rfl⟩ := h
  have hmem : sale ∈ s.db.sales :=
    (Table.find?_eq_some.mp (Option.filter_eq_some_iff.mp hfind).1).1
  exact ⟨sale, hmem, hdraft, _, rfl⟩

end Refearn.Sales
