import Refearn.Engine.Proofs.BaseLines
/-!
# Sponsor chains

The members above a seller up to a root, however many there are. The engine walks the front of
this chain, as far as its plan is deep, and no member stands in it twice.
-/

namespace Refearn.Engine

open Support Support.Transaction
open Shared (CommissionLine PlanLevelRate BPS_DENOMINATOR lineAt lineAt_eq_some)

/-- The sponsor links from a member up to a root. -/
inductive SponsorChain (registry : Registry) : Option Uuid → List Membership → Prop
  | root : SponsorChain registry none []
  | link {id : Uuid} {m : Membership} {chain : List Membership}
      (hm : registry.memberships.find? id = some m)
      (hrest : SponsorChain registry m.sponsorMembershipId chain) :
      SponsorChain registry (some id) (m :: chain)

section SponsorChain

variable {registry : Registry} {start : Option Uuid} {chain chain' : List Membership}

theorem SponsorChain.unique (h : SponsorChain registry start chain)
    (h' : SponsorChain registry start chain') : chain = chain' := by
  induction h generalizing chain' with
  | root =>
      cases h' with
      | root => rfl
  | @link id m chain hm hrest ih =>
      cases h' with
      | @link _ m' chain' hm' hrest' =>
          have hsame : m = m' := Option.some.inj (hm.symm.trans hm')
          subst hsame
          rw [ih hrest']

/-- From every member of a chain the rest of it leads on to the root. -/
theorem SponsorChain.of_mem (h : SponsorChain registry start chain) {m : Membership}
    (hm : m ∈ chain) :
    ∃ above, SponsorChain registry (some m.id) (m :: above) ∧ above.length < chain.length := by
  induction h with
  | root => cases hm
  | @link id first chain hfound hrest ih =>
      rcases List.mem_cons.mp hm with heq | hm
      · have hid : first.id = id := (Table.find?_eq_some.mp hfound).2
        refine ⟨chain, ?_, by rw [List.length_cons]; omega⟩
        rw [heq, hid]
        exact .link hfound hrest
      · obtain ⟨above, habove, hlength⟩ := ih hm
        exact ⟨above, habove, by rw [List.length_cons]; omega⟩

/-- Links do not run in a circle, or the chain above a member would be longer than itself. -/
theorem SponsorChain.ids_nodup (h : SponsorChain registry start chain) :
    (chain.map Membership.id).Nodup := by
  induction h with
  | root => exact List.nodup_nil
  | @link id m chain hfound hrest ih =>
      rw [List.map_cons, List.nodup_cons]
      refine ⟨fun hmem => ?_, ih⟩
      obtain ⟨m', hm', hid⟩ := List.mem_map.mp hmem
      obtain ⟨above, habove, hlength⟩ := hrest.of_mem hm'
      have hown : m.id = id := (Table.find?_eq_some.mp hfound).2
      rw [hid, hown] at habove
      have hsame := habove.unique (.link hfound hrest)
      have htail : above = chain := (List.cons.inj hsame).2
      rw [htail] at hlength
      omega

/-- The engine walks the front of the chain. -/
theorem SponsorChain.uplineChain_eq (h : SponsorChain registry start chain) (depth : Nat) :
    uplineChain registry depth start = .ok (chain.take depth) := by
  induction h generalizing depth with
  | root => cases depth <;> rfl
  | @link id m chain hm hrest ih =>
      cases depth with
      | zero => rfl
      | succ depth =>
          unfold uplineChain
          rw [hm]
          simp only [ih depth, bind, Except.bind, List.take_succ_cons]
          rfl

/-- What the engine has walked begins with the seller. -/
theorem uplineChain_head {depth : Nat} {currentId : Uuid} {rawChain : List Membership}
    (h : uplineChain registry (depth + 1) (some currentId) = .ok rawChain) :
    ∃ m uplines, rawChain = m :: uplines ∧ m.id = currentId := by
  unfold uplineChain at h
  cases hfound : registry.memberships.find? currentId with
  | none =>
      rw [hfound] at h
      cases h
  | some m =>
      simp only [hfound] at h
      cases hrest : uplineChain registry depth m.sponsorMembershipId with
      | error e =>
          rw [hrest] at h
          cases h
      | ok uplines =>
          rw [hrest] at h
          cases h
          exact ⟨m, uplines, rfl, (Table.find?_eq_some.mp hfound).2⟩

end SponsorChain

/-! ## Places -/

/-- The seller stands at the first place, whatever the tenant has set. -/
theorem effectiveBaseChain_zero (rawChain : List Membership) (tenant : Tenant) :
    (effectiveBaseChain rawChain tenant)[0]?.join = rawChain[0]?.map Membership.id := by
  cases rawChain with
  | nil => rfl
  | cons seller uplines =>
      unfold effectiveBaseChain
      split_ifs <;> rfl

/-- Where everybody earns, the places are those of the chain. -/
theorem effectiveBaseChain_default (rawChain : List Membership) {tenant : Tenant}
    (hcompression : tenant.compressionEnabled = false)
    (hearn : tenant.inactiveMembersEarn = true) :
    effectiveBaseChain rawChain tenant = rawChain.map fun m => some m.id := by
  cases rawChain with
  | nil => rfl
  | cons seller uplines =>
      unfold effectiveBaseChain
      dsimp only
      rw [hcompression, hearn]
      rfl

theorem join_map_some (ids : List Uuid) (i : Nat) : (ids.map some)[i]?.join = ids[i]? := by
  rw [List.getElem?_map]
  cases ids[i]? <;> rfl

/-- The lines of a sale do not depend on who stands beyond the depth of the plan. -/
theorem saleLines_take {amountCents : Int} {plan : CommissionPlan} (hplan : FinalizedPlan plan)
    (chain : List (Option Uuid)) :
    saleLines amountCents plan (chain.take plan.depth) = saleLines amountCents plan chain := by
  refine (saleLines_eq_iff hplan).mpr fun l hl _ => ?_
  have hlt : l.level < plan.depth :=
    hplan.level_lt (mem_sortedRates.mpr ⟨l, hl, rfl⟩)
  rw [List.getElem?_take_of_lt hlt]

/-! ## Applied sales -/

/-- A sale whose commissions have been written, with what the engine has read for it. -/
structure AppliedSale where
  env : Env
  now : Instant
  sale : Sale
  before : Session
  after : Session
  tenant : Tenant
  plan : CommissionPlan
  seller : Membership
  sponsors : List Membership
  applies : Applies env now sale before after
  tenant_eq : before.db.registry.tenants.find? sale.tenantId = some tenant
  plan_eq : resolvePlan before.db.registry sale.tenantId sale.saleDate
    sale.commissionPlanId = some plan
  finalized : FinalizedPlan plan
  chain_eq : SponsorChain before.db.registry (some sale.sellerMembershipId) (seller :: sponsors)

namespace AppliedSale

variable (a : AppliedSale)

/-- The members that the engine has walked. -/
def rawChain : List Membership := (a.seller :: a.sponsors).take a.plan.depth

/-- The base lines that the ledger has of the sale. -/
def lines : List CommissionLine := baseLines a.sale.id a.after.db.ledger.rows

theorem lines_eq :
    a.lines =
      saleLines a.sale.amountCents a.plan (effectiveBaseChain a.rawChain a.tenant) :=
  a.applies.baseLines_eq a.tenant_eq a.plan_eq a.finalized (a.chain_eq.uplineChain_eq _)

/-- The seller is always among the members walked. -/
theorem rawChain_eq : a.rawChain = a.seller :: a.sponsors.take (a.plan.depth - 1) := by
  have hdepth : 1 ≤ a.plan.depth := a.finalized.depth.1
  obtain ⟨depth, heq⟩ : ∃ depth, a.plan.depth = depth + 1 :=
    Nat.exists_eq_succ_of_ne_zero (by omega)
  unfold rawChain
  rw [heq, List.take_succ_cons, Nat.add_sub_cancel]

theorem mem_lines {line : CommissionLine} :
    line ∈ a.lines ↔ ∃ l ∈ a.plan.levels,
      (effectiveBaseChain a.rawChain a.tenant)[l.level]?.join =
          some line.beneficiaryMembershipId ∧
        line.level = l.level ∧ line.rateBpsUsed = l.rateBps ∧
        line.amountCents = levelShare a.sale.amountCents l ∧ 0 < line.amountCents := by
  rw [a.lines_eq, mem_saleLines]
  constructor
  · rintro ⟨rate, hrate, hline⟩
    obtain ⟨l, hl, rfl⟩ := mem_sortedRates.mp hrate
    exact ⟨l, hl, lineAt_eq_some.mp hline⟩
  · rintro ⟨l, hl, hline⟩
    exact ⟨_, mem_sortedRates.mpr ⟨l, hl, rfl⟩, lineAt_eq_some.mpr hline⟩

/-- An application that runs to its end. -/
def ofRun (env : Env) (now : Instant) (sale : Sale) (before : Session) (tenant : Tenant)
    (plan : CommissionPlan) (seller : Membership) (sponsors : List Membership)
    (hruns : ((applyCommissionsInTx env now sale).run before).toOption.any
      (fun r => r.1.applied) = true)
    (htenant : before.db.registry.tenants.find? sale.tenantId = some tenant)
    (hplan : resolvePlan before.db.registry sale.tenantId sale.saleDate
      sale.commissionPlanId = some plan) (hfinalized : FinalizedPlan plan)
    (hchain : SponsorChain before.db.registry (some sale.sellerMembershipId)
      (seller :: sponsors)) : AppliedSale where
  env := env
  now := now
  sale := sale
  before := before
  after := (applyCommissionsInTx env now sale).commit before
  tenant := tenant
  plan := plan
  seller := seller
  sponsors := sponsors
  applies := exists_commits_of_run (p := ApplyResult.applied) hruns
  tenant_eq := htenant
  plan_eq := hplan
  finalized := hfinalized
  chain_eq := hchain

end AppliedSale

end Refearn.Engine
