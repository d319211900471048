import Refearn.Engine.Proofs.Compression
import Mathlib.Algebra.BigOperators.Group.Finset.Basic
import Mathlib.Data.Fintype.BigOperators
/-!
# Fairness of positions

With the default settings a member earns from a sale what the plan pays at the distance of the
seller, and nothing else of the tree has a say in it.
-/

namespace Refearn.Engine

open Support Support.Transaction
open Shared (CommissionLine PlanLevelRate BPS_DENOMINATOR lineAt lineAt_eq_some)

/-- What a plan pays at a distance from the seller. -/
def distanceShare (amountCents : Int) (rates : List PlanLevelRate) (distance : Nat) : Int :=
  (rates.map fun l =>
    if l.level = distance then max 0 (floorShare BPS_DENOMINATOR amountCents l.rateBps)
    else 0).sum

/-- Of the lines of a chain in which everybody stands once, a member has those of its place. -/
theorem sum_linesTo {ids : List Uuid} {member : Uuid} {distance : Nat} (hids : ids.Nodup)
    (hplace : ids[distance]? = some member) (amountCents : Int) (rates : List PlanLevelRate) :
    ((linesTo member (rates.filterMap (lineAt amountCents (ids.map some)))).map
      CommissionLine.amountCents).sum = distanceShare amountCents rates distance := by
  induction rates with
  | nil => rfl
  | cons l rest ih =>
      unfold distanceShare
      rw [List.filterMap_cons, List.map_cons, List.sum_cons]
      change _ = _ + distanceShare amountCents rest distance
      rw [← ih]
      by_cases hshare : 0 < floorShare BPS_DENOMINATOR amountCents l.rateBps
      · rw [lineAt_of_share hshare, join_map_some]
        by_cases hlevel : l.level = distance
        · rw [hlevel, hplace, if_pos rfl, max_eq_right hshare.le]
          simp [linesTo]
        · rw [if_neg hlevel, Int.zero_add]
          cases hother : ids[l.level]? with
          | none => rfl
          | some beneficiary =>
              have hne : beneficiary ≠ member := by
                intro heq
                rw [heq] at hother
                have hbound := (List.getElem?_eq_some_iff.mp hother).1
                exact hlevel ((List.getElem?_inj hbound hids).mp (hother.trans hplace.symm))
              simp [linesTo, hne]
      · rw [lineAt_of_no_share hshare, max_eq_left (not_lt.mp hshare), ite_self, Int.zero_add]

namespace AppliedSale

variable (a : AppliedSale)

/-- The tenant has left the settings alone: everybody earns, nobody is passed over. -/
structure DefaultSettings : Prop where
  compressionEnabled : a.tenant.compressionEnabled = false
  inactiveMembersEarn : a.tenant.inactiveMembersEarn = true

/-- The member stands so many links above the seller. -/
def StandsAbove (member : Uuid) (distance : Nat) : Prop :=
  ((a.seller :: a.sponsors).map Membership.id)[distance]? = some member

/-- The base commission of a member from the sale. -/
def earned (member : Uuid) : Int :=
  ((linesTo member a.lines).map CommissionLine.amountCents).sum

/-- The lines of the sale with everybody in the chain, however deep the plan is. -/
theorem lines_eq_of_default (h : a.DefaultSettings) :
    a.lines = saleLines a.sale.amountCents a.plan
      (((a.seller :: a.sponsors).map Membership.id).map some) := by
  rw [a.lines_eq, effectiveBaseChain_default _ h.compressionEnabled h.inactiveMembersEarn,
    List.map_map, ← saleLines_take a.finalized]
  conv_rhs => rw [← saleLines_take a.finalized, ← List.map_take]
  have hshorter : (a.rawChain.map fun m => some m.id).take a.plan.depth =
      a.rawChain.map fun m => some m.id := by
    refine List.take_of_length_le ?_
    rw [List.length_map]
    exact List.length_take_le _ _
  rw [hshorter]
  rfl

theorem earned_eq (h : a.DefaultSettings) {member : Uuid} {distance : Nat}
    (hstands : a.StandsAbove member distance) :
    a.earned member = distanceShare a.sale.amountCents (sortedRates a.plan) distance := by
  unfold earned
  rw [a.lines_eq_of_default h]
  exact sum_linesTo a.chain_eq.ids_nodup hstands _ _

end AppliedSale

/-- Two members earn the same from the sales below them, if the sales correspond one to one
with equal amounts and equal distances of their sellers, wherever the members stand. -/
theorem position_fairness {ι κ : Type} [Fintype ι] [Fintype κ] (plan : CommissionPlan)
    {sales : ι → AppliedSale} {sales' : κ → AppliedSale} {member member' : Uuid} (e : ι ≃ κ)
    (distance : ι → Nat)
    (hdefault : ∀ i, (sales i).DefaultSettings) (hdefault' : ∀ k, (sales' k).DefaultSettings)
    (hplan : ∀ i, (sales i).plan.levels = plan.levels)
    (hplan' : ∀ k, (sales' k).plan.levels = plan.levels)
    (hbelow : ∀ i, (sales i).StandsAbove member (distance i))
    (hbelow' : ∀ i, (sales' (e i)).StandsAbove member' (distance i))
    (hamount : ∀ i, (sales i).sale.amountCents = (sales' (e i)).sale.amountCents) :
    ∑ i, (sales i).earned member = ∑ k, (sales' k).earned member' := by
  refine Fintype.sum_equiv e _ _ fun i => ?_
  have hrates : ∀ p : CommissionPlan, p.levels = plan.levels →
      sortedRates p = sortedRates plan := by
    intro p hp
    unfold sortedRates planRates
    rw [hp]
  calc
    (sales i).earned member
        = distanceShare (sales i).sale.amountCents (sortedRates plan) (distance i) := by
          rw [(sales i).earned_eq (hdefault i) (hbelow i), hrates _ (hplan i)]
    _ = distanceShare (sales' (e i)).sale.amountCents (sortedRates plan) (distance i) := by
          rw [hamount i]
    _ = (sales' (e i)).earned member' := by
          rw [(sales' (e i)).earned_eq (hdefault' (e i)) (hbelow' i), hrates _ (hplan' (e i))]

namespace Demo

def openTenant : Tenant := { tenant with inactiveMembersEarn := true }

theorem keys_pair : ([seller, sponsor].map key).Nodup := by decide

theorem clash_pair : [seller, sponsor].Pairwise fun m m' => clash m m' = false := by decide

def pairLine : Table Membership := ⟨[seller, sponsor], keys_pair, clash_pair⟩

def openRegistry (memberships : Table Membership) : Registry :=
  { registry with tenants := ⟨[openTenant], by decide, by decide⟩, memberships := memberships }

/-- The sponsor is at the root. -/
def rootedSale : AppliedSale :=
  .ofRun env 0 approvedSale ⟨{ empty with registry := openRegistry pairLine }, uuidsFrom 200⟩
    openTenant plan seller [sponsor] (by decide +kernel) (by decide +kernel) (by decide +kernel)
    plan_finalized
    (.link (show pairLine.find? 2 = some seller by decide +kernel)
      (.link (show pairLine.find? 3 = some sponsor by decide +kernel) .root))

/-- There is another member above the sponsor. -/
def nestedSale : AppliedSale :=
  .ofRun env 0 approvedSale ⟨{ empty with registry := openRegistry idleLine }, uuidsFrom 200⟩
    openTenant plan seller [idleSponsor, grandSponsor] (by decide +kernel) (by decide +kernel)
    (by decide +kernel) plan_finalized
    (.link (show idleLine.find? 2 = some seller by decide +kernel)
      (.link (show idleLine.find? 3 = some idleSponsor by decide +kernel)
        (.link (show idleLine.find? 7 = some grandSponsor by decide +kernel) .root)))

end Demo

/-- The sponsor earns the same with and without a member above it. -/
theorem position_fairness_nested :
    ∑ _i : Unit, Demo.rootedSale.earned 3 = ∑ _k : Unit, Demo.nestedSale.earned 3 :=
  position_fairness Demo.plan (Equiv.refl Unit) (fun _ => 1) (fun _ => ⟨rfl, rfl⟩)
    (fun _ => ⟨rfl, rfl⟩) (fun _ => rfl) (fun _ => rfl) (fun _ => rfl)
    (fun _ => rfl) (fun _ => rfl)

end Refearn.Engine
