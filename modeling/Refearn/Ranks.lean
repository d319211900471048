import Refearn.Schema
import Mathlib.Data.List.Sort
/-!
# Ranks

`ranks.service.ts`: the tier a member has reached by team size and earnings, and
the override rate that tier pays on the member's own sales.
-/

namespace Refearn.Ranks

open Support

structure Tier where
  name : String
  sortOrder : Int
  minTeam : Int
  minEarningsCents : Int
  overrideBps : Int
  deriving DecidableEq

def DEFAULT_TIERS : List Tier :=
  [⟨"Bronze", 0, 0, 0, 0⟩, ⟨"Silver", 1, 3, 100000, 0⟩, ⟨"Gold", 2, 10, 1000000, 0⟩,
    ⟨"Platinum", 3, 25, 5000000, 0⟩]

def bySortOrder (t t' : RankTier) : Prop := t.sortOrder ≤ t'.sortOrder

instance : DecidableRel bySortOrder := fun t t' => Int.decLe t.sortOrder t'.sortOrder

def effectiveTiers (registry : Registry) (tenantId : Uuid) : List Tier :=
  match (registry.rankTiers.rows.filter (·.tenantId = tenantId)).insertionSort
      bySortOrder with
  | [] => DEFAULT_TIERS
  | custom =>
      custom.map fun t => ⟨t.name, t.sortOrder, t.minTeam, t.minEarningsCents, t.overrideBps⟩

/-- The members below `path`, the member itself left out. -/
def teamSize (registry : Registry) (tenantId membershipId : Uuid) (path : List Uuid) :
    Int :=
  (registry.memberships.rows.countP fun m =>
    m.tenantId = tenantId ∧ path.isPrefixOf m.path ∧ m.id ≠ membershipId)

/-- A row that counts as earned: due, on its way or paid. -/
def isEarned (tenantId membershipId : Uuid) (r : LedgerEntry) : Bool :=
  r.tenantId = tenantId && r.beneficiaryMembershipId = membershipId &&
    (r.status = .payable || r.status = .processing || r.status = .paid)

def earnings (rows : List LedgerEntry) (tenantId membershipId : Uuid) : Int :=
  ((rows.filter (isEarned tenantId membershipId)).map LedgerEntry.amountCents).sum

/-- The last tier of the ladder whose two thresholds are met. -/
def highestTier (tiers : List Tier) (teamSize earnings : Int) : Option Tier :=
  tiers.foldl (fun current t =>
    if t.minTeam ≤ teamSize ∧ t.minEarningsCents ≤ earnings then some t else current) none

def resolveTier (registry : Registry) (rows : List LedgerEntry)
    (tenantId membershipId : Uuid) : Option Tier :=
  match (registry.memberships.find? membershipId).filter (·.tenantId = tenantId) with
  | none => none
  | some me =>
      highestTier (effectiveTiers registry tenantId)
        (teamSize registry tenantId membershipId me.path)
        (earnings rows tenantId membershipId)

def overrideBpsFor (registry : Registry) (rows : List LedgerEntry)
    (tenantId membershipId : Uuid) : Int :=
  ((resolveTier registry rows tenantId membershipId).map Tier.overrideBps).getD 0

def maxOverrideBps (registry : Registry) (tenantId : Uuid) : Int :=
  (effectiveTiers registry tenantId).foldl (fun m t => max m t.overrideBps) 0

/-! ## The reached tier is a tier of the ladder -/

theorem highestTier_mem {tiers : List Tier} {size earned : Int} {t : Tier}
    (h : highestTier tiers size earned = some t) : t ∈ tiers := by
  suffices hacc : ∀ (ts : List Tier) (current : Option Tier),
      ts.foldl (fun current t =>
        if t.minTeam ≤ size ∧ t.minEarningsCents ≤ earned then some t else current)
        current = some t → t ∈ ts ∨ current = some t by
    simpa using hacc tiers none h
  intro ts
  induction ts with
  | nil => exact fun current hcur => .inr hcur
  | cons t' ts ih =>
      intro current hcur
      rcases ih _ hcur with hmem | hcur
      · exact .inl (List.mem_cons_of_mem _ hmem)
      · dsimp only at hcur
        split_ifs at hcur with hmet
        · cases hcur
          exact .inl List.mem_cons_self
        · exact .inr hcur

theorem foldl_max_ge (ts : List Tier) (m : Int) :
    m ≤ ts.foldl (fun m t => max m t.overrideBps) m ∧
      ∀ t ∈ ts, t.overrideBps ≤ ts.foldl (fun m t => max m t.overrideBps) m := by
  induction ts generalizing m with
  | nil => simp
  | cons t ts ih =>
      obtain ⟨hbase, hall⟩ := ih (max m t.overrideBps)
      rw [List.foldl_cons]
      refine ⟨(le_max_left _ _).trans hbase, fun t' ht' => ?_⟩
      rcases List.mem_cons.mp ht' with rfl | ht'
      · exact (le_max_right _ _).trans hbase
      · exact hall t' ht'

theorem maxOverrideBps_nonneg (registry : Registry) (tenantId : Uuid) :
    0 ≤ maxOverrideBps registry tenantId :=
  (foldl_max_ge _ 0).1

/-- No member's override exceeds the highest one of the tenant's ladder. -/
theorem overrideBpsFor_le_max (registry : Registry) (rows : List LedgerEntry)
    (tenantId membershipId : Uuid) :
    overrideBpsFor registry rows tenantId membershipId ≤
      maxOverrideBps registry tenantId := by
  unfold overrideBpsFor
  cases htier : resolveTier registry rows tenantId membershipId with
  | none => exact maxOverrideBps_nonneg registry tenantId
  | some t =>
      unfold resolveTier at htier
      split at htier
      · cases htier
      · exact (foldl_max_ge _ 0).2 t (highestTier_mem htier)

end Refearn.Ranks
