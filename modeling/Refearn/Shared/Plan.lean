import Refearn.Shared.Commission
/-!
# Plan validation

`plan.ts` of the shared package: the rules that a plan is checked for before it is written.
-/

namespace Refearn.Shared

def MIN_PLAN_DEPTH : Nat := 1

def MAX_PLAN_DEPTH : Nat := 8

structure CommissionPlanInput where
  name : String
  poolRateBps : Int
  depth : Nat
  levels : List PlanLevelRate

/-- The levels that an earlier entry of the list has already named. -/
def duplicatedLevels : List Nat → List Nat → List Nat
  | _, [] => []
  | seen, level :: rest =>
      if level ∈ seen then level :: duplicatedLevels seen rest
      else duplicatedLevels (level :: seen) rest

def coversDepth (input : CommissionPlanInput) : Prop :=
  (input.levels.insertionSort byLevel).map PlanLevelRate.level = List.range input.depth

instance (input : CommissionPlanInput) : Decidable (coversDepth input) :=
  inferInstanceAs (Decidable
    ((input.levels.insertionSort byLevel).map PlanLevelRate.level = List.range input.depth))

def rateSum (levels : List PlanLevelRate) : Int := (levels.map PlanLevelRate.rateBps).sum

/-- The issues of `commissionPlanSchema` in their order. The route has admitted the input, so
of the plain bounds only the two that are tighter here are left; `tooBig` is the text that zod
gives for a number above a maximum. -/
def planIssues (tooBig : Nat → String) (input : CommissionPlanInput) : List String :=
  (if input.depth ≤ MAX_PLAN_DEPTH then [] else [tooBig MAX_PLAN_DEPTH]) ++
    (input.levels.filter fun l => MAX_PLAN_DEPTH - 1 < l.level).map
      (fun _ => tooBig (MAX_PLAN_DEPTH - 1)) ++
    (duplicatedLevels [] (input.levels.map PlanLevelRate.level)).map
      (fun level => s!"level {level} is duplicated") ++
    (if input.levels.any (fun l => l.level = 0) then [] else ["level 0 (seller) is required"]) ++
    (if coversDepth input then []
      else [s!"levels must cover 0..{input.depth - 1} without gaps"]) ++
    if rateSum input.levels ≤ input.poolRateBps then []
    else [s!"sum of level rates ({rateSum input.levels} bps) cannot exceed pool rate " ++
      s!"({input.poolRateBps} bps)"]

end Refearn.Shared
