import Refearn.Schema
import Refearn.Support.FloorShares
import Mathlib.Data.List.Sort
/-!
# Commission lines

`money.ts` and `commission.ts` of the shared package: the share of an amount at a
rate, and the sliding-window distribution of one sale over the plan levels.
-/

namespace Refearn.Shared

open Support

def BPS_DENOMINATOR : Int := 10000

/-- Division of `bigint` values truncates toward zero. -/
def bpsAmount (amountCents rateBps : Int) : Except String Int :=
  if amountCents < 0 then
    .error s!"amountCents cannot be negative: {amountCents}"
  else if rateBps < 0 ∨ BPS_DENOMINATOR < rateBps then
    .error s!"rateBps must be an integer in 0..{BPS_DENOMINATOR}: {rateBps}"
  else
    .ok ((amountCents * rateBps).tdiv BPS_DENOMINATOR)

structure PlanLevelRate where
  level : Nat
  rateBps : Int
  deriving DecidableEq

structure CommissionLine where
  level : Nat
  beneficiaryMembershipId : Uuid
  rateBpsUsed : Int
  amountCents : Int

/-- The loop of `computeCommissionLines` over the sorted levels. A missing or an
emptied place of the chain and a share of no cents write no line. -/
def distribute (amountCents : Int) (uplineChain : List (Option Uuid)) :
    List PlanLevelRate → Except String (List CommissionLine)
  | [] => .ok []
  | l :: rest =>
      match uplineChain[l.level]?.join with
      | none => distribute amountCents uplineChain rest
      | some beneficiary => do
          let amount ← bpsAmount amountCents l.rateBps
          let lines ← distribute amountCents uplineChain rest
          if amount ≤ 0 then pure lines
          else pure (⟨l.level, beneficiary, l.rateBps, amount⟩ :: lines)

def byLevel (l l' : PlanLevelRate) : Prop := l.level ≤ l'.level

instance : DecidableRel byLevel := fun l l' => Nat.decLe l.level l'.level

def computeCommissionLines (amountCents : Int) (levels : List PlanLevelRate)
    (uplineChain : List (Option Uuid)) : Except String (List CommissionLine) :=
  distribute amountCents uplineChain (levels.insertionSort byLevel)

def totalDistributed (lines : List CommissionLine) : Int :=
  (lines.map CommissionLine.amountCents).sum

/-! ## What a share is -/

theorem bpsAmount_eq_ok {amountCents rateBps amount : Int} :
    bpsAmount amountCents rateBps = .ok amount ↔
      0 ≤ amountCents ∧ 0 ≤ rateBps ∧ rateBps ≤ BPS_DENOMINATOR ∧
        amount = floorShare BPS_DENOMINATOR amountCents rateBps := by
  unfold bpsAmount floorShare
  split_ifs with hneg hrate
  · exact ⟨nofun, fun ⟨h, _⟩ => absurd h (not_le.mpr hneg)⟩
  · exact ⟨nofun, fun ⟨_, h0, h1, _⟩ => by omega⟩
  · push Not at hneg hrate
    rw [Int.tdiv_eq_ediv_of_nonneg (Int.mul_nonneg hneg hrate.1)]
    exact ⟨fun h => ⟨hneg, hrate.1, hrate.2, by cases h; rfl⟩,
      fun ⟨_, _, _, h⟩ => by rw [h]⟩

/-! ## What the lines are -/

/-- The line of one level, where its place of the chain is taken and its share is
worth a cent. -/
def lineAt (amountCents : Int) (uplineChain : List (Option Uuid)) (l : PlanLevelRate) :
    Option CommissionLine :=
  match uplineChain[l.level]?.join with
  | none => none
  | some beneficiary =>
      let amount := floorShare BPS_DENOMINATOR amountCents l.rateBps
      if amount ≤ 0 then none else some ⟨l.level, beneficiary, l.rateBps, amount⟩

theorem lineAt_eq_some {amountCents : Int} {chain : List (Option Uuid)}
    {l : PlanLevelRate} {line : CommissionLine} :
    lineAt amountCents chain l = some line ↔
      chain[l.level]?.join = some line.beneficiaryMembershipId ∧
        line.level = l.level ∧ line.rateBpsUsed = l.rateBps ∧
        line.amountCents = floorShare BPS_DENOMINATOR amountCents l.rateBps ∧
        0 < line.amountCents := by
  obtain ⟨level, beneficiary, rate, amount⟩ := line
  unfold lineAt
  cases hplace : chain[l.level]?.join with
  | none => simp
  | some b =>
      simp only [Option.some.injEq]
      split_ifs with hamount
      · refine ⟨nofun, fun ⟨_, _, _, h, hpos⟩ => ?_⟩
        omega
      · simp only [Option.some.injEq, CommissionLine.mk.injEq]
        constructor
        · rintro ⟨rfl, rfl, rfl, rfl⟩
          exact ⟨rfl, rfl, rfl, rfl, not_le.mp hamount⟩
        · rintro ⟨rfl, rfl, rfl, rfl, _⟩
          exact ⟨rfl, rfl, rfl, rfl⟩

theorem distribute_eq_ok {amountCents : Int} {chain : List (Option Uuid)}
    {levels : List PlanLevelRate} {lines : List CommissionLine}
    (h : distribute amountCents chain levels = .ok lines) :
    lines = levels.filterMap (lineAt amountCents chain) := by
  induction levels generalizing lines with
  | nil =>
      cases h
      rfl
  | cons l rest ih =>
      rw [List.filterMap_cons, lineAt]
      unfold distribute at h
      cases hplace : chain[l.level]?.join with
      | none =>
          rw [hplace] at h
          exact ih h
      | some beneficiary =>
          rw [hplace] at h
          cases hamount : bpsAmount amountCents l.rateBps with
          | error e => rw [hamount] at h; cases h
          | ok amount =>
              cases hrest : distribute amountCents chain rest with
              | error e => rw [hamount, hrest] at h; cases h
              | ok tail =>
                  rw [hamount, hrest] at h
                  have heq := (bpsAmount_eq_ok.mp hamount).2.2.2
                  rw [← ih hrest, ← heq]
                  by_cases hle : amount ≤ 0
                  · simpa [hle, Except.bind, bind, pure, Except.pure] using h.symm
                  · simpa [hle, Except.bind, bind, pure, Except.pure] using h.symm

/-- With a valid amount and valid rates the distribution never raises. -/
theorem distribute_total {amountCents : Int} (hamount : 0 ≤ amountCents)
    (chain : List (Option Uuid)) {levels : List PlanLevelRate}
    (hrates : ∀ l ∈ levels, 0 ≤ l.rateBps ∧ l.rateBps ≤ BPS_DENOMINATOR) :
    distribute amountCents chain levels =
      .ok (levels.filterMap (lineAt amountCents chain)) := by
  suffices hok : ∃ lines, distribute amountCents chain levels = .ok lines by
    obtain ⟨lines, h⟩ := hok
    rw [h, distribute_eq_ok h]
  induction levels with
  | nil => exact ⟨[], rfl⟩
  | cons l rest ih =>
      obtain ⟨tail, htail⟩ := ih fun l' hl' => hrates l' (List.mem_cons_of_mem _ hl')
      obtain ⟨h0, h1⟩ := hrates l List.mem_cons_self
      have hshare := bpsAmount_eq_ok.mpr ⟨hamount, h0, h1, rfl⟩
      unfold distribute
      cases chain[l.level]?.join with
      | none => exact ⟨tail, htail⟩
      | some beneficiary =>
          rw [hshare, htail]
          by_cases hle : floorShare BPS_DENOMINATOR amountCents l.rateBps ≤ 0
          · exact ⟨tail, by simp [hle, bind, Except.bind, pure, Except.pure]⟩
          · exact ⟨_, by simp only [hle, bind, Except.bind, pure, Except.pure]; rfl⟩

theorem computeCommissionLines_eq_ok {amountCents : Int} {levels : List PlanLevelRate}
    {chain : List (Option Uuid)} {lines : List CommissionLine}
    (h : computeCommissionLines amountCents levels chain = .ok lines) :
    lines = (levels.insertionSort byLevel).filterMap (lineAt amountCents chain) :=
  distribute_eq_ok h

end Refearn.Shared
