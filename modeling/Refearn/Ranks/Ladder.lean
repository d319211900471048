import Refearn.Ranks
import Refearn.Support.JsText
import Refearn.Support.Runs
/-!
# The ladder of a tenant

`ranks.controller.ts` and `ranks.service.ts`: how administrators write the tiers, in which orders
they are read, and what `memberRank` displays of them.
-/

namespace Refearn.Ranks

open Support

/-! ## Administration -/

structure TierInput where
  name : String
  sortOrder : Int
  minTeam : Int
  minEarningsCents : Int
  overrideBps : Option Int

structure TierUpdate where
  name : Option String
  sortOrder : Option Int
  minTeam : Option Int
  minEarningsCents : Option Int
  overrideBps : Option Int

/-- The limits of `tierSchema`, of each field. -/
def validName (name : String) : Bool :=
  1 ≤ utf16Length (trim name) && utf16Length (trim name) ≤ 40
def validSortOrder (n : Int) : Bool := 0 ≤ n && n ≤ 100
def validMinTeam (n : Int) : Bool := 0 ≤ n && n ≤ 1000000
def validMinEarnings (n : Int) : Bool := 0 ≤ n
def validOverride (n : Int) : Bool := 0 ≤ n && n ≤ 10000

def tierSchema (input : TierInput) : Bool :=
  validName input.name && validSortOrder input.sortOrder && validMinTeam input.minTeam &&
    validMinEarnings input.minEarningsCents && input.overrideBps.all validOverride

def tierUpdateSchema (input : TierUpdate) : Bool :=
  input.name.all validName && input.sortOrder.all validSortOrder &&
    input.minTeam.all validMinTeam && input.minEarningsCents.all validMinEarnings &&
    input.overrideBps.all validOverride

inductive RankError
  | validation
  | notFound (message : String)
  deriving DecidableEq

def RANK_NOT_FOUND : RankError := .notFound "rutbe bulunamadi"

/-- `id` is the row's default. -/
def create (tenantId id : Uuid) (input : TierInput) (tiers : Table RankTier) :
    Except RankError (Table RankTier) :=
  if ¬ tierSchema input then .error .validation
  else
    .ok ((tiers.insert? ⟨id, tenantId, trim input.name, input.sortOrder, input.minTeam,
      input.minEarningsCents, input.overrideBps.getD 0⟩).getD tiers)

def rewriteTier (input : TierUpdate) (t : RankTier) : RankTier :=
  { t with
    name := (input.name.map trim).getD t.name
    sortOrder := input.sortOrder.getD t.sortOrder
    minTeam := input.minTeam.getD t.minTeam
    minEarningsCents := input.minEarningsCents.getD t.minEarningsCents
    overrideBps := input.overrideBps.getD t.overrideBps }

theorem rewriteTier_keepsIndexes (input : TierUpdate) : KeepsIndexes (rewriteTier input) :=
  ⟨fun _ => rfl, fun _ _ h => h, fun _ _ h => h⟩

def update (tenantId id : Uuid) (input : TierUpdate) (tiers : Table RankTier) :
    Except RankError (Table RankTier) :=
  if ¬ tierUpdateSchema input then .error .validation
  else
    match (tiers.find? id).filter (·.tenantId = tenantId) with
    | none => .error RANK_NOT_FOUND
    | some _ => .ok (tiers.updateKey id (rewriteTier input) (rewriteTier_keepsIndexes input))

def remove (tenantId id : Uuid) (tiers : Table RankTier) : Except RankError (Table RankTier) :=
  match (tiers.find? id).filter (·.tenantId = tenantId) with
  | none => .error RANK_NOT_FOUND
  | some _ => .ok (tiers.filter (·.id ≠ id))

inductive LadderStep
  | create (tenantId id : Uuid) (input : TierInput)
  | update (tenantId id : Uuid) (input : TierUpdate)
  | remove (tenantId id : Uuid)

/-- A refused request leaves the tiers as they are. -/
def LadderStep.apply (step : LadderStep) (tiers : Table RankTier) : Table RankTier :=
  (match step with
    | .create tenantId id input => Ranks.create tenantId id input tiers
    | .update tenantId id input => Ranks.update tenantId id input tiers
    | .remove tenantId id => Ranks.remove tenantId id tiers).toOption.getD tiers

/-! ## Reading -/

def tierOf (t : RankTier) : Tier :=
  ⟨t.name, t.sortOrder, t.minTeam, t.minEarningsCents, t.overrideBps⟩

/-- What a reading of the ladder may give: tiers of one `sortOrder` come in any order. -/
def ReadsAs (table : Table RankTier) (tenantId : Uuid) (tiers : List Tier) : Prop :=
  if table.rows.filter (·.tenantId = tenantId) = [] then tiers = DEFAULT_TIERS
  else
    tiers.Perm ((table.rows.filter (·.tenantId = tenantId)).map tierOf) ∧
      tiers.Pairwise fun t t' => t.sortOrder ≤ t'.sortOrder

/-! ## What is displayed -/

/-- The index of the last tier whose thresholds are met, or `-1`. -/
def currentIdx (tiers : List Tier) (teamSize earnings : Int) : Int :=
  tiers.zipIdx.foldl (fun idx e =>
    if e.1.minTeam ≤ teamSize ∧ e.1.minEarningsCents ≤ earnings then (e.2 : Int) else idx) (-1)

def displayedTier (tiers : List Tier) (teamSize earnings : Int) : Option Tier :=
  let idx := currentIdx tiers teamSize earnings
  if 0 ≤ idx then tiers[idx.toNat]? else none

def nextTier (tiers : List Tier) (teamSize earnings : Int) : Option Tier :=
  tiers[(currentIdx tiers teamSize earnings + 1).toNat]?

structure Progress where
  teamPct : Int
  earningsPct : Int
  deriving DecidableEq

structure Badge where
  key : String
  label : String
  earned : Bool
  deriving DecidableEq

structure RankView where
  current : Option String
  next : Option String
  overrideBps : Int
  teamSize : Int
  earningsCents : String
  progress : Option Progress
  overallPct : Int
  badges : List Badge

/-- `percent a b` is `Math.min(100, Math.round((a / b) * 100))`. -/
def progressTo (percent : Int → Int → Int) (teamSize earnings : Int) (next : Tier) : Progress where
  teamPct := if 0 < next.minTeam then percent teamSize next.minTeam else 100
  earningsPct :=
    if 0 < next.minEarningsCents then percent earnings next.minEarningsCents else 100

def memberRank (percent : Int → Int → Int) (registry : Registry) (rows : List LedgerEntry)
    (sales : List Sale) (tenantId membershipId : Uuid) : Except RankError RankView :=
  match (registry.memberships.find? membershipId).filter (·.tenantId = tenantId) with
  | none => .error (.notFound "uyelik bulunamadi")
  | some me =>
      let size := teamSize registry tenantId membershipId me.path
      let earned := earnings rows tenantId membershipId
      let directs := registry.memberships.rows.countP fun m =>
        m.tenantId = tenantId ∧ m.sponsorMembershipId = some membershipId
      let salesCount := sales.countP fun s =>
        s.tenantId = tenantId ∧ s.sellerMembershipId = membershipId
      let tiers := effectiveTiers registry tenantId
      let current := displayedTier tiers size earned
      let next := nextTier tiers size earned
      let progress := next.map (progressTo percent size earned)
      .ok {
        current := current.map Tier.name
        next := next.map Tier.name
        overrideBps := (current.map Tier.overrideBps).getD 0
        teamSize := size
        earningsCents := toString earned
        progress
        overallPct := (progress.map fun p => min p.teamPct p.earningsPct).getD 100
        badges := [
          ⟨"first_sale", "First sale", 0 < salesCount⟩,
          ⟨"first_recruit", "First recruit", 0 < directs⟩,
          ⟨"team_5", "Team of 5", 5 ≤ size⟩,
          ⟨"earned_10k", "$10K earned", 1000000 ≤ earned⟩] }

end Refearn.Ranks
