import Refearn.Engine.Commissions
import Refearn.Auth.Invites
import Refearn.Shared.Plan
import Refearn.Support.IsoDate
import Refearn.Support.Timeline
/-!
# Plans

`plans.service.ts`: the plan in force, the simulator, and the versions that are written and never
changed again.
-/

namespace Refearn.Plans

open Support Support.Transaction
open Shared (PlanLevelRate CommissionLine BPS_DENOMINATOR CommissionPlanInput planIssues byLevel
  rateSum MAX_PLAN_DEPTH computeCommissionLines)

/-! ## The tables -/

/-- A row of `commission_plans` with its levels. -/
structure PlanRow where
  id : Uuid
  tenantId : Uuid
  version : Nat
  finalized : Bool
  name : String
  poolRateBps : Int
  depth : Nat
  fastStartBps : Int
  fastStartDays : Int
  matchingBps : Int
  effectiveFrom : Instant
  createdBy : Option Uuid
  createdAt : Instant
  levels : List CommissionPlanLevel
  deriving DecidableEq

/-- `@@unique([tenantId, effectiveFrom])` and `@@unique([tenantId, version])` -/
instance : Keyed PlanRow Uuid where
  key := PlanRow.id
  clash p q := p.tenantId == q.tenantId &&
    (p.effectiveFrom == q.effectiveFrom || p.version == q.version)

/-- What the engine reads of a row. -/
def PlanRow.forEngine (p : PlanRow) : CommissionPlan where
  id := p.id
  tenantId := p.tenantId
  version := p.version
  finalized := p.finalized
  poolRateBps := p.poolRateBps
  depth := p.depth
  fastStartBps := p.fastStartBps
  fastStartDays := p.fastStartDays
  matchingBps := p.matchingBps
  effectiveFrom := p.effectiveFrom
  levels := p.levels

/-- What an invite shows of a row. -/
def PlanRow.forInvites (p : PlanRow) : Auth.CommissionPlan where
  id := p.id
  tenantId := p.tenantId
  name := p.name
  poolRateBps := p.poolRateBps
  depth := p.depth
  effectiveFrom := p.effectiveFrom
  createdAt := p.createdAt

def enginePlans (plans : Table PlanRow) : Table CommissionPlan where
  rows := plans.rows.map PlanRow.forEngine
  keys_nodup := by
    rw [List.map_map]
    exact plans.keys_nodup
  no_clash := List.pairwise_map.mpr (plans.no_clash.imp fun _ => rfl)

def invitePlans (plans : Table PlanRow) : Table Auth.CommissionPlan where
  rows := plans.rows.map PlanRow.forInvites
  keys_nodup := by
    rw [List.map_map]
    exact plans.keys_nodup
  no_clash := List.pairwise_map.mpr (plans.no_clash.imp fun _ => rfl)

/-- What the service reads. The engine reads the same plans. -/
structure PlanTables where
  plans : Table PlanRow
  registry : Registry
  view : registry.plans = enginePlans plans

inductive PlanError
  | badRequest (message : String)
  | conflict (message : String)
  | rangeError (message : String)
  | uniqueViolation (target : String)
  | checkViolation (constraint : String)
  /-- A required relation of a row is missing. -/
  | inconsistentQueryResult

/-! ## The plan in force -/

/-- `ORDER BY effective_from DESC, version DESC`. -/
def newerRow (p q : PlanRow) : Prop :=
  q.effectiveFrom < p.effectiveFrom ∨ (q.effectiveFrom = p.effectiveFrom ∧ q.version ≤ p.version)

instance : DecidableRel newerRow := fun p q =>
  inferInstanceAs (Decidable
    (q.effectiveFrom < p.effectiveFrom ∨
      (q.effectiveFrom = p.effectiveFrom ∧ q.version ≤ p.version)))

def activePlan (plans : Table PlanRow) (tenantId : Uuid) (at_ : Instant) : Option PlanRow :=
  ((plans.rows.filter fun p =>
      (p.tenantId == tenantId && p.finalized) && decide (p.effectiveFrom ≤ at_)).insertionSort
    newerRow).head?

/-- The rates of a row in level order. -/
def levelRates (p : PlanRow) : List PlanLevelRate :=
  (p.levels.map fun l => ⟨l.level, l.rateBps⟩).insertionSort byLevel

structure MemberPlan where
  name : String
  poolRateBps : Int
  depth : Nat
  levels : List PlanLevelRate

/-- The rates of the plan in force, or nothing where there is none. -/
def memberPlan (plans : Table PlanRow) (tenantId : Uuid) (now : Instant) : Option MemberPlan :=
  (activePlan plans tenantId now).map fun p => ⟨p.name, p.poolRateBps, p.depth, levelRates p⟩

structure PlanBonus where
  planId : Option Uuid
  planName : Option String
  version : Option Nat
  fastStartBps : Int
  fastStartDays : Int
  matchingBps : Int

def getPlanBonus (plans : Table PlanRow) (tenantId : Uuid) (now : Instant) : PlanBonus :=
  match activePlan plans tenantId now with
  | none => ⟨none, none, none, 0, 0, 0⟩
  | some p =>
      ⟨some p.id, some p.name, some p.version, p.fastStartBps, p.fastStartDays, p.matchingBps⟩

/-! ## The simulator -/

structure SimulatePlanInput where
  amountCents : Int
  sellerMembershipId : Option Uuid
  deriving DecidableEq

/-- How the simulator shows a member. -/
structure Shown where
  name : String
  code : String
  deriving DecidableEq

/-- A membership with the name of its user. -/
structure SimulatedMember where
  id : Uuid
  sponsorMembershipId : Option Uuid
  shown : Shown
  deriving DecidableEq

/-- `select: { id, sponsorMembershipId, referralCode, user: { fullName } }` of a row found. -/
def selectMember (registry : Registry) (m : Membership) : Except PlanError SimulatedMember :=
  match registry.users.find? m.userId with
  | none => .error .inconsistentQueryResult
  | some user => .ok ⟨m.id, m.sponsorMembershipId, ⟨user.fullName, m.referralCode⟩⟩

def selectMember? (registry : Registry) :
    Option Membership → Except PlanError (Option SimulatedMember)
  | none => .ok none
  | some m => (selectMember registry m).map some

/-- The walk from the seller upward; each turn also reads the next member. -/
def simulatedChain (registry : Registry) :
    Nat → Option SimulatedMember → Except PlanError (List SimulatedMember)
  | 0, _ => .ok []
  | _ + 1, none => .ok []
  | turns + 1, some cur => do
      let next ← selectMember? registry (cur.sponsorMembershipId.bind registry.memberships.find?)
      let rest ← simulatedChain registry turns next
      pure (cur :: rest)

structure SimulatedLevel where
  level : Nat
  rateBps : Int
  amountCents : Int
  beneficiary : Option Shown
  retainedByCompany : Bool

structure PlanSimulation where
  planName : String
  poolRateBps : Int
  depth : Nat
  amountCents : Int
  levels : List SimulatedLevel
  distributedCents : Int
  companyKeepsCents : Int

/-- `nameById.get` -/
def nameById (members : List SimulatedMember) (id : Uuid) : Option Shown :=
  (members.reverse.find? fun m => m.id == id).map SimulatedMember.shown

/-- `byLevel.get` -/
def lineByLevel (lines : List CommissionLine) (level : Nat) : Option CommissionLine :=
  lines.reverse.find? fun line => line.level == level

/-- The row of one level. Without a seller it shows the full ladder. -/
def simulatedLevel (amountCents : Int) (noSeller : Bool) (members : List SimulatedMember)
    (lines : List CommissionLine) (l : PlanLevelRate) : SimulatedLevel :=
  let filledId := (members.map SimulatedMember.id)[l.level]?
  { level := l.level
    rateBps := l.rateBps
    amountCents :=
      if noSeller then (amountCents * l.rateBps).tdiv BPS_DENOMINATOR
      else ((lineByLevel lines l.level).map CommissionLine.amountCents).getD 0
    beneficiary := filledId.bind (nameById members)
    retainedByCompany := !noSeller && filledId.isNone }

/-- The members that the simulator walks for a seller. -/
def simulatedMembers (registry : Registry) (tenantId : Uuid) (depth : Nat) :
    Option Uuid → Except PlanError (List SimulatedMember)
  | none => .ok []
  | some sellerId => do
      let seller ← selectMember? registry
        ((registry.memberships.find? sellerId).filter fun m => m.tenantId == tenantId)
      simulatedChain registry (min depth 64) seller

def simulate (db : PlanTables) (now : Instant) (tenantId : Uuid) (input : SimulatePlanInput) :
    Except PlanError PlanSimulation :=
  match activePlan db.plans tenantId now with
  | none => .error (.badRequest "aktif komisyon plani yok")
  | some plan => do
      let members ← simulatedMembers db.registry tenantId plan.depth input.sellerMembershipId
      let lines ← (computeCommissionLines input.amountCents (levelRates plan)
        (members.map fun m => some m.id)).mapError .rangeError
      let noSeller := input.sellerMembershipId.isNone
      let rows := (levelRates plan).map (simulatedLevel input.amountCents noSeller members lines)
      let distributed :=
        if noSeller then (rows.map SimulatedLevel.amountCents).sum
        else (lines.map CommissionLine.amountCents).sum
      pure
        { planName := plan.name
          poolRateBps := plan.poolRateBps
          depth := plan.depth
          amountCents := input.amountCents
          levels := rows
          distributedCents := distributed
          companyKeepsCents := input.amountCents - distributed }

/-! ## New versions -/

/-- The plans of the database, with the clock and the identifiers to come. -/
structure PlanSession where
  plans : Table PlanRow
  auditLogs : List AuditLog
  clock : Nat → Instant
  uuids : Nat → Uuid

abbrev PlanTx := Transaction PlanSession PlanError

/-- `new Date()` -/
def newDate : PlanTx Instant := fun s =>
  .ok (s.clock 0, { s with clock := fun n => s.clock (n + 1) })

def genRandomUuid : PlanTx Uuid := fun s =>
  .ok (s.uuids 0, { s with uuids := fun n => s.uuids (n + 1) })

def readPlans : PlanTx (Table PlanRow) := fun s => .ok (s.plans, s)

def writePlans (plans : Table PlanRow) : PlanTx PUnit := modify fun s => { s with plans := plans }

structure ActorContext where
  userId : Option Uuid
  tenantId : Uuid
  deriving DecidableEq

structure PlanBonusInput where
  fastStartBps : Int
  fastStartDays : Int
  matchingBps : Int
  deriving DecidableEq

structure PlanSnapshotInput where
  name : String
  poolRateBps : Int
  depth : Nat
  levels : List PlanLevelRate
  bonus : PlanBonusInput

structure CreatePlanInput where
  plan : CommissionPlanInput
  fastStartBps : Option Int
  fastStartDays : Option Int
  matchingBps : Option Int
  effectiveFrom : Option Instant

def EFFECTIVE_FROM_UNIQUE_CONSTRAINT : String := "commission_plans_tenant_id_effective_from_key"

def EFFECTIVE_FROM_CONFLICT_MESSAGE : String := "bu effectiveFrom degeri icin bir plan zaten var"

/-- A plan of the tenant, sealed or not, starts at this instant. -/
def startsAt (plans : Table PlanRow) (tenantId : Uuid) (t : Instant) : Bool :=
  plans.rows.any fun p => p.tenantId == tenantId && p.effectiveFrom == t

/-- `_max.version ?? 0` -/
def maxVersion (plans : Table PlanRow) (tenantId : Uuid) : Nat :=
  ((plans.rows.filter fun p => p.tenantId == tenantId).map PlanRow.version).foldr max 0

/-- The first instant from `candidate` on where no plan of the tenant starts. -/
def nextFreeInstant (plans : Table PlanRow) (tenantId : Uuid) (candidate : Instant) : Instant :=
  firstFree (startsAt plans tenantId) plans.rows.length candidate

def nextImmediateEffectiveFrom (tenantId : Uuid) : PlanTx Instant := do
  let candidate ← newDate
  let plans ← readPlans
  pure (nextFreeInstant plans tenantId candidate)

def createLevels : List PlanLevelRate → PlanTx (List CommissionPlanLevel)
  | [] => pure []
  | l :: rest => do
      let id ← genRandomUuid
      let levels ← createLevels rest
      pure (⟨id, l.level, l.rateBps⟩ :: levels)

/-- The trigger that lets a plan be sealed: its levels are `0 .. depth - 1`. -/
def levelsComplete (p : PlanRow) : Prop :=
  p.levels.length = p.depth ∧
    ∀ level ∈ List.range p.depth, ∃ l ∈ p.levels, l.level = level

instance (p : PlanRow) : Decidable (levelsComplete p) :=
  inferInstanceAs (Decidable (_ ∧ ∀ level ∈ List.range p.depth, ∃ l ∈ p.levels, l.level = level))

/-- `chk_pool_rate_bps`, `chk_plan_depth`, `chk_rate_bps` and `chk_level_range` -/
def withinChecks (p : PlanRow) : Prop :=
  (0 ≤ p.poolRateBps ∧ p.poolRateBps ≤ BPS_DENOMINATOR) ∧ (1 ≤ p.depth ∧ p.depth ≤ 8) ∧
    ∀ l ∈ p.levels, (0 ≤ l.rateBps ∧ l.rateBps ≤ BPS_DENOMINATOR) ∧ l.level ≤ 7

instance (p : PlanRow) : Decidable (withinChecks p) :=
  inferInstanceAs (Decidable (_ ∧ _ ∧ ∀ l ∈ p.levels, _))

/-- `INSERT` of a row that is not sealed yet. -/
def createPlan (row : PlanRow) : PlanTx PUnit := do
  let plans ← readPlans
  require (withinChecks row) (.checkViolation "commission_plans")
  require (row.levels.map CommissionPlanLevel.level).Nodup
    (.uniqueViolation "commission_plan_levels_plan_id_level_key")
  require (startsAt plans row.tenantId row.effectiveFrom = false)
    (.uniqueViolation EFFECTIVE_FROM_UNIQUE_CONSTRAINT)
  let inserted ← orThrow (plans.insert? row) (.uniqueViolation "commission_plans")
  writePlans inserted

def markFinalized (p : PlanRow) : PlanRow := { p with finalized := true }

theorem markFinalized_keepsIndexes : KeepsIndexes markFinalized :=
  ⟨fun _ => rfl, fun _ _ h => h, fun _ _ h => h⟩

def finalizePlan (row : PlanRow) : PlanTx PUnit := do
  let plans ← readPlans
  require (levelsComplete row) (.checkViolation
    "commission plan snapshot cannot be finalized before levels 0..depth-1 are complete")
  writePlans (plans.updateKey row.id markFinalized markFinalized_keepsIndexes)

/-- The `after` of the audit row. -/
def planJson (p : PlanRow) : Json :=
  .obj
    [("version", .num p.version), ("name", .str p.name), ("poolRateBps", .num p.poolRateBps),
      ("depth", .num p.depth), ("fastStartBps", .num p.fastStartBps),
      ("fastStartDays", .num p.fastStartDays), ("matchingBps", .num p.matchingBps),
      ("effectiveFrom", .str (String.ofList (IsoDate.toISOString p.effectiveFrom))),
      ("levels", .arr ((levelRates p).map fun l =>
        .obj [("level", .num l.level), ("rateBps", .num l.rateBps)]))]

def auditPlan (actor : ActorContext) (action : String) (p : PlanRow) : PlanTx PUnit :=
  modify fun s =>
    { s with
      auditLogs := s.auditLogs ++
        [⟨actor.tenantId, actor.userId, action, p.id, .null, planJson p⟩] }

/-- `isEffectiveFromUniqueConflict` turns into the conflict that the caller sees. -/
def renameConflict : PlanError → PlanError
  | .uniqueViolation target =>
      if target = EFFECTIVE_FROM_UNIQUE_CONSTRAINT then .conflict EFFECTIVE_FROM_CONFLICT_MESSAGE
      else .uniqueViolation target
  | e => e

/-- The transaction under the tenant's lock. -/
def insertVersion (actor : ActorContext) (requestedEffectiveFrom : Option Instant)
    (snapshot : PlanTx PlanSnapshotInput) (auditAction : String) : PlanTx PlanRow := do
  let plans ← readPlans
  let version := maxVersion plans actor.tenantId + 1
  let effectiveFrom ← match requestedEffectiveFrom with
    | some t => pure t
    | none => nextImmediateEffectiveFrom actor.tenantId
  let data ← snapshot
  let id ← genRandomUuid
  let createdAt ← newDate
  let levels ← createLevels data.levels
  let row : PlanRow :=
    { id := id, tenantId := actor.tenantId, version := version, finalized := false
      name := data.name, poolRateBps := data.poolRateBps, depth := data.depth
      fastStartBps := data.bonus.fastStartBps, fastStartDays := data.bonus.fastStartDays
      matchingBps := data.bonus.matchingBps, effectiveFrom := effectiveFrom
      createdBy := actor.userId, createdAt := createdAt, levels := levels }
  createPlan row
  finalizePlan row
  auditPlan actor auditAction row
  -- the deferred trigger `trg_check_plan_level_rates`
  require (rateSum (levelRates row) ≤ row.poolRateBps)
    (.checkViolation "trg_check_plan_level_rates")
  pure row

def createImmutableVersion (actor : ActorContext) (requestedEffectiveFrom : Option Instant)
    (snapshot : PlanTx PlanSnapshotInput) (auditAction : String) : PlanTx PlanRow :=
  mapErrors renameConflict (insertVersion actor requestedEffectiveFrom snapshot auditAction)

def createVersion (tooBig : Nat → String) (actor : ActorContext) (input : CreatePlanInput) :
    PlanTx (Uuid × Nat × Instant) :=
  match planIssues tooBig input.plan with
  | issue :: _ => throw (.badRequest issue)
  | [] => do
      let plan ← createImmutableVersion actor input.effectiveFrom
        (pure
          { name := input.plan.name, poolRateBps := input.plan.poolRateBps
            depth := input.plan.depth, levels := input.plan.levels
            bonus := ⟨input.fastStartBps.getD 0, input.fastStartDays.getD 0,
              input.matchingBps.getD 0⟩ })
        "plan.create_version"
      pure (plan.id, plan.version, plan.effectiveFrom)

/-- What `createBonusVersion` copies: the plan in force by a clock reading of its own. -/
def bonusSnapshot (actor : ActorContext) (input : PlanBonusInput) : PlanTx PlanSnapshotInput := do
  let now ← newDate
  let plans ← readPlans
  let active ← orThrow (activePlan plans actor.tenantId now) (.badRequest "aktif plan yok")
  pure
    { name := active.name, poolRateBps := active.poolRateBps, depth := active.depth
      levels := levelRates active, bonus := input }

def createBonusVersion (actor : ActorContext) (input : PlanBonusInput) : PlanTx PlanBonus := do
  let plan ← createImmutableVersion actor none (bonusSnapshot actor input) "plan.update_bonus"
  pure
    ⟨some plan.id, some plan.name, some plan.version, plan.fastStartBps, plan.fastStartDays,
      plan.matchingBps⟩

end Refearn.Plans
