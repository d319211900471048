import Refearn.Notifications.Relay
import Refearn.Ranks
import Refearn.Support.Runs
import Mathlib.Logic.Function.Basic
/-!
# Notifying of rank ups

`notifyRankUps`, one statement after another. Nothing locks the member between the reading of
`lastRankSortOrder` and its rewriting, nor keeps a second run from starting.
-/

namespace Refearn.Ranks

open Support
open Notifications (Message)

/-- `-1` for a member without a tier. -/
def currentSort (tier : Option Tier) : Int := (tier.map Tier.sortOrder).getD (-1)

/-- Where a run is: `queue` holds the members of the tenant that are still to come as they were
read, `tenants` the tenants after it. -/
inductive Phase
  | tenants (tenants : List Uuid)
  | members (tenantId : Uuid) (queue : List (Uuid × Option Int)) (tenants : List Uuid)
  | resolved (tenantId m : Uuid) (last : Option Int) (tier : Option Tier)
      (queue : List (Uuid × Option Int)) (tenants : List Uuid)
  | notified (tenantId m : Uuid) (last : Option Int) (tier : Tier)
      (queue : List (Uuid × Option Int)) (tenants : List Uuid)

/-- What a run finds out and does of a member. -/
inductive Event
  | saw (m : Uuid) (currentSort : Int)
  | notified (m : Uuid) (tier : Tier)
  deriving DecidableEq

/-- The rows of one `createMany`. -/
def Event.messages : Event → List Message
  | .saw _ _ => []
  | .notified m tier =>
      let payload := .obj [("rankName", .str tier.name)]
      [⟨some m, none, .email, "rank_up", payload⟩, ⟨some m, none, .inApp, "rank_up", payload⟩]

structure Notifier where
  registry : Registry
  rows : List LedgerEntry
  lastRank : Uuid → Option Int
  runs : List Phase
  /-- history -/
  events : List Event

namespace Notifier

variable (w : Notifier)

/-- The rows that the runs have written. -/
def messages : List Message := w.events.flatMap Event.messages

/-- Members are never deleted, so the update finds its row. -/
def write (m : Uuid) (sortOrder : Int) : Notifier :=
  { w with lastRank := Function.update w.lastRank m (some sortOrder) }

def record (event : Event) : Notifier := { w with events := w.events ++ [event] }

def activeMembers (tenantId : Uuid) : List (Uuid × Option Int) :=
  (w.registry.memberships.rows.filter fun m =>
    m.tenantId = tenantId ∧ m.status = .active).map fun m => (m.id, w.lastRank m.id)

/-- The next statement of a run; a run that has ended has no phase. -/
def advance : Phase → Option Phase × Notifier
  | .tenants [] => (none, w)
  | .tenants (t :: rest) => (some (.members t (w.activeMembers t) rest), w)
  | .members _ [] rest => (some (.tenants rest), w)
  | .members t ((m, last) :: queue) rest =>
      let tier := resolveTier w.registry w.rows t m
      (some (.resolved t m last tier queue rest), w.record (.saw m (currentSort tier)))
  | .resolved t m last tier queue rest =>
      match last with
      -- the first time the member is seen nothing is sent
      | none => (some (.members t queue rest), w.write m (currentSort tier))
      | some l =>
          match tier with
          | some reached =>
              if l < reached.sortOrder ∧ 1 ≤ reached.sortOrder then
                (some (.notified t m last reached queue rest), w.record (.notified m reached))
              else if reached.sortOrder ≠ l then
                (some (.members t queue rest), w.write m reached.sortOrder)
              else (some (.members t queue rest), w)
          | none =>
              if -1 ≠ l then (some (.members t queue rest), w.write m (-1))
              else (some (.members t queue rest), w)
  | .notified t m _ tier queue rest =>
      (some (.members t queue rest), w.write m tier.sortOrder)

end Notifier

inductive RankUpStep
  | start
  | advance (i : Nat)
  /-- the statement or the process fails -/
  | breakOff (i : Nat)
  /-- any other writes -/
  | change (registry : Registry) (rows : List LedgerEntry)

def RankUpStep.apply (step : RankUpStep) (w : Notifier) : Notifier :=
  match step with
  | .start =>
      { w with runs := w.runs ++ [.tenants (w.registry.tenants.rows.map (·.id))] }
  | .advance i =>
      match w.runs[i]? with
      | none => w
      | some phase =>
          match w.advance phase with
          | (none, w') => { w' with runs := w.runs.eraseIdx i }
          | (some phase', w') => { w' with runs := w.runs.set i phase' }
  | .breakOff i => { w with runs := w.runs.eraseIdx i }
  | .change registry rows => { w with registry, rows }

/-! ## What is promised -/

/-- Before a member is notified of a tier, every earlier notification of the member to a tier no
lower has been followed by a sight of the member below it. -/
def AscentsOnce (events : List Event) : Prop :=
  ∀ before m t after, events = before ++ .notified m t :: after →
    Answered (fun e => ∃ t', e = .notified m t' ∧ t.sortOrder ≤ t'.sortOrder)
      (fun e => ∃ s, e = .saw m s ∧ s < t.sortOrder) before

/-- The member has been notified and the new rank is not yet written. -/
def Phase.between : Phase → Bool
  | .notified .. => true
  | _ => false

/-- No run starts while another is under way, and none breaks off between a notification and the
update after it. -/
def OneAtATime (step : RankUpStep) (w : Notifier) : Prop :=
  match step with
  | .start => w.runs = []
  | .breakOff i => ∀ phase, w.runs[i]? = some phase → phase.between = false
  | _ => True

end Refearn.Ranks
