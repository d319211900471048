import Refearn.Campaigns.Proofs.Awards
import Refearn.Support.Ranking
import Mathlib.Algebra.BigOperators.Group.List.Basic
import Mathlib.Tactic
/-!
# Standings and the order of the groups

Scores and prizes belong to places, and the places have the same scores however the
database returns the groups. Who holds a place can depend on that order where another member
has the same score.
-/

namespace Refearn.Campaigns

open Support Support.Transaction Engine

variable {books : Books} {tenantId : Uuid} {c : Campaign}

/-! ## Places -/

/-- What a place says but for who holds it. -/
def Standing.place (s : Standing) : Nat × Int × Int := (s.rank, s.score, s.bonusCents)

namespace StandingsDemo

def asGrouped : GroupOrder := ⟨id, fun _ => .refl _⟩

def reversed : GroupOrder := ⟨List.reverse, fun _ => List.reverse_perm _⟩

end StandingsDemo

end Refearn.Campaigns
