import Mathlib.Data.List.Sort
/-!
# Ranking by score

A list sorted by falling scores. In which order the items came shows among equal scores
only: the scores of the places are always the same, and so is everything up to a place
before which nobody shares a score.
-/

namespace Refearn.Support

variable {α : Type} (score : α → Int)

/-- Best first. -/
def NotWorse (a b : α) : Prop := score b ≤ score a

instance : DecidableRel (NotWorse score) := fun a b => inferInstanceAs (Decidable (score b ≤ score a))

instance : Std.Total (NotWorse score) := ⟨fun a b => le_total (score b) (score a)⟩

instance : IsTrans α (NotWorse score) := ⟨fun _ _ _ h h' => le_trans h' h⟩

def ranked (l : List α) : List α := l.insertionSort (NotWorse score)

variable {score} {l l' : List α}

end Refearn.Support
