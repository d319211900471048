import Mathlib.Data.List.MinMax
import Mathlib.Data.List.Sort
import Mathlib.Data.List.NodupEquivFin
import Mathlib.Order.Interval.Set.Basic
/-!
# Entries on a line

Entries that start at points of a line, no two at one point. What is in force at a point is the
entry that started last, and every order that puts later starts first agrees on it, whatever it
does with ties. Counting up from a point finds the first one where nothing starts.
-/

namespace Refearn.Support

/-! ## What is in force -/

section InForce

variable {α β : Type} [LinearOrder β]

/-- The entry that started last among those started at or before a point. -/
def InForce (start : α → β) (entries : List α) (at_ : β) (x : α) : Prop :=
  x ∈ entries ∧ start x ≤ at_ ∧ ∀ y ∈ entries, start y ≤ at_ → start y ≤ start x

variable {start : α → β} {entries : List α} {t t' : β} {x y : α}

theorem InForce.unique (hx : InForce start entries t x) (hy : InForce start entries t y)
    (hinj : ∀ x ∈ entries, ∀ y ∈ entries, start x = start y → x = y) : x = y := by
  have hle : start x ≤ start y := hy.2.2 x hx.1 hx.2.1
  have hge : start y ≤ start x := hx.2.2 y hy.1 hy.2.1
  exact hinj x hx.1 y hy.1 (le_antisymm hle hge)

/-- Once an entry has started, one is in force. -/
theorem exists_inForce (hx : x ∈ entries) (hstarted : start x ≤ t) :
    ∃ y, InForce start entries t y := by
  have hkept : x ∈ entries.filter fun y => decide (start y ≤ t) :=
    List.mem_filter.mpr ⟨hx, decide_eq_true hstarted⟩
  cases hlast : (entries.filter fun y => decide (start y ≤ t)).argmax start with
  | none =>
      rw [List.argmax_eq_none.mp hlast] at hkept
      cases hkept
  | some y =>
      obtain ⟨hy, hy'⟩ := List.mem_filter.mp (List.argmax_mem hlast)
      exact ⟨y, hy, of_decide_eq_true hy', fun z hz hz' =>
        List.le_of_mem_argmax (List.mem_filter.mpr ⟨hz, decide_eq_true hz'⟩) hlast⟩

/-- What is in force at a later point was in force earlier, if it had started by then. -/
theorem InForce.earlier (h : InForce start entries t' x) (ht : t ≤ t') (hx : start x ≤ t) :
    InForce start entries t x :=
  ⟨h.1, hx, fun y hy hstarted => h.2.2 y hy (le_trans hstarted ht)⟩

variable (r : α → α → Prop) [DecidableRel r] [Std.Total r] [IsTrans α r]

/-- The head of a list that is sorted by later starts first is the last to start. -/
theorem head?_insertionSort_eq_some (hr : ∀ x y, r x y → start y ≤ start x)
    (hinj : ∀ x ∈ entries, ∀ y ∈ entries, start x = start y → x = y) :
    (entries.insertionSort r).head? = some x ↔
      x ∈ entries ∧ ∀ y ∈ entries, start y ≤ start x := by
  have hperm : (entries.insertionSort r).Perm entries := List.perm_insertionSort r entries
  have hsorted : (entries.insertionSort r).Pairwise r := List.pairwise_insertionSort r entries
  have hhead : ∀ {z}, (entries.insertionSort r).head? = some z →
      z ∈ entries ∧ ∀ y ∈ entries, start y ≤ start z := by
    intro z hz
    cases hlist : entries.insertionSort r with
    | nil =>
        rw [hlist] at hz
        cases hz
    | cons first rest =>
        rw [hlist] at hz hperm hsorted
        cases hz
        refine ⟨hperm.mem_iff.mp List.mem_cons_self, fun y hy => ?_⟩
        rcases List.mem_cons.mp (hperm.mem_iff.mpr hy) with heq | hmem
        · rw [heq]
        · exact hr _ y ((List.pairwise_cons.mp hsorted).1 y hmem)
  constructor
  · exact hhead
  · rintro ⟨hx, hlast⟩
    cases hz : (entries.insertionSort r).head? with
    | none =>
        have hnil : entries.insertionSort r = [] := List.head?_eq_none_iff.mp hz
        rw [hnil] at hperm
        exact absurd (hperm.mem_iff.mpr hx) List.not_mem_nil
    | some z =>
        obtain ⟨hmem, hmax⟩ := hhead hz
        rw [hinj z hmem x hx (le_antisymm (hlast z hmem) (hmax x hx))]

/-- Picking the head of the sorted entries that have started finds what is in force. -/
theorem head?_started_eq_some (hr : ∀ x y, r x y → start y ≤ start x) (p : α → Bool)
    (hinj : ∀ x ∈ entries.filter p, ∀ y ∈ entries.filter p, start x = start y → x = y) (t : β) :
    ((entries.filter fun x => p x && decide (start x ≤ t)).insertionSort r).head? = some x ↔
      InForce start (entries.filter p) t x := by
  have hsplit : (entries.filter fun x => p x && decide (start x ≤ t)) =
      (entries.filter p).filter fun x => decide (start x ≤ t) := by
    rw [List.filter_filter]
    exact List.filter_congr fun x _ => Bool.and_comm _ _
  rw [hsplit, head?_insertionSort_eq_some r hr fun x hx y hy =>
    hinj x (List.mem_of_mem_filter hx) y (List.mem_of_mem_filter hy)]
  constructor
  · rintro ⟨hx, hlast⟩
    obtain ⟨hmem, hstarted⟩ := List.mem_filter.mp hx
    exact ⟨hmem, of_decide_eq_true hstarted,
      fun y hy hy' => hlast y (List.mem_filter.mpr ⟨hy, decide_eq_true hy'⟩)⟩
  · rintro ⟨hmem, hstarted, hlast⟩
    refine ⟨List.mem_filter.mpr ⟨hmem, decide_eq_true hstarted⟩, fun y hy => ?_⟩
    obtain ⟨hy, hy'⟩ := List.mem_filter.mp hy
    exact hlast y hy (of_decide_eq_true hy')

end InForce

/-- Picking from a view of the entries picks the view of the entry. -/
theorem head?_insertionSort_view {α β : Type} (f : α → β) (r : α → α → Prop)
    {s : β → β → Prop} [DecidableRel r] [DecidableRel s] (hrs : ∀ x y, r x y ↔ s (f x) (f y))
    {p : α → Bool} {q : β → Bool} (hpq : ∀ x, q (f x) = p x) (entries : List α) :
    (((entries.map f).filter q).insertionSort s).head? =
      ((entries.filter p).insertionSort r).head?.map f := by
  have hfilter : (entries.map f).filter q = (entries.filter p).map f := by
    rw [List.filter_map]
    exact congrArg (List.map f) (List.filter_congr fun x _ => hpq x)
  rw [hfilter, ← List.map_insertionSort r s f _ fun x _ y _ => hrs x y, List.head?_map]

/-! ## The first free point -/

/-- Count up from `start` past the points that are taken. -/
def firstFree (taken : Int → Bool) : Nat → Int → Int
  | 0, start => start
  | fuel + 1, start => if taken start then firstFree taken fuel (start + 1) else start

section FirstFree

variable (taken : Int → Bool)

theorem le_firstFree (fuel : Nat) (start : Int) : start ≤ firstFree taken fuel start := by
  induction fuel generalizing start with
  | zero => exact le_rfl
  | succ fuel ih =>
      unfold firstFree
      split_ifs with htaken
      · have hrest := ih (start + 1)
        omega
      · exact le_rfl

theorem taken_of_lt_firstFree {fuel : Nat} {start t : Int} (hstart : start ≤ t)
    (ht : t < firstFree taken fuel start) : taken t = true := by
  induction fuel generalizing start with
  | zero =>
      unfold firstFree at ht
      omega
  | succ fuel ih =>
      unfold firstFree at ht
      split_ifs at ht with htaken
      · by_cases heq : t = start
        · rw [heq]
          exact htaken
        · exact ih (by omega) ht
      · omega

/-- A count that stops at a taken point has run out of fuel. -/
theorem firstFree_eq_of_taken {fuel : Nat} {start : Int}
    (h : taken (firstFree taken fuel start) = true) :
    firstFree taken fuel start = start + fuel := by
  induction fuel generalizing start with
  | zero =>
      unfold firstFree
      omega
  | succ fuel ih =>
      unfold firstFree at h ⊢
      split_ifs at h ⊢ with htaken
      · rw [ih h]
        push_cast
        omega
      · exact absurd h htaken

/-- With as much fuel as there are taken points, the count ends at a free one. -/
theorem firstFree_not_taken {points : List Int} (hpoints : ∀ t, taken t = true → t ∈ points)
    (start : Int) : taken (firstFree taken points.length start) = false := by
  by_contra h
  have htaken : taken (firstFree taken points.length start) = true := Bool.of_not_eq_false h
  have hend := firstFree_eq_of_taken taken htaken
  have hall : ∀ i ∈ List.range (points.length + 1), start + (i : Int) ∈ points := by
    intro i hi
    have hle : i ≤ points.length := Nat.lt_succ_iff.mp (List.mem_range.mp hi)
    refine hpoints _ ?_
    by_cases hlast : i = points.length
    · rw [hlast, ← hend]
      exact htaken
    · have hbefore : start + (i : Int) < firstFree taken points.length start := by omega
      exact taken_of_lt_firstFree taken (by omega) hbefore
  have hnodup : ((List.range (points.length + 1)).map fun i : Nat => start + (i : Int)).Nodup :=
    List.nodup_range.map fun i j hij => by
      have hsum : start + (i : Int) = start + (j : Int) := hij
      omega
  have hsubset : ((List.range (points.length + 1)).map fun i : Nat => start + (i : Int)) ⊆
      points := by
    intro t ht
    obtain ⟨i, hi, rfl⟩ := List.mem_map.mp ht
    exact hall i hi
  have hlength := (List.subperm_of_subset hnodup hsubset).length_le
  rw [List.length_map, List.length_range] at hlength
  omega

end FirstFree

end Refearn.Support
