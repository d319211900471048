import Mathlib.Data.List.Range
/-!
# Versioned registers

A register keeps its writes, oldest first. A write names the version on which it is based, which
is the number of writes before it, so a writer that has not seen the last one is turned away.
-/

namespace Refearn.Support

variable {α : Type} {named : α → Nat}

/-- Writes of which each names the number of those before it. -/
structure Register (α : Type) (named : α → Nat) where
  writes : List α
  consecutive : writes.map named = List.range writes.length

namespace Register

@[ext] theorem ext {x y : Register α named} (h : x.writes = y.writes) : x = y := by
  cases x
  cases y
  congr

def empty : Register α named := ⟨[], rfl⟩

def version (x : Register α named) : Nat := x.writes.length

def current (x : Register α named) : Option α := x.writes.getLast?

/-- A write on the version it names, or nothing. -/
def write? (x : Register α named) (a : α) : Option (Register α named) :=
  if h : named a = x.version then
    some
      { writes := x.writes ++ [a]
        consecutive := by
          rw [List.map_append, x.consecutive, List.length_append, List.length_singleton,
            List.range_succ, List.map_singleton, h]
          rfl }
  else none

theorem write?_eq_some {x y : Register α named} {a : α} :
    x.write? a = some y ↔ named a = x.version ∧ y.writes = x.writes ++ [a] := by
  unfold write?
  split_ifs with h
  · constructor
    · intro heq
      cases heq
      exact ⟨h, rfl⟩
    · exact fun hy => congrArg some (ext hy.2.symm)
  · exact ⟨nofun, fun hy => absurd hy.1 h⟩

theorem exists_write? {x : Register α named} {a : α} (h : named a = x.version) :
    ∃ y, x.write? a = some y :=
  ⟨_, dif_pos h⟩

theorem write?_eq_none {x : Register α named} {a : α} :
    x.write? a = none ↔ named a ≠ x.version := by
  unfold write?
  split_ifs with h
  · exact ⟨nofun, fun hne => absurd h hne⟩
  · exact ⟨fun _ => h, fun _ => rfl⟩

@[simp] theorem version_empty : (empty : Register α named).version = 0 := rfl

@[simp] theorem current_empty : (empty : Register α named).current = none := rfl

theorem current_of_write? {x y : Register α named} {a : α} (h : x.write? a = some y) :
    y.current = some a := by
  unfold current
  rw [(write?_eq_some.mp h).2, List.getLast?_concat]

theorem version_of_write? {x y : Register α named} {a : α} (h : x.write? a = some y) :
    y.version = x.version + 1 := by
  unfold version
  rw [(write?_eq_some.mp h).2, List.length_append, List.length_singleton]

/-- The last write named the version before the present one. -/
theorem version_of_current {x : Register α named} {a : α} (h : x.current = some a) :
    x.version = named a + 1 := by
  unfold current at h
  obtain ⟨before, hbefore⟩ := List.getLast?_eq_some_iff.mp h
  have hnames := x.consecutive
  rw [hbefore, List.map_append, List.map_singleton, List.length_append, List.length_singleton,
    List.range_succ] at hnames
  have hlast := List.append_inj_right' hnames rfl
  have hnamed : named a = before.length := List.head_eq_of_cons_eq hlast
  unfold version
  rw [hbefore, hnamed, List.length_append, List.length_singleton]

theorem version_of_current_none {x : Register α named} (h : x.current = none) :
    x.version = 0 := by
  have hnil : x.writes = [] := List.getLast?_eq_none_iff.mp h
  unfold version
  rw [hnil]
  rfl

/-- The versions that the writes have made, without gaps and repeats. -/
theorem versions_made (x : Register α named) :
    x.writes.map (fun a => named a + 1) = List.range' 1 x.version := by
  have hmap : x.writes.map (fun a => named a + 1) = (x.writes.map named).map (1 + ·) := by
    rw [List.map_map]
    exact List.map_congr_left fun a _ => Nat.add_comm (named a) 1
  rw [hmap, x.consecutive, List.range_eq_range', List.map_add_range']
  rfl

end Register

end Refearn.Support
