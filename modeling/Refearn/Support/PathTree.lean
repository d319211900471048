import Mathlib.Logic.Relation
import Mathlib.Data.List.Basic
import Mathlib.Data.List.Infix
/-!
# Trees with materialised paths

A forest whose nodes know their parents, and in which each node carries a path: the path of its
parent with its own label at the end. Where labels tell nodes apart, the links cannot run in
a circle, and one path is a prefix of another exactly if links lead from the second node to the
first.
-/

namespace Refearn.Support

variable {α κ : Type}

/-- One link upward. -/
def LinkedTo (parent : α → Option α) (m p : α) : Prop := parent m = some p

/-- The nodes above a node, itself first, up to a root. -/
inductive Upline (parent : α → Option α) : α → List α → Prop
  | root {m : α} (h : parent m = none) : Upline parent m [m]
  | child {m p : α} {chain : List α} (h : parent m = some p) (hp : Upline parent p chain) :
      Upline parent m (m :: chain)

/-- Paths that follow the links. -/
structure PathTree (nodes : α → Prop) (parent : α → Option α) (label : α → κ)
    (path : α → List κ) : Prop where
  parent_mem {m p : α} (hm : nodes m) (h : parent m = some p) : nodes p
  path_root {m : α} (hm : nodes m) (h : parent m = none) : path m = [label m]
  path_child {m p : α} (hm : nodes m) (h : parent m = some p) : path m = path p ++ [label m]
  label_inj {m m' : α} (hm : nodes m) (hm' : nodes m') (h : label m = label m') : m = m'

section Upline

variable {parent : α → Option α} {m a : α} {chain chain' : List α}

theorem Upline.unique (h : Upline parent m chain) (h' : Upline parent m chain') :
    chain = chain' := by
  induction h generalizing chain' with
  | root hroot =>
      cases h' with
      | root _ => rfl
      | child hparent _ =>
          rw [hroot] at hparent
          cases hparent
  | child hparent _ ih =>
      cases h' with
      | root hroot =>
          rw [hroot] at hparent
          cases hparent
      | child hparent' hp' =>
          rw [hparent] at hparent'
          cases hparent'
          rw [ih hp']

/-- The upline lists what the links lead to. -/
theorem Upline.mem_iff (h : Upline parent m chain) :
    a ∈ chain ↔ Relation.ReflTransGen (LinkedTo parent) m a := by
  induction h with
  | @root m hroot =>
      constructor
      · intro ha
        rw [List.mem_singleton.mp ha]
      · intro hreach
        rcases Relation.ReflTransGen.cases_head hreach with heq | ⟨p, hlink, -⟩
        · rw [heq]
          exact List.mem_singleton_self a
        · unfold LinkedTo at hlink
          rw [hroot] at hlink
          cases hlink
  | @child m p chain hparent hp ih =>
      constructor
      · intro ha
        rcases List.mem_cons.mp ha with heq | ha
        · rw [heq]
        · have hfirst : LinkedTo parent m p := hparent
          exact Relation.ReflTransGen.head hfirst (ih.mp ha)
      · intro hreach
        rcases Relation.ReflTransGen.cases_head hreach with heq | ⟨q, hlink, hrest⟩
        · rw [heq]
          exact List.mem_cons_self
        · unfold LinkedTo at hlink
          rw [hparent] at hlink
          cases hlink
          exact List.mem_cons_of_mem _ (ih.mpr hrest)

end Upline

namespace PathTree

variable {nodes : α → Prop} {parent : α → Option α} {label : α → κ} {path : α → List κ}
  {m p a : α} {chain : List α}

theorem reach_mem (t : PathTree nodes parent label path) (hm : nodes m)
    (h : Relation.ReflTransGen (LinkedTo parent) m a) : nodes a := by
  induction h with
  | refl => exact hm
  | tail _ hlink ih => exact t.parent_mem ih hlink

theorem length_child (t : PathTree nodes parent label path) (hm : nodes m)
    (h : parent m = some p) : (path m).length = (path p).length + 1 := by
  rw [t.path_child hm h, List.length_append, List.length_singleton]

theorem label_mem_path (t : PathTree nodes parent label path) (hm : nodes m) :
    label m ∈ path m := by
  cases hparent : parent m with
  | none =>
      rw [t.path_root hm hparent]
      exact List.mem_singleton_self _
  | some p =>
      rw [t.path_child hm hparent]
      exact List.mem_append_right _ (List.mem_singleton_self _)

/-- Links shorten the path, so each node has an upline. -/
theorem exists_upline (t : PathTree nodes parent label path) (hm : nodes m) :
    ∃ chain, Upline parent m chain := by
  generalize hlength : (path m).length = n
  induction n generalizing m with
  | zero =>
      have hmem := t.label_mem_path hm
      rw [List.length_eq_zero_iff.mp hlength] at hmem
      exact absurd hmem List.not_mem_nil
  | succ n ih =>
      cases hparent : parent m with
      | none => exact ⟨[m], .root hparent⟩
      | some p =>
          have hshorter := t.length_child hm hparent
          have hp : (path p).length = n := by omega
          obtain ⟨chain, hchain⟩ := ih (t.parent_mem hm hparent) hp
          exact ⟨m :: chain, .child hparent hchain⟩

/-- The path spells the upline, the root first. -/
theorem path_eq_upline (t : PathTree nodes parent label path) (hm : nodes m)
    (h : Upline parent m chain) : path m = (chain.map label).reverse := by
  induction h with
  | root hroot => exact t.path_root hm hroot
  | @child m p chain hparent hp ih =>
      calc
        path m = path p ++ [label m] := t.path_child hm hparent
        _ = (chain.map label).reverse ++ [label m] := by rw [ih (t.parent_mem hm hparent)]
        _ = ((m :: chain).map label).reverse := by rw [List.map_cons, List.reverse_cons]

theorem length_lt_of_linked (t : PathTree nodes parent label path) (hm : nodes m)
    (h : Relation.TransGen (LinkedTo parent) m a) : (path a).length < (path m).length := by
  induction h with
  | single hlink =>
      have hshorter := t.length_child hm hlink
      omega
  | tail hreach hlink ih =>
      have hshorter := t.length_child (t.reach_mem hm hreach.to_reflTransGen) hlink
      omega

/-- No links lead from a node back to it. -/
theorem acyclic (t : PathTree nodes parent label path) (hm : nodes m) :
    ¬Relation.TransGen (LinkedTo parent) m m := by
  intro hcycle
  have hlt := t.length_lt_of_linked hm hcycle
  omega

theorem prefix_of_linked (t : PathTree nodes parent label path) (hm : nodes m)
    (h : Relation.ReflTransGen (LinkedTo parent) m a) : path a <+: path m := by
  induction h with
  | refl => exact List.prefix_refl _
  | tail hreach hlink ih =>
      have hstep := t.path_child (t.reach_mem hm hreach) hlink
      have hbegins : path _ <+: path _ := ⟨_, hstep.symm⟩
      exact hbegins.trans ih

/-- The prefixes of a path are the paths of the nodes above. -/
theorem prefix_iff (t : PathTree nodes parent label path) (ha : nodes a) (hm : nodes m) :
    path a <+: path m ↔ Relation.ReflTransGen (LinkedTo parent) m a := by
  constructor
  · intro hbegins
    obtain ⟨chain, hchain⟩ := t.exists_upline hm
    have hlabel : label a ∈ path m := hbegins.subset (t.label_mem_path ha)
    rw [t.path_eq_upline hm hchain, List.mem_reverse] at hlabel
    obtain ⟨b, hb, hsame⟩ := List.mem_map.mp hlabel
    have hreach := hchain.mem_iff.mp hb
    rw [← t.label_inj (t.reach_mem hm hreach) ha hsame]
    exact hreach
  · exact t.prefix_of_linked hm

end PathTree

end Refearn.Support
