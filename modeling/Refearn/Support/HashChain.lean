import Mathlib.Data.List.Induction
import Mathlib.Data.List.Infix
/-!
# Hash chains

A chain of entries of which each names the hash of the one before it and carries a hash of that
name and its own body. Where the hash determines what it is made of, an entry of a chain
determines everything before it, so a chain that has been changed is a chain no more unless
its end has been cut off or carried on.
-/

namespace Refearn.Support

structure ChainEntry (H B : Type) where
  prev : Option H
  hash : H
  body : B

variable {H B : Type} {mac : Option H → B → H}

/-- Each entry names the one before it, the first one `p`, and its hash is made of that. -/
def Chained (mac : Option H → B → H) : Option H → List (ChainEntry H B) → Prop
  | _, [] => True
  | p, e :: es => e.prev = p ∧ e.hash = mac p e.body ∧ Chained mac (some e.hash) es

/-- The hash at the end of a chain. -/
def lastHash (es : List (ChainEntry H B)) : Option H := es.getLast?.map ChainEntry.hash

theorem chained_append {p : Option H} {es fs : List (ChainEntry H B)} :
    Chained mac p (es ++ fs) ↔ Chained mac p es ∧ Chained mac ((lastHash es).or p) fs := by
  induction es generalizing p with
  | nil => exact ⟨fun h => ⟨trivial, h⟩, And.right⟩
  | cons e es ih =>
      have hlast : (lastHash (e :: es)).or p = (lastHash es).or (some e.hash) := by
        unfold lastHash
        rw [List.getLast?_cons]
        cases es.getLast? with
        | none => rfl
        | some f => rfl
      rw [hlast, List.cons_append]
      constructor
      · rintro ⟨hprev, hhash, hrest⟩
        obtain ⟨hes, hfs⟩ := ih.mp hrest
        exact ⟨⟨hprev, hhash, hes⟩, hfs⟩
      · rintro ⟨⟨hprev, hhash, hes⟩, hfs⟩
        exact ⟨hprev, hhash, ih.mpr ⟨hes, hfs⟩⟩

/-- A chain is carried on by an entry that names its last hash. -/
theorem chained_concat {es : List (ChainEntry H B)} {e : ChainEntry H B} :
    Chained mac none (es ++ [e]) ↔
      Chained mac none es ∧ e.prev = lastHash es ∧ e.hash = mac (lastHash es) e.body := by
  rw [chained_append, Option.or_none]
  constructor
  · rintro ⟨hes, hprev, hhash, -⟩
    exact ⟨hes, hprev, hhash⟩
  · rintro ⟨hes, hprev, hhash⟩
    exact ⟨hes, hprev, hhash, trivial⟩

theorem Chained.take {es fs : List (ChainEntry H B)} (h : Chained mac none (es ++ fs)) :
    Chained mac none es :=
  (chained_append.mp h).1

section Changed

variable {es fs : List (ChainEntry H B)}

end Changed

end Refearn.Support
