import Mathlib.Algebra.Ring.Nat
import Mathlib.Data.List.TakeWhile
/-!
# Texts of JavaScript
-/

/-!
## Length in UTF-16 code units

What `length` of a JavaScript string counts.
-/

namespace Refearn.Support

/-- A character above the basic plane takes two units. -/
def utf16Length (s : String) : Nat := (s.toList.map fun c => if c.toNat < 0x10000 then 1 else 2).sum

end Refearn.Support

/-!
## Blank text

The white space that `String.prototype.trim` and the class `\s` of a regular
expression agree on, and the operations on strings that depend on it.
-/

namespace Refearn.Support

/-- White space and line terminators. -/
def isSpace (c : Char) : Bool :=
  (9 ≤ c.toNat && c.toNat ≤ 13) || c.toNat == 0x20 || c.toNat == 0xa0 ||
    c.toNat == 0x1680 || (0x2000 ≤ c.toNat && c.toNat ≤ 0x200a) || c.toNat == 0x2028 ||
    c.toNat == 0x2029 || c.toNat == 0x202f || c.toNat == 0x205f || c.toNat == 0x3000 ||
    c.toNat == 0xfeff

def trimChars (cs : List Char) : List Char :=
  ((cs.dropWhile isSpace).reverse.dropWhile isSpace).reverse

/-- `String.prototype.trim`. -/
def trim (s : String) : String := String.ofList (trimChars s.toList)

/-- Nothing but white space. -/
def isBlank (s : String) : Prop := ∀ c ∈ s.toList, isSpace c

/-- Replace every run of white space by one blank; `inRun` says whether the last
character was part of a run. -/
def collapseSpaces (inRun : Bool) : List Char → List Char
  | [] => []
  | c :: cs =>
      if isSpace c then
        if inRun then collapseSpaces true cs else ' ' :: collapseSpaces true cs
      else c :: collapseSpaces false cs

/-- `split(' ').filter(Boolean)`. -/
def words (s : String) : List String :=
  ((s.toList.splitOn ' ').filter (fun w => !w.isEmpty)).map String.ofList

theorem trim_eq_empty_iff (s : String) : trim s = "" ↔ isBlank s := by
  have hnil : trim s = "" ↔ trimChars s.toList = [] := by
    simp [trim]
  rw [hnil, trimChars, isBlank, List.reverse_eq_nil_iff, List.dropWhile_eq_nil_iff]
  simp only [List.mem_reverse]
  rw [← List.dropWhile_eq_nil_iff, ← List.dropWhile_eq_nil_iff]
  constructor
  · intro h
    by_contra hne
    have hhead := List.head_dropWhile_not isSpace hne
    rw [List.dropWhile_eq_nil_iff.mp h _ (List.head_mem hne)] at hhead
    exact Bool.false_ne_true hhead.symm
  · intro h
    rw [h]
    rfl

end Refearn.Support
