import Refearn.Support.DigitText
import Mathlib.Data.List.DropRight
import Mathlib.Data.List.Basic
/-!
# Records of fixed width

A record is its fields one after the other, each as wide as its column. A text is cut to its
column or filled up with blanks after it, a number keeps its last digits or gets zeros before
it. Cutting a record at the widths of its columns gives the fields back, and a file of records
is cut at its line ends.
-/

namespace Refearn.Support

section Columns

variable {α : Type} {width : Nat} {blank fill : α} {cs : List α}

/-- The text cut after each of the widths, without what is left at the end. -/
def columns : List Nat → List α → List (List α)
  | [], _ => []
  | width :: widths, cs => cs.take width :: columns widths (cs.drop width)

theorem columns_flatten (fields : List (List α)) :
    columns (fields.map List.length) fields.flatten = fields := by
  induction fields with
  | nil => rfl
  | cons field fields ih =>
      rw [List.map_cons, List.flatten_cons, columns, List.take_left, List.drop_left, ih]

/-- The text in a column of its own, filled up with blanks after it. -/
def leftJustified (blank : α) (width : Nat) (cs : List α) : List α :=
  (cs ++ List.replicate width blank).take width

@[simp] theorem length_leftJustified : (leftJustified blank width cs).length = width := by
  unfold leftJustified
  rw [List.length_take, List.length_append, List.length_replicate]
  omega

theorem leftJustified_of_le (h : cs.length ≤ width) :
    leftJustified blank width cs = cs ++ List.replicate (width - cs.length) blank := by
  unfold leftJustified
  rw [List.take_append, List.take_of_length_le h, List.take_replicate, Nat.min_eq_left (by omega)]

theorem mem_leftJustified {c : α} (h : c ∈ leftJustified blank width cs) : c ∈ cs ∨ c = blank := by
  rcases List.mem_append.mp (List.mem_of_mem_take h) with h | h
  · exact .inl h
  · exact .inr (List.eq_of_mem_replicate h)

/-- A text that fits comes back without the blanks at its end. -/
theorem rdropWhile_leftJustified [DecidableEq α] (h : cs.length ≤ width)
    (hlast : cs.getLast? ≠ some blank) :
    (leftJustified blank width cs).rdropWhile (fun c => decide (c = blank)) = cs := by
  rw [leftJustified_of_le h]
  generalize width - cs.length = n
  induction n with
  | zero =>
      rw [List.replicate_zero, List.append_nil, List.rdropWhile_eq_self_iff]
      intro hne heq
      exact hlast (by rw [List.getLast?_eq_some_getLast hne, of_decide_eq_true heq])
  | succ n ih =>
      rw [List.replicate_succ', ← List.append_assoc, List.rdropWhile_concat_pos _ _ _ (by simp)]
      exact ih

/-- The text in a column of its own, filled up before it; one that is too long loses its
beginning. -/
def rightJustified (fill : α) (width : Nat) (cs : List α) : List α :=
  (cs.leftpad width fill).drop ((cs.leftpad width fill).length - width)

@[simp] theorem length_rightJustified : (rightJustified fill width cs).length = width := by
  unfold rightJustified
  rw [List.length_drop, List.length_leftpad]
  omega

theorem rightJustified_of_le (h : cs.length ≤ width) :
    rightJustified fill width cs = List.replicate (width - cs.length) fill ++ cs := by
  unfold rightJustified
  rw [List.length_leftpad, Nat.max_eq_left h, Nat.sub_self, List.drop_zero]
  rfl

theorem rightJustified_self : rightJustified fill cs.length cs = cs := by
  rw [rightJustified_of_le (Nat.le_refl _), Nat.sub_self]
  rfl

theorem rightJustified_of_ge (h : width ≤ cs.length) :
    rightJustified fill width cs = cs.drop (cs.length - width) := by
  have hpad : cs.leftpad width fill = cs := by
    rw [List.leftpad, Nat.sub_eq_zero_of_le h]
    rfl
  unfold rightJustified
  rw [hpad]

theorem mem_rightJustified {c : α} (h : c ∈ rightJustified fill width cs) :
    c ∈ cs ∨ c = fill := by
  rcases List.mem_append.mp (List.mem_of_mem_drop h) with h | h
  · exact .inr (List.eq_of_mem_replicate h)
  · exact .inl h

end Columns

/-! ## Numbers -/

theorem allDigits_rightJustified {cs : List Char} {width : Nat} (h : AllDigits cs) :
    AllDigits (rightJustified '0' width cs) := by
  intro c hc
  rcases mem_rightJustified hc with hc | rfl
  · exact h c hc
  · rfl

/-- A column of `width` digits keeps a number up to multiples of `10 ^ width`. -/
theorem digitsValue_rightJustified {cs : List Char} {width : Nat} (h : AllDigits cs) :
    digitsValue (rightJustified '0' width cs) = digitsValue cs % 10 ^ width := by
  rcases Nat.le_total cs.length width with hle | hge
  · rw [rightJustified_of_le hle, digitsValue_append, digitsValue_replicate, Nat.zero_mul,
      Nat.zero_add, Nat.mod_eq_of_lt]
    calc digitsValue cs < 10 ^ cs.length := digitsValue_lt h
      _ ≤ 10 ^ width := Nat.pow_le_pow_right (by decide) hle
  · have hlength : (cs.drop (cs.length - width)).length = width := by
      rw [List.length_drop]
      omega
    have hlast : digitsValue (cs.drop (cs.length - width)) < 10 ^ width := by
      have hlt : digitsValue (cs.drop (cs.length - width)) <
          10 ^ (cs.drop (cs.length - width)).length :=
        digitsValue_lt fun c hc => h c (List.mem_of_mem_drop hc)
      rwa [hlength] at hlt
    have hsplit := digitsValue_append (cs.take (cs.length - width)) (cs.drop (cs.length - width))
    rw [List.take_append_drop, hlength] at hsplit
    rw [rightJustified_of_ge hge, hsplit, Nat.mul_add_mod_self_right, Nat.mod_eq_of_lt hlast]

/-! ## Lines -/

section Lines

variable {α : Type} {sep : α} {lines : List (List α)}

theorem intercalate_append_singleton (h : lines ≠ []) :
    [sep].intercalate lines ++ [sep] = lines.flatMap fun line => line ++ [sep] := by
  induction lines with
  | nil => exact absurd rfl h
  | cons line lines ih =>
      by_cases hlines : lines = []
      · rw [hlines, List.intercalate_singleton, List.flatMap_singleton]
      · rw [List.intercalate_cons_of_ne_nil hlines, List.append_assoc, List.append_assoc,
          ih hlines, List.flatMap_cons, List.append_assoc]

/-- Lines without a line end in them come back from the file, with nothing after the last. -/
theorem splitOn_flatMap [DecidableEq α] (h : ∀ line ∈ lines, sep ∉ line) :
    (lines.flatMap fun line => line ++ [sep]).splitOn sep = lines ++ [[]] := by
  induction lines with
  | nil => exact List.splitOn_nil sep
  | cons line lines ih =>
      rw [List.flatMap_cons, List.append_assoc, List.singleton_append,
        List.splitOn_append_cons_self, List.splitOn_eq_singleton (h line List.mem_cons_self),
        ih fun l hl => h l (List.mem_cons_of_mem _ hl)]
      rfl

/-- Lines of one length are found by cutting, so a file has only one such list of lines. -/
theorem lines_unique {width : Nat} {lines' : List (List α)}
    (h : lines.flatMap (fun line => line ++ [sep]) = lines'.flatMap fun line => line ++ [sep])
    (hwidth : ∀ line ∈ lines, line.length = width)
    (hwidth' : ∀ line ∈ lines', line.length = width) : lines = lines' := by
  induction lines generalizing lines' with
  | nil =>
      cases lines' with
      | nil => rfl
      | cons line' lines' => simp at h
  | cons line lines ih =>
      cases lines' with
      | nil => simp at h
      | cons line' lines' =>
          rw [List.flatMap_cons, List.flatMap_cons, List.append_assoc, List.append_assoc] at h
          have hlength : line.length = line'.length :=
            (hwidth line List.mem_cons_self).trans (hwidth' line' List.mem_cons_self).symm
          obtain ⟨rfl, hrest⟩ := List.append_inj h hlength
          rw [ih (List.append_cancel_left hrest) (fun l hl => hwidth l (List.mem_cons_of_mem _ hl))
            fun l hl => hwidth' l (List.mem_cons_of_mem _ hl)]

end Lines

end Refearn.Support
