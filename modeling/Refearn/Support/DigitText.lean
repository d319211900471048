import Mathlib.Data.List.Lex
import Mathlib.Data.List.TakeWhile
import Mathlib.Tactic.Linarith
import Mathlib.Tactic.Ring
/-!
# Texts of decimal digits

Zeros in front do not change the number that a text of digits stands for. Without them a
longer text stands for a larger number, and of two texts of one length the one that comes
later in the dictionary does.
-/

namespace Refearn.Support

/-- The number that a text of digits stands for. -/
def digitsValue (cs : List Char) : Nat := Nat.ofDigitChars 10 cs 0

def AllDigits (cs : List Char) : Prop := ∀ c ∈ cs, c.isDigit = true

section Values

variable {as bs : List Char} {c : Char}

theorem AllDigits.tail (h : AllDigits (c :: as)) : AllDigits as :=
  fun d hd => h d (List.mem_cons_of_mem _ hd)

theorem AllDigits.append (ha : AllDigits as) (hb : AllDigits bs) : AllDigits (as ++ bs) :=
  fun d hd => (List.mem_append.mp hd).elim (ha d) (hb d)

theorem allDigits_replicate (n : Nat) : AllDigits (List.replicate n '0') := by
  intro d hd
  rw [List.eq_of_mem_replicate hd]
  rfl

theorem allDigits_toDigits (n : Nat) : AllDigits (Nat.toDigits 10 n) :=
  fun _ hd => Nat.isDigit_of_mem_toDigits (by decide) (by decide) hd

/-- A digit is one of ten characters in the order of their numbers. -/
theorem digit_bounds (h : c.isDigit = true) : 48 ≤ c.toNat ∧ c.toNat < 58 := by
  unfold Char.isDigit at h
  rw [Bool.and_eq_true, decide_eq_true_eq, decide_eq_true_eq] at h
  have hlow := UInt32.le_iff_toNat_le.mp h.1
  have hhigh := UInt32.le_iff_toNat_le.mp h.2
  exact ⟨hlow, Nat.lt_succ_of_le hhigh⟩

theorem digitsValue_cons (c : Char) (as : List Char) :
    digitsValue (c :: as) = 10 ^ as.length * (c.toNat - 48) + digitsValue as := by
  unfold digitsValue
  rw [Nat.ofDigitChars_cons, Nat.ofDigitChars_eq_ofDigitChars_zero, Nat.mul_zero, Nat.zero_add]
  rfl

theorem digitsValue_append (as bs : List Char) :
    digitsValue (as ++ bs) = digitsValue as * 10 ^ bs.length + digitsValue bs := by
  unfold digitsValue
  rw [Nat.ofDigitChars_append, Nat.ofDigitChars_eq_ofDigitChars_zero, Nat.mul_comm]

theorem digitsValue_replicate (n : Nat) : digitsValue (List.replicate n '0') = 0 := by
  unfold digitsValue
  rw [Nat.ofDigitChars_replicate_zero, Nat.mul_zero]

@[simp] theorem digitsValue_toDigits (n : Nat) : digitsValue (Nat.toDigits 10 n) = n :=
  Nat.ofDigitChars_ten_toDigits

theorem digitsValue_lt (h : AllDigits as) : digitsValue as < 10 ^ as.length := by
  induction as with
  | nil => exact Nat.one_pos
  | cons c as ih =>
      have hc := digit_bounds (h c List.mem_cons_self)
      have hrest := ih h.tail
      have hfirst : 10 ^ as.length * (c.toNat - 48) ≤ 10 ^ as.length * 9 :=
        Nat.mul_le_mul_left _ (by omega)
      rw [digitsValue_cons, List.length_cons, Nat.pow_succ]
      omega

theorem digitsValue_dropWhile (as : List Char) :
    digitsValue (as.dropWhile (· = '0')) = digitsValue as := by
  induction as with
  | nil => rfl
  | cons c as ih =>
      by_cases hc : c = '0'
      · rw [List.dropWhile_cons_of_pos (by simpa using hc), ih, digitsValue_cons, hc]
        simp
      · rw [List.dropWhile_cons_of_neg (by simpa using hc)]

theorem allDigits_dropWhile (h : AllDigits as) : AllDigits (as.dropWhile (· = '0')) :=
  fun d hd => h d (List.dropWhile_suffix _ |>.subset hd)

theorem head?_dropWhile (as : List Char) : (as.dropWhile (· = '0')).head? ≠ some '0' := by
  intro h
  have hnot := List.head?_dropWhile_not (p := fun c => decide (c = '0')) as
  rw [h] at hnot
  exact absurd hnot (by decide)

/-- The first digit counts. -/
theorem le_digitsValue (h : AllDigits (c :: as)) (hc : c ≠ '0') :
    10 ^ as.length ≤ digitsValue (c :: as) := by
  have hbounds := digit_bounds (h c List.mem_cons_self)
  have hne : c.toNat ≠ 48 := fun heq => hc (Char.toNat_inj.mp heq)
  have hfirst : 10 ^ as.length * 1 ≤ 10 ^ as.length * (c.toNat - 48) :=
    Nat.mul_le_mul_left _ (by omega)
  rw [digitsValue_cons]
  omega

theorem digitsValue_lt_of_length_lt (ha : AllDigits as) (hb : AllDigits bs)
    (hhead : bs.head? ≠ some '0') (h : as.length < bs.length) :
    digitsValue as < digitsValue bs := by
  cases bs with
  | nil => exact absurd h (Nat.not_lt_zero _)
  | cons b bs =>
      have hb0 : b ≠ '0' := fun heq => hhead (congrArg some heq)
      calc digitsValue as < 10 ^ as.length := digitsValue_lt ha
        _ ≤ 10 ^ bs.length := Nat.pow_le_pow_right (by decide) (Nat.le_of_lt_succ h)
        _ ≤ digitsValue (b :: bs) := le_digitsValue hb hb0

/-- Among texts of one length the order of the dictionary is that of the numbers. -/
theorem digitsValue_lt_iff_lt (ha : AllDigits as) (hb : AllDigits bs)
    (h : as.length = bs.length) : digitsValue as < digitsValue bs ↔ as < bs := by
  induction as generalizing bs with
  | nil =>
      cases bs with
      | nil => exact iff_of_false (Nat.lt_irrefl _) (List.not_lt_nil _)
      | cons b bs => cases h
  | cons a as ih =>
      cases bs with
      | nil => cases h
      | cons b bs =>
          have hlength : as.length = bs.length := Nat.succ.inj h
          have hrest := ih ha.tail hb.tail hlength
          have hla := digitsValue_lt ha.tail
          have hlb := digitsValue_lt hb.tail
          have hboundsA := digit_bounds (ha a List.mem_cons_self)
          have hboundsB := digit_bounds (hb b List.mem_cons_self)
          rw [digitsValue_cons, digitsValue_cons, List.cons_lt_cons_iff, ← hrest, hlength]
          rw [hlength] at hla
          generalize 10 ^ bs.length = unit at *
          rcases Nat.lt_trichotomy a.toNat b.toNat with hab | hab | hab
          · have hstep : unit * (a.toNat - 48) + unit ≤ unit * (b.toNat - 48) := by
              rw [← Nat.mul_succ]
              exact Nat.mul_le_mul_left _ (by omega)
            exact iff_of_true (by omega) (.inl hab)
          · have heq : a = b := Char.toNat_inj.mp hab
            rw [heq, Nat.add_lt_add_iff_left]
            exact ⟨fun hlt => .inr ⟨rfl, hlt⟩,
              fun hor => hor.elim (fun hlt : b.toNat < b.toNat => absurd hlt (Nat.lt_irrefl _)) (·.2)⟩
          · have hstep : unit * (b.toNat - 48) + unit ≤ unit * (a.toNat - 48) := by
              rw [← Nat.mul_succ]
              exact Nat.mul_le_mul_left _ (by omega)
            refine iff_of_false (by omega) ?_
            rintro (hlt | ⟨heq, -⟩)
            · exact absurd (show a.toNat < b.toNat from hlt) (by omega)
            · rw [heq] at hab
              exact Nat.lt_irrefl _ hab

/-- Comparing numbers by the length of their texts and, at one length, by the texts. -/
theorem digitsValue_lt_iff (ha : AllDigits as) (hb : AllDigits bs)
    (hheadA : as.head? ≠ some '0') (hheadB : bs.head? ≠ some '0') :
    digitsValue as < digitsValue bs ↔
      as.length < bs.length ∨ as.length = bs.length ∧ as < bs := by
  rcases Nat.lt_trichotomy as.length bs.length with hlt | heq | hgt
  · exact iff_of_true (digitsValue_lt_of_length_lt ha hb hheadB hlt) (.inl hlt)
  · rw [digitsValue_lt_iff_lt ha hb heq]
    exact ⟨fun h => .inr ⟨heq, h⟩, fun h => h.elim (fun h' => absurd h' (by omega)) (·.2)⟩
  · have hvalue := digitsValue_lt_of_length_lt hb ha hheadA hgt
    exact iff_of_false (by omega) (by omega)

theorem digitsValue_pos_iff (h : AllDigits as) :
    0 < digitsValue as ↔ as.dropWhile (· = '0') ≠ [] := by
  rw [← digitsValue_dropWhile]
  have hhead := head?_dropWhile as
  have hdigits := allDigits_dropWhile h
  generalize as.dropWhile (· = '0') = rest at *
  cases rest with
  | nil => exact iff_of_false (Nat.lt_irrefl _) (fun hne => hne rfl)
  | cons c rest =>
      have hle := le_digitsValue hdigits fun heq => hhead (congrArg some heq)
      have hpos : 0 < 10 ^ rest.length := Nat.pow_pos (by decide)
      exact iff_of_true (by omega) (List.cons_ne_nil _ _)

end Values

end Refearn.Support
