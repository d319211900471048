import Mathlib.Data.List.Basic
import Mathlib.Data.List.Induction
import Mathlib.Tactic.IntervalCases
/-!
# Fixed-width hexadecimal texts
-/

namespace Refearn.Support

/-- The last lower-case hexadecimal digit of `n`. -/
def hexDigit (n : Nat) : Char := Nat.digitChar (n % 16)

/-- The last `width` hexadecimal digits of `n`, most significant first. -/
def fixedHex : Nat → Nat → List Char
  | 0, _ => []
  | width + 1, n => fixedHex width (n / 16) ++ [hexDigit n]

@[simp] theorem length_fixedHex (width n : Nat) : (fixedHex width n).length = width := by
  induction width generalizing n with
  | zero => rfl
  | succ width ih => simp [fixedHex, ih]

theorem hexDigit_inj {m n : Nat} (h : hexDigit m = hexDigit n) : m % 16 = n % 16 := by
  unfold hexDigit at h
  have hm : m % 16 < 16 := Nat.mod_lt _ (by omega)
  have hn : n % 16 < 16 := Nat.mod_lt _ (by omega)
  generalize m % 16 = a at *
  generalize n % 16 = b at *
  have hall : ∀ x < 16, ∀ y < 16, Nat.digitChar x = Nat.digitChar y → x = y := by decide
  exact hall a hm b hn h

theorem hexDigit_mem (n : Nat) : hexDigit n ∈ "0123456789abcdef".toList := by
  unfold hexDigit
  have hn : n % 16 < 16 := Nat.mod_lt _ (by omega)
  have hall : ∀ x < 16, Nat.digitChar x ∈ "0123456789abcdef".toList := by decide
  exact hall _ hn

theorem mem_fixedHex {width n : Nat} {c : Char} (h : c ∈ fixedHex width n) :
    c ∈ "0123456789abcdef".toList := by
  induction width generalizing n with
  | zero => simp [fixedHex] at h
  | succ width ih =>
      rw [fixedHex, List.mem_append, List.mem_singleton] at h
      rcases h with h | rfl
      · exact ih h
      · exact hexDigit_mem n

theorem fixedHex_inj {width m n : Nat} (hm : m < 16 ^ width) (hn : n < 16 ^ width)
    (h : fixedHex width m = fixedHex width n) : m = n := by
  induction width generalizing m n with
  | zero => simp only [Nat.pow_zero] at hm hn; omega
  | succ width ih =>
      rw [Nat.pow_succ] at hm hn
      simp only [fixedHex] at h
      obtain ⟨hpre, hlast⟩ := List.append_inj' h rfl
      have hdiv : m / 16 = n / 16 := ih (by omega) (by omega) hpre
      have hmod : m % 16 = n % 16 := hexDigit_inj (by simpa using hlast)
      omega

/-! ## Order -/

theorem hexDigit_lt {m n : Nat} (h : m % 16 < n % 16) : hexDigit m < hexDigit n := by
  unfold hexDigit
  have hn : n % 16 < 16 := Nat.mod_lt _ (by omega)
  have hall : ∀ y < 16, ∀ x < y, Nat.digitChar x < Nat.digitChar y := by decide
  exact hall _ hn _ h

theorem append_lt_append {l l' : List Char} (hlength : l.length = l'.length) (h : l < l')
    (s t : List Char) : l ++ s < l' ++ t := by
  induction l generalizing l' with
  | nil =>
      rw [List.length_nil] at hlength
      rw [List.length_eq_zero_iff.mp hlength.symm] at h
      exact absurd h (List.not_lt_nil _)
  | cons c l ih =>
      cases l' with
      | nil => cases hlength
      | cons d l' =>
          rw [List.cons_append, List.cons_append]
          rcases List.cons_lt_cons_iff.mp h with hlt | ⟨rfl, hrest⟩
          · exact List.cons_lt_cons_iff.mpr (.inl hlt)
          · exact List.cons_lt_cons_iff.mpr (.inr ⟨rfl, ih (Nat.succ.inj hlength) hrest⟩)

theorem append_lt_append_left (l : List Char) {s t : List Char} (h : s < t) : l ++ s < l ++ t := by
  induction l with
  | nil => exact h
  | cons c l ih => exact List.cons_lt_cons_iff.mpr (.inr ⟨rfl, ih⟩)

/-- Texts of one width are in the order of their numbers. -/
theorem fixedHex_lt {width m n : Nat} (hn : n < 16 ^ width) (h : m < n) :
    fixedHex width m < fixedHex width n := by
  induction width generalizing m n with
  | zero =>
      rw [Nat.pow_zero] at hn
      omega
  | succ width ih =>
      rw [Nat.pow_succ] at hn
      rw [fixedHex, fixedHex]
      by_cases hdiv : m / 16 = n / 16
      · have hmod : m % 16 < n % 16 := by omega
        rw [hdiv]
        exact append_lt_append_left _ (List.cons_lt_cons_iff.mpr (.inl (hexDigit_lt hmod)))
      · have hlt : m / 16 < n / 16 := by omega
        exact append_lt_append (by rw [length_fixedHex, length_fixedHex])
          (ih (by omega) hlt) _ _

/-! ## Reading -/

/-- The value of a lower-case hexadecimal digit. -/
def hexDigitValue (c : Char) : Nat := "0123456789abcdef".toList.idxOf c

/-- The number that hexadecimal digits spell, most significant first. -/
def hexNumber (digits : List Char) : Nat :=
  digits.foldl (fun n c => 16 * n + hexDigitValue c) 0

theorem hexDigitValue_hexDigit (n : Nat) : hexDigitValue (hexDigit n) = n % 16 := by
  unfold hexDigit
  have hn : n % 16 < 16 := Nat.mod_lt _ (by omega)
  have hall : ∀ x < 16, hexDigitValue (Nat.digitChar x) = x := by decide
  exact hall _ hn

/-- Reading the digits back. -/
theorem hexNumber_fixedHex (width n : Nat) : hexNumber (fixedHex width n) = n % 16 ^ width := by
  induction width generalizing n with
  | zero =>
      rw [Nat.pow_zero, Nat.mod_one]
      rfl
  | succ width ih =>
      have hlast : hexNumber (fixedHex (width + 1) n) =
          16 * hexNumber (fixedHex width (n / 16)) + hexDigitValue (hexDigit n) := by
        unfold hexNumber
        rw [fixedHex, List.foldl_append]
        rfl
      calc
        hexNumber (fixedHex (width + 1) n) = 16 * (n / 16 % 16 ^ width) + n % 16 := by
          rw [hlast, ih, hexDigitValue_hexDigit]
        _ = n % 16 ^ (width + 1) := by
          rw [Nat.pow_succ, Nat.mul_comm (16 ^ width), Nat.mod_mul]
          omega

theorem hexDigit_hexDigitValue {c : Char} (h : c ∈ "0123456789abcdef".toList) :
    hexDigit (hexDigitValue c) = c ∧ hexDigitValue c < 16 := by
  have hall : "0123456789abcdef".toList.all (fun c =>
      hexDigit (hexDigitValue c) = c ∧ hexDigitValue c < 16) = true := by decide
  exact of_decide_eq_true (List.all_eq_true.mp hall c h)

theorem hexNumber_append_singleton (ds : List Char) (c : Char) :
    hexNumber (ds ++ [c]) = 16 * hexNumber ds + hexDigitValue c := by
  unfold hexNumber
  rw [List.foldl_append]
  rfl

/-- Writing the number that was read. -/
theorem fixedHex_hexNumber {ds : List Char} (h : ∀ c ∈ ds, c ∈ "0123456789abcdef".toList) :
    fixedHex ds.length (hexNumber ds) = ds ∧ hexNumber ds < 16 ^ ds.length := by
  induction ds using List.reverseRecOn with
  | nil => exact ⟨rfl, Nat.one_pos⟩
  | append_singleton ds c ih =>
      obtain ⟨hds, hbound⟩ := ih fun d hd => h d (List.mem_append_left _ hd)
      obtain ⟨hc, hvalue⟩ := hexDigit_hexDigitValue (h c (List.mem_append_right _ List.mem_cons_self))
      rw [hexNumber_append_singleton, List.length_append, List.length_singleton]
      constructor
      · have hdiv : (16 * hexNumber ds + hexDigitValue c) / 16 = hexNumber ds := by omega
        have hlast : hexDigit (16 * hexNumber ds + hexDigitValue c) = hexDigit (hexDigitValue c) := by
          unfold hexDigit
          congr 1
          omega
        rw [fixedHex, hdiv, hds, hlast, hc]
      · rw [Nat.pow_succ]
        omega

end Refearn.Support
