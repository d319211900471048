import Refearn.Sales.Amounts
import Refearn.Reports.Exports
import Mathlib.Data.Rat.Defs
import Mathlib.Tactic.FieldSimp
import Mathlib.Tactic.NormNum
/-!
# Amounts are read exactly

What an import accepts as an amount in dollars are the texts that are left as digits with at
most two decimals once the separators are gone. Each is read as the number of cents that it
denotes, and refused only if this is zero or no safe integer.
-/

namespace Refearn.Sales

open Support
open Payouts (MAX_SAFE_INTEGER)
open Reports (centsToDecimalString)

/-- Digits before the point and at most two after it. -/
structure DollarAmount where
  dollars : List Char
  cents : List Char
  dollars_ne : dollars ≠ []
  dollars_digits : AllDigits dollars
  cents_digits : AllDigits cents
  length_cents : cents.length ≤ 2

namespace DollarAmount

variable (a : DollarAmount)

def text : List Char := a.dollars ++ if a.cents = [] then [] else '.' :: a.cents

/-- The number of dollars that the text denotes. -/
def value : Rat := digitsValue a.dollars + digitsValue a.cents / 10 ^ a.cents.length

def digits : List Char := a.dollars ++ a.cents.rightpad 2 '0'

theorem allDigits_digits : AllDigits a.digits :=
  a.dollars_digits.append (a.cents_digits.append (allDigits_replicate _))

theorem digits_ne : a.digits ≠ [] := List.append_ne_nil_of_left_ne_nil a.dollars_ne _

/-- Two decimals make cents of dollars. -/
theorem value_eq : a.value = (digitsValue a.digits : Rat) / 100 := by
  have hlength := a.length_cents
  have hdigits : digitsValue a.digits =
      digitsValue a.dollars * 100 + digitsValue a.cents * 10 ^ (2 - a.cents.length) := by
    unfold digits List.rightpad
    rw [digitsValue_append, digitsValue_append, digitsValue_replicate, List.length_append,
      List.length_replicate, Nat.add_sub_cancel' hlength, Nat.add_zero]
    rfl
  unfold value
  rw [hdigits]
  push_cast
  generalize a.cents.length = n at *
  interval_cases n <;> ring

theorem value_inj_digits {c : Int} : a.value = (c : Rat) / 100 ↔ (digitsValue a.digits : Int) = c := by
  rw [value_eq, div_left_inj' (by norm_num)]
  exact ⟨fun h => by exact_mod_cast h, fun h => by exact_mod_cast h⟩

end DollarAmount

/-! ## Cents -/

theorem MAX_SAFE_CENTS_TEXT_eq : MAX_SAFE_CENTS_TEXT = "9007199254740991".toList := by decide

theorem digitsValue_maxSafe : (digitsValue MAX_SAFE_CENTS_TEXT : Int) = MAX_SAFE_INTEGER := by
  rw [MAX_SAFE_CENTS_TEXT_eq]
  rfl

theorem allDigits_maxSafe : AllDigits MAX_SAFE_CENTS_TEXT := by
  have hall : MAX_SAFE_CENTS_TEXT.all Char.isDigit = true := by decide
  exact List.all_eq_true.mp hall

/-- A text of digits is refused if its number is zero or no safe integer. -/
theorem parsePositiveSafeCents_eq_ok {value : List Char} {error : String} {c : Int} :
    parsePositiveSafeCents value error = .ok c ↔
      value ≠ [] ∧ AllDigits value ∧ (digitsValue value : Int) = c ∧ 1 ≤ c ∧
        c ≤ MAX_SAFE_INTEGER := by
  unfold parsePositiveSafeCents
  by_cases hvalue : value ≠ [] ∧ AllDigits value
  · obtain ⟨hne, hdigits⟩ := hvalue
    have hshape : (value.isEmpty || !value.all Char.isDigit) = false := by
      rw [List.isEmpty_eq_false_iff.mpr hne, List.all_eq_true.mpr hdigits]
      rfl
    have hpos := digitsValue_pos_iff hdigits
    have hhead := head?_dropWhile value
    have hrest := allDigits_dropWhile hdigits
    have hsame := digitsValue_dropWhile value
    have hmax : MAX_SAFE_CENTS_TEXT.head? ≠ some '0' := by decide
    rw [hshape, if_neg Bool.false_ne_true]
    simp only [List.isEmpty_iff]
    generalize value.dropWhile (· = '0') = stripped at *
    by_cases hstripped : stripped = []
    · rw [if_pos hstripped, if_pos (.inl rfl)]
      refine iff_of_false nofun fun h => ?_
      have hzero : ¬0 < digitsValue value := fun h' => hpos.mp h' hstripped
      omega
    · rw [if_neg hstripped]
      have hlt := digitsValue_lt_iff allDigits_maxSafe hrest hmax hhead
      have hsafe := digitsValue_maxSafe
      have hpositive := hpos.mpr hstripped
      have hzero : stripped ≠ ['0'] := fun h => hhead (by rw [h]; rfl)
      rw [hsame] at hlt
      split_ifs with hrefused
      · refine iff_of_false nofun fun h => ?_
        have habove : digitsValue MAX_SAFE_CENTS_TEXT < digitsValue value :=
          hlt.mpr (hrefused.elim (fun h' => absurd h' hzero) fun h' =>
            h'.imp_right fun h'' => ⟨h''.1.symm, h''.2⟩)
        omega
      · have hbelow : ¬digitsValue MAX_SAFE_CENTS_TEXT < digitsValue value := fun h' =>
          hrefused (.inr ((hlt.mp h').imp_right fun h'' => ⟨h''.1.symm, h''.2⟩))
        rw [hsame]
        constructor
        · intro h
          cases h
          exact ⟨hne, hdigits, rfl, by omega, by omega⟩
        · intro h
          rw [h.2.2.1]
  · have hshape : (value.isEmpty || !value.all Char.isDigit) = true := by
      by_contra hnot
      rw [Bool.not_eq_true, Bool.or_eq_false_iff, List.isEmpty_eq_false_iff,
        Bool.not_eq_false_eq_eq_true, List.all_eq_true] at hnot
      exact hvalue hnot
    rw [if_pos hshape]
    exact iff_of_false nofun fun h => hvalue ⟨h.1, h.2.1⟩

/-! ## Dollars -/

namespace DollarAmount

variable (a : DollarAmount)

theorem dot_notMem {cs : List Char} (h : AllDigits cs) : '.' ∉ cs :=
  fun hmem => absurd (h '.' hmem) (by decide)

theorem splitOn_text :
    a.text.splitOn '.' = if a.cents = [] then [a.dollars] else [a.dollars, a.cents] := by
  unfold text
  split_ifs with hcents
  · rw [List.append_nil]
    exact List.splitOn_eq_singleton (dot_notMem a.dollars_digits)
  · rw [List.splitOn_append_cons_self_of_not_mem (dot_notMem a.dollars_digits),
      List.splitOn_eq_singleton (dot_notMem a.cents_digits)]

theorem parts_text : (a.text.splitOn '.').headD [] = a.dollars ∧
    (a.text.splitOn '.').getD 1 [] = a.cents := by
  rw [splitOn_text]
  split_ifs with hcents
  · exact ⟨rfl, hcents.symm⟩
  · exact ⟨rfl, rfl⟩

theorem takeWhile_text : a.text.takeWhile Char.isDigit = a.dollars ∧
    a.text.dropWhile Char.isDigit = if a.cents = [] then [] else '.' :: a.cents := by
  unfold text
  rw [List.takeWhile_append_of_pos a.dollars_digits, List.dropWhile_append_of_pos a.dollars_digits]
  split_ifs
  · exact ⟨List.append_nil _, rfl⟩
  · rw [List.takeWhile_cons_of_neg (by decide), List.dropWhile_cons_of_neg (by decide)]
    exact ⟨List.append_nil _, rfl⟩

theorem isDollarAmount_text : isDollarAmount a.text = true := by
  obtain ⟨htake, hdrop⟩ := a.takeWhile_text
  have hlength := a.length_cents
  unfold isDollarAmount
  rw [htake, hdrop, List.isEmpty_eq_false_iff.mpr a.dollars_ne]
  split_ifs with hcents
  · rfl
  · have hpos := List.length_pos_iff.mpr hcents
    have hall : a.cents.all Char.isDigit = true := List.all_eq_true.mpr a.cents_digits
    simp only [Bool.not_false, Bool.true_and, hall, Bool.and_true, Bool.or_eq_true,
      decide_eq_true_eq]
    omega

end DollarAmount

/-- What the pattern of an amount accepts. -/
theorem isDollarAmount_iff {cs : List Char} :
    isDollarAmount cs = true ↔ ∃ a : DollarAmount, a.text = cs := by
  constructor
  · intro h
    have hdigits : AllDigits (cs.takeWhile Char.isDigit) := fun _ => List.mem_takeWhile_imp
    have hsplit := List.takeWhile_append_dropWhile (p := Char.isDigit) (l := cs)
    unfold isDollarAmount at h
    rw [Bool.and_eq_true, Bool.not_eq_true', List.isEmpty_eq_false_iff] at h
    obtain ⟨hne, h⟩ := h
    split at h
    · next hrest =>
      rw [hrest] at hsplit
      exact ⟨⟨_, [], hne, hdigits, nofun, Nat.zero_le 2⟩, hsplit⟩
    · next cents hrest =>
      rw [Bool.and_eq_true, Bool.or_eq_true, decide_eq_true_eq, decide_eq_true_eq,
        List.all_eq_true] at h
      have hcents : cents ≠ [] := List.ne_nil_of_length_pos (by omega)
      rw [hrest] at hsplit
      refine ⟨⟨_, cents, hne, hdigits, h.2, by omega⟩, ?_⟩
      unfold DollarAmount.text
      rw [if_neg hcents]
      exact hsplit
    · cases h
  · rintro ⟨a, rfl⟩
    exact a.isDollarAmount_text

/-- What is left of a text without its separators. -/
def significant (raw : String) : List Char := raw.toList.filter fun c => !isSeparator c

theorem filter_dropWhile_isSpace (cs : List Char) :
    (cs.dropWhile isSpace).filter (fun c => !isSeparator c) =
      cs.filter fun c => !isSeparator c := by
  induction cs with
  | nil => rfl
  | cons c cs ih =>
      by_cases hc : isSpace c = true
      · have hseparator : isSeparator c = true := by
          unfold isSeparator
          rw [hc, Bool.or_true]
        rw [List.dropWhile_cons_of_pos hc, ih, List.filter_cons_of_neg (by simp [hseparator])]
      · rw [List.dropWhile_cons_of_neg hc]

theorem filter_trim (raw : String) :
    (trim raw).toList.filter (fun c => !isSeparator c) = significant raw := by
  unfold trim trimChars significant
  rw [String.toList_ofList, List.filter_reverse, filter_dropWhile_isSpace, ← List.filter_reverse,
    List.reverse_reverse, filter_dropWhile_isSpace]

/-- An amount in dollars is read if and only if it is a positive safe number of cents, and then
as what it denotes. -/
theorem parseMoneyAmountToCents_eq_ok {raw : Option String} {c : Int} :
    parseMoneyAmountToCents raw false = .ok c ↔
      ∃ a : DollarAmount, a.text = significant (raw.getD "") ∧ a.value = (c : Rat) / 100 ∧ 1 ≤ c ∧
        c ≤ MAX_SAFE_INTEGER := by
  unfold parseMoneyAmountToCents
  simp only [filter_trim, Bool.false_eq_true, if_false]
  by_cases hamount : isDollarAmount (significant (raw.getD "")) = true
  · obtain ⟨a, ha⟩ := isDollarAmount_iff.mp hamount
    have hvalue : trim (raw.getD "") ≠ "" := by
      intro hempty
      have hnil := filter_trim (raw.getD "")
      rw [hempty, ← ha] at hnil
      exact a.dollars_ne (List.append_eq_nil_iff.mp hnil.symm).1
    obtain ⟨hdollars, hcents⟩ := a.parts_text
    rw [if_neg hvalue, if_pos hamount, ← ha, hdollars, hcents]
    refine parsePositiveSafeCents_eq_ok.trans ⟨fun h => ?_, fun h => ?_⟩
    · exact ⟨a, rfl, a.value_inj_digits.mpr h.2.2.1, h.2.2.2⟩
    · obtain ⟨b, hb, hvalue, hrange⟩ := h
      have hparts := b.parts_text
      rw [hb, hdollars, hcents] at hparts
      have hdigits : a.digits = b.digits := by
        unfold DollarAmount.digits
        rw [hparts.1, hparts.2]
      refine ⟨a.digits_ne, a.allDigits_digits, ?_, hrange⟩
      exact (congrArg _ (congrArg digitsValue hdigits)).trans (b.value_inj_digits.mp hvalue)
  · rw [if_neg hamount]
    refine iff_of_false ?_ fun h => hamount (isDollarAmount_iff.mpr (h.imp fun _ h' => h'.1))
    split_ifs <;> exact nofun

theorem parseMoneyAmountToCents_cents {raw : Option String} {c : Int} :
    parseMoneyAmountToCents raw true = .ok c ↔
      trim (raw.getD "") ≠ "" ∧ AllDigits (trim (raw.getD "")).toList ∧
        (digitsValue (trim (raw.getD "")).toList : Int) = c ∧ 1 ≤ c ∧ c ≤ MAX_SAFE_INTEGER := by
  unfold parseMoneyAmountToCents
  by_cases hvalue : trim (raw.getD "") = ""
  · rw [if_pos hvalue]
    exact iff_of_false nofun fun h => h.1 hvalue
  · rw [if_neg hvalue, if_pos rfl, parsePositiveSafeCents_eq_ok, Ne, String.toList_eq_nil_iff]

/-! ## Written amounts -/

/-- The amount that is written for a number of cents, with zeros in front. -/
def writtenAmount (zeros : Nat) (cents : Nat) : DollarAmount where
  dollars := List.replicate zeros '0' ++ Nat.toDigits 10 (cents / 100)
  cents := padded 2 (cents % 100)
  dollars_ne := List.append_ne_nil_of_right_ne_nil _ Nat.toDigits_ne_nil
  dollars_digits := (allDigits_replicate zeros).append (allDigits_toDigits _)
  cents_digits := by
    unfold padded List.leftpad
    exact (allDigits_replicate _).append (allDigits_toDigits _)
  length_cents := (IsoDate.length_padded_of_lt (by decide) (Nat.mod_lt _ (by decide))).le

theorem text_writtenAmount (zeros cents : Nat) :
    (writtenAmount zeros cents).text =
      List.replicate zeros '0' ++ (centsToDecimalString cents).toList := by
  have hlength : (padded 2 (cents % 100)).length = 2 :=
    IsoDate.length_padded_of_lt (by decide) (Nat.mod_lt _ (by decide))
  have hne : padded 2 (cents % 100) ≠ [] := List.ne_nil_of_length_pos (by omega)
  have hwhole : Json.decimal (((cents : Int).natAbs : Int) / 100) = Nat.toDigits 10 (cents / 100) := rfl
  unfold DollarAmount.text writtenAmount centsToDecimalString
  rw [if_neg hne, if_neg (Int.not_lt.mpr (Int.natCast_nonneg cents)), hwhole]
  simp

theorem value_writtenAmount (zeros cents : Nat) :
    (writtenAmount zeros cents).value = (cents : Rat) / 100 := by
  have hlength : (padded 2 (cents % 100)).length = 2 :=
    IsoDate.length_padded_of_lt (by decide) (Nat.mod_lt _ (by decide))
  have hcents : digitsValue (padded 2 (cents % 100)) = cents % 100 := ofDigitChars_padded 2 _
  have hparts : cents / 100 * 100 + cents % 100 = cents := Nat.div_add_mod' cents 100
  have hparts' : ((cents / 100 : Nat) : Rat) * 100 + ((cents % 100 : Nat) : Rat) = cents := by
    exact_mod_cast hparts
  unfold DollarAmount.value writtenAmount
  rw [digitsValue_append, digitsValue_replicate, digitsValue_toDigits, hlength, hcents,
    ← hparts']
  push_cast
  ring

/-- The text of an amount is read as this amount whatever separators and zeros are added, a
text that is read denotes what it is read as, and nothing is read as zero, as a negative or as
an unsafe number. -/
theorem parseMoneyAmountToCents_exact :
    (∀ c : Int, 1 ≤ c → c ≤ MAX_SAFE_INTEGER → ∀ (raw : String) (zeros : Nat),
      significant raw = List.replicate zeros '0' ++ (centsToDecimalString c).toList →
        parseMoneyAmountToCents (some raw) false = .ok c) ∧
    (∀ (raw : Option String) (c : Int), parseMoneyAmountToCents raw false = .ok c →
      ∃ a : DollarAmount, a.text = significant (raw.getD "") ∧ a.value = (c : Rat) / 100) ∧
    (∀ (raw : Option String) (c : Int), parseMoneyAmountToCents raw true = .ok c →
      AllDigits (trim (raw.getD "")).toList ∧
        (digitsValue (trim (raw.getD "")).toList : Int) = c) ∧
    ∀ (raw : Option String) (assumeCents : Bool) (c : Int),
      parseMoneyAmountToCents raw assumeCents = .ok c → 1 ≤ c ∧ c ≤ MAX_SAFE_INTEGER := by
  refine ⟨fun c hpos hsafe raw zeros hraw => ?_, fun raw c h => ?_, fun raw c h => ?_,
    fun raw assumeCents c h => ?_⟩
  · obtain ⟨cents, rfl⟩ := Int.eq_ofNat_of_zero_le (by omega : 0 ≤ c)
    exact parseMoneyAmountToCents_eq_ok.mpr ⟨writtenAmount zeros cents,
      (text_writtenAmount zeros cents).trans hraw.symm, value_writtenAmount zeros cents, hpos, hsafe⟩
  · obtain ⟨a, htext, hvalue, -⟩ := parseMoneyAmountToCents_eq_ok.mp h
    exact ⟨a, htext, hvalue⟩
  · obtain ⟨-, hdigits, hvalue, -⟩ := parseMoneyAmountToCents_cents.mp h
    exact ⟨hdigits, hvalue⟩
  · cases assumeCents with
    | false =>
        obtain ⟨-, -, -, hrange⟩ := parseMoneyAmountToCents_eq_ok.mp h
        exact hrange
    | true =>
        obtain ⟨-, -, -, hrange⟩ := parseMoneyAmountToCents_cents.mp h
        exact hrange

end Refearn.Sales
