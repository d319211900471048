import Refearn.Checks.Words
import Refearn.Support.Pieces
import Refearn.Support.TimeZone
import Mathlib.Tactic
/-!
# Amounts in words are read back

The phrase is the words of `numberWords` with one blank between two of them. Each word
and each group reads back by itself; the loop over the groups only puts them in front of
what is there already.
-/

namespace Refearn.Checks

open Support

/-! ## Words -/

/-- A word that counts: it is not the name of a group. -/
def CountWord (w : Word) : Prop := w ≠ [] ∧ ' ' ∉ w ∧ w ∉ groups

instance (w : Word) : Decidable (CountWord w) := by
  unfold CountWord
  infer_instance

def tensWord (n : Nat) : Word :=
  if 20 ≤ n then entry TENS (n / 10) ++ (if n % 10 ≠ 0 then '-' :: entry ONES (n % 10) else [])
  else entry ONES n

def groupWords (n : Nat) : List Word :=
  (if 100 ≤ n then [entry ONES (n / 100), HUNDRED] else []) ++
    (if n % 100 ≠ 0 then [tensWord (n % 100)] else [])

theorem hyphen_notMem_groups : ∀ w ∈ groups, '-' ∉ w := by decide

theorem ones_spec : ∀ n < 20, 0 < n → CountWord (entry ONES n) ∧ '-' ∉ entry ONES n ∧
    smallNumbers.lookup (entry ONES n) = some n := by
  decide

theorem tens_spec : ∀ d < 10, 2 ≤ d → CountWord (entry TENS d) ∧ '-' ∉ entry TENS d ∧
    smallNumbers.lookup (entry TENS d) = none ∧
      tensNumbers.lookup (entry TENS d) = some (10 * d) := by
  decide

theorem digitWord_spec (d : Nat) (hd : d < 10) (hpos : 0 < d) :
    CountWord (entry ONES d) ∧ readDigit (entry ONES d) = some d := by
  obtain ⟨hcount, -, hlookup⟩ := ones_spec d (by omega) hpos
  refine ⟨hcount, ?_⟩
  rw [readDigit, hlookup]
  exact if_pos (decide_eq_true hd)

/-- Two words that count, joined by a hyphen, are one that does. -/
theorem countWord_joined {a b : Word} (ha : CountWord a) (hb : CountWord b) :
    CountWord (a ++ '-' :: b) := by
  refine ⟨List.append_ne_nil_of_left_ne_nil ha.1 _, fun hblank => ?_, fun hgroup => ?_⟩
  · rcases List.mem_append.mp hblank with h | h
    · exact ha.2.1 h
    · rcases List.mem_cons.mp h with h | h
      · exact absurd h (by decide)
      · exact hb.2.1 h
  · exact hyphen_notMem_groups _ hgroup (List.mem_append_right _ (List.mem_cons_self ..))

theorem tensWord_spec (n : Nat) (hn : n < 100) (hpos : 0 < n) :
    CountWord (tensWord n) ∧ readTens (tensWord n) = some n := by
  unfold tensWord
  by_cases htwenty : 20 ≤ n
  · obtain ⟨hcount, hhyphen, hsmall, htens⟩ := tens_spec (n / 10) (by omega) (by omega)
    rw [if_pos htwenty]
    by_cases hrest : n % 10 = 0
    · have hsum : 10 * (n / 10) = n := by omega
      rw [if_neg (not_not.mpr hrest), List.append_nil, readTens,
        List.splitOn_eq_singleton hhyphen]
      refine ⟨hcount, ?_⟩
      simp only [hsmall, htens, hsum]
      rfl
    · obtain ⟨hcount', hdigit⟩ := digitWord_spec (n % 10) (by omega) (by omega)
      have hhyphen' := (ones_spec (n % 10) (by omega) (by omega)).2.1
      have hsum : 10 * (n / 10) + n % 10 = n := Nat.div_add_mod n 10
      rw [if_pos hrest, readTens, List.splitOn_append_cons_self_of_not_mem hhyphen,
        List.splitOn_eq_singleton hhyphen']
      refine ⟨countWord_joined hcount hcount', ?_⟩
      simp only [htens, hdigit]
      exact congrArg some hsum
  · obtain ⟨hcount, hhyphen, hlookup⟩ := ones_spec n (by omega) hpos
    rw [if_neg htwenty, readTens, List.splitOn_eq_singleton hhyphen]
    refine ⟨hcount, ?_⟩
    simp only [hlookup]
    rfl

theorem countWord_hundred : CountWord HUNDRED := by decide

theorem countWord_groupWords {n : Nat} (hn : n < 1000) {w : Word} (hw : w ∈ groupWords n) :
    CountWord w := by
  rcases List.mem_append.mp hw with hw | hw
  · split_ifs at hw with hhundred
    · rcases List.mem_cons.mp hw with rfl | hw
      · exact (digitWord_spec (n / 100) (by omega) (by omega)).1
      · rw [List.mem_singleton.mp hw]
        exact countWord_hundred
    · exact absurd hw List.not_mem_nil
  · split_ifs at hw with hrest
    · rw [List.mem_singleton.mp hw]
      exact (tensWord_spec (n % 100) (by omega) (by omega)).1
    · exact absurd hw List.not_mem_nil

theorem groupWords_ne_nil {n : Nat} (hn : 0 < n) : groupWords n ≠ [] := by
  unfold groupWords
  by_cases hhundred : 100 ≤ n
  · rw [if_pos hhundred]
    exact List.append_ne_nil_of_left_ne_nil (List.cons_ne_nil _ _) _
  · rw [if_pos (show n % 100 ≠ 0 by omega)]
    exact List.append_ne_nil_of_right_ne_nil _ (List.cons_ne_nil _ _)

/-- A group reads back. -/
theorem readGroup_groupWords {n : Nat} (hpos : 0 < n) (hn : n < 1000) :
    readGroup (groupWords n) = some n := by
  unfold groupWords
  by_cases hhundred : 100 ≤ n
  · have hdigit := (digitWord_spec (n / 100) (by omega) (by omega)).2
    rw [if_pos hhundred]
    by_cases hrest : n % 100 ≠ 0
    · have htens := (tensWord_spec (n % 100) (by omega) (by omega)).2
      have hsum : 100 * (n / 100) + n % 100 = n := Nat.div_add_mod n 100
      simp [hrest, readGroup, hdigit, htens, hsum]
    · have hsum : 100 * (n / 100) = n := by omega
      simp [hrest, readGroup, hdigit, hsum]
  · have hsmall : n % 100 = n := Nat.mod_eq_of_lt (by omega)
    rw [if_neg hhundred, hsmall, if_pos (by omega)]
    exact (tensWord_spec n (by omega) hpos).2

/-! ## Texts -/

theorem blank_hundred : " Hundred".toList = ' ' :: HUNDRED := by decide

/-- The part of `threeDigits` below a hundred. -/
theorem tensWord_text {n : Nat} (hpos : 0 < n) (s : List Char) :
    (if 20 ≤ n then
        s ++ entry TENS (n / 10) ++ (if n % 10 ≠ 0 then '-' :: entry ONES (n % 10) else [])
      else if 0 < n then s ++ entry ONES n else s) = s ++ tensWord n := by
  unfold tensWord
  by_cases htwenty : 20 ≤ n
  · rw [if_pos htwenty, if_pos htwenty, List.append_assoc]
  · rw [if_neg htwenty, if_neg htwenty, if_pos hpos]

theorem threeDigits_eq (n : Nat) : threeDigits n = [' '].intercalate (groupWords n) := by
  unfold threeDigits groupWords
  by_cases hhundred : 100 ≤ n
  · simp only [if_pos hhundred, blank_hundred]
    by_cases hrest : n % 100 = 0
    · simp only [hrest, ne_eq, not_true_eq_false, if_false, List.append_nil,
        List.intercalate_cons_cons, List.intercalate_singleton, List.append_assoc]
      rfl
    · rw [tensWord_text (Nat.pos_of_ne_zero hrest), if_pos hrest, if_pos hrest]
      simp only [List.cons_append, List.nil_append, List.intercalate_cons_cons,
        List.intercalate_singleton, List.append_assoc]
  · have hsmall : n % 100 = n := Nat.mod_eq_of_lt (by omega)
    simp only [if_neg hhundred, hsmall, List.nil_append]
    by_cases hzero : n = 0
    · rw [hzero]
      rfl
    · have htens := tensWord_text (Nat.pos_of_ne_zero hzero) []
      simp only [List.nil_append] at htens
      rw [if_pos hzero, List.intercalate_singleton, htens]

/-! ## The loop -/

/-- The words of one turn of the loop. -/
def chunkWords (g chunk : Nat) : List Word :=
  if chunk ≠ 0 then
    groupWords chunk ++ (if groups.getD g [] ≠ [] then [groups.getD g []] else [])
  else []

def numberWords (g n : Nat) : List Word :=
  if n = 0 then [] else numberWords (g + 1) (n / 1000) ++ chunkWords g (n % 1000)
termination_by n

theorem word_of_mem_chunkWords {g chunk : Nat} (hchunk : chunk < 1000) {w : Word}
    (hw : w ∈ chunkWords g chunk) : CountWord w ∨ (w = groups.getD g [] ∧ w ≠ []) := by
  unfold chunkWords at hw
  split_ifs at hw with hzero hname
  · rcases List.mem_append.mp hw with hw | hw
    · exact .inl (countWord_groupWords hchunk hw)
    · have heq := List.mem_singleton.mp hw
      exact .inr ⟨heq, heq ▸ hname⟩
  · rw [List.append_nil] at hw
    exact .inl (countWord_groupWords hchunk hw)
  · exact absurd hw List.not_mem_nil

theorem blank_notMem_groups : ∀ w ∈ groups, ' ' ∉ w := by decide

theorem blank_notMem_name (g : Nat) : ' ' ∉ groups.getD g [] := by
  rw [List.getD_eq_getElem?_getD]
  cases hname : groups[g]? with
  | none => exact List.not_mem_nil
  | some w => exact blank_notMem_groups w (List.mem_of_getElem? hname)

/-- Every word of a number is a word: it is there and has no blank. -/
theorem word_of_mem_numberWords {g n : Nat} {w : Word} (hw : w ∈ numberWords g n) :
    w ≠ [] ∧ ' ' ∉ w := by
  induction n using Nat.strong_induction_on generalizing g with
  | _ n ih =>
      rw [numberWords] at hw
      split_ifs at hw with hzero
      · exact absurd hw List.not_mem_nil
      · rcases List.mem_append.mp hw with hw | hw
        · exact ih (n / 1000) (by omega) hw
        · rcases word_of_mem_chunkWords (Nat.mod_lt _ (by omega)) hw with h | ⟨heq, hne⟩
          · exact ⟨h.1, h.2.1⟩
          · exact ⟨hne, heq ▸ blank_notMem_name g⟩

/-- One turn of the loop puts the words of the chunk in front. -/
theorem chunk_text (g chunk : Nat) (ws : List Word) (hws : ∀ w ∈ ws, w ≠ []) :
    (if chunk ≠ 0 then
        threeDigits chunk ++ (if groups.getD g [] ≠ [] then ' ' :: groups.getD g [] else []) ++
          (if [' '].intercalate ws ≠ [] then ' ' :: [' '].intercalate ws else [])
      else [' '].intercalate ws) = [' '].intercalate (chunkWords g chunk ++ ws) := by
  unfold chunkWords
  by_cases hchunk : chunk = 0
  · simp [hchunk]
  · have hgroup := groupWords_ne_nil (Nat.pos_of_ne_zero hchunk)
    have hhead : threeDigits chunk ++
        (if groups.getD g [] ≠ [] then ' ' :: groups.getD g [] else []) =
          [' '].intercalate (groupWords chunk ++
            (if groups.getD g [] ≠ [] then [groups.getD g []] else [])) := by
      by_cases hname : groups.getD g [] = []
      · rw [if_neg (not_not.mpr hname), if_neg (not_not.mpr hname), List.append_nil,
          List.append_nil, threeDigits_eq]
      · rw [if_pos hname, if_pos hname, intercalate_append _ hgroup (List.cons_ne_nil _ _),
          threeDigits_eq, List.intercalate_singleton, List.singleton_append]
    rw [if_pos hchunk, if_pos hchunk, hhead]
    by_cases hempty : ws = []
    · rw [hempty, List.append_nil, List.intercalate_nil, if_neg (not_not.mpr rfl),
        List.append_nil]
    · rw [if_pos (intercalate_ne_nil _ hempty hws), intercalate_append _ ?_ hempty,
        List.singleton_append]
      exact List.append_ne_nil_of_left_ne_nil hgroup _

theorem groupsToWords_eq (n g : Nat) {ws : List Word} (hws : ∀ w ∈ ws, w ≠ []) :
    groupsToWords g n ([' '].intercalate ws) = [' '].intercalate (numberWords g n ++ ws) := by
  induction n using Nat.strong_induction_on generalizing g ws with
  | _ n ih =>
      rw [groupsToWords, numberWords]
      by_cases hzero : n = 0
      · rw [if_pos hzero, if_pos hzero, List.nil_append]
      · rw [if_neg hzero, if_neg hzero]
        simp only
        rw [chunk_text g (n % 1000) ws hws, ih (n / 1000) (by omega), List.append_assoc]
        intro w hw
        rcases List.mem_append.mp hw with hw | hw
        · rcases word_of_mem_chunkWords (Nat.mod_lt _ (by omega)) hw with h | ⟨-, hne⟩
          · exact h.1
          · exact hne
        · exact hws w hw

/-- The words of a count of dollars. -/
def dollarWords (n : Nat) : List Word := if n = 0 then [ZERO] else numberWords 0 n

theorem intToWords_natCast (n : Nat) : intToWords n = [' '].intercalate (dollarWords n) := by
  unfold intToWords dollarWords
  by_cases hzero : n = 0
  · simp [hzero, ZERO]
  · have hcast : (n : Int) ≠ 0 := by omega
    rw [if_neg hzero, if_neg hcast, Int.toNat_natCast]
    have h := groupsToWords_eq n 0 (nofun : ∀ w ∈ ([] : List Word), w ≠ [])
    rwa [List.append_nil] at h

/-! ## Reading groups -/

theorem numberWords_step (g n : Nat) :
    numberWords g n = numberWords (g + 1) (n / 1000) ++ chunkWords g (n % 1000) := by
  by_cases hzero : n = 0
  · rw [hzero, numberWords, if_pos rfl, numberWords, if_pos rfl]
    rfl
  · rw [numberWords, if_neg hzero]

/-- Below a billion of thousands there are four groups. -/
theorem numberWords_zero {n : Nat} (hn : n < 10 ^ 12) :
    numberWords 0 n = chunkWords 3 (n / 10 ^ 9) ++ (chunkWords 2 (n / 10 ^ 6 % 1000) ++
      (chunkWords 1 (n / 10 ^ 3 % 1000) ++ chunkWords 0 (n % 1000))) := by
  have hmillion : n / 1000 / 1000 = n / 10 ^ 6 := by omega
  have hbillion : n / 1000 / 1000 / 1000 = n / 10 ^ 9 := by omega
  have hend : n / 10 ^ 9 / 1000 = 0 := by omega
  rw [numberWords_step, numberWords_step, numberWords_step, numberWords_step, hbillion,
    hmillion, hend, numberWords, if_pos rfl, List.nil_append,
    Nat.mod_eq_of_lt (show n / 10 ^ 9 < 1000 by omega), List.append_assoc, List.append_assoc]
  rfl

theorem chunkWords_named {g k : Nat} {name : Word} (hname : groups.getD g [] = name)
    (hne : name ≠ []) : chunkWords g k = if k = 0 then [] else groupWords k ++ [name] := by
  by_cases hk : k = 0
  · simp [chunkWords, hk]
  · rw [if_neg hk, chunkWords, if_pos hk, hname, if_pos hne]

/-- The name of a group does not stand among the words of another. -/
theorem name_notMem_chunkWords {g k : Nat} (hk : k < 1000) {name : Word}
    (hgroup : name ∈ groups) (hother : groups.getD g [] ≠ name) : name ∉ chunkWords g k := by
  intro hmem
  rcases word_of_mem_chunkWords hk hmem with hcount | ⟨heq, -⟩
  · exact hcount.2.2 hgroup
  · exact hother heq.symm

/-- Each group but the first has a name, and no two have the same. -/
theorem groupName_spec : ∀ g < 4, 0 < g → groups.getD g [] ≠ [] ∧ groups.getD g [] ∈ groups ∧
    ∀ g' < g, groups.getD g' [] ≠ groups.getD g [] := by
  decide

/-- One group is read and the smaller ones after it. -/
theorem readGroups_cons (g k value : Nat) {n : Nat} {smaller : List (Word × Nat)}
    {rest : List Word} (hg : g < 4) (hpos : 0 < g) (hk : k < 1000)
    (hrest : groups.getD g [] ∉ rest) (hread : readGroups smaller rest = some n) :
    readGroups ((groups.getD g [], value) :: smaller) (chunkWords g k ++ rest) =
      some (k * value + n) := by
  obtain ⟨hne, hgroup, -⟩ := groupName_spec g hg hpos
  rw [chunkWords_named rfl hne]
  generalize groups.getD g [] = name at *
  by_cases hzero : k = 0
  · rw [if_pos hzero, List.nil_append, readGroups, List.splitOn_eq_singleton hrest, hzero]
    simpa using hread
  · have hwords : name ∉ groupWords k := fun h => (countWord_groupWords hk h).2.2 hgroup
    rw [if_neg hzero, List.append_assoc, List.singleton_append, readGroups,
      List.splitOn_append_cons_self_of_not_mem hwords, List.splitOn_eq_singleton hrest]
    simp only [readGroup_groupWords (Nat.pos_of_ne_zero hzero) hk, hread]
    rfl

theorem readGroups_last {k : Nat} (hk : k < 1000) :
    readGroups [] (chunkWords 0 k) = some k := by
  by_cases hzero : k = 0
  · rw [hzero]
    rfl
  · have hwords : chunkWords 0 k = groupWords k := by
      rw [chunkWords, if_pos hzero, if_neg (by decide), List.append_nil]
    rw [hwords, readGroups, if_neg (groupWords_ne_nil (Nat.pos_of_ne_zero hzero)),
      readGroup_groupWords (Nat.pos_of_ne_zero hzero) hk]

theorem scales_eq : scales = [(groups.getD 3 [], 10 ^ 9), (groups.getD 2 [], 10 ^ 6),
    (groups.getD 1 [], 10 ^ 3)] := by
  decide

/-- The name of a group does not stand among the words of a smaller one. -/
theorem name_notMem_smaller {g g' k : Nat} (hg : g < 4) (hsmaller : g' < g) (hk : k < 1000) :
    groups.getD g [] ∉ chunkWords g' k := by
  obtain ⟨-, hgroup, hother⟩ := groupName_spec g hg (by omega)
  exact name_notMem_chunkWords hk hgroup (hother g' hsmaller)

/-- The words of a number are read back. -/
theorem readGroups_numberWords {n : Nat} (hn : n < 10 ^ 12) :
    readGroups scales (numberWords 0 n) = some n := by
  have hlast := readGroups_last (k := n % 1000) (by omega)
  have hthousand := readGroups_cons 1 (n / 10 ^ 3 % 1000) (10 ^ 3) (by omega) (by omega)
    (by omega) (name_notMem_smaller (by omega) (by omega) (by omega)) hlast
  have hmillion := readGroups_cons 2 (n / 10 ^ 6 % 1000) (10 ^ 6) (by omega) (by omega)
    (by omega)
    (List.not_mem_append (name_notMem_smaller (by omega) (by omega) (by omega))
      (name_notMem_smaller (by omega) (by omega) (by omega)))
    hthousand
  have hbillion := readGroups_cons 3 (n / 10 ^ 9) (10 ^ 9) (by omega) (by omega) (by omega)
    (List.not_mem_append (name_notMem_smaller (by omega) (by omega) (by omega))
      (List.not_mem_append (name_notMem_smaller (by omega) (by omega) (by omega))
        (name_notMem_smaller (by omega) (by omega) (by omega))))
    hmillion
  have hsum : n / 10 ^ 9 * 10 ^ 9 + (n / 10 ^ 6 % 1000 * 10 ^ 6 +
      (n / 10 ^ 3 % 1000 * 10 ^ 3 + n % 1000)) = n := by omega
  rw [numberWords_zero hn, scales_eq]
  exact hbillion.trans (congrArg some hsum)

theorem numberWords_ne_nil {n : Nat} (hpos : 0 < n) (hn : n < 10 ^ 12) :
    numberWords 0 n ≠ [] := by
  intro hnil
  have hread := readGroups_numberWords hn
  rw [hnil] at hread
  have hzero : (some 0 : Option Nat) = some n := hread
  have := Option.some.inj hzero
  omega

theorem readDollars_dollarWords {n : Nat} (hn : n < 10 ^ 12) :
    readDollars (dollarWords n) = some n := by
  by_cases hzero : n = 0
  · rw [hzero]
    decide
  · have hread := readGroups_numberWords hn
    have hne := numberWords_ne_nil (Nat.pos_of_ne_zero hzero) hn
    have hword : numberWords 0 n ≠ [ZERO] := by
      intro heq
      rw [heq] at hread
      have hnone : readGroups scales [ZERO] = none := by decide
      rw [hnone] at hread
      cases hread
    rw [dollarWords, if_neg hzero, readDollars, if_neg hne, if_neg hword, hread]

theorem word_of_mem_dollarWords {n : Nat} {w : Word} (hw : w ∈ dollarWords n) :
    w ≠ [] ∧ ' ' ∉ w := by
  unfold dollarWords at hw
  split_ifs at hw with hzero
  · rw [List.mem_singleton.mp hw]
    decide
  · exact word_of_mem_numberWords hw

theorem dollarWords_ne_nil {n : Nat} (hn : n < 10 ^ 12) : dollarWords n ≠ [] := by
  intro hnil
  have hread := readDollars_dollarWords hn
  rw [hnil] at hread
  cases hread

/-! ## The phrase -/

def hundredths (c : Nat) : Word := padded 2 c ++ "/100".toList

theorem hundredths_spec : ∀ c < 100,
    (hundredths c ≠ [] ∧ ' ' ∉ hundredths c) ∧ readHundredths (hundredths c) = some c := by
  decide

def phraseWords (cents : Nat) : List Word :=
  dollarWords (cents / 100) ++ [AND, hundredths (cents % 100)]

theorem centsToWords_natCast {cents : Nat} (hmax : cents < 10 ^ 14) :
    centsToWords cents = [' '].intercalate (phraseWords cents) := by
  have hdollars : (cents : Int).tdiv 100 = ((cents / 100 : Nat) : Int) := rfl
  have hcents : (cents : Int).tmod 100 = ((cents % 100 : Nat) : Int) := rfl
  have hdigits : (Json.decimal ((cents % 100 : Nat) : Int)).leftpad 2 '0' =
      padded 2 (cents % 100) := rfl
  have hblank : " and ".toList = ' ' :: (AND ++ [' ']) := by decide
  rw [centsToWords, phraseWords, hdollars, hcents, hdigits, hblank, intToWords_natCast,
    intercalate_append _ (dollarWords_ne_nil (by omega)) (List.cons_ne_nil _ _)]
  simp only [hundredths, List.intercalate_cons_cons, List.intercalate_singleton,
    List.append_assoc, List.cons_append, List.nil_append]

theorem word_of_mem_phraseWords {cents : Nat} {w : Word} (hw : w ∈ phraseWords cents) :
    w ≠ [] ∧ ' ' ∉ w := by
  rcases List.mem_append.mp hw with hw | hw
  · exact word_of_mem_dollarWords hw
  · rcases List.mem_cons.mp hw with rfl | hw
    · decide
    · rw [List.mem_singleton.mp hw]
      exact (hundredths_spec (cents % 100) (Nat.mod_lt _ (by decide))).1

theorem splitOn_centsToWords {cents : Nat} (hmax : cents < 10 ^ 14) :
    (centsToWords cents).splitOn ' ' = phraseWords cents := by
  rw [centsToWords_natCast hmax]
  apply List.splitOn_intercalate
  · exact fun w hw => (word_of_mem_phraseWords hw).2
  · exact List.append_ne_nil_of_right_ne_nil _ (List.cons_ne_nil _ _)

theorem readCents_centsToWords {cents : Nat} (hmax : cents < 10 ^ 14) :
    readCents (centsToWords cents) = some cents := by
  have hdollars := readDollars_dollarWords (n := cents / 100) (by omega)
  have hcents := (hundredths_spec (cents % 100) (Nat.mod_lt _ (by decide))).2
  have hsum : 100 * (cents / 100) + cents % 100 = cents := Nat.div_add_mod cents 100
  rw [readCents, splitOn_centsToWords hmax, phraseWords, List.reverse_append]
  simp [hdollars, hcents, hsum]

/-! ## Form -/

theorem noStrayBlank_of_pieces {phrase : List Char} (h : [] ∉ phrase.splitOn ' ') :
    NoStrayBlank phrase := by
  refine ⟨fun hhead => h ?_, fun hlast => h ?_, ?_⟩
  · obtain ⟨rest, rfl⟩ := List.head?_eq_some_iff.mp hhead
    rw [← List.nil_append (' ' :: rest), List.splitOn_append_cons_self]
    exact List.mem_append_left _ (List.mem_singleton_self _)
  · obtain ⟨front, rfl⟩ := List.getLast?_eq_some_iff.mp hlast
    rw [List.splitOn_append_cons_self]
    exact List.mem_append_right _ (List.mem_singleton_self _)
  · rintro ⟨front, rest, rfl⟩
    apply h
    rw [List.append_assoc, List.cons_append, List.splitOn_append_cons_self,
      List.singleton_append, ← List.nil_append (' ' :: rest), List.splitOn_append_cons_self]
    exact List.mem_append_right _ (List.mem_append_left _ (List.mem_singleton_self _))

theorem noEmptyGroup_nil : NoEmptyGroup [] := ⟨nofun, .nil⟩

theorem noEmptyGroup_append {as bs : List Word} (ha : NoEmptyGroup as)
    (hb : NoEmptyGroup bs) : NoEmptyGroup (as ++ bs) := by
  constructor
  · intro w hw
    rw [List.head?_append] at hw
    rcases Option.or_eq_some_iff.mp hw with hw | ⟨-, hw⟩
    · exact ha.head w hw
    · exact hb.head w hw
  · refine List.isChain_append.mpr ⟨ha.next, hb.next, ?_⟩
    intro a _ b hhead hgroup
    exact absurd hgroup (hb.head b hhead)

theorem noEmptyGroup_of_counts {as : List Word} (has : ∀ w ∈ as, CountWord w) :
    NoEmptyGroup as := by
  constructor
  · exact fun w hw => (has w (List.mem_of_head? hw)).2.2
  · have hpairwise : as.Pairwise fun a b => b ∈ groups → a ∉ groups :=
      List.pairwise_of_forall_mem_list fun a ha _ _ _ => (has a ha).2.2
    exact hpairwise.isChain

/-- The name of a group after its count. -/
theorem noEmptyGroup_counts_append {as : List Word} (has : ∀ w ∈ as, CountWord w)
    (hne : as ≠ []) (name : Word) : NoEmptyGroup (as ++ [name]) := by
  constructor
  · intro w hw
    rw [List.head?_append_of_ne_nil _ hne] at hw
    exact (has w (List.mem_of_head? hw)).2.2
  · refine List.isChain_append.mpr
      ⟨(noEmptyGroup_of_counts has).next, List.isChain_singleton _, ?_⟩
    intro a hlast _ _ _
    exact (has a (List.mem_of_getLast? hlast)).2.2

theorem noEmptyGroup_chunkWords {g chunk : Nat} (hchunk : chunk < 1000) :
    NoEmptyGroup (chunkWords g chunk) := by
  have hcounts : ∀ w ∈ groupWords chunk, CountWord w :=
    fun w hw => countWord_groupWords hchunk hw
  unfold chunkWords
  split_ifs with hzero hname
  · exact noEmptyGroup_counts_append hcounts
      (groupWords_ne_nil (Nat.pos_of_ne_zero hzero)) _
  · rw [List.append_nil]
    exact noEmptyGroup_of_counts hcounts
  · exact noEmptyGroup_nil

theorem noEmptyGroup_numberWords (g n : Nat) : NoEmptyGroup (numberWords g n) := by
  induction n using Nat.strong_induction_on generalizing g with
  | _ n ih =>
      rw [numberWords]
      split_ifs with hzero
      · exact noEmptyGroup_nil
      · exact noEmptyGroup_append (ih (n / 1000) (by omega) (g + 1))
          (noEmptyGroup_chunkWords (Nat.mod_lt _ (by decide)))

theorem hundredths_notMem_groups : ∀ c < 100, hundredths c ∉ groups := by decide

theorem noEmptyGroup_phraseWords (cents : Nat) : NoEmptyGroup (phraseWords cents) := by
  apply noEmptyGroup_append
  · unfold dollarWords
    split_ifs with hzero
    · exact noEmptyGroup_of_counts (by decide)
    · exact noEmptyGroup_numberWords 0 _
  · apply noEmptyGroup_of_counts
    intro w hw
    rcases List.mem_cons.mp hw with rfl | hw
    · decide
    · have hlt : cents % 100 < 100 := Nat.mod_lt _ (by decide)
      have hword := (hundredths_spec (cents % 100) hlt).1
      rw [List.mem_singleton.mp hw]
      exact ⟨hword.1, hword.2, hundredths_notMem_groups (cents % 100) hlt⟩

/-! ## Result -/

/-- The phrase of an amount within the limit of a check reads back as the amount, so two
amounts never share a phrase; every group in it counts something and its words stand one
blank apart. -/
theorem centsToWords_faithful (c : Int) (hpos : 0 < c) (hmax : c ≤ CHECK_AMOUNT_MAX) :
    ((readCents (centsToWords c)).map Int.ofNat = some c) ∧
      (∀ c', 0 < c' → c' ≤ CHECK_AMOUNT_MAX → centsToWords c' = centsToWords c → c' = c) ∧
      NoEmptyGroup ((centsToWords c).splitOn ' ') ∧ NoStrayBlank (centsToWords c) := by
  have hread : ∀ c : Int, 0 < c → c ≤ CHECK_AMOUNT_MAX →
      (readCents (centsToWords c)).map Int.ofNat = some c := by
    intro c hpos hmax
    obtain ⟨cents, rfl⟩ := Int.eq_ofNat_of_zero_le hpos.le
    have hlimit : cents < 10 ^ 14 := by unfold CHECK_AMOUNT_MAX at hmax; omega
    rw [readCents_centsToWords hlimit]
    rfl
  refine ⟨hread c hpos hmax, ?_, ?_⟩
  · intro c' hpos' hmax' hphrase
    have hsame := hread c' hpos' hmax'
    rw [hphrase, hread c hpos hmax] at hsame
    exact (Option.some.inj hsame).symm
  · obtain ⟨cents, rfl⟩ := Int.eq_ofNat_of_zero_le hpos.le
    have hlimit : cents < 10 ^ 14 := by unfold CHECK_AMOUNT_MAX at hmax; omega
    have hpieces := splitOn_centsToWords hlimit
    refine ⟨?_, noStrayBlank_of_pieces ?_⟩
    · rw [hpieces]
      exact noEmptyGroup_phraseWords cents
    · rw [hpieces]
      exact fun h => (word_of_mem_phraseWords h).1 rfl

/-- A million dollars and five cents: the group of thousands and the last one are left
out. -/
theorem centsToWords_faithful_million :
    (readCents "One Million and 05/100".toList).map Int.ofNat = some 100000005 := by
  have hphrase : "One Million and 05/100".toList = centsToWords 100000005 := by
    have hcast : (100000005 : Int) = ((100000005 : Nat) : Int) := rfl
    rw [hcast, centsToWords_natCast (by decide), phraseWords, dollarWords, if_neg (by decide),
      numberWords_zero (by decide)]
    decide
  rw [hphrase]
  exact (centsToWords_faithful 100000005 (by decide) (by decide)).1

end Refearn.Checks
