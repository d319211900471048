import Refearn.Support.TimeZone
/-!
# Canonical dates

`Date.prototype.toISOString`, and the texts that `Date.parse` and `toISOString` give back as
they are. Years outside of 0 to 9999 have a sign and six digits.
-/

namespace Refearn.Support.IsoDate

open TimeZone

/-- The furthest instant that a date can hold, in milliseconds. -/
def MAX_TIME : Int := 8640000000000000

def Representable (t : Int) : Prop := -MAX_TIME ≤ t ∧ t ≤ MAX_TIME

instance (t : Int) : Decidable (Representable t) :=
  inferInstanceAs (Decidable (_ ∧ _))

def yearChars (year : Int) : List Char :=
  if 0 ≤ year ∧ year ≤ 9999 then padded 4 year.toNat
  else (if year < 0 then '-' else '+') :: padded 6 year.natAbs

/-- Month, day and time of day. -/
def clockChars (month day hour minute second milli : Nat) : List Char :=
  '-' :: (padded 2 month ++ '-' :: (padded 2 day ++ 'T' :: (padded 2 hour ++
    ':' :: (padded 2 minute ++ ':' :: (padded 2 second ++ '.' :: (padded 3 milli ++ ['Z']))))))

/-- The milliseconds since the day began. -/
def timeOfDay (t : Int) : Nat := (t % DAY_MILLIS).toNat

/-- The days since the month began, from 1 on. -/
def dayOfMonth (day : Int) : Nat := (day - monthStart (monthOf day) + 1).toNat

/-- `toISOString`. -/
def toISOString (t : Int) : List Char :=
  let day := t / DAY_MILLIS
  let k := monthOf day
  let time := timeOfDay t
  yearChars (k / 12) ++ clockChars (k % 12 + 1).toNat (dayOfMonth day) (time / 3600000)
    (time / 60000 % 60) (time / 1000 % 60) (time % 1000)

def digitsAt (cs : List Char) (i width : Nat) : Nat :=
  Nat.ofDigitChars 10 ((cs.drop i).take width) 0

def readYear : List Char → Int
  | '-' :: digits => -(Nat.ofDigitChars 10 digits 0 : Int)
  | '+' :: digits => Nat.ofDigitChars 10 digits 0
  | digits => Nat.ofDigitChars 10 digits 0

/-- What month, day and time of day are read as, counted from the year on. -/
def readClock (year : Int) (cs : List Char) : Int :=
  (monthStart (12 * year + (digitsAt cs 1 2 - 1)) + (digitsAt cs 4 2 - 1)) * DAY_MILLIS +
    (digitsAt cs 7 2 * 3600000 + digitsAt cs 10 2 * 60000 + digitsAt cs 13 2 * 1000 +
      digitsAt cs 16 3 : Nat)

/-- The only instant that a text can be the text of. -/
def read (cs : List Char) : Int :=
  readClock (readYear (cs.take (cs.length - 20))) (cs.drop (cs.length - 20))

/-- The instant of a canonical date. -/
def canonicalDate (cs : List Char) : Option Int :=
  if Representable (read cs) ∧ toISOString (read cs) = cs then some (read cs) else none

/-! ## Reading a written date -/

theorem length_padded_of_lt {width n : Nat} (hwidth : 0 < width) (h : n < 10 ^ width) :
    (padded width n).length = width := by
  rw [length_padded]
  have hle : (Nat.toDigits 10 n).length ≤ width :=
    (Nat.length_toDigits_le_iff (by decide) hwidth).mpr h
  exact Nat.max_eq_left hle

theorem padded_two {n : Nat} (h : n < 100) : ∃ a b, padded 2 n = [a, b] :=
  List.length_eq_two.mp (length_padded_of_lt (by decide) h)

theorem padded_three {n : Nat} (h : n < 1000) : ∃ a b c, padded 3 n = [a, b, c] :=
  List.length_eq_three.mp (length_padded_of_lt (by decide) h)

theorem length_clockChars {month day hour minute second milli : Nat} (hmonth : month < 100)
    (hday : day < 100) (hhour : hour < 100) (hminute : minute < 100) (hsecond : second < 100)
    (hmilli : milli < 1000) :
    (clockChars month day hour minute second milli).length = 20 := by
  obtain ⟨a, b, hmonth⟩ := padded_two hmonth
  obtain ⟨c, d, hday⟩ := padded_two hday
  obtain ⟨e, f, hhour⟩ := padded_two hhour
  obtain ⟨g, h, hminute⟩ := padded_two hminute
  obtain ⟨i, j, hsecond⟩ := padded_two hsecond
  obtain ⟨k, l, m, hmilli⟩ := padded_three hmilli
  unfold clockChars
  rw [hmonth, hday, hhour, hminute, hsecond, hmilli]
  rfl

theorem readClock_clockChars (year : Int) {month day hour minute second milli : Nat}
    (hmonth : month < 100) (hday : day < 100) (hhour : hour < 100) (hminute : minute < 100)
    (hsecond : second < 100) (hmilli : milli < 1000) :
    readClock year (clockChars month day hour minute second milli) =
      (monthStart (12 * year + (month - 1)) + (day - 1)) * DAY_MILLIS +
        (hour * 3600000 + minute * 60000 + second * 1000 + milli : Nat) := by
  obtain ⟨a, b, hmonth⟩ := padded_two hmonth
  obtain ⟨c, d, hday⟩ := padded_two hday
  obtain ⟨e, f, hhour⟩ := padded_two hhour
  obtain ⟨g, h, hminute⟩ := padded_two hminute
  obtain ⟨i, j, hsecond⟩ := padded_two hsecond
  obtain ⟨k, l, m, hmilli⟩ := padded_three hmilli
  have hread : ∀ {width n : Nat} {cs : List Char}, padded width n = cs →
      Nat.ofDigitChars 10 cs 0 = n := fun heq => heq ▸ ofDigitChars_padded _ _
  unfold readClock clockChars
  rw [hmonth, hday, hhour, hminute, hsecond, hmilli]
  simp only [digitsAt, List.cons_append, List.nil_append, List.drop_succ_cons, List.drop_zero,
    List.take_succ_cons, List.take_zero]
  rw [hread hmonth, hread hday, hread hhour, hread hminute, hread hsecond, hread hmilli]

theorem readYear_yearChars (year : Int) : readYear (yearChars year) = year := by
  unfold yearChars
  split_ifs with hera hneg
  · have hread : ∀ cs : List Char, (∀ c ∈ cs, c.isDigit = true) →
        readYear cs = Nat.ofDigitChars 10 cs 0 := by
      intro cs hcs
      unfold readYear
      split
      · exact absurd (hcs '-' List.mem_cons_self) (by decide)
      · exact absurd (hcs '+' List.mem_cons_self) (by decide)
      · rfl
    have hdigits : ∀ c ∈ padded 4 year.toNat, c.isDigit = true := by
      intro c hc
      unfold padded List.leftpad at hc
      rcases List.mem_append.mp hc with hzero | hdigit
      · rw [List.eq_of_mem_replicate hzero]
        rfl
      · exact Nat.isDigit_of_mem_toDigits (by decide) (by decide) hdigit
    rw [hread _ hdigits, ofDigitChars_padded]
    exact Int.toNat_of_nonneg hera.1
  · rw [readYear, ofDigitChars_padded]
    omega
  · rw [readYear, ofDigitChars_padded]
    omega

theorem timeOfDay_spec (t : Int) : (timeOfDay t : Int) = t % DAY_MILLIS ∧
    timeOfDay t < 86400000 := by
  have hlo : 0 ≤ t % DAY_MILLIS := Int.emod_nonneg t (by decide)
  have hhi : t % DAY_MILLIS < DAY_MILLIS := Int.emod_lt_of_pos t (by decide)
  unfold timeOfDay
  unfold DAY_MILLIS at *
  omega

theorem dayOfMonth_spec (day : Int) :
    (dayOfMonth day : Int) = day - monthStart (monthOf day) + 1 ∧ dayOfMonth day ≤ 31 := by
  obtain ⟨hlo, hhi⟩ := monthOf_spec day
  rw [monthStart_succ] at hhi
  have hdays := monthDays_bounds (monthOf day / 12) (monthOf day % 12)
  unfold dayOfMonth
  omega

/-- An instant is read off its text. -/
theorem read_toISOString (t : Int) : read (toISOString t) = t := by
  have htime := timeOfDay_spec t
  have hday := dayOfMonth_spec (t / DAY_MILLIS)
  have hmonth : monthOf (t / DAY_MILLIS) % 12 < 12 ∧ 0 ≤ monthOf (t / DAY_MILLIS) % 12 :=
    ⟨Int.emod_lt_of_pos _ (by decide), Int.emod_nonneg _ (by decide)⟩
  have hmonthLt : (monthOf (t / DAY_MILLIS) % 12 + 1).toNat < 100 := by omega
  have hdayLt : dayOfMonth (t / DAY_MILLIS) < 100 := by omega
  have hhour : timeOfDay t / 3600000 < 100 := by omega
  have hminute : timeOfDay t / 60000 % 60 < 100 := by omega
  have hsecond : timeOfDay t / 1000 % 60 < 100 := by omega
  have hmilli : timeOfDay t % 1000 < 1000 := Nat.mod_lt _ (by decide)
  have hlength := length_clockChars hmonthLt hdayLt hhour hminute hsecond hmilli
  have hclock := readClock_clockChars (monthOf (t / DAY_MILLIS) / 12) hmonthLt hdayLt hhour
    hminute hsecond hmilli
  unfold read toISOString
  simp only
  rw [List.length_append, hlength, Nat.add_sub_cancel, List.take_left, List.drop_left,
    readYear_yearChars, hclock]
  have hsplit := Int.mul_ediv_add_emod t DAY_MILLIS
  have hfirst : 12 * (monthOf (t / DAY_MILLIS) / 12) +
      (((monthOf (t / DAY_MILLIS) % 12 + 1).toNat : Int) - 1) = monthOf (t / DAY_MILLIS) := by
    omega
  have hparts : timeOfDay t / 3600000 * 3600000 + timeOfDay t / 60000 % 60 * 60000 +
      timeOfDay t / 1000 % 60 * 1000 + timeOfDay t % 1000 = timeOfDay t := by
    omega
  rw [hfirst, hparts, htime.1, hday.1]
  calc (monthStart (monthOf (t / DAY_MILLIS)) +
        (t / DAY_MILLIS - monthStart (monthOf (t / DAY_MILLIS)) + 1 - 1)) * DAY_MILLIS +
          t % DAY_MILLIS
      = DAY_MILLIS * (t / DAY_MILLIS) + t % DAY_MILLIS := by ring
    _ = t := hsplit

/-- The canonical dates are the texts of the instants that a date can hold. -/
theorem canonicalDate_eq_some_iff {cs : List Char} {t : Int} :
    canonicalDate cs = some t ↔ Representable t ∧ toISOString t = cs := by
  unfold canonicalDate
  constructor
  · intro h
    split_ifs at h with hcanonical
    cases h
    exact hcanonical
  · rintro ⟨ht, rfl⟩
    rw [read_toISOString, if_pos ⟨ht, rfl⟩]

theorem canonicalDate_toISOString {t : Int} (h : Representable t) :
    canonicalDate (toISOString t) = some t :=
  canonicalDate_eq_some_iff.mpr ⟨h, rfl⟩

/-! ## Texts of dates -/

/-- The characters of a date. -/
def isDateChar (c : Char) : Bool := c.isDigit || "+-T:.Z".toList.contains c

theorem isDateChar_padded {width n : Nat} {c : Char} (h : c ∈ padded width n) :
    isDateChar c = true := by
  have hdigit : c.isDigit = true := by
    unfold padded List.leftpad at h
    rcases List.mem_append.mp h with hzero | hdigit
    · rw [List.eq_of_mem_replicate hzero]
      rfl
    · exact Nat.isDigit_of_mem_toDigits (by decide) (by decide) hdigit
  unfold isDateChar
  rw [hdigit, Bool.true_or]

theorem isDateChar_of_mem {t : Int} {c : Char} (h : c ∈ toISOString t) :
    isDateChar c = true := by
  unfold toISOString at h
  simp only at h
  rcases List.mem_append.mp h with hyear | hclock
  · unfold yearChars at hyear
    split_ifs at hyear
    · exact isDateChar_padded hyear
    · rcases List.mem_cons.mp hyear with rfl | hdigit
      · rfl
      · exact isDateChar_padded hdigit
    · rcases List.mem_cons.mp hyear with rfl | hdigit
      · rfl
      · exact isDateChar_padded hdigit
  · unfold clockChars at hclock
    simp only [List.mem_cons, List.mem_append, List.not_mem_nil, or_false] at hclock
    rcases hclock with rfl | h | rfl | h | rfl | h | rfl | h | rfl | h | rfl | h | rfl
    all_goals first | rfl | exact isDateChar_padded h

/-- The years of a date have at most six digits. -/
theorem length_toISOString_le {t : Int} (h : Representable t) :
    (toISOString t).length ≤ 27 := by
  have htime := timeOfDay_spec t
  have hday := dayOfMonth_spec (t / DAY_MILLIS)
  have hmonth : monthOf (t / DAY_MILLIS) % 12 < 12 ∧ 0 ≤ monthOf (t / DAY_MILLIS) % 12 :=
    ⟨Int.emod_lt_of_pos _ (by decide), Int.emod_nonneg _ (by decide)⟩
  have hlength : ∀ hour minute second milli : Nat, hour < 100 → minute < 100 → second < 100 →
      milli < 1000 → (clockChars (monthOf (t / DAY_MILLIS) % 12 + 1).toNat
        (dayOfMonth (t / DAY_MILLIS)) hour minute second milli).length = 20 :=
    fun _ _ _ _ => length_clockChars (by omega) (by omega)
  have hyear : (yearChars (monthOf (t / DAY_MILLIS) / 12)).length ≤ 7 := by
    have hdays : -100000000 ≤ t / DAY_MILLIS ∧ t / DAY_MILLIS ≤ 100000000 := by
      unfold Representable MAX_TIME at h
      unfold DAY_MILLIS
      omega
    have hlo : 12 * (-300000) ≤ monthOf (t / DAY_MILLIS) :=
      (monthStart_le_iff _ _).mp (le_trans (by decide) hdays.1)
    have hhi : monthOf (t / DAY_MILLIS) < 12 * 300000 := by
      by_contra hle
      have hstart := (monthStart_le_iff (12 * 300000) _).mpr (not_lt.mp hle)
      have hvalue : (100000000 : Int) < monthStart (12 * 300000) := by decide
      omega
    unfold yearChars
    split_ifs with hera
    · rw [length_padded_of_lt (by decide) (by omega)]
      decide
    · rw [List.length_cons, length_padded_of_lt (by decide) (by omega)]
    · rw [List.length_cons, length_padded_of_lt (by decide) (by omega)]
  unfold toISOString
  simp only
  rw [List.length_append, hlength _ _ _ _ (by omega) (by omega) (by omega)
    (Nat.mod_lt _ (by decide))]
  omega

example : String.ofList (toISOString 1752537600123) = "2025-07-15T00:00:00.123Z" := by
  decide

end Refearn.Support.IsoDate
