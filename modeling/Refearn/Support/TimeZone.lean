import Mathlib.Data.Int.ConditionallyCompleteOrder
import Mathlib.Data.List.Basic
import Mathlib.Tactic.IntervalCases
import Mathlib.Tactic.Ring
/-!
# Calendars
-/

/-!
## Calendar months

Months of the proleptic Gregorian calendar over days counted from the epoch. A
month is numbered `12 * year + (month - 1)`, so months follow each other without a
gap; `monthStart` is the first day of a month and `monthOf` the month of a day.
-/

namespace Refearn.Support

/-! ## First days -/

/-- Days from the first of March of the year 0 to the first of March of a year. -/
def marchDays (year : Int) : Int := 365 * year + year / 4 - year / 100 + year / 400

/-- Days from the first of March to the first day of a month, counted from March. -/
def marchMonthDays (month : Int) : Int := (153 * month + 2) / 5

/-- Days from the first of March of the year 0 to the epoch. -/
def EPOCH_MARCH_DAYS : Int := 719468

/-- The first day of a month; January and February end the year before. -/
def monthStart (k : Int) : Int :=
  marchDays ((k - 2) / 12) + marchMonthDays ((k - 2) % 12) - EPOCH_MARCH_DAYS

def isLeapYear (year : Int) : Bool := year % 4 = 0 && (year % 100 ≠ 0 || year % 400 = 0)

/-- The days of a month, counted from January. -/
def monthDays (year month : Int) : Int :=
  if month = 1 then if isLeapYear year then 29 else 28
  else if month = 3 ∨ month = 5 ∨ month = 8 ∨ month = 10 then 30
  else 31

theorem isLeapYear_iff (year : Int) :
    isLeapYear year = true ↔ year % 4 = 0 ∧ (year % 100 ≠ 0 ∨ year % 400 = 0) := by
  simp [isLeapYear]

/-- The calendar begins with the epoch. -/
theorem monthStart_epoch : monthStart (12 * 1970) = 0 := by decide

/-- A year from March to March, which ends with the leap day. -/
theorem marchDays_succ (year : Int) :
    marchDays (year + 1) = marchDays year + if isLeapYear (year + 1) then 366 else 365 := by
  unfold marchDays
  split_ifs with hleap
  · rw [isLeapYear_iff] at hleap
    omega
  · rw [isLeapYear_iff] at hleap
    omega

/-- Each month is as long as the calendar says. -/
theorem monthStart_succ (k : Int) :
    monthStart (k + 1) = monthStart k + monthDays (k / 12) (k % 12) := by
  have hsucc := marchDays_succ ((k - 2) / 12)
  unfold monthStart monthDays marchMonthDays
  by_cases hfeb : k % 12 = 1
  · -- March begins the next year of the count
    have hnext : (k + 1 - 2) / 12 = (k - 2) / 12 + 1 := by omega
    have hyear : (k - 2) / 12 + 1 = k / 12 := by omega
    have hmonth : (k - 2) % 12 = 11 := by omega
    have hmarch : (k + 1 - 2) % 12 = 0 := by omega
    rw [hnext, hsucc, hyear, hmonth, hmarch, if_pos hfeb]
    split_ifs <;> omega
  · have hsame : (k + 1 - 2) / 12 = (k - 2) / 12 := by omega
    have hmonth : (k + 1 - 2) % 12 = (k - 2) % 12 + 1 := by omega
    have hshift : (k - 2) % 12 = (k % 12 + 10) % 12 := by omega
    rw [hsame, hmonth, if_neg hfeb, hshift]
    have hlo : 0 ≤ k % 12 := Int.emod_nonneg k (by decide)
    have hhi : k % 12 < 12 := Int.emod_lt_of_pos k (by decide)
    generalize k % 12 = m at hfeb hlo hhi ⊢
    interval_cases m
    all_goals split_ifs <;> omega

theorem monthDays_bounds (year month : Int) :
    28 ≤ monthDays year month ∧ monthDays year month ≤ 31 := by
  unfold monthDays
  split_ifs <;> omega

theorem monthStart_lt_succ (k : Int) : monthStart k + 28 ≤ monthStart (k + 1) := by
  have hdays := (monthDays_bounds (k / 12) (k % 12)).1
  rw [monthStart_succ]
  omega

theorem monthStart_add_le (k : Int) (n : Nat) : monthStart k + 28 * n ≤ monthStart (k + n) := by
  induction n with
  | zero => simp
  | succ n ih =>
      have hstep := monthStart_lt_succ (k + n)
      have hsucc : k + (n + 1 : Nat) = k + n + 1 := by push_cast; ring
      rw [hsucc]
      push_cast
      omega

theorem monthStart_strictMono : StrictMono monthStart := by
  intro k k' hlt
  obtain ⟨n, hn⟩ := Int.eq_ofNat_of_zero_le (Int.sub_nonneg_of_le (Int.add_one_le_of_lt hlt))
  have hk' : k' = k + (n + 1 : Nat) := by push_cast; omega
  have hle := monthStart_add_le k (n + 1)
  rw [hk']
  push_cast at hle ⊢
  omega

/-! ## The month of a day -/

/-- The year from March to March that holds a day counted from the year 0: the mean
length of a year gives it up to one. -/
def marchYear (day : Int) : Int :=
  let year := 400 * day / 146097
  if day < marchDays year then year - 1
  else if marchDays (year + 1) ≤ day then year + 1
  else year

theorem marchYear_spec (day : Int) :
    marchDays (marchYear day) ≤ day ∧ day < marchDays (marchYear day + 1) := by
  unfold marchYear
  simp only
  split_ifs with hbefore hafter
  · refine ⟨?_, by rw [sub_add_cancel]; exact hbefore⟩
    unfold marchDays at hbefore ⊢
    omega
  · refine ⟨hafter, ?_⟩
    unfold marchDays at hafter ⊢
    omega
  · exact ⟨not_lt.mp hbefore, not_le.mp hafter⟩

def monthOf (day : Int) : Int :=
  let fromMarch := day + EPOCH_MARCH_DAYS
  let year := marchYear fromMarch
  12 * year + (5 * (fromMarch - marchDays year) + 2) / 153 + 2

theorem monthOf_spec (day : Int) :
    monthStart (monthOf day) ≤ day ∧ day < monthStart (monthOf day + 1) := by
  obtain ⟨hlo, hhi⟩ := marchYear_spec (day + EPOCH_MARCH_DAYS)
  have hlength : marchDays (marchYear (day + EPOCH_MARCH_DAYS) + 1) ≤
      marchDays (marchYear (day + EPOCH_MARCH_DAYS)) + 366 := by
    rw [marchDays_succ]
    split_ifs <;> omega
  unfold monthOf
  simp only
  generalize marchYear (day + EPOCH_MARCH_DAYS) = year at hlo hhi hlength ⊢
  -- the days of the year that have passed, and the month they reach
  generalize hpassed : day + EPOCH_MARCH_DAYS - marchDays year = passed
  have hmonth : (5 * passed + 2) / 153 ≤ 11 := by omega
  have hmonth0 : 0 ≤ (5 * passed + 2) / 153 := by omega
  have hyear : (12 * year + (5 * passed + 2) / 153 + 2 - 2) / 12 = year := by omega
  have hrest : (12 * year + (5 * passed + 2) / 153 + 2 - 2) % 12 = (5 * passed + 2) / 153 := by
    omega
  refine ⟨?_, ?_⟩
  · unfold monthStart marchMonthDays
    rw [hyear, hrest]
    omega
  · by_cases hlast : (5 * passed + 2) / 153 = 11
    · have hyear' : (12 * year + (5 * passed + 2) / 153 + 2 + 1 - 2) / 12 = year + 1 := by omega
      have hrest' : (12 * year + (5 * passed + 2) / 153 + 2 + 1 - 2) % 12 = 0 := by omega
      unfold monthStart marchMonthDays
      rw [hyear', hrest']
      omega
    · have hyear' : (12 * year + (5 * passed + 2) / 153 + 2 + 1 - 2) / 12 = year := by omega
      have hrest' : (12 * year + (5 * passed + 2) / 153 + 2 + 1 - 2) % 12 =
          (5 * passed + 2) / 153 + 1 := by omega
      unfold monthStart marchMonthDays
      rw [hyear', hrest']
      omega

/-- A month has begun by a day if it is not a later one. -/
theorem monthStart_le_iff (k day : Int) : monthStart k ≤ day ↔ k ≤ monthOf day := by
  obtain ⟨hlo, hhi⟩ := monthOf_spec day
  constructor
  · intro hle
    exact Int.le_of_lt_add_one (monthStart_strictMono.lt_iff_lt.mp (hle.trans_lt hhi))
  · intro hle
    exact (monthStart_strictMono.monotone hle).trans hlo

theorem monthOf_mono : Monotone monthOf := fun _ _ hle =>
  (monthStart_le_iff _ _).mp (((monthStart_le_iff _ _).mpr le_rfl).trans hle)

/-- Two days lie in one month if no month begins between them. -/
theorem monthOf_eq_iff (day day' : Int) :
    monthOf day = monthOf day' ↔ ∀ k, monthStart k ≤ day ↔ monthStart k ≤ day' := by
  simp only [monthStart_le_iff]
  constructor
  · intro heq k
    rw [heq]
  · intro hsame
    exact le_antisymm ((hsame _).mp le_rfl) ((hsame _).mpr le_rfl)

/-- Days that are less than a month apart lie in one month or in two that follow each
other. -/
theorem monthOf_le_succ {day day' : Int} (h : day' ≤ day + 28) :
    monthOf day' ≤ monthOf day + 1 := by
  by_contra hlt
  have hbegun : monthStart (monthOf day + 1 + 1) ≤ day' :=
    (monthStart_le_iff _ _).mpr (Int.add_one_le_of_lt (not_le.mp hlt))
  have hlong := monthStart_lt_succ (monthOf day + 1)
  have hend := (monthOf_spec day).2
  omega

example : monthOf 20512 = 12 * 2026 + 1 := by decide

end Refearn.Support

/-!
## Time zones and month texts

A time zone is an offset that changes at certain instants. `localClock` reads an
instant on the zone's clock; `instantOf` goes the other way, as SQL does for a
timestamp that is taken to be local. Instants and clock readings are milliseconds.
-/

namespace Refearn.Support

def DAY_MILLIS : Int := 86400000

/-! ## Zones -/

/-- The offset is milliseconds east of UTC; `nextChange` is the first change after an
instant. -/
structure TimeZone where
  offset : Int → Int
  nextChange : Int → Option Int
  lt_nextChange : ∀ t boundary, nextChange t = some boundary → t < boundary
  steady : ∀ t boundary u, nextChange t = some boundary → t ≤ u → u < boundary →
    offset u = offset t
  steady_of_none : ∀ t u, nextChange t = none → t ≤ u → offset u = offset t
  offset_bounds : ∀ t, -DAY_MILLIS < offset t ∧ offset t < DAY_MILLIS

namespace TimeZone

variable (zone : TimeZone)

/-- What the clocks of the zone show at an instant. -/
def localClock (t : Int) : Int := t + zone.offset t

/-- The instant of a clock reading. The change that matters is the first one after the
day before the reading; a reading that a change skips counts with the offset before it,
one that a change repeats with the offset after it. -/
def instantOf (wall : Int) : Int :=
  let before := zone.offset (wall - DAY_MILLIS)
  match zone.nextChange (wall - DAY_MILLIS) with
  | none => wall - before
  | some boundary =>
      let after := zone.offset boundary
      if wall - before < boundary ∧ wall - after < boundary then wall - before
      else if boundary < wall - before ∧ boundary ≤ wall - after then wall - after
      else if wall - after < wall - before then wall - before
      else wall - after

/-- The clock reading counts with an offset of the zone. -/
theorem instantOf_eq (wall : Int) : ∃ t, zone.instantOf wall = wall - zone.offset t := by
  unfold instantOf
  simp only
  cases zone.nextChange (wall - DAY_MILLIS) with
  | none => exact ⟨_, rfl⟩
  | some boundary =>
      simp only
      split_ifs
      · exact ⟨_, rfl⟩
      · exact ⟨_, rfl⟩
      · exact ⟨_, rfl⟩
      · exact ⟨_, rfl⟩

/-- Away from the changes of the offset the two conversions undo each other. -/
theorem instantOf_localClock {t : Int}
    (h : ∀ u, t - 2 * DAY_MILLIS ≤ u → u ≤ t + 2 * DAY_MILLIS → zone.offset u = zone.offset t) :
    zone.instantOf (zone.localClock t) = t := by
  obtain ⟨hlo, hhi⟩ := zone.offset_bounds t
  have hbefore : zone.offset (zone.localClock t - DAY_MILLIS) = zone.offset t := by
    apply h
    · unfold localClock
      omega
    · unfold localClock
      omega
  have hback : zone.localClock t - zone.offset t = t := by
    unfold localClock
    omega
  unfold instantOf
  simp only [hbefore, hback]
  cases hnext : zone.nextChange (zone.localClock t - DAY_MILLIS) with
  | none => rfl
  | some boundary =>
      have hfuture := zone.lt_nextChange _ _ hnext
      simp only
      by_cases hnear : boundary ≤ t + 2 * DAY_MILLIS
      · have hafter : zone.offset boundary = zone.offset t := by
          apply h boundary _ hnear
          unfold localClock at hfuture
          omega
        rw [hafter, hback]
        split_ifs <;> rfl
      · obtain ⟨hlo', hhi'⟩ := zone.offset_bounds boundary
        have hfirst : t < boundary ∧ zone.localClock t - zone.offset boundary < boundary := by
          unfold localClock
          omega
        rw [if_pos hfirst]

/-- A zone whose clocks never change. -/
def fixed (offset : Int) (h : -DAY_MILLIS < offset ∧ offset < DAY_MILLIS) : TimeZone where
  offset _ := offset
  nextChange _ := none
  lt_nextChange _ _ hnone := by cases hnone
  steady _ _ _ _ _ _ := rfl
  steady_of_none _ _ _ _ := rfl
  offset_bounds _ := h

end TimeZone

/-! ## Months of clock readings -/

/-- The month of a clock reading. -/
def monthAt (wall : Int) : Int := monthOf (wall / DAY_MILLIS)

/-- The clock reading at which a month begins. -/
def monthBegin (k : Int) : Int := monthStart k * DAY_MILLIS

theorem monthBegin_le_iff (k wall : Int) : monthBegin k ≤ wall ↔ k ≤ monthAt wall := by
  unfold monthBegin monthAt
  rw [← monthStart_le_iff, Int.le_ediv_iff_mul_le (by decide)]

/-- Two readings show one month if no month begins between them. -/
theorem monthAt_eq_iff (wall wall' : Int) :
    monthAt wall = monthAt wall' ↔ ∀ k, monthBegin k ≤ wall ↔ monthBegin k ≤ wall' := by
  simp only [monthBegin_le_iff]
  constructor
  · intro heq k
    rw [heq]
  · intro hsame
    exact le_antisymm ((hsame _).mp le_rfl) ((hsame _).mpr le_rfl)

theorem monthAt_le_succ {wall wall' : Int} (h : wall' ≤ wall + 2 * DAY_MILLIS) :
    monthAt wall' ≤ monthAt wall + 1 := by
  apply monthOf_le_succ
  unfold DAY_MILLIS at *
  omega

/-! ## Month texts -/

/-- A number with zeros in front of it up to a width. -/
def padded (width n : Nat) : List Char := (Nat.toDigits 10 n).leftpad width '0'

/-- The year of a month within its era. -/
def eraYear (k : Int) : Nat := (if 0 < k / 12 then k / 12 else 1 - k / 12).toNat

/-- Year and month with a dash; the year has at least `width` digits. -/
def monthText (width : Nat) (k : Int) : String :=
  String.ofList (padded width (eraYear k) ++ '-' :: padded 2 (k % 12 + 1).toNat)

theorem ofDigitChars_zeros (n : Nat) (cs : List Char) :
    Nat.ofDigitChars 10 (List.replicate n '0' ++ cs) 0 = Nat.ofDigitChars 10 cs 0 := by
  induction n with
  | zero => rfl
  | succ n ih =>
      rw [List.replicate_succ, List.cons_append, Nat.ofDigitChars_cons]
      exact ih

theorem ofDigitChars_padded (width n : Nat) : Nat.ofDigitChars 10 (padded width n) 0 = n := by
  unfold padded List.leftpad
  rw [ofDigitChars_zeros, Nat.ofDigitChars_ten_toDigits]

theorem padded_value {width width' n n' : Nat} (h : padded width n = padded width' n') :
    n = n' := by
  rw [← ofDigitChars_padded width n, h, ofDigitChars_padded]

theorem length_padded (width n : Nat) :
    (padded width n).length = max width (Nat.toDigits 10 n).length :=
  List.length_leftpad ..

theorem length_monthDigits (k : Int) : (padded 2 (k % 12 + 1).toNat).length = 2 := by
  have hlt : (k % 12 + 1).toNat < 10 ^ 2 := by omega
  have hle : (Nat.toDigits 10 (k % 12 + 1).toNat).length ≤ 2 :=
    (Nat.length_toDigits_le_iff (by decide) (by decide)).mpr hlt
  rw [length_padded]
  omega

/-- A year fills four digits from 1000 on. -/
theorem padded_four_eq_iff (n : Nat) : padded 1 n = padded 4 n ↔ 1000 ≤ n := by
  have hlong : (Nat.toDigits 10 n).length ≤ 3 ↔ n < 10 ^ 3 :=
    Nat.length_toDigits_le_iff (by decide) (by decide)
  have hpos : 0 < (Nat.toDigits 10 n).length := Nat.length_toDigits_pos
  constructor
  · intro heq
    have hlength := congrArg List.length heq
    rw [length_padded, length_padded] at hlength
    omega
  · intro hle
    unfold padded List.leftpad
    have hone : 1 - (Nat.toDigits 10 n).length = 0 := by omega
    have hfour : 4 - (Nat.toDigits 10 n).length = 0 := by omega
    rw [hone, hfour]

/-- Months that are next to each other have one text, with and without leading zeros,
if they are the same month of a year of four digits. -/
theorem monthText_eq_iff {k k' : Int} (hlo : k' ≤ k + 1) (hhi : k ≤ k' + 1) :
    monthText 4 k = monthText 1 k' ↔ k = k' ∧ 1000 ≤ eraYear k' := by
  constructor
  · intro h
    obtain ⟨hyear, hrest⟩ := List.append_inj' (String.ofList_injective h) (by
      rw [List.length_cons, List.length_cons, length_monthDigits, length_monthDigits])
    have hmonth := padded_value (List.tail_eq_of_cons_eq hrest)
    have hsame : k = k' := by omega
    subst hsame
    exact ⟨rfl, (padded_four_eq_iff _).mp hyear.symm⟩
  · rintro ⟨rfl, hyear⟩
    unfold monthText
    rw [(padded_four_eq_iff _).mpr hyear]

example : monthText 4 (12 * 2026 + 1) = "2026-02" := by decide

end Refearn.Support
