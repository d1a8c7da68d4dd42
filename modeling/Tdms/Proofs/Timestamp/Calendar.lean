import Mathlib
import Tdms.Timestamp.Calendar

/-!
The calendar, counted plainly.

A date exists if its month has such a day, and `Date.dayNumber` counts its days
from 1970 on by the lengths of years and months: every fourth year is a leap
year, but of the hundredth ones only every fourth. `daysOfDate` counts years
from March and eras at once, and comes to the same number. `dateOfDays` finds
the one date that has a given number.
-/

namespace Tdms.Calendar

variable {date : Date} {year : Int} {month : Nat}

/-! ## Years and months -/

/-- Whether the year has a 29th of February. -/
def IsLeap (year : Int) : Prop :=
  4 ∣ year ∧ (100 ∣ year → 400 ∣ year)

instance (year : Int) : Decidable (IsLeap year) :=
  inferInstanceAs (Decidable (_ ∧ _))

/-- Days that a year has more than 365. -/
def leapDay (year : Int) : Nat :=
  if IsLeap year then 1 else 0

/-- Days in a month of a year, where January is the first. -/
def daysInMonth (year : Int) : (month : Nat) → Nat
  | 2 => 28 + leapDay year
  | 4 | 6 | 9 | 11 => 30
  | _ => 31

/-- Days of a year before the first of a month. -/
def monthStart (year : Int) (month : Nat) : Nat :=
  ∑ earlier ∈ Finset.Ico 1 month, daysInMonth year earlier

/-- Leap years after the year 0 and up to `year`. -/
def leapYears (year : Int) : Int :=
  year / 4 - year / 100 + year / 400

/-- Days from the start of 1970 to the start of a year. -/
def yearStart (year : Int) : Int :=
  365 * (year - 1970) + (leapYears (year - 1) - leapYears 1969)

namespace Date

/-- The month has such a day. -/
structure Exists (date : Date) : Prop where
  month : 1 ≤ date.month ∧ date.month ≤ 12
  day : 1 ≤ date.day ∧ date.day ≤ daysInMonth date.year date.month

/-- Days from the start of 1970 to a date. -/
def dayNumber (date : Date) : Int :=
  yearStart date.year + monthStart date.year date.month + (date.day - 1)

end Date

theorem leapDay_le_one (year : Int) : leapDay year ≤ 1 := by
  unfold leapDay
  split <;> omega

theorem daysInMonth_le (year : Int) (month : Nat) : daysInMonth year month ≤ 31 := by
  have few := leapDay_le_one year
  unfold daysInMonth
  split <;> omega

theorem leapYears_eq (year : Int) : leapYears year = leapYears (year - 1) + leapDay year := by
  unfold leapYears leapDay
  by_cases leap : IsLeap year
  · rw [if_pos leap]
    unfold IsLeap at leap
    omega
  · rw [if_neg leap]
    unfold IsLeap at leap
    omega

theorem monthStart_succ (year : Int) (counted : 1 ≤ month) :
    monthStart year (month + 1) = monthStart year month + daysInMonth year month :=
  Finset.sum_Ico_succ_top counted _

theorem monthStart_13 (year : Int) : monthStart year 13 = 365 + leapDay year := by
  simp [monthStart, Finset.sum_Ico_succ_top, daysInMonth]
  omega

/-- A year is as long as its months. -/
theorem yearStart_succ (year : Int) :
    yearStart (year + 1) = yearStart year + monthStart year 13 := by
  have leap := leapYears_eq year
  rw [monthStart_13, yearStart, yearStart, add_sub_cancel_right, leap]
  push_cast
  ring

theorem yearStart_strictMono : StrictMono yearStart := by
  apply strictMono_int_of_lt_succ
  intro year
  rw [yearStart_succ, monthStart_13]
  omega

theorem monthStart_mono (year : Int) : Monotone (monthStart year) := by
  intro month later le
  exact Finset.sum_le_sum_of_subset (Finset.Ico_subset_Ico le_rfl le)

/-- A date lies in its year. -/
theorem Date.Exists.bounds (exist : date.Exists) :
    yearStart date.year ≤ date.dayNumber ∧ date.dayNumber < yearStart (date.year + 1) := by
  obtain ⟨⟨first, last⟩, ⟨early, late⟩⟩ := exist
  have next := monthStart_succ date.year first
  have ends : monthStart date.year (date.month + 1) ≤ monthStart date.year 13 :=
    monthStart_mono _ (by omega)
  rw [yearStart_succ, Date.dayNumber]
  omega

/-! ## Years from March on -/

/-- Months after February start where the plain formula puts them. -/
theorem monthStart_of_march (year : Int) (march : 3 ≤ month) (december : month ≤ 12) :
    monthStart year month = 59 + leapDay year + daysBeforeMonth (month - 3) := by
  interval_cases month <;>
    simp [monthStart, Finset.sum_Ico_succ_top, daysInMonth, daysBeforeMonth] <;> omega

/-- Eras and the years of an era are days of years, with the leap days among them. -/
theorem eraDays_eq (year : Int) :
    year / 400 * daysPerEra + daysBeforeYear (year % 400).toNat = 365 * year + leapYears year := by
  unfold daysPerEra daysBeforeYear leapYears
  omega

/-- Counting from March, years and eras at a time, comes to the number of the date. -/
theorem daysOfDate_eq (exist : date.Exists) : daysOfDate date = date.dayNumber := by
  obtain ⟨year, month, day⟩ := date
  obtain ⟨⟨first, last⟩, -⟩ := exist
  have origin : leapYears 1969 = 477 := rfl
  unfold daysOfDate Date.dayNumber yearStart
  dsimp only at first last ⊢
  by_cases early : month ≤ 2
  · rw [if_pos early, if_pos early, eraDays_eq, origin]
    interval_cases month <;> simp [monthStart, daysInMonth, daysBeforeMonth, daysBeforeUnix] <;>
      omega
  · have leap := leapYears_eq year
    rw [if_neg early, if_neg early, eraDays_eq, origin,
      monthStart_of_march year (by omega) last, leap]
    unfold daysBeforeUnix
    push_cast
    ring

/-! ## Days of an era -/

/-- Every fourth year has a leap day but the last of a century, unless that ends the era. -/
theorem leapDay_of_turn {century cycle turn : Nat} (centuries : century < 4) (cycles : cycle < 25)
    (turns : turn < 4) :
    leapDay (100 * century + 4 * cycle + turn + 1) =
      if turn = 3 ∧ (cycle = 24 → century = 3) then 1 else 0 := by
  refine if_congr ?_ rfl rfl
  unfold IsLeap
  omega

/-- A day of an era lies in one of four centuries, in one of 25 cycles of four years each, and in
one turn of that. -/
theorem exists_turn {day : Nat} (inside : day < daysPerEra) :
    ∃ century cycle turn rest : Nat, century < 4 ∧ cycle < 25 ∧ turn < 4 ∧
      rest < 365 + leapDay (100 * century + 4 * cycle + turn + 1) ∧
        day = 36524 * century + 1461 * cycle + 365 * turn + rest := by
  unfold daysPerEra at inside
  -- The last century, cycle and turn are a day longer than the others, so the quotient may pass it.
  obtain ⟨century, centuries⟩ : ∃ century, century = min (day / 36524) 3 := ⟨_, rfl⟩
  obtain ⟨cycle, cycles⟩ : ∃ cycle, cycle = min ((day - 36524 * century) / 1461) 24 := ⟨_, rfl⟩
  obtain ⟨turn, turns⟩ : ∃ turn, turn = min ((day - 36524 * century - 1461 * cycle) / 365) 3 :=
    ⟨_, rfl⟩
  refine ⟨century, cycle, turn, day - 36524 * century - 1461 * cycle - 365 * turn, by omega,
    by omega, by omega, ?_, by omega⟩
  rw [leapDay_of_turn (by omega) (by omega) (by omega)]
  split <;> omega

/-- The leap days that are taken off first are those of the cycles before a day, and the one of its
own cycle once that is near. -/
theorem yearOfEra_eq {century cycle turn rest : Nat} (centuries : century < 4)
    (cycles : cycle < 25) (turns : turn < 4)
    (inside : rest < 365 + leapDay (100 * century + 4 * cycle + turn + 1)) :
    yearOfEra (36524 * century + 1461 * cycle + 365 * turn + rest) =
      100 * century + 4 * cycle + turn := by
  rw [leapDay_of_turn centuries cycles turns] at inside
  unfold yearOfEra
  generalize same : 36524 * century + 1461 * cycle + 365 * turn + rest = day
  -- Only the last day of an era counts as a whole era in the formula.
  by_cases last : day = 146096
  · subst last
    split at inside <;> omega
  · have short : rest < 365 ∨ rest = 365 ∧ turn = 3 ∧ (cycle = 24 → century = 3) := by
      split at inside <;> omega
    have era : day / 146096 = 0 := by omega
    have hundreds : day / 36524 = century := by
      rw [Nat.div_eq_iff (by decide)]
      omega
    have fours : day / 1460 = 25 * century + cycle +
        if 1460 ≤ 24 * century + cycle + 365 * turn + rest then 1 else 0 := by
      rw [Nat.div_eq_iff (by decide)]
      split <;> omega
    rw [era, hundreds, fours, Nat.div_eq_iff (by decide)]
    split <;> omega

/-- A day of an era lies in its year. -/
theorem yearOfEra_spec {day : Nat} (inside : day < daysPerEra) :
    yearOfEra day < 400 ∧
      ∃ rest < 365 + leapDay (yearOfEra day + 1), day = daysBeforeYear (yearOfEra day) + rest := by
  obtain ⟨century, cycle, turn, rest, centuries, cycles, turns, short, rfl⟩ := exists_turn inside
  rw [yearOfEra_eq centuries cycles turns short]
  refine ⟨by omega, rest, by push_cast; exact short, ?_⟩
  unfold daysBeforeYear
  omega

/-! ## Dates of days -/

/-- The date that is `day` days after the first of March of `year`. -/
def dateOfMarch (year : Int) (day : Nat) : Date :=
  let month := (5 * day + 2) / 153
  let inNextYear := 10 ≤ month
  { year := year + if inNextYear then 1 else 0
    month := if inNextYear then month - 9 else month + 3
    day := day - daysBeforeMonth month + 1 }

/-- Eras are alike. -/
theorem leapDay_add_era (year era : Int) : leapDay (year + era * 400) = leapDay year := by
  refine if_congr ?_ rfl rfl
  unfold IsLeap
  omega

/-- The month, from March on, that holds a day. -/
theorem month_spec (day : Nat) :
    daysBeforeMonth ((5 * day + 2) / 153) ≤ day ∧
      day < daysBeforeMonth ((5 * day + 2) / 153 + 1) := by
  unfold daysBeforeMonth
  omega

section

variable {day : Nat} (inside : day < 365 + leapDay (year + 1))
include inside

theorem month_le : (5 * day + 2) / 153 ≤ 11 := by
  have few := leapDay_le_one (year + 1)
  omega

/-- There is a date for every day up to the end of the next February. -/
theorem exists_dateOfMarch : (dateOfMarch year day).Exists := by
  have months := month_le inside
  obtain ⟨early, late⟩ := month_spec day
  unfold dateOfMarch
  generalize (5 * day + 2) / 153 = month at early late months
  constructor
  · dsimp only
    split <;> omega
  · refine ⟨Nat.le_add_left 1 _, ?_⟩
    dsimp only
    interval_cases month <;> simp [daysBeforeMonth, daysInMonth] at early late ⊢ <;> omega

theorem daysOfDate_dateOfMarch :
    daysOfDate (dateOfMarch year day) = 365 * year + leapYears year + day - daysBeforeUnix := by
  have months := month_le inside
  have early := (month_spec day).1
  rw [← eraDays_eq]
  unfold daysOfDate dateOfMarch
  generalize (5 * day + 2) / 153 = month at early months
  dsimp only
  by_cases next : 10 ≤ month
  · have first : month - 9 ≤ 2 := by omega
    have back : month - 9 + 9 = month := by omega
    simp only [if_pos next, if_pos first, back, add_sub_cancel_right]
    omega
  · have march : ¬ month + 3 ≤ 2 := by omega
    simp only [if_neg next, if_neg march, add_zero, Nat.add_sub_cancel]
    omega

end

/-- The date of a number of days is found in its year, counted from March. -/
theorem exists_march (days : Int) :
    ∃ year day, dateOfDays days = dateOfMarch year day ∧ day < 365 + leapDay (year + 1) ∧
      days = 365 * year + leapYears year + day - daysBeforeUnix := by
  obtain ⟨era, eras⟩ : ∃ era, era = (days + daysBeforeUnix) / daysPerEra := ⟨_, rfl⟩
  obtain ⟨dayOfEra, rest⟩ : ∃ day, day = ((days + daysBeforeUnix) % daysPerEra).toNat := ⟨_, rfl⟩
  have parts : days + daysBeforeUnix = era * daysPerEra + dayOfEra := by
    unfold daysPerEra at eras rest ⊢
    omega
  have inside : dayOfEra < daysPerEra := by
    unfold daysPerEra at rest ⊢
    omega
  obtain ⟨short, day, counted, whole⟩ := yearOfEra_spec inside
  refine ⟨yearOfEra dayOfEra + era * 400, day, ?_, ?_, ?_⟩
  · have left : dayOfEra - daysBeforeYear (yearOfEra dayOfEra) = day := by omega
    rw [← left, rest, eras]
    rfl
  · rwa [add_right_comm, leapDay_add_era]
  · have turned : (yearOfEra dayOfEra + era * 400 : Int) / 400 = era := by omega
    have year : ((yearOfEra dayOfEra + era * 400 : Int) % 400).toNat = yearOfEra dayOfEra := by
      omega
    rw [← eraDays_eq, turned, year]
    omega

/-- The date of a number of days exists, and it is the date with that number. -/
theorem dayNumber_dateOfDays (days : Int) :
    (dateOfDays days).Exists ∧ (dateOfDays days).dayNumber = days := by
  obtain ⟨year, day, date, inside, number⟩ := exists_march days
  have exist := exists_dateOfMarch inside
  rw [date]
  refine ⟨exist, ?_⟩
  rw [← daysOfDate_eq exist, daysOfDate_dateOfMarch inside, number]

/-- Days have dates of the years from `first` to `last` exactly if they lie in these years. -/
theorem year_mem_iff (days first last : Int) :
    (first ≤ (dateOfDays days).year ∧ (dateOfDays days).year ≤ last) ↔
      yearStart first ≤ days ∧ days < yearStart (last + 1) := by
  obtain ⟨exist, number⟩ := dayNumber_dateOfDays days
  obtain ⟨start, stop⟩ := exist.bounds
  rw [number] at start stop
  constructor
  · intro ⟨after, before⟩
    exact ⟨(yearStart_strictMono.monotone after).trans start,
      stop.trans_le (yearStart_strictMono.monotone (by omega))⟩
  · intro ⟨after, before⟩
    have lower := yearStart_strictMono.lt_iff_lt.1 (after.trans_lt stop)
    have upper := yearStart_strictMono.lt_iff_lt.1 (start.trans_lt before)
    omega

end Tdms.Calendar
