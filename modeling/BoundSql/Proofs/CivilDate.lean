import BoundSql.Calendar.Instant
import Mathlib.Algebra.Order.Group.Int
import Mathlib.Order.Monotone.Basic
import Mathlib.Tactic.Common
import Mathlib.Tactic.IntervalCases

/-!
# Days and civil dates

Counting days through eras of 400 years reaches each date of the calendar. A year starts in March,
and the number of leap days before a day of an era is found by division: `commonDays` takes them
away, and grows by 365 from one year to the next. That is checked at both ends of all 400 years, and
monotony does the rest. The day count of a date undoes the date of a day.
-/
namespace BoundSql.Calendar

/-- Days between March 1st of the year 0 and March 1st of the given year. -/
def yearStart (year : Int) : Int := 365 * year + year / 4 - year / 100 + year / 400

theorem yearStart_succ (y : Int) :
    yearStart (y + 1) = yearStart y + if isLeap (y + 1) then 366 else 365 := by
  have hleap : isLeap (y + 1) ↔
      (y + 1) % 4 = 0 ∧ ((y + 1) % 100 ≠ 0 ∨ (y + 1) % 400 = 0) := by simp [isLeap]
  simp only [hleap, yearStart]
  split <;> omega

theorem yearStart_le {y y' : Int} (h : y ≤ y') : yearStart y ≤ yearStart y' := by
  refine monotone_int_of_le_succ (fun y => ?_) h
  have hlength := yearStart_succ y
  split at hlength <;> omega

theorem yearStart_add_eras (year eras : Int) :
    yearStart (year + eras * 400) = yearStart year + eras * 146097 := by
  unfold yearStart
  omega

/-- The days of an era before a given one, without the leap days among them. -/
def commonDays (n : Int) : Int := n - n / 1460 + n / 36524 - n / 146096

theorem commonDays_le {m n : Int} (h : m ≤ n) : commonDays m ≤ commonDays n := by
  refine monotone_int_of_le_succ (fun n => ?_) h
  have hera : n / 146096 = n / 36524 / 4 := by omega
  have hera' : (n + 1) / 146096 = (n + 1) / 36524 / 4 := by omega
  unfold commonDays
  omega

/-- The first and the last day of each year of an era. -/
theorem commonDays_of_year : ∀ y : Fin 400,
    365 * (y : Int) ≤ commonDays (yearStart y) ∧
      commonDays (yearStart (y + 1) - 1) < 365 * (y + 1 : Int) := by
  decide +kernel

/-- The year of an era that a day is in. -/
def yearOfEra (day : Int) : Int := commonDays day / 365

theorem yearOfEra_bounds {day : Int} (h0 : 0 ≤ day) (h1 : day < 146097) :
    0 ≤ yearOfEra day ∧ yearOfEra day < 400 := by
  have hlow : commonDays 0 ≤ commonDays day := commonDays_le h0
  have hhigh : commonDays day ≤ commonDays 146096 := commonDays_le (by omega)
  have hfirst : commonDays 0 = 0 := rfl
  have hlast : commonDays 146096 = 145999 := rfl
  unfold yearOfEra
  omega

/-- The day lies between the start of its year and that of the next. -/
theorem yearStart_yearOfEra {day : Int} (h0 : 0 ≤ day) (h1 : day < 146097) :
    yearStart (yearOfEra day) ≤ day ∧ day < yearStart (yearOfEra day + 1) := by
  obtain ⟨hlow, hhigh⟩ := yearOfEra_bounds h0 h1
  have hquotient : yearOfEra day = commonDays day / 365 := rfl
  have hyears (y : Int) (hy : 0 ≤ y) (hy' : y < 400) :
      365 * y ≤ commonDays (yearStart y) ∧
        commonDays (yearStart (y + 1) - 1) < 365 * (y + 1) := by
    have h := commonDays_of_year ⟨y.toNat, by omega⟩
    rwa [Int.toNat_of_nonneg hy] at h
  constructor
  · by_contra hbefore
    have hne : yearOfEra day ≠ 0 := fun h => hbefore (h ▸ h0)
    have hprevious := (hyears (yearOfEra day - 1) (by omega) (by omega)).2
    rw [Int.sub_add_cancel] at hprevious
    have hle := commonDays_le (show day ≤ yearStart (yearOfEra day) - 1 by omega)
    omega
  · by_contra hafter
    have hend : yearStart 400 = 146097 := rfl
    have hne : yearOfEra day + 1 ≠ 400 := fun h => by
      rw [h] at hafter
      omega
    have hnext := (hyears (yearOfEra day + 1) (by omega) (by omega)).1
    have hle := commonDays_le (show yearStart (yearOfEra day + 1) ≤ day by omega)
    omega

namespace Date

/-- The date that is some days after March 1st of the year, and before the next one. -/
def afterMarch (year days : Int) : Date :=
  let shifted := (5 * days + 2) / 153
  let day := days - (153 * shifted + 2) / 5 + 1
  let month := if shifted < 10 then shifted + 3 else shifted - 9
  ⟨if month ≤ 2 then year + 1 else year, month.toNat, day.toNat⟩

theorem exists_afterMarch (n : Int) : ∃ year days : Int,
    ofDays n = afterMarch year days ∧ 0 ≤ days ∧ yearStart year + days = n + 719468 ∧
      n + 719468 < yearStart (year + 1) := by
  let eras := (n + 719468) / 146097
  let day := (n + 719468) % 146097
  have hday : day + eras * 146097 = n + 719468 := Int.emod_add_ediv_mul (n + 719468) 146097
  have h0 : 0 ≤ day := Int.emod_nonneg _ (by decide)
  have h1 : day < 146097 := Int.emod_lt_of_pos _ (by decide)
  obtain ⟨hlow, hhigh⟩ := yearOfEra_bounds h0 h1
  obtain ⟨hstart, hnext⟩ := yearStart_yearOfEra h0 h1
  have hyear : yearStart (yearOfEra day) =
      365 * yearOfEra day + yearOfEra day / 4 - yearOfEra day / 100 := by
    unfold yearStart
    omega
  refine ⟨yearOfEra day + eras * 400,
    day - (365 * yearOfEra day + yearOfEra day / 4 - yearOfEra day / 100), rfl, ?_, ?_, ?_⟩
  · omega
  · rw [yearStart_add_eras]
    omega
  · rw [Int.add_right_comm, yearStart_add_eras]
    omega

/-- Months are counted from March; January and February belong to the next year. -/
theorem afterMarch_cases (year : Int) {days : Int} (h0 : 0 ≤ days) (h1 : days ≤ 365) :
    ∃ month day : Nat, 1 ≤ day ∧ (days + 1 : Int) = ((153 * month + 2) / 5 + day : Nat) ∧
      days < ((153 * (month + 1) + 2) / 5 : Nat) ∧
      (month < 10 ∧ afterMarch year days = ⟨year, month + 3, day⟩ ∨
        (month = 10 ∨ month = 11) ∧ afterMarch year days = ⟨year + 1, month - 9, day⟩) := by
  have hmonth : (((5 * days + 2) / 153).toNat : Int) = (5 * days + 2) / 153 :=
    Int.toNat_of_nonneg (by omega)
  have hday : ((days - (153 * ((5 * days + 2) / 153) + 2) / 5 + 1).toNat : Int) =
      days - (153 * ((5 * days + 2) / 153) + 2) / 5 + 1 := Int.toNat_of_nonneg (by omega)
  refine ⟨((5 * days + 2) / 153).toNat, (days - (153 * ((5 * days + 2) / 153) + 2) / 5 + 1).toNat,
    by omega, by omega, by omega, ?_⟩
  by_cases hshifted : (5 * days + 2) / 153 < 10
  · refine .inl ⟨by omega, ?_⟩
    simp only [afterMarch, if_pos hshifted, mk.injEq, and_true]
    exact ⟨if_neg (by omega), by omega⟩
  · refine .inr ⟨by omega, ?_⟩
    simp only [afterMarch, if_neg hshifted, mk.injEq, and_true]
    exact ⟨if_pos (by omega), by omega⟩

theorem toDays_afterMarch {year days : Int} (h0 : 0 ≤ days) (h1 : days ≤ 365) :
    (afterMarch year days).toDays = yearStart year + days - 719468 := by
  have hyear : yearStart year =
      year / 400 * 146097 + (year % 400 * 365 + year % 400 / 4 - year % 400 / 100) := by
    unfold yearStart
    omega
  obtain ⟨month, day, hday, hdays, -, ⟨hmonth, h⟩ | ⟨hmonth, h⟩⟩ :=
    afterMarch_cases year h0 h1
  · have hshifted : (month + 3 + 9) % 12 = month := by omega
    simp only [h, toDays, hshifted, if_neg (show ¬month + 3 ≤ 2 by omega)]
    omega
  · have hshifted : (month - 9 + 9) % 12 = month := by omega
    simp only [h, toDays, hshifted, if_pos (show month - 9 ≤ 2 by omega)]
    rw [Int.add_sub_cancel]
    omega

/-- The days before a month counted from March, and those of the month. -/
theorem daysInMonth_add_three (year : Int) {month : Nat} (h : month < 10) :
    (153 * month + 2) / 5 + daysInMonth year (month + 3) = (153 * (month + 1) + 2) / 5 := by
  interval_cases month <;> rfl

theorem isValid_afterMarch {year days : Int} (h0 : 0 ≤ days)
    (h1 : yearStart year + days < yearStart (year + 1)) : (afterMarch year days).isValid := by
  have hlength := yearStart_succ year
  obtain ⟨month, day, hday, hdays, hnext, ⟨hmonth, h⟩ | ⟨rfl | rfl, h⟩⟩ :=
    afterMarch_cases year h0 (by split at hlength <;> omega)
  all_goals
    rw [h]
    simp only [isValid, Bool.and_eq_true, decide_eq_true_eq]
  · have hdaysIn := daysInMonth_add_three year hmonth
    omega
  · have hjanuary : daysInMonth (year + 1) (10 - 9) = 31 := rfl
    omega
  · have hfebruary : daysInMonth (year + 1) (11 - 9) = if isLeap (year + 1) then 29 else 28 := rfl
    by_cases hleap : isLeap (year + 1)
    · rw [if_pos hleap] at hlength hfebruary
      omega
    · rw [if_neg hleap] at hlength hfebruary
      omega

/-- Every day has a date of the calendar, and is the day of this date. -/
theorem toDays_ofDays (n : Int) : (ofDays n).toDays = n := by
  obtain ⟨year, days, h, h0, hday, hnext⟩ := exists_afterMarch n
  have hlength := yearStart_succ year
  rw [h, toDays_afterMarch h0 (by split at hlength <;> omega)]
  omega

theorem isValid_ofDays (n : Int) : (ofDays n).isValid := by
  obtain ⟨year, days, h, h0, hday, hnext⟩ := exists_afterMarch n
  rw [h]
  exact isValid_afterMarch h0 (by omega)

/-- The years that the days of the first and the last second are in. -/
theorem year_ofDays {n : Int} (hfirst : minSeconds / 86400 ≤ n) (hlast : n ≤ maxSeconds / 86400) :
    -262143 ≤ (ofDays n).year ∧ (ofDays n).year ≤ 262142 := by
  have hmin : minSeconds / 86400 = -96465292 := rfl
  have hmax : maxSeconds / 86400 = 95026236 := rfl
  have hfirstYear : yearStart (-262144) = -95746130 := rfl
  have hlastYear : yearStart 262142 = 95745399 := rfl
  have hafter : yearStart 262143 = 95745764 := rfl
  obtain ⟨year, days, h, h0, hday, hnext⟩ := exists_afterMarch n
  have hlength := yearStart_succ year
  have hlow : -262144 ≤ year := by
    by_contra hbefore
    have hle := yearStart_le (show year + 1 ≤ -262144 by omega)
    omega
  have hhigh : year ≤ 262142 := by
    by_contra hover
    have hle := yearStart_le (show 262143 ≤ year by omega)
    omega
  obtain ⟨month, day, hpos, hdays, hmonth, ⟨hlt, hdate⟩ | ⟨hge, hdate⟩⟩ :=
    afterMarch_cases year h0 (by split at hlength <;> omega)
  · have hne : year ≠ -262144 := by
      rintro rfl
      omega
    simp only [h, hdate]
    omega
  · have hne : year ≠ 262142 := by
      rintro rfl
      omega
    simp only [h, hdate]
    omega

end Date
end BoundSql.Calendar
