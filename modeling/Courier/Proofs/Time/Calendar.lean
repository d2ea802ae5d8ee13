import Courier.Time.Date

/-!
# The calendar and its day numbers

Every day number has a date, and the date gives the number back (`toDay_ofDay`). A day is counted
twice: within its era as a day of a year, and within its year, which begins in March, as a day of a
month. The formulas for the first look for the year by an estimate that is put right twice; they are
checked against the plain count by centuries, by four years and by single years (`Parts`).

All divisions are by constants once `Parts` has given names to the quotients, which is what brings
the formulas within reach of linear arithmetic.
-/

set_option autoImplicit false

namespace Courier.Date

/-! ## Days of an era

An era is 400 years of 146097 days, counted from March. Its parts are centuries, spans of four
years, years and days.
-/

/-- The year of a day, by the estimate of `ofDay`. -/
def yearOf (d : Nat) : Nat := (d - d / 1460 + d / 36524 - d / 146096) / 365

/-- How many days of an era are over when a year of it begins. -/
def daysUntil (y : Nat) : Nat := 365 * y + y / 4 - y / 100

/-- A day of an era by the century, the four years and the year that it lies in. Only the last
year of four has a leap day, and the last four years of a century have none, except in the last
century. -/
structure Parts (d c q y r : Nat) : Prop where
  sum : d = 36524 * c + 1461 * q + 365 * y + r
  century : c ≤ 3
  fours : q ≤ 24
  year : y ≤ 3
  day : r ≤ 365
  leap : r = 365 → y = 3
  common : q = 24 → y = 3 → r = 365 → c = 3

theorem exists_parts {d : Nat} (h : d < 146097) : ∃ c q y r, Parts d c q y r := by
  let c := min (d / 36524) 3
  let q := (d - 36524 * c) / 1461
  let y := min ((d - 36524 * c - 1461 * q) / 365) 3
  refine ⟨c, q, y, d - 36524 * c - 1461 * q - 365 * y, ?_⟩
  constructor <;> omega

namespace Parts

variable {d c q y r : Nat}

theorem yearOf (h : Parts d c q y r) : Date.yearOf d = 100 * c + 4 * q + y := by
  obtain ⟨sum, century, fours, year, day, leap, common⟩ := h
  have hc : d / 36524 = if d = 146096 then 4 else c := by split <;> omega
  have he : d / 146096 = if d = 146096 then 1 else 0 := by split <;> omega
  have hf : d / 1460 = 25 * c + q + (24 * c + q + 365 * y + r) / 1460 := by omega
  rw [Date.yearOf, hc, he, hf]
  split <;> omega

theorem daysUntil (h : Parts d c q y r) : Date.daysUntil (100 * c + 4 * q + y) + r = d := by
  obtain ⟨sum, century, fours, year, -, -, -⟩ := h
  unfold Date.daysUntil
  omega

end Parts

/-- A day of an era is a day of a year of it. -/
theorem day_of_year {d : Nat} (h : d < 146097) :
    yearOf d < 400 ∧ daysUntil (yearOf d) ≤ d ∧ d - daysUntil (yearOf d) ≤ 365 := by
  obtain ⟨c, q, y, r, hp⟩ := exists_parts h
  have hd := hp.daysUntil
  rw [hp.yearOf]
  obtain ⟨-, century, fours, year, day, -, -⟩ := hp
  omega

theorem day_of_month {r : Nat} (h : r ≤ 365) :
    (5 * r + 2) / 153 < 12 ∧ daysBefore ((5 * r + 2) / 153) ≤ r ∧
      r - daysBefore ((5 * r + 2) / 153) ≤ 30 := by
  unfold daysBefore
  omega

/-! ## Dates -/

/-- A date by its era, the year in that, and the month and the day in that, all counted from 0 and
from March. -/
structure Reckoned (d : Date) (era : Int) (y m n : Nat) : Prop where
  year : d.year = if d.month ≤ 2 then (y : Int) + era * 400 + 1 else (y : Int) + era * 400
  month : d.month = if m < 10 then m + 3 else m - 9
  day : d.day = n + 1
  year_lt : y < 400
  month_lt : m < 12

/-- The number of a date by its era, its year in that, and its month and day in that. -/
theorem Reckoned.toDay {d : Date} {era : Int} {y m n : Nat} (h : Reckoned d era y m n) :
    d.toDay = era * 146097 + (daysUntil y + (daysBefore m + n) : Nat) - 719468 := by
  obtain ⟨hy, hm, hd, year_lt, month_lt⟩ := h
  have year : (if d.month ≤ 2 then d.year - 1 else d.year) = y + era * 400 := by
    rw [hy]
    split <;> omega
  have eras : Int.fdiv (y + era * 400) 400 = era := by
    rw [Int.fdiv_eq_ediv_of_nonneg _ (by decide)]
    omega
  have month : (if 2 < d.month then d.month - 3 else d.month + 9) = m := by
    rw [hm]
    split <;> split <;> omega
  have inEra : ((y : Int) + era * 400 - era * 400).toNat = y := by omega
  simp only [Date.toDay, year, eras, month, inEra, hd, eraDays, epochShift, daysUntil,
    Nat.add_sub_cancel]

/-- The date of a day. -/
theorem ofDay_reckoned (n : Int) : ∃ era y m k, Reckoned (ofDay n) era y m k ∧ k ≤ 30 ∧
    n = era * 146097 + (daysUntil y + (daysBefore m + k) : Nat) - 719468 := by
  -- days are counted from the first of March of the year 0, where an era begins
  let era := (n + 719468) / 146097
  let d := (n + 719468 - era * 146097).toNat
  have hd : d < 146097 := by omega
  obtain ⟨year_lt, until_le, day_le⟩ := day_of_year hd
  obtain ⟨month_lt, before_le, rest_le⟩ := day_of_month day_le
  refine ⟨era, yearOf d, (5 * (d - daysUntil (yearOf d)) + 2) / 153,
    d - daysUntil (yearOf d) - daysBefore ((5 * (d - daysUntil (yearOf d)) + 2) / 153), ?_, rest_le,
    by omega⟩
  have eras : Int.fdiv (n + epochShift) eraDays = era := Int.fdiv_eq_ediv_of_nonneg _ (by decide)
  constructor
  case year =>
    simp only [ofDay, eras]
    rfl
  case month =>
    simp only [ofDay, eras]
    rfl
  case day =>
    simp only [ofDay, eras]
    rfl
  case year_lt => exact year_lt
  case month_lt => exact month_lt

theorem toDay_ofDay (n : Int) : (ofDay n).toDay = n := by
  obtain ⟨era, y, m, k, reckoned, -, sum⟩ := ofDay_reckoned n
  rw [reckoned.toDay, ← sum]

/-- Every day has a date of the calendar. -/
theorem ofDay_valid (n : Int) : (ofDay n).Valid ∧ (ofDay n).day ≤ 31 := by
  obtain ⟨era, y, m, k, reckoned, day_le, -⟩ := ofDay_reckoned n
  have month := reckoned.month
  have month_lt := reckoned.month_lt
  have day := reckoned.day
  refine ⟨⟨?_, ?_, by omega, by rw [toDay_ofDay]⟩, by omega⟩
  · split at month <;> omega
  · split at month <;> omega

end Courier.Date
