/-!
# Calendar dates and day numbers

The proleptic Gregorian calendar against a running day number, day 0 being 1970-01-01. Years are
counted from March, so that the leap day is the last of its year; 400 such years are an era of
146097 days. A date of the calendar is one that its own day number gives back (`Date.Valid`), which
is how month lengths and leap years are checked: no table of month lengths is needed.
-/

set_option autoImplicit false

namespace Courier

/-- A year, a month from 1 and a day from 1. That such a date exists is `Valid`, a matter apart. -/
structure Date where
  year : Int
  month : Nat
  day : Nat
  deriving DecidableEq, Repr

namespace Date

/-- Days of an era of 400 years. -/
def eraDays : Int := 146097

/-- Days from 0000-03-01 to 1970-01-01. -/
def epochShift : Int := 719468

/-- Days before a month, counted from March, within a year. -/
def daysBefore (monthFromMarch : Nat) : Nat := (153 * monthFromMarch + 2) / 5

/-- The day number of a date. The 153 days of five months from March on repeat, which makes the days
before a month a linear expression rounded down. -/
def toDay (d : Date) : Int :=
  let y := if d.month ≤ 2 then d.year - 1 else d.year
  let era := Int.fdiv y 400
  let yearOfEra := (y - era * 400).toNat
  let fromMarch := if 2 < d.month then d.month - 3 else d.month + 9
  let dayOfYear := daysBefore fromMarch + (d.day - 1)
  let dayOfEra := 365 * yearOfEra + yearOfEra / 4 - yearOfEra / 100 + dayOfYear
  era * eraDays + dayOfEra - epochShift

/-- The date of a day number. The three corrections in `yearOfEra` take out the leap days: one in
four years, none in a hundred, one in four hundred. -/
def ofDay (n : Int) : Date :=
  let z := n + epochShift
  let era := Int.fdiv z eraDays
  let dayOfEra := (z - era * eraDays).toNat
  let yearOfEra :=
    (dayOfEra - dayOfEra / 1460 + dayOfEra / 36524 - dayOfEra / 146096) / 365
  let dayOfYear := dayOfEra - (365 * yearOfEra + yearOfEra / 4 - yearOfEra / 100)
  let fromMarch := (5 * dayOfYear + 2) / 153
  let month := if fromMarch < 10 then fromMarch + 3 else fromMarch - 9
  let year : Int := yearOfEra + era * 400
  ⟨if month ≤ 2 then year + 1 else year, month, dayOfYear - daysBefore fromMarch + 1⟩

/-- A date that exists in the calendar. -/
def Valid (d : Date) : Prop := 1 ≤ d.month ∧ d.month ≤ 12 ∧ 1 ≤ d.day ∧ ofDay (toDay d) = d

instance (d : Date) : Decidable d.Valid := by unfold Valid; infer_instance

/-- 1970-01-01 is day 0, the leap day of 2000 exists and that of 1900 does not. -/
example : toDay ⟨1970, 1, 1⟩ = 0 ∧ Valid ⟨2000, 2, 29⟩ ∧ ¬ Valid ⟨1900, 2, 29⟩ := by decide

end Date

end Courier
