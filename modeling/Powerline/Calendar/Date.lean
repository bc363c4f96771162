/-
The proleptic Gregorian calendar with astronomical years: month lengths, the day of the year,
the weekday, and the count of days that orders all dates.
-/

namespace Powerline

/-- A date of the proleptic Gregorian calendar; the year before year 1 is year 0. -/
structure Date where
  year : Int
  month : Nat
  day : Nat
  deriving DecidableEq, Repr

namespace Date

/-! ## Lengths -/

/-- Every fourth year has a leap day, but of the centuries only every fourth. -/
def isLeap (year : Int) : Bool := year % 4 == 0 && (year % 100 != 0 || year % 400 == 0)

def monthLength (year : Int) : Nat → Nat
  | 2 => if isLeap year then 29 else 28
  | 4 | 6 | 9 | 11 => 30
  | _ => 31

def yearLength (year : Int) : Nat := if isLeap year then 366 else 365

def Valid (d : Date) : Prop :=
  1 ≤ d.month ∧ d.month ≤ 12 ∧ 1 ≤ d.day ∧ d.day ≤ monthLength d.year d.month

instance (d : Date) : Decidable d.Valid := by unfold Valid; infer_instance

def next (d : Date) : Date :=
  if d.day < monthLength d.year d.month then { d with day := d.day + 1 }
  else if d.month < 12 then { d with month := d.month + 1, day := 1 }
  else { year := d.year + 1, month := 1, day := 1 }

/-! ## Day counts -/

/-- The days of a year that lie before a month. -/
def daysBeforeMonth (year : Int) : Nat → Nat
  | 0 | 1 => 0
  | m + 1 => daysBeforeMonth year m + monthLength year m

/-- The day of the year, counted from zero. -/
def yearDay (d : Date) : Nat := daysBeforeMonth d.year d.month + (d.day - 1)

/-- The days between 1 January of year 1 and 1 January of a year, negative before year 1. -/
def daysBeforeYear (year : Int) : Int :=
  let past := year - 1
  365 * past + past / 4 - past / 100 + past / 400

/-- The days between 1 January of year 1 and a date. -/
def dayNumber (d : Date) : Int := daysBeforeYear d.year + d.yearDay

/-- The weekday, counted from Sunday as zero: 1 January of year 1 is a Monday. -/
def weekday (d : Date) : Nat := ((d.dayNumber + 1) % 7).toNat

/-! ## Dates from day counts -/

/-- The month and day of a day of the year, looked for from a month on among the following ones. -/
def monthDayFrom (year : Int) (month : Nat) (yearDay : Nat) : Nat → Nat × Nat
  | 0 => (month, yearDay + 1)
  | later + 1 =>
    if yearDay < monthLength year month then (month, yearDay + 1)
    else monthDayFrom year (month + 1) (yearDay - monthLength year month) later

/-- The date of a day of a year, counted from zero. -/
def ofYearDay (year : Int) (yearDay : Nat) : Date :=
  let (month, day) := monthDayFrom year 1 yearDay 11
  { year, month, day }

/-- The date that many days after 1 January of year 1. -/
def ofDayNumber (n : Int) : Date :=
  -- years repeat after 400
  let inEra := n % 146097
  -- the last century of the four is a day longer than the others, as is the last year of four
  let century := min (inEra / 36524) 3
  let inCentury := inEra - 36524 * century
  let four := inCentury / 1461
  let inFour := inCentury - 1461 * four
  let single := min (inFour / 365) 3
  ofYearDay (400 * (n / 146097) + 100 * century + 4 * four + single + 1)
    (inFour - 365 * single).toNat

example : (⟨1970, 1, 1⟩ : Date).dayNumber = 719162 := by decide
example : (⟨2000, 2, 29⟩ : Date).weekday = 2 := by decide
example : ofDayNumber (⟨2024, 12, 31⟩ : Date).dayNumber = ⟨2024, 12, 31⟩ := by decide

end Date

end Powerline
