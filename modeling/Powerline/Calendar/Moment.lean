/-
A date with a time of day, as a clock on the wall shows it, and the one that belongs to a count
of seconds since the start of 1970.
-/
import Powerline.Calendar.Date

namespace Powerline

/-- A date and a time of day. A leap second is second 59 with a nanosecond count of 10^9 or more. -/
structure Moment where
  date : Date
  hour : Nat
  minute : Nat
  second : Nat
  nanosecond : Nat := 0
  deriving DecidableEq, Repr

namespace Moment

def Valid (t : Moment) : Prop :=
  t.date.Valid ∧ t.hour < 24 ∧ t.minute < 60 ∧ t.second < 60 ∧
    (t.nanosecond < 1000000000 ∨ (t.second = 59 ∧ t.nanosecond < 2000000000))

instance (t : Moment) : Decidable t.Valid := by unfold Valid; infer_instance

/-- The moment a number of milliseconds after the start of 1970, every day having 86400 seconds. -/
def ofUnixMillis (millis : Int) : Moment :=
  let seconds := millis / 1000
  let ofDay := (seconds % 86400).toNat
  { date := Date.ofDayNumber (719162 + seconds / 86400)
    hour := ofDay / 3600
    minute := ofDay / 60 % 60
    second := ofDay % 60
    nanosecond := (millis % 1000).toNat * 1000000 }

def epoch : Moment := ⟨⟨1970, 1, 1⟩, 0, 0, 0, 0⟩

example : ofUnixMillis 0 = epoch := by decide
example : ofUnixMillis (-1) = ⟨⟨1969, 12, 31⟩, 23, 59, 59, 999000000⟩ := by decide

end Moment

end Powerline
