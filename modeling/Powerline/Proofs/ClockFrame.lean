/-
What a clock frame tells. All of it can be read back: the time to the second, the day of the year, the
weekday and the house, so that in one year no other second and no other house has the same frame. From
one day to the next the weekday's bit goes round by one place and the day of the year goes up by one,
or back to zero with the first of January.
-/
import Powerline.Frame.Clock
import Powerline.Proofs.Calendar

namespace Powerline

namespace Frame

/-! ## Reading -/

/-- The number at a place of a frame. -/
def number (f : Frame) (place : Nat) : Nat := (f.getD place 0).toNat

/-- The day of the year, whose ninth bit stands above the weekday. -/
def yearDay (f : Frame) : Nat := f.number 4 + 256 * (f.number 5 >>> 7)

/-- The bits of the weekdays, Sunday lowest. -/
def weekdays (f : Frame) : Nat := f.number 5 &&& 0x7F

/-- A frame of seven bytes from which a moment can be read to the second, and a house. -/
structure ShowsTime (f : Frame) (t : Moment) (house : House) : Prop where
  length : f.length = 7
  answers : f.number 0 = 0x9B
  second : f.number 1 = t.second
  seconds_le : f.number 1 ≤ 59
  minute : f.number 2 % 60 = t.minute
  minutes_le : f.number 2 ≤ 119
  hour : 2 * f.number 3 + f.number 2 / 60 = t.hour
  hours_le : f.number 3 ≤ 11
  yearDay : f.yearDay = t.date.yearDay
  yearDay_le : f.yearDay ≤ 365
  weekday : ∀ bit, f.weekdays.testBit bit = decide (bit = t.date.weekday)
  weekday_lt : t.date.weekday < 7
  house : f.number 6 = house.nibble.toNat <<< 4

/-! ## Packing -/

/-- A bit and a weekday share a byte. -/
theorem pack_weekday : ∀ high < 2, ∀ weekday < 7,
    (UInt8.ofNat high <<< 7 ||| UInt8.ofNat (1 <<< weekday)).toNat >>> 7 = high ∧
      (UInt8.ofNat high <<< 7 ||| UInt8.ofNat (1 <<< weekday)).toNat &&& 0x7F = 1 <<< weekday := by
  decide

theorem pack_house (house : House) : (house.nibble <<< 4).toNat = house.nibble.toNat <<< 4 := by
  cases house <;> rfl

theorem yearDay_clock {t : Moment} (valid : t.Valid) (house : House) :
    (clock t house).yearDay = t.date.yearDay := by
  have hday := Date.yearDay_le valid.1
  have hhigh := (pack_weekday (t.date.yearDay / 256) (by omega) _ t.date.weekday_lt).1
  have hlow : (UInt8.ofNat (t.date.yearDay % 256)).toNat = t.date.yearDay % 256 := by
    rw [UInt8.toNat_ofNat']
    omega
  show (UInt8.ofNat (t.date.yearDay % 256)).toNat + 256 * (_ >>> 7) = _
  rw [hlow]
  show t.date.yearDay % 256 + 256 * ((UInt8.ofNat (t.date.yearDay / 256) <<< 7 |||
    UInt8.ofNat (1 <<< t.date.weekday)).toNat >>> 7) = _
  rw [hhigh]
  omega

theorem weekdays_clock {t : Moment} (valid : t.Valid) (house : House) :
    (clock t house).weekdays = 2 ^ t.date.weekday := by
  have hday := Date.yearDay_le valid.1
  rw [← Nat.one_shiftLeft]
  exact (pack_weekday (t.date.yearDay / 256) (by omega) _ t.date.weekday_lt).2

theorem showsTime_clock {t : Moment} (valid : t.Valid) (house : House) :
    (clock t house).ShowsTime t house := by
  have yearDay := yearDay_clock valid house
  have weekdays := weekdays_clock valid house
  obtain ⟨hdate, hhour, hminute, hsecond, -⟩ := valid
  have second : (clock t house).number 1 = t.second := by
    show (UInt8.ofNat (min t.second 59)).toNat = _
    rw [UInt8.toNat_ofNat']
    omega
  have minutes : (clock t house).number 2 = t.minute + 60 * (t.hour % 2) := by
    show (UInt8.ofNat (t.minute + 60 * (t.hour % 2))).toNat = _
    rw [UInt8.toNat_ofNat']
    omega
  have hours : (clock t house).number 3 = t.hour / 2 := by
    show (UInt8.ofNat (t.hour / 2)).toNat = _
    rw [UInt8.toNat_ofNat']
    omega
  exact {
    length := length_clock t house
    answers := rfl
    second
    seconds_le := by omega
    minute := by omega
    minutes_le := by omega
    hour := by omega
    hours_le := by omega
    yearDay
    yearDay_le := yearDay ▸ Date.yearDay_le hdate
    weekday := fun bit => by rw [weekdays, Nat.testBit_two_pow]; exact decide_eq_decide.2 eq_comm
    weekday_lt := t.date.weekday_lt
    house := pack_house house }

/-! ## What is told apart -/

/-- Two moments of a year that one frame shows are the same to the second. -/
theorem ShowsTime.unique {f : Frame} {t t' : Moment} {house house' : House}
    (h : f.ShowsTime t house) (h' : f.ShowsTime t' house') (valid : t.Valid) (valid' : t'.Valid)
    (year : t'.date.year = t.date.year) :
    t' = { t with nanosecond := t'.nanosecond } ∧ house' = house := by
  have hdate : t'.date = t.date :=
    Date.eq_of_yearDay valid'.1 valid.1 year (h'.yearDay.symm.trans h.yearDay)
  have hhour : t'.hour = t.hour := h'.hour.symm.trans h.hour
  have hminute : t'.minute = t.minute := h'.minute.symm.trans h.minute
  have hsecond : t'.second = t.second := h'.second.symm.trans h.second
  constructor
  · cases t; cases t'
    simp_all
  · have hshift : house'.nibble.toNat <<< 4 = house.nibble.toNat <<< 4 := h'.house.symm.trans h.house
    have hnibble : house'.nibble.toNat = house.nibble.toNat := by
      rw [Nat.shiftLeft_eq, Nat.shiftLeft_eq] at hshift
      omega
    exact House.nibble_injective house' house (UInt8.toNat_inj.1 hnibble)

/-! ## The next day -/

theorem weekdays_next {t : Moment} (valid : t.Valid) (house : House) :
    ∀ bit < 7, (clock { t with date := t.date.next } house).weekdays.testBit ((bit + 1) % 7) =
      (clock t house).weekdays.testBit bit := by
  intro bit hbit
  have hweekday := t.date.weekday_lt
  rw [weekdays_clock valid, weekdays_clock (Moment.valid_next valid), Date.weekday_next valid.1,
    Nat.testBit_two_pow, Nat.testBit_two_pow]
  exact decide_eq_decide.2 (by omega)

theorem yearDay_next {t : Moment} (valid : t.Valid) (house : House) :
    (clock { t with date := t.date.next } house).yearDay =
      if t.date.next.month = 1 ∧ t.date.next.day = 1 then 0 else (clock t house).yearDay + 1 := by
  have hzero := Date.yearDay_eq_zero_iff (Date.valid_next valid.1)
  rw [yearDay_clock valid, yearDay_clock (Moment.valid_next valid)]
  show t.date.next.yearDay = _
  rcases Date.next_cases valid.1 with ⟨-, hday⟩ | ⟨hnew, -⟩
  · have hlater : ¬(t.date.next.month = 1 ∧ t.date.next.day = 1) := by
      rw [← hzero]
      omega
    rw [if_neg hlater, hday]
  · rw [hnew]
    rfl

/-- A clock frame can be read. It shows its moment to the second and the house, in one year no other
second and no other house has the same frame, and the frame of the same time on the next day has the
weekday's bit one place further round and the day of the year one up, or zero on the first of January
and then alone. -/
theorem clock_legible (t : Moment) (valid : t.Valid) (house : House) :
    let morrow : Moment := { t with date := t.date.next }
    (clock t house).ShowsTime t house ∧
      (∀ (t' : Moment) (house' : House), t'.Valid → t'.date.year = t.date.year →
        clock t' house' = clock t house →
        t' = { t with nanosecond := t'.nanosecond } ∧ house' = house) ∧
      morrow.Valid ∧ (clock morrow house).ShowsTime morrow house ∧
      (∀ bit < 7, (clock morrow house).weekdays.testBit ((bit + 1) % 7) =
        (clock t house).weekdays.testBit bit) ∧
      (clock morrow house).yearDay =
        if morrow.date.month = 1 ∧ morrow.date.day = 1 then 0 else (clock t house).yearDay + 1 := by
  intro morrow
  have shows := showsTime_clock valid house
  have after : morrow.Valid := Moment.valid_next valid
  refine ⟨shows, fun t' house' valid' year same => ?_, after, showsTime_clock after house,
    weekdays_next valid house, yearDay_next valid house⟩
  have shows' := showsTime_clock valid' house'
  rw [same] at shows'
  exact shows.unique shows' valid valid' year

/-- The leap second at the end of a leap year long before the first one: its frame is that of the second
before it, and the next day is the first of January. -/
theorem clock_legible_leapSecond :
    let t : Moment := ⟨⟨-400, 12, 31⟩, 23, 59, 59, 1500000000⟩
    let before : Moment := { t with nanosecond := 0 }
    t.Valid ∧ before.Valid ∧ (clock t .P).ShowsTime t .P ∧ (clock t .P).yearDay = 365 ∧
      before = { t with nanosecond := before.nanosecond } ∧
      (clock { t with date := ⟨-399, 1, 1⟩ } .P).yearDay = 0 := by
  intro t before
  have valid : t.Valid := by decide
  have valid' : before.Valid := by decide
  obtain ⟨shows, unique, -, -, -, day⟩ := clock_legible t valid .P
  have hnext : t.date.next = ⟨-399, 1, 1⟩ := by decide
  rw [hnext] at day
  exact ⟨valid, valid', shows, by decide, (unique before .P valid' rfl rfl).1, day⟩

end Frame

end Powerline
