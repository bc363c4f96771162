/-
Days follow one another: the day after a date is a date, one day later in the count of all days and the
next day of the week; in its year it is one day later too, unless a new year begins with it. The day
of the year tells the month and the day, and every count of days or milliseconds has its date.
-/
import Powerline.Calendar.Moment
import Mathlib.Tactic

namespace Powerline

namespace Date

/-! ## Months -/

theorem monthLength_pos (year : Int) (month : Nat) : 0 < monthLength year month := by
  unfold monthLength
  split
  · split <;> decide
  all_goals decide

theorem daysBeforeMonth_succ (year : Int) {month : Nat} (h : 1 ≤ month) :
    daysBeforeMonth year (month + 1) = daysBeforeMonth year month + monthLength year month := by
  obtain ⟨m, rfl⟩ := Nat.exists_eq_add_of_le' h
  rfl

theorem daysBeforeMonth_mono (year : Int) : Monotone (daysBeforeMonth year) := by
  apply monotone_nat_of_le_succ
  intro month
  rcases Nat.eq_zero_or_pos month with rfl | h
  · exact le_rfl
  · rw [daysBeforeMonth_succ year h]
    exact Nat.le_add_right _ _

/-- The months of a year make up the year. -/
theorem daysBeforeMonth_thirteen (year : Int) : daysBeforeMonth year 13 = yearLength year := by
  unfold yearLength
  cases h : isLeap year <;> simp [daysBeforeMonth, monthLength, h]

/-! ## The day of the year -/

/-- A date comes before the next month begins. -/
theorem yearDay_lt_nextMonth {d : Date} (h : d.Valid) :
    d.yearDay < daysBeforeMonth d.year (d.month + 1) := by
  obtain ⟨hmonth, -, hday, hlast⟩ := h
  rw [daysBeforeMonth_succ d.year hmonth]
  unfold yearDay
  omega

theorem yearDay_lt {d : Date} (h : d.Valid) : d.yearDay < yearLength d.year := by
  have hmonth : d.month + 1 ≤ 13 := Nat.succ_le_succ h.2.1
  rw [← daysBeforeMonth_thirteen]
  exact (yearDay_lt_nextMonth h).trans_le (daysBeforeMonth_mono d.year hmonth)

theorem yearDay_le {d : Date} (h : d.Valid) : d.yearDay ≤ 365 := by
  have hlt := yearDay_lt h
  unfold yearLength at hlt
  split at hlt <;> omega

/-- A later month begins after every day of an earlier one. -/
theorem month_le_of_yearDay_le {d e : Date} (hd : d.Valid) (year : e.year = d.year)
    (h : e.yearDay ≤ d.yearDay) : e.month ≤ d.month := by
  by_contra hlater
  have hbegin : daysBeforeMonth d.year (d.month + 1) ≤ daysBeforeMonth d.year e.month :=
    daysBeforeMonth_mono d.year (Nat.lt_of_not_le hlater)
  have hend := yearDay_lt_nextMonth hd
  unfold yearDay at h hend
  rw [year] at h
  omega

/-- The days of a year are told apart by their numbers. -/
theorem eq_of_yearDay {d e : Date} (hd : d.Valid) (he : e.Valid) (year : d.year = e.year)
    (h : d.yearDay = e.yearDay) : d = e := by
  have hmonth : d.month = e.month :=
    Nat.le_antisymm (month_le_of_yearDay_le he year h.le)
      (month_le_of_yearDay_le hd year.symm h.ge)
  have hday : d.day = e.day := by
    have hdpos := hd.2.2.1
    have hepos := he.2.2.1
    unfold yearDay at h
    rw [year, hmonth] at h
    omega
  cases d; cases e
  simp_all

theorem valid_newYear (year : Int) : (⟨year, 1, 1⟩ : Date).Valid := by
  have hmonths : 1 ≤ 12 := by decide
  exact ⟨le_rfl, hmonths, le_rfl, monthLength_pos year 1⟩

theorem yearDay_eq_zero_iff {d : Date} (h : d.Valid) : d.yearDay = 0 ↔ d.month = 1 ∧ d.day = 1 := by
  constructor
  · intro hzero
    have heq : d = ⟨d.year, 1, 1⟩ := eq_of_yearDay h (valid_newYear _) rfl hzero
    rw [heq]
    exact ⟨rfl, rfl⟩
  · rintro ⟨hmonth, hday⟩
    simp [yearDay, hmonth, hday, daysBeforeMonth]

/-! ## The day after -/

theorem valid_next {d : Date} (h : d.Valid) : d.next.Valid := by
  obtain ⟨hmonth, hmonths, hday, -⟩ := h
  unfold next
  split_ifs with hin hyear
  · exact ⟨hmonth, hmonths, Nat.le_add_left _ _, hin⟩
  · exact ⟨Nat.le_add_left _ _, hyear, le_rfl, monthLength_pos _ _⟩
  · exact valid_newYear _

/-- The day after a date is the next one of the year, or the last day of the year is over. -/
theorem next_cases {d : Date} (h : d.Valid) :
    (d.next.year = d.year ∧ d.next.yearDay = d.yearDay + 1) ∨
      (d.next = ⟨d.year + 1, 1, 1⟩ ∧ d.yearDay + 1 = yearLength d.year) := by
  obtain ⟨hmonth, hmonths, hday, hlast⟩ := h
  unfold next
  split_ifs with hin hyear
  · left
    refine ⟨rfl, ?_⟩
    simp only [yearDay]
    omega
  · left
    refine ⟨rfl, ?_⟩
    simp only [yearDay, daysBeforeMonth_succ d.year hmonth]
    omega
  · right
    have hdecember : d.month = 12 := by omega
    refine ⟨rfl, ?_⟩
    rw [← daysBeforeMonth_thirteen, daysBeforeMonth_succ d.year (by decide)]
    simp only [yearDay]
    rw [hdecember] at hin hlast ⊢
    omega

theorem isLeap_iff (year : Int) :
    isLeap year = true ↔ year % 4 = 0 ∧ (year % 100 ≠ 0 ∨ year % 400 = 0) := by
  simp [isLeap]

/-- A year later it is as many days later as the year has. -/
theorem daysBeforeYear_succ (year : Int) :
    daysBeforeYear (year + 1) = daysBeforeYear year + yearLength year := by
  simp only [daysBeforeYear, yearLength]
  split_ifs with h
  · rw [isLeap_iff] at h
    omega
  · rw [isLeap_iff] at h
    omega

theorem dayNumber_next {d : Date} (h : d.Valid) : d.next.dayNumber = d.dayNumber + 1 := by
  unfold dayNumber
  rcases next_cases h with ⟨hyear, hday⟩ | ⟨hnew, hlast⟩
  · rw [hyear, hday]
    omega
  · have hfirst : (⟨d.year + 1, 1, 1⟩ : Date).yearDay = 0 := rfl
    rw [hnew, hfirst, daysBeforeYear_succ]
    omega

/-! ## The day of the week -/

theorem weekday_lt (d : Date) : d.weekday < 7 := by
  unfold weekday
  omega

theorem weekday_next {d : Date} (h : d.Valid) : d.next.weekday = (d.weekday + 1) % 7 := by
  unfold weekday
  rw [dayNumber_next h]
  omega

/-! ## Dates from day counts -/

/-- The months are gone through one after the other; a day that comes before the end of the year comes
before the end of one of them. -/
theorem valid_monthDayFrom (year : Int) (later : Nat) :
    ∀ {month yearDay : Nat}, 1 ≤ month → month + later = 12 →
      daysBeforeMonth year month + yearDay < daysBeforeMonth year 13 →
      (⟨year, (monthDayFrom year month yearDay later).1,
        (monthDayFrom year month yearDay later).2⟩ : Date).Valid := by
  induction later with
  | zero =>
    intro month yearDay hmonth hlast hday
    obtain rfl : month = 12 := hlast
    rw [daysBeforeMonth_succ year (show 1 ≤ 12 by decide)] at hday
    refine ⟨hmonth, le_rfl, Nat.le_add_left _ _, ?_⟩
    show yearDay + 1 ≤ monthLength year 12
    omega
  | succ later ih =>
    intro month yearDay hmonth hlast hday
    have hnext := daysBeforeMonth_succ year hmonth
    unfold monthDayFrom
    split
    · rename_i hin
      refine ⟨hmonth, ?_, Nat.le_add_left _ _, hin⟩
      show month ≤ 12
      omega
    · apply ih
      · omega
      · omega
      · omega

theorem valid_ofYearDay {year : Int} {yearDay : Nat} (h : yearDay < yearLength year) :
    (ofYearDay year yearDay).Valid := by
  have hfirst : daysBeforeMonth year 1 = 0 := rfl
  have hmonths : 1 + 11 = 12 := rfl
  apply valid_monthDayFrom year 11 le_rfl hmonths
  rw [hfirst, daysBeforeMonth_thirteen]
  omega

/-- A year of 365 days, or of 366 if the rule for leap years says so. -/
theorem lt_yearLength {year : Int} {yearDay : Nat} (h : yearDay ≤ 365)
    (leap : yearDay = 365 → year % 4 = 0 ∧ (year % 100 ≠ 0 ∨ year % 400 = 0)) :
    yearDay < yearLength year := by
  unfold yearLength
  split
  · omega
  · rename_i hcommon
    rw [isLeap_iff] at hcommon
    omega

/-- Every day has a date. -/
theorem valid_ofDayNumber (n : Int) : (ofDayNumber n).Valid := by
  unfold ofDayNumber
  apply valid_ofYearDay
  apply lt_yearLength
  · omega
  · omega

end Date

namespace Moment

/-- The same time on the next day. -/
theorem valid_next {t : Moment} (h : t.Valid) : ({ t with date := t.date.next } : Moment).Valid :=
  ⟨Date.valid_next h.1, h.2⟩

theorem valid_ofUnixMillis (millis : Int) : (ofUnixMillis millis).Valid := by
  refine ⟨Date.valid_ofDayNumber _, ?_, ?_, ?_, .inl ?_⟩
  · show _ / 3600 < 24
    omega
  · show _ % 60 < 60
    omega
  · show _ % 60 < 60
    omega
  · show _ * 1000000 < 1000000000
    omega

end Moment

end Powerline
