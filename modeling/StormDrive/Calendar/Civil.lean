import Mathlib.Data.List.Basic
import Mathlib.Order.Monotone.Basic
import Mathlib.Tactic.IntervalCases

set_option relaxedAutoImplicit false
set_option autoImplicit false

/-!
# The Gregorian calendar

The calendar is what it is by counting: one day after another, with the lengths of the months, and
one second after another within a day. That is the definition here.

## Main definitions

* `Calendar.Month`, `Calendar.Date`, `Calendar.Moment` — months, days and seconds of the calendar.
* `Calendar.Month.next`, `Calendar.Date.next`, `Calendar.Moment.tick` — the one that follows.
* `Calendar.Moment.after` — the moment that many seconds after the first of 1970.
* `Calendar.Date.number`, `Calendar.Moment.number` — the numbers of a day and of a second.

## Main results

* `Calendar.Moment.number_after` — the seconds are numbered one after another.
* `Calendar.yearOfEra_eq` — **the year of a day in an era of four hundred years**.
* `Calendar.Date.of_number` — **the year, the month and the day in it of the number of a day**.

## Implementation notes

The numbers begin with the first of March of the year 0. They are integers, since January and
February of that year have numbers below it.
-/

namespace Calendar

/-- The years that have a day more. -/
def Leap (y : ℕ) : Prop := y % 4 = 0 ∧ (y % 100 ≠ 0 ∨ y % 400 = 0)

instance (y : ℕ) : Decidable (Leap y) := inferInstanceAs (Decidable (_ ∧ _))

/-- How many days a month has. -/
def daysIn (y m : ℕ) : ℕ :=
  if m = 2 then (if Leap y then 29 else 28)
  else if m = 4 ∨ m = 6 ∨ m = 9 ∨ m = 11 then 30
  else 31

/-- A month of the calendar. -/
structure Month where
  year : ℕ
  month : ℕ
  month_pos : 1 ≤ month
  month_le : month ≤ 12
  deriving DecidableEq

/-- A day of the calendar. -/
structure Date extends Month where
  day : ℕ
  day_pos : 1 ≤ day
  day_le : day ≤ daysIn year month
  deriving DecidableEq

/-- A second of the calendar, in a day of 86400 of them. -/
structure Moment extends Date where
  hour : ℕ
  minute : ℕ
  second : ℕ
  hour_lt : hour < 24
  minute_lt : minute < 60
  second_lt : second < 60
  deriving DecidableEq

lemma one_le_daysIn (y m : ℕ) : 1 ≤ daysIn y m := by
  rw [daysIn]
  split_ifs <;> omega

/-- The month that follows. -/
def Month.next (m : Month) : Month :=
  if h : m.month < 12 then ⟨m.year, m.month + 1, by omega, h⟩
  else ⟨m.year + 1, 1, by omega, by omega⟩

/-- The day that follows. -/
def Date.next (d : Date) : Date :=
  if h : d.day < daysIn d.year d.month then ⟨d.toMonth, d.day + 1, by omega, h⟩
  else ⟨d.toMonth.next, 1, le_rfl, one_le_daysIn _ _⟩

/-- The second that follows. -/
def Moment.tick (t : Moment) : Moment :=
  if h : t.second + 1 < 60 then
    ⟨t.toDate, t.hour, t.minute, t.second + 1, t.hour_lt, t.minute_lt, h⟩
  else if h : t.minute + 1 < 60 then
    ⟨t.toDate, t.hour, t.minute + 1, 0, t.hour_lt, h, by omega⟩
  else if h : t.hour + 1 < 24 then ⟨t.toDate, t.hour + 1, 0, 0, h, by omega, by omega⟩
  else ⟨t.toDate.next, 0, 0, 0, by omega, by omega, by omega⟩

/-- The first second of 1970. -/
def Moment.epoch : Moment :=
  ⟨⟨⟨1970, 1, by decide, by decide⟩, 1, by decide, by decide⟩, 0, 0, 0, by decide, by decide,
    by decide⟩

/-- The moment that many seconds after the epoch. -/
def Moment.after : ℕ → Moment
  | 0 => .epoch
  | n + 1 => (Moment.after n).tick

/-! ## The number of a day

A year that begins in March has its leap day at its end, so that the days before one of its months
are the same in each year. -/

/-- The days before the March of a year, from the March of the year 0 on. -/
def daysBefore (y : ℤ) : ℤ := 365 * y + y / 4 - y / 100 + y / 400

/-- The year of a month where years begin in March. -/
def Month.marchYear (m : Month) : ℤ := if m.month ≤ 2 then m.year - 1 else m.year

/-- The number of a month from March on. -/
def Month.marchMonth (m : Month) : ℤ := (m.month + 9) % 12

/-- The days before a month in a year that begins in March. -/
def daysBeforeMonth (mp : ℤ) : ℤ := (153 * mp + 2) / 5

/-- The number of a day in a year that begins in March. -/
def Date.marchDay (d : Date) : ℤ := daysBeforeMonth d.marchMonth + (d.day - 1)

/-- The number of a day, from the March of the year 0 on. -/
def Date.number (d : Date) : ℤ := daysBefore d.marchYear + d.marchDay

/-- The number of a second, from the March of the year 0 on. -/
def Moment.number (t : Moment) : ℤ :=
  t.toDate.number * 86400 + t.hour * 3600 + t.minute * 60 + t.second

/-- The year that begins in the January before has the day of its February more, if it is a leap
year. -/
lemma daysBefore_eq (y : ℕ) :
    daysBefore y = daysBefore (y - 1) + 365 + (if Leap y then 1 else 0) := by
  have leap : Leap y ↔ y % 4 = 0 ∧ (y % 100 ≠ 0 ∨ y % 400 = 0) := Iff.rfl
  unfold daysBefore
  split_ifs with h
  · rw [leap] at h
    omega
  · rw [leap] at h
    omega

/-- A month begins where the one before it ends. -/
lemma Month.daysBefore_next (m : Month) :
    daysBefore m.next.marchYear + daysBeforeMonth m.next.marchMonth =
      daysBefore m.marchYear + daysBeforeMonth m.marchMonth + daysIn m.year m.month := by
  obtain ⟨y, m, pos, le⟩ := m
  have february := daysBefore_eq y
  simp only [Month.next, Month.marchYear, Month.marchMonth, daysBeforeMonth, daysIn]
  interval_cases m
  case «2» =>
    norm_num
    split_ifs at february ⊢ <;> omega
  all_goals norm_num [add_assoc]

/-- Each day has the number after that of the day before. -/
lemma Date.number_next (d : Date) : d.next.number = d.number + 1 := by
  have month := d.toMonth.daysBefore_next
  have le := d.day_le
  rw [Date.next]
  split_ifs with h
  · simp only [Date.number, Date.marchDay]
    omega
  · simp only [Date.number, Date.marchDay]
    omega

/-- Each second has the number after that of the second before. -/
lemma Moment.number_tick (t : Moment) : t.tick.number = t.number + 1 := by
  have day := t.toDate.number_next
  have hour := t.hour_lt
  have minute := t.minute_lt
  have second := t.second_lt
  rw [Moment.tick]
  split_ifs with hs hm hh <;> simp only [Moment.number] <;> omega

/-- **The number of the moment `n` seconds after the epoch.** -/
lemma Moment.number_after (n : ℕ) : (Moment.after n).number = 719468 * 86400 + n := by
  induction n with
  | zero => decide
  | succ n ih =>
    rw [Moment.after, number_tick, ih]
    omega

/-! ## The day of a number

Four hundred years have the same number of days, always, and an era is so many. -/

/-- The year in its era of a day in it. -/
def yearOfEra (doe : ℤ) : ℤ := (doe - doe / 1460 + doe / 36524 - doe / 146096) / 365

/-- The day in its year of a day in an era. -/
def dayOfYear (doe : ℤ) : ℤ :=
  doe - (365 * yearOfEra doe + yearOfEra doe / 4 - yearOfEra doe / 100)

/-- The month from March on of a day in its year. -/
def monthOfYear (doy : ℤ) : ℤ := (5 * doy + 2) / 153

/-- **The year in its era is read from the day in it.**

**Proof sketch.** The year is `100 c + 4 q + k` and the day `36524 c + 1461 q + 365 k` and the day
in the year. The three quotients are `25 c + q` or one more, `c` or, on the last day, one more, and
zero or, on the last day, one: one is taken away only behind the first year of a span of four, and
where the day in the year is its last it is. -/
lemma yearOfEra_eq {y doy : ℤ} (hy : 0 ≤ y) (era : y < 400) (pos : 0 ≤ doy) (le : doy ≤ 365)
    (last : doy = 365 → (y + 1) % 4 = 0 ∧ ((y + 1) % 100 ≠ 0 ∨ (y + 1) % 400 = 0)) :
    yearOfEra (365 * y + y / 4 - y / 100 + doy) = y := by
  obtain ⟨c, q, k, rfl, hc, hq, hk⟩ : ∃ c q k : ℤ, y = 100 * c + 4 * q + k ∧
      (0 ≤ c ∧ c ≤ 3) ∧ (0 ≤ q ∧ q ≤ 24) ∧ 0 ≤ k ∧ k ≤ 3 :=
    ⟨y / 100, y % 100 / 4, y % 4, by omega, by omega, by omega, by omega⟩
  have leapDay : doy = 365 → k = 3 ∧ (q ≤ 23 ∨ c = 3) := by
    intro h
    have := last h
    omega
  have fourth : (100 * c + 4 * q + k) / 4 = 25 * c + q := by omega
  have century : (100 * c + 4 * q + k) / 100 = c := by omega
  rw [fourth, century]
  generalize hdoe : 365 * (100 * c + 4 * q + k) + (25 * c + q) - c + doy = doe
  have days : doe = 36524 * c + 1461 * q + 365 * k + doy := by omega
  clear last hdoe
  have span : doe / 1460 = 25 * c + q ∨ doe / 1460 = 25 * c + q + 1 := by omega
  have hundred : doe / 36524 - doe / 146096 = c := by
    obtain lastDay | before : doe = 146096 ∨ doe < 146096 := by omega
    · obtain rfl : c = 3 := by omega
      rw [lastDay]
      decide
    · have low : 36524 * c ≤ doe := by omega
      have high : doe < 36524 * (c + 1) := by omega
      clear days
      omega
  rw [yearOfEra]
  omega

/-- The year of 365 days has one more where the next February has. -/
lemma Date.marchDay_le (d : Date) : 0 ≤ d.marchDay ∧ d.marchDay ≤ 365 ∧
    (d.marchDay = 365 → (d.marchYear + 1) % 4 = 0 ∧
      ((d.marchYear + 1) % 100 ≠ 0 ∨ (d.marchYear + 1) % 400 = 0)) := by
  obtain ⟨⟨y, m, pos, le⟩, day, day_pos, day_le⟩ := d
  simp only [daysIn] at day_le
  simp only [marchDay, Month.marchMonth, Month.marchYear, daysBeforeMonth]
  interval_cases m
  case «2» =>
    simp only [if_true] at day_le
    split_ifs at day_le with leap
    · unfold Leap at leap
      norm_num
      omega
    · norm_num
      omega
  all_goals
    norm_num at day_le ⊢
    omega

/-- The month is read from the day in the year. -/
lemma Date.monthOfYear_marchDay (d : Date) : monthOfYear d.marchDay = d.marchMonth := by
  obtain ⟨⟨y, m, pos, le⟩, day, day_pos, day_le⟩ := d
  simp only [daysIn] at day_le
  simp only [marchDay, Month.marchMonth, monthOfYear, daysBeforeMonth]
  interval_cases m
  case «2» =>
    have february : day ≤ 29 := day_le.trans (by split_ifs <;> omega)
    norm_num
    omega
  all_goals
    norm_num at day_le ⊢
    omega

/-- The year, the day in it and the month, where years begin in March. -/
lemma Date.march_of_number (d : Date) {era doe : ℤ} (hera : era = d.number / 146097)
    (hdoe : doe = d.number - era * 146097) :
    yearOfEra doe + era * 400 = d.marchYear ∧ dayOfYear doe = d.marchDay ∧
      monthOfYear (dayOfYear doe) = d.marchMonth := by
  obtain ⟨pos, le, last⟩ := d.marchDay_le
  have days : d.number = 146097 * (d.marchYear / 400) +
      (365 * (d.marchYear % 400) + d.marchYear % 400 / 4 - d.marchYear % 400 / 100 +
        d.marchDay) := by
    rw [number, daysBefore]
    omega
  have year := yearOfEra_eq (y := d.marchYear % 400) (by omega) (by omega) pos le (by omega)
  have era : era = d.marchYear / 400 := by omega
  have first : doe = 365 * (d.marchYear % 400) + d.marchYear % 400 / 4 -
      d.marchYear % 400 / 100 + d.marchDay := by omega
  rw [← first] at year
  have day : dayOfYear doe = d.marchDay := by
    rw [dayOfYear, year]
    omega
  refine ⟨by omega, day, ?_⟩
  rw [day, monthOfYear_marchDay]

/-- The month of a month from March on. -/
def monthOf (mp : ℤ) : ℤ := if mp < 10 then mp + 3 else mp - 9

/-- **The day of a number**: its year, its month and its day in it. -/
theorem Date.of_number (d : Date) {era doe y mp : ℤ} (hera : era = d.number / 146097)
    (hdoe : doe = d.number - era * 146097) (hy : y = yearOfEra doe + era * 400)
    (hmp : mp = monthOfYear (dayOfYear doe)) :
    (if monthOf mp ≤ 2 then y + 1 else y) = d.year ∧ monthOf mp = d.month ∧
      dayOfYear doe - daysBeforeMonth mp + 1 = d.day := by
  obtain ⟨year, day, month⟩ := d.march_of_number hera hdoe
  have pos := d.month_pos
  have le := d.month_le
  rw [← hmp] at month
  have hm : monthOf mp = d.month := by
    rw [month, monthOf, Month.marchMonth]
    split_ifs <;> omega
  refine ⟨?_, hm, ?_⟩
  · rw [hm, hy, year, Month.marchYear]
    split_ifs <;> omega
  · rw [day, month, marchDay]
    omega

/-- **The day and the time of day of a moment.** -/
theorem Moment.of_number {t : Moment} {n : ℕ} (h : t.number = 719468 * 86400 + n) :
    t.toDate.number = (n / 86400 : ℕ) + 719468 ∧ n % 86400 / 3600 = t.hour ∧
      n % 86400 % 3600 / 60 = t.minute ∧ n % 86400 % 60 = t.second := by
  have hour := t.hour_lt
  have minute := t.minute_lt
  have second := t.second_lt
  rw [number] at h
  have day : t.toDate.number = (n / 86400 : ℕ) + 719468 := by omega
  have rest : n % 86400 = t.hour * 3600 + t.minute * 60 + t.second := by omega
  rw [rest]
  refine ⟨day, ?_, ?_, ?_⟩ <;> omega

end Calendar
