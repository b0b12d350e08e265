/-
  StoneHMI.Lib.Calendar
  ─────────────────────
  **THE GREGORIAN CALENDAR — a library of its own.**

  Days are numbered from 1 January of the year 1 on, in both directions, and
  seconds from 1970 on.  The number of a day is linear in the day of the month,
  so a day that its month does not have gets the number of a later one.

    • `Date`, `Moment` — a date that exists, and a time of day on one;
    • `Date.number`    — its day, and `ofNumber` the date of any day;
    • `Moment.seconds` — its second, and `ofSeconds` the moment of any second.

  A day lies in one year and in one month of it, because years and months
  follow each other without gaps.
-/
import Mathlib.Data.Int.ConditionallyCompleteOrder
import Mathlib.Tactic.IntervalCases
import Mathlib.Tactic.SplitIfs

namespace Calendar

/-! ## §1. Years and months. -/

def isLeap (y : ℤ) : Bool := y % 4 = 0 && (y % 100 ≠ 0 || y % 400 = 0)

/-- The days of a month from 1 to 12. -/
def daysInMonth (y m : ℤ) : ℤ :=
  if m = 2 then if isLeap y then 29 else 28
  else if m = 4 ∨ m = 6 ∨ m = 9 ∨ m = 11 then 30
  else 31

/-- The days before 1 January, counted from the year 1. -/
def daysBeforeYear (y : ℤ) : ℤ :=
  365 * (y - 1) + (y - 1) / 4 - (y - 1) / 100 + (y - 1) / 400

/-- The days of the year before the first of the month. -/
def daysBeforeMonth (y m : ℤ) : ℤ :=
  (367 * m - 362) / 12 - if m ≤ 2 then 0 else if isLeap y then 1 else 2

theorem isLeap_iff (y : ℤ) : isLeap y = true ↔ y % 4 = 0 ∧ (y % 100 ≠ 0 ∨ y % 400 = 0) := by
  simp [isLeap]

/-- A year is as long as its kind says. -/
theorem daysBeforeYear_succ (y : ℤ) :
    daysBeforeYear (y + 1) = daysBeforeYear y + if isLeap y then 366 else 365 := by
  unfold daysBeforeYear
  by_cases h : isLeap y = true
  · rw [if_pos h]
    have hy := (isLeap_iff y).mp h
    omega
  · rw [if_neg h]
    have hy : ¬ (y % 4 = 0 ∧ (y % 100 ≠ 0 ∨ y % 400 = 0)) := fun hy => h ((isLeap_iff y).mpr hy)
    omega

/-- A month is as long as its days say, the last one up to the end of the year. -/
theorem daysBeforeMonth_succ (y : ℤ) {m : ℤ} (h1 : 1 ≤ m) (h12 : m ≤ 12) :
    daysBeforeMonth y (m + 1) = daysBeforeMonth y m + daysInMonth y m := by
  unfold daysBeforeMonth daysInMonth
  cases isLeap y <;> interval_cases m <;> rfl

theorem daysInMonth_le (y m : ℤ) : daysInMonth y m ≤ 31 := by
  unfold daysInMonth
  split_ifs <;> omega

theorem daysBeforeMonth_one (y : ℤ) : daysBeforeMonth y 1 = 0 := rfl

theorem daysBeforeYear_succ_eq (y : ℤ) :
    daysBeforeYear (y + 1) = daysBeforeYear y + daysBeforeMonth y 13 := by
  rw [daysBeforeYear_succ]
  unfold daysBeforeMonth
  cases isLeap y <;> rfl

theorem daysBeforeYear_strictMono : StrictMono daysBeforeYear := by
  intro y z h
  unfold daysBeforeYear
  omega

theorem daysBeforeMonth_strictMono (y : ℤ) : StrictMono (daysBeforeMonth y) := by
  intro m n h
  unfold daysBeforeMonth
  split_ifs <;> omega

/-- What follows without gaps does not overlap. -/
theorem index_unique {start : ℤ → ℤ} (hstart : StrictMono start) {a b x : ℤ}
    (ha : start a ≤ x ∧ x < start (a + 1)) (hb : start b ≤ x ∧ x < start (b + 1)) : a = b := by
  have hab : a < b + 1 := hstart.lt_iff_lt.mp (by omega)
  have hba : b < a + 1 := hstart.lt_iff_lt.mp (by omega)
  omega

/-! ## §2. Dates and their days. -/

/-- The `d`-th day, counted from the first of the month whether the month has it or not. -/
def dayNumber (y m d : ℤ) : ℤ := daysBeforeYear y + daysBeforeMonth y m + (d - 1)

/-- A date that exists. -/
@[ext] structure Date where
  year : ℤ
  month : ℤ
  day : ℤ
  month_range : 1 ≤ month ∧ month ≤ 12
  day_range : 1 ≤ day ∧ day ≤ daysInMonth year month
  deriving DecidableEq

/-- The year a day lies in: the average length of a year gives it, or one beside it. -/
def yearOf (n : ℤ) : ℤ :=
  let y := n * 400 / 146097 + 1
  if daysBeforeYear (y + 1) ≤ n then y + 1 else if n < daysBeforeYear y then y - 1 else y

/-- The month of the year that its day `k`, from 0 on, lies in. -/
def monthOf (y k : ℤ) : ℤ :=
  (12 * (k + if k < daysBeforeMonth y 3 then 0 else if isLeap y then 1 else 2) + 373) / 367

theorem yearOf_spec (n : ℤ) :
    daysBeforeYear (yearOf n) ≤ n ∧ n < daysBeforeYear (yearOf n + 1) := by
  unfold yearOf
  dsimp only
  split_ifs with hnext hbefore
  · refine ⟨hnext, ?_⟩
    unfold daysBeforeYear
    omega
  · refine ⟨?_, by rw [Int.sub_add_cancel]; exact hbefore⟩
    unfold daysBeforeYear
    omega
  · omega

theorem monthOf_spec (y : ℤ) {k : ℤ} (h0 : 0 ≤ k) (h : k < daysBeforeMonth y 13) :
    (1 ≤ monthOf y k ∧ monthOf y k ≤ 12) ∧
      daysBeforeMonth y (monthOf y k) ≤ k ∧ k < daysBeforeMonth y (monthOf y k + 1) := by
  have h3 : daysBeforeMonth y 3 = 61 - if isLeap y then 1 else 2 := rfl
  have h13 : daysBeforeMonth y 13 = 367 - if isLeap y then 1 else 2 := rfl
  rw [h13] at h
  unfold monthOf
  rw [h3]
  unfold daysBeforeMonth
  split_ifs at * <;> omega

namespace Date

def number (d : Date) : ℤ := dayNumber d.year d.month d.day

/-- A date lies in its month. -/
theorem number_mem_month (d : Date) :
    daysBeforeYear d.year + daysBeforeMonth d.year d.month ≤ d.number ∧
      d.number < daysBeforeYear d.year + daysBeforeMonth d.year (d.month + 1) := by
  rw [daysBeforeMonth_succ d.year d.month_range.1 d.month_range.2]
  have hday := d.day_range
  unfold number dayNumber
  omega

/-- A date lies in its year. -/
theorem number_mem_year (d : Date) :
    daysBeforeYear d.year ≤ d.number ∧ d.number < daysBeforeYear (d.year + 1) := by
  have hmonth := d.number_mem_month
  have hfirst := (daysBeforeMonth_strictMono d.year).monotone d.month_range.1
  have hlast := (daysBeforeMonth_strictMono d.year).monotone
    (show d.month + 1 ≤ 13 by have := d.month_range.2; omega)
  rw [daysBeforeMonth_one] at hfirst
  rw [daysBeforeYear_succ_eq]
  omega

/-- **Different dates have different days.** -/
theorem number_injective : Function.Injective number := by
  intro d e h
  have hyear : d.year = e.year :=
    index_unique daysBeforeYear_strictMono d.number_mem_year (h ▸ e.number_mem_year)
  have hd := d.number_mem_month
  have he := e.number_mem_month
  rw [hyear] at hd
  have hmonth : d.month = e.month := by
    apply index_unique (daysBeforeMonth_strictMono e.year)
      (x := d.number - daysBeforeYear e.year)
    · omega
    · omega
  have hday : d.day = e.day := by
    unfold number dayNumber at h
    rw [hyear, hmonth] at h
    omega
  exact Date.ext hyear hmonth hday

end Date

/-- The day of the month. -/
def dayOf (n : ℤ) : ℤ :=
  n - daysBeforeYear (yearOf n)
    - daysBeforeMonth (yearOf n) (monthOf (yearOf n) (n - daysBeforeYear (yearOf n))) + 1

theorem monthOf_yearOf (n : ℤ) :
    (1 ≤ monthOf (yearOf n) (n - daysBeforeYear (yearOf n)) ∧
        monthOf (yearOf n) (n - daysBeforeYear (yearOf n)) ≤ 12) ∧
      1 ≤ dayOf n ∧
      dayOf n ≤ daysInMonth (yearOf n) (monthOf (yearOf n) (n - daysBeforeYear (yearOf n))) := by
  have hyear := yearOf_spec n
  rw [daysBeforeYear_succ_eq] at hyear
  obtain ⟨⟨h1, h12⟩, hfirst, hlast⟩ :=
    monthOf_spec (yearOf n) (k := n - daysBeforeYear (yearOf n)) (by omega) (by omega)
  rw [daysBeforeMonth_succ _ h1 h12] at hlast
  unfold dayOf
  omega

/-- The date of a day. -/
def ofNumber (n : ℤ) : Date :=
  { year := yearOf n
    month := monthOf (yearOf n) (n - daysBeforeYear (yearOf n))
    day := dayOf n
    month_range := (monthOf_yearOf n).1
    day_range := (monthOf_yearOf n).2 }

theorem number_ofNumber (n : ℤ) : (ofNumber n).number = n := by
  show daysBeforeYear (yearOf n)
    + daysBeforeMonth (yearOf n) (monthOf (yearOf n) (n - daysBeforeYear (yearOf n)))
    + (dayOf n - 1) = n
  unfold dayOf
  omega

/-! ## §3. Times of day and their seconds. -/

/-- The second of a time on the day `n`, from 1 January 1970 on, whether the day has the time or
not. -/
def epochSeconds (n h m s : ℤ) : ℤ := (n - daysBeforeYear 1970) * 86400 + h * 3600 + m * 60 + s

/-- A time of day on a date, both of which exist. -/
@[ext] structure Moment where
  date : Date
  hour : ℤ
  minute : ℤ
  second : ℤ
  hour_range : 0 ≤ hour ∧ hour < 24
  minute_range : 0 ≤ minute ∧ minute < 60
  second_range : 0 ≤ second ∧ second < 60
  deriving DecidableEq

def Moment.seconds (t : Moment) : ℤ := epochSeconds t.date.number t.hour t.minute t.second

theorem Moment.seconds_injective : Function.Injective Moment.seconds := by
  intro t u h
  have ht := t.hour_range
  have ht' := t.minute_range
  have ht'' := t.second_range
  have hu := u.hour_range
  have hu' := u.minute_range
  have hu'' := u.second_range
  unfold Moment.seconds epochSeconds at h
  exact Moment.ext (Date.number_injective (by omega)) (by omega) (by omega) (by omega)

theorem hour_range (t : ℤ) : 0 ≤ t % 86400 / 3600 ∧ t % 86400 / 3600 < 24 := by omega

theorem minute_range (t : ℤ) : 0 ≤ t % 3600 / 60 ∧ t % 3600 / 60 < 60 := by omega

theorem second_range (t : ℤ) : 0 ≤ t % 60 ∧ t % 60 < 60 := by omega

/-- The moment of a second. -/
def ofSeconds (t : ℤ) : Moment :=
  { date := ofNumber (t / 86400 + daysBeforeYear 1970)
    hour := t % 86400 / 3600
    minute := t % 3600 / 60
    second := t % 60
    hour_range := hour_range t
    minute_range := minute_range t
    second_range := second_range t }

theorem seconds_ofSeconds (t : ℤ) : (ofSeconds t).seconds = t := by
  show epochSeconds (ofNumber (t / 86400 + daysBeforeYear 1970)).number (t % 86400 / 3600)
    (t % 3600 / 60) (t % 60) = t
  rw [number_ofNumber]
  unfold epochSeconds
  omega

/-- **Every second is the second of one moment.** -/
theorem ofSeconds_seconds (t : Moment) : ofSeconds t.seconds = t :=
  Moment.seconds_injective (seconds_ofSeconds t.seconds)

/-- Half a minute before the leap day of 2024 is over. -/
example : (ofSeconds 1709251170).date.month = 2 ∧ (ofSeconds 1709251170).date.day = 29 ∧
    (ofSeconds 1709251170).hour = 23 ∧ (ofSeconds 1709251170).second = 30 := by decide +kernel

end Calendar
