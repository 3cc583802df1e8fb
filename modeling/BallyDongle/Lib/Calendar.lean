import Mathlib.Data.Int.Notation

/-!
# The Gregorian calendar

Days by number and by date. Months count from 0, days of a month from 1, and day 0 is the
first one of 1970. A day number past the end of a month lies in the next one, so that
`dayNumber` has a value for any day; `dateOf` undoes it on the dates that exist
(`dateOf_dayNumber`).
-/

namespace Calendar

def IsLeap (year : Int) : Prop := year % 4 = 0 ∧ (year % 100 ≠ 0 ∨ year % 400 = 0)

instance (year : Int) : Decidable (IsLeap year) := inferInstanceAs (Decidable (_ ∧ _))

def yearLength (year : Int) : Nat := if IsLeap year then 366 else 365

def monthLength (year : Int) (month : Nat) : Nat :=
  if month = 1 then if IsLeap year then 29 else 28
  else if month = 3 ∨ month = 5 ∨ month = 8 ∨ month = 10 then 30 else 31

/-- The days from the start of year 1 to the start of a year. -/
def daysBeforeYear (year : Int) : Int :=
  365 * (year - 1) + (year - 1) / 4 - (year - 1) / 100 + (year - 1) / 400

def daysBeforeMonth (year : Int) : (month : Nat) → Nat
  | 0 => 0
  | month + 1 => daysBeforeMonth year month + monthLength year month

def dayNumber (year : Int) (month : Nat) (day : Int) : Int :=
  daysBeforeYear year - daysBeforeYear 1970 + daysBeforeMonth year month + (day - 1)

/-- The year of a day that is counted from the start of year 1. -/
def yearOf (n : Int) : Int :=
  -- the mean year has 146097 / 400 days
  let year := 400 * n / 146097 + 1
  if daysBeforeYear (year + 1) ≤ n then year + 1 else year

/-- The month of a day counted from the start of `month`, and the day counted from there. -/
def splitMonth (year : Int) : (months month day : Nat) → Nat × Nat
  | 0, month, day => (month, day)
  | months + 1, month, day =>
    if day < monthLength year month then (month, day)
    else splitMonth year months (month + 1) (day - monthLength year month)

structure Date where
  year : Int
  month : Nat
  day : Nat
  deriving DecidableEq, Repr

def dateOf (n : Int) : Date :=
  let n := n + daysBeforeYear 1970
  let year := yearOf n
  let (month, day) := splitMonth year 11 0 (n - daysBeforeYear year).toNat
  ⟨year, month, day + 1⟩

structure Date.Valid (d : Date) : Prop where
  month : d.month < 12
  day : 1 ≤ d.day
  day_le : d.day ≤ monthLength d.year d.month

/-! ## Years -/

theorem daysBeforeYear_succ (year : Int) :
    daysBeforeYear (year + 1) = daysBeforeYear year + yearLength year := by
  rw [daysBeforeYear, daysBeforeYear, yearLength]
  split
  · rename_i h
    rw [IsLeap] at h
    omega
  · rename_i h
    rw [IsLeap] at h
    omega

theorem daysBeforeYear_mono {year year' : Int} (h : year ≤ year') :
    daysBeforeYear year ≤ daysBeforeYear year' := by
  rw [daysBeforeYear, daysBeforeYear]
  omega

theorem yearOf_spec (n : Int) :
    daysBeforeYear (yearOf n) ≤ n ∧ n < daysBeforeYear (yearOf n + 1) := by
  rw [yearOf]
  split
  · rename_i h
    refine ⟨h, ?_⟩
    rw [daysBeforeYear]
    omega
  · rename_i h
    refine ⟨?_, by omega⟩
    rw [daysBeforeYear]
    omega

theorem yearOf_eq {year n : Int} (h : daysBeforeYear year ≤ n)
    (h' : n < daysBeforeYear (year + 1)) : yearOf n = year := by
  obtain ⟨hle, hlt⟩ := yearOf_spec n
  rcases Int.lt_trichotomy (yearOf n) year with hyear | hyear | hyear
  · have := daysBeforeYear_mono (Int.add_one_le_of_lt hyear)
    omega
  · exact hyear
  · have := daysBeforeYear_mono (Int.add_one_le_of_lt hyear)
    omega

/-! ## Months -/

theorem daysBeforeMonth_twelve (year : Int) : daysBeforeMonth year 12 = yearLength year := by
  by_cases h : IsLeap year
  · simp [daysBeforeMonth, monthLength, yearLength, h]
  · simp [daysBeforeMonth, monthLength, yearLength, h]

theorem daysBeforeMonth_mono {year : Int} {month month' : Nat} (h : month ≤ month') :
    daysBeforeMonth year month ≤ daysBeforeMonth year month' := by
  induction h with
  | refl => exact Nat.le_refl _
  | step _ ih => exact Nat.le_trans ih (Nat.le_add_right _ _)

theorem splitMonth_eq {year : Int} {months month month' day day' : Nat} (hle : month ≤ month')
    (hmonths : month' ≤ month + months) (hday' : day' < monthLength year month')
    (h : daysBeforeMonth year month + day = daysBeforeMonth year month' + day') :
    splitMonth year months month day = (month', day') := by
  induction months generalizing month day with
  | zero =>
    obtain rfl : month = month' := by omega
    obtain rfl : day = day' := by omega
    rfl
  | succ months ih =>
    rw [splitMonth]
    rcases Nat.eq_or_lt_of_le hle with rfl | hlt
    · obtain rfl : day = day' := by omega
      rw [if_pos hday']
    · have hnext := @daysBeforeMonth_mono year _ _ (Nat.succ_le_of_lt hlt)
      rw [daysBeforeMonth] at hnext
      rw [if_neg (by omega)]
      refine ih hlt (by omega) ?_
      rw [daysBeforeMonth]
      omega

/-! ## Dates -/

theorem Date.Valid.dayOfYear_lt {d : Date} (h : d.Valid) :
    daysBeforeMonth d.year d.month + (d.day - 1) < yearLength d.year := by
  have hmonth := @daysBeforeMonth_mono d.year _ _ (Nat.succ_le_of_lt h.month)
  rw [daysBeforeMonth, daysBeforeMonth_twelve] at hmonth
  have hday := h.day
  have hle := h.day_le
  omega

theorem dateOf_dayNumber {d : Date} (h : d.Valid) : dateOf (dayNumber d.year d.month d.day) = d := by
  rcases d with ⟨year, month, day⟩
  have hlength := h.dayOfYear_lt
  have hday : 1 ≤ day := h.day
  have hle : day ≤ monthLength year month := h.day_le
  have hmonth : month < 12 := h.month
  have hyear : yearOf (dayNumber year month day + daysBeforeYear 1970) = year := by
    refine yearOf_eq ?_ ?_
    · rw [dayNumber]
      omega
    · rw [daysBeforeYear_succ, dayNumber]
      simp only at hlength
      omega
  have hsplit : splitMonth year 11 0
      (dayNumber year month day + daysBeforeYear 1970 - daysBeforeYear year).toNat =
        (month, day - 1) := by
    refine splitMonth_eq (Nat.zero_le _) (by omega) (by omega) ?_
    rw [dayNumber, daysBeforeMonth]
    omega
  rw [dateOf]
  simp only [hyear, hsplit]
  rw [Nat.sub_add_cancel hday]

theorem le_dayNumber {year : Int} {first : Int} (h : first ≤ year) (month : Nat) {day : Int}
    (hday : 1 ≤ day) : dayNumber first 0 1 ≤ dayNumber year month day := by
  have hyear := daysBeforeYear_mono h
  rw [dayNumber, dayNumber, daysBeforeMonth]
  omega

example : dateOf (dayNumber 2023 1 29) = ⟨2023, 2, 1⟩ ∧ dayNumber 2026 7 27 = 20692 := by decide

end Calendar
