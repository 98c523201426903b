/-
  Mtrader.Calendar.Gregorian

  The proleptic Gregorian calendar.

  Months are counted from January of the year 0, days from 1970-01-01.  A `Date` carries
  the proof that its month has its day.  Moving a date by months clips the day to the end
  of the month it moves to; so moving twice depends on the order, and
  `addMonths_years_comm_iff` says on which dates it does.
-/

import Mathlib.Order.Monotone.Basic
import Mathlib.Algebra.Order.Group.Int
import Mathlib.Order.SuccPred.IntervalSucc
import Mathlib.Data.Int.SuccPred
import Mathlib.Tactic.Ring

namespace Calendar

-- ============================================================================
-- Months
-- ============================================================================

/-- A year with a 29 February. -/
def IsLeap (year : ℤ) : Prop := year % 4 = 0 ∧ (year % 100 ≠ 0 ∨ year % 400 = 0)

instance (year : ℤ) : Decidable (IsLeap year) := inferInstanceAs (Decidable (_ ∧ _))

/-- The number of days in a month. -/
def daysIn (month : ℤ) : ℤ :=
  if month % 12 = 1 then if IsLeap (month / 12) then 29 else 28
  else if month % 12 = 3 ∨ month % 12 = 5 ∨ month % 12 = 8 ∨ month % 12 = 10 then 30
  else 31

/-- The day number of 1 January. -/
def newYear (year : ℤ) : ℤ :=
  365 * (year - 1) + (year - 1) / 4 - (year - 1) / 100 + (year - 1) / 400 - 719162

/-- The day number of the first day of a month. -/
def firstDay (month : ℤ) : ℤ :=
  let february := if month % 12 < 2 then 0 else if IsLeap (month / 12) then 1 else 2
  newYear (month / 12) + (367 * (month % 12) + 5) / 12 - february

theorem daysIn_bounds (month : ℤ) : 28 ≤ daysIn month ∧ daysIn month ≤ 31 := by
  unfold daysIn
  split
  · split <;> omega
  · split <;> omega

theorem newYear_succ (year : ℤ) :
    newYear (year + 1) = newYear year + if IsLeap year then 366 else 365 := by
  unfold newYear
  by_cases hleap : IsLeap year
  · rw [if_pos hleap]
    unfold IsLeap at hleap
    omega
  · rw [if_neg hleap]
    unfold IsLeap at hleap
    omega

theorem month_cases (month : ℤ) : month % 12 = 0 ∨ month % 12 = 1 ∨ month % 12 = 2 ∨
    month % 12 = 3 ∨ month % 12 = 4 ∨ month % 12 = 5 ∨ month % 12 = 6 ∨ month % 12 = 7 ∨
    month % 12 = 8 ∨ month % 12 = 9 ∨ month % 12 = 10 ∨ month % 12 = 11 := by
  omega

theorem firstDay_succ (month : ℤ) : firstDay (month + 1) = firstDay month + daysIn month := by
  by_cases hlast : month % 12 = 11
  · have hyear : (month + 1) / 12 = month / 12 + 1 := by omega
    have hmonth : (month + 1) % 12 = 0 := by omega
    unfold firstDay daysIn
    rw [hyear, hmonth, newYear_succ]
    simp only [hlast]
    by_cases hleap : IsLeap (month / 12) <;> simp [hleap] <;> omega
  · have hyear : (month + 1) / 12 = month / 12 := by omega
    have hmonth : (month + 1) % 12 = month % 12 + 1 := by omega
    unfold firstDay daysIn
    rw [hyear, hmonth]
    rcases month_cases month with h | h | h | h | h | h | h | h | h | h | h | h <;>
      by_cases hleap : IsLeap (month / 12) <;> simp [h, hleap] <;> omega

theorem firstDay_lt_iff {month month' : ℤ} : firstDay month < firstDay month' ↔ month < month' := by
  have hmono : StrictMono firstDay := strictMono_int_of_lt_succ fun month => by
    have hsucc := firstDay_succ month
    have hdays := daysIn_bounds month
    omega
  exact hmono.lt_iff_lt

/-- 4800 months have 146097 days, and no month begins far from where it then should. -/
theorem firstDay_near (month : ℤ) :
    4800 * (firstDay month + 719162) < 146097 * (month - 11) + 4800 ∧
      146097 * (month - 13) ≤ 4800 * (firstDay month + 719162) := by
  unfold firstDay newYear
  rcases month_cases month with h | h | h | h | h | h | h | h | h | h | h | h <;>
    simp only [h] <;> split <;> omega

/-- The month of a day: a guess that is at most two months too early, corrected. -/
def monthOf (day : ℤ) : ℤ :=
  let guess := (day + 719162) * 4800 / 146097 + 11
  if day < firstDay (guess + 1) then guess
  else if day < firstDay (guess + 2) then guess + 1
  else guess + 2

theorem monthOf_spec (day : ℤ) :
    firstDay (monthOf day) ≤ day ∧ day < firstDay (monthOf day + 1) := by
  have hlow := (firstDay_near ((day + 719162) * 4800 / 146097 + 11)).1
  have hhigh := (firstDay_near ((day + 719162) * 4800 / 146097 + 14)).2
  have hguess : firstDay ((day + 719162) * 4800 / 146097 + 11) ≤ day ∧
      day < firstDay ((day + 719162) * 4800 / 146097 + 14) := by
    omega
  unfold monthOf
  have hthird : (day + 719162) * 4800 / 146097 + 14
      = (day + 719162) * 4800 / 146097 + 11 + 2 + 1 := by ring
  rw [hthird] at hguess
  generalize (day + 719162) * 4800 / 146097 + 11 = guess at hguess
  simp only
  split
  next h => exact ⟨hguess.1, h⟩
  next h =>
    split
    next h' =>
      rw [show guess + 2 = guess + 1 + 1 by ring] at h'
      exact ⟨by omega, h'⟩
    next h' => exact ⟨by omega, hguess.2⟩

/-- The month that a day lies in is the only one. -/
theorem monthOf_eq {day month : ℤ} (hle : firstDay month ≤ day) (hlt : day < firstDay (month + 1)) :
    monthOf day = month := by
  have hspec := monthOf_spec day
  have hbelow : monthOf day < month + 1 := firstDay_lt_iff.mp (by omega)
  have habove : month < monthOf day + 1 := firstDay_lt_iff.mp (by omega)
  omega

-- ============================================================================
-- Dates
-- ============================================================================

/-- A day of a month that the month has. -/
@[ext] structure Date where
  month : ℤ
  day : ℤ
  day_pos : 1 ≤ day
  day_le : day ≤ daysIn month

/-- The day number of a date. -/
def Date.number (d : Date) : ℤ := firstDay d.month + d.day - 1

/-- The date of a day number. -/
def Date.ofNumber (n : ℤ) : Date where
  month := monthOf n
  day := n - firstDay (monthOf n) + 1
  day_pos := by
    have hspec := monthOf_spec n
    omega
  day_le := by
    have hspec := monthOf_spec n
    have hsucc := firstDay_succ (monthOf n)
    omega

@[simp] theorem Date.number_ofNumber (n : ℤ) : (Date.ofNumber n).number = n := by
  show firstDay (monthOf n) + (n - firstDay (monthOf n) + 1) - 1 = n
  omega

@[simp] theorem Date.ofNumber_number (d : Date) : Date.ofNumber d.number = d := by
  have hsucc := firstDay_succ d.month
  have hpos := d.day_pos
  have hle := d.day_le
  have hmonth : monthOf d.number = d.month := by
    apply monthOf_eq <;> unfold Date.number <;> omega
  ext
  · exact hmonth
  · show d.number - firstDay (monthOf d.number) + 1 = d.day
    rw [hmonth, Date.number]
    omega

theorem Date.number_inj {d e : Date} (h : d.number = e.number) : d = e := by
  rw [← d.ofNumber_number, h, e.ofNumber_number]

/-- A date of a later month is later. -/
theorem Date.number_lt_of_month_lt {d e : Date} (h : d.month < e.month) : d.number < e.number := by
  have hsucc := firstDay_succ d.month
  have hle := d.day_le
  have hpos := e.day_pos
  have hmono : ¬ firstDay e.month < firstDay (d.month + 1) := by
    rw [firstDay_lt_iff]
    omega
  unfold Date.number
  omega

-- ============================================================================
-- Moving dates by months
-- ============================================================================

/-- The date some months later, at the end of that month if it is too short. -/
def Date.addMonths (d : Date) (n : ℤ) : Date where
  month := d.month + n
  day := min d.day (daysIn (d.month + n))
  day_pos := by
    have hpos := d.day_pos
    have hdays := daysIn_bounds (d.month + n)
    omega
  day_le := by omega

theorem Date.lt_addMonths (d : Date) {n : ℤ} (hn : 0 < n) : d.number < (d.addMonths n).number := by
  apply Date.number_lt_of_month_lt
  show d.month < d.month + n
  omega

theorem Date.addMonths_le (d : Date) {n : ℤ} (hn : n ≤ 0) :
    (d.addMonths n).number ≤ d.number := by
  rcases hn.lt_or_eq with hlt | rfl
  · apply le_of_lt
    apply Date.number_lt_of_month_lt
    show d.month + n < d.month
    omega
  · show firstDay (d.month + 0) + min d.day _ - 1 ≤ firstDay d.month + d.day - 1
    rw [add_zero]
    omega

/-- 29 to 31 of a month, moved by years and by months in either order, is clipped alike:
    by February, if at all.  `month` is the month the date is in. -/
def ClippedAlike (month years months : ℤ) : Prop :=
  if month % 12 = 1 then
    if months % 12 = 0 then
      IsLeap ((month + months) / 12 + years) →
        (IsLeap (month / 12 + years) ↔ IsLeap ((month + months) / 12))
    else IsLeap (month / 12 + years)
  else (month + months) % 12 = 1 → IsLeap ((month + months) / 12 + years) →
    IsLeap ((month + months) / 12)

instance (month years months : ℤ) : Decidable (ClippedAlike month years months) := by
  unfold ClippedAlike
  infer_instance

/-- Years and months can be added in either order. -/
def Date.Commutes (d : Date) (years months : ℤ) : Prop :=
  d.day ≤ 28 ∨ ClippedAlike d.month years months

instance (d : Date) (years months : ℤ) : Decidable (d.Commutes years months) :=
  inferInstanceAs (Decidable (_ ∨ _))

theorem daysIn_february {month : ℤ} (h : month % 12 = 1) :
    daysIn month = if IsLeap (month / 12) then 29 else 28 := if_pos h

theorem daysIn_of_ne_february {month : ℤ} (h : month % 12 ≠ 1) : 30 ≤ daysIn month := by
  unfold daysIn
  rw [if_neg h]
  split <;> omega

/-- Only February differs between years. -/
theorem daysIn_years {month : ℤ} (h : month % 12 ≠ 1) (years : ℤ) :
    daysIn (month + 12 * years) = daysIn month := by
  have hmonth : (month + 12 * years) % 12 = month % 12 := by omega
  unfold daysIn
  rw [hmonth, if_neg h, if_neg h]

theorem daysIn_february_years {month : ℤ} (h : month % 12 = 1) (years : ℤ) :
    daysIn (month + 12 * years) = if IsLeap (month / 12 + years) then 29 else 28 := by
  have hyear : (month + 12 * years) / 12 = month / 12 + years := by omega
  rw [daysIn_february (by omega), hyear]

/-- The day that a day from the 29th on is clipped to, on the two ways. -/
theorem clip_eq_iff {month day : ℤ} (hday : 28 < day) (hle : day ≤ daysIn month)
    (years months : ℤ) :
    min (min day (daysIn (month + 12 * years))) (daysIn (month + months + 12 * years))
        = min (min day (daysIn (month + months))) (daysIn (month + months + 12 * years)) ↔
      ClippedAlike month years months := by
  unfold ClippedAlike
  by_cases hfeb : month % 12 = 1
  · rw [if_pos hfeb]
    have hmonth := daysIn_february hfeb
    have hyears := daysIn_february_years hfeb years
    have h29 : day = 29 := by
      rw [hmonth] at hle
      split at hle <;> omega
    by_cases hwhole : months % 12 = 0
    · have hfeb' : (month + months) % 12 = 1 := by omega
      rw [if_pos hwhole, hyears, daysIn_february hfeb', daysIn_february_years hfeb' years, h29]
      by_cases h₁ : IsLeap (month / 12 + years) <;>
        by_cases h₂ : IsLeap ((month + months) / 12) <;>
        by_cases h₃ : IsLeap ((month + months) / 12 + years) <;> simp [h₁, h₂, h₃]
    · have hother : (month + months) % 12 ≠ 1 := by omega
      have hlong := daysIn_of_ne_february hother
      rw [if_neg hwhole, hyears, daysIn_years hother years, h29]
      by_cases h₁ : IsLeap (month / 12 + years)
      · simp [h₁]
      · simp [h₁]
        omega
  · rw [if_neg hfeb, daysIn_years hfeb years]
    by_cases hfeb' : (month + months) % 12 = 1
    · rw [daysIn_february hfeb', daysIn_february_years hfeb' years]
      by_cases h₂ : IsLeap ((month + months) / 12) <;>
        by_cases h₃ : IsLeap ((month + months) / 12 + years) <;> simp [h₂, h₃, hfeb'] <;> omega
    · rw [daysIn_years hfeb' years]
      simp [hfeb']
      omega

/-- Adding years and months in the two orders gives the same date exactly then. -/
theorem Date.addMonths_years_comm_iff (d : Date) (years months : ℤ) :
    (d.addMonths (12 * years)).addMonths months = (d.addMonths months).addMonths (12 * years) ↔
      d.Commutes years months := by
  have hmonth : d.month + 12 * years + months = d.month + months + 12 * years := by ring
  have hclip : (d.addMonths (12 * years)).addMonths months
        = (d.addMonths months).addMonths (12 * years) ↔
      min (min d.day (daysIn (d.month + 12 * years))) (daysIn (d.month + months + 12 * years))
        = min (min d.day (daysIn (d.month + months))) (daysIn (d.month + months + 12 * years)) := by
    rw [Date.ext_iff]
    simp only [Date.addMonths, hmonth, true_and]
  rw [hclip]
  rcases Int.lt_or_le 28 d.day with hday | hday
  · rw [clip_eq_iff hday d.day_le]
    constructor
    · intro h
      exact .inr h
    · rintro (hle | h)
      · omega
      · exact h
  · have hyears := daysIn_bounds (d.month + 12 * years)
    have hmonths := daysIn_bounds (d.month + months)
    constructor
    · intro _
      exact .inl hday
    · intro _
      omega

-- ============================================================================
-- Times
-- ============================================================================

/-- The time some months later, at the same time of the day; a day has `perDay` ticks. -/
def shift (perDay n t : ℤ) : ℤ :=
  ((Date.ofNumber (t / perDay)).addMonths n).number * perDay + t % perDay

section

variable {perDay : ℤ} (hday : 0 < perDay) (t : ℤ)

include hday

theorem shift_div (n : ℤ) :
    shift perDay n t / perDay = ((Date.ofNumber (t / perDay)).addMonths n).number := by
  have hlow := Int.emod_nonneg t (by omega : perDay ≠ 0)
  have hhigh := Int.emod_lt_of_pos t hday
  rw [shift, Int.add_comm, Int.add_mul_ediv_right _ _ (by omega),
    Int.ediv_eq_zero_of_lt hlow hhigh, Int.zero_add]

omit hday in
theorem shift_mod (n : ℤ) : shift perDay n t % perDay = t % perDay := by
  rw [shift, Int.add_comm, Int.add_mul_emod_self_right, Int.emod_emod_of_dvd t (Int.dvd_refl _)]

/-- A month is a day at least. -/
theorem add_le_shift {n : ℤ} (hn : 0 < n) : t + perDay ≤ shift perDay n t := by
  have hlater := (Date.ofNumber (t / perDay)).lt_addMonths hn
  rw [Date.number_ofNumber] at hlater
  have hmul := Int.mul_le_mul_of_nonneg_right (Int.add_one_le_of_lt hlater) hday.le
  rw [Int.add_mul, Int.one_mul] at hmul
  have hsplit := Int.mul_ediv_add_emod t perDay
  rw [Int.mul_comm] at hsplit
  unfold shift
  omega

theorem le_shift {n : ℤ} (hn : 0 < n) : t ≤ shift perDay n t := by
  have hmonth := add_le_shift hday t hn
  omega

theorem shift_le {n : ℤ} (hn : n ≤ 0) : shift perDay n t ≤ t := by
  have hearlier := (Date.ofNumber (t / perDay)).addMonths_le hn
  rw [Date.number_ofNumber] at hearlier
  have hmul := Int.mul_le_mul_of_nonneg_right hearlier hday.le
  have hsplit := Int.mul_ediv_add_emod t perDay
  rw [Int.mul_comm] at hsplit
  unfold shift
  omega

/-- Adding years and months in the two orders gives the same time exactly when the dates
    commute. -/
theorem shift_years_comm_iff (years months : ℤ) :
    shift perDay months (shift perDay (12 * years) t)
        = shift perDay (12 * years) (shift perDay months t) ↔
      (Date.ofNumber (t / perDay)).Commutes years months := by
  rw [← Date.addMonths_years_comm_iff]
  have hleft : shift perDay months (shift perDay (12 * years) t) =
      (((Date.ofNumber (t / perDay)).addMonths (12 * years)).addMonths months).number * perDay
        + t % perDay := by
    rw [shift, shift_div hday, shift_mod, Date.ofNumber_number]
  have hright : shift perDay (12 * years) (shift perDay months t) =
      (((Date.ofNumber (t / perDay)).addMonths months).addMonths (12 * years)).number * perDay
        + t % perDay := by
    rw [shift, shift_div hday, shift_mod, Date.ofNumber_number]
  rw [hleft, hright]
  constructor
  · intro h
    have hmul := add_right_cancel h
    exact Date.number_inj (Int.eq_of_mul_eq_mul_right (by omega) hmul)
  · intro h
    rw [h]

end

end Calendar
