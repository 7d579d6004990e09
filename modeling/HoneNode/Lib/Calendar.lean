import Mathlib.Algebra.BigOperators.Intervals
import Mathlib.Data.Int.SuccPred
import Mathlib.Tactic.IntervalCases

/-!
# Lib.Calendar — the days of the Gregorian calendar

A date counts the days of the whole years and of the whole months before it, from
1970-01-01. The count grows with the date, so every day has one date at most.
-/

namespace Calendar

def IsLeap (y : ℤ) : Prop := y % 4 = 0 ∧ (y % 100 ≠ 0 ∨ y % 400 = 0)

instance : DecidablePred IsLeap := fun _ => inferInstanceAs (Decidable (_ ∧ _))

def yearLength (y : ℤ) : ℤ := if IsLeap y then 366 else 365

def monthLength (y m : ℤ) : ℤ :=
  if m = 2 then if IsLeap y then 29 else 28
  else if m = 4 ∨ m = 6 ∨ m = 9 ∨ m = 11 then 30
  else 31

/-- A day that the calendar has. -/
@[ext]
structure Date where
  year : ℤ
  month : ℤ
  day : ℤ
  month_range : 1 ≤ month ∧ month ≤ 12
  day_range : 1 ≤ day ∧ day ≤ monthLength year month
deriving DecidableEq

/-- The days from 1970 to the start of a year. -/
def yearStart (y : ℤ) : ℤ :=
  ∑ i ∈ Finset.range (y - 1970).toNat, yearLength (1970 + i) -
    ∑ i ∈ Finset.range (1970 - y).toNat, yearLength (1969 - i)

/-- The days of a year before a month. -/
def monthStart (y m : ℤ) : ℤ := ∑ i ∈ Finset.range (m - 1).toNat, monthLength y (i + 1)

def Date.dayNumber (x : Date) : ℤ := yearStart x.year + monthStart x.year x.month + (x.day - 1)

/-! ## Years -/

variable (y : ℤ)

theorem yearStart_add_one : yearStart (y + 1) = yearStart y + yearLength y := by
  unfold yearStart
  rcases lt_or_ge y 1970 with hlt | hge
  · have hnone : (y - 1970).toNat = 0 ∧ (y + 1 - 1970).toNat = 0 := by omega
    have hsucc : (1970 - y).toNat = (1970 - (y + 1)).toNat + 1 := by omega
    have hlast : 1969 - ((1970 - (y + 1)).toNat : ℤ) = y := by omega
    rw [hnone.1, hnone.2, hsucc, Finset.sum_range_succ, hlast]
    omega
  · have hnone : (1970 - y).toNat = 0 ∧ (1970 - (y + 1)).toNat = 0 := by omega
    have hsucc : (y + 1 - 1970).toNat = (y - 1970).toNat + 1 := by omega
    have hlast : 1970 + ((y - 1970).toNat : ℤ) = y := by omega
    rw [hnone.1, hnone.2, hsucc, Finset.sum_range_succ, hlast]
    omega

theorem yearLength_le : yearLength y ≤ 366 := by
  unfold yearLength
  split <;> decide

/-- Leap years up to a year, from the year 1 on. -/
def leapYears (y : ℤ) : ℤ := y / 4 - y / 100 + y / 400

theorem yearLength_eq : yearLength y = 365 + (leapYears y - leapYears (y - 1)) := by
  unfold yearLength leapYears
  by_cases h : IsLeap y
  · rw [if_pos h]
    unfold IsLeap at h
    omega
  · rw [if_neg h]
    unfold IsLeap at h
    omega

theorem yearStart_eq :
    yearStart y = 365 * (y - 1970) + (leapYears (y - 1) - leapYears 1969) := by
  induction y using Int.inductionOn' (b := 1970) with
  | zero => rfl
  | succ k hk ih =>
    rw [yearStart_add_one, ih, yearLength_eq, add_sub_cancel_right]
    omega
  | pred k hk ih =>
    have hstep := yearStart_add_one (k - 1)
    rw [sub_add_cancel, ih, yearLength_eq] at hstep
    omega

theorem yearStart_mono {y z : ℤ} (h : y ≤ z) : yearStart y ≤ yearStart z := by
  induction z, h using Int.leInduction with
  | base => exact le_rfl
  | succ z hz ih =>
    have hpos : 0 ≤ yearLength z := by
      unfold yearLength
      split <;> decide
    rw [yearStart_add_one]
    omega

/-! ## Months -/

theorem monthStart_add_one {m : ℤ} (h : 1 ≤ m) :
    monthStart y (m + 1) = monthStart y m + monthLength y m := by
  have hsucc : (m + 1 - 1).toNat = (m - 1).toNat + 1 := by omega
  have hlast : ((m - 1).toNat : ℤ) + 1 = m := by omega
  rw [monthStart, hsucc, Finset.sum_range_succ, hlast, monthStart]

/-- From March on the months come in a pattern of 153 days for five of them. -/
theorem monthStart_eq {m : ℤ} (hlow : 1 ≤ m) (hhigh : m ≤ 13) :
    monthStart y m = if m ≤ 2 then 31 * (m - 1)
      else (153 * (m - 3) + 2) / 5 + 59 + if IsLeap y then 1 else 0 := by
  induction m, hlow using Int.leInduction with
  | base => rfl
  | succ m hm ih =>
    rw [monthStart_add_one y hm, ih (by omega), monthLength]
    have htop : m ≤ 12 := by omega
    by_cases hleap : IsLeap y
    · rw [if_pos hleap, if_pos hleap]
      interval_cases m <;> rfl
    · rw [if_neg hleap, if_neg hleap]
      interval_cases m <;> rfl

theorem monthStart_thirteen : monthStart y 13 = yearLength y := by
  rw [monthStart_eq y (by decide) le_rfl, if_neg (by decide), yearLength]
  split <;> rfl

theorem monthStart_mono {m n : ℤ} (hm : 1 ≤ m) (h : m ≤ n) :
    monthStart y m ≤ monthStart y n := by
  induction n, h using Int.leInduction with
  | base => exact le_rfl
  | succ n hn ih =>
    have hpos : 0 ≤ monthLength y n := by
      unfold monthLength
      split
      · split <;> decide
      · split <;> decide
    rw [monthStart_add_one y (hm.trans hn)]
    omega

theorem monthLength_le (y m : ℤ) : monthLength y m ≤ 31 := by
  unfold monthLength
  split
  · split <;> decide
  · split <;> decide

/-! ## The order of dates -/

namespace Date

variable {x z : Date}

/-- Earlier by year, then by month, then by day. -/
def Earlier (x z : Date) : Prop :=
  x.year < z.year ∨ x.year = z.year ∧ (x.month < z.month ∨ x.month = z.month ∧ x.day < z.day)

theorem earlier_or_eq_or_earlier (x z : Date) : x.Earlier z ∨ x = z ∨ z.Earlier x := by
  unfold Earlier
  by_cases heq : x.year = z.year ∧ x.month = z.month ∧ x.day = z.day
  · exact .inr (.inl (Date.ext heq.1 heq.2.1 heq.2.2))
  · omega

theorem dayNumber_lt_next_month (x : Date) :
    x.dayNumber < yearStart x.year + monthStart x.year (x.month + 1) := by
  have hday := x.day_range.2
  rw [dayNumber, monthStart_add_one x.year x.month_range.1]
  omega

theorem le_dayNumber (x : Date) : yearStart x.year + monthStart x.year x.month ≤ x.dayNumber := by
  have hday := x.day_range.1
  rw [dayNumber]
  omega

theorem dayNumber_lt_next_year (x : Date) : x.dayNumber < yearStart (x.year + 1) := by
  have hmonth := x.month_range
  have hlast := x.dayNumber_lt_next_month
  have hrest := monthStart_mono x.year (m := x.month + 1) (n := 13) (by omega) (by omega)
  rw [monthStart_thirteen] at hrest
  rw [yearStart_add_one]
  omega

theorem le_year_of_dayNumber (h : 0 ≤ x.dayNumber) : 1970 ≤ x.year := by
  by_contra hbefore
  have hnext : yearStart (x.year + 1) ≤ yearStart 1970 := yearStart_mono (by omega)
  have hzero : yearStart 1970 = 0 := rfl
  have hlt := x.dayNumber_lt_next_year
  omega

/-- Later dates have larger numbers. -/
theorem dayNumber_lt_of_earlier (h : x.Earlier z) : x.dayNumber < z.dayNumber := by
  have hlast := x.dayNumber_lt_next_month
  have hfirst := z.le_dayNumber
  rcases h with hyear | ⟨hyear, hmonth | ⟨hmonth, hday⟩⟩
  · have hyearEnd := x.dayNumber_lt_next_year
    have hnext : yearStart (x.year + 1) ≤ yearStart z.year := yearStart_mono hyear
    have hbefore := monthStart_mono z.year le_rfl z.month_range.1
    rw [show monthStart z.year 1 = 0 from rfl] at hbefore
    omega
  · have hnext := monthStart_mono x.year (m := x.month + 1)
      (by have hm := x.month_range; omega) (show x.month + 1 ≤ z.month from hmonth)
    rw [← hyear] at hfirst
    omega
  · rw [dayNumber, dayNumber, hyear, hmonth]
    omega

theorem dayNumber_lt_iff : x.dayNumber < z.dayNumber ↔ x.Earlier z := by
  refine ⟨fun h => ?_, dayNumber_lt_of_earlier⟩
  rcases earlier_or_eq_or_earlier x z with hlt | rfl | hgt
  · exact hlt
  · exact absurd h (lt_irrefl _)
  · exact absurd h (dayNumber_lt_of_earlier hgt).not_gt

/-- A day has one date. -/
theorem dayNumber_injective : Function.Injective dayNumber := by
  intro x z h
  rcases earlier_or_eq_or_earlier x z with hlt | heq | hgt
  · exact absurd h (dayNumber_lt_of_earlier hlt).ne
  · exact heq
  · exact absurd h (dayNumber_lt_of_earlier hgt).ne'

end Date

end Calendar
