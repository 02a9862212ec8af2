import Mathlib.Tactic
import Tourney.Timestamp

/-!
# The calendar

Days are counted in cycles of four centuries of years that begin in March. The closed formula finds
the year that a day lies in (`yearStart_le`, `lt_yearStart`), so the date of a day is a date of the
calendar (`ofDays_exists`) and leads back to its day (`toDays_ofDays`).
-/

namespace Tourney.Timestamp

/-! ## Years -/

/-- Days of a cycle before its year `y`. -/
def yearStart (y : Int) : Int := 365 * y + y / 4 - y / 100 + y / 400

/-- A day of a cycle, not counting leap days. -/
def leapless (n : Int) : Int := n - n / 1460 + n / 36524 - n / 146096

theorem leapless_mono {a b : Int} (hab : a ≤ b) : leapless a ≤ leapless b := by
  unfold leapless
  omega

/-- Where the years of a cycle start and end, not counting leap days. -/
theorem leapless_yearStart : ∀ y : Nat, y < 400 → 365 * (y : Int) ≤ leapless (yearStart y) ∧
    leapless (yearStart (y + 1) - 1) < 365 * (y + 1) := by decide +kernel

section Years

variable {n : Int} (h0 : 0 ≤ n) (hn : n < 146097)

include h0 hn

theorem yearOfCycle_lt : 0 ≤ leapless n / 365 ∧ leapless n / 365 < 400 := by
  unfold leapless
  omega

theorem yearStart_le : yearStart (leapless n / 365) ≤ n := by
  obtain ⟨hy0, hy⟩ := yearOfCycle_lt h0 hn
  by_contra hlt
  obtain ⟨y, hy'⟩ := Int.eq_ofNat_of_zero_le hy0
  rw [hy'] at hlt hy hy0
  cases y with
  | zero => exact hlt h0
  | succ y =>
    have hend := (leapless_yearStart y (by omega)).2
    have hmono := leapless_mono (show n ≤ yearStart (y + 1) - 1 by push_cast at hlt; omega)
    push_cast at hy'
    omega

theorem lt_yearStart : n < yearStart (leapless n / 365 + 1) := by
  obtain ⟨hy0, hy⟩ := yearOfCycle_lt h0 hn
  by_contra hge
  obtain ⟨y, hy'⟩ := Int.eq_ofNat_of_zero_le hy0
  rw [hy'] at hge hy
  by_cases hlast : y + 1 < 400
  · have hstart := (leapless_yearStart (y + 1) hlast).1
    have hmono := leapless_mono (show yearStart ((y + 1 : Nat) : Int) ≤ n by push_cast; omega)
    push_cast at hstart hmono
    omega
  · obtain rfl : y = 399 := by omega
    exact hge hn

end Years

/-- A year is a day longer if the calendar year it ends in is a leap year. -/
theorem yearStart_succ (y cycle : Int) : yearStart (y + 1) =
    yearStart y + if isLeapYear (y + cycle * 400 + 1) then 366 else 365 := by
  have hleap : isLeapYear (y + cycle * 400 + 1) ↔
      (y + 1) % 4 = 0 ∧ ((y + 1) % 100 ≠ 0 ∨ (y + 1) % 400 = 0) := by
    simp only [isLeapYear, Bool.and_eq_true, Bool.or_eq_true, decide_eq_true_eq]
    omega
  unfold yearStart
  split_ifs with h <;> rw [hleap] at h <;> omega

/-! ## Months -/

/-- The month that a day of a year lies in, counted from March. -/
def monthOf (n : Nat) : Nat := (5 * n + 2) / 153

/-- Days of a year before a month. -/
def monthStart (month : Nat) : Nat := (153 * month + 2) / 5

/-- A month counted from March, in the calendar. -/
def calendarMonth (month : Nat) : Nat := if month < 10 then month + 3 else month - 9

theorem month_spec : ∀ n < 366, monthOf n < 12 ∧ monthStart (monthOf n) ≤ n ∧
    n - monthStart (monthOf n) + 1 ≤ if calendarMonth (monthOf n) = 2 then
      if n = 365 then 29 else 28 else daysInMonth 0 (calendarMonth (monthOf n)) := by
  decide +kernel

theorem daysInMonth_of_ne {month : Nat} (h : month ≠ 2) (y y' : Int) :
    daysInMonth y month = daysInMonth y' month := by
  unfold daysInMonth
  split <;> first | rfl | exact absurd rfl h

theorem calendarMonth_spec : ∀ month < 12, 1 ≤ calendarMonth month ∧ calendarMonth month ≤ 12 ∧
    (calendarMonth month + 9) % 12 = month := by
  decide

/-! ## Days -/

/-- A day of the calendar by its cycle, the year of the cycle and the day of the year. -/
structure Dated (days cycle y : Int) (n : Nat) : Prop where
  year : 0 ≤ y ∧ y < 400
  day : n < 366
  leap : n = 365 → isLeapYear (y + cycle * 400 + 1)
  sum : days + 719468 = cycle * 146097 + yearStart y + n
  date : Date.ofDays days =
    { year := y + cycle * 400 + if calendarMonth (monthOf n) ≤ 2 then 1 else 0
      month := calendarMonth (monthOf n)
      day := n - monthStart (monthOf n) + 1 }

theorem ofDays_eq {days y : Int} {n : Nat} (hlt : n < 366)
    (hy : leapless ((days + 719468) % 146097) / 365 = y)
    (hn : (days + 719468) % 146097 - (365 * y + y / 4 - y / 100) = n) :
    Date.ofDays days =
      { year := y + (days + 719468) / 146097 * 400 +
          if calendarMonth (monthOf n) ≤ 2 then 1 else 0
        month := calendarMonth (monthOf n)
        day := n - monthStart (monthOf n) + 1 } := by
  have hmonthOf : (5 * (n : Int) + 2) / 153 = monthOf n := by simp [monthOf]
  have hmonthStart : (153 * (monthOf n : Int) + 2) / 5 = monthStart (monthOf n) := by
    simp [monthStart]
  have hmonth : (if (monthOf n : Int) < 10 then (monthOf n : Int) + 3 else monthOf n - 9) =
      calendarMonth (monthOf n) := by
    have hlow := (month_spec n hlt).1
    unfold calendarMonth
    split_ifs <;> omega
  have hfirst := (month_spec n hlt).2.1
  unfold leapless at hy
  simp only [Date.ofDays, hy, hn, hmonthOf, hmonthStart, hmonth, Date.mk.injEq]
  refine ⟨?_, ?_, ?_⟩
  · split_ifs <;> omega
  · omega
  · omega

theorem exists_dated (days : Int) : ∃ cycle y n, Dated days cycle y n := by
  have h0 : 0 ≤ (days + 719468) % 146097 := by omega
  have hn : (days + 719468) % 146097 < 146097 := by omega
  have hstart := yearStart_le h0 hn
  have hend := lt_yearStart h0 hn
  have hy := yearOfCycle_lt h0 hn
  rw [yearStart_succ _ ((days + 719468) / 146097)] at hend
  obtain ⟨y, hyear⟩ : ∃ y, leapless ((days + 719468) % 146097) / 365 = y := ⟨_, rfl⟩
  rw [hyear] at hstart hend hy
  obtain ⟨n, hday⟩ := Int.eq_ofNat_of_zero_le (sub_nonneg.2 hstart)
  have hlt : n < 366 := by split_ifs at hend <;> omega
  refine ⟨(days + 719468) / 146097, y, n, hy, hlt, fun h => ?_, by omega,
    ofDays_eq hlt hyear ?_⟩
  · by_contra hleap
    rw [if_neg hleap] at hend
    omega
  · unfold yearStart at hday
    omega

/-- The date of a day leads back to the day. -/
theorem toDays_ofDays (days : Int) : (Date.ofDays days).toDays = days := by
  obtain ⟨cycle, y, n, h⟩ := exists_dated days
  obtain ⟨hlow, hfirst, -⟩ := month_spec n h.day
  obtain ⟨-, -, hmonth⟩ := calendarMonth_spec _ hlow
  have hy := h.year
  have hsum := h.sum
  have hyear : ∀ b : Prop, [Decidable b] → (if b then y + cycle * 400 + (if b then 1 else 0) - 1
      else y + cycle * 400 + if b then 1 else 0) = y + cycle * 400 := fun b _ => by
    split_ifs <;> omega
  have hcycle : (y + cycle * 400) / 400 = cycle := by omega
  have hinCycle : (y + cycle * 400) % 400 = y := by omega
  have hmonth' : ((calendarMonth (monthOf n) : Int) + 9) % 12 = monthOf n := by exact_mod_cast hmonth
  have hmonthStart : (153 * (monthOf n : Int) + 2) / 5 = monthStart (monthOf n) := by
    simp [monthStart]
  rw [h.date]
  simp only [Date.toDays, hyear, hcycle, hinCycle, hmonth', hmonthStart]
  unfold yearStart at hsum
  omega

/-- The date of a day is one of the calendar, if its year can be kept. -/
theorem ofDays_exists {days : Int} (hfirst : firstYear ≤ (Date.ofDays days).year)
    (hlast : (Date.ofDays days).year ≤ lastYear) : (Date.ofDays days).exists := by
  obtain ⟨cycle, y, n, h⟩ := exists_dated days
  obtain ⟨hlow, -, hday⟩ := month_spec n h.day
  obtain ⟨hmonth, hmonth', -⟩ := calendarMonth_spec _ hlow
  have hinMonth : (Date.ofDays days).day ≤
      daysInMonth (Date.ofDays days).year (Date.ofDays days).month := by
    rw [h.date]
    refine hday.trans ?_
    by_cases hfeb : calendarMonth (monthOf n) = 2
    · rw [if_pos hfeb, hfeb, daysInMonth]
      by_cases hlong : n = 365
      · have hleap := h.leap hlong
        rw [if_pos hlong]
        exact (if_pos hleap).ge
      · rw [if_neg hlong]
        split_ifs <;> decide
    · rw [if_neg hfeb]
      exact (daysInMonth_of_ne hfeb ..).le
  simp only [Date.exists, Bool.and_eq_true, decide_eq_true_eq]
  refine ⟨⟨⟨⟨⟨hfirst, hlast⟩, ?_⟩, ?_⟩, ?_⟩, hinMonth⟩ <;> rw [h.date]
  · exact hmonth
  · exact hmonth'
  · exact Nat.le_add_left ..

end Tourney.Timestamp
