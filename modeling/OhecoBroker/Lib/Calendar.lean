/-
The proleptic Gregorian calendar from 1970 on.

* `Date`, `Date.dayNumber`: days, and the number of days before a day;
* `Date.ofDayNumber`, `dayNumber_ofDayNumber`: the day with a given number;
* `daysBeforeYear_eq`, `daysBeforeMonth_eq`: the days before a year and before a month;
* `dayNumber_eq_civil`: the closed formula over eras of 400 years that begin in March.
-/
import Mathlib.Algebra.BigOperators.Intervals
import Mathlib.Tactic

namespace OhecoBroker.Lib

open Finset

/-! ### Years and months -/

def IsLeap (y : ℕ) : Prop := y % 4 = 0 ∧ y % 100 ≠ 0 ∨ y % 400 = 0

instance (y : ℕ) : Decidable (IsLeap y) := inferInstanceAs (Decidable (_ ∨ _))

def yearLength (y : ℕ) : ℕ := if IsLeap y then 366 else 365

def monthLength (y : ℕ) : ℕ → ℕ
  | 2 => if IsLeap y then 29 else 28
  | 4 | 6 | 9 | 11 => 30
  | _ => 31

structure Date where
  year : ℕ
  month : ℕ
  day : ℕ
  hmonth : 1 ≤ month ∧ month ≤ 12
  hday : 1 ≤ day ∧ day ≤ monthLength year month

/-- The days of the years from 1970 on. -/
def daysBeforeYear (y : ℕ) : ℕ := ∑ k ∈ Ico 1970 y, yearLength k

def daysBeforeMonth (y m : ℕ) : ℕ := ∑ k ∈ Ico 1 m, monthLength y k

/-- The days since 1970-01-01. -/
def Date.dayNumber (d : Date) : ℕ :=
  daysBeforeYear d.year + daysBeforeMonth d.year d.month + (d.day - 1)

/-! ### Finding a day by its number -/

/-- The year `n` days after the start of `y`, and the day in it. -/
def yearFrom (y n : ℕ) : ℕ × ℕ :=
  if n < yearLength y then (y, n) else yearFrom (y + 1) (n - yearLength y)
termination_by n
decreasing_by
  unfold yearLength at *
  split <;> split_ifs at * <;> omega

/-- The month `n` days after the start of `m`, and the day in it. -/
def monthFrom (y m n : ℕ) : ℕ × ℕ :=
  if n < monthLength y m ∨ 12 ≤ m then (m, n) else monthFrom y (m + 1) (n - monthLength y m)
termination_by 12 - m

lemma yearFrom_spec (y n : ℕ) :
    y ≤ (yearFrom y n).1 ∧ (yearFrom y n).2 < yearLength (yearFrom y n).1 ∧
      ∑ k ∈ Ico y (yearFrom y n).1, yearLength k + (yearFrom y n).2 = n := by
  fun_induction yearFrom y n with
  | case1 y n h => simpa using h
  | case2 y n h ih =>
    obtain ⟨hy, hlt, hsum⟩ := ih
    refine ⟨by omega, hlt, ?_⟩
    rw [sum_eq_sum_Ico_succ_bot (by omega)]
    omega

lemma monthFrom_spec (y m n : ℕ) (hm : m ≤ 12) (hn : n < ∑ k ∈ Ico m 13, monthLength y k) :
    m ≤ (monthFrom y m n).1 ∧ (monthFrom y m n).1 ≤ 12 ∧
      (monthFrom y m n).2 < monthLength y (monthFrom y m n).1 ∧
      ∑ k ∈ Ico m (monthFrom y m n).1, monthLength y k + (monthFrom y m n).2 = n := by
  fun_induction monthFrom y m n with
  | case1 m n h =>
    refine ⟨le_rfl, hm, ?_, by simp⟩
    rcases h with h | h
    · exact h
    · obtain rfl : m = 12 := by omega
      simpa using hn
  | case2 m n h ih =>
    rw [sum_eq_sum_Ico_succ_bot (by omega)] at hn
    obtain ⟨hle, h12, hlt, hsum⟩ := ih (by omega) (by omega)
    refine ⟨by omega, h12, hlt, ?_⟩
    rw [sum_eq_sum_Ico_succ_bot (by omega)]
    omega

/-- The months make up the year. -/
lemma sum_monthLength (y : ℕ) : ∑ k ∈ Ico 1 13, monthLength y k = yearLength y := by
  simp only [sum_Ico_eq_sum_range, Nat.reduceSub, sum_range_succ, sum_range_zero, Nat.reduceAdd,
    monthLength, yearLength]
  split <;> rfl

def Date.ofDayNumber (n : ℕ) : Date :=
  let y := yearFrom 1970 n
  let m := monthFrom y.1 1 y.2
  { year := y.1
    month := m.1
    day := m.2 + 1
    hmonth := by
      have h := monthFrom_spec y.1 1 y.2 (by omega)
        (sum_monthLength y.1 ▸ (yearFrom_spec 1970 n).2.1)
      exact ⟨h.1, h.2.1⟩
    hday := by
      have h := monthFrom_spec y.1 1 y.2 (by omega)
        (sum_monthLength y.1 ▸ (yearFrom_spec 1970 n).2.1)
      exact ⟨by omega, h.2.2.1⟩ }

theorem dayNumber_ofDayNumber (n : ℕ) : (Date.ofDayNumber n).dayNumber = n := by
  obtain ⟨-, hlt, hyear⟩ := yearFrom_spec 1970 n
  obtain ⟨-, -, -, hmonth⟩ := monthFrom_spec (yearFrom 1970 n).1 1 (yearFrom 1970 n).2 (by omega)
    (sum_monthLength _ ▸ hlt)
  simp only [Date.dayNumber, Date.ofDayNumber, daysBeforeYear, daysBeforeMonth]
  omega

/-- The search starts in 1970. -/
lemma year_ofDayNumber (n : ℕ) : 1970 ≤ (Date.ofDayNumber n).year := (yearFrom_spec 1970 n).1

/-! ### The closed formula -/

lemma daysBeforeYear_eq {y : ℕ} (hy : 1970 ≤ y) :
    daysBeforeYear y + 365 * 1970 + 477 + (y - 1) / 100
      = 365 * y + (y - 1) / 4 + (y - 1) / 400 := by
  induction y, hy using Nat.le_induction with
  | base => rfl
  | succ y hy ih =>
    have hstep : daysBeforeYear (y + 1) = daysBeforeYear y + yearLength y :=
      sum_Ico_succ_top hy _
    have h4 : y / 4 = (y - 1) / 4 + (if y % 4 = 0 then 1 else 0) := by split <;> omega
    have h100 : y / 100 = (y - 1) / 100 + (if y % 100 = 0 then 1 else 0) := by split <;> omega
    have h400 : y / 400 = (y - 1) / 400 + (if y % 400 = 0 then 1 else 0) := by split <;> omega
    have hlength : yearLength y + (if y % 100 = 0 then 1 else 0)
        = 365 + (if y % 4 = 0 then 1 else 0) + (if y % 400 = 0 then 1 else 0) := by
      rw [yearLength]
      by_cases hleap : IsLeap y
      · rw [if_pos hleap]
        rcases hleap with h | h <;> split_ifs <;> omega
      · rw [if_neg hleap]
        unfold IsLeap at hleap
        split_ifs <;> omega
    rw [hstep, Nat.add_sub_cancel, h4, h100, h400]
    omega

lemma daysBeforeMonth_eq {y m : ℕ} (h : 1 ≤ m ∧ m ≤ 12) :
    daysBeforeMonth y m = if m ≤ 2 then 31 * (m - 1)
      else 59 + (if IsLeap y then 1 else 0) + ((153 * (m - 3) + 2) / 5) := by
  obtain ⟨h1, h12⟩ := h
  interval_cases m <;>
    simp only [daysBeforeMonth, sum_Ico_eq_sum_range, Nat.reduceSub, sum_range_succ, sum_range_zero,
      Nat.reduceAdd, monthLength] <;> split_ifs <;> omega

theorem dayNumber_eq_civil (d : Date) (hy : 1970 ≤ d.year) :
    let adjusted : ℕ := d.year - (if d.month ≤ 2 then 1 else 0)
    let era := adjusted / 400
    let yoe := adjusted - era * 400
    let shifted := if 2 < d.month then d.month - 3 else d.month + 9
    let doy := (153 * shifted + 2) / 5 + d.day - 1
    (d.dayNumber : ℤ) = era * 146097 + yoe * 365 + (yoe / 4 : ℕ) -
      (yoe / 100 : ℕ) + doy - 719468 := by
  intro adjusted era yoe shifted doy
  have hyear := daysBeforeYear_eq hy
  have hmonth := daysBeforeMonth_eq (y := d.year) d.hmonth
  have h1 := d.hmonth
  have h2 := d.hday
  simp only [Date.dayNumber, adjusted, era, yoe, shifted, doy]
  by_cases hm : d.month ≤ 2
  · rw [if_pos hm] at hmonth
    rw [if_pos hm, if_neg (by omega)]
    omega
  rw [if_neg hm] at hmonth
  rw [if_neg hm, if_pos (by omega)]
  -- the leap day of the year itself is counted by the year or not at all
  by_cases hleap : IsLeap d.year
  · rw [if_pos hleap] at hmonth
    unfold IsLeap at hleap
    omega
  · rw [if_neg hleap] at hmonth
    unfold IsLeap at hleap
    omega

end OhecoBroker.Lib
