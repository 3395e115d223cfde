/-
# The dates of day numbers exist

Counting days never arrives at a date that the calendar does not have.  Every day lies less than a
year after a first of March, and only a year that ends in a leap year's February has a day more.
So the leap day, which comes last in its count, is reached in these years only.

* `exists_ofDays_eq_afterMarch`: the date of a day number as a day of such a year;
* `isValid_ofDays`: the date of a day number exists;
* `before_ofDays`: later days have later dates.
-/
import Reconciliation.Time.Calendar

namespace Reconciliation
namespace CivilDate

/-! ## 1. Years from March -/

theorem isLeapYear_eq_true_iff {y : Int} :
    isLeapYear y = true ↔ y % 4 = 0 ∧ (y % 100 ≠ 0 ∨ y % 400 = 0) := by
  simp [isLeapYear]

/-- The day number of the first of March. -/
def marchDays (y : Int) : Int := 365 * y + y / 4 - y / 100 + y / 400 - 719468

/-- The date so many days after the first of March. -/
def afterMarch (y dayOfYear : Int) : CivilDate :=
  let fromMarch := (5 * dayOfYear + 2) / 153
  let month := if fromMarch < 10 then fromMarch + 3 else fromMarch - 9
  ⟨if month ≤ 2 then y + 1 else y, month.toNat, (dayOfYear - (153 * fromMarch + 2) / 5 + 1).toNat⟩

/-- A year from March has a day more if the next year is a leap year. -/
theorem length_marchYear (y : Int) :
    marchDays (y + 1) - marchDays y = if isLeapYear (y + 1) then 366 else 365 := by
  simp only [marchDays, isLeapYear_eq_true_iff]
  split
  · omega
  · omega

/-- The date of a day number lies so many days after a first of March, less than a year. -/
theorem exists_ofDays_eq_afterMarch (days : Int) :
    ∃ y dayOfYear : Int, 0 ≤ dayOfYear ∧ dayOfYear < marchDays (y + 1) - marchDays y ∧
      days = marchDays y + dayOfYear ∧ ofDays days = afterMarch y dayOfYear := by
  simp only [ofDays]
  generalize hz : days + 719468 = z
  generalize hcy : z / 146097 = cycle
  generalize hd : z % 146097 = d
  have hd0 : 0 ≤ d ∧ d < 146097 := by omega
  generalize hc : min (d / 36524) 3 = c
  have hc0 : 0 ≤ c ∧ c ≤ 3 := by omega
  generalize hr : d - c * 36524 = r
  have hr0 : 0 ≤ r ∧ r ≤ 36524 ∧ (r = 36524 → c = 3) := by omega
  generalize hg : r / 1461 = g
  have hg0 : 0 ≤ g ∧ g ≤ 24 := by omega
  generalize hr' : r - g * 1461 = r'
  have hr'0 : 0 ≤ r' ∧ r' ≤ 1460 := by omega
  generalize hy : min (r' / 365) 3 = y
  have hy0 : 0 ≤ y ∧ y ≤ 3 := by omega
  generalize hdoy : r' - y * 365 = doy
  have hdoy0 : 0 ≤ doy ∧ doy ≤ 365 := by omega
  generalize hY : cycle * 400 + c * 100 + g * 4 + y = Y
  have h4 : Y / 4 = cycle * 100 + c * 25 + g := by omega
  have h100 : Y / 100 = cycle * 4 + c := by omega
  have h400 : Y / 400 = cycle := by omega
  refine ⟨Y, doy, hdoy0.1, ?_, ?_, rfl⟩
  · simp only [marchDays, h4, h100, h400]
    by_cases hleap : y = 3
    · -- only the fourth year of a group may have a day more
      have hnext4 : (Y + 1) / 4 = cycle * 100 + c * 25 + g + 1 := by omega
      by_cases hlast : g = 24
      · have hnext100 : (Y + 1) / 100 = cycle * 4 + c + 1 := by omega
        omega
      · have hnext100 : (Y + 1) / 100 = cycle * 4 + c := by omega
        omega
    · have hnext4 : (Y + 1) / 4 = cycle * 100 + c * 25 + g := by omega
      have hnext100 : (Y + 1) / 100 = cycle * 4 + c := by omega
      omega
  · simp only [marchDays, h4, h100, h400]
    omega

/-! ## 2. The dates exist -/

/-- A month of the count from March has so many days, the last one in a leap year one more. -/
theorem day_le_daysInMonth {y dayOfYear m : Int} (hm : m = (5 * dayOfYear + 2) / 153)
    (h0 : 0 ≤ dayOfYear) (h365 : dayOfYear ≤ 365)
    (hleap : dayOfYear = 365 → isLeapYear y = true) :
    (dayOfYear - (153 * m + 2) / 5 + 1).toNat ≤
      daysInMonth y (if m < 10 then m + 3 else m - 9).toNat := by
  have hm0 : 0 ≤ m ∧ m ≤ 11 := by omega
  obtain ⟨hlow, hhigh⟩ := hm0
  obtain rfl | rfl | rfl | rfl | rfl | rfl | rfl | rfl | rfl | rfl | rfl | rfl : m = 0 ∨ m = 1 ∨
    m = 2 ∨ m = 3 ∨ m = 4 ∨ m = 5 ∨ m = 6 ∨ m = 7 ∨ m = 8 ∨ m = 9 ∨ m = 10 ∨ m = 11 := by omega
  case inr.inr.inr.inr.inr.inr.inr.inr.inr.inr.inr =>
    show _ ≤ if isLeapYear y then 29 else 28
    split
    · omega
    · rename_i hnot
      have : dayOfYear ≠ 365 := fun h => hnot (hleap h)
      omega
  all_goals
    simp only [daysInMonth, Int.reduceLT, Int.reduceAdd, Int.reduceSub, if_true, if_false,
      Int.reduceToNat]
    omega

/-- The days of a year from March are dates that exist. -/
theorem isValid_afterMarch {y dayOfYear : Int} (h0 : 0 ≤ dayOfYear)
    (hlength : dayOfYear < marchDays (y + 1) - marchDays y) :
    (afterMarch y dayOfYear).isValid = true := by
  rw [length_marchYear] at hlength
  have hleap : dayOfYear = 365 → isLeapYear (y + 1) = true := by
    intro h
    split at hlength
    · assumption
    · omega
  have h365 : dayOfYear ≤ 365 := by
    split at hlength <;> omega
  simp only [afterMarch]
  generalize hm : (5 * dayOfYear + 2) / 153 = m
  simp only [isValid, Bool.and_eq_true, decide_eq_true_eq]
  have hday : 1 ≤ dayOfYear - (153 * m + 2) / 5 + 1 := by omega
  by_cases h10 : m < 10
  · have hdays := day_le_daysInMonth (y := y) hm.symm h0 h365 (by omega)
    have hmonth : ¬ m + 3 ≤ 2 := by omega
    simp only [h10, if_true] at hdays
    simp only [h10, hmonth, if_true, if_false]
    omega
  · have hdays := day_le_daysInMonth hm.symm h0 h365 hleap
    have hmonth : m - 9 ≤ 2 := by omega
    simp only [h10, if_false] at hdays
    simp only [h10, hmonth, if_true, if_false]
    omega

/-- **The date of a day number exists.** -/
theorem isValid_ofDays (days : Int) : (ofDays days).isValid = true := by
  obtain ⟨y, dayOfYear, h0, hlength, -, hdate⟩ := exists_ofDays_eq_afterMarch days
  rw [hdate]
  exact isValid_afterMarch h0 hlength

/-- A date that exists has two digits for its month and for its day. -/
theorem le_of_isValid {d : CivilDate} (h : d.isValid = true) : d.month ≤ 12 ∧ d.day ≤ 31 := by
  simp only [isValid, Bool.and_eq_true, decide_eq_true_eq] at h
  refine ⟨h.1.1.2, Nat.le_trans h.2 ?_⟩
  unfold daysInMonth
  split <;> first | omega | (split <;> omega)

/-! ## 3. Later days -/

/-- `d.Before d'`: the date is earlier. -/
def Before (d d' : CivilDate) : Prop :=
  d.year < d'.year ∨ d.year = d'.year ∧
    (d.month < d'.month ∨ d.month = d'.month ∧ d.day < d'.day)

theorem marchDays_le {y y' : Int} (h : y ≤ y') : marchDays y ≤ marchDays y' := by
  simp only [marchDays]
  omega

theorem before_afterMarch {y y' n n' : Int} (hn : 0 ≤ n ∧ n ≤ 365) (hn' : 0 ≤ n' ∧ n' ≤ 365)
    (h : y < y' ∨ y = y' ∧ n < n') : (afterMarch y n).Before (afterMarch y' n') := by
  simp only [Before, afterMarch]
  generalize hm : (5 * n + 2) / 153 = m
  generalize hm' : (5 * n' + 2) / 153 = m'
  omega

/-- **Later days have later dates.** -/
theorem before_ofDays {m n : Int} (h : m < n) : (ofDays m).Before (ofDays n) := by
  obtain ⟨y, i, hi0, hi, rfl, hm⟩ := exists_ofDays_eq_afterMarch m
  obtain ⟨y', j, hj0, hj, rfl, hn⟩ := exists_ofDays_eq_afterMarch n
  have hlength : ∀ y, marchDays (y + 1) - marchDays y ≤ 366 := by
    intro y
    rw [length_marchYear]
    split <;> omega
  rw [hm, hn]
  have hi' := hlength y
  have hj' := hlength y'
  refine before_afterMarch (by omega) (by omega) ?_
  by_cases hyy : y' < y
  · have := marchDays_le (Int.add_one_le_of_lt hyy)
    omega
  · by_cases heq : y = y'
    · subst heq
      omega
    · omega

end CivilDate
end Reconciliation
