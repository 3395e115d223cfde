/-
# The civil calendar

Days are counted from 1970-01-01.  Within a cycle of 400 years the count starts at the first of
March, so the leap day is the last day of its year.

* `toDays_ofDays`: the date of a day number has that day number.
-/

namespace Reconciliation

/-- A date of the proleptic Gregorian calendar, not necessarily one that exists. -/
structure CivilDate where
  year : Int
  month : Nat
  day : Nat
  deriving DecidableEq

namespace CivilDate

def isLeapYear (y : Int) : Bool := y % 4 == 0 && (y % 100 != 0 || y % 400 == 0)

def daysInMonth (y : Int) : Nat → Nat
  | 1 => 31
  | 2 => if isLeapYear y then 29 else 28
  | 3 => 31
  | 4 => 30
  | 5 => 31
  | 6 => 30
  | 7 => 31
  | 8 => 31
  | 9 => 30
  | 10 => 31
  | 11 => 30
  | 12 => 31
  | _ => 0

/-- Whether the month and the day exist. -/
def isValid (d : CivilDate) : Bool :=
  1 ≤ d.month && d.month ≤ 12 && 1 ≤ d.day && d.day ≤ daysInMonth d.year d.month

/-- The day number of a date. -/
def toDays (d : CivilDate) : Int :=
  let y := if d.month ≤ 2 then d.year - 1 else d.year
  let fromMarch : Int := if d.month ≤ 2 then d.month + 9 else d.month - 3
  let yearOfCycle := y % 400
  let dayOfYear := (153 * fromMarch + 2) / 5 + d.day - 1
  let dayOfCycle := yearOfCycle * 365 + yearOfCycle / 4 - yearOfCycle / 100 + dayOfYear
  (y / 400) * 146097 + dayOfCycle - 719468

/-- The date of a day number: whole centuries of the cycle, then groups of four years, then years.
The last century and the last year of a group may be a day longer, so each count stops at 3. -/
def ofDays (days : Int) : CivilDate :=
  let z := days + 719468
  let dayOfCycle := z % 146097
  let centuries := min (dayOfCycle / 36524) 3
  let dayOfCentury := dayOfCycle - centuries * 36524
  let groups := dayOfCentury / 1461
  let dayOfGroup := dayOfCentury - groups * 1461
  let years := min (dayOfGroup / 365) 3
  let dayOfYear := dayOfGroup - years * 365
  let fromMarch := (5 * dayOfYear + 2) / 153
  let day := dayOfYear - (153 * fromMarch + 2) / 5 + 1
  let month := if fromMarch < 10 then fromMarch + 3 else fromMarch - 9
  let year := z / 146097 * 400 + centuries * 100 + groups * 4 + years
  ⟨if month ≤ 2 then year + 1 else year, month.toNat, day.toNat⟩

theorem toDays_ofDays (days : Int) : (ofDays days).toDays = days := by
  simp only [ofDays]
  generalize hz : days + 719468 = z
  have hc : z / 146097 * 146097 + z % 146097 = z := by omega
  generalize hcy : z / 146097 = cycle at *
  generalize hd : z % 146097 = d at *
  have hd0 : 0 ≤ d := by omega
  have hd1 : d < 146097 := by omega
  generalize hce : min (d / 36524) 3 = c at *
  have hc0 : 0 ≤ c ∧ c ≤ 3 := by omega
  generalize hr : d - c * 36524 = r at *
  have hr0 : 0 ≤ r ∧ r ≤ 36524 := by omega
  generalize hg : r / 1461 = g at *
  have hg0 : 0 ≤ g ∧ g ≤ 24 := by omega
  generalize hr' : r - g * 1461 = r' at *
  have hr'0 : 0 ≤ r' ∧ r' ≤ 1460 := by omega
  generalize hy : min (r' / 365) 3 = y at *
  have hy0 : 0 ≤ y ∧ y ≤ 3 := by omega
  generalize hdoy : r' - y * 365 = doy at *
  have hdoy0 : 0 ≤ doy ∧ doy ≤ 365 := by omega
  generalize hm : (5 * doy + 2) / 153 = m at *
  have hm0 : 0 ≤ m ∧ m ≤ 11 := by omega
  generalize hday : doy - (153 * m + 2) / 5 + 1 = day at *
  have hday0 : 1 ≤ day ∧ day ≤ 31 := by omega
  have hday1 : (day.toNat : Int) = day := by omega
  have hdiv : (cycle * 400 + c * 100 + g * 4 + y) / 400 = cycle := by omega
  have hmod : (cycle * 400 + c * 100 + g * 4 + y) % 400 = c * 100 + g * 4 + y := by omega
  have h4 : (c * 100 + g * 4 + y) / 4 = c * 25 + g := by omega
  have h100 : (c * 100 + g * 4 + y) / 100 = c := by omega
  simp only [toDays, hday1]
  by_cases h10 : m < 10
  · have h1 : ¬ m + 3 ≤ 2 := by omega
    have h2 : ¬ (m + 3).toNat ≤ 2 := by omega
    have h3 : ((m + 3).toNat : Int) - 3 = m := by omega
    simp only [h10, if_true, h1, h2, if_false, h3, hdiv, hmod, h4, h100]
    omega
  · have h1 : m - 9 ≤ 2 := by omega
    have h2 : (m - 9).toNat ≤ 2 := by omega
    have h3 : ((m - 9).toNat : Int) + 9 = m := by omega
    have h5 : cycle * 400 + c * 100 + g * 4 + y + 1 - 1 = cycle * 400 + c * 100 + g * 4 + y := by
      omega
    simp only [h10, if_false, h1, h2, if_true, h3, h5, hdiv, hmod, h4, h100]
    omega

end CivilDate

end Reconciliation
