/-!
# Time — the calendar

Dates of the Gregorian calendar, extended over all years, and the days they number from
1970-01-01.  Years are counted from March, so that the leap day is the last day of its year and
every cycle of 400, 100 or 4 years ends with it.

* `toDay_ofDay`: the date of a day numbers that day.
-/

namespace Strongbox

/-- A date by year, month and day of the month. -/
structure Date where
  year : Int
  month : Nat
  day : Nat
  deriving DecidableEq

namespace Date

/-- The year has a leap day. -/
def isLeap (year : Int) : Bool :=
  year % 4 = 0 && (year % 100 ≠ 0 || year % 400 = 0)

/-- The number of days in a month of a year, 0 if there is no such month. -/
def monthLength (year : Int) (month : Nat) : Nat :=
  if month = 2 then (if isLeap year then 29 else 28)
  else if month ∈ [4, 6, 9, 11] then 30
  else if 1 ≤ month ∧ month ≤ 12 then 31
  else 0

/-- The date is one of the calendar. -/
def isValid (d : Date) : Bool :=
  decide (1 ≤ d.day ∧ d.day ≤ monthLength d.year d.month)

/-- The days before 1 March of the year 0, counted back from 1970-01-01. -/
def marchZero : Int := 719468

/-- The number of days before a year that starts in March, from 1970-01-01. -/
def beforeMarch (year : Int) : Int :=
  365 * year + year / 4 - year / 100 + year / 400 - marchZero

/-- The number of a date's day, 0 for 1970-01-01. -/
def toDay (d : Date) : Int :=
  if d.month ≤ 2 then
    beforeMarch (d.year - 1) + ((153 * (d.month + 9) + 2) / 5 : Nat) + d.day - 1
  else beforeMarch d.year + ((153 * (d.month - 3) + 2) / 5 : Nat) + d.day - 1

/-- The date of a day counted from 1 March of a year. -/
def ofMarch (year : Int) (dayOfYear : Nat) : Date :=
  let month := (5 * dayOfYear + 2) / 153
  let day := dayOfYear - (153 * month + 2) / 5 + 1
  if month < 10 then ⟨year, month + 3, day⟩ else ⟨year + 1, month - 9, day⟩

/-- The year that starts in March and holds the day `z` from 1 March of the year 0, and the day
counted from that year's start. -/
def marchYear (z : Int) : Int × Nat :=
  let r := z % 146097
  let c100 := if r < 3 * 36524 then r / 36524 else 3
  let r100 := r - 36524 * c100
  let r4 := r100 % 1461
  let c1 := if r4 < 3 * 365 then r4 / 365 else 3
  (400 * (z / 146097) + 100 * c100 + 4 * (r100 / 1461) + c1, (r4 - 365 * c1).toNat)

/-- The date of a day by its number. -/
def ofDay (n : Int) : Date :=
  let y := marchYear (n + marchZero)
  ofMarch y.1 y.2

theorem toDay_ofMarch (year : Int) {k : Nat} (h : k ≤ 365) :
    (ofMarch year k).toDay = beforeMarch year + k := by
  simp only [ofMarch]
  split
  · rw [toDay, if_neg (by simp only []; omega)]
    simp only []; omega
  · rw [toDay, if_pos (by simp only []; omega)]
    simp only [Int.add_sub_cancel]; omega

/-- The days before a year, from the cycles of 400, 100, 4 and 1 years that make it up. -/
theorem beforeMarch_cycles {a b c d : Int} (hb : 0 ≤ b ∧ b ≤ 3) (hc : 0 ≤ c ∧ c ≤ 24)
    (hd : 0 ≤ d ∧ d ≤ 3) :
    beforeMarch (400 * a + 100 * b + 4 * c + d)
      = 146097 * a + 36524 * b + 1461 * c + 365 * d - marchZero := by
  have h4 : (400 * a + 100 * b + 4 * c + d) / 4 = 100 * a + 25 * b + c := by omega
  have h100 : (400 * a + 100 * b + 4 * c + d) / 100 = 4 * a + b := by omega
  have h400 : (400 * a + 100 * b + 4 * c + d) / 400 = a := by omega
  simp only [beforeMarch, h4, h100, h400]; omega

theorem beforeMarch_marchYear (z : Int) :
    (marchYear z).2 ≤ 365 ∧ beforeMarch (marchYear z).1 + (marchYear z).2 = z - marchZero := by
  simp only [marchYear]
  split <;> split <;>
    (rw [beforeMarch_cycles (by omega) (by omega) (by omega)]; omega)

/-- The date of a day numbers that day. -/
theorem toDay_ofDay (n : Int) : (ofDay n).toDay = n := by
  obtain ⟨h, e⟩ := beforeMarch_marchYear (n + marchZero)
  rw [ofDay, toDay_ofMarch _ h, e]; omega

end Date

end Strongbox
