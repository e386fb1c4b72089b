/-!
# Calendar dates

Dates of the proleptic Gregorian calendar, with a year of either sign, and their numbers counted in days
from 1970-01-01. The day after a date has the next number.
-/

namespace TypedRecords

def isLeap (year : Int) : Bool := year % 4 == 0 && (year % 100 != 0 || year % 400 == 0)

def monthLength (year : Int) (month : Nat) : Nat :=
  if month = 2 then if isLeap year then 29 else 28
  else if month = 4 ∨ month = 6 ∨ month = 9 ∨ month = 11 then 30 else 31

theorem monthLength_pos (year : Int) (month : Nat) : 1 ≤ monthLength year month := by
  unfold monthLength
  split
  · split <;> decide
  · split <;> decide

abbrev IsDate (year : Int) (month day : Nat) : Prop :=
  1 ≤ month ∧ month ≤ 12 ∧ 1 ≤ day ∧ day ≤ monthLength year month

structure Date where
  year : Int
  month : Nat
  day : Nat
  isDate : IsDate year month day := by decide
  deriving DecidableEq

namespace Date

def of? (year : Int) (month day : Nat) : Option Date :=
  if h : IsDate year month day then some ⟨year, month, day, h⟩ else none

def epoch : Date where
  year := 1970
  month := 1
  day := 1

def daysBefore (year : Int) : (month : Nat) → Nat
  | 0 => 0
  | 1 => 0
  | m + 2 => daysBefore year (m + 1) + monthLength year (m + 1)

/-- The days from the first day of year 1 to the first day of `year`. -/
def daysBeforeYear (year : Int) : Int :=
  365 * (year - 1) + (year - 1) / 4 - (year - 1) / 100 + (year - 1) / 400

/-- The days from 1970-01-01 to the date. -/
def dayNumber (d : Date) : Int :=
  daysBeforeYear d.year - daysBeforeYear 1970 + daysBefore d.year d.month + d.day - 1

def next (d : Date) : Date :=
  if h : d.day < monthLength d.year d.month then
    ⟨d.year, d.month, d.day + 1, d.isDate.1, d.isDate.2.1, by omega, h⟩
  else if h : d.month < 12 then ⟨d.year, d.month + 1, 1, by omega, h, by decide, monthLength_pos ..⟩
  else ⟨d.year + 1, 1, 1, by decide, by decide, by decide, monthLength_pos ..⟩

def prev (d : Date) : Date :=
  if h : 1 < d.day then
    ⟨d.year, d.month, d.day - 1, d.isDate.1, d.isDate.2.1, by omega, by have := d.isDate; omega⟩
  else if h : 1 < d.month then
    ⟨d.year, d.month - 1, monthLength d.year (d.month - 1), by omega, by have := d.isDate; omega,
      monthLength_pos .., Nat.le_refl _⟩
  else ⟨d.year - 1, 12, monthLength (d.year - 1) 12, by decide, by decide, monthLength_pos .., Nat.le_refl _⟩

def shift (d : Date) (n : Int) : Date :=
  if n < 0 then Nat.repeat prev n.natAbs d else Nat.repeat next n.natAbs d

example : epoch.dayNumber = 0 := by decide

example : (of? 1900 2 29).isNone ∧ (of? 2000 2 29).isSome := by decide

example : (⟨2000, 2, 29, by decide⟩ : Date).next = ⟨2000, 3, 1, by decide⟩ := by decide

end Date

end TypedRecords
