import TypedRecords.Time.Calendar

/-!
# Day numbers

The number of a date counts the steps through the calendar from 1970-01-01: the day after a date has the next number
and the day before it the previous one, over the ends of months, leap days and the ends of years in either direction.
Dates have the order of their numbers, so every number belongs to one date.
-/

namespace TypedRecords

/-! ## Months and years -/

theorem monthLength_le (year : Int) (month : Nat) : monthLength year month ≤ 31 := by
  unfold monthLength
  split
  · split <;> decide
  · split <;> decide

def yearLength (year : Int) : Nat := if isLeap year then 366 else 365

namespace Date

theorem daysBefore_succ (year : Int) {month : Nat} (h : 1 ≤ month) :
    daysBefore year (month + 1) = daysBefore year month + monthLength year month := by
  obtain ⟨m, rfl⟩ := Nat.exists_eq_add_of_le' h
  rfl

theorem daysBefore_one (year : Int) : daysBefore year 1 = 0 := rfl

theorem daysBefore_thirteen (year : Int) : daysBefore year 13 = yearLength year := by
  simp only [daysBefore, monthLength, yearLength]
  cases isLeap year <;> rfl

theorem daysBefore_twelve (year : Int) : daysBefore year 12 + monthLength year 12 = yearLength year := by
  rw [← daysBefore_succ year (by decide), daysBefore_thirteen]

theorem daysBefore_add_le (year : Int) {month month' : Nat} (h : 1 ≤ month) (hlt : month < month') :
    daysBefore year month + monthLength year month ≤ daysBefore year month' := by
  induction hlt with
  | refl => exact Nat.le_of_eq (daysBefore_succ year h).symm
  | step hlt ih =>
    rename_i m
    have hm : 1 ≤ m := Nat.le_trans h (Nat.le_of_succ_le hlt)
    rw [daysBefore_succ year hm]
    exact Nat.le_trans ih (Nat.le_add_right ..)

theorem daysBeforeYear_succ (year : Int) :
    daysBeforeYear (year + 1) = daysBeforeYear year + yearLength year := by
  have hleap : isLeap year = true ↔ year % 4 = 0 ∧ (year % 100 ≠ 0 ∨ year % 400 = 0) := by simp [isLeap]
  simp only [daysBeforeYear, yearLength]
  by_cases h : isLeap year = true
  · have hy := hleap.mp h
    rw [if_pos h]
    omega
  · have hy := mt hleap.mpr h
    rw [if_neg h]
    omega

theorem daysBeforeYear_add_le {year year' : Int} (h : year < year') :
    daysBeforeYear year + yearLength year ≤ daysBeforeYear year' := by
  rw [← daysBeforeYear_succ]
  simp only [daysBeforeYear]
  omega

/-! ## Steps through the calendar -/

theorem dayNumber_next (d : Date) : d.next.dayNumber = d.dayNumber + 1 := by
  obtain ⟨year, month, day, hm₁, hm₁₂, hd₁, hd⟩ := d
  unfold next
  by_cases hday : day < monthLength year month
  · rw [dif_pos hday]
    simp only [dayNumber]
    omega
  · rw [dif_neg hday]
    by_cases hmonth : month < 12
    · rw [dif_pos hmonth]
      simp only [dayNumber, daysBefore_succ year hm₁]
      omega
    · obtain rfl : month = 12 := by omega
      have hlast := daysBefore_twelve year
      rw [dif_neg hmonth]
      simp only [dayNumber, daysBeforeYear_succ, daysBefore_one]
      -- otherwise the eleven months before are summed up again
      generalize daysBefore year 12 = before at hlast ⊢
      omega

theorem dayNumber_prev (d : Date) : d.prev.dayNumber = d.dayNumber - 1 := by
  obtain ⟨year, month, day, hm₁, hm₁₂, hd₁, hd⟩ := d
  unfold prev
  by_cases hday : 1 < day
  · rw [dif_pos hday]
    simp only [dayNumber]
    omega
  · rw [dif_neg hday]
    by_cases hmonth : 1 < month
    · obtain ⟨m, rfl⟩ := Nat.exists_eq_add_of_le' hm₁
      rw [dif_pos hmonth]
      simp only [dayNumber, daysBefore_succ year (show 1 ≤ m by omega), Nat.add_sub_cancel]
      omega
    · obtain rfl : month = 1 := by omega
      have hyear := daysBeforeYear_succ (year - 1)
      have hlast := daysBefore_twelve (year - 1)
      rw [Int.sub_add_cancel] at hyear
      rw [dif_neg hmonth]
      simp only [dayNumber, hyear, daysBefore_one]
      omega

theorem dayNumber_repeat {f : Date → Date} {n : Int} (hf : ∀ d, (f d).dayNumber = d.dayNumber + n) (d : Date)
    (k : Nat) : (Nat.repeat f k d).dayNumber = d.dayNumber + k * n := by
  induction k with
  | zero => simp [Nat.repeat]
  | succ k ih => rw [Nat.repeat, hf, ih, Int.natCast_succ, Int.add_mul, Int.one_mul, Int.add_assoc]

theorem dayNumber_shift (d : Date) (n : Int) : (d.shift n).dayNumber = d.dayNumber + n := by
  unfold shift
  split
  · rw [dayNumber_repeat dayNumber_prev]
    omega
  · rw [dayNumber_repeat dayNumber_next]
    omega

/-! ## The order of dates -/

def Before (d e : Date) : Prop :=
  d.year < e.year ∨ d.year = e.year ∧ (d.month < e.month ∨ d.month = e.month ∧ d.day < e.day)

theorem Before.dayNumber_lt {d e : Date} (h : d.Before e) : d.dayNumber < e.dayNumber := by
  obtain ⟨year, month, day, hm₁, hm₁₂, hd₁, hd⟩ := d
  obtain ⟨year', month', day', hm₁', hm₁₂', hd₁', hd'⟩ := e
  simp only [Before] at h
  simp only [dayNumber]
  rcases h with hyear | ⟨rfl, hmonth | ⟨rfl, hday⟩⟩
  · -- the date lies within its year, which ends before the other year begins
    have hyears := daysBeforeYear_add_le hyear
    have hmonths := daysBefore_add_le year hm₁ (show month < 13 by omega)
    rw [daysBefore_thirteen] at hmonths
    omega
  · have hmonths := daysBefore_add_le year hm₁ hmonth
    omega
  · omega

theorem before_or_eq_or_before (d e : Date) : d.Before e ∨ d = e ∨ e.Before d := by
  obtain ⟨year, month, day, hd⟩ := d
  obtain ⟨year', month', day', he⟩ := e
  simp only [Before, mk.injEq]
  omega

theorem dayNumber_lt_iff {d e : Date} : d.dayNumber < e.dayNumber ↔ d.Before e := by
  refine ⟨?_, Before.dayNumber_lt⟩
  intro h
  rcases before_or_eq_or_before d e with hb | rfl | hb
  · exact hb
  · omega
  · have := hb.dayNumber_lt
    omega

theorem dayNumber_inj {d e : Date} (h : d.dayNumber = e.dayNumber) : d = e := by
  rcases before_or_eq_or_before d e with hb | rfl | hb
  · have := hb.dayNumber_lt
    omega
  · rfl
  · have := hb.dayNumber_lt
    omega

/-- The number of a date is the number of days that lead to it from 1970-01-01. -/
theorem epoch_shift_eq_iff {d : Date} {n : Int} : epoch.shift n = d ↔ n = d.dayNumber := by
  have hn : (epoch.shift n).dayNumber = n := by
    rw [dayNumber_shift, show epoch.dayNumber = 0 by decide, Int.zero_add]
  refine ⟨?_, ?_⟩
  · rintro rfl
    exact hn.symm
  · rintro rfl
    exact dayNumber_inj hn

/-! ## Years along the way -/

theorem year_next (d : Date) : d.year ≤ d.next.year ∧ d.next.year ≤ d.year + 1 := by
  have hlt : d.year ≤ d.year + 1 := Int.le_add_one (Int.le_refl _)
  unfold next
  split
  · exact ⟨Int.le_refl _, hlt⟩
  · split
    · exact ⟨Int.le_refl _, hlt⟩
    · exact ⟨hlt, Int.le_refl _⟩

theorem year_prev (d : Date) : d.year - 1 ≤ d.prev.year ∧ d.prev.year ≤ d.year := by
  have hlt : d.year - 1 ≤ d.year := Int.sub_le_self _ (by decide)
  unfold prev
  split
  · exact ⟨hlt, Int.le_refl _⟩
  · split
    · exact ⟨hlt, Int.le_refl _⟩
    · exact ⟨Int.le_refl _, hlt⟩

theorem year_shift {d : Date} {n : Int} (h₀ : -1 ≤ n) (h₁ : n ≤ 1) :
    d.year - 1 ≤ (d.shift n).year ∧ (d.shift n).year ≤ d.year + 1 := by
  have hnext := d.year_next
  have hprev := d.year_prev
  obtain rfl | rfl | rfl : n = -1 ∨ n = 0 ∨ n = 1 := by omega
  · show d.year - 1 ≤ d.prev.year ∧ d.prev.year ≤ d.year + 1
    omega
  · show d.year - 1 ≤ d.year ∧ d.year ≤ d.year + 1
    omega
  · show d.year - 1 ≤ d.next.year ∧ d.next.year ≤ d.year + 1
    omega

end Date

end TypedRecords
