import Mathlib.Data.Nat.Basic

/-!
# Calendar

Gregorian dates, their number, and the date that follows.
-/

namespace Calendar

def leap (year : Nat) : Bool := year % 4 = 0 && (year % 100 ≠ 0 || year % 400 = 0)

def yearDays (year : Nat) : Nat := if leap year then 366 else 365

def monthDays (year : Nat) : Nat → Nat
  | 2 => if leap year then 29 else 28
  | 4 | 6 | 9 | 11 => 30
  | 0 => 0
  | _ => 31

/-- A date of the calendar. -/
structure Date where
  year : Nat
  month : Nat
  day : Nat
  inYear : 1 ≤ month ∧ month ≤ 12
  inMonth : 1 ≤ day ∧ day ≤ monthDays year month
  deriving DecidableEq

/-- The days of the years before. -/
def yearStart : Nat → Nat
  | 0 => 0
  | year + 1 => yearStart year + yearDays year

/-- The days of the months before. -/
def monthStart (year : Nat) : Nat → Nat
  | 0 => 0
  | month + 1 => monthStart year month + monthDays year month

/-- Dates counted from the first one. -/
def Date.number (d : Date) : Nat := yearStart d.year + monthStart d.year d.month + d.day

theorem monthDays_pos {year month : Nat} (some : 1 ≤ month) : 1 ≤ monthDays year month := by
  unfold monthDays
  split
  · split <;> decide
  all_goals omega

theorem monthDays_le (year month : Nat) : monthDays year month ≤ 31 := by
  unfold monthDays
  split
  · split <;> decide
  all_goals omega

/-- The date behind the last day of a month, or the day behind. -/
def Date.next (d : Date) : Date :=
  if within : d.day < monthDays d.year d.month then
    ⟨d.year, d.month, d.day + 1, d.inYear, by omega, within⟩
  else if inside : d.month < 12 then
    ⟨d.year, d.month + 1, 1, by have := d.inYear; omega, le_refl _, monthDays_pos (by omega)⟩
  else
    ⟨d.year + 1, 1, 1, by omega, le_refl _, monthDays_pos (le_refl _)⟩

/-- The months make up the year. -/
theorem monthStart_last (year : Nat) :
    monthStart year 12 + monthDays year 12 = yearDays year := by
  simp only [monthStart, monthDays, yearDays]
  split <;> rfl

theorem number_next (d : Date) : d.next.number = d.number + 1 := by
  have low := d.inMonth
  have year := d.inYear
  unfold Date.next
  split
  · rfl
  next last =>
    have full : d.day = monthDays d.year d.month := by omega
    split
    · simp only [Date.number, monthStart, full]
      omega
    next final =>
      have december : d.month = 12 := by omega
      have whole := monthStart_last d.year
      have start : monthStart (d.year + 1) 1 = 0 := rfl
      rw [december] at full
      simp only [Date.number, yearStart, start, december, full]
      omega

end Calendar
