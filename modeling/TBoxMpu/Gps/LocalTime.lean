import Mathlib.Tactic.IntervalCases
import Mathlib.Tactic.Linarith
import TBoxMpu.Gps.Decode
import TBoxMpu.Lib.Calendar

/-!
# The clock set by the receiver

`gps_utc2local` adds eight hours. The date that follows is worked out by hand, with two digits for
the year, so that it is right up to the last afternoon of 2099.
-/

namespace Gps

open Calendar

/-- A time of this century, as a receiver gives it. -/
structure Utc where
  date : Date
  hour : Nat
  min : Nat
  sec : ℚ
  century : 2000 ≤ date.year ∧ date.year ≤ 2099
  inDay : hour < 24
  inHour : min < 60
  inMinute : 0 ≤ sec ∧ sec < 61

def ddmmyy (d : Date) : Nat := d.day * 10000 + d.month * 100 + (d.year - 2000)

def hhmmss (hour min : Nat) (sec : ℚ) : ℚ := hour * 10000 + min * 100 + sec

/-- Eight hours later, it is still this century. -/
def Utc.early (u : Utc) : Prop := u.hour < 16 ∨ u.date.next.year ≤ 2099

/-- Whole seconds since the first date. -/
def Utc.total (u : Utc) : Nat :=
  86400 * u.date.number + 3600 * u.hour + 60 * u.min + seconds u.sec

/-- A time of the clock is a date of the calendar and a time of day, so many seconds since the
first date. -/
def RtcTime.Shows (t : RtcTime) (total : Nat) : Prop :=
  ∃ d : Date, d.year = t.year ∧ d.month = t.mon ∧ d.day = t.mday ∧ t.hour < 24 ∧ t.min < 60 ∧
    86400 * d.number + 3600 * t.hour + 60 * t.min + t.sec = total

/-! ### The date -/

theorem ddmmyy_parts (d : Date) (century : d.year ≤ 2099) :
    ddmmyy d % 100 = d.year - 2000 ∧ ddmmyy d % 10000 / 100 = d.month ∧
      ddmmyy d / 10000 = d.day := by
  have month := d.inYear
  unfold ddmmyy
  omega

/-- The two digits tell the leap years. -/
theorem monthLength_eq {year month : Nat} (century : 2000 ≤ year ∧ year ≤ 2099)
    (inYear : 1 ≤ month ∧ month ≤ 12) :
    monthLength (year - 2000) month = monthDays year month := by
  have same : ((year - 2000) % 4 = 0 ∧ (year - 2000) % 100 ≠ 0 ∨ (year - 2000) % 400 = 0) ↔
      leap year = true := by
    simp only [leap, Bool.and_eq_true, Bool.or_eq_true, decide_eq_true_eq]
    omega
  obtain ⟨low, high⟩ := inYear
  interval_cases month <;> simp only [monthLength, monthDays, same]

/-- From 16:00 on, the local date is the date that follows. -/
theorem utc2local_late {d : Date} {time : ℚ} (century : 2000 ≤ d.year ∧ d.next.year ≤ 2099)
    (late : 160000 ≤ time) :
    gpsUtc2local (ddmmyy d) time = (ddmmyy d.next, time - 160000) := by
  have within : d.year ≤ 2099 := by
    unfold Date.next at century
    split at century
    · exact century.2
    · split at century
      · exact century.2
      · exact (Nat.le_succ _).trans century.2
  have month := d.inYear
  have day := d.inMonth
  obtain ⟨years, months, days⟩ := ddmmyy_parts d within
  have later : (240000 : ℚ) ≤ time + 80000 := by linarith
  have length := monthLength_eq ⟨century.1, within⟩ month
  have shift : time + 80000 - 240000 = time - 160000 := by ring
  unfold gpsUtc2local
  simp only [years, months, days, if_pos later, length, shift]
  by_cases inner : d.day < monthDays d.year d.month
  · have next : d.next = ⟨d.year, d.month, d.day + 1, d.inYear, by omega, inner⟩ := dif_pos inner
    have same : (d.day + 1) / (monthDays d.year d.month + 1) = 0 := Nat.div_eq_of_lt (by omega)
    have kept : (d.day + 1) % (monthDays d.year d.month + 1) = d.day + 1 :=
      Nat.mod_eq_of_lt (by omega)
    rw [next, same, kept, if_neg (by omega), if_neg (by omega)]
    rfl
  · have last : d.day = monthDays d.year d.month := by omega
    have carried : (d.day + 1) / (monthDays d.year d.month + 1) = 1 := by
      rw [last, Nat.div_self (Nat.succ_pos _)]
    have wrapped : (d.day + 1) % (monthDays d.year d.month + 1) = 0 := by
      rw [last, Nat.mod_self]
    rw [carried, wrapped, if_pos rfl]
    by_cases inside : d.month < 12
    · have next : d.next = ⟨d.year, d.month + 1, 1, by omega, le_refl _,
          monthDays_pos (by omega)⟩ := by
        rw [Date.next, dif_neg inner, dif_pos inside]
      rw [next, if_neg (by omega)]
      rfl
    · have next : d.next = ⟨d.year + 1, 1, 1, by omega, le_refl _, monthDays_pos (le_refl _)⟩ := by
        rw [Date.next, dif_neg inner, dif_neg inside]
      have two : d.year - 2000 + 1 = d.year + 1 - 2000 := by omega
      rw [next, if_pos (by omega), two]
      rfl

theorem utc2local_early {d : Date} {time : ℚ} (century : d.year ≤ 2099) (early : time < 160000) :
    gpsUtc2local (ddmmyy d) time = (ddmmyy d, time + 80000) := by
  obtain ⟨years, months, days⟩ := ddmmyy_parts d century
  have sooner : ¬ (240000 : ℚ) ≤ time + 80000 := by linarith
  unfold gpsUtc2local
  simp only [years, months, days, if_neg sooner]
  rfl

/-- The local time is a date of the calendar and a time of day, eight hours later. -/
theorem utc2local_shift {u : Utc} (early : u.early) :
    ∃ (d : Date) (hour : Nat), 2000 ≤ d.year ∧ d.year ≤ 2099 ∧ hour < 24 ∧
      gpsUtc2local (ddmmyy u.date) (hhmmss u.hour u.min u.sec) =
        (ddmmyy d, hhmmss hour u.min u.sec) ∧
      24 * d.number + hour = 24 * u.date.number + u.hour + 8 := by
  obtain ⟨date, hour, min, sec, century, inDay, inHour, positive, inMinute⟩ := u
  have minutes : (min : ℚ) ≤ 59 := by exact_mod_cast Nat.le_of_lt_succ inHour
  by_cases late : 16 ≤ hour
  · have next : date.next.year ≤ 2099 := early.resolve_left (by simpa using late)
    have after : (160000 : ℚ) ≤ hhmmss hour min sec := by
      have hours : (16 : ℚ) ≤ hour := by exact_mod_cast late
      have some : (0 : ℚ) ≤ min := Nat.cast_nonneg _
      unfold hhmmss
      linarith
    have rest : hhmmss hour min sec - 160000 = hhmmss (hour - 16 : ℕ) min sec := by
      unfold hhmmss
      rw [Nat.cast_sub late]
      push_cast
      ring
    have above : 2000 ≤ date.next.year := by
      unfold Date.next
      split
      · exact century.1
      · split
        · exact century.1
        · exact century.1.trans (Nat.le_succ _)
    refine ⟨date.next, hour - 16, above, next, by omega, ?_, ?_⟩
    · rw [utc2local_late ⟨century.1, next⟩ after, rest]
    · rw [number_next]
      show 24 * (date.number + 1) + (hour - 16) = 24 * date.number + hour + 8
      omega
  · have before : hhmmss hour min sec < 160000 := by
      have hours : (hour : ℚ) ≤ 15 := by exact_mod_cast Nat.le_of_lt_succ (not_le.mp late)
      unfold hhmmss
      linarith
    have rest : hhmmss hour min sec + 80000 = hhmmss (hour + 8 : ℕ) min sec := by
      unfold hhmmss
      push_cast
      ring
    refine ⟨date, hour + 8, century.1, century.2, by omega, ?_, ?_⟩
    · rw [utc2local_early century.2 before, rest]
    · show 24 * date.number + (hour + 8) = 24 * date.number + hour + 8
      omega

/-! ### The clock -/

theorem seconds_hhmmss (hour min : Nat) {sec : ℚ} (positive : 0 ≤ sec) :
    seconds (hhmmss hour min sec) = hour * 10000 + min * 100 + seconds sec := by
  have whole : hhmmss hour min sec = sec + (hour * 10000 + min * 100 : ℕ) := by
    unfold hhmmss
    push_cast
    ring
  have floor : ∀ time : ℚ, seconds time = ⌊time⌋₊ := fun _ => rfl
  rw [floor, floor, whole, Nat.floor_add_natCast positive, Nat.add_comm]

theorem seconds_lt {sec : ℚ} (inMinute : sec < 61) : seconds sec < 61 := by
  have floor : seconds sec = ⌊sec⌋₊ := rfl
  rw [floor]
  exact (Nat.floor_lt' (by decide)).mpr (by exact_mod_cast inMinute)

/-- What the clock is set to is eight hours later. -/
theorem rtcTime_shows {u : Utc} (early : u.early) {date : Nat} {time : ℚ}
    (same : gpsUtc2local (ddmmyy u.date) (hhmmss u.hour u.min u.sec) = (date, time)) :
    (rtcTime date time).Shows (u.total + 28800) := by
  obtain ⟨d, hour, low, high, inDay, moved, shifted⟩ := utc2local_shift early
  rw [moved] at same
  obtain ⟨rfl, rfl⟩ := Prod.mk.inj same
  have month := d.inYear
  have day := d.inMonth
  have days := monthDays_le d.year d.month
  obtain ⟨years, -, mdays⟩ := ddmmyy_parts d high
  have months : ddmmyy d / 100 % 100 = d.month := by
    unfold ddmmyy
    omega
  have minutes := u.inHour
  have secs := seconds_lt u.inMinute.2
  have shown := seconds_hhmmss hour u.min u.inMinute.1
  refine ⟨d, ?_, ?_, ?_, ?_, ?_, ?_⟩
  all_goals simp only [rtcTime, years, months, mdays, shown, Utc.total]
  all_goals omega

end Gps
