import TBoxMpu.Fota.Image
import Mathlib.Data.List.TakeWhile

/-!
# The text of image files

The lines of a file and the bytes that pairs of hex digits in them stand for.
-/

namespace Fota

/-! ### Lines -/

theorem length_cutspace (str : List UInt8) : (cutspace str).length ≤ str.length := by
  have zero := (List.takeWhile_sublist (l := str) (· != 0)).length_le
  have front := (List.dropWhile_sublist (l := str.takeWhile (· != 0)) isspace).length_le
  have back := (List.dropWhile_sublist
    (l := ((str.takeWhile (· != 0)).dropWhile isspace).reverse) isspace).length_le
  rw [cutspace, List.length_reverse]
  rw [List.length_reverse] at back
  omega

/-- No string that `fgets` returns is longer than its buffer. -/
theorem length_fgets {room left : Nat} {line bytes str : List UInt8} (pos : 0 < room)
    (fits : line.length + max left 1 ≤ room) (mem : str ∈ fgets room line left bytes) :
    str.length ≤ room := by
  induction bytes generalizing line left with
  | nil =>
    rw [fgets] at mem
    split at mem
    · cases mem
    · obtain rfl := List.mem_singleton.mp mem
      omega
  -- the line ends here, or has room for one more
  | cons c rest ih =>
    rw [fgets] at mem
    split at mem
    · rcases List.mem_cons.mp mem with rfl | later
      · rw [List.length_append, List.length_singleton]
        omega
      · exact ih (by simp; omega) later
    · refine ih ?_ mem
      rw [List.length_append, List.length_singleton]
      omega

/-! ### Hex digits -/

def hexDigit? (c : UInt8) : Option UInt8 :=
  if 0x30 ≤ c ∧ c ≤ 0x39 then some (c - 0x30)
  else if 0x41 ≤ c ∧ c ≤ 0x46 then some (c - 0x37)
  else if 0x61 ≤ c ∧ c ≤ 0x66 then some (c - 0x57)
  else none

/-- The bytes that pairs of hex digits stand for, up to the first character that is none,
and the rest of the string. -/
def hexBytes : List UInt8 → List UInt8 × List UInt8
  | hi :: lo :: rest =>
    match hexDigit? hi, hexDigit? lo with
    | some h, some l => ((h * 16 + l) :: (hexBytes rest).1, (hexBytes rest).2)
    | _, _ => ([], hi :: lo :: rest)
  | rest => ([], rest)

theorem isxdigit_iff (c : UInt8) : isxdigit c = true ↔ ∃ v, hexDigit? c = some v := by
  unfold isxdigit isdigit hexDigit?
  split
  next digit => simp [digit]
  split
  next upper => simp [upper]
  split
  next lower => simp [lower]
  next digit upper lower =>
    simp only [Bool.or_eq_true, Bool.and_eq_true, decide_eq_true_eq]
    simp [digit, upper, lower]

private theorem letter (c : UInt8) : c - 0x41 + 10 = c - 0x37 := by
  rw [UInt8.sub_eq_add_neg, UInt8.sub_eq_add_neg, UInt8.add_assoc]
  rfl

theorem hexval_eq {c v : UInt8} (h : hexDigit? c = some v) : hexval c = v := by
  unfold hexDigit? at h
  unfold hexval
  split at h
  next digit =>
    rw [isdigit, if_pos (by simp [digit])]
    exact Option.some.inj h
  next digit =>
    rw [isdigit, if_neg (by simpa using digit), toupper]
    split at h
    -- an upper-case letter is not folded
    next upper =>
      have small : ¬ (0x61 ≤ c ∧ c ≤ 0x7a) := by
        rintro ⟨ge, -⟩
        have le := upper.2
        simp only [UInt8.le_iff_toNat_le, UInt8.reduceToNat] at ge le
        omega
      rw [if_neg (by simpa using small), letter]
      exact Option.some.inj h
    split at h
    -- a lower-case one is folded to upper case first
    next lower =>
      have le : c ≤ 0x7a := by
        have le := lower.2
        simp only [UInt8.le_iff_toNat_le, UInt8.reduceToNat] at le ⊢
        omega
      have folded : c - 0x20 - 0x37 = c - 0x57 := by
        rw [UInt8.sub_eq_add_neg, UInt8.sub_eq_add_neg, UInt8.sub_eq_add_neg, UInt8.add_assoc]
        rfl
      rw [if_pos (by simp [lower.1, le]), letter, folded]
      exact Option.some.inj h
    · cases h

theorem hex2binLoop_eq (hex : List UInt8) : hex2binLoop hex = hexBytes hex := by
  induction hex using hexBytes.induct with
  | case1 hi lo rest h l lo_digit hi_digit ih =>
    have digits : (isxdigit hi && isxdigit lo) = true := by
      rw [Bool.and_eq_true, isxdigit_iff, isxdigit_iff]
      exact ⟨⟨h, hi_digit⟩, ⟨l, lo_digit⟩⟩
    rw [hex2binLoop, if_pos digits, ih, hexBytes, hi_digit, lo_digit, hexval_eq hi_digit,
      hexval_eq lo_digit]
  | case2 hi lo rest none =>
    have other : ¬ (isxdigit hi && isxdigit lo) = true := by
      rw [Bool.and_eq_true, isxdigit_iff, isxdigit_iff]
      rintro ⟨⟨h, hi_digit⟩, l, lo_digit⟩
      exact none h l hi_digit lo_digit
    rw [hex2binLoop, if_neg other, hexBytes]
    split
    next h l hi_digit lo_digit => exact absurd lo_digit (none h l hi_digit)
    · rfl
  | case3 rest short =>
    cases rest with
    | nil => rfl
    | cons c rest =>
      cases rest with
      | nil => rfl
      | cons d rest => exact absurd rfl (short c d rest)

theorem length_hexBytes (hex : List UInt8) : 2 * (hexBytes hex).1.length ≤ hex.length := by
  induction hex using hexBytes.induct with
  | case1 hi lo rest h l lo_digit hi_digit ih =>
    rw [hexBytes, hi_digit, lo_digit]
    simp only [List.length_cons]
    omega
  | case2 hi lo rest none =>
    rw [hexBytes]
    split
    next h l hi_digit lo_digit => exact absurd lo_digit (none h l hi_digit)
    · simp
  | case3 rest short =>
    rw [hexBytes]
    · simp
    · exact short

/-- The digits end where the line ends or a space stands. -/
def Ends (rest : List UInt8) : Prop := rest.headD 0 = 0 ∨ rest.headD 0 = 0x20

instance (rest : List UInt8) : Decidable (Ends rest) := inferInstanceAs (Decidable (_ ∨ _))

theorem hex2bin_eq (hex : List UInt8) : hex2bin hex =
    (if Ends (hexBytes hex).2 then ((hexBytes hex).1.length : Int) else -1, (hexBytes hex).1) := by
  have other : ((hexBytes hex).2.headD 0 ≠ 0 ∧ (hexBytes hex).2.headD 0 ≠ 0x20) ↔
      ¬ Ends (hexBytes hex).2 := not_or.symm
  rw [hex2bin, hex2binLoop_eq]
  by_cases ends : Ends (hexBytes hex).2
  · rw [if_pos ends]
    exact if_neg fun none => other.mp none ends
  · rw [if_neg ends]
    exact if_pos (other.mpr ends)

theorem hexDigit?_lt {c v : UInt8} (h : hexDigit? c = some v) :
    v.toNat < 16 ∧ (v.toNat ≤ 5 → c.toNat = 0x30 + v.toNat) := by
  unfold hexDigit? at h
  split at h
  next digit =>
    obtain rfl := Option.some.inj h
    have ge : 0x30 ≤ c.toNat := UInt8.le_iff_toNat_le.mp digit.1
    have le : c.toNat ≤ 0x39 := UInt8.le_iff_toNat_le.mp digit.2
    have value : (c - 0x30).toNat = c.toNat - 0x30 := UInt8.toNat_sub_of_le _ _ digit.1
    omega
  split at h
  next upper =>
    obtain rfl := Option.some.inj h
    have ge : 0x41 ≤ c.toNat := UInt8.le_iff_toNat_le.mp upper.1
    have le : c.toNat ≤ 0x46 := UInt8.le_iff_toNat_le.mp upper.2
    have value : (c - 0x37).toNat = c.toNat - 0x37 :=
      UInt8.toNat_sub_of_le _ _ (UInt8.le_iff_toNat_le.mpr ((by decide : 0x37 ≤ 0x41).trans ge))
    omega
  split at h
  next lower =>
    obtain rfl := Option.some.inj h
    have ge : 0x61 ≤ c.toNat := UInt8.le_iff_toNat_le.mp lower.1
    have le : c.toNat ≤ 0x66 := UInt8.le_iff_toNat_le.mp lower.2
    have value : (c - 0x57).toNat = c.toNat - 0x57 :=
      UInt8.toNat_sub_of_le _ _ (UInt8.le_iff_toNat_le.mpr ((by decide : 0x57 ≤ 0x61).trans ge))
    omega
  · cases h

/-- Each byte comes from its two digits. -/
theorem hexBytes_digits {hex : List UInt8} {i : Nat} (inside : i < (hexBytes hex).1.length) :
    ∃ h l, hexDigit? (hex.getD (2 * i) 0) = some h ∧ hexDigit? (hex.getD (2 * i + 1) 0) = some l ∧
      (hexBytes hex).1.getD i 0 = h * 16 + l := by
  induction hex using hexBytes.induct generalizing i with
  | case1 hi lo rest h l lo_digit hi_digit ih =>
    rw [hexBytes, hi_digit, lo_digit] at inside ⊢
    cases i with
    | zero => exact ⟨h, l, hi_digit, lo_digit, rfl⟩
    | succ i =>
      obtain ⟨h', l', hi', lo', value⟩ := ih (by simpa using inside)
      exact ⟨h', l', by simpa [Nat.mul_succ] using hi', by simpa [Nat.mul_succ] using lo',
        by simpa using value⟩
  | case2 hi lo rest none =>
    rw [hexBytes] at inside
    split at inside
    next h l hi_digit lo_digit => exact absurd lo_digit (none h l hi_digit)
    · simp at inside
  | case3 rest short =>
    rw [hexBytes] at inside
    · simp at inside
    · exact short

def bigEndian (bytes : List UInt8) : UInt32 :=
  bytes.foldl (fun value byte => value * 256 + byte.toUInt32) 0

end Fota
