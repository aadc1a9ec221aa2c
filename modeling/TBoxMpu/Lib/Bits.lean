import Mathlib.Data.Nat.Init
import Mathlib.Data.UInt
import Mathlib.Logic.Function.Iterate

/-!
# Bits of little-endian numbers

The number that bytes in memory make, the lowest first, and its bits; fields of bits in a word;
shifts of a 64-bit word that are defined only below its width.
-/

namespace Bits

/-! ### Bytes and their bits -/

/-- What is checked for one byte after the other. -/
theorem forall_byte {p : UInt8 → Prop} (each : ∀ i : Fin 256, p (UInt8.ofFin i)) (b : UInt8) :
    p b := by
  have this := each b.toFin
  rwa [UInt8.ofFin_toFin] at this

def leNat : List UInt8 → Nat
  | [] => 0
  | b :: bs => b.toNat + 256 * leNat bs

@[simp] theorem leNat_cons (b : UInt8) (bs : List UInt8) :
    leNat (b :: bs) = b.toNat + 256 * leNat bs := rfl

theorem leNat_lt (bytes : List UInt8) : leNat bytes < 2 ^ (8 * bytes.length) := by
  induction bytes with
  | nil => decide
  | cons b bs ih =>
    have lt := b.toNat_lt
    rw [List.length_cons, Nat.mul_succ, Nat.pow_add, leNat_cons]
    omega

/-- The lowest `k` bytes of a number. -/
def leBytes : Nat → Nat → List UInt8
  | 0, _ => []
  | k + 1, n => UInt8.ofNat n :: leBytes k (n / 256)

@[simp] theorem leBytes_length (k n : Nat) : (leBytes k n).length = k := by
  induction k generalizing n with
  | zero => rfl
  | succ k ih => rw [leBytes, List.length_cons, ih]

theorem leNat_leBytes {k n : Nat} (small : n < 256 ^ k) : leNat (leBytes k n) = n := by
  induction k generalizing n with
  | zero => exact (Nat.lt_one_iff.mp small).symm
  | succ k ih =>
    rw [Nat.pow_succ, Nat.mul_comm] at small
    rw [leBytes, leNat_cons, ih (Nat.div_lt_of_lt_mul small), UInt8.toNat_ofNat']
    exact Nat.mod_add_div n 256

theorem leNat_append (xs ys : List UInt8) :
    leNat (xs ++ ys) = leNat xs + 2 ^ (8 * xs.length) * leNat ys := by
  induction xs with
  | nil => simp [leNat]
  | cons x xs ih =>
    rw [List.cons_append, leNat_cons, leNat_cons, ih, List.length_cons, Nat.mul_succ, Nat.pow_add,
      Nat.mul_add, Nat.add_assoc, ← Nat.mul_assoc, Nat.mul_comm (2 ^ _) (2 ^ 8)]

/-- A bit of the number is a bit of one of its bytes. -/
theorem testBit_leNat (bytes : List UInt8) (n : Nat) :
    (leNat bytes).testBit n = ((bytes.getD (n / 8) 0).toNat).testBit (n % 8) := by
  induction bytes generalizing n with
  | nil => simp [leNat]
  | cons b bs ih =>
    have lt : b.toNat < 2 ^ 8 := b.toNat_lt
    have sum : leNat (b :: bs) = 2 ^ 8 * leNat bs + b.toNat := by
      rw [leNat_cons]
      omega
    rw [sum, Nat.testBit_two_pow_mul_add _ lt]
    split
    next low =>
      rw [Nat.div_eq_of_lt low, Nat.mod_eq_of_lt low]
      rfl
    next high =>
      rw [ih (n - 8), show n / 8 = (n - 8) / 8 + 1 by omega, show n % 8 = (n - 8) % 8 by omega]
      rfl

/-! ### Fields -/

/-- `size` bits from the bit `start` on. -/
theorem field_eq_ofBits (x start size : Nat) :
    x / 2 ^ start % 2 ^ size = Nat.ofBits fun i : Fin size => x.testBit (start + i) := by
  apply Nat.eq_of_testBit_eq
  intro i
  rw [Nat.testBit_mod_two_pow, Nat.testBit_div_two_pow, Nat.testBit_ofBits]
  by_cases inside : i < size
  · simp [inside, Nat.add_comm]
  · simp [inside]

/-- What a number of `size` bits means in two's complement. -/
def twosComplement (size v : Nat) : Int :=
  if v.testBit (size - 1) then (v : Int) - 2 ^ size else v

/-! ### Checked shifts -/

/-- `x << n`; it is not defined for `n` below zero or from 64 on. -/
def shl (x : UInt64) (n : Int32) : Option UInt64 :=
  if 0 ≤ n.toInt ∧ n.toInt < 64 then some (x <<< UInt64.ofNat n.toInt.toNat) else none

/-- `x >> n` -/
def shr (x : UInt64) (n : Int32) : Option UInt64 :=
  if 0 ≤ n.toInt ∧ n.toInt < 64 then some (x >>> UInt64.ofNat n.toInt.toNat) else none

variable {x : UInt64} {n : Int32} {k : Nat}

theorem shl_some (amount : n.toInt = k) (below : k < 64) :
    ∃ y, shl x n = some y ∧ y.toNat = x.toNat * 2 ^ k % 2 ^ 64 := by
  have word : k < UInt64.size := Nat.lt_trans below (by decide)
  refine ⟨x <<< UInt64.ofNat k, ?_, ?_⟩
  · unfold shl
    rw [amount, if_pos (by omega), Int.toNat_natCast]
  · rw [UInt64.toNat_shiftLeft, UInt64.toNat_ofNat_of_lt' word, Nat.mod_eq_of_lt below,
      Nat.shiftLeft_eq]

theorem shr_some (amount : n.toInt = k) (below : k < 64) :
    ∃ y, shr x n = some y ∧ y.toNat = x.toNat / 2 ^ k := by
  have word : k < UInt64.size := Nat.lt_trans below (by decide)
  refine ⟨x >>> UInt64.ofNat k, ?_, ?_⟩
  · unfold shr
    rw [amount, if_pos (by omega), Int.toNat_natCast]
  · rw [UInt64.toNat_shiftRight, UInt64.toNat_ofNat_of_lt' word, Nat.mod_eq_of_lt below,
      Nat.shiftRight_eq_div_pow]

theorem shl_none (amount : n.toInt = k) (above : 64 ≤ k) : shl x n = none := by
  unfold shl
  rw [amount, if_neg (by omega)]

/-! ### Reversed bytes -/

def rev16 (d : UInt16) : UInt16 := (d >>> 8) ||| (d <<< 8)

def rev32 (d : UInt32) : UInt32 :=
  (rev16 (d >>> 16).toUInt16).toUInt32 ||| ((rev16 d.toUInt16).toUInt32 <<< 16)

def rev64 (d : UInt64) : UInt64 :=
  (rev32 (d >>> 32).toUInt32).toUInt64 ||| ((rev32 d.toUInt32).toUInt64 <<< 32)

theorem rev16_toNat (d : UInt16) : (rev16 d).toNat = d.toNat % 256 * 256 + d.toNat / 256 := by
  have lt : d.toNat / 256 < 2 ^ 8 := by
    have lt := d.toNat_lt
    omega
  have both := Nat.two_pow_add_eq_or_of_lt lt (d.toNat % 256)
  unfold rev16
  rw [UInt16.toNat_or, UInt16.toNat_shiftRight, UInt16.toNat_shiftLeft, Nat.or_comm,
    Nat.shiftRight_eq_div_pow, Nat.shiftLeft_eq]
  have eight : (8 : UInt16).toNat % 16 = 8 := rfl
  rw [eight, show d.toNat * 2 ^ 8 % 2 ^ 16 = 2 ^ 8 * (d.toNat % 256) by omega, ← both]
  omega

theorem rev32_toNat (d : UInt32) : (rev32 d).toNat =
    (rev16 d.toUInt16).toNat * 2 ^ 16 + (rev16 (d >>> 16).toUInt16).toNat := by
  have low := (rev16 d.toUInt16).toNat_lt
  have both := Nat.two_pow_add_eq_or_of_lt (rev16 (d >>> 16).toUInt16).toNat_lt
    (rev16 d.toUInt16).toNat
  unfold rev32
  rw [UInt32.toNat_or, UInt32.toNat_shiftLeft, UInt16.toNat_toUInt32, UInt16.toNat_toUInt32,
    Nat.or_comm, Nat.shiftLeft_eq]
  have sixteen : (16 : UInt32).toNat % 32 = 16 := rfl
  rw [sixteen, Nat.mod_eq_of_lt (by omega), Nat.mul_comm, ← both]

theorem rev64_toNat (d : UInt64) : (rev64 d).toNat =
    (rev32 d.toUInt32).toNat * 2 ^ 32 + (rev32 (d >>> 32).toUInt32).toNat := by
  have low := (rev32 d.toUInt32).toNat_lt
  have both := Nat.two_pow_add_eq_or_of_lt (rev32 (d >>> 32).toUInt32).toNat_lt
    (rev32 d.toUInt32).toNat
  unfold rev64
  rw [UInt64.toNat_or, UInt64.toNat_shiftLeft, UInt32.toNat_toUInt64, UInt32.toNat_toUInt64,
    Nat.or_comm, Nat.shiftLeft_eq]
  have half : (32 : UInt64).toNat % 64 = 32 := rfl
  rw [half, Nat.mod_eq_of_lt (by omega), Nat.mul_comm, ← both]

theorem rev16_leNat {zs : List UInt8} (length : zs.length = 2) :
    (rev16 (UInt16.ofNat (leNat zs))).toNat = leNat zs.reverse := by
  match zs, length with
  | [a, b], _ =>
    have lt := a.toNat_lt
    have lt' := b.toNat_lt
    have zero : leNat [] = 0 := rfl
    simp only [List.reverse_cons, List.reverse_nil, List.nil_append, List.cons_append, leNat_cons,
      zero]
    rw [rev16_toNat, UInt16.toNat_ofNat_of_lt' (show _ < 65536 by omega)]
    omega

/-- A list of bytes as its two halves. -/
theorem exists_halves {n : Nat} {zs : List UInt8} (length : zs.length = n + n) :
    ∃ xs ys, zs = xs ++ ys ∧ xs.length = n ∧ ys.length = n := by
  refine ⟨zs.take n, zs.drop n, (List.take_append_drop n zs).symm, ?_, ?_⟩
  · rw [List.length_take]
    omega
  · rw [List.length_drop]
    omega

theorem rev32_leNat {zs : List UInt8} (length : zs.length = 4) :
    (rev32 (UInt32.ofNat (leNat zs))).toNat = leNat zs.reverse := by
  obtain ⟨xs, ys, rfl, first, second⟩ := exists_halves (n := 2) length
  have lt := leNat_lt xs
  have lt' := leNat_lt ys
  have halves := leNat_append xs ys
  rw [first] at lt halves
  rw [second] at lt'
  have word : (UInt32.ofNat (leNat (xs ++ ys))).toNat = leNat (xs ++ ys) :=
    UInt32.toNat_ofNat_of_lt' (show _ < 4294967296 by omega)
  have low : (UInt32.ofNat (leNat (xs ++ ys))).toUInt16 = UInt16.ofNat (leNat xs) := by
    rw [← UInt16.toNat_inj, UInt32.toNat_toUInt16, word, UInt16.toNat_ofNat_of_lt' lt]
    omega
  have high : (UInt32.ofNat (leNat (xs ++ ys)) >>> 16).toUInt16 = UInt16.ofNat (leNat ys) := by
    have sixteen : (16 : UInt32).toNat % 32 = 16 := rfl
    rw [← UInt16.toNat_inj, UInt32.toNat_toUInt16, UInt32.toNat_shiftRight, sixteen, word,
      Nat.shiftRight_eq_div_pow, UInt16.toNat_ofNat_of_lt' lt']
    omega
  rw [rev32_toNat, low, high, rev16_leNat first, rev16_leNat second, List.reverse_append,
    leNat_append, List.length_reverse, second]
  omega

/-- The bytes of a word in the other order. -/
theorem rev64_leNat {zs : List UInt8} (length : zs.length = 8) :
    (rev64 (UInt64.ofNat (leNat zs))).toNat = leNat zs.reverse := by
  obtain ⟨xs, ys, rfl, first, second⟩ := exists_halves (n := 4) length
  have lt := leNat_lt xs
  have lt' := leNat_lt ys
  have halves := leNat_append xs ys
  rw [first] at lt halves
  rw [second] at lt'
  have word : (UInt64.ofNat (leNat (xs ++ ys))).toNat = leNat (xs ++ ys) :=
    UInt64.toNat_ofNat_of_lt' (show _ < 18446744073709551616 by omega)
  have low : (UInt64.ofNat (leNat (xs ++ ys))).toUInt32 = UInt32.ofNat (leNat xs) := by
    rw [← UInt32.toNat_inj, UInt64.toNat_toUInt32, word, UInt32.toNat_ofNat_of_lt' lt]
    omega
  have high : (UInt64.ofNat (leNat (xs ++ ys)) >>> 32).toUInt32 = UInt32.ofNat (leNat ys) := by
    have half : (32 : UInt64).toNat % 64 = 32 := rfl
    rw [← UInt32.toNat_inj, UInt64.toNat_toUInt32, UInt64.toNat_shiftRight, half, word,
      Nat.shiftRight_eq_div_pow, UInt32.toNat_ofNat_of_lt' lt']
    omega
  rw [rev64_toNat, low, high, rev32_leNat first, rev32_leNat second, List.reverse_append,
    leNat_append, List.length_reverse, second]
  omega

end Bits
