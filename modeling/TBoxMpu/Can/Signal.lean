import Mathlib.Data.List.GetD
import Mathlib.Data.Nat.Bitwise
import TBoxMpu.Can.Dbc
import TBoxMpu.Lib.Bits

/-!
# The value of a signal in a frame

`dbc_can_callback` takes a signal's bits from the eight bytes of a frame by shifts of 64-bit words.

`rawval_iff`: for a signal that `dbc_sig_overflow` accepts these are the bits of its field, with its
sign, and every shift is defined, if and only if the signal has fewer than 64 bits.
-/

namespace Can

open Bits

/-! ### The extraction -/

/-- `CAN_MSG.Data` -/
abbrev FrameData := Fin 8 → UInt8

/-- `rawbit`: the eight bytes in the memory of a little-endian machine. -/
def rawbit (data : FrameData) : UInt64 := UInt64.ofNat (leNat (List.ofFn data))

/-- `(bits >> start) & ((1ULL << size) - 1)` -/
def maskedBits (bits : UInt64) (start size : Int32) : Option UInt64 :=
  (shr bits start).bind fun shifted => (shl 1 size).map fun top => shifted &&& (top - 1)

/-- The bits above a negative value are set. -/
def signExtend (sign : UInt8) (size : Int32) (rawval : UInt64) : Option UInt64 :=
  if sign = 0x2D then  -- '-'
    (shl 1 (size - 1)).bind fun top =>
      if rawval &&& top ≠ 0 then (shl (-1) size).map fun ones => rawval ||| ones
      else some rawval
  else some rawval

/-- `rawval` of a signal; `none` where a shift is not defined. -/
def dbcRawval (order sign : UInt8) (start size : Int32) (data : FrameData) : Option Int64 :=
  ((if order = 0x31 then maskedBits (rawbit data) start size  -- '1'
    else maskedBits (rev64 (rawbit data)) (57 - (start &&& ~~~7) + (start &&& 7) - size) size).bind
      (signExtend sign size)).map UInt64.toInt64

/-! ### The field of a signal -/

/-- The bit `n` of a frame: `n % 8` of the byte `n / 8`, the lowest bit of a byte first. -/
def frameBit (data : FrameData) (n : Nat) : Bool :=
  (data (Fin.ofNat 8 (n / 8))).toNat.testBit (n % 8)

/-- An Intel signal goes up from its lowest bit. -/
def intelField (data : FrameData) (start size : Nat) : Nat :=
  Nat.ofBits fun i : Fin size => frameBit data (start + i)

/-- Down a byte, then to the highest bit of the next one. -/
def motorolaNext (n : Nat) : Nat := if n % 8 = 0 then n + 15 else n - 1

/-- A Motorola signal goes down from its highest bit. -/
def motorolaField (data : FrameData) (start size : Nat) : Nat :=
  Nat.ofBits fun i : Fin size => frameBit data (motorolaNext^[size - 1 - i] start)

/-- The raw value that a DBC file means with a byte order, a sign, a start bit and a size. -/
def fieldValue (order sign : UInt8) (start size : Nat) (data : FrameData) : Int :=
  let v := if order = 0x31 then intelField data start size else motorolaField data start size
  if sign = 0x2D then twosComplement size v else v

/-! ### The bits of the words -/

theorem rawbit_toNat (data : FrameData) : (rawbit data).toNat = leNat (List.ofFn data) := by
  have lt := leNat_lt (List.ofFn data)
  rw [List.length_ofFn] at lt
  exact UInt64.toNat_ofNat_of_lt' (show _ < 18446744073709551616 by omega)

theorem rawbit_testBit (data : FrameData) {n : Nat} (below : n < 64) :
    (rawbit data).toNat.testBit n = frameBit data n := by
  have inside : n / 8 < (List.ofFn data).length := by
    rw [List.length_ofFn]
    omega
  rw [rawbit_toNat, testBit_leNat, List.getD_eq_getElem _ _ inside, List.getElem_ofFn]
  unfold frameBit
  refine congrArg (fun i => (data i).toNat.testBit (n % 8)) ?_
  exact Fin.ext (Nat.mod_eq_of_lt (by omega)).symm

/-- The place of a bit from the end of the frame, the bytes one after the other. -/
def fromEnd (n : Nat) : Nat := 56 - 8 * (n / 8) + n % 8

theorem fromEnd_lt {n : Nat} (below : n < 64) : fromEnd n < 64 := by
  unfold fromEnd
  omega

theorem revbit_testBit (data : FrameData) {n : Nat} (below : n < 64) :
    (rev64 (rawbit data)).toNat.testBit (fromEnd n) = frameBit data n := by
  have length : (List.ofFn data).length = 8 := List.length_ofFn
  have place : fromEnd n / 8 = 7 - n / 8 := by
    unfold fromEnd
    omega
  have bit : fromEnd n % 8 = n % 8 := by
    unfold fromEnd
    omega
  have inside : fromEnd n / 8 < (List.ofFn data).reverse.length := by
    rw [List.length_reverse, length]
    omega
  unfold rawbit
  rw [rev64_leNat length, testBit_leNat, List.getD_eq_getElem _ _ inside, List.getElem_reverse,
    List.getElem_ofFn, bit]
  unfold frameBit
  refine congrArg (fun i => (data i).toNat.testBit (n % 8)) (Fin.ext ?_)
  dsimp only
  rw [length, place, Fin.val_ofNat]
  omega

/-- Going down a Motorola signal is going down from the end of the frame. -/
theorem fromEnd_iterate {n k : Nat} (below : n < 64) (room : k ≤ fromEnd n) :
    motorolaNext^[k] n < 64 ∧ fromEnd (motorolaNext^[k] n) = fromEnd n - k := by
  induction k with
  | zero => exact ⟨below, rfl⟩
  | succ k ih =>
    obtain ⟨inside, place⟩ := ih (by omega)
    rw [Function.iterate_succ_apply']
    generalize motorolaNext^[k] n = m at *
    unfold motorolaNext fromEnd at *
    split <;> omega

/-! ### Signals that are accepted -/

/-- What the loader's check lets through, in natural numbers. -/
structure Accepted (order : UInt8) (start size : Int32) (n k : Nat) : Prop where
  start : start = Int32.ofNat n
  size : size.toInt = k
  inside : n < 64
  some : 1 ≤ k
  most : k ≤ 64
  fits : (order = 0x31 ∧ n + k ≤ 64) ∨ (order = 0x30 ∧ k ≤ fromEnd n + 1)

/-- The arithmetic of `int` on the start bits there are. -/
theorem start_table : ∀ n : Fin 64,
    (Int32.ofNat n >>> 3 * 16 + 7 - Int32.ofNat n).toInt = 64 - (fromEnd n + 1 : Nat) ∧
    (57 - (Int32.ofNat n &&& ~~~7) + (Int32.ofNat n &&& 7)).toInt = (fromEnd n + 1 : Nat) := by
  decide

theorem toInt_32 {a : Int} (low : -2147483648 ≤ a) (high : a < 2147483648) :
    a.bmod (2 ^ 32) = a :=
  Int.bmod_eq_of_le (by omega) (by omega)

/-- The four tests of the loader's check, one after the other. -/
theorem sigOverflow_cases {order : UInt8} {start size : Int32}
    (accepted : dbcSigOverflow order start size = false) :
    (0 < size.toInt ∧ size.toInt ≤ 64 ∧ 0 ≤ start.toInt ∧ start.toInt < 64) ∧
    (order = 0x30 ∨ order = 0x31) ∧ (order = 0x31 → (start + size).toInt ≤ 64) ∧
    (order = 0x30 → ((start >>> 3) * 16 + 7 - start + size).toInt ≤ 64) := by
  have zero : (0 : Int32).toInt = 0 := rfl
  have word : (64 : Int32).toInt = 64 := rfl
  unfold dbcSigOverflow at accepted
  split at accepted
  · cases accepted
  next range =>
    split at accepted
    · cases accepted
    next orders =>
      split at accepted
      · cases accepted
      next intel =>
        split at accepted
        · cases accepted
        next motorola =>
          simp only [Int32.le_iff_toInt_le, Int32.lt_iff_toInt_lt, gt_iff_lt, ge_iff_le, zero,
            word] at range intel motorola
          refine ⟨by omega, ?_, fun is => ?_, fun is => ?_⟩
          · by_cases is : order = 0x30
            · exact .inl is
            · exact .inr (Decidable.not_not.mp fun other => orders ⟨is, other⟩)
          · exact Int.not_lt.mp fun above => intel ⟨is, above⟩
          · exact Int.not_lt.mp fun above => motorola ⟨is, above⟩

theorem sigOverflow_false {order : UInt8} {start size : Int32}
    (accepted : dbcSigOverflow order start size = false) :
    ∃ n k, Accepted order start size n k := by
  obtain ⟨⟨some, most, least, inside⟩, orders, intel, motorola⟩ := sigOverflow_cases accepted
  obtain ⟨n, place⟩ := Int.eq_ofNat_of_zero_le least
  obtain ⟨k, length⟩ := Int.eq_ofNat_of_zero_le (Int.le_of_lt some)
  have below : n < 64 := by omega
  have start_eq : start = Int32.ofNat n := by
    rw [← Int32.toInt_inj, place, Int32.toInt_ofNat_of_lt (by omega)]
  refine ⟨n, k, start_eq, length, below, by omega, by omega, ?_⟩
  rcases orders with is | is
  · right
    have fits := motorola is
    have table := (start_table ⟨n, below⟩).1
    have last := fromEnd_lt below
    dsimp only at table
    rw [start_eq, Int32.toInt_add, table, length, toInt_32 (by omega) (by omega)] at fits
    exact ⟨is, by omega⟩
  · left
    have fits := intel is
    rw [Int32.toInt_add, place, length, toInt_32 (by omega) (by omega)] at fits
    exact ⟨is, by omega⟩

/-! ### Below 64 bits -/

theorem maskedBits_some (bits : UInt64) {start size : Int32} {n k : Nat} (place : start.toInt = n)
    (length : size.toInt = k) (inside : n < 64) (below : k < 64) :
    ∃ y, maskedBits bits start size = some y ∧ y.toNat = bits.toNat / 2 ^ n % 2 ^ k := by
  obtain ⟨shifted, down, value⟩ := shr_some (x := bits) place inside
  obtain ⟨top, up, power⟩ := shl_some (x := 1) length below
  refine ⟨shifted &&& (top - 1), ?_, ?_⟩
  · unfold maskedBits
    rw [down, up]
    rfl
  · have small : 2 ^ k < 2 ^ 64 := Nat.pow_lt_pow_right (by decide) below
    have one : (1 : UInt64).toNat = 1 := rfl
    rw [one, Nat.one_mul, Nat.mod_eq_of_lt small] at power
    have mask : (top - 1).toNat = 2 ^ k - 1 := by
      rw [UInt64.toNat_sub_of_le, power, one]
      rw [UInt64.le_iff_toNat_le, power, one]
      exact Nat.one_le_two_pow
    rw [UInt64.toNat_and, mask, value, Nat.and_two_pow_sub_one_eq_mod]

theorem toInt64_toInt (x : UInt64) : x.toInt64.toInt = (x.toNat : Int).bmod (2 ^ 64) := by
  rw [← Int64.toInt_toBitVec, UInt64.toBitVec_toInt64, BitVec.toInt_eq_toNat_bmod]
  rfl

/-- Bits of a small number above which all bits are set. -/
theorem or_ones {v k : Nat} (small : v < 2 ^ k) (below : k < 64) :
    v ||| (2 ^ 64 - 2 ^ k) = v + (2 ^ 64 - 2 ^ k) := by
  have ones : 2 ^ 64 - 2 ^ k = 2 ^ k * (2 ^ (64 - k) - 1) := by
    rw [Nat.mul_sub, ← Nat.pow_add, Nat.mul_one, show k + (64 - k) = 64 by omega]
  rw [ones, Nat.or_comm, ← Nat.two_pow_add_eq_or_of_lt small, Nat.add_comm]

theorem signExtend_some (sign : UInt8) {size : Int32} {rawval : UInt64} {k : Nat}
    (length : size.toInt = k) (some : 1 ≤ k) (below : k < 64) (small : rawval.toNat < 2 ^ k) :
    ∃ y, signExtend sign size rawval = .some y ∧
      y.toInt64.toInt = if sign = 0x2D then twosComplement k rawval.toNat else rawval.toNat := by
  have power : 2 ^ k ≤ 2 ^ 63 := Nat.pow_le_pow_right (by decide) (by omega)
  have unsigned : rawval.toInt64.toInt = rawval.toNat := by
    rw [toInt64_toInt]
    exact Int.bmod_eq_of_le (by omega) (by omega)
  unfold signExtend
  by_cases minus : sign = 0x2D
  · have before : (size - 1).toInt = (k - 1 : Nat) := by
      have one : (1 : Int32).toInt = 1 := rfl
      rw [Int32.toInt_sub, length, one, toInt_32 (by omega) (by omega)]
      omega
    -- the highest bit of the field, and the ones from the field's end on
    obtain ⟨top, up, high⟩ := shl_some (x := 1) before (by omega)
    obtain ⟨ones, all, above⟩ := shl_some (x := -1) length below
    have one : (1 : UInt64).toNat = 1 := rfl
    have full : (-1 : UInt64).toNat = 2 ^ 64 - 1 := rfl
    have half : 2 ^ (k - 1) < 2 ^ 64 := Nat.pow_lt_pow_right (by decide) (by omega)
    have least : 1 ≤ 2 ^ k := Nat.one_le_two_pow
    rw [one, Nat.one_mul, Nat.mod_eq_of_lt half] at high
    have upper : ones.toNat = 2 ^ 64 - 2 ^ k := by
      rw [above, full]
      omega
    have tested : rawval &&& top ≠ 0 ↔ rawval.toNat.testBit (k - 1) = true := by
      rw [Ne, ← UInt64.toNat_inj, UInt64.toNat_and, high, Nat.and_two_pow]
      cases rawval.toNat.testBit (k - 1) <;> simp
    rw [if_pos minus, if_pos minus, up]
    unfold twosComplement
    by_cases negative : rawval.toNat.testBit (k - 1) = true
    · refine ⟨rawval ||| ones, ?_, ?_⟩
      · change (if rawval &&& top ≠ 0 then _ else _) = _
        rw [if_pos (tested.mpr negative), all]
        rfl
      · rw [if_pos negative, toInt64_toInt, UInt64.toNat_or, upper, or_ones small below]
        have cast : ((2 ^ k : Nat) : Int) = 2 ^ k := Int.natCast_pow 2 k
        have value : ((rawval.toNat + (2 ^ 64 - 2 ^ k) : Nat) : Int) =
            (rawval.toNat - 2 ^ k : Int) + (2 ^ 64 : Nat) := by omega
        rw [value, Int.add_bmod_right]
        exact Int.bmod_eq_of_le (by omega) (by omega)
    · refine ⟨rawval, ?_, ?_⟩
      · change (if rawval &&& top ≠ 0 then _ else _) = _
        rw [if_neg (mt tested.mp negative)]
      · rw [if_neg negative, unsigned]
  · rw [if_neg minus, if_neg minus]
    exact ⟨rawval, rfl, unsigned⟩

theorem intelField_eq (data : FrameData) {n k : Nat} (fits : n + k ≤ 64) :
    (rawbit data).toNat / 2 ^ n % 2 ^ k = intelField data n k := by
  rw [field_eq_ofBits]
  unfold intelField
  refine congrArg Nat.ofBits (funext fun i => ?_)
  have lt := i.isLt
  exact rawbit_testBit data (by omega)

theorem motorolaField_eq (data : FrameData) {n k : Nat} (inside : n < 64)
    (fits : k ≤ fromEnd n + 1) :
    (rev64 (rawbit data)).toNat / 2 ^ (fromEnd n + 1 - k) % 2 ^ k = motorolaField data n k := by
  rw [field_eq_ofBits]
  unfold motorolaField
  refine congrArg Nat.ofBits (funext fun i => ?_)
  have lt := i.isLt
  obtain ⟨below, place⟩ := fromEnd_iterate (k := k - 1 - i) inside (by omega)
  rw [← revbit_testBit data below, place]
  congr 1
  omega

/-- Below 64 bits the extraction is defined and gives the field. -/
theorem rawval_some {order : UInt8} {start size : Int32} {n k : Nat}
    (accepted : Accepted order start size n k) (below : k < 64) (sign : UInt8)
    (data : FrameData) : (dbcRawval order sign start size data).map Int64.toInt =
      some (fieldValue order sign n k data) := by
  have taken : ∃ y, (if order = 0x31 then maskedBits (rawbit data) start size
      else maskedBits (rev64 (rawbit data)) (57 - (start &&& ~~~7) + (start &&& 7) - size) size) =
        some y ∧
      y.toNat = (if order = 0x31 then intelField data n k else motorolaField data n k) := by
    rcases accepted.fits with ⟨is, fits⟩ | ⟨is, fits⟩
    · have place : start.toInt = n := by
        rw [accepted.start, Int32.toInt_ofNat_of_lt (Nat.lt_trans accepted.inside (by decide))]
      obtain ⟨y, masked, value⟩ := maskedBits_some (rawbit data) place accepted.size
        accepted.inside below
      rw [if_pos is, if_pos is]
      exact ⟨y, masked, value.trans (intelField_eq data fits)⟩
    · have place : (57 - (start &&& ~~~7) + (start &&& 7) - size).toInt =
          (fromEnd n + 1 - k : Nat) := by
        have table := (start_table ⟨n, accepted.inside⟩).2
        have last := fromEnd_lt accepted.inside
        have most := accepted.most
        dsimp only at table
        rw [accepted.start, Int32.toInt_sub, table, accepted.size,
          toInt_32 (by omega) (by omega)]
        omega
      have last := fromEnd_lt accepted.inside
      have some := accepted.some
      have other : order ≠ 0x31 := by
        rw [is]
        decide
      obtain ⟨y, masked, value⟩ := maskedBits_some (rev64 (rawbit data)) place
        accepted.size (by omega) below
      rw [if_neg other, if_neg other]
      exact ⟨y, masked, value.trans (motorolaField_eq data accepted.inside fits)⟩
  obtain ⟨y, masked, value⟩ := taken
  have small : y.toNat < 2 ^ k := by
    rw [value]
    split
    · exact Nat.ofBits_lt_two_pow _
    · exact Nat.ofBits_lt_two_pow _
  obtain ⟨z, extended, signed⟩ := signExtend_some sign accepted.size accepted.some below
    small
  unfold dbcRawval
  rw [masked, Option.bind_some, extended, Option.map_some, Option.map_some, signed, value]
  rfl

/-- With 64 bits the mask is shifted by 64. -/
theorem maskedBits_none {bits : UInt64} {start size : Int32} (length : size.toInt = (64 : Nat)) :
    maskedBits bits start size = none := by
  unfold maskedBits
  rw [shl_none length (Nat.le_refl 64)]
  cases shr bits start <;> rfl

/-- For every signal that the loader's check accepts and every frame, the raw value is the field
that the DBC file means, and all shifts are by 0 to 63, if and only if the signal has fewer than 64
bits. -/
theorem rawval_iff (order sign : UInt8) (start size : Int32) (data : FrameData)
    (accepted : dbcSigOverflow order start size = false) :
    (dbcRawval order sign start size data).map Int64.toInt =
      some (fieldValue order sign start.toInt.toNat size.toInt.toNat data) ↔ size.toInt < 64 := by
  obtain ⟨n, k, all⟩ := sigOverflow_false accepted
  have place : start.toInt = n := by
    rw [all.start, Int32.toInt_ofNat_of_lt (Nat.lt_trans all.inside (by decide))]
  rw [place, all.size, Int.toNat_natCast, Int.toNat_natCast]
  by_cases below : k < 64
  · exact iff_of_true (rawval_some all below sign data) (by omega)
  · have length : size.toInt = (64 : Nat) := by
      rw [all.size, Nat.le_antisymm all.most (Nat.not_lt.mp below)]
    refine iff_of_false ?_ (by omega)
    unfold dbcRawval
    rw [maskedBits_none length, maskedBits_none length]
    split <;> nofun

/-- Sixteen bits of a Motorola signal, the highest ones of the frame. -/
theorem rawval_motorola :
    (dbcRawval 0x30 0x2D 7 16 fun i => UInt8.ofNat (0xff - i.val)).map Int64.toInt =
      some (fieldValue 0x30 0x2D 7 16 fun i => UInt8.ofNat (0xff - i.val)) :=
  (rawval_iff 0x30 0x2D 7 16 (fun i => UInt8.ofNat (0xff - i.val)) (by decide)).mpr (by decide)

/-- A signal of 64 bits is accepted, and shifts by 64. -/
theorem rawval_whole : dbcSigOverflow 0x31 0 64 = false ∧
    dbcRawval 0x31 0x2B 0 64 (fun _ => 1) = none ∧
    fieldValue 0x31 0x2B 0 64 (fun _ => 1) = 0x0101010101010101 := by
  refine ⟨by decide, by decide, by decide⟩

end Can
