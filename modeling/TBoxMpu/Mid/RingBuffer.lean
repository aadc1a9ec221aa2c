import TBoxMpu.Lib.Circular
import Mathlib.Data.Nat.Bitwise

/-!
# The ring buffer

`ring_buffer.c`. A ring with a size that is a power of two refines a bounded queue of
bytes: `RingBuffer.contents` is what it holds, and each operation has a lemma about it.
The positions count on past the size and wrap around at 2^32.
-/

open Circular

/-- `struct ring_buffer`; `inPos` and `outPos` are its `in` and `out`. -/
structure RingBuffer where
  buffer : List UInt8
  size : UInt32
  inPos : UInt32
  outPos : UInt32
  deriving DecidableEq

def isPowerOf2 (x : UInt32) : Bool := x != 0 && x &&& (x - 1) == 0

/-- `none` when the size is refused. -/
def rbInit (buffer : List UInt8) (size : UInt32) : Option RingBuffer :=
  if isPowerOf2 size then some ⟨buffer, size, 0, 0⟩ else none

def rbUsedLen (rb : RingBuffer) : UInt32 := rb.inPos - rb.outPos

def rbUnusedLen (rb : RingBuffer) : UInt32 := rb.size - rb.inPos + rb.outPos

def rbEmpty (rb : RingBuffer) : Bool := rb.inPos == rb.outPos

/-- The bytes read; their number is the result. -/
def rbOut (rb : RingBuffer) (size : UInt32) : List UInt8 × RingBuffer :=
  let size := min size (rb.inPos - rb.outPos)
  let bytes := read rb.buffer (rb.outPos &&& (rb.size - 1)).toNat size.toNat
  let outPos := rb.outPos + size
  (bytes, if rb.inPos = outPos then { rb with inPos := 0, outPos := 0 } else { rb with outPos })

def rbGet (rb : RingBuffer) (offset size : UInt32) : List UInt8 :=
  let out := (rb.outPos + offset) &&& (rb.size - 1)
  let size := min size (rb.inPos - out)
  read rb.buffer (out &&& (rb.size - 1)).toNat size.toNat

/-- The number of bytes stored, and the ring. -/
def rbIn (rb : RingBuffer) (buffer : List UInt8) (size : UInt32) : UInt32 × RingBuffer :=
  let size := min size (rb.size - rb.inPos + rb.outPos)
  (size, { rb with
    buffer := write rb.buffer (rb.inPos &&& (rb.size - 1)).toNat (buffer.take size.toNat)
    inPos := rb.inPos + size })

def rbClean (rb : RingBuffer) : RingBuffer :=
  ⟨List.replicate rb.size.toNat 0, rb.size, 0, 0⟩

namespace RingBuffer

/-- What the ring holds, the oldest byte first. -/
def contents (rb : RingBuffer) : List UInt8 :=
  (rb.buffer.rotate rb.outPos.toNat).take (rbUsedLen rb).toNat

/-- A ring as `rb_init` makes it and the operations keep it. -/
structure Wf (rb : RingBuffer) : Prop where
  power : ∃ k < 32, rb.size.toNat = 2 ^ k
  length : rb.buffer.length = rb.size.toNat
  used : (rbUsedLen rb).toNat ≤ rb.size.toNat

variable {rb : RingBuffer}

theorem Wf.pos (wf : rb.Wf) : 0 < rb.size.toNat := by
  obtain ⟨k, -, size⟩ := wf.power
  rw [size]
  exact Nat.two_pow_pos k

/-- Masking a position is the remainder by the size. -/
theorem Wf.mask (wf : rb.Wf) (pos : UInt32) :
    (pos &&& (rb.size - 1)).toNat = pos.toNat % rb.size.toNat := by
  obtain ⟨k, -, size⟩ := wf.power
  have positive := wf.pos
  have small := rb.size.toNat_lt
  have one : (1 : UInt32).toNat = 1 := rfl
  have mask : (rb.size - 1).toNat = 2 ^ k - 1 := by
    rw [UInt32.toNat_sub, one]
    omega
  rw [UInt32.toNat_and, mask, Nat.and_two_pow_sub_one_eq_mod, size]

/-- Positions wrap around at a multiple of the size. -/
theorem Wf.wrap (wf : rb.Wf) (n : Nat) : n % 2 ^ 32 % rb.size.toNat = n % rb.size.toNat := by
  obtain ⟨k, small, size⟩ := wf.power
  rw [size]
  exact Nat.mod_mod_of_dvd n (Nat.pow_dvd_pow 2 small.le)

theorem Wf.inPos (wf : rb.Wf) : rb.inPos.toNat % rb.size.toNat =
    (rb.outPos.toNat + (rbUsedLen rb).toNat) % rb.size.toNat := by
  have sum : rb.outPos + rbUsedLen rb = rb.inPos := by
    rw [rbUsedLen, UInt32.add_comm, UInt32.sub_add_cancel]
  rw [← wf.wrap (rb.outPos.toNat + _), ← UInt32.toNat_add, sum]

theorem Wf.length_contents (wf : rb.Wf) : rb.contents.length = (rbUsedLen rb).toNat := by
  rw [contents, List.length_take, List.length_rotate, wf.length]
  exact Nat.min_eq_left wf.used

theorem Wf.unused (wf : rb.Wf) :
    (rbUnusedLen rb).toNat = rb.size.toNat - (rbUsedLen rb).toNat := by
  have le : rbUsedLen rb ≤ rb.size := UInt32.le_iff_toNat_le.mpr wf.used
  have same : rbUnusedLen rb = rb.size - rbUsedLen rb := by
    rw [rbUnusedLen, rbUsedLen]
    grind
  rw [same, UInt32.toNat_sub_of_le _ _ le]

theorem Wf.rbEmpty_iff (wf : rb.Wf) : rbEmpty rb = true ↔ rb.contents = [] := by
  rw [← List.length_eq_zero_iff, wf.length_contents, rbEmpty, beq_iff_eq, rbUsedLen,
    UInt32.toNat_sub, ← UInt32.toNat_inj]
  have := rb.inPos.toNat_lt
  have := rb.outPos.toNat_lt
  omega

theorem toNat_min (a b : UInt32) : (min a b).toNat = min a.toNat b.toNat := by
  change (if a ≤ b then a else b).toNat = _
  split
  next le => exact (Nat.min_eq_left (UInt32.le_iff_toNat_le.mp le)).symm
  next gt => exact (Nat.min_eq_right (Nat.le_of_not_le fun le => gt (UInt32.le_iff_toNat_le.mpr le))).symm

/-- A rotation by a position does not see that the position wrapped around. -/
theorem Wf.rotate (wf : rb.Wf) {cells : List UInt8} (length : cells.length = rb.size.toNat)
    (pos : UInt32) (n : Nat) (h : pos.toNat = n % 2 ^ 32) : cells.rotate pos.toNat = cells.rotate n := by
  rw [← List.rotate_mod, ← List.rotate_mod cells n, length, h, wf.wrap]

/-- `rb_in` appends as much as there is room for. -/
theorem Wf.stored (wf : rb.Wf) {data : List UInt8} {size : UInt32} (enough : size.toNat ≤ data.length) :
    (rbIn rb data size).2.Wf ∧ (rbIn rb data size).2.size = rb.size ∧
    (rbIn rb data size).1.toNat = min size.toNat (rb.size.toNat - rb.contents.length) ∧
    (rbIn rb data size).2.contents =
      rb.contents ++ data.take (min size.toNat (rb.size.toNat - rb.contents.length)) := by
  have pos := wf.pos
  have used := wf.used
  have small := rb.size.toNat_lt
  have unused := wf.unused
  rw [rbUnusedLen] at unused
  have stored : (min size (rb.size - rb.inPos + rb.outPos)).toNat =
      min size.toNat (rb.size.toNat - rb.contents.length) := by
    rw [toNat_min, unused, wf.length_contents]
  unfold rbIn
  dsimp only
  rw [stored]
  have room : min size.toNat (rb.size.toNat - rb.contents.length) + (rbUsedLen rb).toNat ≤
      rb.size.toNat := by
    rw [wf.length_contents]
    omega
  have taken : (data.take (min size.toNat (rb.size.toNat - rb.contents.length))).length =
      min size.toNat (rb.size.toNat - rb.contents.length) := by
    rw [List.length_take]
    omega
  generalize min size (rb.size - rb.inPos + rb.outPos) = stored_size at stored ⊢
  generalize min size.toNat (rb.size.toNat - rb.contents.length) = n at stored room taken ⊢
  generalize data.take n = written at taken ⊢
  rw [wf.mask, wf.inPos]
  -- the bytes in use and those stored together
  have used_next : (rb.inPos + stored_size - rb.outPos).toNat = (rbUsedLen rb).toNat + n := by
    have same : rb.inPos + stored_size - rb.outPos = rbUsedLen rb + stored_size := by
      rw [rbUsedLen]
      grind
    rw [same, UInt32.toNat_add, stored]
    omega
  have inside : (rb.outPos.toNat + (rbUsedLen rb).toNat) % rb.size.toNat ≤ rb.buffer.length := by
    rw [wf.length]
    exact (Nat.mod_lt _ pos).le
  have length := length_write inside (by rw [taken, wf.length]; omega : written.length ≤ _)
  refine ⟨⟨wf.power, length.trans wf.length, ?_⟩, rfl, rfl, ?_⟩
  · rw [rbUsedLen, used_next]
    dsimp only
    omega
  · have fits : (rbUsedLen rb).toNat + written.length ≤ rb.buffer.length := by
      rw [taken, wf.length]
      omega
    have kept := take_rotate_write rb.outPos.toNat (by rw [wf.length]; exact pos) fits
    rw [wf.length, taken] at kept
    rw [contents, rbUsedLen, used_next]
    exact kept

/-- `rb_out` takes the oldest bytes. -/
theorem Wf.taken (wf : rb.Wf) (size : UInt32) :
    (rbOut rb size).2.Wf ∧ (rbOut rb size).2.size = rb.size ∧
    (rbOut rb size).1 = rb.contents.take size.toNat ∧
    (rbOut rb size).2.contents = rb.contents.drop size.toNat := by
  have pos := wf.pos
  have used := wf.used
  have taken : (min size (rb.inPos - rb.outPos)).toNat = min size.toNat (rbUsedLen rb).toNat :=
    toNat_min _ _
  unfold rbOut
  dsimp only
  generalize min size (rb.inPos - rb.outPos) = n at taken ⊢
  have first : read rb.buffer (rb.outPos &&& (rb.size - 1)).toNat n.toNat =
      rb.contents.take size.toNat := by
    rw [wf.mask, read_eq (by rw [wf.length]; exact Nat.mod_lt _ pos) (by rw [wf.length]; omega),
      contents, List.take_take, ← wf.length, List.rotate_mod, taken]
  have next : (rb.inPos - (rb.outPos + n)).toNat = (rbUsedLen rb).toNat - n.toNat := by
    have same : rb.inPos - (rb.outPos + n) = rbUsedLen rb - n := by
      rw [rbUsedLen]
      grind
    rw [same, UInt32.toNat_sub_of_le _ _ (UInt32.le_iff_toNat_le.mpr (by omega))]
  have length := wf.length_contents
  split
  next emptied =>
    -- the positions start again at zero
    have all : n.toNat = (rbUsedLen rb).toNat := by
      rw [emptied, UInt32.sub_self] at next
      have zero : (0 : UInt32).toNat = 0 := rfl
      omega
    refine ⟨⟨wf.power, wf.length, by simp [rbUsedLen]⟩, rfl, first, ?_⟩
    rw [List.drop_of_length_le (by omega)]
    simp [contents, rbUsedLen]
  next left =>
    refine ⟨⟨wf.power, wf.length, ?_⟩, rfl, first, ?_⟩
    · rw [rbUsedLen, next]
      dsimp only
      omega
    · have moved : rb.buffer.rotate (rb.outPos + n).toNat =
          rb.buffer.rotate (rb.outPos.toNat + n.toNat) :=
        wf.rotate wf.length _ _ (UInt32.toNat_add ..)
      have dropped : rb.contents.drop size.toNat = rb.contents.drop n.toNat := by
        rcases Nat.le_total size.toNat (rbUsedLen rb).toNat with le | le
        · rw [taken, Nat.min_eq_left le]
        · rw [taken, Nat.min_eq_right le, List.drop_of_length_le (by omega),
            List.drop_of_length_le (by omega)]
      rw [dropped, contents, contents, rbUsedLen, next]
      dsimp only
      rw [moved]
      exact (drop_take_rotate _ (by omega) (by rw [wf.length]; omega)).symm

/-- Reading nothing leaves a ring that holds something as it was. -/
theorem Wf.taken_none (wf : rb.Wf) {size : UInt32} (holds : rb.contents ≠ [])
    (none : (rbOut rb size).1 = []) : (rbOut rb size).2 = rb := by
  have used : rb.inPos ≠ rb.outPos := by
    have empty := wf.rbEmpty_iff.not.mpr holds
    simpa [rbEmpty] using empty
  rw [(wf.taken size).2.2.1, List.take_eq_nil_iff] at none
  have zero : size = 0 := UInt32.toNat_inj.mp (none.resolve_right holds)
  have nothing : min size (rb.inPos - rb.outPos) = 0 := by
    rw [zero]
    exact if_pos (UInt32.le_iff_toNat_le.mpr (Nat.zero_le _))
  unfold rbOut
  dsimp only
  rw [nothing, UInt32.add_zero, if_neg used]

theorem Wf.cleaned (wf : rb.Wf) : (rbClean rb).Wf ∧ (rbClean rb).size = rb.size ∧
    (rbClean rb).contents = [] := by
  refine ⟨⟨wf.power, ?_, ?_⟩, rfl, ?_⟩
  · exact List.length_replicate
  · simp [rbClean, rbUsedLen]
  · simp [contents, rbClean, rbUsedLen]

/-- From a ring that was just cleaned, `rb_get` reads at the offset. -/
theorem Wf.peeked (wf : rb.Wf) (start : rb.outPos = 0) {offset : UInt32} (size : UInt32)
    (inside : offset.toNat < rb.contents.length) :
    rbGet rb offset size = (rb.contents.drop offset.toNat).take size.toNat := by
  have length := wf.length_contents
  have used := wf.used
  have moved : rb.outPos + offset = offset := by rw [start, UInt32.zero_add]
  have small : offset.toNat < rb.size.toNat := by omega
  have mask : (offset &&& (rb.size - 1)).toNat = offset.toNat := by
    rw [wf.mask, Nat.mod_eq_of_lt small]
  have mask' : offset &&& (rb.size - 1) = offset := UInt32.toNat_inj.mp mask
  have left : (rb.inPos - offset).toNat = (rbUsedLen rb).toNat - offset.toNat := by
    have same : rb.inPos - offset = rbUsedLen rb - offset := by
      rw [rbUsedLen, start]
      grind
    rw [same, UInt32.toNat_sub_of_le _ _ (UInt32.le_iff_toNat_le.mpr (by omega))]
  have view : rb.contents = rb.buffer.take (rbUsedLen rb).toNat := by
    rw [contents, start]
    exact congrArg (List.take _) (List.rotate_zero rb.buffer)
  have cells := wf.length
  unfold rbGet
  dsimp only
  rw [moved, mask', mask', toNat_min, left, read_eq (by omega) (by omega),
    List.rotate_eq_drop_append_take (by omega),
    List.take_append_of_le_length (by rw [List.length_drop]; omega), view, List.drop_take,
    List.take_take]

end RingBuffer
