import Mathlib.Data.List.Rotate

/-!
# Circular buffers

A cell array read and written around its end in two pieces. Seen from a position, the
array is its rotation, so that a read is a prefix of the rotation and a write replaces
one.
-/

namespace Circular

variable {α : Type}

/-- The cells from `pos` on replaced by `data`. -/
def overwrite (cells : List α) (pos : Nat) (data : List α) : List α :=
  cells.take pos ++ data ++ cells.drop (pos + data.length)

/-- `n` cells from `pos` on, those behind the end read at the beginning. -/
def read (cells : List α) (pos n : Nat) : List α :=
  let len := min n (cells.length - pos)
  (cells.drop pos).take len ++ cells.take (n - len)

/-- The cells after `data` was written from `pos` on. -/
def write (cells : List α) (pos : Nat) (data : List α) : List α :=
  let len := min data.length (cells.length - pos)
  overwrite (overwrite cells pos (data.take len)) 0 (data.drop len)

theorem length_overwrite {cells data : List α} {pos : Nat}
    (fits : pos + data.length ≤ cells.length) :
    (overwrite cells pos data).length = cells.length := by
  simp only [overwrite, List.length_append, List.length_take, List.length_drop]
  omega

theorem length_write {cells data : List α} {pos : Nat} (inside : pos ≤ cells.length)
    (fits : data.length ≤ cells.length) : (write cells pos data).length = cells.length := by
  have first : (overwrite cells pos (data.take (min data.length (cells.length - pos)))).length =
      cells.length := by
    apply length_overwrite
    rw [List.length_take]
    omega
  rw [write, length_overwrite, first]
  rw [first, List.length_drop]
  omega

/-- A read is a prefix of the rotated array. -/
theorem read_eq {cells : List α} {pos n : Nat} (inside : pos < cells.length)
    (fits : n ≤ cells.length) : read cells pos n = (cells.rotate pos).take n := by
  rw [List.rotate_eq_drop_append_take inside.le, List.take_append, List.length_drop,
    List.take_take, read]
  congr 1
  · rcases Nat.le_total n (cells.length - pos) with le | le
    · rw [Nat.min_eq_left le]
    · rw [Nat.min_eq_right le, List.take_of_length_le, List.take_of_length_le]
      · rw [List.length_drop]; exact le
      · rw [List.length_drop]
  · congr 1
    omega

theorem overwrite_append (front back data : List α) :
    overwrite (front ++ back) front.length data = front ++ data ++ back.drop data.length := by
  simp [overwrite, List.drop_append]

theorem write_append {front back data : List α} (fits : data.length ≤ back.length) :
    write (front ++ back) front.length data = front ++ data ++ back.drop data.length := by
  have len : min data.length ((front ++ back).length - front.length) = data.length := by
    simp [fits]
  rw [write]
  simp only [len, List.take_length, List.drop_length]
  rw [overwrite_append]
  simp [overwrite]

theorem write_around {front back data rest : List α} (piece : data.length = back.length)
    (fits : rest.length ≤ front.length) :
    write (front ++ back) front.length (data ++ rest) = rest ++ front.drop rest.length ++ data := by
  have len : min (data ++ rest).length ((front ++ back).length - front.length) = data.length := by
    simp [piece]
  rw [write]
  simp only [len, List.take_left, List.drop_left]
  rw [overwrite_append, piece, List.drop_length, List.append_nil, overwrite]
  simp [List.drop_append_of_le_length fits]

/-- A write replaces a prefix of the rotated array. -/
theorem rotate_write {cells data : List α} {pos : Nat} (inside : pos ≤ cells.length)
    (fits : data.length ≤ cells.length) :
    (write cells pos data).rotate pos = data ++ (cells.rotate pos).drop data.length := by
  obtain ⟨front, back, rfl, rfl⟩ : ∃ front back, cells = front ++ back ∧ pos = front.length :=
    ⟨cells.take pos, cells.drop pos, (List.take_append_drop pos cells).symm, by simp [inside]⟩
  rw [List.rotate_append_length_eq]
  rcases Nat.le_total data.length back.length with le | le
  · -- the write ends before the array does
    rw [write_append le, List.append_assoc, List.rotate_append_length_eq,
      List.drop_append_of_le_length le, List.append_assoc]
  · -- the write goes on at the beginning
    obtain ⟨first, rest, rfl, piece⟩ :
        ∃ first rest, data = first ++ rest ∧ first.length = back.length :=
      ⟨data.take back.length, data.drop back.length, (List.take_append_drop _ _).symm,
        by simp [le]⟩
    have small : rest.length ≤ front.length := by
      simp only [List.length_append] at fits
      omega
    have start : (rest ++ front.drop rest.length).length = front.length := by
      rw [List.length_append, List.length_drop]
      omega
    have skip : (back ++ front).drop (first ++ rest).length = front.drop rest.length := by
      rw [List.length_append, piece, ← List.drop_drop, List.drop_left]
    rw [write_around piece small, ← start, List.rotate_append_length_eq, skip, List.append_assoc]

/-- What lies in the array from `out` on is kept by a write behind it. -/
theorem take_rotate_write {cells data : List α} (out : Nat) {used : Nat} (pos : 0 < cells.length)
    (fits : used + data.length ≤ cells.length) :
    ((write cells ((out + used) % cells.length) data).rotate out).take (used + data.length) =
      (cells.rotate out).take used ++ data := by
  have inside : (out + used) % cells.length < cells.length := Nat.mod_lt _ pos
  have length := length_write inside.le (by omega : data.length ≤ cells.length)
  have written := rotate_write inside.le (by omega : data.length ≤ cells.length)
  -- seen from `out`, the write begins behind the bytes in use
  generalize write cells ((out + used) % cells.length) data = next at length written ⊢
  rw [← length, List.rotate_mod, length, List.rotate_mod, ← List.rotate_rotate,
    ← List.rotate_rotate] at written
  have old : (cells.rotate out).length = cells.length := List.length_rotate ..
  have new : (next.rotate out).length = cells.length := (List.length_rotate ..).trans length
  generalize cells.rotate out = before at old written ⊢
  generalize next.rotate out = after at new written ⊢
  rw [List.rotate_eq_drop_append_take (by omega), List.rotate_eq_drop_append_take (by omega),
    List.drop_append_of_le_length (by rw [List.length_drop]; omega), ← List.append_assoc] at written
  obtain ⟨behind, kept⟩ := List.append_inj' written (by simp only [List.length_take]; omega)
  rw [List.take_add, kept, behind, List.take_left]

/-- Behind the first `n` cells in use, the others are seen from `n` cells on. -/
theorem drop_take_rotate {cells : List α} (out : Nat) {used n : Nat} (within : n ≤ used)
    (fits : used ≤ cells.length) :
    ((cells.rotate out).take used).drop n = (cells.rotate (out + n)).take (used - n) := by
  have rotated : (cells.rotate out).length = cells.length := List.length_rotate ..
  rw [← List.rotate_rotate]
  generalize cells.rotate out = seen at rotated ⊢
  rw [List.rotate_eq_drop_append_take (by omega), List.drop_take,
    List.take_append_of_le_length (by rw [List.length_drop]; omega)]

end Circular
