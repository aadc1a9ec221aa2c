import Mathlib.Data.List.Basic
import Mathlib.Data.UInt

/-!
# A flat memory

Values in one memory whose addresses are machine words. What is written is read back, and what
lies apart from it is as it was.
-/

namespace Flat

variable {α : Type}

def read (mem : UInt32 → α) (off : UInt32) (n : Nat) : List α :=
  (List.range n).map fun i => mem (off + .ofNat i)

def write (mem : UInt32 → α) (off : UInt32) (data : List α) : UInt32 → α :=
  fun k => data[(k - off).toNat]?.getD (mem k)

variable {mem : UInt32 → α} {off off' : UInt32} {data : List α} {n : Nat}

@[simp] theorem read_length (mem : UInt32 → α) (off : UInt32) (n : Nat) :
    (read mem off n).length = n := by
  rw [read, List.length_map, List.length_range]

theorem read_write (fits : data.length ≤ 2 ^ 32) :
    read (write mem off data) off data.length = data := by
  apply List.ext_getElem (read_length _ _ _)
  intro i _ inside
  have place : (off + .ofNat i - off).toNat = i := by
    rw [UInt32.toNat_sub, UInt32.toNat_add, UInt32.toNat_ofNat']
    have small := off.toNat_lt
    omega
  simp only [read, write, List.getElem_map, List.getElem_range, place,
    List.getElem?_eq_getElem inside, Option.getD_some]

/-- The `n` cells at `off'` lie apart from as many at `off` as the data has. -/
theorem read_write_apart (apart : ∀ i < n, data.length ≤ (off' + .ofNat i - off).toNat) :
    read (write mem off data) off' n = read mem off' n := by
  refine List.map_congr_left fun i mem' => ?_
  have outside := List.getElem?_eq_none (apart i (List.mem_range.mp mem'))
  rw [write, outside, Option.getD_none]

theorem read_write_other (first : off.toNat + data.length ≤ 2 ^ 32)
    (second : off'.toNat + n ≤ 2 ^ 32)
    (apart : off.toNat + data.length ≤ off'.toNat ∨ off'.toNat + n ≤ off.toNat) :
    read (write mem off data) off' n = read mem off' n := by
  refine read_write_apart fun i inside => ?_
  rw [UInt32.toNat_sub, UInt32.toNat_add, UInt32.toNat_ofNat']
  omega

end Flat
