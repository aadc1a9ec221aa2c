import Mathlib.Data.List.Basic

/-!
# Blocks of a memory, changed in place

A memory is a function of the address. `run` changes one block after the other, each by a
function of its own cells; the blocks do not meet, so that what a block becomes depends on what
it was before, and changes that undo each other block by block undo each other as a whole.

A chain of steps with a parameter each is undone by the chain of what undoes them, the other
way round.
-/

namespace Blocks

variable {β : Type} {size : Nat}

/-- The function reads only the first `size` cells of what it is given. -/
def Reads (size : Nat) (f : (Nat → β) → Nat → β) : Prop :=
  ∀ a b : Nat → β, (∀ i < size, a i = b i) → ∀ i < size, f a i = f b i

/-- The block of `size` cells from `s` on. -/
def patch (size : Nat) (f : (Nat → β) → Nat → β) (mem : Nat → β) (s : Nat) : Nat → β := fun k =>
  if s ≤ k ∧ k < s + size then f (fun i => mem (s + i)) (k - s) else mem k

/-- The `n` blocks from `s` on. -/
def run (size : Nat) (f : (Nat → β) → Nat → β) (n : Nat) (mem : Nat → β) (s : Nat) : Nat → β :=
  (List.range n).foldl (fun mem k => patch size f mem (s + size * k)) mem

variable {f g : (Nat → β) → Nat → β} {mem : Nat → β} {s n k i : Nat}

theorem patch_outside (outside : k < s ∨ s + size ≤ k) : patch size f mem s k = mem k := by
  rw [patch, if_neg]
  omega

theorem patch_inside (inside : i < size) :
    patch size f mem s (s + i) = f (fun i => mem (s + i)) i := by
  rw [patch, if_pos (by omega), Nat.add_sub_cancel_left]

theorem run_succ (size : Nat) (f : (Nat → β) → Nat → β) (n : Nat) (mem : Nat → β) (s : Nat) :
    run size f (n + 1) mem s = patch size f (run size f n mem s) (s + size * n) := by
  rw [run, List.range_succ, List.foldl_append]
  rfl

theorem run_outside (outside : k < s ∨ s + size * n ≤ k) : run size f n mem s k = mem k := by
  induction n with
  | zero => rfl
  | succ n ih =>
    rw [Nat.mul_succ] at outside
    rw [run_succ, patch_outside (by omega)]
    exact ih (by omega)

/-- A block becomes what the function makes of it as it was. -/
theorem run_inside (reads : Reads size f) (block : k < n) (inside : i < size) :
    run size f n mem s (s + size * k + i) = f (fun i => mem (s + size * k + i)) i := by
  induction n with
  | zero => exact absurd block (Nat.not_lt_zero k)
  | succ n ih =>
    rw [run_succ]
    by_cases last : k = n
    · subst last
      rw [patch_inside inside]
      -- the blocks before leave this one alone
      exact reads _ _ (fun j _ => run_outside (by omega)) i inside
    · have before : size * (k + 1) ≤ size * n := Nat.mul_le_mul_left size (by omega)
      rw [Nat.mul_succ] at before
      rw [patch_outside (by omega)]
      exact ih (by omega)

/-- Blocks that are changed, lie elsewhere, and are changed back there. -/
theorem run_undo_moved (reads : Reads size f) (back : Reads size g)
    (undo : ∀ a, ∀ i < size, g (f a) i = a i) {n : Nat} {mem mem' : Nat → β} {s s' : Nat}
    (moved : ∀ d < size * n, mem' (s' + d) = run size f n mem s (s + d)) {d : Nat}
    (inside : d < size * n) : run size g n mem' s' (s' + d) = mem (s + d) := by
  have some : 0 < size := Nat.pos_of_ne_zero fun zero => by
    rw [zero, Nat.zero_mul] at inside
    omega
  have block : d / size < n := Nat.div_lt_of_lt_mul inside
  have rest : d % size < size := Nat.mod_lt _ some
  have whole : size * (d / size + 1) ≤ size * n := Nat.mul_le_mul_left size block
  rw [Nat.mul_succ] at whole
  have window : ∀ i < size, mem' (s' + size * (d / size) + i) =
      f (fun i => mem (s + size * (d / size) + i)) i := by
    intro i fits
    rw [Nat.add_assoc, moved _ (by omega), ← Nat.add_assoc, run_inside reads block fits]
  rw [← Nat.div_add_mod d size, ← Nat.add_assoc, ← Nat.add_assoc, run_inside back block rest,
    back _ _ window _ rest, undo _ _ rest]

/-- Blocks that are changed and changed back. -/
theorem run_undo (reads : Reads size f) (back : Reads size g)
    (undo : ∀ a, ∀ i < size, g (f a) i = a i) (n : Nat) (mem : Nat → β) (s : Nat) :
    run size g n (run size f n mem s) s = mem := by
  funext p
  by_cases inside : s ≤ p ∧ p < s + size * n
  · obtain ⟨d, rfl⟩ := Nat.exists_eq_add_of_le inside.1
    exact run_undo_moved reads back undo (fun _ _ => rfl) (by omega)
  · rw [run_outside (by omega), run_outside (by omega)]

/-! ### Chains of steps -/

theorem foldl_undo {S K : Type} {step back : S → K → S} (undo : ∀ s k, back (step s k) k = s)
    (s : S) (ks : List K) : ks.reverse.foldl back (ks.foldl step s) = s := by
  induction ks generalizing s with
  | nil => rfl
  | cons k ks ih =>
    rw [List.foldl_cons, List.reverse_cons, List.foldl_append, ih, List.foldl_cons, undo]
    rfl

end Blocks
