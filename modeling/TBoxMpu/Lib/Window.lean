import TBoxMpu.Lib.Checked
import Mathlib.Data.List.Induction

/-!
# Strings in a window of memory

A pointer is a place in a list of bytes, of which those from `lo` on may be touched. `strcpy`
goes byte by byte from the front, so that a string can be copied down over itself.
-/

namespace Window

variable {E : Type} (e : E) (lo : Nat)

def peek (mem : List UInt8) (i : Nat) : Except E UInt8 :=
  match mem[i]? with
  | some c => if lo ≤ i then .ok c else .error e
  | none => .error e

def poke (mem : List UInt8) (i : Nat) (c : UInt8) : Except E (List UInt8) :=
  if lo ≤ i ∧ i < mem.length then .ok (mem.set i c) else .error e

/-- `while (p(*s)) s++`, with a bound on the number of steps. -/
def forward (p : UInt8 → Bool) (mem : List UInt8) : Nat → Nat → Except E Nat
  | 0, _ => .error e
  | n + 1, s => do
    if p (← peek e lo mem s) then forward p mem n (s + 1) else .ok s

/-- `while (p(*(t - 1))) t--`. -/
def backward (p : UInt8 → Bool) (mem : List UInt8) : Nat → Except E Nat
  | 0 => .error e
  | t + 1 => do
    if p (← peek e lo mem t) then backward p mem t else .ok (t + 1)

def strlen (mem : List UInt8) (s : Nat) : Except E Nat := do
  let t ← forward e lo (· != 0) mem mem.length s
  .ok (t - s)

/-- `strcpy`, with a bound on the number of bytes. -/
def strcpy : Nat → List UInt8 → Nat → Nat → Except E (List UInt8)
  | 0, _, _, _ => .error e
  | n + 1, mem, dst, src => do
    let c ← peek e lo mem src
    let mem ← poke e lo mem dst c
    if c = 0 then .ok mem else strcpy n mem (dst + 1) (src + 1)

section

variable {e : E} {lo : Nat} {p : UInt8 → Bool} {pre post run w gap : List UInt8} {c d : UInt8}
  {i n : Nat}

theorem peek_append (low : lo ≤ pre.length) : peek e lo (pre ++ c :: post) pre.length = .ok c := by
  rw [peek, List.getElem?_append_right (Nat.le_refl _), Nat.sub_self]
  exact if_pos low

theorem peek_below {mem : List UInt8} (below : i < lo) : peek e lo mem i = .error e := by
  unfold peek
  split
  · exact if_neg (by omega)
  · rfl

theorem poke_append (low : lo ≤ pre.length) :
    poke e lo (pre ++ c :: post) pre.length d = .ok (pre ++ d :: post) := by
  rw [poke, if_pos ⟨low, by simp⟩, List.set_append_right _ _ (Nat.le_refl _), Nat.sub_self]
  rfl

/-- Forward over a run, to the first byte behind it. -/
theorem forward_run (low : lo ≤ pre.length) (all : ∀ b ∈ run, p b) (stop : ¬ p c)
    (enough : run.length < n) :
    forward e lo p (pre ++ run ++ c :: post) n pre.length = .ok (pre.length + run.length) := by
  induction run generalizing pre n with
  | nil =>
    obtain ⟨n, rfl⟩ := Nat.exists_eq_add_one_of_ne_zero (Nat.ne_of_gt enough)
    rw [List.append_nil, forward, peek_append low]
    exact if_neg stop
  | cons b run ih =>
    obtain ⟨first, all⟩ := List.forall_mem_cons.mp all
    cases n with
    | zero => cases enough
    | succ n =>
      have next := @ih (pre ++ [b]) n (by simp; omega) all (Nat.lt_of_succ_lt_succ enough)
      rw [List.append_assoc, List.cons_append, forward, peek_append low]
      simp only [List.append_assoc, List.length_append, List.length_singleton, List.cons_append,
        List.nil_append] at next
      refine (if_pos first).trans (next.trans ?_)
      rw [List.length_cons, Nat.add_assoc, Nat.add_comm 1]

/-- Backward over a run, to the byte behind the one it stops at. -/
theorem backward_run (low : lo ≤ pre.length) (stop : ¬ p c) (all : ∀ b ∈ run, p b) :
    backward e lo p (pre ++ c :: (run ++ post)) (pre.length + 1 + run.length) =
      .ok (pre.length + 1) := by
  induction run using List.reverseRecOn generalizing post with
  | nil =>
    rw [List.nil_append, List.length_nil, Nat.add_zero, backward, peek_append low]
    exact if_neg stop
  | append_singleton run b ih =>
    obtain ⟨all, last⟩ := List.forall_mem_append.mp all
    have read := @peek_append E e lo (pre ++ c :: run) post b (by simp; omega)
    have place : (pre ++ c :: run).length = pre.length + 1 + run.length := by
      simp
      omega
    have mem : pre ++ c :: (run ++ [b] ++ post) = pre ++ c :: run ++ b :: post := by simp
    rw [List.length_append, List.length_singleton, ← Nat.add_assoc, backward, mem, ← place, read]
    refine (if_pos (last b List.mem_cons_self)).trans ?_
    rw [place, ← mem, List.append_assoc]
    exact ih all

/-- Nothing that may be touched stops the loop. -/
theorem backward_fault (all : ∀ b ∈ run, p b) :
    backward e pre.length p (pre ++ run ++ post) (pre.length + run.length) = .error e := by
  induction run using List.reverseRecOn generalizing post with
  | nil =>
    rw [List.length_nil, Nat.add_zero]
    generalize pre ++ [] ++ post = mem
    cases pre.length with
    | zero => rfl
    | succ lo =>
      rw [backward, peek_below (Nat.lt_succ_self lo)]
      rfl
  | append_singleton run b ih =>
    obtain ⟨all, last⟩ := List.forall_mem_append.mp all
    have read := @peek_append E e pre.length (pre ++ run) post b (by simp)
    have mem : pre ++ (run ++ [b]) ++ post = pre ++ run ++ b :: post := by simp
    rw [List.length_append, List.length_singleton, ← Nat.add_assoc, backward, mem,
      ← List.length_append, read, List.length_append]
    exact (if_pos (last b List.mem_cons_self)).trans (ih all)

theorem strlen_append (low : lo ≤ pre.length) (clean : 0 ∉ w) :
    strlen e lo (pre ++ w ++ 0 :: post) pre.length = .ok w.length := by
  have all : ∀ b ∈ w, (b != 0 : Bool) := fun b mem => bne_iff_ne.mpr fun zero => clean (zero ▸ mem)
  rw [strlen, forward_run low all (by decide) (by simp; omega)]
  exact congrArg Except.ok (Nat.add_sub_cancel_left ..)

theorem strcpy_step (low : lo ≤ pre.length) :
    strcpy e lo (n + 1) (pre ++ d :: gap ++ c :: post) pre.length (pre.length + (d :: gap).length) =
      if c = 0 then .ok (pre ++ c :: gap ++ c :: post)
      else strcpy e lo n (pre ++ c :: gap ++ c :: post) (pre.length + 1)
        (pre.length + (d :: gap).length + 1) := by
  have read := @peek_append E e lo (pre ++ d :: gap) post c (by simp; omega)
  have written := @poke_append E e lo pre (gap ++ c :: post) d c low
  simp only [← List.cons_append, ← List.append_assoc] at written
  rw [strcpy, ← List.length_append, read]
  change (poke e lo (pre ++ d :: gap ++ c :: post) pre.length c >>= _) = _
  rw [written]
  rfl

/-- A string is copied down over the bytes in front of it. -/
theorem strcpy_down (low : lo ≤ pre.length) (some : gap ≠ []) (clean : 0 ∉ w)
    (enough : w.length < n) :
    ∃ post', strcpy e lo n (pre ++ gap ++ w ++ 0 :: post) pre.length (pre.length + gap.length) =
      .ok (pre ++ w ++ 0 :: post') := by
  induction w generalizing pre gap n with
  | nil =>
    obtain ⟨n, rfl⟩ := Nat.exists_eq_add_one_of_ne_zero (Nat.ne_of_gt enough)
    obtain ⟨d, gap, rfl⟩ := List.exists_cons_of_ne_nil some
    refine ⟨gap ++ 0 :: post, ?_⟩
    rw [List.append_nil, strcpy_step low, if_pos rfl, List.append_nil, List.append_assoc,
      List.cons_append]
  | cons c w ih =>
    rw [List.mem_cons, not_or] at clean
    cases n with
    | zero => cases enough
    | succ n =>
      obtain ⟨d, gap, rfl⟩ := List.exists_cons_of_ne_nil some
      -- the byte copied now belongs to what is finished, and stands in the gap once more
      obtain ⟨post', copied⟩ := @ih (pre ++ [c]) (gap ++ [c]) n (by simp; omega) (by simp) clean.2
        (Nat.lt_of_succ_lt_succ enough)
      refine ⟨post', ?_⟩
      rw [List.append_assoc _ (c :: w), List.cons_append, strcpy_step low, if_neg (Ne.symm clean.1)]
      simp only [List.append_assoc, List.length_append, List.length_singleton, List.cons_append,
        List.nil_append] at copied ⊢
      rw [← copied, List.length_cons]
      congr 1
      omega

end

end Window
