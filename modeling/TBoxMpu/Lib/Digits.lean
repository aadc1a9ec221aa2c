import Mathlib.Data.Nat.Init
import Mathlib.Data.UInt

/-!
# Digits in a word

A word of `n` places of `k` bits each, the first digit in the highest place. Putting digits
together and taking a word apart are inverse to each other, also for a word whose last places are
empty.
-/

namespace Digits

/-- The word that has `ds` in the first of its `n` places. -/
def join (k : Nat) : Nat → List Nat → Nat
  | n + 1, d :: ds => d * 2 ^ (k * n) + join k n ds
  | _, _ => 0

/-- The first `m` of `n` digits of a word. -/
def split (k : Nat) : Nat → Nat → Nat → List Nat
  | n + 1, m + 1, w => w / 2 ^ (k * n) % 2 ^ k :: split k n m w
  | _, _, _ => []

variable {k n m d w : Nat} {ds : List Nat}

@[simp] theorem join_nil (k n : Nat) : join k n [] = 0 := by
  cases n <;> rfl

@[simp] theorem length_split (k n m w : Nat) : (split k n m w).length = min n m := by
  induction n generalizing m with
  | zero => simp [split]
  | succ n ih =>
    cases m with
    | zero => rfl
    | succ m => rw [split, List.length_cons, ih, Nat.succ_min_succ]

theorem split_eq_map (fits : m ≤ n) :
    split k n m w = (List.range m).map fun j => w / 2 ^ (k * (n - 1 - j)) % 2 ^ k := by
  induction n generalizing m with
  | zero =>
    obtain rfl := Nat.le_zero.mp fits
    rfl
  | succ n ih =>
    cases m with
    | zero => rfl
    | succ m =>
      rw [split, ih (Nat.le_of_succ_le_succ fits), List.range_succ_eq_map, List.map_cons,
        List.map_map]
      congr 1
      apply List.map_congr_left
      intro j mem
      have below := List.mem_range.mp mem
      show _ = w / 2 ^ (k * (n + 1 - 1 - (j + 1))) % 2 ^ k
      rw [show n + 1 - 1 - (j + 1) = n - 1 - j by omega]

theorem split_lt (mem : d ∈ split k n m w) : d < 2 ^ k := by
  induction n generalizing m with
  | zero => cases mem
  | succ n ih =>
    cases m with
    | zero => cases mem
    | succ m =>
      rcases List.mem_cons.mp mem with rfl | later
      · exact Nat.mod_lt _ (Nat.two_pow_pos k)
      · exact ih later

theorem join_lt (small : ∀ d ∈ ds, d < 2 ^ k) : join k n ds < 2 ^ (k * n) := by
  induction n generalizing ds with
  | zero => exact Nat.two_pow_pos _
  | succ n ih =>
    cases ds with
    | nil => exact Nat.two_pow_pos _
    | cons d ds =>
      have rest := ih fun x mem => small x (List.mem_cons_of_mem d mem)
      have first := Nat.mul_le_mul_right (2 ^ (k * n)) (small d List.mem_cons_self)
      rw [join, Nat.mul_succ, Nat.pow_add, Nat.mul_comm (2 ^ (k * n))]
      rw [Nat.succ_mul] at first
      omega

/-- The places behind the digits are empty. -/
theorem join_mod (k n : Nat) (ds : List Nat) : join k n ds % 2 ^ (k * (n - ds.length)) = 0 := by
  induction n generalizing ds with
  | zero => simp [join]
  | succ n ih =>
    cases ds with
    | nil => simp [join]
    | cons d ds =>
      have above : 2 ^ (k * (n - ds.length)) ∣ d * 2 ^ (k * n) :=
        Nat.dvd_mul_left_of_dvd
          (Nat.pow_dvd_pow 2 (Nat.mul_le_mul_left k (Nat.sub_le n ds.length))) d
      rw [join, List.length_cons, Nat.succ_sub_succ, Nat.add_mod, ih,
        Nat.mod_eq_zero_of_dvd above]
      rfl

/-- Only the lowest `n` places are taken apart. -/
theorem split_mod (k n m w : Nat) : split k n m (w % 2 ^ (k * n)) = split k n m w := by
  have digit : ∀ {i j : Nat}, i < j →
      w % 2 ^ (k * j) / 2 ^ (k * i) % 2 ^ k = w / 2 ^ (k * i) % 2 ^ k := by
    intro i j below
    have higher : k * i + k ≤ k * j := by
      rw [← Nat.mul_succ]
      exact Nat.mul_le_mul_left k below
    have apart : 2 ^ (k * j) = 2 ^ (k * i) * 2 ^ (k * j - k * i) := by
      rw [← Nat.pow_add, Nat.add_sub_cancel' (Nat.le_of_add_right_le higher)]
    rw [apart, Nat.mod_mul_right_div_self]
    exact Nat.mod_mod_of_dvd _ (Nat.pow_dvd_pow 2 (by omega))
  have places : ∀ {i j m : Nat}, i ≤ j → split k i m (w % 2 ^ (k * j)) = split k i m w := by
    intro i
    induction i with
    | zero => intros; rfl
    | succ i ih =>
      intro j m below
      cases m with
      | zero => rfl
      | succ m => rw [split, split, digit below, ih (Nat.le_of_lt below)]
  exact places (Nat.le_refl n)

/-- The digits of a word are those it was put together from. -/
theorem split_join (small : ∀ d ∈ ds, d < 2 ^ k) (fits : ds.length ≤ n) :
    split k n ds.length (join k n ds) = ds := by
  induction n generalizing ds with
  | zero =>
    obtain rfl := List.eq_nil_of_length_eq_zero (Nat.le_zero.mp fits)
    rfl
  | succ n ih =>
    cases ds with
    | nil => rfl
    | cons d ds =>
      have later : ∀ x ∈ ds, x < 2 ^ k := fun x mem => small x (List.mem_cons_of_mem d mem)
      have rest : join k n ds < 2 ^ (k * n) := join_lt later
      have first : (d * 2 ^ (k * n) + join k n ds) / 2 ^ (k * n) = d := by
        rw [Nat.mul_comm, Nat.mul_add_div (Nat.two_pow_pos _), Nat.div_eq_of_lt rest, Nat.add_zero]
      have others : (d * 2 ^ (k * n) + join k n ds) % 2 ^ (k * n) = join k n ds := by
        rw [Nat.mul_comm, Nat.mul_add_mod, Nat.mod_eq_of_lt rest]
      rw [join, List.length_cons, split, first, Nat.mod_eq_of_lt (small d List.mem_cons_self),
        ← split_mod, others, ih later (Nat.le_of_succ_le_succ fits)]

/-- The first digits of a word make the word, if nothing stands behind them. -/
theorem join_split (small : w < 2 ^ (k * n)) (fits : m ≤ n)
    (empty : w % 2 ^ (k * (n - m)) = 0) : join k n (split k n m w) = w := by
  induction n generalizing m w with
  | zero =>
    rw [Nat.mul_zero, Nat.pow_zero, Nat.lt_one_iff] at small
    rw [small]
    rfl
  | succ n ih =>
    cases m with
    | zero =>
      rw [Nat.sub_zero, Nat.mod_eq_of_lt small] at empty
      rw [empty]
      rfl
    | succ m =>
      have digit : w / 2 ^ (k * n) < 2 ^ k := by
        rw [Nat.mul_succ, Nat.pow_add] at small
        exact Nat.div_lt_of_lt_mul small
      have behind : w % 2 ^ (k * n) % 2 ^ (k * (n - m)) = 0 := by
        rw [Nat.mod_mod_of_dvd _ (Nat.pow_dvd_pow 2 (Nat.mul_le_mul_left k (Nat.sub_le n m)))]
        rwa [Nat.succ_sub_succ] at empty
      have rest := ih (Nat.mod_lt w (Nat.two_pow_pos (k * n))) (Nat.le_of_succ_le_succ fits) behind
      rw [split, join, Nat.mod_eq_of_lt digit, ← split_mod, rest, Nat.mul_comm]
      exact Nat.div_add_mod w (2 ^ (k * n))

/-- A digit is put into an empty place with a bitwise or. -/
theorem or_place {u p : Nat} (small : d < 2 ^ k) (empty : u % 2 ^ (p + k) = 0) :
    u ||| d * 2 ^ p = u + d * 2 ^ p := by
  have lt : d * 2 ^ p < 2 ^ (p + k) := by
    rw [Nat.pow_add, Nat.mul_comm]
    exact Nat.mul_lt_mul_of_pos_left small (Nat.two_pow_pos p)
  obtain ⟨q, rfl⟩ := Nat.dvd_of_mod_eq_zero empty
  exact (Nat.two_pow_add_eq_or_of_lt lt q).symm

end Digits
