import Mathlib.Data.List.Basic
import Mathlib.Data.List.TakeWhile

/-!
# Checked computations

Computations in `Except E` that look at a stretch of memory and stop with a fault where they
leave it. `Safe` says that no check failed; each operation has one lemma that says when it, and
what follows it, is safe.
-/

namespace Checked

variable {E α β : Type}

/-- No check failed. -/
def Safe (x : Except E α) : Prop :=
  ∃ a, x = .ok a

def need (e : E) (c : Prop) [Decidable c] : Except E Unit :=
  if c then .ok () else .error e

/-- A difference that must not go below zero. -/
def minus (e : E) (a b : Nat) : Except E Nat :=
  if b ≤ a then .ok (a - b) else .error e

/-- The element `i` of the first `size` ones. -/
def fetch (e : E) (mem : Nat → β) (size i : Nat) : Except E β :=
  if i < size then .ok (mem i) else .error e

/-- The `n` elements from `i` on. -/
def stretch (mem : Nat → β) (i n : Nat) : List β :=
  (List.range n).map fun k => mem (i + k)

def fetchAll (e : E) (mem : Nat → β) (size i n : Nat) : Except E (List β) :=
  if i + n ≤ size then .ok (stretch mem i n) else .error e

/-- The string up to the first zero. -/
def cString [DecidableEq β] [Zero β] (bytes : List β) : List β :=
  bytes.takeWhile (· ≠ 0)

/-- `strncpy`: the elements from `i` on up to a zero, filled up with zeros to `n`. -/
def fetchString [DecidableEq β] [Zero β] (e : E) (mem : Nat → β) (size : Nat) :
    Nat → Nat → Except E (List β)
  | _, 0 => .ok []
  | i, n + 1 => do
    let b ← fetch e mem size i
    if b = 0 then .ok (List.replicate (n + 1) 0)
    else do
      let rest ← fetchString e mem size (i + 1) n
      .ok (b :: rest)

@[simp] theorem stretch_length (mem : Nat → β) (i n : Nat) : (stretch mem i n).length = n := by
  simp [stretch]

theorem stretch_succ (mem : Nat → β) (i n : Nat) :
    stretch mem i (n + 1) = mem i :: stretch mem (i + 1) n := by
  simp [stretch, List.range_succ_eq_map, Nat.add_assoc, Nat.add_comm 1]

/-- A stretch of the memory that a list fills. -/
theorem stretch_getD (cells : List β) (rest : β) {i n : Nat} (inside : i + n ≤ cells.length) :
    stretch (fun k => cells.getD k rest) i n = (cells.drop i).take n := by
  apply List.ext_getElem
  · rw [stretch_length, List.length_take, List.length_drop]
    omega
  · intro k short _
    rw [stretch_length] at short
    have at_k : i + k < cells.length := by omega
    simp [stretch, at_k]

theorem stretch_congr {mem mem' : Nat → β} {a a' n : Nat}
    (same : ∀ i < n, mem (a + i) = mem' (a' + i)) : stretch mem a n = stretch mem' a' n :=
  List.map_congr_left fun i inside => same i (List.mem_range.mp inside)

/-- A string that is followed by its end. -/
theorem cString_of_end [DecidableEq β] [Zero β] {text : List β} (none : 0 ∉ text)
    (rest : List β) : cString (text ++ 0 :: rest) = text := by
  have all : ∀ b ∈ text, decide (b ≠ 0) = true := by
    intro b mem
    exact decide_eq_true fun zero => none (zero ▸ mem)
  rw [cString, List.takeWhile_append_of_pos all]
  simp

/-- The end of a string that is found in time. -/
theorem exists_end [DecidableEq β] [Zero β] {bytes text : List β} (string : cString bytes = text)
    (short : text.length < bytes.length) : ∃ rest, bytes = text ++ 0 :: rest := by
  induction bytes generalizing text with
  | nil => exact absurd short (Nat.not_lt_zero _)
  | cons b bytes ih =>
    by_cases zero : b = 0
    · subst zero
      have empty : text = [] := by rw [← string]; simp [cString]
      exact ⟨bytes, by rw [empty, List.nil_append]⟩
    · have longer : cString (b :: bytes) = b :: cString bytes := by simp [cString, zero]
      rw [longer] at string
      subst string
      obtain ⟨rest, split⟩ := ih rfl (Nat.lt_of_succ_lt_succ short)
      exact ⟨rest, by rw [List.cons_append, ← split]⟩

theorem cString_length_le [DecidableEq β] [Zero β] (bytes : List β) :
    (cString bytes).length ≤ bytes.length :=
  (List.takeWhile_prefix _).length_le

/-- A string without zero is its own. -/
theorem cString_length_iff [DecidableEq β] [Zero β] (bytes : List β) :
    (cString bytes).length = bytes.length ↔ 0 ∉ bytes := by
  constructor
  · intro whole zero
    have same : cString bytes = bytes := (List.takeWhile_prefix _).eq_of_length whole
    rw [← same, cString] at zero
    simpa using List.mem_takeWhile_imp zero
  · intro none
    rw [cString, List.takeWhile_eq_self_iff.mpr]
    intro b mem
    exact decide_eq_true fun eq => none (eq ▸ mem)

@[simp] theorem safe_ok (a : α) : Safe (.ok a : Except E α) :=
  ⟨a, rfl⟩

@[simp] theorem not_safe_error (e : E) : ¬ Safe (.error e : Except E α) :=
  fun ⟨_, eq⟩ => nomatch eq

@[simp] theorem safe_ok_bind {a : α} {f : α → Except E β} :
    Safe ((.ok a : Except E α) >>= f) ↔ Safe (f a) :=
  Iff.rfl

theorem safe_bind_iff {x : Except E α} {f : α → Except E β} :
    Safe (x >>= f) ↔ ∃ a, x = .ok a ∧ Safe (f a) := by
  cases x with
  | error e => exact ⟨fun h => absurd h (not_safe_error e), fun ⟨_, eq, _⟩ => nomatch eq⟩
  | ok a => exact ⟨fun h => ⟨a, rfl, h⟩, fun ⟨_, eq, h⟩ => by cases eq; exact h⟩

theorem bind_ok_iff {x : Except E α} {f : α → Except E β} {b : β} :
    x >>= f = .ok b ↔ ∃ a, x = .ok a ∧ f a = .ok b := by
  cases x with
  | error e => exact ⟨fun h => (nomatch h), fun ⟨_, eq, _⟩ => (nomatch eq)⟩
  | ok a => exact ⟨fun h => ⟨a, rfl, h⟩, fun ⟨_, eq, h⟩ => by cases eq; exact h⟩

/-- What follows is safe under a condition that does not depend on what is passed on. -/
theorem safe_bind_and {x : Except E α} {f : α → Except E β} {P : Prop}
    (follows : ∀ a, Safe (f a) ↔ P) : Safe (x >>= f) ↔ Safe x ∧ P := by
  rw [safe_bind_iff]
  exact ⟨fun ⟨a, eq, safe⟩ => ⟨⟨a, eq⟩, (follows a).mp safe⟩,
    fun ⟨⟨a, eq⟩, safe⟩ => ⟨a, eq, (follows a).mpr safe⟩⟩

theorem safe_mapM {f : α → Except E β} {as : List α} :
    Safe (as.mapM f) ↔ ∀ a ∈ as, Safe (f a) := by
  induction as with
  | nil => simp [pure, Except.pure]
  | cons a as ih =>
    rw [List.mapM_cons, safe_bind_iff, List.forall_mem_cons, ← ih]
    constructor
    · rintro ⟨b, first, rest⟩
      obtain ⟨bs, others, -⟩ := safe_bind_iff.mp rest
      exact ⟨⟨b, first⟩, ⟨bs, others⟩⟩
    · rintro ⟨⟨b, first⟩, ⟨bs, others⟩⟩
      exact ⟨b, first, safe_bind_iff.mpr ⟨bs, others, ⟨b :: bs, rfl⟩⟩⟩

/-- Every round of a loop is safe, whatever the rounds before it leave. -/
theorem safe_foldlM {f : β → α → Except E β} {as : List α} {s : β}
    (each : ∀ s, ∀ a ∈ as, Safe (f s a)) : Safe (as.foldlM f s) := by
  induction as generalizing s with
  | nil => exact ⟨s, rfl⟩
  | cons a as ih =>
    obtain ⟨t, first⟩ := each s a List.mem_cons_self
    rw [List.foldlM_cons, first]
    exact ih fun s b mem => each s b (List.mem_cons_of_mem a mem)

/-- A check that yields `a` where `c` holds and a fault elsewhere. -/
theorem safe_check_bind {c : Prop} [Decidable c] {a : α} {e : E} {f : α → Except E β} :
    Safe ((if c then .ok a else .error e : Except E α) >>= f) ↔ c ∧ Safe (f a) := by
  by_cases holds : c
  · rw [if_pos holds]
    exact (and_iff_right holds).symm
  · rw [if_neg holds]
    exact ⟨fun h => absurd h (not_safe_error e), fun h => absurd h.1 holds⟩

@[simp] theorem safe_need_bind {c : Prop} [Decidable c] {e : E} {f : Unit → Except E β} :
    Safe (need e c >>= f) ↔ c ∧ Safe (f ()) :=
  safe_check_bind

@[simp] theorem safe_minus_bind {a b : Nat} {e : E} {f : Nat → Except E β} :
    Safe (minus e a b >>= f) ↔ b ≤ a ∧ Safe (f (a - b)) :=
  safe_check_bind

@[simp] theorem safe_fetch_bind {mem : Nat → α} {size i : Nat} {e : E} {f : α → Except E β} :
    Safe (fetch e mem size i >>= f) ↔ i < size ∧ Safe (f (mem i)) :=
  safe_check_bind

@[simp] theorem safe_fetchAll_bind {mem : Nat → α} {size i n : Nat} {e : E}
    {f : List α → Except E β} : Safe (fetchAll e mem size i n >>= f) ↔
      i + n ≤ size ∧ Safe (f (stretch mem i n)) :=
  safe_check_bind

theorem safe_ite {c : Prop} [Decidable c] {x y : Except E α} :
    Safe (if c then x else y) ↔ (c → Safe x) ∧ (¬ c → Safe y) := by
  by_cases holds : c <;> simp [holds]

/-- What follows is safe whatever is passed on. -/
theorem safe_bind_of {x : Except E α} {f : α → Except E β} (safe : ∀ a, Safe (f a)) :
    Safe (x >>= f) ↔ Safe x := by
  rw [safe_bind_iff]
  exact ⟨fun ⟨a, eq, _⟩ => ⟨a, eq⟩, fun ⟨a, eq⟩ => ⟨a, eq, safe a⟩⟩

/-- A string is read inside if it ends inside or is cut there. -/
theorem safe_fetchString [DecidableEq β] [Zero β] {e : E} {mem : Nat → β} {size i n : Nat}
    (inside : i ≤ size) : Safe (fetchString e mem size i n) ↔
      i + n ≤ size ∨ ∃ k, i ≤ k ∧ k < size ∧ k < i + n ∧ mem k = 0 := by
  induction n generalizing i with
  | zero => simp [fetchString, inside]
  | succ n ih =>
    rw [fetchString, safe_fetch_bind, safe_ite]
    by_cases zero : mem i = 0
    · simp only [zero, not_true, false_implies, and_true, true_implies, safe_ok]
      refine ⟨fun at_i => .inr ⟨i, Nat.le_refl i, at_i, by omega, zero⟩, ?_⟩
      rintro (fits | ⟨k, low, inside, -, -⟩) <;> omega
    · simp only [zero, false_implies, true_and, not_false_eq_true, true_implies]
      rw [safe_bind_of fun rest => safe_ok (mem i :: rest)]
      constructor
      · rintro ⟨at_i, safe⟩
        rcases (ih at_i).mp safe with fits | ⟨k, low, inside, high, ends⟩
        · exact .inl (by omega)
        · exact .inr ⟨k, by omega, inside, by omega, ends⟩
      · rintro (fits | ⟨k, low, inside, high, ends⟩)
        · exact ⟨by omega, (ih (by omega)).mpr (.inl (by omega))⟩
        · have above : i ≠ k := fun eq => zero (eq ▸ ends)
          exact ⟨by omega, (ih (by omega)).mpr (.inr ⟨k, by omega, inside, by omega, ends⟩)⟩

/-- A string without zero is copied as it is. -/
theorem fetchString_whole [DecidableEq β] [Zero β] {e : E} {mem : Nat → β} {size i : Nat}
    {bytes : List β} (shown : ∀ k < bytes.length, mem (i + k) = bytes.getD k 0)
    (inside : i + bytes.length ≤ size) (none : 0 ∉ bytes) :
    fetchString e mem size i bytes.length = .ok bytes := by
  induction bytes generalizing i with
  | nil => rfl
  | cons b bytes ih =>
    rw [List.length_cons] at inside shown
    have first : mem i = b := shown 0 (by omega)
    have rest := ih (i := i + 1)
      (fun k fits => by rw [Nat.add_right_comm, Nat.add_assoc, shown (k + 1) (by omega)]; rfl)
      (by omega) fun zero => none (List.mem_cons_of_mem b zero)
    have some : b ≠ 0 := fun zero => none (zero ▸ List.mem_cons_self)
    rw [List.length_cons, fetchString, fetch, if_pos (by omega)]
    show (if mem i = 0 then _ else _) = _
    rw [first, if_neg some, rest]
    rfl

end Checked
