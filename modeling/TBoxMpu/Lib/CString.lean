import TBoxMpu.Lib.Checked

/-!
# Strings in memory

A pointer into a string is what is left of its buffer from there on, so that a step out of the
buffer is a fault. Each operation has one lemma that says what it does on a string that ends in a
zero.
-/

namespace CString

open Checked

variable {E : Type} {e : E}

def deref (e : E) : List UInt8 → Except E UInt8
  | [] => .error e
  | c :: _ => .ok c

/-- `while (*s && p(*s)) s++`. -/
def skipWhile (e : E) (p : UInt8 → Bool) : List UInt8 → Except E (List UInt8)
  | [] => .error e
  | c :: s => if c ≠ 0 ∧ p c then skipWhile e p s else .ok (c :: s)

/-- The bytes that `strncpy` writes. -/
def strncpy (e : E) : Nat → List UInt8 → Except E (List UInt8)
  | 0, _ => .ok []
  | _ + 1, [] => .error e
  | n + 1, c :: s => do
    if c = 0 then .ok (List.replicate (n + 1) 0)
    else do
      let rest ← strncpy e n s
      .ok (c :: rest)

/-- `strcmp(name, s) == 0`, for a `name` without a zero. -/
def strEq (e : E) : List UInt8 → List UInt8 → Except E Bool
  | _, [] => .error e
  | [], c :: _ => .ok (c = 0)
  | a :: name, c :: s => if a = c then strEq e name s else .ok false

/-- The string that a function finds behind a pointer. -/
def text (e : E) : List UInt8 → Except E (List UInt8)
  | [] => .error e
  | c :: s => do
    if c = 0 then .ok []
    else do
      let rest ← text e s
      .ok (c :: rest)

/-- Bytes written from place `i` of a buffer on. -/
def store (e : E) (size : Nat) (mem : Nat → UInt8) (i : Nat) (bytes : List UInt8) :
    Except E (Nat → UInt8) :=
  if i + bytes.length ≤ size then
    .ok fun k => if i ≤ k then bytes[k - i]?.getD (mem k) else mem k
  else .error e

variable {s w name rest : List UInt8} {c : UInt8} {p : UInt8 → Bool}

theorem deref_append (rest : List UInt8) :
    deref e (s ++ 0 :: rest) = .ok (s.head?.getD 0) := by
  cases s <;> rfl

theorem skipWhile_append (clean : 0 ∉ s) (p : UInt8 → Bool) :
    skipWhile e p (s ++ 0 :: rest) = .ok (s.dropWhile p ++ 0 :: rest) := by
  induction s with
  | nil => rfl
  | cons c s ih =>
    rw [List.mem_cons, not_or] at clean
    rw [List.cons_append, skipWhile, List.dropWhile_cons]
    by_cases run : p c
    · rw [if_pos ⟨Ne.symm clean.1, run⟩, if_pos run]
      exact ih clean.2
    · rw [if_neg fun both => run both.2, if_neg run]
      rfl

theorem strncpy_append (clean : 0 ∉ w) (rest : List UInt8) :
    strncpy e w.length (w ++ rest) = .ok w := by
  induction w with
  | nil => rfl
  | cons c w ih =>
    rw [List.mem_cons, not_or] at clean
    rw [List.cons_append, List.length_cons, strncpy, if_neg (Ne.symm clean.1), ih clean.2]
    rfl

theorem strEq_append (named : 0 ∉ name) (clean : 0 ∉ w) :
    strEq e name (w ++ 0 :: rest) = .ok (name = w) := by
  induction name generalizing w with
  | nil =>
    cases w with
    | nil => rfl
    | cons c w =>
      rw [List.mem_cons, not_or] at clean
      rw [List.cons_append, strEq]
      simp [Ne.symm clean.1]
  | cons a name ih =>
    rw [List.mem_cons, not_or] at named
    cases w with
    | nil =>
      rw [List.nil_append, strEq, if_neg (Ne.symm named.1)]
      simp
    | cons c w =>
      rw [List.mem_cons, not_or] at clean
      rw [List.cons_append, strEq]
      by_cases same : a = c
      · rw [if_pos same, ih named.2 clean.2]
        simp [same]
      · rw [if_neg same]
        simp [same]

theorem text_append (clean : 0 ∉ w) : text e (w ++ 0 :: rest) = .ok w := by
  induction w with
  | nil => rfl
  | cons c w ih =>
    rw [List.mem_cons, not_or] at clean
    rw [List.cons_append, text, if_neg (Ne.symm clean.1), ih clean.2]
    rfl

/-! ### Strings in a buffer -/

/-- The string `w` stands at place `i`, with the zero at its end. -/
def Holds (mem : Nat → UInt8) (i : Nat) (w : List UInt8) : Prop :=
  stretch mem i (w.length + 1) = w ++ [0]

variable {mem mem' : Nat → UInt8} {size i : Nat} {bytes : List UInt8}

theorem stretch_add (mem : Nat → UInt8) (i m n : Nat) :
    stretch mem i (m + n) = stretch mem i m ++ stretch mem (i + m) n := by
  rw [stretch, List.range_add, List.map_append, List.map_map]
  congr 1
  exact List.map_congr_left fun k _ => by rw [Function.comp, Nat.add_assoc]

/-- A pointer to the string that is held. -/
theorem Holds.pointer (holds : Holds mem i w) (inside : i + w.length < size) :
    ∃ rest, stretch mem i (size - i) = w ++ 0 :: rest := by
  obtain ⟨n, room⟩ : ∃ n, size - i = w.length + 1 + n := ⟨size - i - (w.length + 1), by omega⟩
  refine ⟨stretch mem (i + (w.length + 1)) n, ?_⟩
  rw [room, stretch_add, holds, List.append_assoc, List.singleton_append]

theorem Holds.congr (holds : Holds mem i w) (same : ∀ k, k < i + w.length + 1 → mem' k = mem k) :
    Holds mem' i w := by
  rw [Holds, ← holds]
  exact List.map_congr_left fun k inside => same _ (by rw [List.mem_range] at inside; omega)

theorem store_below (stored : store e size mem i bytes = .ok mem') {k : Nat} (below : k < i) :
    mem' k = mem k := by
  unfold store at stored
  split at stored
  · obtain rfl := Except.ok.inj stored
    exact if_neg (by omega)
  · exact nomatch stored

theorem store_same (stored : store e size mem i bytes = .ok mem') :
    stretch mem' i bytes.length = bytes := by
  unfold store at stored
  split at stored
  · obtain rfl := Except.ok.inj stored
    apply List.ext_getElem (stretch_length _ _ _)
    intro k _ inside
    simp only [stretch, List.getElem_map, List.getElem_range]
    rw [if_pos (Nat.le_add_right i k), Nat.add_sub_cancel_left, List.getElem?_eq_getElem inside,
      Option.getD_some]
  · cases stored

theorem store_ok (e : E) (mem : Nat → UInt8) (fits : i + bytes.length ≤ size) :
    ∃ mem', store e size mem i bytes = .ok mem' :=
  ⟨_, if_pos fits⟩

/-- A string written in two steps, its end last. -/
theorem store_string (e : E) (mem : Nat → UInt8) (fits : i + w.length < size) : ∃ mem₁ mem₂,
    store e size mem i w = .ok mem₁ ∧ store e size mem₁ (i + w.length) [0] = .ok mem₂ ∧
      Holds mem₂ i w ∧ ∀ k < i, mem₂ k = mem k := by
  obtain ⟨mem₁, first⟩ := store_ok e mem (Nat.le_of_lt fits)
  obtain ⟨mem₂, last⟩ := store_ok e mem₁ (show i + w.length + [0].length ≤ size from fits)
  have kept : stretch mem₂ i w.length = w := by
    rw [← store_same first, stretch_length]
    exact List.map_congr_left fun k inside =>
      store_below last (Nat.add_lt_add_left (List.mem_range.mp inside) i)
  refine ⟨mem₁, mem₂, first, last, ?_, fun k below => ?_⟩
  · rw [Holds, stretch_add, kept]
    exact congrArg (w ++ ·) (store_same last)
  · rw [store_below last (by omega), store_below first below]

end CString
