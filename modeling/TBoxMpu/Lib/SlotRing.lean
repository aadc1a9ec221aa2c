import Mathlib.Data.List.Basic
import Mathlib.Logic.Function.Basic

/-!
# Rings of numbered slots

Slots `0 .. size - 1` with a read and a write index that run around the end. Equal indices
mean empty, so that at most `size - 1` slots are in use; a put into a full ring drops the
oldest element. The contents refine a bounded queue.
-/

namespace SlotRing

variable {α : Type}

/-! ### Bounded queues -/

/-- The last `limit` elements of a queue. -/
def keepLast (limit : Nat) (q : List α) : List α :=
  q.drop (q.length - limit)

theorem keepLast_of_le {limit : Nat} {q : List α} (fits : q.length ≤ limit) :
    keepLast limit q = q := by
  simp [keepLast, Nat.sub_eq_zero_of_le fits]

theorem length_keepLast (limit : Nat) (q : List α) :
    (keepLast limit q).length = min q.length limit := by
  rw [keepLast, List.length_drop]
  omega

theorem keepLast_sublist (limit : Nat) (q : List α) : (keepLast limit q).Sublist q :=
  List.drop_sublist _ _

/-- What was dropped early need not be dropped later. -/
theorem keepLast_append (limit : Nat) (p q : List α) :
    keepLast limit (keepLast limit p ++ q) = keepLast limit (p ++ q) := by
  have early : (p.length - limit) ≤ (p ++ q).length - limit := by
    rw [List.length_append]
    omega
  rw [keepLast, keepLast, keepLast, ← List.drop_append_of_le_length (Nat.sub_le _ _),
    List.drop_drop]
  congr 1
  rw [List.length_drop, List.length_append]
  omega

/-- A put drops the oldest element of a queue that is full. -/
def put (limit : Nat) (q : List α) (a : α) : List α :=
  keepLast limit (q ++ [a])

theorem foldl_put {limit : Nat} {q : List α} (as : List α) (fits : q.length ≤ limit) :
    as.foldl (put limit) q = keepLast limit (q ++ as) := by
  induction as generalizing q with
  | nil => rw [List.foldl_nil, List.append_nil, keepLast_of_le fits]
  | cons a as ih =>
    have next : (put limit q a).length ≤ limit := by
      rw [put, length_keepLast]
      exact Nat.min_le_right _ _
    rw [List.foldl_cons, ih next, put, keepLast_append, List.append_assoc, List.singleton_append]

/-! ### Histories -/

/-- An operation on a queue with the elements it moved. -/
inductive Op (α : Type)
  | put (as : List α)
  | take (n : Nat) (as : List α)
  deriving DecidableEq

/-- The operations lead a queue of at most `limit` elements from `q` to `q'`: a `take n`
moves the `n` oldest elements, or all that there are. -/
def History (limit : Nat) : List α → List (Op α) → List α → Prop
  | q, [], q' => q' = q
  | q, .put as :: rest, q' => History limit (keepLast limit (q ++ as)) rest q'
  | q, .take n as :: rest, q' => as = q.take n ∧ History limit (q.drop n) rest q'

def putAll : List (Op α) → List α
  | [] => []
  | .put as :: rest => as ++ putAll rest
  | .take _ _ :: rest => putAll rest

def takenAll : List (Op α) → List α
  | [] => []
  | .put _ :: rest => takenAll rest
  | .take _ as :: rest => as ++ takenAll rest

/-- What was taken and what is left came in, each once and in this order. -/
theorem History.sublist {limit : Nat} {history : List (Op α)} {q q' : List α}
    (h : History limit q history q') : (takenAll history ++ q').Sublist (q ++ putAll history) := by
  induction history generalizing q with
  | nil =>
    rw [show q' = q from h, putAll, takenAll, List.append_nil]
    exact .refl _
  | cons op rest ih =>
    cases op with
    | put as =>
      rw [putAll, takenAll, ← List.append_assoc]
      exact (ih h).trans ((keepLast_sublist limit (q ++ as)).append_right _)
    | take n as =>
      obtain ⟨rfl, tail⟩ := h
      have whole : q ++ putAll rest = q.take n ++ (q.drop n ++ putAll rest) := by
        rw [← List.append_assoc, List.take_append_drop]
      rw [putAll, takenAll, List.append_assoc, whole]
      exact (ih tail).append_left _

/-- Nothing is dropped where there is room for all that came in. -/
theorem History.lossless {limit : Nat} {history : List (Op α)} {q q' : List α}
    (h : History limit q history q') (room : (q ++ putAll history).length ≤ limit) :
    takenAll history ++ q' = q ++ putAll history := by
  induction history generalizing q with
  | nil => rw [show q' = q from h, putAll, takenAll, List.append_nil, List.nil_append]
  | cons op rest ih =>
    cases op with
    | put as =>
      rw [putAll, ← List.append_assoc] at room ⊢
      have fits : (q ++ as).length ≤ limit := by
        rw [List.length_append] at room
        omega
      have tail : History limit (q ++ as) rest q' := by
        rw [← keepLast_of_le fits]
        exact h
      exact ih tail room
    | take n as =>
      obtain ⟨rfl, tail⟩ := h
      have shorter : (q.drop n ++ putAll rest).length ≤ limit := by
        rw [putAll, List.length_append] at room
        rw [List.length_append, List.length_drop]
        omega
      rw [putAll, takenAll, List.append_assoc, ih tail shorter, ← List.append_assoc,
        List.take_append_drop]

/-! ### The slots between two indices -/

/-- The index behind `i`. -/
def next (size i : Nat) : Nat :=
  (i + 1) % size

/-- The contents from the read index up to the write index. -/
def pending (size : Nat) (slot : Nat → α) (r w : Nat) : List α :=
  (List.range ((w + size - r) % size)).map fun k => slot ((r + k) % size)

variable {size r w : Nat}

theorem next_lt (pos : 0 < size) (i : Nat) : next size i < size :=
  Nat.mod_lt _ pos

theorem next_eq {i : Nat} (inside : i < size) :
    next size i = if i + 1 = size then 0 else i + 1 := by
  unfold next
  split
  next last => rw [last, Nat.mod_self]
  next inner => exact Nat.mod_eq_of_lt (by omega)

theorem distance_eq (hr : r < size) (hw : w < size) :
    (w + size - r) % size = if r ≤ w then w - r else w + size - r := by
  split
  next le =>
    rw [show w + size - r = w - r + size by omega, Nat.add_mod_right]
    exact Nat.mod_eq_of_lt (by omega)
  next gt => exact Nat.mod_eq_of_lt (by omega)

theorem position_eq (hr : r < size) {k : Nat} (hk : k < size) :
    (r + k) % size = if r + k < size then r + k else r + k - size := by
  split
  next inner => exact Nat.mod_eq_of_lt inner
  next around =>
    rw [Nat.mod_eq_sub_mod (by omega)]
    exact Nat.mod_eq_of_lt (by omega)

theorem length_pending (slot : Nat → α) (r w : Nat) :
    (pending size slot r w).length = (w + size - r) % size := by
  simp [pending]

theorem length_pending_lt (slot : Nat → α) (hr : r < size) :
    (pending size slot r w).length < size := by
  rw [length_pending]
  exact Nat.mod_lt _ (by omega)

theorem pending_empty (slot : Nat → α) (i : Nat) : pending size slot i i = [] := by
  simp [pending]

/-- The slot at the read index is the oldest one. -/
theorem pending_pop (slot : Nat → α) (hr : r < size) (hw : w < size) (ne : r ≠ w) :
    pending size slot r w = slot r :: pending size slot (next size r) w := by
  have hn : next size r < size := next_lt (by omega) r
  have shorter : (w + size - r) % size = (w + size - next size r) % size + 1 := by
    rw [distance_eq hr hw, distance_eq hn hw, next_eq hr]
    split_ifs <;> omega
  rw [pending, shorter, List.range_succ_eq_map, List.map_cons, List.map_map, Nat.add_zero,
    Nat.mod_eq_of_lt hr, pending]
  congr 1
  apply List.map_congr_left
  intro k _
  simp only [Function.comp_apply, next, Nat.succ_eq_add_one, Nat.mod_add_mod]
  rw [Nat.add_right_comm, Nat.add_assoc r k 1]

/-- Slots outside the used ones do not count. -/
theorem pending_update (slot : Nat → α) (hr : r < size) (hw : w < size) (a : α) :
    pending size (Function.update slot w a) r w = pending size slot r w := by
  apply List.map_congr_left
  intro k hk
  rw [List.mem_range, distance_eq hr hw] at hk
  apply Function.update_of_ne
  have inside : k < size := by
    split at hk <;> omega
  rw [position_eq hr inside]
  split_ifs at hk ⊢ <;> omega

/-- A write at the write index appends. -/
theorem pending_push (slot : Nat → α) (hr : r < size) (hw : w < size) (a : α)
    (room : r ≠ next size w) :
    pending size (Function.update slot w a) r (next size w) = pending size slot r w ++ [a] := by
  have hn : next size w < size := next_lt (by omega) w
  have longer : (next size w + size - r) % size = (w + size - r) % size + 1 := by
    rw [next_eq hw] at room
    rw [distance_eq hr hn, distance_eq hr hw, next_eq hw]
    split_ifs at room ⊢ <;> omega
  have last : (r + (w + size - r) % size) % size = w := by
    rw [Nat.add_mod_mod, show r + (w + size - r) = w + size by omega, Nat.add_mod_right]
    exact Nat.mod_eq_of_lt hw
  rw [pending, longer, List.range_succ, List.map_append, List.map_singleton, last,
    Function.update_self]
  congr 1
  exact pending_update slot hr hw a

/-- The write of a ring: where the indices would meet, the oldest slot is given up. -/
theorem pending_put (slot : Nat → α) (hr : r < size) (hw : w < size) (a : α) :
    pending size (Function.update slot w a)
        (if r = next size w then next size r else r) (next size w) =
      put (size - 1) (pending size slot r w) a := by
  have length : (pending size slot r w).length = (w + size - r) % size := length_pending slot r w
  by_cases full : r = next size w
  · have hn : next size r < size := next_lt (by omega) r
    -- the old contents fill all slots but the one written now
    have count : (pending size slot r w).length = size - 1 := by
      rw [length, distance_eq hr hw]
      rw [next_eq hw] at full
      split_ifs at full ⊢ <;> omega
    rw [if_pos full, put, keepLast, List.length_append, List.length_singleton, count]
    by_cases single : size = 1
    · subst single
      simp [pending, Nat.mod_one]
    have ne : r ≠ w := by
      rw [next_eq hw] at full
      split at full <;> omega
    have ne' : next size r ≠ next size w := by
      rw [← full, next_eq hr]
      split <;> omega
    rw [pending_push slot hn hw a ne', show size - 1 + 1 - (size - 1) = 1 by omega,
      pending_pop slot hr hw ne]
    rfl
  · have short := length_pending_lt (w := w) slot hr
    rw [if_neg full, pending_push slot hr hw a full, put, keepLast_of_le]
    rw [List.length_append, List.length_singleton]
    have := distance_eq hr hw
    rw [next_eq hw] at full
    split_ifs at this full <;> omega

end SlotRing
