/-!
# Bounded queues

A queue of at most `capacity` elements. What does not fit is not appended; the oldest
elements leave first.
-/

namespace Fifo

variable {α : Type}

inductive Op (α : Type)
  | put (data : List α)
  | take (n : Nat)
  | clear
  | used
  | unused

/-- A count, and the elements that left the queue. -/
structure Answer (α : Type) where
  count : Int
  taken : List α

def step (capacity : Nat) (q : List α) : Op α → Answer α × List α
  | .put data =>
    let fitting := data.take (capacity - q.length)
    (⟨fitting.length, []⟩, q ++ fitting)
  | .take n => (⟨(q.take n).length, q.take n⟩, q.drop n)
  | .clear => (⟨0, []⟩, [])
  | .used => (⟨q.length, []⟩, q)
  | .unused => (⟨(capacity - q.length : Nat), []⟩, q)

theorem length_step {capacity : Nat} {q : List α} (fits : q.length ≤ capacity) (op : Op α) :
    (step capacity q op).2.length ≤ capacity := by
  cases op with
  | put data =>
    simp only [step, List.length_append, List.length_take]
    omega
  | take n =>
    simp only [step, List.length_drop]
    omega
  | clear => exact Nat.zero_le _
  | used => exact fits
  | unused => exact fits

end Fifo
