import Mathlib.Data.List.Basic

/-!
# Streams taken in blocks

A stream comes in pieces of any size and is taken in by a step that wants blocks of one size; what
is no whole block waits in a buffer. How the stream was cut makes no difference.
-/

namespace Absorb

variable {S β : Type}

/-- All whole blocks, one after the other. -/
def whole (size : Nat) (step : S → List β → S) (s : S) (bytes : List β) : S :=
  (List.range (bytes.length / size)).foldl
    (fun s k => step s ((bytes.drop (size * k)).take size)) s

/-- What is behind the whole blocks. -/
def rest (size : Nat) (bytes : List β) : List β :=
  bytes.drop (size * (bytes.length / size))

variable {size : Nat} {step : S → List β → S} {s init : S} {bytes buf stream : List β}

theorem whole_short (short : bytes.length < size) : whole size step s bytes = s := by
  rw [whole, Nat.div_eq_of_lt short]
  rfl

theorem rest_short (short : bytes.length < size) : rest size bytes = bytes := by
  rw [rest, Nat.div_eq_of_lt short, Nat.mul_zero, List.drop_zero]

theorem rest_length (bytes : List β) : (rest size bytes).length = bytes.length % size := by
  rw [rest, List.length_drop, Nat.mod_def]

/-- Blocks in front are taken in first. -/
theorem whole_append {front : List β} {n : Nat} (blocks : front.length = size * n)
    (some : 0 < size) (back : List β) :
    whole size step s (front ++ back) = whole size step (whole size step s front) back := by
  have count : (front ++ back).length / size = n + back.length / size := by
    rw [List.length_append, blocks, Nat.mul_add_div some]
  have inner : front.length / size = n := by rw [blocks, Nat.mul_div_cancel_left _ some]
  have before : ∀ k < n, ((front ++ back).drop (size * k)).take size =
      (front.drop (size * k)).take size := by
    intro k inside
    have fits : size * (k + 1) ≤ size * n := Nat.mul_le_mul_left size inside
    rw [Nat.mul_succ] at fits
    rw [List.drop_append_of_le_length (by omega), List.take_append_of_le_length]
    rw [List.length_drop]
    omega
  have behind : ∀ k, (front ++ back).drop (size * (n + k)) = back.drop (size * k) := by
    intro k
    rw [Nat.mul_add, ← List.drop_drop, List.drop_left' blocks]
  unfold whole
  rw [count, inner, List.range_add, List.foldl_append, List.foldl_map]
  congr 1
  · funext s k
    rw [behind]
  · exact List.foldl_ext _ _ _ fun s k inside => by rw [before k (List.mem_range.mp inside)]

theorem rest_append {front : List β} {n : Nat} (blocks : front.length = size * n)
    (some : 0 < size) (back : List β) : rest size (front ++ back) = rest size back := by
  rw [rest, rest, List.length_append, blocks, Nat.mul_add_div some, Nat.mul_add,
    ← List.drop_drop, List.drop_left' blocks]

theorem whole_block {block : List β} (one : block.length = size) (some : 0 < size) :
    whole size step s block = step s block := by
  rw [whole, one, Nat.div_self some]
  simp [List.range_succ, List.take_of_length_le (Nat.le_of_eq one)]

/-- A stream: its whole blocks are taken in and the rest of it waits. -/
def Holds (size : Nat) (step : S → List β → S) (init s : S) (buf stream : List β) : Prop :=
  s = whole size step init stream ∧ buf = rest size stream

theorem Holds.start (some : 0 < size) : Holds size step init init [] [] :=
  ⟨(whole_short some).symm, List.drop_nil.symm⟩

/-- What waits is seen in front of what comes next. -/
theorem Holds.append (held : Holds size step init s buf stream) (some : 0 < size)
    (piece : List β) : Holds size step init (whole size step s (buf ++ piece))
      (rest size (buf ++ piece)) (stream ++ piece) := by
  obtain ⟨rfl, rfl⟩ := held
  let n := stream.length / size
  have front : (stream.take (size * n)).length = size * n :=
    List.length_take_of_le (Nat.mul_div_le stream.length size)
  have cut : stream = stream.take (size * n) ++ rest size stream :=
    (List.take_append_drop _ _).symm
  have joined : stream ++ piece = stream.take (size * n) ++ (rest size stream ++ piece) := by
    rw [← List.append_assoc, ← cut]
  have taken : whole size step init stream = whole size step init (stream.take (size * n)) := by
    conv_lhs => rw [cut]
    rw [whole_append front some, whole_short]
    rw [rest_length]
    exact Nat.mod_lt _ some
  rw [joined]
  exact ⟨by rw [whole_append front some, taken], (rest_append front some _).symm⟩

end Absorb
