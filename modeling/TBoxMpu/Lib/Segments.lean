import Mathlib.Data.List.Basic

/-!
# Segments of an address space

A memory image as a list of segments, each some bytes from a base on, to which records are
added one after the other: a record continues the last segment, takes the place of an
empty one, or begins a new segment. `addr base i` is the address of the `i`-th byte from
`base`, and `next base n` the base that `n` bytes lead to.
-/

namespace Segments

variable {A B X : Type}

structure Segment (A B : Type) where
  base : A
  bytes : List B

/-- The bytes of a segment with their addresses. -/
def Segment.cells (addr : A → Nat → X) (s : Segment A B) : List (X × B) :=
  s.bytes.mapIdx fun i byte => (addr s.base i, byte)

def cells (addr : A → Nat → X) (segments : List (Segment A B)) : List (X × B) :=
  segments.flatMap (Segment.cells addr)

/-- The segments after one more record. -/
def place [DecidableEq A] (next : A → Nat → A) (r : Segment A B) :
    List (Segment A B) → List (Segment A B)
  | [] => [r]
  | [s] =>
    if s.bytes = [] then [r]
    else if next s.base s.bytes.length = r.base then [⟨s.base, s.bytes ++ r.bytes⟩]
    else [s, r]
  | s :: rest => s :: place next r rest

variable [DecidableEq A] {addr : A → Nat → X} {next : A → Nat → A} {r : Segment A B}

theorem place_concat (segments : List (Segment A B)) (s : Segment A B) :
    place next r (segments ++ [s]) = segments ++ place next r [s] := by
  induction segments with
  | nil => rfl
  | cons t rest ih =>
    rw [List.cons_append, List.cons_append, ← ih]
    cases rest <;> rfl

/-- A record adds what it denotes, when the base that the last segment leads to counts on
from it. -/
theorem cells_place {segments : List (Segment A B)}
    (continues : ∀ s ∈ segments, ∀ i,
      addr (next s.base s.bytes.length) i = addr s.base (s.bytes.length + i)) :
    cells addr (place next r segments) = cells addr segments ++ r.cells addr := by
  rcases List.eq_nil_or_concat segments with rfl | ⟨front, s, rfl⟩
  · simp [place, cells]
  · rw [List.concat_eq_append] at continues ⊢
    have last : cells addr (place next r [s]) = s.cells addr ++ r.cells addr := by
      unfold place
      split
      next empty =>
        -- an empty segment denotes nothing
        simp [cells, Segment.cells, empty]
      split
      next same =>
        have onwards := continues s (by simp)
        rw [same] at onwards
        simp [cells, Segment.cells, onwards, List.mapIdx_append, Nat.add_comm]
      · simp [cells]
    rw [place_concat, cells, List.flatMap_append, ← cells, ← cells, last]
    simp [cells]

/-- A record needs at most one more segment, and gives none up. -/
theorem length_place (next : A → Nat → A) (r : Segment A B) (segments : List (Segment A B)) :
    segments.length ≤ (place next r segments).length ∧
      (place next r segments).length ≤ segments.length + 1 := by
  rcases List.eq_nil_or_concat segments with rfl | ⟨front, s, rfl⟩
  · simp [place]
  · rw [List.concat_eq_append, place_concat]
    unfold place
    split
    · simp
    · split <;> simp

end Segments
