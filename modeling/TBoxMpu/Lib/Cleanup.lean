import Mathlib.Data.Nat.Init

/-!
# Loops that make room

A loop looks at a reading in each round and either is left or goes on with a new state. If every
round that goes on makes the state smaller, the loop is left after some rounds.
-/

namespace Cleanup

variable {R S : Type} (round : R → S → Option S) (readings : Nat → R) (start : Option S)

/-- The state before a round, nothing once the loop is left. -/
def before : Nat → Option S
  | 0 => start
  | n + 1 => (before n).bind (round (readings n))

def Ends : Prop := ∃ n, before round readings start n = none

/-- Every round makes the state smaller or leaves the loop. -/
def Progresses (size : S → Nat) : Prop :=
  ∀ n s t, before round readings start n = some s → round (readings n) s = some t → size t < size s

variable {round readings start} {size : S → Nat} {s : S}

theorem before_size (progresses : Progresses round readings (some s) size) {n : Nat} {t : S}
    (reached : before round readings (some s) n = some t) : size t + n ≤ size s := by
  induction n generalizing t with
  | zero =>
    cases reached
    exact Nat.le_refl _
  | succ n ih =>
    obtain ⟨u, earlier, step⟩ := Option.bind_eq_some_iff.mp reached
    have smaller := progresses n u t earlier step
    have bound := ih earlier
    omega

/-- There are not more rounds than the first state is large. -/
theorem Progresses.ends (progresses : Progresses round readings start size) :
    Ends round readings start := by
  cases start with
  | none => exact ⟨0, rfl⟩
  | some s =>
    refine ⟨size s + 1, ?_⟩
    cases reached : before round readings (some s) (size s + 1) with
    | none => rfl
    | some t =>
      have bound := before_size progresses reached
      omega

/-- A loop ends with progress in each round exactly if `ok` holds where it goes on, for what
decides whether a round makes the state smaller. -/
theorem ends_progresses_iff {ok : R → S → Prop}
    (shrinks : ∀ r s t, round r s = some t → (size t < size s ↔ ok r s)) :
    Ends round readings start ∧ Progresses round readings start size ↔
      ∀ n s, before round readings start n = some s → round (readings n) s ≠ none →
        ok (readings n) s := by
  constructor
  · rintro ⟨-, progresses⟩ n s reached goes
    obtain ⟨t, step⟩ := Option.ne_none_iff_exists'.mp goes
    exact (shrinks _ s t step).mp (progresses n s t reached step)
  · intro all
    have progresses : Progresses round readings start size := fun n s t reached step =>
      (shrinks _ s t step).mpr (all n s reached (step ▸ Option.some_ne_none t))
    exact ⟨progresses.ends, progresses⟩

/-- A round that changes nothing is repeated for ever, if the readings stay. -/
theorem not_ends {r : R} (fixed : round r s = some s) :
    ¬Ends round (fun _ => r) (some s) := by
  rintro ⟨n, left⟩
  have stays : before round (fun _ => r) (some s) n = some s := by
    clear left
    induction n with
    | zero => rfl
    | succ n ih => rw [before, ih, Option.bind_some, fixed]
  rw [stays] at left
  cases left

end Cleanup
