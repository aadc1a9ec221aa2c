/-!
# Histories that alternate

What an observer is told of a switch that is turned on and off: the two notices take turns, and
the last one says how the switch stands.
-/

namespace Alternation

variable {α : Type} {on off : α} {active active' : Prop} {history : List α}

/-- The first `n` notices of a switch that is off at first. -/
def alternating (on off : α) : Nat → List α
  | 0 => []
  | n + 1 => alternating on off n ++ [if n % 2 = 0 then on else off]

theorem length_alternating (n : Nat) : (alternating on off n).length = n := by
  induction n with
  | zero => rfl
  | succ n ih => rw [alternating, List.length_append, ih, List.length_singleton]

/-- The notices alternate, and end with the state of the switch. -/
def Follows (on off : α) (active : Prop) (history : List α) : Prop :=
  ∃ n, history = alternating on off n ∧ (active ↔ n % 2 = 1)

theorem follows_nil (inactive : ¬ active) : Follows on off active [] :=
  ⟨0, rfl, iff_of_false inactive (by decide)⟩

theorem Follows.congr (follows : Follows on off active history) (same : active ↔ active') :
    Follows on off active' history := by
  obtain ⟨n, told, state⟩ := follows
  exact ⟨n, told, same.symm.trans state⟩

theorem Follows.turned_on (follows : Follows on off active history) (before : ¬ active)
    (after : active') : Follows on off active' (history ++ [on]) := by
  obtain ⟨n, rfl, state⟩ := follows
  have even : n % 2 = 0 := by
    have odd := mt state.mpr before
    omega
  refine ⟨n + 1, ?_, iff_of_true after (by omega)⟩
  rw [alternating, if_pos even]

theorem Follows.turned_off (follows : Follows on off active history) (before : active)
    (after : ¬ active') : Follows on off active' (history ++ [off]) := by
  obtain ⟨n, rfl, state⟩ := follows
  have odd := state.mp before
  refine ⟨n + 1, ?_, iff_of_false after (by omega)⟩
  rw [alternating, if_neg (by omega)]

/-- A history follows one state only. -/
theorem Follows.iff (follows : Follows on off active history)
    (follows' : Follows on off active' history) : active ↔ active' := by
  obtain ⟨n, told, state⟩ := follows
  obtain ⟨m, told', state'⟩ := follows'
  have lengths := congrArg List.length (told.symm.trans told')
  rw [length_alternating, length_alternating] at lengths
  rw [state, state', lengths]

end Alternation
