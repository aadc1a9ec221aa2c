import TBoxMpu.Lib.Effects

/-!
# Where programs stop short

A program in `EStateM ε ω` that stops short says why. `StopsIn` says what holds of the reason and
the world wherever it stops, with one rule for each way to build a program; a loop stops where one
of its rounds does.
-/

namespace Stops

variable {ε ω α β : Type}

/-- Wherever the run from `w` stops short, `P` holds of the reason and the world. -/
def StopsIn (P : ε → ω → Prop) (p : EStateM ε ω α) (w : ω) : Prop :=
  ∀ e u, p w = .error e u → P e u

/-- The rounds of a loop from number `i` on, `n` of them. -/
def rounds (body : Nat → α → EStateM ε ω α) : Nat → Nat → α → EStateM ε ω α
  | _, 0, a => pure a
  | i, n + 1, a => do
    let a ← body i a
    rounds body (i + 1) n a

/-- The run did not stop short. -/
def returns : EStateM.Result ε ω α → Bool
  | .ok _ _ => true
  | .error _ _ => false

theorem bind_run (p : EStateM ε ω α) (f : α → EStateM ε ω β) (w : ω) :
    (p >>= f) w = match p w with
      | .ok a u => f a u
      | .error e u => .error e u := by
  change EStateM.bind p f w = _
  rw [EStateM.bind]
  cases p w <;> rfl

@[simp] theorem pure_run (a : α) (w : ω) : (pure a : EStateM ε ω α) w = .ok a w := rfl

@[simp] theorem throw_run (e : ε) (w : ω) : (throw e : EStateM ε ω α) w = .error e w := rfl

@[simp] theorem modify_run (g : ω → ω) (w : ω) :
    (modify g : EStateM ε ω PUnit) w = .ok ⟨⟩ (g w) := rfl

@[simp] theorem get_bind_run (f : ω → EStateM ε ω α) (w : ω) : (get >>= f) w = f w w := rfl

@[simp] theorem set_bind_run (v : ω) (f : PUnit → EStateM ε ω α) (w : ω) :
    (set v >>= f) w = f ⟨⟩ v := rfl

@[simp] theorem modify_bind_run (g : ω → ω) (f : PUnit → EStateM ε ω α) (w : ω) :
    (modify g >>= f) w = f ⟨⟩ (g w) := rfl

theorem bind_ok_iff {p : EStateM ε ω α} {f : α → EStateM ε ω β} {w v : ω} {b : β} :
    (p >>= f) w = .ok b v ↔ ∃ a u, p w = .ok a u ∧ f a u = .ok b v := by
  rw [bind_run]
  cases p w with
  | ok a u =>
    constructor
    · exact fun run => ⟨a, u, rfl, run⟩
    · rintro ⟨_, _, ⟨⟩, run⟩
      exact run
  | error e u => simp

section

variable {P : ε → ω → Prop} {w : ω}

@[simp] theorem stopsIn_pure (a : α) : StopsIn P (pure a : EStateM ε ω α) w :=
  fun _ _ stop => nomatch stop

@[simp] theorem stopsIn_throw_iff {e : ε} : StopsIn P (throw e : EStateM ε ω α) w ↔ P e w := by
  constructor
  · exact fun stops => stops e w rfl
  · rintro holds _ _ ⟨⟩
    exact holds

theorem stopsIn_of_ok {p : EStateM ε ω α} {a : α} {u : ω} (ok : p w = .ok a u) :
    StopsIn P p w := by
  intro e v stop
  rw [ok] at stop
  cases stop

theorem stopsIn_of_error_iff {p : EStateM ε ω α} {e : ε} {u : ω} (error : p w = .error e u) :
    StopsIn P p w ↔ P e u := by
  constructor
  · exact fun stops => stops e u error
  · intro holds e' u' stop
    rw [error] at stop
    cases stop
    exact holds

theorem stopsIn_bind_iff {p : EStateM ε ω α} {f : α → EStateM ε ω β} :
    StopsIn P (p >>= f) w ↔ StopsIn P p w ∧ ∀ a u, p w = .ok a u → StopsIn P (f a) u := by
  simp only [StopsIn, bind_run]
  cases p w with
  | ok a u => simp
  | error e u => simp

/-- A first step that does not stop. -/
theorem stopsIn_bind_ok {p : EStateM ε ω α} {f : α → EStateM ε ω β} {a : α} {u : ω}
    (ok : p w = .ok a u) : StopsIn P (p >>= f) w ↔ StopsIn P (f a) u := by
  simp only [StopsIn, bind_run, ok]

theorem stopsIn_ite_iff {c : Prop} [Decidable c] {p q : EStateM ε ω α} :
    StopsIn P (if c then p else q) w ↔ (c → StopsIn P p w) ∧ (¬ c → StopsIn P q w) := by
  by_cases holds : c <;> simp [holds]

/-- A loop stops where one of its rounds does, in a world that the rounds before it lead to. -/
theorem stopsIn_rounds_iff {body : Nat → α → EStateM ε ω α} {i n : Nat} {a : α} :
    StopsIn P (rounds body i n a) w ↔
      ∀ k < n, ∀ b u, rounds body i k a w = .ok b u → StopsIn P (body (i + k) b) u := by
  induction n generalizing i a w with
  | zero => simp [rounds]
  | succ n ih =>
    rw [rounds, stopsIn_bind_iff]
    simp only [ih]
    constructor
    · rintro ⟨first, rest⟩ (_ | k) less b u run
      · cases run
        exact first
      · obtain ⟨c, v, round, more⟩ := bind_ok_iff.mp run
        have later := rest c v round k (by omega) b u more
        rwa [Nat.add_right_comm] at later
    · refine fun each => ⟨each 0 (by omega) a w rfl, fun c v round k less b u run => ?_⟩
      have later := each (k + 1) (by omega) b u (bind_ok_iff.mpr ⟨c, v, round, run⟩)
      rwa [← Nat.add_assoc, Nat.add_right_comm] at later

end

/-- What every round keeps holds after any number of them. -/
theorem rounds_invariant {body : Nat → α → EStateM ε ω α} {inv : Nat → α → ω → Prop} {i n : Nat}
    (kept : ∀ k a b w u, inv k a w → body k a w = .ok b u → inv (k + 1) b u) {a b : α} {w u : ω}
    (start : inv i a w) (run : rounds body i n a w = .ok b u) : inv (i + n) b u := by
  induction n generalizing i a w with
  | zero =>
    cases run
    exact start
  | succ n ih =>
    obtain ⟨c, v, round, more⟩ := bind_ok_iff.mp run
    have later := ih (kept i a c w v start round) more
    rwa [Nat.add_right_comm] at later

end Stops
