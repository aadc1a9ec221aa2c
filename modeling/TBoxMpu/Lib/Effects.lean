/-!
# Programs that change a world and may stop short

`EStateM ε ω α` returns a value or stops with an error; the world is kept in both cases.
`wp` says what holds at the end of a run, `Within` that every run moves the world along a
preorder.
-/

namespace Effects

variable {ε ω α β : Type}

/-- `Q` holds of the value and the world if `p` returns, `E` of the world if it stops. -/
def wp (p : EStateM ε ω α) (Q : α → ω → Prop) (E : ω → Prop) (w : ω) : Prop :=
  match p w with
  | .ok a w' => Q a w'
  | .error _ w' => E w'

@[simp]
theorem wp_pure (a : α) (Q : α → ω → Prop) (E : ω → Prop) (w : ω) :
    wp (pure a : EStateM ε ω α) Q E w ↔ Q a w :=
  Iff.rfl

@[simp]
theorem wp_throw (e : ε) (Q : α → ω → Prop) (E : ω → Prop) (w : ω) :
    wp (throw e : EStateM ε ω α) Q E w ↔ E w :=
  Iff.rfl

@[simp]
theorem wp_get (Q : ω → ω → Prop) (E : ω → Prop) (w : ω) :
    wp (get : EStateM ε ω ω) Q E w ↔ Q w w :=
  Iff.rfl

@[simp]
theorem wp_modify (f : ω → ω) (Q : PUnit → ω → Prop) (E : ω → Prop) (w : ω) :
    wp (modify f : EStateM ε ω PUnit) Q E w ↔ Q ⟨⟩ (f w) :=
  Iff.rfl

theorem wp_bind (p : EStateM ε ω α) (f : α → EStateM ε ω β) (Q : β → ω → Prop) (E : ω → Prop)
    (w : ω) : wp (p >>= f) Q E w ↔ wp p (fun a => wp (f a) Q E) E w := by
  change (match EStateM.bind p f w with | .ok b w' => Q b w' | .error _ w' => E w') ↔
    match p w with | .ok a w' => wp (f a) Q E w' | .error _ w' => E w'
  unfold EStateM.bind
  cases p w <;> rfl

theorem wp_mono {p : EStateM ε ω α} {Q Q' : α → ω → Prop} {E E' : ω → Prop} {w : ω}
    (h : wp p Q E w) (value : ∀ a w', Q a w' → Q' a w') (stop : ∀ w', E w' → E' w') :
    wp p Q' E' w := by
  unfold wp at *
  split at h
  · exact value _ _ h
  · exact stop _ h

/-- First `p`, whose runs are known, then `f`. -/
theorem wp_seq {p : EStateM ε ω α} {f : α → EStateM ε ω β} {Q : α → ω → Prop}
    {Q' : β → ω → Prop} {E E' : ω → Prop} {w : ω} (h : wp p Q E w)
    (next : ∀ a w', Q a w' → wp (f a) Q' E' w') (stop : ∀ w', E w' → E' w') :
    wp (p >>= f) Q' E' w :=
  (wp_bind p f Q' E' w).mpr (wp_mono h next stop)

theorem wp_ite {c : Prop} [Decidable c] {p q : EStateM ε ω α} {Q : α → ω → Prop} {E : ω → Prop}
    {w : ω} (yes : c → wp p Q E w) (no : ¬c → wp q Q E w) :
    wp (if c then p else q) Q E w := by
  split
  · exact yes ‹_›
  · exact no ‹_›

theorem wp_ok {p : EStateM ε ω α} {Q : α → ω → Prop} {E : ω → Prop} {w w' : ω} {a : α}
    (h : wp p Q E w) (run : p w = .ok a w') : Q a w' := by
  simpa [wp, run] using h

theorem wp_error {p : EStateM ε ω α} {Q : α → ω → Prop} {E : ω → Prop} {w w' : ω} {e : ε}
    (h : wp p Q E w) (run : p w = .error e w') : E w' := by
  simpa [wp, run] using h

/-! ### Moving along a preorder -/

/-- Every run of `p` that returns moves the world along `R`, every other one along `S`. -/
def Within (R S : ω → ω → Prop) (p : EStateM ε ω α) : Prop :=
  ∀ w, wp p (fun _ => R w) (S w) w

section

variable {R S : ω → ω → Prop}

theorem Within.ok {p : EStateM ε ω α} (h : Within R S p) {w w' : ω} {a : α}
    (run : p w = .ok a w') : R w w' :=
  @wp_ok _ _ _ p (fun _ => R w) (S w) w w' a (h w) run

theorem Within.error {p : EStateM ε ω α} (h : Within R S p) {w w' : ω} {e : ε}
    (run : p w = .error e w') : S w w' :=
  @wp_error _ _ _ p (fun _ => R w) (S w) w w' e (h w) run

theorem Within.pure (refl : ∀ w, R w w) (a : α) : Within R S (pure a : EStateM ε ω α) :=
  refl

theorem Within.bind (trans : ∀ u v w, R u v → R v w → R u w)
    (stop : ∀ u v w, R u v → S v w → S u w) {p : EStateM ε ω α} {f : α → EStateM ε ω β}
    (first : Within R S p) (rest : ∀ a, Within R S (f a)) : Within R S (p >>= f) := by
  intro w
  apply wp_seq (first w)
  · intro a w' moved
    exact wp_mono (rest a w') (fun _ _ => trans _ _ _ moved) (fun _ => stop _ _ _ moved)
  · exact fun _ moved => moved

theorem Within.ite {c : Prop} [Decidable c] {p q : EStateM ε ω α} (yes : c → Within R S p)
    (no : ¬c → Within R S q) : Within R S (if c then p else q) := by
  split
  · exact yes ‹_›
  · exact no ‹_›

theorem Within.mono {R' S' : ω → ω → Prop} {p : EStateM ε ω α} (h : Within R S p)
    (value : ∀ u v, R u v → R' u v) (stop : ∀ u v, S u v → S' u v) : Within R' S' p :=
  fun w => wp_mono (h w) (fun _ _ => value _ _) (fun _ => stop _ _)

end

end Effects
