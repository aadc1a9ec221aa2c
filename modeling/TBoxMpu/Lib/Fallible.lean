import Mathlib.Data.List.Induction

/-!
# Loops that can fail

`as.foldlM step s` runs `step` on the elements of a list until one of them fails. An
invariant speaks of the elements that went through, and an error is the error of the first
element that does not.
-/

namespace Fallible

variable {S A E : Type} {step : S → A → Except E S}

theorem foldlM_append_ok {s t : S} {as : List A} (bs : List A) (h : as.foldlM step s = .ok t) :
    (as ++ bs).foldlM step s = bs.foldlM step t := by
  rw [List.foldlM_append, h]
  rfl

theorem foldlM_append_error {s : S} {e : E} {as : List A} (bs : List A)
    (h : as.foldlM step s = .error e) : (as ++ bs).foldlM step s = .error e := by
  rw [List.foldlM_append, h]
  rfl

theorem foldlM_singleton (s : S) (a : A) : [a].foldlM step s = step s a := by
  rw [List.foldlM_cons]
  exact bind_pure (step s a)

theorem map_ok {B : Type} {x : Except E A} {f : A → B} {b : B} (h : x.map f = .ok b) :
    ∃ a, x = .ok a ∧ f a = b := by
  cases x with
  | error e => cases h
  | ok a => exact ⟨a, rfl, Except.ok.inj h⟩

/-- What each element adds to holds of the whole loop. -/
theorem foldlM_invariant (inv : List A → S → Prop) {s : S} (initial : inv [] s)
    (preserved : ∀ as t a u, inv as t → step t a = .ok u → inv (as ++ [a]) u) {as : List A} {u : S}
    (h : as.foldlM step s = .ok u) : inv as u := by
  induction as using List.reverseRecOn generalizing u with
  | nil =>
    obtain rfl := Except.ok.inj h
    exact initial
  | append_singleton as a ih =>
    cases first : as.foldlM step s with
    | error e => exact nomatch (foldlM_append_error [a] first).symm.trans h
    | ok t =>
      rw [foldlM_append_ok [a] first, foldlM_singleton] at h
      exact preserved as t a u (ih first) h

/-- An error is that of one element, and those before it went through. -/
theorem foldlM_error_iff {s : S} {as : List A} {e : E} : as.foldlM step s = .error e ↔
    ∃ pre a post t, as = pre ++ a :: post ∧ pre.foldlM step s = .ok t ∧ step t a = .error e := by
  constructor
  · intro h
    induction as generalizing s with
    | nil => cases h
    | cons a rest ih =>
      rw [List.foldlM_cons] at h
      cases first : step s a with
      | error e' =>
        rw [first] at h
        obtain rfl := Except.error.inj h
        exact ⟨[], a, rest, s, rfl, rfl, first⟩
      | ok t =>
        rw [first] at h
        obtain ⟨pre, b, post, u, rfl, run, last⟩ := ih h
        refine ⟨a :: pre, b, post, u, rfl, ?_, last⟩
        rw [List.foldlM_cons, first]
        exact run
  · rintro ⟨pre, a, post, t, rfl, run, last⟩
    rw [foldlM_append_ok _ run, List.foldlM_cons, last]
    rfl

/-- If every element goes through, the results are collected. -/
theorem mapM_ok {α β : Type} {f : α → Except E β} {g : α → β} {as : List α}
    (each : ∀ a ∈ as, f a = .ok (g a)) : as.mapM f = .ok (as.map g) := by
  induction as with
  | nil => rfl
  | cons a as ih =>
    rw [List.mapM_cons, each a List.mem_cons_self,
      ih fun b mem => each b (List.mem_cons_of_mem a mem)]
    rfl

theorem mapM_isSome {α β : Type} {f : α → Option β} (as : List α) :
    (as.mapM f).isSome ↔ ∀ a ∈ as, (f a).isSome := by
  induction as with
  | nil => simp
  | cons a rest ih =>
    rw [List.mapM_cons, List.forall_mem_cons, ← ih]
    cases f a with
    | none => simp
    | some b => cases rest.mapM f <;> simp

end Fallible
