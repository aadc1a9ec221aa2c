import Mathlib.Logic.Relation

/-!
# Runs of labelled transition systems

`Reach init step s`: some run from a state satisfying `init` ends in `s`. A guard `ok`
restricts the runs to those all of whose steps satisfy it in the state before the step.
-/

namespace Runs

variable {S A : Type}

/-- The states that runs from `init` reach. -/
inductive Reach (init : S → Prop) (step : S → A → S → Prop) : S → Prop
  | start {s : S} : init s → Reach init step s
  | next {s t : S} (a : A) : Reach init step s → step s a t → Reach init step t

/-- The steps whose state and label satisfy `ok`. -/
def Guarded (ok : S → A → Prop) (step : S → A → S → Prop) (s : S) (a : A) (t : S) : Prop :=
  ok s a ∧ step s a t

/-- An invariant of the steps that holds initially holds in every reachable state. -/
theorem Reach.invariant {init : S → Prop} {step : S → A → S → Prop} {inv : S → Prop}
    (initial : ∀ s, init s → inv s)
    (preserved : ∀ s a t, inv s → step s a t → inv t) {s : S} (h : Reach init step s) :
    inv s := by
  induction h with
  | start start => exact initial _ start
  | next a _ step ih => exact preserved _ a _ ih step

theorem run_append {step : S → A → Option S} {s t u : S} {as bs : List A}
    (first : as.foldlM step s = some t) (second : bs.foldlM step t = some u) :
    (as ++ bs).foldlM step s = some u := by
  rw [List.foldlM_append, first]
  exact second

theorem run_cons {step : S → A → Option S} {s t u : S} {a : A} {as : List A}
    (first : step s a = some t) (rest : as.foldlM step t = some u) :
    (a :: as).foldlM step s = some u := by
  rw [List.foldlM_cons, first]
  exact rest

/-- The labels make a run exactly if none of them fails where the ones before it lead. -/
theorem run_exists_iff {step : S → A → Option S} {s : S} {as : List A} :
    (∃ t, as.foldlM step s = some t) ↔
      ∀ pre a t, pre ++ [a] <+: as → pre.foldlM step s = some t → step t a ≠ none := by
  induction as generalizing s with
  | nil =>
    refine iff_of_true ⟨s, rfl⟩ fun pre a t short => ?_
    exact absurd (List.prefix_nil.mp short) (by simp)
  | cons b rest ih =>
    rw [List.foldlM_cons]
    cases next : step s b with
    | none =>
      refine iff_of_false nofun fun all => ?_
      exact all [] b s ⟨rest, rfl⟩ rfl next
    | some u =>
      refine (ih (s := u)).trans ⟨fun all => ?_, fun all pre a t short run => ?_⟩
      · rintro (_ | ⟨c, pre⟩) a t short run
        · obtain ⟨rfl, -⟩ := List.cons_prefix_cons.mp short
          cases run
          rw [next]
          exact Option.some_ne_none u
        · obtain ⟨rfl, behind⟩ := List.cons_prefix_cons.mp short
          rw [List.foldlM_cons, next] at run
          exact all pre a t behind run
      · refine all (b :: pre) a t (List.cons_prefix_cons.mpr ⟨rfl, short⟩) ?_
        exact run_cons next run

/-- A run of a partial step function each of whose steps is one of the system's. -/
theorem Reach.along {init : S → Prop} {rel : S → A → S → Prop} {step : S → A → Option S} {s t : S}
    (h : Reach init rel s) (labels : List A)
    (each : ∀ a ∈ labels, ∀ s t, step s a = some t → rel s a t)
    (run : labels.foldlM step s = some t) : Reach init rel t := by
  induction labels generalizing s with
  | nil => cases run; exact h
  | cons a rest ih =>
    rw [List.foldlM_cons] at run
    obtain ⟨u, first, run⟩ := Option.bind_eq_some_iff.mp run
    exact ih (.next a h (each a List.mem_cons_self s u first))
      (fun b mem => each b (List.mem_cons_of_mem a mem)) run

/-- A run of a partial step function, given by its labels. -/
theorem Reach.follow {init : S → Prop} {step : S → A → Option S} {s t : S}
    (h : Reach init (fun s a t => step s a = some t) s) (labels : List A)
    (run : labels.foldlM step s = some t) : Reach init (fun s a t => step s a = some t) t :=
  h.along labels (fun _ _ _ _ step => step) run

/-- A run of a total step function. -/
theorem Reach.foldl {init : S → Prop} {step : S → A → S} {s : S}
    (h : Reach init (fun s a t => step s a = t) s) (labels : List A) :
    Reach init (fun s a t => step s a = t) (labels.foldl step s) := by
  induction labels generalizing s with
  | nil => exact h
  | cons a rest ih => exact ih (.next a h rfl)

/-- The same where every label is allowed. -/
theorem Reach.run {init : S → Prop} {step : S → A → Option S} {ok : S → A → Prop} {s t : S}
    (h : Reach init (Guarded ok fun s a t => step s a = some t) s) (labels : List A)
    (allowed : ∀ a ∈ labels, ∀ s, ok s a) (run : labels.foldlM step s = some t) :
    Reach init (Guarded ok fun s a t => step s a = some t) t :=
  h.along labels (fun a mem s _ step => ⟨allowed a mem s, step⟩) run

/-- A run of a partial step function each of whose steps is checked for the guard. -/
theorem Reach.run_checked {init : S → Prop} {step : S → A → Option S} {ok : S → A → Prop}
    [∀ s a, Decidable (ok s a)] {s t : S}
    (h : Reach init (Guarded ok fun s a t => step s a = some t) s) (labels : List A)
    (run : labels.foldlM (fun s a => if ok s a then step s a else none) s = some t) :
    Reach init (Guarded ok fun s a t => step s a = some t) t :=
  h.along labels (fun _ _ _ _ step => Option.ite_none_right_eq_some.mp step) run

/-! ### Relations that go on at one place at most -/

theorem forall_of_stop {r : S → S → Prop} {a : S} (stop : ∀ b, ¬ r a b) (P : S → Prop) :
    (∀ b, Relation.ReflTransGen r a b → P b) ↔ P a := by
  constructor
  · exact fun all => all a .refl
  · intro here b reach
    rcases Relation.ReflTransGen.cases_head_iff.mp reach with rfl | ⟨c, step, -⟩
    · exact here
    · exact absurd step (stop c)

theorem forall_of_next {r : S → S → Prop} {a b : S} (next : ∀ c, r a c ↔ c = b) (P : S → Prop) :
    (∀ c, Relation.ReflTransGen r a c → P c) ↔
      P a ∧ ∀ c, Relation.ReflTransGen r b c → P c := by
  constructor
  · exact fun all => ⟨all a .refl, fun c reach => all c (.head ((next b).mpr rfl) reach)⟩
  · rintro ⟨here, later⟩ c reach
    rcases Relation.ReflTransGen.cases_head_iff.mp reach with rfl | ⟨d, step, rest⟩
    · exact here
    · obtain rfl := (next d).mp step
      exact later c rest

end Runs
