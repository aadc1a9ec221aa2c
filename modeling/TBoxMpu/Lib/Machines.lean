/-!
# Machines that answer calls

A machine changes its state with each call and answers it. Two machines whose states are
related answer alike exactly as long as the calls are of a kind that is known beforehand.
-/

namespace Machines

variable {S T A O P : Type} {f : S → A → O × S} {g : T → A → P × T}

/-- What a machine answers to the calls. -/
def answers (step : S → A → O × S) : S → List A → List O
  | _, [] => []
  | s, a :: rest => (step s a).1 :: answers step (step s a).2 rest

/-- Where the calls lead. -/
def after (step : S → A → O × S) (s : S) (calls : List A) : S :=
  calls.foldl (fun s a => (step s a).2) s

/-- `ok` holds of each call and the state it is made in. -/
def Along (step : S → A → O × S) (ok : S → A → Prop) : S → List A → Prop
  | _, [] => True
  | s, a :: rest => ok s a ∧ Along step ok (step s a).2 rest

/-- What holds of the same calls holds along the same runs. -/
theorem along_congr {ok ok' : S → A → Prop} (same : ∀ s a, ok s a ↔ ok' s a) (s : S)
    (calls : List A) : Along f ok s calls ↔ Along f ok' s calls := by
  induction calls generalizing s with
  | nil => exact Iff.rfl
  | cons a rest ih => exact and_congr (same s a) (ih _)

/-- A relation of the states that every call keeps. -/
theorem after_related {rel : S → T → Prop} (kept : ∀ s t a, rel s t → rel (f s a).2 (g t a).2)
    {s : S} {t : T} (related : rel s t) (calls : List A) :
    rel (after f s calls) (after g t calls) := by
  induction calls generalizing s t with
  | nil => exact related
  | cons a rest ih => exact ih (kept s t a related)

/-- Related machines answer alike exactly if each single answer is alike. -/
theorem answers_eq_iff {g : T → A → O × T} {rel : S → T → Prop} {ok : T → A → Prop}
    (kept : ∀ s t a, rel s t → rel (f s a).2 (g t a).2)
    (same : ∀ s t a, rel s t → ((f s a).1 = (g t a).1 ↔ ok t a)) {s : S} {t : T}
    (related : rel s t) (calls : List A) :
    answers f s calls = answers g t calls ↔ Along g ok t calls := by
  induction calls generalizing s t with
  | nil => exact iff_of_true rfl trivial
  | cons a rest ih =>
    rw [answers, answers, List.cons.injEq, same s t a related, ih (kept s t a related)]
    rfl

/-- Two runs agree after every number of calls exactly if each call keeps them related: what
related states agree on shows after the next call whether they still are. -/
theorem agree_iff {rel agree : S → T → Prop} {ok : T → A → Prop}
    (sound : ∀ s t, rel s t → agree s t)
    (shows : ∀ s t a, rel s t → agree (f s a).2 (g t a).2 → ok t a)
    (kept : ∀ s t a, rel s t → ok t a → rel (f s a).2 (g t a).2) {s : S} {t : T}
    (related : rel s t) (calls : List A) :
    (∀ n, agree (after f s (calls.take n)) (after g t (calls.take n))) ↔ Along g ok t calls := by
  induction calls generalizing s t with
  | nil =>
    refine iff_of_true (fun n => ?_) trivial
    rw [List.take_nil]
    exact sound s t related
  | cons a rest ih =>
    constructor
    · intro agrees
      have fine := shows s t a related (agrees 1)
      exact ⟨fine, (ih (kept s t a related fine)).mp fun n => agrees (n + 1)⟩
    · rintro ⟨fine, along⟩ n
      cases n with
      | zero => exact sound s t related
      | succ n => exact (ih (kept s t a related fine)).mpr along n

/-- A property holds after every number of calls exactly if each call keeps it. `inv` is what
every call keeps in any case. -/
theorem holds_iff {inv good : S → Prop} {ok : S → A → Prop}
    (inv_kept : ∀ s a, inv s → inv (f s a).2)
    (kept : ∀ s a, inv s → good s → (good (f s a).2 ↔ ok s a)) {s : S} (start : inv s)
    (fine : good s) (calls : List A) :
    (∀ n, good (after f s (calls.take n))) ↔ Along f ok s calls := by
  induction calls generalizing s with
  | nil =>
    refine iff_of_true (fun n => ?_) trivial
    rw [List.take_nil]
    exact fine
  | cons a rest ih =>
    constructor
    · intro holds
      have first := holds 1
      have next := ih (inv_kept s a start) first
      exact ⟨(kept s a start fine).mp first, next.mp fun n => holds (n + 1)⟩
    · rintro ⟨ok, along⟩ n
      cases n with
      | zero => exact fine
      | succ n => exact (ih (inv_kept s a start) ((kept s a start fine).mpr ok)).mpr along n

end Machines
