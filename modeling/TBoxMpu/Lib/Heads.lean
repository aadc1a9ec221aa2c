import Mathlib.Logic.Function.Basic
import Mathlib.Algebra.BigOperators.Group.Finset.Basic
import Mathlib.Algebra.Order.Group.Multiset

/-!
# List heads

A family of doubly linked lists, each seen as the list of what is linked on it. An element
is unlinked at either end and linked in behind the head or before it.
-/

namespace Heads

variable {L A : Type} [DecidableEq L]

def set (heads : L → List A) (l : L) (as : List A) : L → List A :=
  Function.update heads l as

/-- Linked in at the end of the list. -/
def insertBefore (heads : L → List A) (l : L) (a : A) : L → List A :=
  set heads l (heads l ++ [a])

/-- Linked in at the front of the list. -/
def insertAfter (heads : L → List A) (l : L) (a : A) : L → List A :=
  set heads l (a :: heads l)

def getFirst (heads : L → List A) (l : L) : Option (A × (L → List A)) :=
  match heads l with
  | [] => none
  | a :: as => some (a, set heads l as)

def getLast (heads : L → List A) (l : L) : Option (A × (L → List A)) :=
  match (heads l).getLast? with
  | none => none
  | some a => some (a, set heads l (heads l).dropLast)

variable {heads heads' : L → List A} {l : L} {a : A}

@[simp] theorem set_apply (heads : L → List A) (l k : L) (as : List A) :
    set heads l as k = if k = l then as else heads k := by
  simp [set, Function.update_apply]

@[simp] theorem insertBefore_apply (heads : L → List A) (l k : L) (a : A) :
    insertBefore heads l a k = if k = l then heads l ++ [a] else heads k := by
  simp [insertBefore]

@[simp] theorem insertAfter_apply (heads : L → List A) (l k : L) (a : A) :
    insertAfter heads l a k = if k = l then a :: heads l else heads k := by
  simp [insertAfter]

theorem getFirst_none : getFirst heads l = none ↔ heads l = [] := by
  unfold getFirst
  split <;> simp_all

theorem getFirst_some (h : getFirst heads l = some (a, heads')) :
    ∃ as, heads l = a :: as ∧ heads' = set heads l as := by
  unfold getFirst at h
  split at h
  · cases h
  next b as content =>
    cases h
    exact ⟨as, content, rfl⟩

theorem getLast_none : getLast heads l = none ↔ heads l = [] := by
  unfold getLast
  split
  next last => simpa using last
  next b last =>
    have ne : heads l ≠ [] := by
      rintro empty
      simp [empty] at last
    simp [ne]

theorem getLast_some (h : getLast heads l = some (a, heads')) :
    ∃ as, heads l = as ++ [a] ∧ heads' = set heads l as := by
  unfold getLast at h
  split at h
  · cases h
  next b last =>
    cases h
    obtain ⟨as, content⟩ := List.getLast?_eq_some_iff.mp last
    exact ⟨as, content, by simp [content]⟩

/-! ### What is linked in all -/

variable {B : Type}

/-- What `f` reads off the elements of the lists in `on`, with multiplicity. -/
def total (on : Finset L) (f : A → B) (heads : L → List A) : Multiset B :=
  ∑ l ∈ on, ↑((heads l).map f)

variable {on : Finset L} {f : A → B}

theorem total_set (on : Finset L) (f : A → B) (heads : L → List A) (l : L) (as : List A) :
    total on f (set heads l as) + (if l ∈ on then ↑((heads l).map f) else 0) =
      total on f heads + (if l ∈ on then ↑(as.map f) else 0) := by
  by_cases inside : l ∈ on
  · have others : ∑ k ∈ on.erase l, (((set heads l as) k).map f : Multiset B) =
        ∑ k ∈ on.erase l, ((heads k).map f : Multiset B) := by
      apply Finset.sum_congr rfl
      intro k mem
      rw [set_apply, if_neg (Finset.ne_of_mem_erase mem)]
    rw [if_pos inside, if_pos inside, total, total, ← Finset.add_sum_erase on _ inside,
      ← Finset.add_sum_erase on (fun k => ((heads k).map f : Multiset B)) inside, others,
      set_apply, if_pos rfl, add_right_comm, add_comm (as.map f : Multiset B), add_right_comm]
  · rw [if_neg inside, if_neg inside, add_zero, add_zero]
    apply Finset.sum_congr rfl
    intro k mem
    rw [set_apply, if_neg]
    rintro rfl
    exact inside mem

/-- What the element `a` of the list `l` counts. -/
def worth (on : Finset L) (f : A → B) (l : L) (a : A) : Multiset B :=
  if l ∈ on then {f a} else 0

theorem total_insertAfter (on : Finset L) (f : A → B) (heads : L → List A) (l : L) (a : A) :
    total on f (insertAfter heads l a) = total on f heads + worth on f l a := by
  have change := total_set on f heads l (a :: heads l)
  unfold worth
  by_cases inside : l ∈ on
  · rw [if_pos inside, if_pos inside, List.map_cons, ← Multiset.cons_coe,
      ← Multiset.singleton_add, ← add_assoc] at change
    rw [if_pos inside]
    exact add_right_cancel change
  · rw [if_neg inside, if_neg inside, add_zero] at change
    rw [if_neg inside]
    exact change

theorem total_insertBefore (on : Finset L) (f : A → B) (heads : L → List A) (l : L) (a : A) :
    total on f (insertBefore heads l a) = total on f heads + worth on f l a := by
  have change := total_set on f heads l (heads l ++ [a])
  unfold worth
  by_cases inside : l ∈ on
  · rw [if_pos inside, if_pos inside, List.map_append, List.map_singleton, ← Multiset.coe_add,
      Multiset.coe_singleton, add_comm ((heads l).map f : Multiset B), ← add_assoc] at change
    rw [if_pos inside]
    exact add_right_cancel change
  · rw [if_neg inside, if_neg inside, add_zero] at change
    rw [if_neg inside]
    exact change

theorem total_getFirst (on : Finset L) (f : A → B) (h : getFirst heads l = some (a, heads')) :
    total on f heads = total on f heads' + worth on f l a := by
  obtain ⟨as, content, rfl⟩ := getFirst_some h
  rw [← total_insertAfter, insertAfter]
  congr 1
  funext k
  rw [set_apply, set_apply, set_apply, if_pos rfl]
  split
  next same => rw [same, content]
  · rfl

theorem total_getLast (on : Finset L) (f : A → B) (h : getLast heads l = some (a, heads')) :
    total on f heads = total on f heads' + worth on f l a := by
  obtain ⟨as, content, rfl⟩ := getLast_some h
  rw [← total_insertBefore, insertBefore]
  congr 1
  funext k
  rw [set_apply, set_apply, set_apply, if_pos rfl]
  split
  next same => rw [same, content]
  · rfl

theorem worth_le (on : Finset L) (f : A → B) (l : L) (a : A) : worth on f l a ≤ {f a} := by
  unfold worth
  split
  · exact le_rfl
  · exact Multiset.zero_le _

end Heads
