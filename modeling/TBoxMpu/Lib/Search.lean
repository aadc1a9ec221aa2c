import Mathlib.Data.List.Basic

/-!
# Searching a list for the least

One pass over a list takes the first element that is marked, or else one whose key is least.
-/

namespace Search

variable {E : Type}

/-- The pass, with the best element so far. -/
def search (marked : E → Bool) (key : E → Nat) : Option E → List E → Option E
  | best, [] => best
  | best, e :: rest =>
    if marked e then some e
    else if best.all (key e < key ·) then search marked key (some e) rest
    else search marked key best rest

variable {marked : E → Bool} {key : E → Nat} {best : Option E} {e : E} {es : List E}

theorem search_marked (first : es.find? marked = some e) : search marked key best es = some e := by
  induction es generalizing best with
  | nil => cases first
  | cons d rest ih =>
    rw [search]
    by_cases mark : marked d
    · rw [List.find?_cons_of_pos mark] at first
      rw [if_pos mark, first]
    · rw [List.find?_cons_of_neg mark] at first
      rw [if_neg mark]
      split
      · exact ih first
      · exact ih first

/-- With a best element to start from one is found, it is one of those seen, and none of them has a
lesser key. -/
theorem search_least (unmarked : ∀ d ∈ es, ¬marked d) (b : E) :
    ∃ e ∈ b :: es, search marked key (some b) es = some e ∧ ∀ d ∈ b :: es, key e ≤ key d := by
  induction es generalizing b with
  | nil => exact ⟨b, List.mem_cons_self, rfl, by simp⟩
  | cons c rest ih =>
    have later : ∀ d ∈ rest, ¬marked d := fun d mem => unmarked d (List.mem_cons_of_mem c mem)
    rw [search, if_neg (unmarked c List.mem_cons_self), Option.all_some]
    by_cases less : key c < key b
    · obtain ⟨e, mem, found, least⟩ := ih later c
      rw [if_pos (decide_eq_true less)]
      refine ⟨e, List.mem_cons_of_mem b mem, found, fun d seen => ?_⟩
      rcases List.mem_cons.mp seen with rfl | seen
      · exact Nat.le_trans (least c List.mem_cons_self) (Nat.le_of_lt less)
      · exact least d seen
    · obtain ⟨e, mem, found, least⟩ := ih later b
      rw [if_neg (by simpa using Nat.not_lt.mp less)]
      refine ⟨e, ?_, found, fun d seen => ?_⟩
      · rcases List.mem_cons.mp mem with rfl | mem
        · exact List.mem_cons_self
        · exact List.mem_cons_of_mem b (List.mem_cons_of_mem c mem)
      · rcases List.mem_cons.mp seen with rfl | seen
        · exact least d List.mem_cons_self
        · rcases List.mem_cons.mp seen with rfl | seen
          · exact Nat.le_trans (least b List.mem_cons_self) (Nat.le_of_not_lt less)
          · exact least d (List.mem_cons_of_mem b seen)

theorem search_none_least (unmarked : ∀ d ∈ es, ¬marked d) :
    (es = [] ∧ search marked key none es = none) ∨
      ∃ e ∈ es, search marked key none es = some e ∧ ∀ d ∈ es, key e ≤ key d := by
  cases es with
  | nil => exact .inl ⟨rfl, rfl⟩
  | cons b rest =>
    rw [search, if_neg (unmarked b List.mem_cons_self), Option.all_none, if_pos rfl]
    exact .inr (search_least (fun d mem => unmarked d (List.mem_cons_of_mem b mem)) b)

end Search
