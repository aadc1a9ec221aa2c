import Mathlib.Data.List.Forall2

/-!
# Tables that are filled from a list

A table of `max` entries is filled from the elements of a list, of which it takes the first
`max`. It holds the whole list exactly if the list is no longer than the table.
-/

namespace Tables

variable {α β ε : Type}

/-- A loop that succeeds gives an entry for each element. -/
theorem mapM_forall₂ {f : α → Except ε β} {as : List α} {bs : List β} (h : as.mapM f = .ok bs) :
    List.Forall₂ (fun a b => f a = .ok b) as bs := by
  induction as generalizing bs with
  | nil =>
    obtain rfl := Except.ok.inj h
    exact .nil
  | cons a as ih =>
    rw [List.mapM_cons] at h
    cases first : f a with
    | error e =>
      rw [first] at h
      cases h
    | ok b =>
      rw [first] at h
      cases rest : as.mapM f with
      | error e =>
        rw [rest] at h
        cases h
      | ok bs =>
        rw [rest] at h
        obtain rfl := Except.ok.inj h
        exact .cons first (ih rest)

theorem forall₂_left {r : α → β → Prop} {as : List α} {bs : List β} (each : List.Forall₂ r as bs)
    {a : α} (mem : a ∈ as) : ∃ b ∈ bs, r a b := by
  induction each with
  | nil => cases mem
  | cons first _ ih =>
    rcases List.mem_cons.mp mem with rfl | mem
    · exact ⟨_, List.mem_cons_self, first⟩
    · obtain ⟨b, here, related⟩ := ih mem
      exact ⟨b, List.mem_cons_of_mem _ here, related⟩

theorem forall₂_right {r : α → β → Prop} {p : β → Prop} {as : List α} {bs : List β}
    (each : List.Forall₂ r as bs) (holds : ∀ a b, r a b → p b) : ∀ b ∈ bs, p b := by
  induction each with
  | nil => exact nofun
  | cons first _ ih => exact List.forall_mem_cons.mpr ⟨holds _ _ first, ih⟩

theorem forall₂_iff {loads holds : α → β → Prop} {fits : α → Prop} {as : List α} {bs : List β}
    (loaded : List.Forall₂ loads as bs) (each : ∀ a b, loads a b → (holds a b ↔ fits a)) :
    List.Forall₂ holds as bs ↔ ∀ a ∈ as, fits a := by
  induction loaded with
  | nil => exact iff_of_true .nil nofun
  | cons first _ ih => rw [List.forall₂_cons, List.forall_mem_cons, ih, each _ _ first]

/-- There is room for all elements, and each of them fits. -/
def Fits (max : Nat) (fits : α → Prop) (as : List α) : Prop := as.length ≤ max ∧ ∀ a ∈ as, fits a

instance (max : Nat) (fits : α → Prop) [DecidablePred fits] (as : List α) :
    Decidable (Fits max fits as) := inferInstanceAs (Decidable (_ ∧ _))

/-- A table that was filled holds all elements exactly if they fit. -/
theorem holds_iff {max : Nat} {loads holds : α → β → Prop} {fits : α → Prop} {as : List α}
    {bs : List β} (loaded : List.Forall₂ loads (as.take max) bs)
    (each : ∀ a b, loads a b → (holds a b ↔ fits a)) :
    List.Forall₂ holds as bs ↔ Fits max fits as := by
  have lengths := loaded.length_eq
  rw [List.length_take] at lengths
  constructor
  · intro all
    have short : as.length ≤ max := by
      have whole := all.length_eq
      omega
    rw [List.take_of_length_le short] at loaded
    exact ⟨short, (forall₂_iff loaded each).mp all⟩
  · rintro ⟨short, fits⟩
    rw [List.take_of_length_le short] at loaded
    exact (forall₂_iff loaded each).mpr fits

end Tables
