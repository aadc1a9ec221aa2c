import Mathlib.Logic.Function.Basic
import Mathlib.Logic.Relation

/-!
# Chains of single links

Cells of a type `A` carry at most one link each. `Leads next a b` follows the links from `a` to
`b`; `Ends next a` says that the links followed from `a` come to an end. Hanging a chain behind
the last cell of another keeps every way there was, and every chain still ends unless the chain
that was hung there leads back to that cell.
-/

namespace Chains

variable {A : Type} {next : A → Option A} {a b c : A}

/-- The links lead from `a` to `b`. -/
def Leads (next : A → Option A) : A → A → Prop :=
  Relation.ReflTransGen fun a b => next a = some b

/-- Following the links from `a` comes to an end. -/
inductive Ends (next : A → Option A) : A → Prop
  | last {a : A} : next a = none → Ends next a
  | more {a b : A} : next a = some b → Ends next b → Ends next a

theorem Leads.refl (a : A) : Leads next a a := Relation.ReflTransGen.refl

theorem Leads.trans (first : Leads next a b) (second : Leads next b c) : Leads next a c :=
  Relation.ReflTransGen.trans first second

theorem Leads.link (link : next a = some b) : Leads next a b := Relation.ReflTransGen.single link

theorem Leads.head (link : next a = some b) (rest : Leads next b c) : Leads next a c :=
  Relation.ReflTransGen.head link rest

/-- Either there is nothing to follow, or the first link is on the way. -/
theorem Leads.cases (leads : Leads next a c) : a = c ∨ ∃ b, next a = some b ∧ Leads next b c :=
  Relation.ReflTransGen.cases_head leads

/-- From the last cell of a chain there is no way on. -/
theorem Leads.eq_of_last (leads : Leads next a c) (last : next a = none) : a = c := by
  rcases leads.cases with same | ⟨b, link, -⟩
  · exact same
  · rw [last] at link
    cases link

/-- On a chain that ends no two cells lead to each other. -/
theorem Leads.antisymm (ends : Ends next a) (there : Leads next a b) (back : Leads next b a) :
    a = b := by
  induction ends generalizing b with
  | last last => exact there.eq_of_last last
  | more link _ ih =>
    rcases there.cases with same | ⟨c, link', rest⟩
    · exact same
    · rw [link] at link'
      cases link'
      -- the cell behind leads to `b`, and `b` back to it
      have step := ih rest (back.trans (Leads.link link))
      subst step
      exact (ih back (Leads.link link)).symm

/-! ### Hanging a chain behind another -/

section Link

variable [DecidableEq A] {e i : A}

theorem Leads.update (last : next e = none) (leads : Leads next a b) :
    Leads (Function.update next e (some i)) a b := by
  refine Relation.ReflTransGen.mono ?_ a b leads
  intro x y link
  change Function.update next e (some i) x = some y
  have other : x ≠ e := by
    rintro rfl
    rw [last] at link
    cases link
  rw [Function.update_of_ne other]
  exact link

theorem Leads.linked (i : A) (last : next e = none) (leads : Leads next a e) :
    Leads (Function.update next e (some i)) a i :=
  (leads.update last).trans (Leads.link (Function.update_self e (some i) next))

/-- A chain that does not lead to the cell with the new link is as before. -/
theorem Ends.update_of_not_leads (ends : Ends next a) (apart : ¬ Leads next a e) :
    Ends (Function.update next e (some i)) a := by
  induction ends with
  | @last a last =>
    have other : a ≠ e := by
      rintro rfl
      exact apart (Leads.refl a)
    exact .last (by rw [Function.update_of_ne other, last])
  | @more a b link _ ih =>
    have other : a ≠ e := by
      rintro rfl
      exact apart (Leads.refl a)
    refine .more (b := b) ?_ (ih fun leads => apart (leads.head link))
    rw [Function.update_of_ne other, link]

theorem Ends.update (ends : Ends next a) (hung : Ends next i) (apart : ¬ Leads next i e) :
    Ends (Function.update next e (some i)) a := by
  have rest := hung.update_of_not_leads (i := i) apart
  induction ends with
  | @last a last =>
    by_cases same : a = e
    · exact .more (by rw [same, Function.update_self]) rest
    · exact .last (by rw [Function.update_of_ne same, last])
  | @more a b link _ ih =>
    by_cases same : a = e
    · exact .more (by rw [same, Function.update_self]) rest
    · exact .more (by rw [Function.update_of_ne same, link]) ih

end Link

end Chains
