import Mathlib.Algebra.BigOperators.Fin
import Mathlib.Algebra.BigOperators.Group.Finset.Lemmas
import Mathlib.Data.UInt
import TBoxMpu.Lib.Bits

/-!
# Circulant maps

A vector over a group of places is taken to one whose entry at a place is a weighted sum of the
entries from there on. The weights are additive maps. Two such maps make a third, with the
weights convolved.

The bytes are such a group with the exclusive or.
-/

namespace Circulant

variable {G : Type} [AddCommGroup G] [Fintype G] {A : Type} [AddCommMonoid A]

def apply (m : G → A →+ A) (t : G → A) : G → A := fun r => ∑ i, m i (t (r + i))

def mul (m' m : G → A →+ A) : G → A →+ A := fun k => ∑ j, (m' j).comp (m (k - j))

theorem apply_apply (m' m : G → A →+ A) (t : G → A) :
    apply m' (apply m t) = apply (mul m' m) t := by
  funext r
  have row (j : G) : m' j (∑ i, m i (t (r + j + i))) = ∑ k, m' j (m (k - j) (t (r + k))) := by
    rw [map_sum]
    -- the place `k` is `j` and the `i`-th from there
    refine Fintype.sum_equiv (Equiv.addLeft j) _ _ fun i => ?_
    rw [Equiv.coe_addLeft, add_sub_cancel_left, add_assoc]
  calc apply m' (apply m t) r
    _ = ∑ j, ∑ k, m' j (m (k - j) (t (r + k))) := Finset.sum_congr rfl fun j _ => row j
    _ = ∑ k, ∑ j, m' j (m (k - j) (t (r + k))) := Finset.sum_comm
    _ = apply (mul m' m) t r := by
      refine Finset.sum_congr rfl fun k _ => ?_
      rw [mul, AddMonoidHom.finsetSum_apply]
      rfl

/-- Weights whose convolution is one at the place itself and zero elsewhere. -/
theorem apply_undo [DecidableEq G] {m' m : G → A →+ A}
    (unit : ∀ k a, mul m' m k a = if k = 0 then a else 0) (t : G → A) :
    apply m' (apply m t) = t := by
  rw [apply_apply]
  funext r
  unfold apply
  simp only [unit]
  rw [Finset.sum_ite_eq' Finset.univ 0, if_pos (Finset.mem_univ 0), add_zero]

/-! ### Bytes -/

/-- A byte, added by exclusive or. -/
def XorByte := UInt8

instance : Zero XorByte := ⟨(0 : UInt8)⟩

instance : Add XorByte := ⟨UInt8.xor⟩

instance : Neg XorByte := ⟨id⟩

instance : AddCommGroup XorByte where
  add_assoc := UInt8.xor_assoc
  zero_add _ := UInt8.zero_xor
  add_zero _ := UInt8.xor_zero
  add_comm := UInt8.xor_comm
  neg_add_cancel _ := UInt8.xor_self
  nsmul := nsmulRec
  zsmul := zsmulRec

/-- A map of bytes that respects the exclusive or. -/
def xorHom (f : UInt8 → UInt8) (additive : ∀ a b, f (a ^^^ b) = f a ^^^ f b) :
    XorByte →+ XorByte :=
  AddMonoidHom.mk' f additive

/-- The bytes with one bit. -/
def singleBits : List UInt8 := [0x01, 0x02, 0x04, 0x08, 0x10, 0x20, 0x40, 0x80]

def bitsOf (b : UInt8) : List UInt8 := singleBits.filter fun x => b &&& x ≠ 0

theorem sum_bitsOf (b : XorByte) : (show List XorByte from bitsOf b).sum = b := by
  have bytes : ∀ b : UInt8, (bitsOf b).foldr UInt8.xor 0 = b := Bits.forall_byte (by decide +kernel)
  exact bytes b

/-- The bytes with one bit tell a map that respects the exclusive or. -/
theorem xorHom_ext {f g : XorByte →+ XorByte}
    (same : ∀ b : XorByte, b ∈ singleBits → f b = g b) : f = g := by
  refine AddMonoidHom.ext fun b => ?_
  rw [← sum_bitsOf b, map_list_sum, map_list_sum]
  congr 1
  exact List.map_congr_left fun x mem => same x (List.mem_of_mem_filter mem)

end Circulant
