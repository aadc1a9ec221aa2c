import Mathlib.Logic.Function.Basic

/-!
# Two buffers that change roles

One buffer is filled while the other one waits to be taken away. Each operation is described by
what it leaves in the two roles.
-/

namespace DoubleBuffer

structure Buffers (α : Type) where
  data : Bool → List α
  curIdx : Bool
  syncIdx : Bool
  apart : syncIdx = !curIdx

namespace Buffers

variable {α : Type} (b : Buffers α) (xs : List α)

def initial : Buffers α := ⟨fun _ => [], false, true, rfl⟩

/-- The buffer that is filled. -/
def cur : List α := b.data b.curIdx

/-- The buffer that waits. -/
def sync : List α := b.data b.syncIdx

/-- The buffers change roles. -/
def turn : Buffers α := ⟨b.data, !b.curIdx, b.curIdx, (Bool.not_not _).symm⟩

def setCur : Buffers α := { b with data := Function.update b.data b.curIdx xs }

def setSync : Buffers α := { b with data := Function.update b.data b.syncIdx xs }

theorem roles_ne : b.syncIdx ≠ b.curIdx := by
  rw [b.apart]
  cases b.curIdx <;> decide

@[simp] theorem cur_initial : (initial : Buffers α).cur = [] := rfl

@[simp] theorem sync_initial : (initial : Buffers α).sync = [] := rfl

@[simp] theorem cur_turn : b.turn.cur = b.sync := by
  show b.data (!b.curIdx) = b.data b.syncIdx
  rw [b.apart]

@[simp] theorem sync_turn : b.turn.sync = b.cur := rfl

@[simp] theorem cur_setCur : (b.setCur xs).cur = xs := Function.update_self ..

@[simp] theorem sync_setSync : (b.setSync xs).sync = xs := Function.update_self ..

@[simp] theorem sync_setCur : (b.setCur xs).sync = b.sync :=
  Function.update_of_ne b.roles_ne _ _

@[simp] theorem cur_setSync : (b.setSync xs).cur = b.cur :=
  Function.update_of_ne b.roles_ne.symm _ _

end Buffers

end DoubleBuffer
