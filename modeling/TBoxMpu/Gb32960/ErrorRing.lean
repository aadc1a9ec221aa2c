import Mathlib.Data.Fintype.Card
import TBoxMpu.Gb32960.Store

/-!
# The ring of error packs

The packs of the last 30 seconds, in `gb_errmem`. Saving writes the packs round the ring; a flush
goes backwards from `gb_errlst_head` and takes the packs that hold something.
-/

namespace Gb32960

def gbMaxPackCell : Nat := 800

/-- The length of `gb_errmem`. -/
def gbMaxError : Nat := (gbMaxPackCell + 199) / 200 * 30

/-- A node of `gb_errmem`. -/
abbrev GbErrNode := Fin gbMaxError

/-- `gb_errmem`, and its nodes on the ring from `gb_errlst_head` on; there is none when the head
is `NULL`. -/
structure GbErrors where
  mem : GbErrNode → GbPack
  ring : List GbErrNode
  nodup : ring.Nodup

/-- The packs on the ring that hold something. -/
def GbErrors.filled (s : GbErrors) : Nat := s.ring.countP fun n => (s.mem n).data ≠ []

/-! ### Operations -/

/-- One round of the loop of `gb_data_save_error`; without a ring it dereferences `NULL`. -/
def gbSaveErrorOne (s : GbErrors) (i : Nat) (data : List UInt8) : Option GbErrors :=
  match content : s.ring with
  | [] => none
  -- the oldest pack is overwritten, and the head goes on
  | n :: ns => some {
      mem := Function.update s.mem n { s.mem n with data, seq := i + 1 }
      ring := ns ++ [n]
      nodup := (List.perm_append_singleton n ns).nodup_iff.mpr (content ▸ s.nodup) }

def gbSaveErrorFrom (s : GbErrors) (i : Nat) : List (List UInt8) → Option GbErrors
  | [] => some s
  | data :: rest => (gbSaveErrorOne s i data).bind fun s => gbSaveErrorFrom s (i + 1) rest

def gbDataSaveError (s : GbErrors) (groups : List (List UInt8)) : Option GbErrors :=
  gbSaveErrorFrom s 0 groups

/-- What the loop of `gb_data_flush_error` does to the ring, with the pack it takes; `none` when
the pack before the head is empty. -/
def gbErrorTake (s : GbErrors) : Option (GbPack × GbErrors) :=
  match content : s.ring.getLast? with
  | none => none
  | some n =>
    if (s.mem n).data = [] then none
    else some (s.mem n, {
      mem := Function.update s.mem n { s.mem n with data := [] }
      -- the head goes back to the pack that was taken
      ring := n :: s.ring.dropLast
      nodup := by
        have last := List.dropLast_append_getLast? n content
        refine (List.perm_append_singleton n s.ring.dropLast).nodup_iff.mp ?_
        rw [last]
        exact s.nodup })

def gbDataClearError (s : GbErrors) : GbErrors :=
  { s with mem := fun n => if n ∈ s.ring then { s.mem n with data := [] } else s.mem n }

/-- The ring of a loaded DBC with this `GROUP_SIZE`. The first node keeps what it holds. -/
def gbErrorInit (s : GbErrors) (groups : Nat) : GbErrors where
  mem n :=
    -- the loop of the code begins behind the first node
    if 0 < n.val ∧ n.val < groups * 30 then
      { s.mem n with data := [], type := gbRpttypeDelay, list := .delay }
    else s.mem n
  ring := (List.finRange gbMaxError).take (groups * 30)
  nodup := (List.take_sublist _ _).nodup (List.nodup_finRange _)

/-! ### How many packs a flush takes -/

variable {s t : GbErrors}

theorem filled_le (s : GbErrors) : s.filled ≤ gbMaxError := by
  have card := s.nodup.length_le_card
  rw [Fintype.card_fin] at card
  exact List.countP_le_length.trans card

/-- A taken pack is empty afterwards, and the others are as before. -/
theorem filled_take {err : GbPack} (taken : gbErrorTake s = some (err, t)) :
    t.filled + 1 = s.filled := by
  unfold gbErrorTake at taken
  split at taken
  · cases taken
  next n last =>
    split at taken
    · cases taken
    next holds =>
      cases taken
      have ring := List.dropLast_append_getLast? n last
      -- the taken node is on the ring once
      have fresh : n ∉ s.ring.dropLast := by
        have nodup := s.nodup
        rw [← ring] at nodup
        intro mem
        exact (List.nodup_append.mp nodup).2.2 n mem n (by simp) rfl
      have others : ∀ m ∈ s.ring.dropLast,
          (Function.update s.mem n { s.mem n with data := [] } m).data = (s.mem m).data := by
        intro m mem
        rw [Function.update_of_ne]
        rintro rfl
        exact fresh mem
      have before : s.filled = s.ring.dropLast.countP (fun m => (s.mem m).data ≠ []) + 1 := by
        unfold GbErrors.filled
        rw [← ring, List.countP_append]
        simp [holds]
      rw [before]
      unfold GbErrors.filled
      rw [List.countP_cons_of_neg (by simp)]
      congr 1
      apply List.countP_congr
      intro m mem
      rw [others m mem]

end Gb32960
