import TBoxMpu.Lib.Circular

/-!
# Values in a flat buffer

The values of a table lie in a buffer one behind the other, each in the slot that its offset
and its length give. Reading a slot gives its value, and writing one replaces this value only.
-/

namespace Slots

open Circular

variable {α : Type}

structure Slot where
  offset : Nat
  len : Nat

def slice (cells : List α) (slot : Slot) : List α :=
  (cells.drop slot.offset).take slot.len

/-- The slots follow each other from `start` on, and each is as long as its value. -/
def Laid : Nat → List Slot → List (List α) → Prop
  | _, [], [] => True
  | start, slot :: slots, value :: values =>
    slot.offset = start ∧ slot.len = value.length ∧ Laid (start + value.length) slots values
  | _, _, _ => False

variable {start i : Nat} {slots : List Slot} {slot : Slot} {values : List (List α)}

theorem Laid.length_eq (laid : Laid start slots values) : slots.length = values.length := by
  induction slots generalizing start values with
  | nil =>
    cases values with
    | nil => rfl
    | cons value values => exact laid.elim
  | cons slot slots ih =>
    cases values with
    | nil => exact laid.elim
    | cons value values => rw [List.length_cons, List.length_cons, ih laid.2.2]

/-- In front of a slot lie the values in front of its own. -/
theorem Laid.split (laid : Laid start slots values) (get : slots[i]? = some slot) :
    ∃ front value back, values = front ++ value :: back ∧ front.length = i ∧
      slot.offset = start + front.flatten.length ∧ slot.len = value.length := by
  induction slots generalizing start values i with
  | nil => exact nomatch get
  | cons head slots ih =>
    cases values with
    | nil => exact laid.elim
    | cons value values =>
      obtain ⟨offset, len, laid⟩ := laid
      cases i with
      | zero =>
        obtain rfl := Option.some.inj get
        exact ⟨[], value, values, rfl, rfl, offset, len⟩
      | succ i =>
        obtain ⟨front, found, back, rfl, rfl, offset, len⟩ := ih laid get
        refine ⟨value :: front, found, back, rfl, rfl, ?_, len⟩
        rw [offset, List.flatten_cons, List.length_append, Nat.add_assoc]

theorem Laid.replace {front back : List (List α)} {value data : List α}
    (laid : Laid start slots (front ++ value :: back)) (length : data.length = value.length) :
    Laid start slots (front ++ data :: back) := by
  induction front generalizing start slots with
  | nil =>
    cases slots with
    | nil => exact laid.elim
    | cons slot slots =>
      obtain ⟨offset, len, laid⟩ := laid
      exact ⟨offset, len.trans length.symm, length ▸ laid⟩
  | cons first front ih =>
    cases slots with
    | nil => exact laid.elim
    | cons slot slots => exact ⟨laid.1, laid.2.1, ih laid.2.2⟩

theorem slice_flatten {front back : List (List α)} {value : List α} (rest : List α)
    (offset : slot.offset = front.flatten.length) (len : slot.len = value.length) :
    slice ((front ++ value :: back).flatten ++ rest) slot = value := by
  unfold slice
  rw [offset, len, List.flatten_append, List.flatten_cons, List.append_assoc, List.drop_left,
    List.append_assoc, List.take_left]

theorem overwrite_flatten {front back : List (List α)} {value data : List α} (rest : List α)
    (length : data.length = value.length) :
    overwrite ((front ++ value :: back).flatten ++ rest) front.flatten.length data =
      (front ++ data :: back).flatten ++ rest := by
  rw [List.flatten_append, List.flatten_cons, List.append_assoc, overwrite_append,
    List.append_assoc value, List.drop_left' length.symm, List.flatten_append, List.flatten_cons]
  simp only [List.append_assoc]

/-- A slot holds its value. -/
theorem Laid.slice_eq (laid : Laid 0 slots values) (get : slots[i]? = some slot)
    (rest : List α) : values[i]? = some (slice (values.flatten ++ rest) slot) := by
  obtain ⟨front, value, back, rfl, rfl, offset, len⟩ := laid.split get
  rw [Nat.zero_add] at offset
  rw [slice_flatten rest offset len, List.getElem?_append_right le_rfl, Nat.sub_self]
  rfl

/-- A slot lies inside the buffer. -/
theorem Laid.inside (laid : Laid 0 slots values) (get : slots[i]? = some slot) :
    slot.offset + slot.len ≤ values.flatten.length := by
  obtain ⟨front, value, back, rfl, rfl, offset, len⟩ := laid.split get
  rw [offset, len, List.flatten_append, List.flatten_cons, List.length_append, List.length_append]
  omega

/-- Writing a slot replaces its value. -/
theorem Laid.overwrite_eq (laid : Laid 0 slots values) (get : slots[i]? = some slot)
    {data : List α} (length : data.length = slot.len) (rest : List α) :
    overwrite (values.flatten ++ rest) slot.offset data = (values.set i data).flatten ++ rest ∧
    Laid 0 slots (values.set i data) := by
  obtain ⟨front, value, back, rfl, rfl, offset, len⟩ := laid.split get
  have set : (front ++ value :: back).set front.length data = front ++ data :: back := by
    rw [List.set_append_right _ _ le_rfl, Nat.sub_self, List.set_cons_zero]
  rw [set, offset, Nat.zero_add]
  exact ⟨overwrite_flatten rest (length.trans len), laid.replace (length.trans len)⟩

end Slots
