import Mathlib.Data.FinEnum
import TBoxMpu.Uds.Snapshot

/-!
# The number of faults and their list

The sub-functions 0x01 and 0x02 of 0x19 have a case of their own for each of the supported
status bits. In every case they count and list the items whose status has a bit of the mask
(`reportNumber_eq`, `reportByMask_eq`), so that the number is that of the records
(`report_consistent`).
-/

namespace Uds

/-! ### What a tester reads -/

/-- The number in the answer to 0x01. -/
def reportedNumber : DtcReply → Option Nat
  | .positive [_, _, _, _, high, low] => some (high.toNat * 256 + low.toNat)
  | _ => none

/-- The DTCs, each with its status. -/
def dtcRecords : List UInt8 → List (UInt32 × UInt8)
  | high :: middle :: low :: status :: rest => (dtcOf high middle low, status) :: dtcRecords rest
  | _ => []

/-- The records in the answer to 0x02. -/
def reportedRecords : DtcReply → Option (List (UInt32 × UInt8))
  | .positive (_ :: _ :: _ :: records) => some (dtcRecords records)
  | _ => none

theorem dtcRecords_flatMap {dtc : Nat → UInt32} (whole : ∀ i, dtc i < 0x1000000)
    (status : Nat → UInt8) (items : List Nat) :
    dtcRecords (items.flatMap fun i => dtcBytes (dtc i) ++ [status i]) =
      items.map fun i => (dtc i, status i) := by
  induction items with
  | nil => rfl
  | cons i rest ih =>
    rw [List.flatMap_cons, List.map_cons, ← ih]
    simp only [dtcBytes, List.cons_append, List.nil_append, dtcRecords, dtcOf_dtcBytes (whole i)]

theorem toNat_number {n : Nat} (small : n < 2 ^ 16) :
    (UInt16.ofNat n >>> 8).toUInt8.toNat * 256 + (UInt8.ofNat n).toNat = n := by
  simp [UInt16.toNat_shiftRight, Nat.shiftRight_eq_div_pow]
  omega

/-! ### The items of a mask -/

variable (c : DiagCfg) (slots : List DiagSlot)

/-- The status of an item. -/
def diagStatus (s : DiagState) (i : Nat) : UInt8 :=
  statusOfDtc (diagIsUncfm s i) (diagIsCfm slots s i)

def matchesMask (s : DiagState) (mask : UInt8) (i : Nat) : Bool :=
  diagStatus slots s i &&& mask ≠ 0

theorem mask_cases : ∀ mask : UInt8, mask &&& statusOfDtc true true = 0 ∨
    mask &&& statusOfDtc true true = statusOfDtc true true ∨
    mask &&& statusOfDtc true true = statusOfDtc true false ∨
    mask &&& statusOfDtc true true = statusOfDtc false true := by
  decide +kernel

/-- A status has the supported bits only. -/
theorem status_and : ∀ (testfail confirmed : Bool) (mask : UInt8),
    statusOfDtc testfail confirmed &&& mask =
      statusOfDtc testfail confirmed &&& (mask &&& statusOfDtc true true) := by
  decide +kernel

variable {c slots}

theorem matchesMask_eq (chosen : Bool → Bool → Bool) {s : DiagState} {mask : UInt8}
    (same : ∀ testfail confirmed, decide (statusOfDtc testfail confirmed &&&
      (mask &&& statusOfDtc true true) ≠ 0) = chosen testfail confirmed) :
    matchesMask slots s mask = fun i => chosen (diagIsUncfm s i) (diagIsCfm slots s i) := by
  funext i
  rw [← same, ← status_and]
  rfl

variable (slots) in
/-- The supported bits of a mask, and the items that they choose. -/
theorem mask_chooses (s : DiagState) (mask : UInt8) :
    (mask &&& statusOfDtc true true = 0 ∧ matchesMask slots s mask = fun _ => false) ∨
    (mask &&& statusOfDtc true true = statusOfDtc true true ∧
      matchesMask slots s mask = fun i => diagIsCfm slots s i || diagIsUncfm s i) ∨
    (mask &&& statusOfDtc true true = statusOfDtc true false ∧
      matchesMask slots s mask = diagIsUncfm s) ∨
    (mask &&& statusOfDtc true true = statusOfDtc false true ∧
      matchesMask slots s mask = diagIsCfm slots s) := by
  rcases mask_cases mask with bits | bits | bits | bits
  · exact .inl ⟨bits, matchesMask_eq (fun _ _ => false) (by rw [bits]; decide)⟩
  · exact .inr (.inl ⟨bits, matchesMask_eq (fun u f => f || u) (by rw [bits]; decide)⟩)
  · exact .inr (.inr (.inl ⟨bits, matchesMask_eq (fun u _ => u) (by rw [bits]; decide)⟩))
  · exact .inr (.inr (.inr ⟨bits, matchesMask_eq (fun _ f => f) (by rw [bits]; decide)⟩))

/-- 0x01 counts the items of the mask. -/
theorem reportNumber_eq (s : DiagState) (mask : UInt8) :
    reportNumberOfDtcByStatusMask c slots s [0x19, 0x01, mask] =
      dtcReply [0x59, 0x01, statusOfDtc true true, 0,
        (UInt16.ofNat (dtcNum c (matchesMask slots s mask)) >>> 8).toUInt8,
        UInt8.ofNat (dtcNum c (matchesMask slots s mask))] := by
  unfold reportNumberOfDtcByStatusMask
  rw [if_neg (by simp)]
  have third : List.getD [0x19, 0x01, mask] 2 0 = mask := rfl
  dsimp only
  rw [third]
  rcases mask_chooses slots s mask with
    ⟨bits, items⟩ | ⟨bits, items⟩ | ⟨bits, items⟩ | ⟨bits, items⟩
  · have none : dtcNum c (fun _ => false) = 0 := congrFun List.countP_false _
    rw [bits, items, none]
    rfl
  · rw [bits, items]
    rfl
  · rw [bits, items]
    rfl
  · rw [bits, items]
    rfl

/-- 0x02 lists the items of the mask. -/
theorem reportByMask_eq (s : DiagState) (mask : UInt8) :
    reportDtcByStatusMask c slots s [0x19, 0x02, mask] =
      reportDtcs c slots s [0x19, 0x02, mask] (matchesMask slots s mask) := by
  unfold reportDtcByStatusMask
  rw [if_neg (by simp)]
  have third : List.getD [0x19, 0x02, mask] 2 0 = mask := rfl
  dsimp only
  rw [third]
  rcases mask_chooses slots s mask with
    ⟨bits, items⟩ | ⟨bits, items⟩ | ⟨bits, items⟩ | ⟨bits, items⟩
  · have none : (List.range c.items.length).filter (fun _ => false) = [] := by simp
    rw [bits, items, reportDtcs, none]
    rfl
  · rw [bits, items]
    rfl
  · rw [bits, items]
    rfl
  · rw [bits, items]
    rfl

/-! ### Their agreement -/

/-- The number of 0x01 is that of the records of 0x02, which are the DTCs of which the status
has a bit of the mask. -/
theorem report_agrees (few : c.items.length ≤ 49) (whole : ∀ i, diagDtc c i < 0x1000000)
    (distinct : ((List.range c.items.length).map (diagDtc c)).Nodup) (s : DtcServer)
    (mask : UInt8) :
    ∃ records, reportedRecords (udsSrvReadDtc c slots s [0x19, 0x02, mask]).2 = some records ∧
      reportedNumber (udsSrvReadDtc c slots s [0x19, 0x01, mask]).2 = some records.length ∧
      (records.map Prod.fst).Nodup ∧
      ∀ dtc status, (dtc, status) ∈ records ↔ ∃ i < c.items.length, diagDtc c i = dtc ∧
        diagStatus slots s.diag i = status ∧ status &&& mask ≠ 0 := by
  let items := (List.range c.items.length).filter (matchesMask slots s.diag mask)
  let bytes := items.flatMap fun i => dtcBytes (diagDtc c i) ++ [diagStatus slots s.diag i]
  have sub : items.Sublist (List.range c.items.length) := List.filter_sublist
  have few_items : items.length ≤ 49 := by
    have le := sub.length_le
    rw [List.length_range] at le
    exact le.trans few
  have length : bytes.length = items.length * 4 := by
    simp [bytes, List.length_flatMap, dtcBytes]
  have listed : (udsSrvReadDtc c slots s [0x19, 0x02, mask]).2 =
      .positive ([0x59, 0x02, statusOfDtc true true] ++ bytes) := by
    change reportDtcByStatusMask c slots s.diag [0x19, 0x02, mask] = _
    rw [reportByMask_eq]
    -- with 49 items at most, the records fit in the answer
    refine if_pos ?_
    change ([0x59, 0x02, statusOfDtc true true] ++ bytes).length ≤ 200
    rw [List.length_append, length]
    exact Nat.le_trans (Nat.add_le_add_left (Nat.mul_le_mul_right 4 few_items) 3) (by decide)
  have counted : (udsSrvReadDtc c slots s [0x19, 0x01, mask]).2 = .positive
      [0x59, 0x01, statusOfDtc true true, 0, (UInt16.ofNat items.length >>> 8).toUInt8,
        UInt8.ofNat items.length] := by
    change reportNumberOfDtcByStatusMask c slots s.diag [0x19, 0x01, mask] = _
    rw [reportNumber_eq, dtcNum, List.countP_eq_length_filter]
    rfl
  refine ⟨items.map fun i => (diagDtc c i, diagStatus slots s.diag i), ?_, ?_, ?_, ?_⟩
  · rw [listed]
    exact congrArg some (dtcRecords_flatMap whole _ items)
  · rw [counted, List.length_map]
    exact congrArg some (toNat_number (by omega))
  · rw [List.map_map]
    exact distinct.sublist (sub.map (diagDtc c))
  · intro dtc status
    simp only [items, List.mem_map, List.mem_filter, List.mem_range, matchesMask,
      decide_eq_true_eq, Prod.mk.injEq]
    constructor
    · rintro ⟨i, ⟨less, shown⟩, rfl, rfl⟩
      exact ⟨i, less, rfl, rfl, shown⟩
    · rintro ⟨i, less, rfl, rfl, shown⟩
      exact ⟨i, ⟨less, shown⟩, rfl, rfl⟩

/-- In every state of the vehicle's faults and for every mask. -/
theorem report_consistent (s : DtcServer) (mask : UInt8) :
    ∃ records,
      reportedRecords (udsSrvReadDtc ftDiag ftSlots s [0x19, 0x02, mask]).2 = some records ∧
      reportedNumber (udsSrvReadDtc ftDiag ftSlots s [0x19, 0x01, mask]).2 =
        some records.length ∧
      (records.map Prod.fst).Nodup ∧
      ∀ dtc status, (dtc, status) ∈ records ↔ ∃ i < ftDiag.items.length, diagDtc ftDiag i = dtc ∧
        diagStatus ftSlots s.diag i = status ∧ status &&& mask ≠ 0 :=
  report_agrees (by decide) (diagDtc_whole ftTable) (by decide) s mask

end Uds
