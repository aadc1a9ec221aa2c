import TBoxMpu.Uds.FreezeFrame
import TBoxMpu.Uds.ReadDtc

/-!
# Snapshots and their numbers

Two sub-functions of 0x19 give a fault the same number as long as no fault is confirmed after
the numbers were assigned: 0x03 assigns them anew, 0x04 uses those assigned last.
-/

namespace Uds

/-! ### The groups of an answer -/

/-- A DTC and its number, as a tester reads them from the answer to 0x03. -/
def snapshotGroups : List UInt8 → List (List UInt8)
  | high :: middle :: low :: number :: rest => [high, middle, low, number] :: snapshotGroups rest
  | _ => []

/-- What 0x03 lists in a state. -/
def snapshotListed (c : DiagCfg) (slots : List DiagSlot) (s : DtcServer) : List (List UInt8) :=
  match (udsSrvReadDtc c slots s [0x19, 0x03]).2 with
  | .positive data => snapshotGroups (data.drop 2)
  | _ => []

theorem snapshotGroups_flatMap (dtc : Nat → UInt32) (number : Nat → UInt8) (items : List Nat) :
    snapshotGroups (items.flatMap fun i => dtcBytes (dtc i) ++ [number i]) =
      items.map fun i => dtcBytes (dtc i) ++ [number i] := by
  induction items with
  | nil => rfl
  | cons i rest ih =>
    rw [List.flatMap_cons, List.map_cons, ← ih]
    rfl

theorem dtcBytes_dtcOf (high middle low : UInt8) :
    dtcBytes (dtcOf high middle low) = [high, middle, low] := by
  have bounds := And.intro high.toNat_lt (And.intro middle.toNat_lt low.toNat_lt)
  simp only [dtcBytes, dtcOf, List.cons.injEq, and_true, ← UInt8.toNat_inj]
  simp [UInt32.toNat_add, UInt32.toNat_shiftLeft, UInt32.toNat_shiftRight, Nat.shiftLeft_eq,
    Nat.shiftRight_eq_div_pow]
  omega

theorem dtcOf_dtcBytes {dtc : UInt32} (whole : dtc < 0x1000000) :
    dtcOf (dtc >>> 16).toUInt8 (dtc >>> 8).toUInt8 dtc.toUInt8 = dtc := by
  have bound : dtc.toNat < 0x1000000 := whole
  apply UInt32.toNat_inj.mp
  simp [dtcOf, UInt32.toNat_add, UInt32.toNat_shiftLeft, UInt32.toNat_shiftRight,
    Nat.shiftLeft_eq, Nat.shiftRight_eq_div_pow]
  omega

/-- A DTC of six digits is listed as a request names it. -/
theorem dtcBytes_eq_iff {dtc : UInt32} (whole : dtc < 0x1000000) {high middle low : UInt8} :
    dtcBytes dtc = [high, middle, low] ↔ dtc = dtcOf high middle low := by
  constructor
  · -- the three bytes tell all of a DTC below 2 ^ 24
    intro same
    obtain ⟨rfl, rfl, rfl⟩ : _ = high ∧ _ = middle ∧ _ = low := by simpa [dtcBytes] using same
    exact (dtcOf_dtcBytes whole).symm
  · rintro rfl
    exact dtcBytes_dtcOf high middle low

/-! ### Numbers -/

/-- The number of a confirmed item: its place among the confirmed items. -/
def snapshotNumber (confirmed : Nat → Bool) (i : Nat) : Nat := 1 + (List.range i).countP confirmed

theorem snapshotNumbers_start (confirmed : Nat → Bool) (n : Nat) :
    (snapshotNumbers confirmed n).2 = snapshotNumber confirmed n := by
  induction n with
  | zero => rfl
  | succ n ih =>
    unfold snapshotNumbers snapshotNumber at *
    rw [List.range_succ, List.foldl_append, List.countP_append]
    by_cases there : confirmed n
    · simp [there, ih]
      omega
    · simp [there, ih]

theorem snapshotNumbers_index (confirmed : Nat → Bool) {n i : Nat} (less : i < n)
    (there : confirmed i = true) :
    (snapshotNumbers confirmed n).1 i = snapshotNumber confirmed i := by
  induction n with
  | zero => exact absurd less (Nat.not_lt_zero i)
  | succ n ih =>
    have start := snapshotNumbers_start confirmed n
    unfold snapshotNumbers at *
    rw [List.range_succ, List.foldl_append]
    by_cases last : i = n
    · -- the last item gets the number reached, an earlier one keeps its own
      subst last
      simp [there, start]
    · have earlier := ih (by omega)
      by_cases new : confirmed n <;> simp [new, last, earlier]

theorem snapshotNumber_le (confirmed : Nat → Bool) (i : Nat) :
    snapshotNumber confirmed i ≤ i + 1 := by
  have le := List.countP_le_length (p := confirmed) (l := List.range i)
  rw [List.length_range] at le
  unfold snapshotNumber
  omega

theorem snapshotNumber_congr {confirmed confirmed' : Nat → Bool} {n i : Nat} (le : i ≤ n)
    (same : ∀ j < n, confirmed j = confirmed' j) :
    snapshotNumber confirmed i = snapshotNumber confirmed' i := by
  unfold snapshotNumber
  congr 1
  refine List.countP_congr fun j mem => ?_
  rw [same j (Nat.lt_of_lt_of_le (List.mem_range.mp mem) le)]

variable {c : DiagCfg} {slots : List DiagSlot}

/-- The array holds the number of every confirmed item. -/
def IndexCurrent (c : DiagCfg) (slots : List DiagSlot) (s : DtcServer) : Prop :=
  ∀ i < c.items.length, diagIsCfm slots s.diag i = true →
    s.index i = snapshotNumber (diagIsCfm slots s.diag) i

theorem numbering_current (c : DiagCfg) (slots : List DiagSlot) (s : DtcServer) :
    IndexCurrent c slots (getDtcSnapshotRecordNumber c slots s) :=
  fun _ less there => snapshotNumbers_index _ less there

/-- A request leaves everything or assigns the numbers. -/
theorem readDtc_cases (c : DiagCfg) (slots : List DiagSlot) (s : DtcServer) (pdu : List UInt8) :
    (udsSrvReadDtc c slots s pdu).1 = s ∨
      (udsSrvReadDtc c slots s pdu).1 = getDtcSnapshotRecordNumber c slots s := by
  unfold udsSrvReadDtc
  split_ifs
  · exact .inl rfl
  · exact .inl rfl
  · exact .inl rfl
  · unfold reportDtcSnapshotIdentification
    split_ifs
    · exact .inl rfl
    · exact .inr rfl
  · unfold reportDtcSnapshotRecordByDtcNumber
    split_ifs
    · exact .inl rfl
    · dsimp only
      split
      · exact .inl rfl
      · split_ifs
        · exact .inr rfl
        · exact .inl rfl
  · exact .inl rfl
  · exact .inl rfl

theorem nothing_confirmed (slots : List DiagSlot) (i : Nat) :
    diagIsCfm slots .initial i = false := by
  cases at_slot : slots[i]? <;>
    simp [diagIsCfm, at_slot, DiagBuf.confirmed, DiagBuf.read, DiagState.initial]

theorem dtcStep_current {s : DtcServer} (e : DtcEvent)
    (current : s.numbered = true → IndexCurrent c slots s)
    (numbered : (dtcStep c slots s e).numbered = true) :
    IndexCurrent c slots (dtcStep c slots s e) := by
  cases e with
  | round round =>
    -- no flag changed, so that every confirmed item has the same number
    obtain ⟨numbered, same⟩ := (Bool.and_eq_true _ _).mp numbered
    have flags : ∀ j < c.items.length, diagIsCfm slots s.diag j =
        diagIsCfm slots (udsDiagAllDevices c slots round s.diag) j := fun j less =>
      of_decide_eq_true (List.all_eq_true.mp same j (List.mem_range.mpr less))
    intro i less there
    have was : diagIsCfm slots s.diag i = true := (flags i less).trans there
    exact (current numbered i less was).trans (snapshotNumber_congr (Nat.le_of_lt less) flags)
  | clear =>
    intro i _ there
    -- nothing is confirmed after a clear
    exact absurd there (by simp [dtcStep, udsDiagDtcClear, nothing_confirmed])
  | request pdu =>
    rcases readDtc_cases c slots s pdu with kept | assigned
    · simp only [dtcStep, kept] at numbered ⊢
      exact current numbered
    · simp only [dtcStep, assigned]
      exact numbering_current c slots s

theorem reach_current {s : DtcServer} (h : DtcReach c slots s) :
    s.numbered = true → IndexCurrent c slots s := by
  have starts : ∀ s, s = DtcServer.initial → s.numbered = true → IndexCurrent c slots s := by
    rintro s rfl _ i _ there
    exact absurd there (by simp [DtcServer.initial, nothing_confirmed])
  have kept : ∀ s e t, (s.numbered = true → IndexCurrent c slots s) → t = dtcStep c slots s e →
      t.numbered = true → IndexCurrent c slots t := by
    rintro s e t current rfl
    exact dtcStep_current e current
  exact Runs.Reach.invariant starts kept h

/-! ### Answers -/

/-- Tables whose answers fit 200 bytes and whose DTCs have at most six digits. -/
structure SnapshotTable (c : DiagCfg) (slots : List DiagSlot) : Prop where
  init : udsDiagInit c = some slots
  few : c.items.length ≤ 49
  whole : ∀ item ∈ c.items, changeDtcToInt item.dtc < 0x1000000
  fits : ∀ item ∈ c.items, (item.ids.map c.didLen).sum + item.ids.length * 2 ≤ 192

theorem diagDtc_whole (table : SnapshotTable c slots) (i : Nat) : diagDtc c i < 0x1000000 := by
  unfold diagDtc
  cases at_item : c.items[i]? with
  | none => decide
  | some item => exact table.whole item (List.mem_of_getElem? at_item)

/-- The items that 0x03 lists, with the numbers it assigns. -/
theorem listed_iff (table : SnapshotTable c slots) (s : DtcServer) (high middle low m : UInt8) :
    [high, middle, low, m] ∈ snapshotListed c slots s ↔
      ∃ i < c.items.length, diagIsCfm slots s.diag i = true ∧
        diagDtc c i = dtcOf high middle low ∧
        UInt8.ofNat (snapshotNumber (diagIsCfm slots s.diag) i) = m := by
  let t := getDtcSnapshotRecordNumber c slots s
  let items := (List.range c.items.length).filter (diagIsCfm slots s.diag)
  let groups := items.flatMap fun i => dtcBytes (diagDtc c i) ++ [UInt8.ofNat (t.index i)]
  -- 49 groups of four bytes are the most that the answer has room for
  have few : items.length ≤ 49 := by
    have le := List.length_filter_le (diagIsCfm slots s.diag) (List.range c.items.length)
    rw [List.length_range] at le
    exact Nat.le_trans le table.few
  have length : groups.length = items.length * 4 := by
    simp [groups, List.length_flatMap, dtcBytes]
  have answer : (udsSrvReadDtc c slots s [0x19, 0x03]).2 = .positive ([0x59, 0x03] ++ groups) := by
    have reply : (udsSrvReadDtc c slots s [0x19, 0x03]).2 = dtcReply ([0x59, 0x03] ++ groups) := rfl
    rw [reply, dtcReply, if_pos]
    rw [List.length_append, length]
    exact Nat.le_trans (Nat.add_le_add_left (Nat.mul_le_mul_right 4 few) 2) (by decide)
  have listed : snapshotListed c slots s =
      items.map fun i => dtcBytes (diagDtc c i) ++ [UInt8.ofNat (t.index i)] := by
    rw [snapshotListed, answer]
    exact snapshotGroups_flatMap _ _ items
  have group : ∀ i, dtcBytes (diagDtc c i) ++ [UInt8.ofNat (t.index i)] = [high, middle, low, m] ↔
      diagDtc c i = dtcOf high middle low ∧ UInt8.ofNat (t.index i) = m := fun i => by
    rw [← dtcBytes_eq_iff (diagDtc_whole table i)]
    constructor
    · intro same
      have same : dtcBytes (diagDtc c i) ++ [UInt8.ofNat (t.index i)] =
        [high, middle, low] ++ [m] := same
      obtain ⟨dtc, number⟩ := List.append_inj same rfl
      exact ⟨dtc, List.head_eq_of_cons_eq number⟩
    · rintro ⟨dtc, number⟩
      rw [dtc, number]
      rfl
  rw [listed, List.mem_map]
  constructor
  · rintro ⟨i, mem, same⟩
    obtain ⟨less, there⟩ := List.mem_filter.mp mem
    have less := List.mem_range.mp less
    obtain ⟨dtc, number⟩ := (group i).mp same
    rw [numbering_current c slots s i less there] at number
    exact ⟨i, less, there, dtc, number⟩
  · rintro ⟨i, less, there, dtc, number⟩
    refine ⟨i, List.mem_filter.mpr ⟨List.mem_range.mpr less, there⟩, (group i).mpr ⟨dtc, ?_⟩⟩
    rw [numbering_current c slots s i less there]
    exact number

/-- The freeze data of an item that is confirmed, as `uds_diag_get_freeze` gives them. -/
theorem snapshotData_record (table : SnapshotTable c slots) (s : DiagState) {i : Nat}
    (less : i < c.items.length) : ∃ item slot record, c.items[i]? = some item ∧
      slots[i]? = some slot ∧ udsDiagGetFreeze c slot item s.buf 200 = some record ∧
      snapshotData c slots s 200 i = record ∧ record.data.length = record.len ∧
      record.len ≤ 192 := by
  obtain ⟨laid, -⟩ := Option.filter_eq_some_iff.mp table.init
  obtain ⟨item, at_item⟩ : ∃ item, c.items[i]? = some item := ⟨_, List.getElem?_eq_getElem less⟩
  obtain ⟨slot, at_slot⟩ : ∃ slot, slots[i]? = some slot :=
    ⟨_, List.getElem?_eq_getElem (diagSlots_length laid ▸ less)⟩
  have length := storedRecord_length (c := c) slot s.buf item.ids
  have fits := table.fits item (List.mem_of_getElem? at_item)
  rw [← length] at fits
  have found := getFreeze_stored (init_laid table.init at_item at_slot) s.buf
    (Nat.le_trans fits (by decide : 192 ≤ 200))
  exact ⟨item, slot, _, at_item, at_slot, found, by simp [snapshotData, at_item, at_slot, found],
    rfl, fits⟩

/-- The item a request for `number` may be answered with. -/
structure Asked (c : DiagCfg) (slots : List DiagSlot) (s : DtcServer) (dtc : UInt32)
    (number : UInt8) (i : Nat) : Prop where
  less : i < c.items.length
  confirmed : diagIsCfm slots s.diag i = true
  dtc : diagDtc c i = dtc
  number : UInt8.ofNat (snapshotNumber (diagIsCfm slots s.diag) i) = number ∨ number = 0xFF

theorem snapshotItem_asked (table : SnapshotTable c slots) {s : DtcServer}
    (current : IndexCurrent c slots s) (dtc : UInt32) (number : UInt8) :
    (∀ i, snapshotItem c slots s number.toNat dtc = some i → Asked c slots s dtc number i) ∧
      (snapshotItem c slots s number.toNat dtc = none → ∀ i, ¬ Asked c slots s dtc number i) := by
  have numbers : ∀ i < c.items.length, diagIsCfm slots s.diag i = true →
      (s.index i = number.toNat ↔
        UInt8.ofNat (snapshotNumber (diagIsCfm slots s.diag) i) = number) := by
    intro i less there
    have le := snapshotNumber_le (diagIsCfm slots s.diag) i
    have few := table.few
    -- at most 49 items: the array's numbers are bytes
    have small : snapshotNumber (diagIsCfm slots s.diag) i < 256 := by omega
    rw [current i less there, ← UInt8.toNat_inj, UInt8.toNat_ofNat_of_lt' small]
  have wildcard : number.toNat = 0xFF ↔ number = 0xFF := by
    rw [← UInt8.toNat_inj]
    rfl
  constructor
  · intro i found
    have less := List.mem_range.mp (List.mem_of_find?_eq_some found)
    obtain ⟨⟨there, same⟩, which⟩ : (diagIsCfm slots s.diag i = true ∧ diagDtc c i = dtc) ∧
        (s.index i = number.toNat ∨ number.toNat = 0xFF) := by
      simpa using List.find?_some found
    exact ⟨less, there, same, which.imp (numbers i less there).mp wildcard.mp⟩
  · rintro none i ⟨less, there, same, which⟩
    refine List.find?_eq_none.mp none i (List.mem_range.mpr less) ?_
    have which := which.imp (numbers i less there).mpr wildcard.mpr
    simpa using ⟨⟨there, same⟩, which⟩

/-- The request for a record, after the item is looked up. -/
theorem readDtc_record (c : DiagCfg) (slots : List DiagSlot) (s : DtcServer)
    (high middle low n : UInt8) :
    (udsSrvReadDtc c slots s [0x19, 0x04, high, middle, low, n]).2 =
      match snapshotItem c slots s n.toNat (dtcOf high middle low) with
      | none => .negative 0x19 nrcRequestOutOfRange
      | some i =>
        dtcReply ([0x59, 0x04, high, middle, low, 0x09,
          if n = 0xFF then UInt8.ofNat ((getDtcSnapshotRecordNumber c slots s).index i) else n,
          UInt8.ofNat (snapshotData c slots s.diag 200 i).didNum] ++
            (snapshotData c slots s.diag 200 i).data.take
              (snapshotData c slots s.diag 200 i).len) := by
  have reply : (udsSrvReadDtc c slots s [0x19, 0x04, high, middle, low, n]).2 =
      (reportDtcSnapshotRecordByDtcNumber c slots s [0x19, 0x04, high, middle, low, n]).2 := rfl
  have wildcard : n.toNat = 0xFF ↔ n = 0xFF := UInt8.toNat_inj (b := 0xFF)
  rw [reply]
  simp only [reportDtcSnapshotRecordByDtcNumber, List.getD_cons_zero, List.getD_cons_succ, wildcard]
  rw [if_neg (by simp)]
  cases snapshotItem c slots s n.toNat (dtcOf high middle low) with
  | none => rfl
  | some i =>
    -- any number: the item's own number is looked up
    by_cases all : n = 0xFF
    · simp only [if_pos all]
      rfl
    · simp only [if_neg all, UInt8.ofNat_toNat]
      rfl

/-- 0x04 is answered with an item asked for, if there is one. -/
theorem record_answer (table : SnapshotTable c slots) {s : DtcServer}
    (current : IndexCurrent c slots s) (high middle low n : UInt8) :
    ((udsSrvReadDtc c slots s [0x19, 0x04, high, middle, low, n]).2 =
        .negative 0x19 nrcRequestOutOfRange ∧
      ∀ i, ¬ Asked c slots s (dtcOf high middle low) n i) ∨
    ∃ i item slot record, Asked c slots s (dtcOf high middle low) n i ∧
      c.items[i]? = some item ∧ slots[i]? = some slot ∧
      udsDiagGetFreeze c slot item s.diag.buf 200 = some record ∧
      (udsSrvReadDtc c slots s [0x19, 0x04, high, middle, low, n]).2 =
        .positive ([0x59, 0x04, high, middle, low, 0x09,
          UInt8.ofNat (snapshotNumber (diagIsCfm slots s.diag) i),
          UInt8.ofNat record.didNum] ++ record.data) := by
  obtain ⟨asked, refused⟩ := snapshotItem_asked table current (dtcOf high middle low) n
  rw [readDtc_record]
  cases found : snapshotItem c slots s n.toNat (dtcOf high middle low) with
  | none => exact .inl ⟨rfl, refused found⟩
  | some i =>
    have asked := asked i found
    obtain ⟨item, slot, record, at_item, at_slot, frozen, data, whole, fits⟩ :=
      snapshotData_record table s.diag asked.less
    refine .inr ⟨i, item, slot, record, asked, at_item, at_slot, frozen, ?_⟩
    have number : (if n = 0xFF then UInt8.ofNat ((getDtcSnapshotRecordNumber c slots s).index i)
        else n) = UInt8.ofNat (snapshotNumber (diagIsCfm slots s.diag) i) := by
      -- the number answered is the item's, whether it was named or not
      split
      next =>
        rw [numbering_current c slots s i asked.less asked.confirmed]
        rfl
      next named => exact (asked.number.resolve_right named).symm
    dsimp only
    rw [number, data, ← whole, List.take_length, dtcReply, if_pos]
    rw [List.length_append, whole]
    exact Nat.add_le_add_left fits 8

/-- While the numbers are current: 0x04 is answered for a fault and a number exactly if 0x03 lists
them, for 0xFF if it lists the fault, with the data of the fault's freeze frame. -/
theorem snapshot_agrees (table : SnapshotTable c slots) {s : DtcServer} (h : DtcReach c slots s)
    (numbered : s.numbered = true) (high middle low n : UInt8) :
    ((∃ data, (udsSrvReadDtc c slots s [0x19, 0x04, high, middle, low, n]).2 = .positive data) ↔
      ∃ m, [high, middle, low, m] ∈ snapshotListed c slots s ∧ (n = m ∨ n = 0xFF)) ∧
    ∀ data, (udsSrvReadDtc c slots s [0x19, 0x04, high, middle, low, n]).2 = .positive data →
      ∃ i item slot record m, c.items[i]? = some item ∧ slots[i]? = some slot ∧
        changeDtcToInt item.dtc = dtcOf high middle low ∧ diagIsCfm slots s.diag i = true ∧
        [high, middle, low, m] ∈ snapshotListed c slots s ∧ (n = m ∨ n = 0xFF) ∧
        udsDiagGetFreeze c slot item s.diag.buf 200 = some record ∧
        data = [0x59, 0x04, high, middle, low, 0x09, m, UInt8.ofNat record.didNum] ++
          record.data := by
  have listed : ∀ i, Asked c slots s (dtcOf high middle low) n i →
      [high, middle, low, UInt8.ofNat (snapshotNumber (diagIsCfm slots s.diag) i)] ∈
        snapshotListed c slots s := fun i asked =>
    (listed_iff table s high middle low _).mpr ⟨i, asked.less, asked.confirmed, asked.dtc, rfl⟩
  rcases record_answer table (reach_current h numbered) high middle low n with
    ⟨refused, none⟩ | ⟨i, item, slot, record, asked, at_item, at_slot, frozen, answered⟩
  · -- refused: what 0x03 lists would be an item asked for
    rw [refused]
    refine ⟨⟨nofun, ?_⟩, nofun⟩
    rintro ⟨m, mem, which⟩
    obtain ⟨i, less, there, dtc, number⟩ := (listed_iff table s high middle low m).mp mem
    exact absurd ⟨less, there, dtc, number ▸ which.imp_left Eq.symm⟩ (none i)
  · -- answered: the item is listed with the number of the answer
    rw [answered]
    have dtc : changeDtcToInt item.dtc = dtcOf high middle low := by
      simpa [diagDtc, at_item] using asked.dtc
    refine ⟨⟨fun _ => ⟨_, listed i asked, asked.number.imp_left Eq.symm⟩, fun _ => ⟨_, rfl⟩⟩, ?_⟩
    intro data same
    cases same
    exact ⟨i, item, slot, record, _, at_item, at_slot, dtc, asked.confirmed, listed i asked,
      asked.number.imp_left Eq.symm, frozen, rfl⟩

theorem ftTable : SnapshotTable ftDiag ftSlots where
  init := by decide
  few := by decide
  whole := by decide
  fits := by decide

/-- Only the power voltage is found too high. -/
def voltageHigh : DiagRound := onlyFault 15 fun _ _ => 0

/-- After two such rounds and 0x03. -/
def voltageListed : DtcServer :=
  [.round voltageHigh, .round voltageHigh, .request [0x19, 0x03]].foldl
    (dtcStep ftDiag ftSlots) .initial

theorem voltageListed_reach : DtcReach ftDiag ftSlots voltageListed :=
  .next (.request [0x19, 0x03])
    (.next (.round voltageHigh) (.next (.round voltageHigh) (.start rfl) rfl) rfl) rfl

end Uds
