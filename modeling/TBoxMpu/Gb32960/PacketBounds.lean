import TBoxMpu.Gb32960.Packet

/-!
# Where a packet's reads and writes end

Each part of a packet reads inside the tables if the values of the signals that index them are
below the tables' sizes and the counts of the battery, the motors and the fuel cell are; with
these counts the packet fits into `data` of a `gb_pack_t`.
-/

namespace Gb32960.Packet

open Checked

/-- `sizeof` of `data` of a `gb_pack_t`. -/
def dataSize : Nat := 1024

variable {F : Type} (fl : Floating F) (w : Words) (base : Int) (r : GbReading F)

/-- The value of the signal at `a`, if there is one, is an index of a table of `size` bytes. -/
def StateFits (a : Int) (size : Nat) : Prop :=
  signalAt w base a ≠ 0 → (fl.toUInt32 (r.value (signalAt w base a))).toNat < size

variable {fl w base r} {a table array : Int} {size n : Nat} {absent : UInt8} {bytes : List UInt8}

/-! ### States and arrays -/

theorem safe_stateOr : Safe (stateOr fl w base r a table size absent) ↔
    StateFits fl w base r a size := by
  unfold stateOr stateAt StateFits
  by_cases there : signalAt w base a ≠ 0
  · rw [if_pos there, safe_fetch_bind]
    simp [there]
  · rw [if_neg there]
    simp [there]

theorem stateOr_length (saved : stateOr fl w base r a table size absent = .ok bytes) :
    bytes.length = 1 := by
  unfold stateOr at saved
  split at saved
  · obtain ⟨state, -, saved⟩ := bind_ok_iff.mp saved
    cases saved
    rfl
  · cases saved
    rfl

theorem safe_entryAt {i : Nat} (inside : i < size) : Safe (entryAt w base array size i) :=
  ⟨_, if_pos inside⟩

theorem safe_allOf {f : Nat → Saved} : Safe (allOf n f) ↔ ∀ i < n, Safe (f i) := by
  unfold allOf
  rw [safe_bind_of fun _ => safe_ok _, safe_mapM]
  simp only [List.mem_range]

theorem allOf_length {f : Nat → Saved} {k : Nat}
    (each : ∀ i bytes, f i = .ok bytes → bytes.length = k) (saved : allOf n f = .ok bytes) :
    bytes.length = n * k := by
  obtain ⟨parts, done, saved⟩ := bind_ok_iff.mp saved
  cases saved
  have whole : ∀ (is : List Nat) parts, is.mapM f = .ok parts →
      parts.flatten.length = is.length * k := by
    intro is
    induction is with
    | nil =>
      intro parts done
      cases done
      simp
    | cons i is ih =>
      intro parts done
      rw [List.mapM_cons] at done
      obtain ⟨first, one, done⟩ := bind_ok_iff.mp done
      obtain ⟨rest, others, done⟩ := bind_ok_iff.mp done
      cases done
      rw [List.flatten_cons, List.length_append, each i first one, ih rest others,
        List.length_cons, Nat.succ_mul, Nat.add_comm]
  rw [whole _ parts done, List.length_range]

/-! ### The parts of every vehicle -/

@[simp] theorem be16_length (tmp : UInt32) : (be16 tmp).length = 2 := rfl

@[simp] theorem be32_length (tmp : UInt32) : (be32 tmp).length = 4 := rfl

theorem safe_shiftState : Safe (shiftState fl w base r) ↔
    StateFits fl w base r (vehiInfo + 8) 256 := by
  unfold shiftState stateAt StateFits
  by_cases there : signalAt w base (vehiInfo + 8) ≠ 0
  · rw [if_pos there, safe_fetch_bind]
    simp [there]
  · rw [if_neg there]
    simp [there]

theorem shiftState_length (saved : shiftState fl w base r = .ok bytes) : bytes.length = 1 := by
  unfold shiftState at saved
  split at saved
  · obtain ⟨sft, -, saved⟩ := bind_ok_iff.mp saved
    cases saved
    rfl
  · cases saved
    rfl

/-- The signals that index the tables of the vehicle. -/
def vehiStates : List Int :=
  [vehiInfo, vehiInfo + 1, vehiInfo + 14, vehiInfo + 7, vehiInfo + 8]

theorem safe_gbDataSaveVehi : Safe (gbDataSaveVehi fl w base r) ↔
    ∀ a ∈ vehiStates, StateFits fl w base r a 256 := by
  unfold gbDataSaveVehi
  rw [safe_bind_and fun _ => safe_bind_and fun _ => safe_bind_and fun _ => safe_bind_and fun _ =>
    safe_bind_of fun _ => safe_ok _]
  simp only [safe_stateOr, safe_shiftState, vehiStates, List.forall_mem_cons, List.not_mem_nil,
    false_implies, implies_true, and_true]

theorem gbDataSaveVehi_length (saved : gbDataSaveVehi fl w base r = .ok bytes) :
    bytes.length = 21 := by
  obtain ⟨state, one, saved⟩ := bind_ok_iff.mp saved
  obtain ⟨charge, two, saved⟩ := bind_ok_iff.mp saved
  obtain ⟨mode, three, saved⟩ := bind_ok_iff.mp saved
  obtain ⟨dcdc, four, saved⟩ := bind_ok_iff.mp saved
  obtain ⟨shift, five, saved⟩ := bind_ok_iff.mp saved
  cases saved
  simp [stateOr_length one, stateOr_length two, stateOr_length three, stateOr_length four,
    shiftState_length five]

theorem safe_gbDataSaveEngin : Safe (gbDataSaveEngin fl w base r) ↔
    StateFits fl w base r enginInfo 256 := by
  unfold gbDataSaveEngin
  rw [safe_bind_of fun _ => safe_ok _, safe_stateOr]

theorem gbDataSaveEngin_length (saved : gbDataSaveEngin fl w base r = .ok bytes) :
    bytes.length = 6 := by
  obtain ⟨state, one, saved⟩ := bind_ok_iff.mp saved
  cases saved
  simp [stateOr_length one]

/-! ### Motors and fuel cell -/

/-- The signals of the motors' states. -/
theorem safe_gbDataSaveMotor (few : (w (base + motorCnt)).toNat ≤ 4) :
    Safe (gbDataSaveMotor fl w base r) ↔
      ∀ i < (w (base + motorCnt)).toNat, StateFits fl w base r (motor i) 256 := by
  unfold gbDataSaveMotor
  dsimp only
  rw [safe_bind_of fun _ => safe_ok _, safe_allOf]
  refine forall₂_congr fun i inside => ?_
  unfold motorPart
  rw [safe_need_bind, safe_bind_of fun _ => safe_ok _, safe_stateOr]
  exact and_iff_right (by omega)

theorem gbDataSaveMotor_length (saved : gbDataSaveMotor fl w base r = .ok bytes) :
    bytes.length = 2 + 12 * (w (base + motorCnt)).toNat := by
  obtain ⟨motors, all, saved⟩ := bind_ok_iff.mp saved
  cases saved
  have length : motors.length = (w (base + motorCnt)).toNat * 12 := by
    refine allOf_length (fun i bytes saved => ?_) all
    obtain ⟨_, -, saved⟩ := bind_ok_iff.mp saved
    obtain ⟨state, one, saved⟩ := bind_ok_iff.mp saved
    cases saved
    simp [stateOr_length one]
  simp only [List.length_append, List.length_cons, List.length_nil, length]
  omega

theorem safe_gbDataSaveFuelcell : Safe (gbDataSaveFuelcell fl w base r) ↔
    (w (base + fuelTempCnt)).toNat ≤ 200 ∧ StateFits fl w base r (fuelInfo + 9) 8 := by
  have temps : Safe (allOf (w (base + fuelTempCnt)).toNat (fuelTempPart fl w base r)) ↔
      (w (base + fuelTempCnt)).toNat ≤ 200 := by
    rw [safe_allOf]
    have part : ∀ i, Safe (fuelTempPart fl w base r i) ↔ i < 200 := by
      intro i
      unfold fuelTempPart entryAt
      rw [safe_fetch_bind]
      exact and_iff_left (safe_ok _)
    simp only [part]
    constructor
    · intro all
      by_contra more
      exact absurd (all 200 (by omega)) (Nat.lt_irrefl 200)
    · exact fun few i inside => by omega
  unfold gbDataSaveFuelcell
  dsimp only
  rw [safe_bind_and fun _ => safe_bind_of fun _ => safe_ok _, temps, safe_stateOr]

theorem gbDataSaveFuelcell_length (saved : gbDataSaveFuelcell fl w base r = .ok bytes) :
    bytes.length = 19 + (w (base + fuelTempCnt)).toNat := by
  obtain ⟨temps, all, saved⟩ := bind_ok_iff.mp saved
  obtain ⟨hvdcdc, one, saved⟩ := bind_ok_iff.mp saved
  cases saved
  have length : temps.length = (w (base + fuelTempCnt)).toNat * 1 := by
    refine allOf_length (fun i bytes saved => ?_) all
    obtain ⟨_, -, saved⟩ := bind_ok_iff.mp saved
    cases saved
    rfl
  simp only [List.length_append, List.length_cons, List.length_nil, length, be16_length,
    stateOr_length one]
  omega

/-! ### The battery -/

/-- The counts of the arrays that the DBC file fills. -/
structure Counted (w : Words) (base : Int) : Prop where
  motors : (w (base + motorCnt)).toNat ≤ 4
  cells : (w (base + battCellCnt)).toNat ≤ 800
  temps : (w (base + battTempCnt)).toNat ≤ 256

variable {start packnum : UInt32}

theorem safe_gbDataSaveCell (counted : Counted w base)
    (inside : start.toNat < (w (base + battCellCnt)).toNat) :
    Safe (gbDataSaveCell fl w base r start) := by
  have bound := counted.cells
  unfold gbDataSaveCell
  dsimp only
  rw [safe_bind_of fun _ => safe_ok _, safe_allOf]
  intro i few
  have left : (w (base + battCellCnt) - start).toNat =
      (w (base + battCellCnt)).toNat - start.toNat :=
    UInt32.toNat_sub_of_le _ _ (UInt32.le_iff_toNat_le.mpr inside.le)
  rw [toNat_min, left] at few
  unfold cellPart
  rw [safe_bind_of fun _ => safe_ok _]
  exact safe_entryAt (by omega)

theorem gbDataSaveCell_spec {next : UInt32}
    (saved : gbDataSaveCell fl w base r start = .ok (bytes, next)) :
    bytes.length ≤ 412 ∧
      next = (start + min (w (base + battCellCnt) - start) 200) % w (base + battCellCnt) := by
  obtain ⟨values, all, saved⟩ := bind_ok_iff.mp saved
  cases saved
  have length : values.length = (min (w (base + battCellCnt) - start) 200).toNat * 2 := by
    refine allOf_length (fun i bytes saved => ?_) all
    obtain ⟨_, -, saved⟩ := bind_ok_iff.mp saved
    cases saved
    rfl
  have most : (min (w (base + battCellCnt) - start) 200).toNat ≤ 200 := by
    rw [toNat_min]
    exact Nat.min_le_right _ _
  refine ⟨?_, rfl⟩
  simp only [List.length_append, List.length_cons, List.length_nil, length, be16_length]
  omega

theorem safe_gbDataSaveTemp (counted : Counted w base) : Safe (gbDataSaveTemp fl w base r) := by
  have bound := counted.temps
  unfold gbDataSaveTemp
  dsimp only
  rw [safe_bind_of fun _ => safe_ok _, safe_allOf]
  intro i few
  unfold tempPart
  rw [safe_bind_of fun _ => safe_ok _]
  exact safe_entryAt (by omega)

theorem gbDataSaveTemp_length (saved : gbDataSaveTemp fl w base r = .ok bytes) :
    bytes.length = 5 + (w (base + battTempCnt)).toNat := by
  obtain ⟨temps, all, saved⟩ := bind_ok_iff.mp saved
  cases saved
  have length : temps.length = (w (base + battTempCnt)).toNat * 1 := by
    refine allOf_length (fun i bytes saved => ?_) all
    obtain ⟨_, -, saved⟩ := bind_ok_iff.mp saved
    cases saved
    rfl
  simp only [List.length_append, List.length_cons, List.length_nil, length, be16_length]
  omega

theorem safe_extremumOf {cnt limit : Nat} (few : cnt ≤ 800) :
    Safe (extremumOf fl w base r array cnt limit) := by
  have loop : ∀ e : Extremum F, Safe ((List.range cnt).foldlM (fun e i => do
      let id ← entryAt w base array 800 i
      .ok (e.note fl limit (r.value id) (UInt32.ofNat i + 1))) e) := by
    refine fun e => safe_foldlM fun e i mem => ?_
    have inside := List.mem_range.mp mem
    rw [safe_bind_of fun _ => safe_ok _]
    exact safe_entryAt (by omega)
  unfold extremumOf
  rw [safe_bind_of fun first => loop ⟨first, 1, first, 1⟩]
  unfold firstValue
  split
  · rw [safe_bind_of fun _ => safe_ok _]
    exact safe_entryAt (by omega)
  · exact safe_ok _

@[simp] theorem packetCell_length (packnum id : UInt32) (value : F) :
    (packetCell fl packnum id value).length = 3 := by
  unfold packetCell
  split
  · rfl
  · split <;> rfl

theorem safe_gbDataSaveExtr (counted : Counted w base) :
    Safe (gbDataSaveExtr fl w base r packnum) := by
  have cells := counted.cells
  have temps := counted.temps
  unfold gbDataSaveExtr
  rw [safe_bind_of fun _ => ?_]
  · exact safe_extremumOf cells
  · rw [safe_bind_of fun _ => safe_ok _]
    exact safe_extremumOf (by omega)

theorem gbDataSaveExtr_spec {next : UInt32}
    (saved : gbDataSaveExtr fl w base r packnum = .ok (bytes, next)) :
    bytes.length = 15 ∧ next = (packnum + 1) % groups w base := by
  obtain ⟨volt, -, saved⟩ := bind_ok_iff.mp saved
  obtain ⟨temp, -, saved⟩ := bind_ok_iff.mp saved
  cases saved
  refine ⟨?_, rfl⟩
  simp only [List.length_append, List.length_cons, List.length_nil, packetCell_length]

/-! ### The packet -/

/-- The state signals of a reading have values below the sizes of their tables; where the fuel cell
is reported, it has no more temperatures than there is room for. -/
structure ReadingFits (fl : Floating F) (w : Words) (base : Int) (r : GbReading F) : Prop where
  vehi : ∀ a ∈ vehiStates, StateFits fl w base r a 256
  motors : electric w base = true →
    ∀ i < (w (base + motorCnt)).toNat, StateFits fl w base r (motor i) 256
  fuelcell : electric w base = true → r.fuelcell = true →
    (w (base + fuelTempCnt)).toNat ≤ 200 ∧ StateFits fl w base r (fuelInfo + 9) 8
  engin : fuelled w base = true → StateFits fl w base r enginInfo 256

variable {run run' : GbRunning} {st st' : GbStatics}

theorem safe_onlyIf {c : Bool} {part : Saved} :
    Safe (onlyIf c part) ↔ (c = true → Safe part) := by
  cases c with
  | true => exact ⟨fun safe _ => safe, fun safe => safe rfl⟩
  | false => exact iff_of_true (safe_ok _) nofun

theorem safe_electricParts (counted : Counted w base)
    (inside : run.start.toNat < (w (base + battCellCnt)).toNat) :
    Safe (electricParts fl w base r run) ↔
      (∀ i < (w (base + motorCnt)).toNat, StateFits fl w base r (motor i) 256) ∧
      (r.fuelcell = true →
        (w (base + fuelTempCnt)).toNat ≤ 200 ∧ StateFits fl w base r (fuelInfo + 9) 8) := by
  unfold electricParts
  rw [safe_bind_and fun _ => safe_bind_and fun _ => safe_bind_and fun _ => safe_bind_and fun _ =>
    safe_bind_of fun _ => safe_ok _, safe_gbDataSaveMotor counted.motors, safe_onlyIf,
    safe_gbDataSaveFuelcell]
  have cells : Safe (gbDataSaveCell fl w base r run.start) := safe_gbDataSaveCell counted inside
  have temps : Safe (gbDataSaveTemp fl w base r) := safe_gbDataSaveTemp counted
  have extrema : Safe (gbDataSaveExtr fl w base r run.packnum) := safe_gbDataSaveExtr counted
  simp only [cells, temps, extrema, and_true]

theorem onlyIf_length {c : Bool} {part : Saved} {n : Nat}
    (each : c = true → ∀ bytes, part = .ok bytes → bytes.length ≤ n)
    (saved : onlyIf c part = .ok bytes) : bytes.length ≤ n := by
  cases c with
  | true => exact each rfl bytes saved
  | false =>
    cases saved
    exact Nat.zero_le n

/-- The parts of a vehicle with a battery, and what becomes of the statics. -/
theorem electricParts_spec (counted : Counted w base)
    (few : r.fuelcell = true → (w (base + fuelTempCnt)).toNat ≤ 200)
    (saved : electricParts fl w base r run = .ok (bytes, run')) :
    bytes.length ≤ 957 ∧
    run' = ⟨(run.start + min (w (base + battCellCnt) - run.start) 200) % w (base + battCellCnt),
      (run.packnum + 1) % groups w base⟩ := by
  obtain ⟨motors, one, saved⟩ := bind_ok_iff.mp saved
  obtain ⟨fuelcell, two, saved⟩ := bind_ok_iff.mp saved
  obtain ⟨cells, three, saved⟩ := bind_ok_iff.mp saved
  obtain ⟨temps, four, saved⟩ := bind_ok_iff.mp saved
  obtain ⟨extrema, five, saved⟩ := bind_ok_iff.mp saved
  cases saved
  obtain ⟨cellsLe, start⟩ := gbDataSaveCell_spec three
  obtain ⟨extremaLe, packnum⟩ := gbDataSaveExtr_spec five
  have motorsLe := gbDataSaveMotor_length one
  have tempsLe := gbDataSaveTemp_length four
  have fuelcellLe : fuelcell.length ≤ 219 := by
    refine onlyIf_length (fun has part saved => ?_) two
    have length := gbDataSaveFuelcell_length saved
    have most := few has
    omega
  have most := counted.motors
  have most' := counted.temps
  refine ⟨?_, by rw [start, packnum]⟩
  simp only [List.length_append]
  omega

theorem gbDataSaveGps_length (r : GbReading F) (st : GbStatics) :
    (gbDataSaveGps r st).1.length = 10 := by
  unfold gbDataSaveGps
  cases r.gps <;> rfl

theorem gbDataSaveWarn_length : (gbDataSaveWarn fl w base r).length = 10 := rfl

theorem safe_gbDataSaveAll (counted : Counted w base)
    (inside : st.run.start.toNat < (w (base + battCellCnt)).toNat) :
    Safe (gbDataSaveAll fl w base r st) ↔ ReadingFits fl w base r := by
  have battery : Safe (batteryParts fl w base r st.run) ↔ (electric w base = true →
      (∀ i < (w (base + motorCnt)).toNat, StateFits fl w base r (motor i) 256) ∧
      (r.fuelcell = true →
        (w (base + fuelTempCnt)).toNat ≤ 200 ∧ StateFits fl w base r (fuelInfo + 9) 8)) := by
    unfold batteryParts
    rw [safe_ite, safe_electricParts counted inside]
    exact and_iff_left fun _ => safe_ok _
  unfold gbDataSaveAll
  rw [safe_bind_and fun _ => safe_bind_and fun _ => safe_bind_of fun _ => safe_ok _, battery,
    safe_gbDataSaveVehi, safe_onlyIf, safe_gbDataSaveEngin]
  constructor
  · rintro ⟨vehi, parts, engin⟩
    exact ⟨vehi, fun has => (parts has).1, fun has => (parts has).2, engin⟩
  · rintro ⟨vehi, motors, fuelcell, engin⟩
    exact ⟨vehi, fun has => ⟨motors has, fuelcell has⟩, engin⟩

/-- The statics after a packet. -/
def nextRun (w : Words) (base : Int) (run : GbRunning) : GbRunning :=
  if electric w base then
    ⟨(run.start + min (w (base + battCellCnt) - run.start) 200) % w (base + battCellCnt),
      (run.packnum + 1) % groups w base⟩
  else run

/-- A packet fits into its buffer. -/
theorem gbDataSaveAll_spec (counted : Counted w base) (fits : ReadingFits fl w base r)
    (saved : gbDataSaveAll fl w base r st = .ok (bytes, st')) :
    bytes.length ≤ dataSize ∧ st'.run = nextRun w base st.run := by
  obtain ⟨vehi, one, saved⟩ := bind_ok_iff.mp saved
  obtain ⟨battery, two, saved⟩ := bind_ok_iff.mp saved
  obtain ⟨engin, three, saved⟩ := bind_ok_iff.mp saved
  cases saved
  have vehiLe := gbDataSaveVehi_length one
  have enginLe := onlyIf_length (fun _ _ => le_of_eq ∘ gbDataSaveEngin_length) three
  have time : (timeBytes r.time).length = 6 := rfl
  have batteryLe : battery.1.length ≤ 957 ∧ battery.2 = nextRun w base st.run := by
    unfold batteryParts at two
    unfold nextRun
    split at two
    next has =>
      rw [if_pos has]
      exact electricParts_spec counted (fun cell => (fits.fuelcell has cell).1) two
    next has =>
      cases two
      rw [if_neg has]
      exact ⟨Nat.zero_le _, rfl⟩
  refine ⟨?_, batteryLe.2⟩
  simp only [List.length_append, gbDataSaveGps_length, gbDataSaveWarn_length, time, dataSize]
  omega

/-! ### The packets of a call -/

theorem nextRun_inside (inside : run.start.toNat < (w (base + battCellCnt)).toNat) :
    (nextRun w base run).start.toNat < (w (base + battCellCnt)).toNat := by
  unfold nextRun
  split
  · rw [UInt32.toNat_mod]
    exact Nat.mod_lt _ (by omega)
  · exact inside

/-- All packets of a call are read inside the tables and fit exactly if all readings fit. -/
theorem saveGroups_iff (counted : Counted w base) {readings : Nat → GbReading F} {i count : Nat}
    (inside : st.run.start.toNat < (w (base + battCellCnt)).toNat) :
    (∃ packets st', saveGroups fl w base readings st i count = .ok (packets, st') ∧
      ∀ p ∈ packets, p.length ≤ dataSize) ↔
    ∀ j < count, ReadingFits fl w base (readings (i + j)) := by
  induction count generalizing st i with
  | zero => exact iff_of_true ⟨[], st, rfl, nofun⟩ nofun
  | succ count ih =>
    have first : Safe (gbDataSaveAll fl w base (readings i) st) ↔
        ReadingFits fl w base (readings i) := safe_gbDataSaveAll counted inside
    -- the first packet leaves cells to begin the next one with
    have onwards : ∀ {packet : List UInt8} {next : GbStatics},
        ReadingFits fl w base (readings i) →
        gbDataSaveAll fl w base (readings i) st = .ok (packet, next) →
        next.run.start.toNat < (w (base + battCellCnt)).toNat := by
      intro packet next fits one
      rw [(gbDataSaveAll_spec counted fits one).2]
      exact nextRun_inside inside
    have cases_lt : ∀ {P : Nat → Prop}, (∀ j < count + 1, P j) ↔ P 0 ∧ ∀ j < count, P (j + 1) := by
      intro P
      refine ⟨fun all => ⟨all 0 (by omega), fun j lt => all (j + 1) (by omega)⟩, ?_⟩
      rintro ⟨zero, later⟩ (_ | j) lt
      · exact zero
      · exact later j (by omega)
    have shift : (∀ j < count, ReadingFits fl w base (readings (i + (j + 1)))) ↔
        ∀ j < count, ReadingFits fl w base (readings (i + 1 + j)) :=
      forall₂_congr fun j _ => by rw [show i + (j + 1) = i + 1 + j by omega]
    refine Iff.trans ?_ cases_lt.symm
    rw [shift]
    change _ ↔ ReadingFits fl w base (readings i) ∧ _
    rw [← first]
    constructor
    · rintro ⟨packets, last, saved, small⟩
      obtain ⟨⟨packet, next⟩, one, saved⟩ := bind_ok_iff.mp saved
      obtain ⟨⟨rest, after⟩, others, saved⟩ := bind_ok_iff.mp saved
      cases saved
      have later := onwards (first.mp ⟨_, one⟩) one
      exact ⟨⟨_, one⟩, (ih later).mp ⟨rest, _, others, fun p mem =>
        small p (List.mem_cons_of_mem _ mem)⟩⟩
    · rintro ⟨⟨⟨packet, next⟩, one⟩, later⟩
      have fits := first.mp ⟨_, one⟩
      have length := (gbDataSaveAll_spec counted fits one).1
      obtain ⟨rest, after, others, small⟩ := (ih (onwards fits one)).mpr later
      refine ⟨packet :: rest, after, ?_, List.forall_mem_cons.mpr ⟨length, small⟩⟩
      exact bind_ok_iff.mpr ⟨_, one, bind_ok_iff.mpr ⟨_, others, rfl⟩⟩

theorem saveGroups_run (counted : Counted w base) {readings : Nat → GbReading F} {i count : Nat}
    {packets : List (List UInt8)}
    (fits : ∀ j < count, ReadingFits fl w base (readings (i + j)))
    (saved : saveGroups fl w base readings st i count = .ok (packets, st')) :
    st'.run = (nextRun w base)^[count] st.run := by
  induction count generalizing st i packets with
  | zero =>
    cases saved
    rfl
  | succ count ih =>
    obtain ⟨⟨packet, next⟩, one, saved⟩ := bind_ok_iff.mp saved
    obtain ⟨⟨rest, after⟩, others, saved⟩ := bind_ok_iff.mp saved
    cases saved
    have run := (gbDataSaveAll_spec counted (fits 0 (by omega)) one).2
    rw [Function.iterate_succ_apply, ← run]
    refine ih (fun j lt => ?_) others
    have later := fits (j + 1) (by omega)
    rwa [show i + (j + 1) = i + 1 + j by omega] at later

/-! ### The statics after a call -/

theorem filledCount_eq_countP (w : Words) (start : Int) :
    filledCount w start = (List.range 800).countP fun i => w (start + (i : Nat)) ≠ 0 := by
  rw [List.countP_eq_length_filter]
  rfl

/-- The vehicle and the battery of a block whose cells are counted. -/
def infOf (w : Words) (base : Int)
    (cells : w (base + battCellCnt) = UInt32.ofNat (filledCount w (base + battCell))) : GbInf where
  vehiType := vehiTypeOf w base
  batt := {
    voltage := w (base + battVoltage)
    current := w (base + battCurrent)
    cell := fun i => w (base + battCell + i)
    cellCnt := w (base + battCellCnt)
    counted := by
      have bound := filledCount_le w (base + battCell)
      rw [cells, UInt32.toNat_ofNat_of_lt' (by simp only [UInt32.size]; omega)]
      exact filledCount_eq_countP w (base + battCell) }

/-- The statics go on as in the model of the cells alone. -/
theorem nextRun_eq
    (cells : w (base + battCellCnt) = UInt32.ofNat (filledCount w (base + battCell)))
    (sample : GbSample) (run : GbRunning) :
    nextRun w base run = (Gb32960.gbDataSaveAll (infOf w base cells) sample run).2 := by
  unfold nextRun Gb32960.gbDataSaveAll
  cases electric : electric w base with
  | true =>
    have same : (infOf w base cells).electric = true := electric
    rw [if_pos rfl, if_pos same]
    rfl
  | false =>
    have same : ¬ (infOf w base cells).electric = true := fun has => nomatch has.symm.trans electric
    rw [if_neg (by decide), if_neg same]

theorem nextRun_iterate
    (cells : w (base + battCellCnt) = UInt32.ofNat (filledCount w (base + battCell)))
    (samples : Nat → GbSample) (run : GbRunning) (i count : Nat) :
    (nextRun w base)^[count] run = (gbSaveGroups (infOf w base cells) samples run i count).2 := by
  induction count generalizing run i with
  | zero => rfl
  | succ count ih =>
    rw [Function.iterate_succ_apply, nextRun_eq cells (samples i), ih _ (i + 1)]
    rfl

/-- The packets of a call that begins with the statics at zero leave them there. -/
theorem nextRun_groups
    (cells : w (base + battCellCnt) = UInt32.ofNat (filledCount w (base + battCell))) :
    (nextRun w base)^[(groups w base).toNat] ⟨0, 0⟩ = ⟨0, 0⟩ := by
  rw [nextRun_iterate cells (fun _ => bareSample) ⟨0, 0⟩ 0]
  exact (gbSave_zero (infOf w base cells) fun _ => bareSample).1

end Gb32960.Packet
