import TBoxMpu.Gb32960.ErrorRing
import TBoxMpu.Lib.Runs

/-!
# The cells of a report

A report of many cells goes out in several packets. `gb_data_save_cell` keeps the cell it has
come to in a static variable, for realtime and error packets alike and across DBC loads.

`cells_tiled`: the packets of one call report the cells in order, each once, and leave the static
at zero, whatever was saved and loaded before.
-/

namespace Gb32960

open Runs

/-! ### Configuration and values -/

/-- `gb_batt_t` without the temperatures: the ids of the signals, and how many cells have one;
`gb_data_parse_surfix` counts a cell when it gets its first id. -/
structure GbBatt where
  voltage : UInt32
  current : UInt32
  cell : Nat → UInt32
  cellCnt : UInt32
  counted : cellCnt.toNat = (List.range gbMaxPackCell).countP fun i => cell i ≠ 0

def gbVehitypeElect : UInt8 := 0x01

def gbVehitypeHybird : UInt8 := 0x02

def gbVehitypeGasfuel : UInt8 := 0x03

/-- `gb_info_t`, as far as the cells depend on it. -/
structure GbInf where
  vehiType : UInt8
  batt : GbBatt

/-- What one call of `gb_data_save_all` reads: the values of the signals, scaled to what is
reported of them, and the bytes of the other parts. -/
structure GbSample where
  voltage : UInt32 → UInt32
  current : UInt32 → UInt32
  cell : UInt32 → UInt32
  time : List UInt8
  vehi : List UInt8
  motor : List UInt8
  fuelcell : List UInt8
  temp : List UInt8
  extr : List UInt8
  engin : List UInt8
  gps : List UInt8
  warn : List UInt8

/-- `start` of `gb_data_save_cell` and `packnum` of `gb_data_save_extr`. -/
structure GbRunning where
  start : UInt32
  packnum : UInt32
  deriving DecidableEq

/-- `GROUP_SIZE`. -/
def groupSize (inf : GbInf) : UInt32 := (inf.batt.cellCnt + 200 - 1) / 200

/-! ### One packet -/

def be16 (tmp : UInt32) : List UInt8 := [(tmp >>> 8).toUInt8, tmp.toUInt8]

/-- The value of a signal that is defined. -/
def valueOf (value : UInt32 → UInt32) (id : UInt32) : UInt32 := if id ≠ 0 then value id else 0xffff

/-- What is reported of the cells from `start` on. -/
def cellBytes (batt : GbBatt) (sample : GbSample) (start cells : Nat) : List UInt8 :=
  (List.range' start cells).flatMap fun i => be16 (valueOf sample.cell (batt.cell i))

def gbDataSaveCell (batt : GbBatt) (sample : GbSample) (start : UInt32) : List UInt8 × UInt32 :=
  -- a packet takes at most 200 cells
  let cells := min (batt.cellCnt - start) 200
  ([0x08, 1, 1] ++ be16 (valueOf sample.voltage batt.voltage) ++
    be16 (valueOf sample.current batt.current) ++ be16 batt.cellCnt ++ be16 (start + 1) ++
    [cells.toUInt8] ++ cellBytes batt sample start.toNat cells.toNat,
   -- the last packet leads back to the first cell
   (start + cells) % batt.cellCnt)

/-- The vehicle has a battery to report. -/
def GbInf.electric (inf : GbInf) : Bool :=
  inf.vehiType = gbVehitypeElect ∨ inf.vehiType = gbVehitypeHybird

def GbInf.fuelled (inf : GbInf) : Bool :=
  inf.vehiType = gbVehitypeGasfuel ∨ inf.vehiType = gbVehitypeHybird

def beforeCells (sample : GbSample) : List UInt8 :=
  sample.time ++ sample.vehi ++ sample.motor ++ sample.fuelcell

def afterCells (inf : GbInf) (sample : GbSample) : List UInt8 :=
  sample.temp ++ sample.extr ++ (if inf.fuelled then sample.engin else []) ++ sample.gps ++
    sample.warn

def withoutCells (inf : GbInf) (sample : GbSample) : List UInt8 :=
  sample.time ++ sample.vehi ++ (if inf.fuelled then sample.engin else []) ++ sample.gps ++
    sample.warn

def gbDataSaveAll (inf : GbInf) (sample : GbSample) (run : GbRunning) :
    List UInt8 × GbRunning :=
  if inf.electric then
    -- both statics go on from where the last packet left them
    let (cell, start) := gbDataSaveCell inf.batt sample run.start
    (beforeCells sample ++ cell ++ afterCells inf sample,
      ⟨start, (run.packnum + 1) % groupSize inf⟩)
  else (withoutCells inf sample, run)

/-- The packets of one call of `gb_data_save_realtm` or `gb_data_save_error`: `count` of them,
the next with the values `samples i`. -/
def gbSaveGroups (inf : GbInf) (samples : Nat → GbSample) (run : GbRunning) (i : Nat) :
    Nat → List (List UInt8) × GbRunning
  | 0 => ([], run)
  | count + 1 =>
    let (data, run) := gbDataSaveAll inf (samples i) run
    let (rest, run) := gbSaveGroups inf samples run (i + 1) count
    (data :: rest, run)

def gbSave (inf : GbInf) (samples : Nat → GbSample) (run : GbRunning) :
    List (List UInt8) × GbRunning :=
  gbSaveGroups inf samples run 0 (groupSize inf).toNat

/-! ### Calls -/

/-- What the calls work on. -/
structure GbSaver where
  inf : Option GbInf
  run : GbRunning
  store : GbStore
  errs : GbErrors

/-- The calls, and the end of a DBC load. -/
inductive GbSaverEvent
  | saveRealtm (samples : Nat → GbSample)
  | saveError (samples : Nat → GbSample)
  | loaded (inf : GbInf)

def gbSaverStep (s : GbSaver) : GbSaverEvent → Option GbSaver
  | .saveRealtm samples =>
    s.inf.bind fun inf =>
      let (groups, run) := gbSave inf samples s.run
      (gbDataSaveRealtm s.store groups).map fun store => { s with store, run }
  | .saveError samples =>
    s.inf.bind fun inf =>
      let (groups, run) := gbSave inf samples s.run
      (gbDataSaveError s.errs groups).map fun errs => { s with errs, run }
  -- a load changes the number of packets, but not the statics
  | .loaded inf => some { s with
      inf := some inf
      errs := gbErrorInit s.errs (groupSize inf).toNat
      store := gbDataClearReport s.store }

/-- No DBC is loaded, and the statics are zero. -/
structure GbSaverStart (s : GbSaver) : Prop where
  inf : s.inf = none
  run : s.run = ⟨0, 0⟩

def GbSaverReach : GbSaver → Prop :=
  Reach GbSaverStart fun s e s' => gbSaverStep s e = some s'

/-! ### Tiles -/

/-- Spans of at most `most` from `first` up to `last`, each beginning where the one before it
ended. -/
def Tiles (most : Nat) : Nat → List (Nat × Nat) → Nat → Prop
  | first, [], last => first = last
  | first, span :: rest, last =>
    span.1 = first ∧ 0 < span.2 ∧ span.2 ≤ most ∧ Tiles most (first + span.2) rest last

/-- Tiles cover everything in order, each place once. -/
theorem Tiles.cover {most : Nat} {first last : Nat} {spans : List (Nat × Nat)}
    (tiles : Tiles most first spans last) :
    (spans.flatMap fun span => List.range' span.1 span.2) = List.range' first (last - first) ∧
    first ≤ last := by
  induction spans generalizing first with
  | nil =>
    obtain rfl : first = last := tiles
    simp
  | cons span rest ih =>
    -- the first span begins at `first`, the rest where it ends
    obtain ⟨rfl, -, -, tiles⟩ := tiles
    obtain ⟨cover, le⟩ := ih tiles
    refine ⟨?_, by omega⟩
    rw [List.flatMap_cons, cover, List.range'_append_1]
    congr 1
    omega

/-- The first cell and the number of cells that the bytes of `gb_data_save_cell` name. -/
def spanOf (frame : List UInt8) : Nat × Nat :=
  ((frame.getD 9 0).toNat * 256 + (frame.getD 10 0).toNat, (frame.getD 11 0).toNat)

/-- A frame of cells, with the values of the cells it names. -/
def FrameOf (batt : GbBatt) (sample : GbSample) (frame : List UInt8) : Prop :=
  frame.take 3 = [0x08, 1, 1] ∧
  frame.drop 12 = cellBytes batt sample ((spanOf frame).1 - 1) (spanOf frame).2

/-- The packets have each their cells, whose values are those of the cells they name, and
together report all of them in order. -/
def ReportsCells (inf : GbInf) (samples : Nat → GbSample) (packets : List (List UInt8)) : Prop :=
  ∃ frames : List (List UInt8),
    packets = frames.mapIdx (fun i frame =>
      beforeCells (samples i) ++ frame ++ afterCells inf (samples i)) ∧
    (∀ i frame, frames[i]? = some frame → FrameOf inf.batt (samples i) frame) ∧
    Tiles 200 1 (frames.map spanOf) (inf.batt.cellCnt.toNat + 1) ∧
    ((frames.map spanOf).flatMap fun span => List.range' span.1 span.2) =
      List.range' 1 inf.batt.cellCnt.toNat

/-! ### The packets of a call -/

theorem cellCnt_le (batt : GbBatt) : batt.cellCnt.toNat ≤ gbMaxPackCell := by
  rw [batt.counted]
  exact List.countP_le_length.trans (List.length_range).le

theorem be16_toNat (tmp : UInt32) (small : tmp.toNat < 65536) :
    (tmp >>> 8).toUInt8.toNat * 256 + tmp.toUInt8.toNat = tmp.toNat := by
  simp [UInt32.toNat_shiftRight, Nat.shiftRight_eq_div_pow]
  omega

theorem toNat_min (a b : UInt32) : (min a b).toNat = min a.toNat b.toNat := by
  have unfolded : min a b = if a ≤ b then a else b := rfl
  rw [unfolded]
  split
  next le => exact (Nat.min_eq_left (UInt32.le_iff_toNat_le.mp le)).symm
  next gt =>
    have lt : b.toNat < a.toNat := by
      rw [UInt32.le_iff_toNat_le] at gt
      omega
    exact (Nat.min_eq_right lt.le).symm

/-- One packet reports the cells from `start` on, as many as there are up to 200. -/
theorem gbDataSaveCell_frame (batt : GbBatt) (sample : GbSample) {start : UInt32}
    (lt : start.toNat < batt.cellCnt.toNat) :
    let frame := (gbDataSaveCell batt sample start).1
    let m := min (batt.cellCnt.toNat - start.toNat) 200
    frame.take 3 = [0x08, 1, 1] ∧ frame.drop 12 = cellBytes batt sample start.toNat m ∧
    spanOf frame = (start.toNat + 1, m) ∧
    (gbDataSaveCell batt sample start).2.toNat = (start.toNat + m) % batt.cellCnt.toNat := by
  have bound := cellCnt_le batt
  have size : gbMaxPackCell = 800 := rfl
  -- no subtraction wraps: there are cells left
  have left : (batt.cellCnt - start).toNat = batt.cellCnt.toNat - start.toNat :=
    UInt32.toNat_sub_of_le _ _ (UInt32.le_iff_toNat_le.mpr lt.le)
  have cells : (min (batt.cellCnt - start) 200).toNat =
      min (batt.cellCnt.toNat - start.toNat) 200 := by
    rw [toNat_min, left]
    rfl
  dsimp only
  refine ⟨rfl, ?_, ?_, ?_⟩
  · rw [← cells]
    rfl
  · -- what the bytes of the head name
    have next : (start + 1).toNat = start.toNat + 1 := by
      rw [UInt32.toNat_add]
      have one : (1 : UInt32).toNat = 1 := rfl
      omega
    have first := be16_toNat (start + 1) (by omega)
    rw [next] at first
    have count : (min (batt.cellCnt - start) 200).toUInt8.toNat =
        min (batt.cellCnt.toNat - start.toNat) 200 := by
      rw [UInt32.toNat_toUInt8, cells]
      omega
    rw [← first, ← count]
    rfl
  · change ((start + min (batt.cellCnt - start) 200) % batt.cellCnt).toNat = _
    rw [UInt32.toNat_mod, UInt32.toNat_add, cells]
    congr 1
    omega

theorem groupSize_toNat (inf : GbInf) :
    (groupSize inf).toNat = (inf.batt.cellCnt.toNat + 199) / 200 := by
  have bound := cellCnt_le inf.batt
  have size : gbMaxPackCell = 800 := rfl
  unfold groupSize
  rw [UInt32.toNat_div, UInt32.toNat_sub_of_le, UInt32.toNat_add]
  · have twoHundred : (200 : UInt32).toNat = 200 := rfl
    have one : (1 : UInt32).toNat = 1 := rfl
    rw [twoHundred, one]
    omega
  · rw [UInt32.le_iff_toNat_le, UInt32.toNat_add]
    have twoHundred : (200 : UInt32).toNat = 200 := rfl
    have one : (1 : UInt32).toNat = 1 := rfl
    omega

/-- One packet of a vehicle with a battery, and what becomes of the statics. -/
theorem gbDataSaveAll_frame {inf : GbInf} (electric : inf.electric = true) (sample : GbSample)
    {run : GbRunning} (lt : run.start.toNat < inf.batt.cellCnt.toNat)
    (packs : run.packnum.toNat < (groupSize inf).toNat) :
    let m := min (inf.batt.cellCnt.toNat - run.start.toNat) 200
    let r := gbDataSaveAll inf sample run
    (∃ frame, r.1 = beforeCells sample ++ frame ++ afterCells inf sample ∧
      FrameOf inf.batt sample frame ∧ spanOf frame = (run.start.toNat + 1, m)) ∧
    r.2.start.toNat = (run.start.toNat + m) % inf.batt.cellCnt.toNat ∧
    r.2.packnum.toNat = (run.packnum.toNat + 1) % (groupSize inf).toNat := by
  obtain ⟨head, cells, span, next⟩ := gbDataSaveCell_frame inf.batt sample lt
  have all : gbDataSaveAll inf sample run =
      (beforeCells sample ++ (gbDataSaveCell inf.batt sample run.start).1 ++
        afterCells inf sample,
      ⟨(gbDataSaveCell inf.batt sample run.start).2, (run.packnum + 1) % groupSize inf⟩) := by
    unfold gbDataSaveAll
    rw [if_pos electric]
  dsimp only
  rw [all]
  refine ⟨⟨_, rfl, ⟨head, ?_⟩, span⟩, next, ?_⟩
  · rw [span]
    exact cells
  · have bound := (groupSize inf).toNat_lt
    have one : (1 : UInt32).toNat = 1 := rfl
    rw [UInt32.toNat_mod, UInt32.toNat_add]
    congr 1
    omega

/-- The packets that are still to come report the cells that are still to be reported. -/
theorem saveGroups_tiles {inf : GbInf} (electric : inf.electric = true)
    (samples : Nat → GbSample) (count : Nat) :
    ∀ (run : GbRunning) (i : Nat), run.start.toNat < inf.batt.cellCnt.toNat →
      count = (inf.batt.cellCnt.toNat - run.start.toNat + 199) / 200 →
      run.packnum.toNat + count = (groupSize inf).toNat →
      (gbSaveGroups inf samples run i count).2 = ⟨0, 0⟩ ∧
      ∃ frames : List (List UInt8),
        (gbSaveGroups inf samples run i count).1 = frames.mapIdx (fun j frame =>
          beforeCells (samples (i + j)) ++ frame ++ afterCells inf (samples (i + j))) ∧
        (∀ j frame, frames[j]? = some frame → FrameOf inf.batt (samples (i + j)) frame) ∧
        Tiles 200 (run.start.toNat + 1) (frames.map spanOf) (inf.batt.cellCnt.toNat + 1) := by
  induction count with
  | zero =>
    intro run i lt count
    omega
  | succ count ih =>
    intro run i lt left packs
    obtain ⟨⟨frame, data, values, span⟩, next, packnum⟩ :=
      gbDataSaveAll_frame electric (samples i) lt (by omega)
    have packet : gbSaveGroups inf samples run i (count + 1) =
        ((gbDataSaveAll inf (samples i) run).1 ::
          (gbSaveGroups inf samples (gbDataSaveAll inf (samples i) run).2 (i + 1) count).1,
        (gbSaveGroups inf samples (gbDataSaveAll inf (samples i) run).2 (i + 1) count).2) := rfl
    rw [packet, data]
    generalize (gbDataSaveAll inf (samples i) run).2 = run' at next packnum
    by_cases last : inf.batt.cellCnt.toNat - run.start.toNat ≤ 200
    · -- the last packet: both statics come round to zero
      obtain rfl : count = 0 := by omega
      rw [Nat.min_eq_left last, Nat.add_sub_cancel' lt.le, Nat.mod_self] at next
      rw [packs, Nat.mod_self] at packnum
      have zero : run' = ⟨0, 0⟩ := by
        obtain ⟨start, pack⟩ := run'
        obtain rfl : start = 0 := UInt32.toNat_inj.mp next
        obtain rfl : pack = 0 := UInt32.toNat_inj.mp packnum
        rfl
      refine ⟨zero, [frame], rfl, ?_, ?_⟩
      · intro j f found
        cases j with
        | zero =>
          obtain rfl : frame = f := by simpa using found
          exact values
        | succ j => cases found
      · rw [List.map_singleton, span]
        refine ⟨rfl, ?_, Nat.min_le_right _ _, ?_⟩
        · dsimp only
          omega
        · change run.start.toNat + 1 + _ = _
          dsimp only
          omega
    · -- a full packet of 200 cells, and the packets behind it
      have groups := groupSize_toNat inf
      have full : min (inf.batt.cellCnt.toNat - run.start.toNat) 200 = 200 := by omega
      rw [full] at next span
      rw [Nat.mod_eq_of_lt (by omega)] at next
      rw [Nat.mod_eq_of_lt (by omega)] at packnum
      obtain ⟨zero, frames, packets, rest, tiles⟩ :=
        ih run' (i + 1) (by omega) (by omega) (by omega)
      refine ⟨zero, frame :: frames, ?_, ?_, ?_⟩
      · rw [List.mapIdx_cons, packets]
        simp only [Nat.add_zero, Nat.add_assoc, Nat.add_comm 1]
      · intro j f found
        cases j with
        | zero =>
          obtain rfl : frame = f := by simpa using found
          exact values
        | succ j =>
          have here := rest j f (by simpa using found)
          rwa [Nat.add_assoc, Nat.add_comm 1] at here
      · rw [List.map_cons, span]
        refine ⟨rfl, Nat.succ_pos 199, le_rfl, ?_⟩
        dsimp only
        rw [next, Nat.add_right_comm] at tiles
        exact tiles

/-- A vehicle without a battery: no packet has a part for cells. -/
theorem saveGroups_without {inf : GbInf} (other : inf.electric = false)
    (samples : Nat → GbSample) (run : GbRunning) (i count : Nat) :
    gbSaveGroups inf samples run i count =
      ((List.range' i count).map fun i => withoutCells inf (samples i), run) := by
  induction count generalizing i with
  | zero => rfl
  | succ count ih =>
    unfold gbSaveGroups gbDataSaveAll
    rw [if_neg (by simp [other])]
    dsimp only
    rw [ih (i + 1), List.range'_succ, List.map_cons]

/-- A call on zero statics leaves them zero, and for a vehicle with a battery reports its
cells. -/
theorem gbSave_zero (inf : GbInf) (samples : Nat → GbSample) :
    (gbSave inf samples ⟨0, 0⟩).2 = ⟨0, 0⟩ ∧
    (inf.electric = true → ReportsCells inf samples (gbSave inf samples ⟨0, 0⟩).1) := by
  have groups := groupSize_toNat inf
  cases electric : inf.electric with
  | false =>
    unfold gbSave
    rw [saveGroups_without electric]
    exact ⟨rfl, nofun⟩
  | true =>
    by_cases some : 0 < inf.batt.cellCnt.toNat
    · obtain ⟨zero, frames, packets, values, tiles⟩ := saveGroups_tiles electric samples
        (groupSize inf).toNat ⟨0, 0⟩ 0 some groups (Nat.zero_add _)
      simp only [Nat.zero_add] at packets values
      have cover := tiles.cover.1
      exact ⟨zero, fun _ => ⟨frames, packets, values, tiles, cover⟩⟩
    · have none : inf.batt.cellCnt.toNat = 0 := by omega
      have nothing : gbSave inf samples ⟨0, 0⟩ = ([], ⟨0, 0⟩) := by
        unfold gbSave
        rw [groups, none]
        rfl
      rw [nothing]
      refine ⟨rfl, fun _ => ⟨[], rfl, ?_, ?_, ?_⟩⟩
      · intro j frame found
        simp at found
      · rw [none]
        rfl
      · rw [none]
        rfl

/-! ### Runs -/

theorem run_zero {s : GbSaver} (reach : GbSaverReach s) : s.run = ⟨0, 0⟩ := by
  have starts : ∀ s, GbSaverStart s → s.run = ⟨0, 0⟩ := fun s start => start.run
  have kept : ∀ s e s', s.run = ⟨0, 0⟩ → gbSaverStep s e = some s' → s'.run = ⟨0, 0⟩ := by
    intro s e s' zero step
    cases e with
    | saveRealtm samples =>
      obtain ⟨inf, -, step⟩ := Option.bind_eq_some_iff.mp step
      obtain ⟨store, -, rfl⟩ := Option.map_eq_some_iff.mp step
      rw [zero]
      exact (gbSave_zero inf samples).1
    | saveError samples =>
      obtain ⟨inf, -, step⟩ := Option.bind_eq_some_iff.mp step
      obtain ⟨errs, -, rfl⟩ := Option.map_eq_some_iff.mp step
      rw [zero]
      exact (gbSave_zero inf samples).1
    | loaded inf =>
      cases step
      exact zero
  exact Reach.invariant starts kept reach

/-- After any saves and loads: the static is zero, and the packets that the next call makes for a
vehicle with a battery report its cells 1 to n in order, each once, at most 200 in a packet. For a
vehicle without a battery no packet has a part for cells. -/
theorem cells_tiled {s : GbSaver} (reach : GbSaverReach s) :
    s.run = ⟨0, 0⟩ ∧ ∀ inf, s.inf = some inf → ∀ samples,
      (gbSave inf samples s.run).2 = ⟨0, 0⟩ ∧
      (inf.electric = true → ReportsCells inf samples (gbSave inf samples s.run).1) ∧
      (inf.electric = false → (gbSave inf samples s.run).1 =
        (List.range (groupSize inf).toNat).map fun i => withoutCells inf (samples i)) := by
  have zero := run_zero reach
  refine ⟨zero, fun inf _ samples => ?_⟩
  rw [zero]
  obtain ⟨after, tiled⟩ := gbSave_zero inf samples
  refine ⟨after, tiled, fun other => ?_⟩
  unfold gbSave
  rw [saveGroups_without other, List.range_eq_range']

/-- With cells defined, the packets of a vehicle without a battery do not report them. -/
theorem without_reports_none {inf : GbInf} (other : inf.electric = false)
    (some : 0 < inf.batt.cellCnt.toNat) (samples : Nat → GbSample) (run : GbRunning) :
    ¬ ReportsCells inf samples (gbSave inf samples run).1 := by
  rintro ⟨frames, packets, values, -⟩
  have groups := groupSize_toNat inf
  have first : (gbSave inf samples run).1[0]? = .some (withoutCells inf (samples 0)) := by
    obtain ⟨count, more⟩ : ∃ count, (groupSize inf).toNat = count + 1 :=
      ⟨(groupSize inf).toNat - 1, by omega⟩
    unfold gbSave
    rw [saveGroups_without other, more]
    rfl
  rw [packets, List.getElem?_mapIdx, Option.map_eq_some_iff] at first
  obtain ⟨frame, found, data⟩ := first
  have size : 3 ≤ frame.length := by
    have head := congrArg List.length (values 0 frame found).1
    rw [List.length_take] at head
    have three : [(0x08 : UInt8), 1, 1].length = 3 := rfl
    omega
  have length := congrArg List.length data
  simp only [beforeCells, afterCells, withoutCells, List.length_append] at length
  omega

/-! ### Runs to compute with -/

/-- This many cells, and nothing else. -/
def cellsOnly (n : Fin (gbMaxPackCell + 1)) : GbBatt where
  voltage := 0
  current := 0
  cell i := if i < n.val then 1 else 0
  cellCnt := UInt32.ofNat n.val
  counted := by
    have small : n.val < 2 ^ 32 := by
      have lt := n.isLt
      have size : gbMaxPackCell = 800 := rfl
      omega
    have counts : ∀ k, (List.range k).countP (fun i => decide ((if i < n.val then (1 : UInt32)
        else 0) ≠ 0)) = min n.val k := by
      intro k
      induction k with
      | zero => simp
      | succ k ih =>
        rw [List.range_succ, List.countP_append, ih, List.countP_singleton]
        by_cases below : k < n.val
        · simp [below]
          omega
        · simp [below]
          omega
    rw [UInt32.toNat_ofNat_of_lt' small, counts]
    have lt := n.isLt
    omega

def bareSample : GbSample :=
  ⟨fun _ => 0, fun _ => 0, fun _ => 3700, [20, 1, 1, 0, 0, 0], [], [], [], [], [], [], [], []⟩

def freshSaver : GbSaver where
  inf := none
  run := ⟨0, 0⟩
  store := ⟨fun _ => [], fun _ => ⟨[], 0, 0, .free⟩, false⟩
  errs := ⟨fun _ => ⟨[], 0, 0, .free⟩, [], List.nodup_nil⟩

/-- The state after a load. -/
theorem reach_loaded (inf : GbInf) : ∃ s, GbSaverReach s ∧ s.inf = some inf :=
  ⟨_, .next (.loaded inf) (.start ⟨rfl, rfl⟩ : GbSaverReach freshSaver) rfl, rfl⟩

def electricInf : GbInf := ⟨gbVehitypeElect, cellsOnly 201⟩

theorem cells_tiled_201 : ∃ s, GbSaverReach s ∧ s.inf = some electricInf ∧
    electricInf.batt.cellCnt = 201 ∧
    ReportsCells electricInf (fun _ => bareSample)
      (gbSave electricInf (fun _ => bareSample) s.run).1 := by
  obtain ⟨s, reach, inf⟩ := reach_loaded electricInf
  exact ⟨s, reach, inf, rfl, ((cells_tiled reach).2 _ inf _).2.1 rfl⟩

/-- A vehicle with a fuel engine whose DBC defines a cell. -/
def fuelInf : GbInf := ⟨gbVehitypeGasfuel, cellsOnly 1⟩

theorem fuel_reports_none : ∃ s, GbSaverReach s ∧ s.inf = some fuelInf ∧
    0 < fuelInf.batt.cellCnt.toNat ∧
    ¬ ReportsCells fuelInf (fun _ => bareSample)
      (gbSave fuelInf (fun _ => bareSample) s.run).1 := by
  obtain ⟨s, reach, inf⟩ := reach_loaded fuelInf
  exact ⟨s, reach, inf, by decide, without_reports_none rfl (by decide) _ _⟩

end Gb32960
