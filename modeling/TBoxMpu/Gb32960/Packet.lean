import TBoxMpu.Gb32960.CellTiles
import TBoxMpu.Gb32960.SignalPlaces
import TBoxMpu.Lib.Checked

/-!
# The bytes of a packet

`gb_data_save_all` from the words of a `gb_info_t`. A read of a table whose index is computed is
checked against the size of the table; an index that is a constant of the program is inside. What
the floating point unit makes of a signal's value is a parameter.
-/

namespace Gb32960.Packet

open Checked

/-- The operations on a `double`, with its conversions to `uint32_t` and `uint8_t`. -/
structure Floating (F : Type) where
  ofNat : Nat → F
  add : F → F → F
  mul : F → F → F
  lt : F → F → Bool
  nonzero : F → Bool
  toUInt32 : F → UInt32
  toUInt8 : F → UInt8

def Floating.times {F : Type} (fl : Floating F) (n : Nat) (v : F) : F := fl.mul v (fl.ofNat n)

def Floating.plus {F : Type} (fl : Floating F) (n : Nat) (v : F) : F := fl.add v (fl.ofNat n)

structure RtcTime where
  year : UInt16
  mon : UInt8
  mday : UInt8
  hour : UInt8
  min : UInt8
  sec : UInt8

/-- A position, as `gb_data_gpsconv` converts it. -/
structure GpsSnap where
  longitude : UInt32
  latitude : UInt32
  isNorth : Bool
  isEast : Bool

/-- What one packet is made from: the values of the signals by their ids, `CFG_ITEM_FUELCELL` and
the position, if there is a fix. -/
structure GbReading (F : Type) where
  value : UInt32 → F
  time : RtcTime
  fuelcell : Bool
  gps : Option GpsSnap

/-- The static variables of the save functions. -/
structure GbStatics where
  run : GbRunning
  longitudeBak : UInt32
  latitudeBak : UInt32

/-- A table entry outside its array. -/
inductive Outside
  | table
  deriving DecidableEq, Repr

abbrev Saved := Except Outside (List UInt8)

/-- `warntest` of a `gb_info_t`. -/
def warntest : Int := 2662

def be32 (tmp : UInt32) : List UInt8 :=
  [(tmp >>> 24).toUInt8, (tmp >>> 16).toUInt8, (tmp >>> 8).toUInt8, tmp.toUInt8]

/-- Byte `i` of an array of bytes at a word. -/
def byteAt (w : Words) (a : Int) (i : Nat) : UInt8 :=
  (w (a + (i / 4 : Nat)) >>> UInt32.ofNat (8 * (i % 4))).toUInt8

def allOf (n : Nat) (f : Nat → Saved) : Saved := do
  let parts ← (List.range n).mapM f
  .ok parts.flatten

variable {F : Type} (fl : Floating F) (w : Words) (base : Int) (r : GbReading F)

/-- The id at a place of the block; a signal is there unless it is zero. -/
def signalAt (a : Int) : UInt32 := w (base + a)

/-- What is reported of a signal's value, or what stands for a signal that is not there. -/
def scaled (a : Int) (scale : F → F) (absent : UInt32) : UInt32 :=
  if signalAt w base a ≠ 0 then fl.toUInt32 (scale (r.value (signalAt w base a))) else absent

def positive (a : Int) : Bool := fl.lt (fl.ofNat 0) (r.value (signalAt w base a))

/-- The id at place `i` of an array of ids. -/
def entryAt (array : Int) (size i : Nat) : Except Outside UInt32 :=
  fetch .table (fun i => w (base + array + (i : Nat))) size i

/-- The state that a table of bytes has for the value of a signal. -/
def stateAt (a table : Int) (size : Nat) : Except Outside UInt8 :=
  fetch .table (byteAt w (base + table)) size (fl.toUInt32 (r.value (signalAt w base a))).toNat

def stateOr (a table : Int) (size : Nat) (absent : UInt8) : Saved :=
  if signalAt w base a ≠ 0 then do
    let state ← stateAt fl w base r a table size
    .ok [if state ≠ 0 then state else 0xff]
  else .ok [absent]

/-! ### The vehicle -/

/-- What stands for a position of the shift. -/
def shiftCode (sft : UInt8) : UInt32 :=
  if 0x31 ≤ sft ∧ sft ≤ 0x36 then (sft - 0x30).toUInt32  -- '1' to '6'
  else if sft = 0x52 then 13  -- 'R'
  else if sft = 0x44 then 14  -- 'D'
  else if sft = 0x50 then 15  -- 'P'
  else 0

/-- The bit of a pedal: from its indicator, else from the pedal itself. -/
def pedalBit (indicator pad : Int) (bit : UInt32) : UInt32 :=
  if signalAt w base indicator ≠ 0 then if positive fl w base r indicator then bit else 0
  else if signalAt w base pad ≠ 0 then if positive fl w base r pad then bit else 0
  else 0

def shiftState : Saved :=
  if signalAt w base (vehiInfo + 8) ≠ 0 then do
    let sft ← stateAt fl w base r (vehiInfo + 8) vehiShiftTbl 256
    let tmp := shiftCode sft ||| pedalBit fl w base r (vehiInfo + 12) (vehiInfo + 10) 0x20 |||
      pedalBit fl w base r (vehiInfo + 13) (vehiInfo + 11) 0x10
    .ok [tmp.toUInt8]
  else .ok [0xff]

/-- `MIN(value, 60000)`. -/
def insulation : UInt32 :=
  let id := signalAt w base (vehiInfo + 9)
  if id ≠ 0 then
    fl.toUInt32 (if fl.lt (r.value id) (fl.ofNat 60000) then r.value id else fl.ofNat 60000)
  else 0xffff

def gbDataSaveVehi : Saved := do
  let state ← stateOr fl w base r vehiInfo vehiStateTbl 256 0xff
  let charge ← stateOr fl w base r (vehiInfo + 1) vehiChargeTbl 256 0xff
  let mode ← stateOr fl w base r (vehiInfo + 14) vehiModeTbl 256 (byteAt w (base + vehiType) 0)
  let dcdc ← stateOr fl w base r (vehiInfo + 7) vehiDcdcTbl 256 0xff
  let shift ← shiftState fl w base r
  .ok ([0x01] ++ state ++ charge ++ mode ++
    be16 (scaled fl w base r (vehiInfo + 2) (fl.times 10) 0xffff) ++
    be32 (scaled fl w base r (vehiInfo + 3) (fl.times 10) 0xffffffff) ++
    be16 (scaled fl w base r (vehiInfo + 4) (fl.times 10) 0xffff) ++
    be16 (scaled fl w base r (vehiInfo + 5) (fl.plus 10000 ∘ fl.times 10) 0xffff) ++
    [(scaled fl w base r (vehiInfo + 6) id 0xff).toUInt8] ++ dcdc ++ shift ++
    be16 (insulation fl w base r) ++
    [(scaled fl w base r (vehiInfo + 10) id 0xff).toUInt8,
      (scaled fl w base r (vehiInfo + 11) id 0xff).toUInt8])

/-! ### Motors and fuel cell -/

def motorPart (i : Nat) : Saved := do
  need .table (i < 4)
  let state ← stateOr fl w base r (motor i) (motor i + 8) 256 0xff
  .ok ([(UInt32.ofNat i + 1).toUInt8] ++ state ++
    [(scaled fl w base r (motor i + 1) (fl.plus 40) 0xff).toUInt8] ++
    be16 (scaled fl w base r (motor i + 2) (fl.plus 20000) 0xffff) ++
    be16 (scaled fl w base r (motor i + 3) (fl.plus 20000 ∘ fl.times 10) 0xffff) ++
    [(scaled fl w base r (motor i + 4) (fl.plus 40) 0xff).toUInt8] ++
    be16 (scaled fl w base r (motor i + 5) (fl.times 10) 0xffff) ++
    be16 (scaled fl w base r (motor i + 6) (fl.plus 10000 ∘ fl.times 10) 0xffff))

def gbDataSaveMotor : Saved := do
  let cnt := w (base + motorCnt)
  let motors ← allOf cnt.toNat (motorPart fl w base r)
  .ok ([0x02, cnt.toUInt8] ++ motors)

def fuelTempPart (i : Nat) : Saved := do
  let id ← entryAt w base fuelTemp 200 i
  .ok [if id ≠ 0 then (fl.toUInt32 (fl.plus 40 (r.value id))).toUInt8 else 0xff]

def gbDataSaveFuelcell : Saved := do
  let cnt := w (base + fuelTempCnt)
  let temps ← allOf cnt.toNat (fuelTempPart fl w base r)
  let hvdcdc ← stateOr fl w base r (fuelInfo + 9) fuelHvdcdc 8 0xff
  .ok ([0x03] ++ be16 (scaled fl w base r fuelInfo (fl.times 10) 0xffff) ++
    be16 (scaled fl w base r (fuelInfo + 1) (fl.times 10) 0xffff) ++
    be16 (scaled fl w base r (fuelInfo + 2) (fl.times 100) 0xffff) ++
    be16 cnt ++ temps ++
    be16 (scaled fl w base r (fuelInfo + 3) (fl.plus 400 ∘ fl.times 10) 0xffff) ++
    [(scaled fl w base r (fuelInfo + 4) id 0xff).toUInt8] ++
    be16 (scaled fl w base r (fuelInfo + 5) (fl.times 10) 0xffff) ++
    [(scaled fl w base r (fuelInfo + 6) id 0xff).toUInt8] ++
    be16 (scaled fl w base r (fuelInfo + 7) (fl.times 10) 0xffff) ++
    [(scaled fl w base r (fuelInfo + 8) id 0xff).toUInt8] ++ hvdcdc)

/-! ### The battery -/

def cellPart (start i : Nat) : Saved := do
  let id ← entryAt w base battCell 800 (start + i)
  .ok (be16 (if id ≠ 0 then fl.toUInt32 (fl.times 1000 (r.value id)) else 0xffff))

def gbDataSaveCell (start : UInt32) : Except Outside (List UInt8 × UInt32) := do
  let cnt := w (base + battCellCnt)
  let cells := min (cnt - start) 200
  let values ← allOf cells.toNat (cellPart fl w base r start.toNat)
  .ok ([0x08, 1, 1] ++ be16 (scaled fl w base r battVoltage (fl.times 10) 0xffff) ++
    be16 (scaled fl w base r battCurrent (fl.plus 10000 ∘ fl.times 10) 0xffff) ++ be16 cnt ++
    be16 (start + 1) ++ [cells.toUInt8] ++ values, (start + cells) % cnt)

def tempPart (i : Nat) : Saved := do
  let id ← entryAt w base battTemp 800 i
  .ok [if id ≠ 0 then fl.toUInt8 (fl.plus 40 (r.value id)) else 0xff]

def gbDataSaveTemp : Saved := do
  let cnt := w (base + battTempCnt)
  let temps ← allOf cnt.toNat (tempPart fl w base r)
  .ok ([0x09, 1, 1] ++ be16 cnt ++ temps)

/-- The least and the greatest value that was found, with their numbers. -/
structure Extremum (F : Type) where
  max : F
  maxId : UInt32
  min : F
  minId : UInt32

def Extremum.note {F : Type} (fl : Floating F) (limit : Nat) (value : F) (id : UInt32)
    (e : Extremum F) : Extremum F :=
  -- a value above the limit is not valid
  if fl.lt (fl.ofNat limit) value then e
  else
    let e := if fl.lt (fl.ofNat limit) e.min || fl.lt value e.min then
      { e with min := value, minId := id } else e
    if fl.lt (fl.ofNat limit) e.max || fl.lt e.max value then
      { e with max := value, maxId := id } else e

def firstValue (array : Int) (cnt : Nat) : Except Outside F :=
  if 0 < cnt then do
    let id ← entryAt w base array 800 0
    .ok (r.value id)
  else .ok (fl.ofNat 0)

/-- The loop over the first `cnt` entries of an array of the battery. -/
def extremumOf (array : Int) (cnt limit : Nat) : Except Outside (Extremum F) := do
  let first ← firstValue fl w base r array cnt
  (List.range cnt).foldlM (fun e i => do
    let id ← entryAt w base array 800 i
    .ok (e.note fl limit (r.value id) (UInt32.ofNat i + 1))) ⟨first, 1, first, 1⟩

/-- The signals of the DBC replace what was found. -/
def Extremum.replaced {F : Type} (fl : Floating F) (w : Words) (base : Int) (r : GbReading F)
    (maxId max minId min : Int) (e : Extremum F) : Extremum F where
  maxId := scaled fl w base r (extr + maxId) id e.maxId
  max := if signalAt w base (extr + max) ≠ 0 then r.value (signalAt w base (extr + max)) else e.max
  minId := scaled fl w base r (extr + minId) id e.minId
  min := if signalAt w base (extr + min) ≠ 0 then r.value (signalAt w base (extr + min)) else e.min

/-- A cell's number in its packet and its voltage, if it is in this packet. -/
def packetCell {F : Type} (fl : Floating F) (packnum id : UInt32) (value : F) : List UInt8 :=
  if id > (packnum + 1) * 200 then [200] ++ be16 0xffff
  else if id > packnum * 200 then
    [(id - packnum * 200).toUInt8] ++ be16 (fl.toUInt32 (fl.times 1000 value))
  else [0] ++ be16 0xffff

/-- `GROUP_SIZE`. -/
def groups : UInt32 := (w (base + battCellCnt) + 200 - 1) / 200

def gbDataSaveExtr (packnum : UInt32) : Except Outside (List UInt8 × UInt32) := do
  let volt ← extremumOf fl w base r battCell (w (base + battCellCnt)).toNat 15
  let temp ← extremumOf fl w base r battTemp (w (base + battTempCnt)).toNat 210
  let volt := volt.replaced fl w base r 1 2 4 5
  let temp := temp.replaced fl w base r 7 8 10 11
  .ok ([0x06, 1] ++ packetCell fl packnum volt.maxId volt.max ++ [1] ++
    packetCell fl packnum volt.minId volt.min ++
    [1, temp.maxId.toUInt8, fl.toUInt8 (fl.plus 40 temp.max),
      1, temp.minId.toUInt8, fl.toUInt8 (fl.plus 40 temp.min)],
    (packnum + 1) % groups w base)

/-! ### The other parts -/

/-- The warning, or the one that is relevant for it. -/
def warned (i j : Nat) : Bool :=
  let here := signalAt w base (warn + 32 * i + j)
  let relevant := signalAt w base (warn + 96 + j)
  here ≠ 0 && (fl.nonzero (r.value here) || (relevant ≠ 0 && fl.nonzero (r.value relevant)))

def gbDataSaveWarn : List UInt8 :=
  let places := (List.range 3).flatMap fun i => (List.range 32).map fun j => (i, j)
  let found := places.filter fun (i, j) => warned fl w base r i j
  let warnbit := found.foldl (fun bits (_, j) => bits ||| 1 <<< UInt32.ofNat j) 0
  let warnlvl := found.foldl (fun _ (i, _) => i + 1) 0
  let test := w (base + warntest) ≠ 0
  [0x07, if test then 3 else UInt8.ofNat warnlvl] ++
    be32 (if test then warnbit ||| 1 else warnbit) ++ [0, 0, 0, 0]

def gbDataSaveEngin : Saved := do
  let state ← stateOr fl w base r enginInfo enginStateTbl 256 0xff
  .ok ([0x04] ++ state ++ be16 (scaled fl w base r (enginInfo + 1) id 0xffff) ++
    be16 (scaled fl w base r (enginInfo + 2) (fl.times 100) 0xffff))

/-- The last position is reported again where there is no fix. -/
def gbDataSaveGps {F : Type} (r : GbReading F) (st : GbStatics) : List UInt8 × GbStatics :=
  match r.gps with
  | some gps =>
    ([0x05, (if gps.isNorth then 0 else 0x02) ||| (if gps.isEast then 0 else 0x04)] ++
      be32 gps.longitude ++ be32 gps.latitude,
      { st with longitudeBak := gps.longitude, latitudeBak := gps.latitude })
  | none => ([0x05, 0x01] ++ be32 st.longitudeBak ++ be32 st.latitudeBak, st)

/-! ### The packet -/

def timeBytes (time : RtcTime) : List UInt8 :=
  [(time.year - 2000).toUInt8, time.mon, time.mday, time.hour, time.min, time.sec]

def vehiTypeOf : UInt8 := byteAt w (base + vehiType) 0

def electric : Bool :=
  vehiTypeOf w base = gbVehitypeElect ∨ vehiTypeOf w base = gbVehitypeHybird

def fuelled : Bool :=
  vehiTypeOf w base = gbVehitypeGasfuel ∨ vehiTypeOf w base = gbVehitypeHybird

/-- A part that only some packets have. -/
def onlyIf (c : Bool) (part : Saved) : Saved := if c then part else .ok []

/-- The parts of a vehicle with a battery. -/
def electricParts (run : GbRunning) : Except Outside (List UInt8 × GbRunning) := do
  let motors ← gbDataSaveMotor fl w base r
  let fuelcell ← onlyIf r.fuelcell (gbDataSaveFuelcell fl w base r)
  let cells ← gbDataSaveCell fl w base r run.start
  let temps ← gbDataSaveTemp fl w base r
  let extrema ← gbDataSaveExtr fl w base r run.packnum
  .ok (motors ++ fuelcell ++ cells.1 ++ temps ++ extrema.1, ⟨cells.2, extrema.2⟩)

def batteryParts (run : GbRunning) : Except Outside (List UInt8 × GbRunning) :=
  if electric w base then electricParts fl w base r run else .ok ([], run)

def gbDataSaveAll (st : GbStatics) : Except Outside (List UInt8 × GbStatics) := do
  let vehi ← gbDataSaveVehi fl w base r
  let battery ← batteryParts fl w base r st.run
  let engin ← onlyIf (fuelled w base) (gbDataSaveEngin fl w base r)
  let gps := gbDataSaveGps r st
  .ok (timeBytes r.time ++ vehi ++ battery.1 ++ engin ++ gps.1 ++ gbDataSaveWarn fl w base r,
    { gps.2 with run := battery.2 })

/-- The packets of `gb_data_save_realtm` or `gb_data_save_error`, `count` of them from the `i`th
on. -/
def saveGroups {F : Type} (fl : Floating F) (w : Words) (base : Int)
    (readings : Nat → GbReading F) (st : GbStatics) (i : Nat) :
    Nat → Except Outside (List (List UInt8) × GbStatics)
  | 0 => .ok ([], st)
  | count + 1 => do
    let packet ← gbDataSaveAll fl w base (readings i) st
    let rest ← saveGroups fl w base readings packet.2 (i + 1) count
    .ok (packet.1 :: rest.1, rest.2)

end Gb32960.Packet
