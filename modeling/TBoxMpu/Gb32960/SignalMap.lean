import Mathlib.Data.UInt
import TBoxMpu.Can.Dbc

/-!
# The signal map of GB32960

The part of `gb32960_data.c` that follows the loading of a DBC file. `gb_infmem` is an array
of two `gb_info_t`; it is kept as words of four bytes, since nothing keeps an index of a file
inside the array it is for. A write that leaves `gb_infmem`, or hits a `next` in it, has no
result.
-/

namespace Gb32960

open Can

/-! ### Memory -/

/-- `sizeof(gb_info_t)` in words. -/
def infoSize : Int := 2664

/-- The words of `gb_infmem`. -/
abbrev Words := Int → UInt32

/-- `gb_infmem` and `gb_infmem + 1`. -/
def blockBase (b : Bool) : Int :=
  if b then infoSize else 0

/-- Where the members of `gb_info_t` begin. -/
def vehiInfo : Int := 0

def vehiStateTbl : Int := 16

def vehiModeTbl : Int := 80

def vehiShiftTbl : Int := 144

def vehiChargeTbl : Int := 208

def vehiDcdcTbl : Int := 272

def vehiType : Int := 336

/-- `motor[m]`: eight words, then the table. -/
def motor (m : Int) : Int := 337 + 72 * m

def motorCnt : Int := 625

def fuelInfo : Int := 626

def fuelTemp : Int := 642

def fuelTempCnt : Int := 842

def fuelHvdcdc : Int := 843

def enginInfo : Int := 845

def enginStateTbl : Int := 849

def battVoltage : Int := 913

def battCurrent : Int := 914

def battCell : Int := 915

def battTemp : Int := 1715

def battCellCnt : Int := 2515

def battTempCnt : Int := 2516

def warn : Int := 2517

def extr : Int := 2645

def infoNext : Int := 2663

/-- The word may be written: it is in `gb_infmem`, and no `next`. -/
def writable (a : Int) : Bool :=
  decide (0 ≤ a) && decide (a < 2 * infoSize) && decide (a ≠ infoNext) &&
    decide (a ≠ infoSize + infoNext)

def poke (a : Int) (v : UInt32) (w : Words) : Option Words :=
  if writable a then some fun x => if x = a then v else w x else none

/-- Byte `i` of the word, for a byte array that begins at word `a`; `i` may be any index. -/
def pokeByte (a i : Int) (v : UInt8) (w : Words) : Option Words :=
  let x := a + i / 4
  let shift := UInt32.ofNat (8 * (i % 4).toNat)
  poke x (w x &&& ~~~(0xff <<< shift) ||| v.toUInt32 <<< shift) w

/-! ### Suffixes -/

/-- `gb_data_parse_surfix` for a type and an index: the word that gets the signal's id, with
the condition on the old word that the battery's cells and temperatures have, and the
counter. -/
inductive Entry
  | refused
  | plain (at_ : Int)
  | motor (at_ : Int) (number : UInt32)
  | fuelTemp (at_ : Int)
  | counted (at_ cnt : Int)
  deriving DecidableEq, Repr

/-- An index of the program as an address offset: unsigned, it wraps at 32 bits. -/
def offset (i : UInt32) : Int :=
  if i.toNat < 2 ^ 31 then i.toNat else i.toNat - 2 ^ 32

/-- An index that is compared with the size of its array. -/
def boundedEntry (array : Int) (size i : UInt32) : Entry :=
  if i ≥ size then .refused else .plain (array + offset i)

def motorEntry (gbindex : UInt32) : Entry :=
  if gbindex >>> 8 ≥ 4 then .refused
  else if gbindex &&& 0xff ≥ 8 then .refused
  else .motor (motor (offset (gbindex >>> 8)) + offset (gbindex &&& 0xff)) (gbindex >>> 8)

/-- The index of a temperature is not compared with the size of its array. -/
def fuelcellEntry (gbindex : UInt32) : Entry :=
  if gbindex ≥ 0x100 then .fuelTemp (fuelTemp + offset (gbindex - 0x100))
  else boundedEntry fuelInfo 10 (gbindex &&& 0xf)

def warnEntry (gbindex : UInt32) : Entry :=
  if gbindex >>> 8 ≥ 4 then .refused
  else if gbindex &&& 0xff ≥ 32 then .refused
  else .plain (warn + 32 * offset (gbindex >>> 8) + offset (gbindex &&& 0xff))

def battVoltEntry (gbindex : UInt32) : Entry :=
  if gbindex >>> 10 ≥ 1 then .refused
  else if gbindex &&& 0x3ff = 0x3fe then .plain battVoltage
  else if gbindex &&& 0x3ff = 0x3ff then .plain battCurrent
  else if gbindex &&& 0x3ff ≥ 800 then .refused
  else .counted (battCell + offset (gbindex &&& 0x3ff)) battCellCnt

def battTempEntry (gbindex : UInt32) : Entry :=
  if gbindex >>> 8 ≥ 1 then .refused
  else if gbindex &&& 0xff ≥ 800 then .refused
  else .counted (battTemp + offset (gbindex &&& 0xff)) battTempCnt

def surfixEntry (gbtype gbindex : UInt32) : Entry :=
  match gbtype.toNat with
  | 0x01 => boundedEntry vehiInfo 16 gbindex
  | 0x02 => motorEntry gbindex
  | 0x0A => fuelcellEntry gbindex
  | 0x04 => boundedEntry enginInfo 4 gbindex
  | 0x06 => boundedEntry extr 16 gbindex
  | 0x07 => warnEntry gbindex
  | 0x08 => battVoltEntry gbindex
  | 0x09 => battTempEntry gbindex
  | _ => .refused

/-- `gb_data_parse_surfix` on the block at `base`. -/
def gbDataParseSurfix (base : Int) (sigid : Nat) (field : UInt32 × UInt32) (w : Words) :
    Option Words :=
  match surfixEntry field.1 field.2 with
  | .refused => some w
  | .plain a => poke (base + a) (UInt32.ofNat sigid) w
  | .motor a number => do
    let w ← poke (base + a) (UInt32.ofNat sigid) w
    -- the highest motor that was named counts
    if number + 1 > w (base + motorCnt) then poke (base + motorCnt) (number + 1) w else some w
  | .fuelTemp a => do
    -- counted with every signal, also for a place that is taken
    let w ← poke (base + fuelTempCnt) (w (base + fuelTempCnt) + 1) w
    poke (base + a) (UInt32.ofNat sigid) w
  | .counted a cnt =>
    -- the first signal keeps the place
    if w (base + a) = 0 then do
      let w ← poke (base + a) (UInt32.ofNat sigid) w
      poke (base + cnt) (w (base + cnt) + 1) w
    else some w

/-! ### Definitions -/

/-- What the first matching format of `gb_data_parse_define` reads. -/
inductive GbDefine
  | vehiType (vtype : UInt32)
  | enginState (index state : UInt32)
  | vehiState (index state : UInt32)
  | vehiMode (index state : UInt32)
  | chgState (index state : UInt32)
  | dcdcState (index state : UInt32)
  | hvdcdcState (index state : UInt32)
  | shift (index : UInt32) (shift : UInt8)
  | motState (motor index state : UInt32)

/-- `%2x` reads two characters: two digits, or a minus sign and one digit. -/
def TwoDigits (i : UInt32) : Prop := -15 ≤ offset i ∧ offset i ≤ 255

/-- The index of a definition has two digits, the motor is one of four. -/
def GbDefine.InRange : GbDefine → Prop
  | .vehiType _ => True
  | .enginState i _ | .vehiState i _ | .vehiMode i _ | .chgState i _ | .dcdcState i _
  | .hvdcdcState i _ | .shift i _ => TwoDigits i
  | .motState m i _ => m < 4 ∧ TwoDigits i

/-- The formats of `gb_data_parse_define`. -/
structure DefineScan where
  define : Bytes → Option GbDefine
  inRange : ∀ line d, define line = some d → d.InRange

def gbDataParseDefine (base : Int) (w : Words) : GbDefine → Option Words
  | .vehiType vtype => pokeByte (base + vehiType) 0 vtype.toUInt8 w
  | .enginState i st => pokeByte (base + enginStateTbl) (offset i) st.toUInt8 w
  | .vehiState i st => pokeByte (base + vehiStateTbl) (offset i) st.toUInt8 w
  | .vehiMode i st => pokeByte (base + vehiModeTbl) (offset i) st.toUInt8 w
  | .chgState i st => pokeByte (base + vehiChargeTbl) (offset i) st.toUInt8 w
  | .dcdcState i st => pokeByte (base + vehiDcdcTbl) (offset i) st.toUInt8 w
  | .hvdcdcState i st => pokeByte (base + fuelHvdcdc) (offset i) st.toUInt8 w
  | .shift i shift => pokeByte (base + vehiShiftTbl) (offset i) shift w
  | .motState m i st => pokeByte (base + motor (offset m) + 8) (offset i) st.toUInt8 w

/-! ### Loading -/

/-- `gb_infmem`, `gb_inf` and the static `gb_rld` of `gb_data_dbc_cb`. -/
structure GbInfo where
  words : Words
  inf : Option Bool
  rld : Option Bool

/-- Clears the block and keeps its `next`; vehicle type 1 is electric. -/
def reloadWords (b : Bool) (w : Words) : Words := fun x =>
  if x = blockBase b + vehiType then 1
  else if blockBase b ≤ x ∧ x < blockBase b + infoNext then 0
  else w x

/-- The ids in the first places, up to the count, are there. -/
def allDefined (w : Words) (a cnt : Int) : Bool :=
  (List.range (w cnt).toNat).all fun i => w (a + i) ≠ 0

/-- `gb_data_dbc_cb`, for the events of a load. `FINISHED` leaves `gb_rld` set when the
battery's cells or temperatures have gaps. -/
def gbDataDbcCb {F : Type} (scan : Scan F) (defs : DefineScan) (evt : DbcEvent) (gb : GbInfo) :
    Option GbInfo :=
  match evt with
  | .reload _ =>
    some { gb with
      rld := some (spareOf gb.inf), words := reloadWords (spareOf gb.inf) gb.words }
  | .finished ret =>
    match gb.rld with
    | none => some { gb with rld := none }
    | some b =>
      -- the load has failed: the other block stays active
      if ret ≠ 0 then some { gb with rld := none }
      else if !allDefined gb.words (blockBase b + battCell) (blockBase b + battCellCnt) then
        some gb
      else if !allDefined gb.words (blockBase b + battTemp) (blockBase b + battTempCnt) then
        some gb
      else some { gb with inf := some b, rld := none }
  | .define line =>
    match gb.rld, defs.define line with
    | some b, some d => (gbDataParseDefine (blockBase b) gb.words d).map fun w => { gb with words := w }
    | _, _ => some gb
  | .surfix id sfx =>
    match gb.rld, scan.gbField sfx with
    | some b, some field =>
      (gbDataParseSurfix (blockBase b) id field gb.words).map fun w => { gb with words := w }
    | _, _ => some gb

end Gb32960
