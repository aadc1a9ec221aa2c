import TBoxMpu.Uds.Diag
import TBoxMpu.Uds.SecAccess

/-!
# Reading the faults

`uds_read_dtc.c`: the service 0x19 with its static `DTC_index`, over any tables, and the tables
of `uds_diag_def.h`.
-/

namespace Uds

/-! ### The tables of the vehicle -/

/-- An entry of `diag_table`: no item has identifiers in its freeze frame. -/
def ftItem (dtc : String) (thsd : Nat) : DiagItem := ⟨dtc.toList, thsd, [didInvalid]⟩

def ftDiag : DiagCfg where
  items := [ftItem "9C0071" 45, ftItem "9C0111" 4, ftItem "9C0112" 4, ftItem "9C0113" 4,
    ftItem "9C0231" 4, ftItem "9C0311" 4, ftItem "9C0312" 4, ftItem "9C0313" 12,
    ftItem "9C0431" 60, ftItem "9C0511" 4, ftItem "9C0600" 60, ftItem "9C0716" 10,
    ftItem "9C0717" 10, ftItem "9C0801" 10, ftItem "9C0931" 4, ftItem "9C1017" 1,
    ftItem "9C1116" 1]
  dids := [⟨0xF18C, 8⟩, ⟨0xF1EE, 14⟩, ⟨0xF1EF, 10⟩, ⟨0xF18A, 5⟩, ⟨0xF198, 10⟩, ⟨0xF187, 13⟩,
    ⟨0xF190, 17⟩, ⟨0xF199, 4⟩, ⟨0xF197, 14⟩, ⟨0xF193, 14⟩, ⟨0xF195, 14⟩, ⟨0xF184, 14⟩,
    ⟨0x4600, 64⟩, ⟨0x4601, 32⟩, ⟨0x4602, 32⟩, ⟨0x4603, 64⟩, ⟨0x4604, 32⟩, ⟨0x4605, 32⟩,
    ⟨0x4606, 32⟩, ⟨0x4607, 32⟩, ⟨0x4608, 6⟩, ⟨0x4609, 16⟩, ⟨0x460A, 15⟩, ⟨0x460B, 20⟩,
    ⟨0x460C, 15⟩, ⟨0x460D, 15⟩, ⟨0x460E, 1⟩, ⟨0x09FF, 1⟩, ⟨0x09FE, 1⟩]

/-- Only the flags are in `uds_diag_item_buf`. -/
def ftSlots : List DiagSlot := (List.range 17).map fun i => ⟨4 * i, 4⟩

/-! ### Faults -/

def hexValue (d : Char) : Option UInt32 :=
  if '0' ≤ d ∧ d ≤ '9' then some (d.val - 48)
  else if 'A' ≤ d ∧ d ≤ 'F' then some (d.val - 55)
  else if 'a' ≤ d ∧ d ≤ 'f' then some (d.val - 87)
  else none

/-- `ChangeDTCtoInt`: `strtoul` ends at the first character that is no digit. -/
def changeDtcToInt (dtcchar : List Char) : UInt32 :=
  ((dtcchar.map hexValue).takeWhile Option.isSome).foldl
    (fun result digit => result * 16 + digit.getD 0) 0

/-- The three bytes of a DTC in a response. -/
def dtcBytes (dtc : UInt32) : List UInt8 :=
  [(dtc >>> 16).toUInt8, (dtc >>> 8).toUInt8, dtc.toUInt8]

/-- The DTC of a request. -/
def dtcOf (high middle low : UInt8) : UInt32 :=
  high.toUInt32 <<< 16 + middle.toUInt32 <<< 8 + low.toUInt32

/-- `uds_diag_is_cfm_dtc_valid` -/
def diagIsCfm (slots : List DiagSlot) (s : DiagState) (i : Nat) : Bool :=
  slots[i]?.any s.buf.confirmed

/-- `uds_diag_is_uncfm_dtc_valid` -/
def diagIsUncfm (s : DiagState) (i : Nat) : Bool := s.counter i > 0

/-- `ChangeDTCtoInt(uds_diag_get_dtc(i))` -/
def diagDtc (c : DiagCfg) (i : Nat) : UInt32 := changeDtcToInt (c.items[i]?.elim [] DiagItem.dtc)

/-! ### The service -/

/-- A response. In an overflow the data does not fit the array `Ar_u8RePDU_DATA`. -/
inductive DtcReply
  | positive (data : List UInt8)
  | negative (sid nrc : UInt8)
  | overflow
  deriving DecidableEq

def nrcRequestOutOfRange : UInt8 := 0x31

def dtcReply (data : List UInt8) : DtcReply :=
  if data.length ≤ 200 then .positive data else .overflow

/-- `statusOfDTC_testfail` and `statusOfDTC_ConfirmedDTC` -/
def statusOfDtc (testfail confirmed : Bool) : UInt8 :=
  (if testfail then 1 else 0) ||| (if confirmed then 8 else 0)

/-- The faults, the static array `DTC_index`, and whether no flag has been set since the array was
last filled, or since the start. -/
structure DtcServer where
  diag : DiagState
  index : Nat → Nat
  numbered : Bool

def DtcServer.initial : DtcServer := ⟨.initial, fun _ => 0, true⟩

variable (c : DiagCfg) (slots : List DiagSlot)

/-- `uds_diag_get_dtc_num`, `uds_diag_get_uncfm_dtc_num` or `uds_diag_get_cfm_dtc_num`. -/
def dtcNum (counted : Nat → Bool) : Nat := (List.range c.items.length).countP counted

def reportNumberOfDtcByStatusMask (s : DiagState) (pdu : List UInt8) : DtcReply :=
  if pdu.length ≠ 3 then .negative (pdu.getD 0 0) nrcIncorrectMessageLength
  else
    -- only two of the status bits are supported
    let mask := pdu.getD 2 0 &&& statusOfDtc true true
    let num :=
      if mask = statusOfDtc true true then
        dtcNum c fun i => diagIsCfm slots s i || diagIsUncfm s i
      else if mask = statusOfDtc true false then dtcNum c (diagIsUncfm s)
      else if mask = statusOfDtc false true then dtcNum c (diagIsCfm slots s)
      else 0
    dtcReply [pdu.getD 0 0 + 0x40, pdu.getD 1 0, statusOfDtc true true, 0,
      (UInt16.ofNat num >>> 8).toUInt8, UInt8.ofNat num]

/-- The DTCs of the items chosen, each with its status. -/
def reportDtcs (s : DiagState) (pdu : List UInt8) (chosen : Nat → Bool) : DtcReply :=
  dtcReply <| [pdu.getD 0 0 + 0x40, pdu.getD 1 0, statusOfDtc true true] ++
    ((List.range c.items.length).filter chosen).flatMap fun i =>
      dtcBytes (diagDtc c i) ++ [statusOfDtc (diagIsUncfm s i) (diagIsCfm slots s i)]

def reportDtcTestfailOrConfirmed (s : DiagState) (pdu : List UInt8) : DtcReply :=
  reportDtcs c slots s pdu fun i => diagIsCfm slots s i || diagIsUncfm s i

def reportDtcTestfail (s : DiagState) (pdu : List UInt8) : DtcReply :=
  reportDtcs c slots s pdu (diagIsUncfm s)

def reportDtcConfirmed (s : DiagState) (pdu : List UInt8) : DtcReply :=
  reportDtcs c slots s pdu (diagIsCfm slots s)

def reportDtcByStatusMask (s : DiagState) (pdu : List UInt8) : DtcReply :=
  if pdu.length ≠ 3 then .negative (pdu.getD 0 0) nrcIncorrectMessageLength
  else
    let mask := pdu.getD 2 0 &&& statusOfDtc true true
    if mask = 0 then dtcReply [pdu.getD 0 0 + 0x40, pdu.getD 1 0, statusOfDtc true true]
    else if mask = statusOfDtc true true then reportDtcTestfailOrConfirmed c slots s pdu
    else if mask = statusOfDtc true false then reportDtcTestfail c slots s pdu
    else reportDtcConfirmed c slots s pdu

def readSupportedDtcs (s : DiagState) (pdu : List UInt8) : DtcReply :=
  if pdu.length ≠ 2 then .negative (pdu.getD 0 0) nrcIncorrectMessageLength
  else reportDtcs c slots s pdu fun _ => true

/-- The loop of `GetDTCSnapshotRecordNumber`: the index and `start_index`. -/
def snapshotNumbers (confirmed : Nat → Bool) (n : Nat) : (Nat → Nat) × Nat :=
  (List.range n).foldl (fun (index, start) i =>
    if confirmed i then (fun j => if j = i then start else index j, start + 1)
    else (index, start)) (fun _ => 0xFFFFFFFF, 1)

def getDtcSnapshotRecordNumber (s : DtcServer) : DtcServer :=
  { s with
    index := (snapshotNumbers (diagIsCfm slots s.diag) c.items.length).1
    numbered := true }

def reportDtcSnapshotIdentification (s : DtcServer) (pdu : List UInt8) : DtcServer × DtcReply :=
  if pdu.length ≠ 2 then (s, .negative (pdu.getD 0 0) nrcIncorrectMessageLength)
  else
    let s := getDtcSnapshotRecordNumber c slots s
    (s, dtcReply <| [pdu.getD 0 0 + 0x40, pdu.getD 1 0] ++
      ((List.range c.items.length).filter (diagIsCfm slots s.diag)).flatMap fun i =>
        dtcBytes (diagDtc c i) ++ [UInt8.ofNat (s.index i)])

/-- The item that `DTCSnapshotRecordNumberAndDTCRecordIsValid` stops at. -/
def snapshotItem (s : DtcServer) (number : Nat) (dtc : UInt32) : Option Nat :=
  (List.range c.items.length).find? fun i =>
    -- the first that fits, among the confirmed ones
    diagIsCfm slots s.diag i && diagDtc c i = dtc && (s.index i = number || number = 0xFF)

/-- `uds_diag_get_freeze` into `DIDBuf`, which has `limit` bytes. On an error, which nothing checks,
`*len` stays `limit`, and that much overflows the response. -/
def snapshotData (s : DiagState) (limit i : Nat) : FreezeRecord :=
  match c.items[i]?, slots[i]? with
  | some item, some slot =>
    (udsDiagGetFreeze c slot item s.buf limit).getD ⟨List.replicate limit 0, limit, 0⟩
  | _, _ => ⟨[], 0, 0⟩

def reportDtcSnapshotRecordByDtcNumber (s : DtcServer) (pdu : List UInt8) : DtcServer × DtcReply :=
  if pdu.length ≠ 6 then (s, .negative (pdu.getD 0 0) nrcIncorrectMessageLength)
  else
    let number := (pdu.getD 5 0).toNat
    match snapshotItem c slots s number (dtcOf (pdu.getD 2 0) (pdu.getD 3 0) (pdu.getD 4 0)) with
    | none => (s, .negative (pdu.getD 0 0) nrcRequestOutOfRange)
    | some i =>
      -- any number: the numbers are assigned anew
      let s := if number = 0xFF then getDtcSnapshotRecordNumber c slots s else s
      let number := if number = 0xFF then s.index i else number
      let freeze := snapshotData c slots s.diag 200 i
      (s, dtcReply <| [pdu.getD 0 0 + 0x40, pdu.getD 1 0, pdu.getD 2 0, pdu.getD 3 0,
        pdu.getD 4 0, statusOfDtc true true, UInt8.ofNat number, UInt8.ofNat freeze.didNum] ++
          freeze.data.take freeze.len)

/-- `UDS_SRV_ReadDTC` -/
def udsSrvReadDtc (s : DtcServer) (pdu : List UInt8) : DtcServer × DtcReply :=
  if pdu.length < 2 then (s, .negative (pdu.getD 0 0) nrcIncorrectMessageLength)
  else if pdu.getD 1 0 = 0x01 then (s, reportNumberOfDtcByStatusMask c slots s.diag pdu)
  else if pdu.getD 1 0 = 0x02 then (s, reportDtcByStatusMask c slots s.diag pdu)
  else if pdu.getD 1 0 = 0x03 then reportDtcSnapshotIdentification c slots s pdu
  else if pdu.getD 1 0 = 0x04 then reportDtcSnapshotRecordByDtcNumber c slots s pdu
  else if pdu.getD 1 0 = 0x0A then (s, readSupportedDtcs c slots s.diag pdu)
  else (s, .negative (pdu.getD 0 0) nrcSubFuncationNotSupported)

/-! ### Runs -/

/-- A round of checks, a clear, or a request. -/
inductive DtcEvent
  | round (round : DiagRound)
  | clear
  | request (pdu : List UInt8)

/-- No flag differs. -/
def sameFlags (before after : DiagState) : Bool :=
  (List.range c.items.length).all fun i => diagIsCfm slots before i = diagIsCfm slots after i

def dtcStep (s : DtcServer) : DtcEvent → DtcServer
  | .round round =>
    let diag := udsDiagAllDevices c slots round s.diag
    { s with diag, numbered := s.numbered && sameFlags c slots s.diag diag }
  | .clear => { s with diag := udsDiagDtcClear }
  | .request pdu => (udsSrvReadDtc c slots s pdu).1

def DtcReach : DtcServer → Prop :=
  Runs.Reach (· = .initial) fun s e s' => s' = dtcStep c slots s e

end Uds
