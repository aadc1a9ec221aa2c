import TBoxMpu.Uds.DidValue
import TBoxMpu.Uds.ReadDtc
import TBoxMpu.Uds.SecAccess

/-!
# The diagnostic server

`uds_server_proc` with its tables, the services that it calls, and `uds_positive_response`. A
service is chosen by the address, the session and the security level; what it answers goes out
unless the answer is to be suppressed.
-/

namespace Uds

/-! ### The tables -/

def nrcServiceNotSupported : UInt8 := 0x11

def nrcConditionsNotCorrect : UInt8 := 0x22

def nrcSecurityAccessDenied : UInt8 := 0x33

def nrcGeneralProgrammingFailure : UInt8 := 0x72

def nrcServiceNotSupportedInActiveSession : UInt8 := 0x7F

/-- `g_u8CurrentSessionType` -/
inductive DiagSession
  | default | program | extended
  deriving DecidableEq, Repr

/-- `DSC_STD_Mask`, `DSC_PRO_Mask` and `DSC_EXT_Mask` -/
def DiagSession.mask : DiagSession → UInt8
  | .default => 0x04
  | .program => 0x10
  | .extended => 0x08

/-- `SAL0_Mask`, `SAL1_Mask` and `SAL2_Mask` -/
def SecLevel.mask : SecLevel → UInt8
  | .level0 => 0x80
  | .level1 => 0x40
  | .level2 => 0x20

/-- `PhysicsAdd_Mask` and `FunctionAdd_Mask` -/
def addressMask (canId : UInt32) : UInt8 := if canId = udsCanIdPhy then 0x01 else 0x02

/-- The functions of `uds_appl_table`. -/
inductive UdsService
  | notSupported | sessionControl | ecuReset | clearDtc | readDtc | readById | securityAccess
  | commControl | writeById | ioControl | routineControl | testPresent | controlDtcSetting
  | requestDownload | transferData | transferExit
  deriving DecidableEq, Repr

def udsApplTable : List UdsService :=
  [.notSupported, .sessionControl, .ecuReset, .clearDtc, .readDtc, .readById, .securityAccess,
    .commControl, .writeById, .ioControl, .routineControl, .testPresent, .controlDtcSetting,
    .requestDownload, .transferData, .transferExit]

def udsIndexMask : List Nat :=
  [0, 0, 0, 0, 0, 0, 0, 0, 0, 0, 0, 0, 0, 0, 0, 0,
    1, 2, 0, 0, 3, 0, 0, 0, 0, 4, 0, 0, 0, 0, 0, 0,
    0, 0, 5, 0, 0, 0, 0, 6, 7, 0, 0, 0, 0, 0, 8, 9,
    0, 10, 0, 0, 13, 0, 14, 15, 0, 0, 0, 0, 0, 0, 11, 0,
    0, 0, 0, 0, 0, 12, 0, 0, 0, 0, 0, 0, 0, 0, 0, 0]

def serverSupperTable : List UInt8 :=
  [0x00, 0x00, 0x00, 0x00, 0x00, 0x00, 0x00, 0x00, 0x00, 0x00, 0x00, 0x00, 0x00, 0x00, 0x00, 0x00,
    0xFF, 0xFF, 0x00, 0x00, 0xEF, 0x00, 0x00, 0x00, 0x00, 0xEF, 0x00, 0x00, 0x00, 0x00, 0x00, 0x00,
    0x00, 0x00, 0xEF, 0x00, 0x00, 0x00, 0x00, 0xF9, 0xFB, 0x00, 0x00, 0x00, 0x00, 0x00, 0x69, 0x00,
    0x00, 0xF9, 0x00, 0x00, 0x31, 0x00, 0x31, 0x31, 0x00, 0x00, 0x00, 0x00, 0x00, 0x00, 0xFF, 0x00,
    0x00, 0x00, 0x00, 0x00, 0x00, 0xEB, 0x00, 0x00, 0x00, 0x00, 0x00, 0x00, 0x00, 0x00, 0x00, 0x00]

def udsGetTableIndex (sid : UInt8) : Nat :=
  let h4bit := sid &&& 0xF0
  if h4bit = 0x00 ∨ h4bit = 0x10 ∨ h4bit = 0x20 ∨ h4bit = 0x30 then
    (h4bit + (sid &&& 0x0F)).toNat
  else if h4bit = 0x80 then (0x40 + (sid &&& 0x0F)).toNat
  else 79

/-- `uds_server_proc` up to the call: the service, or the code of the refusal. -/
def udsServiceOf (canId : UInt32) (session : DiagSession) (level : SecLevel) (sid : UInt8) :
    Except UInt8 UdsService :=
  let tableIndex := udsGetTableIndex sid
  let sidIndex := udsIndexMask.getD tableIndex 0
  let supper := serverSupperTable.getD tableIndex 0
  if sidIndex = 0 then .error nrcServiceNotSupported
  else if supper &&& addressMask canId = 0 then .error nrcConditionsNotCorrect
  else if supper &&& session.mask = 0 then .error nrcServiceNotSupportedInActiveSession
  else if supper &&& level.mask = 0 then .error nrcSecurityAccessDenied
  else
    match udsApplTable[sidIndex]? with
    | some service => .ok service
    | none => .error nrcServiceNotSupported

/-! ### The server -/

/-- What a request makes the server do: a response on `can_id_res`, `PM_EVT_RESTART_4G_REQ` or
`PM_EVT_RESTART_APP_REQ`, or a request for a new key of the TSP. -/
inductive UdsOut
  | response (pdu : List UInt8)
  | restart (app : Bool)
  | requestTukey
  deriving DecidableEq, Repr

/-- The global and static variables of the services; `out` is what the last request made the
server do. -/
structure UdsServer (σ : Type) where
  session : DiagSession
  sec : SecAccess
  /-- `DTCSwitch` -/
  dtcSwitch : Bool
  txFlag : Bool
  rxFlag : Bool
  /-- `g_u8suppressPosRspMsgIndicationFlag` -/
  suppress : Bool
  erasememoryflag : Bool
  dtc : DtcServer
  did : σ
  out : List UdsOut

/-- The tables that the services work with; `old` is what `Ar_u8RePDU_DATA` of
`UDS_SRV_ReadDataByID` has behind its third byte. -/
structure UdsServices (σ : Type) where
  table : List (DidAttr σ)
  cfg : DiagCfg
  slots : List DiagSlot
  rand : UInt32 → UInt32
  old : List UInt8
  room : old.length = 1997

/-- What a service finds outside: the time, a byte of the stack, and for how many times the
answer is put off until a new key is checked or not. -/
structure UdsEnv where
  now : UInt64
  stale : UInt8
  pendings : Nat
  tuKeyCheckFlagFinish : UInt8

variable {σ : Type}

/-- `g_u32DiagID`, which nothing assigns. -/
def diagId : UInt32 := 0

/-- `uds_positive_response` of the server -/
def udsPositiveResponse (pdu : List UInt8) (s : UdsServer σ) : UdsServer σ :=
  if pdu.length ≤ 4096 then
    if pdu.getD 0 0 ≠ sidNegativeResponse ∧ s.suppress = true then { s with suppress := false }
    else if diagId = udsCanIdPhy ∧ pdu.getD 0 0 = sidNegativeResponse ∧
        (pdu.getD 2 0 = nrcServiceNotSupported ∨ pdu.getD 2 0 = nrcSubFuncationNotSupported ∨
          pdu.getD 2 0 = nrcRequestOutOfRange) then
      { s with suppress := false }
    else { s with suppress := false, out := s.out ++ [.response pdu] }
  else s

def udsNegativeResponse (srvId nrc : UInt8) (s : UdsServer σ) : UdsServer σ :=
  udsPositiveResponse [sidNegativeResponse, srvId, nrc] s

/-- A positive response to a request whose sub-function may ask to suppress it. -/
def udsAnswer (pdu data : List UInt8) (s : UdsServer σ) : UdsServer σ :=
  udsPositiveResponse data
    (if pdu.getD 1 0 &&& 0x80 ≠ 0 then { s with suppress := true } else s)

/-- The service and the sub-function of a positive response. -/
def udsEcho (pdu : List UInt8) : List UInt8 := [pdu.getD 0 0 + posRespondSidMask, pdu.getD 1 0]

/-! ### The services -/

/-- `Set_Seesion_Default`, `Clear_SecurityAccess` and `UDS_SetDTCOn` -/
def UdsServer.sessionDefault (s : UdsServer σ) : UdsServer σ :=
  { s with session := .default, sec := { s.sec with level := .level0 }, dtcSwitch := true }

def udsSrvDiagSessionCtrl (pdu : List UInt8) (s : UdsServer σ) : UdsServer σ :=
  let refuse := udsNegativeResponse (pdu.getD 0 0)
  -- `UDS_P2_SERVER_T` and `UDS_P2E_SERVER_T`
  let answer := udsAnswer pdu (udsEcho pdu ++ [0, 50, 0x07, 0xD0])
  if pdu.length ≠ 2 then refuse nrcIncorrectMessageLength s
  else if subFunction pdu = 0x01 then answer s.sessionDefault
  else if subFunction pdu = 0x02 then
    if s.session ≠ .default then answer { s with session := .program }
    else refuse nrcConditionsNotCorrect s
  else if subFunction pdu = 0x03 then
    if s.session ≠ .program then answer { s with session := .extended }
    else refuse nrcConditionsNotCorrect s
  else refuse nrcSubFuncationNotSupported s

def udsSrvEcuReset (pdu : List UInt8) (s : UdsServer σ) : UdsServer σ :=
  let reset (app : Bool) (s : UdsServer σ) := { s with out := s.out ++ [.restart app] }
  if pdu.length ≠ 2 then udsNegativeResponse (pdu.getD 0 0) nrcIncorrectMessageLength s
  else if subFunction pdu = 0x01 then reset false (udsAnswer pdu (udsEcho pdu) s)
  else if subFunction pdu = 0x03 then reset true (udsAnswer pdu (udsEcho pdu) s)
  else udsNegativeResponse (pdu.getD 0 0) nrcSubFuncationNotSupported s

def udsSrvClearDtc (pdu : List UInt8) (s : UdsServer σ) : UdsServer σ :=
  let refuse := udsNegativeResponse (pdu.getD 0 0)
  if pdu.length ≠ 4 then refuse nrcIncorrectMessageLength s
  -- `ALLGROUPOFDTC`
  else if pdu.drop 1 = [0xFF, 0xFF, 0xFF] then
    let s := refuse nrcResponsePending s
    udsPositiveResponse [pdu.getD 0 0 + posRespondSidMask]
      { s with dtc := { s.dtc with diag := udsDiagDtcClear } }
  else refuse nrcRequestOutOfRange s

def udsSecurityAccess (c : UdsServices σ) (env : UdsEnv) (pdu : List UInt8) (s : UdsServer σ) :
    UdsServer σ :=
  let done := udsSrvSecrityAcess c.rand env.now pdu s.sec
  match done.2 with
  | .negative nrc => udsNegativeResponse (pdu.getD 0 0) nrc { s with sec := done.1 }
  | .positive data _ => udsAnswer pdu data { s with sec := done.1 }

/-- What the control types make of `g_TxFlag` and `g_RxFlag`. -/
def commFlags (controlType : UInt8) : Option (Bool × Bool) :=
  if controlType = 0x00 then some (true, true)
  else if controlType = 0x01 then some (false, true)
  else if controlType = 0x02 then some (true, false)
  else if controlType = 0x03 then some (false, false)
  else none

def udsSrvCommunicationControl (pdu : List UInt8) (s : UdsServer σ) : UdsServer σ :=
  let refuse := udsNegativeResponse (pdu.getD 0 0)
  if pdu.length ≠ 3 then refuse nrcIncorrectMessageLength s
  else
    match commFlags (subFunction pdu) with
    | none => refuse nrcSubFuncationNotSupported s
    | some (tx, rx) =>
      -- `normalCommuMesg`
      if pdu.getD 2 0 = 0x01 then
        udsAnswer pdu (udsEcho pdu) { s with txFlag := tx, rxFlag := rx }
      else refuse nrcRequestOutOfRange s

def udsSrvTesterPresent (pdu : List UInt8) (s : UdsServer σ) : UdsServer σ :=
  if pdu.length ≠ 2 then udsNegativeResponse (pdu.getD 0 0) nrcIncorrectMessageLength s
  else if subFunction pdu = 0 then udsAnswer pdu (udsEcho pdu) s
  else udsNegativeResponse (pdu.getD 0 0) nrcSubFuncationNotSupported s

def udsSrvControlDtcSetting (pdu : List UInt8) (s : UdsServer σ) : UdsServer σ :=
  if pdu.length ≠ 2 then udsNegativeResponse (pdu.getD 0 0) nrcIncorrectMessageLength s
  else if subFunction pdu = 0x01 then udsAnswer pdu (udsEcho pdu) { s with dtcSwitch := true }
  else if subFunction pdu = 0x02 then udsAnswer pdu (udsEcho pdu) { s with dtcSwitch := false }
  else udsNegativeResponse (pdu.getD 0 0) nrcSubFuncationNotSupported s

/-- The answers of `CheckLeanTuKey` until the new key is checked or five seconds are over. -/
def checkLeanTuKey (env : UdsEnv) (pdu : List UInt8) (s : UdsServer σ) : UdsServer σ :=
  let pending := udsNegativeResponse (pdu.getD 0 0) nrcResponsePending
  let s := pending s
  let s := { s with out := s.out ++ [.requestTukey] }
  udsPositiveResponse (udsEcho pdu ++ [pdu.getD 2 0, pdu.getD 3 0, env.tuKeyCheckFlagFinish])
    (pending^[env.pendings] s)

def udsSrvRoutineControl (env : UdsEnv) (pdu : List UInt8) (s : UdsServer σ) : UdsServer σ :=
  let refuse := udsNegativeResponse (pdu.getD 0 0)
  let echo := udsEcho pdu ++ [pdu.getD 2 0, pdu.getD 3 0]
  let funvalue := (pdu.getD 2 0).toUInt16 <<< 8 + (pdu.getD 3 0).toUInt16
  if pdu.length < 4 then refuse nrcIncorrectMessageLength s
  else if pdu.getD 1 0 ≠ 0x01 then refuse nrcSubFuncationNotSupported s
  -- the last byte of the answer to `CheckRoutine` is not set
  else if funvalue = 0x0202 then udsPositiveResponse (echo ++ [env.stale]) s
  else if funvalue = 0x0203 then udsPositiveResponse echo s
  else if funvalue = 0xFF00 then
    if s.erasememoryflag then udsPositiveResponse (echo ++ [0]) s
    else refuse nrcGeneralProgrammingFailure s
  else if funvalue = 0xFF01 then
    udsPositiveResponse (echo ++ [if s.erasememoryflag then 0 else 1])
      { s with erasememoryflag := false }
  else if funvalue = 0xA400 then checkLeanTuKey env pdu s
  else refuse nrcRequestOutOfRange s

def udsDidReply (reply : DidReply) (s : UdsServer σ) : UdsServer σ :=
  match reply with
  | .positive data => udsPositiveResponse data s
  | .negative sid nrc => udsNegativeResponse sid nrc s

def udsReadDtcInformation (c : UdsServices σ) (pdu : List UInt8) (s : UdsServer σ) :
    Option (UdsServer σ) :=
  let done := udsSrvReadDtc c.cfg c.slots s.dtc pdu
  match done.2 with
  | .positive data => some (udsPositiveResponse data { s with dtc := done.1 })
  | .negative sid nrc => some (udsNegativeResponse sid nrc { s with dtc := done.1 })
  | .overflow => none

def udsWriteDataByIdentifier (c : UdsServices σ) (pdu : List UInt8) (s : UdsServer σ) :
    Option (UdsServer σ) :=
  (writeDataById c.table pdu s.did).map fun done =>
    done.1.foldl (fun s reply => udsDidReply reply s) { s with did := done.2 }

/-- The call through `uds_appl_table`. There is no state behind an array that is overrun or a
call through `NULL`. -/
def udsServe (c : UdsServices σ) (env : UdsEnv) (pdu : List UInt8) (s : UdsServer σ) :
    UdsService → Option (UdsServer σ)
  | .notSupported => some (udsNegativeResponse (pdu.getD 0 0) nrcServiceNotSupported s)
  | .sessionControl => some (udsSrvDiagSessionCtrl pdu s)
  | .ecuReset => some (udsSrvEcuReset pdu s)
  | .clearDtc => some (udsSrvClearDtc pdu s)
  | .readDtc => udsReadDtcInformation c pdu s
  | .readById => some (udsDidReply (readDataById c.table c.old pdu s.did) s)
  | .securityAccess => some (udsSecurityAccess c env pdu s)
  | .commControl => some (udsSrvCommunicationControl pdu s)
  | .writeById => udsWriteDataByIdentifier c pdu s
  | .routineControl => some (udsSrvRoutineControl env pdu s)
  | .testPresent => some (udsSrvTesterPresent pdu s)
  | .controlDtcSetting => some (udsSrvControlDtcSetting pdu s)
  -- these four have no body
  | .ioControl | .requestDownload | .transferData | .transferExit => some s

/-- A request has at least the byte of its service. -/
structure UdsRequest where
  canId : UInt32
  pdu : List UInt8
  some_bytes : pdu ≠ []

def UdsRequest.sid (r : UdsRequest) : UInt8 := r.pdu.getD 0 0

def udsServerProc (c : UdsServices σ) (env : UdsEnv) (r : UdsRequest) (s : UdsServer σ) :
    Option (UdsServer σ) :=
  match udsServiceOf r.canId s.session s.sec.level r.sid with
  | .error nrc => some (udsNegativeResponse r.sid nrc s)
  | .ok service => udsServe c env r.pdu s service

end Uds
