import TBoxMpu.Mid.RingBuffer

/-!
# Bulk transfer over SCOM

The data server and the data client of `scom_tl.c`. The functions return the messages they
send; the length of a frame is the length of its data. The resend timer is left out: when
it runs out in a started state, `scom_tl_timeout_proc` does nothing.
-/

namespace Scom

/-! ### Messages and state -/

inductive ScomTlState
  | disconnected | connecting | idle | serverStarted | clientStarted
  deriving DecidableEq

inductive ScomTlFrameType
  | singleFrame | startFrame | middleFrame | lastFrame
  deriving DecidableEq

inductive ScomTlResResult
  | ok | readFailed | serverStartFailed | serverNotStart | dataUnavailable | invalidFno
  deriving DecidableEq

/-- `SCOM_TL_DATA_REQ`, `SCOM_TL_DATA_OK_RES` and `SCOM_TL_DATA_NG_RES`. -/
inductive ScomTlMsg
  | dataReq (fno fcnt : Nat)
  | dataOkRes (ftype : ScomTlFrameType) (fno : Nat) (data : List UInt8)
  | dataNgRes (result : ScomTlResResult) (reason : Nat)
  deriving DecidableEq

def scomTlFrameLen : Nat := 242

structure ScomTlRxCtl where
  used : Bool
  rxLen : Nat
  rxFtype : ScomTlFrameType
  rxFlen : Nat
  rxFno : Int
  reqFno : Nat
  reqFcnt : Nat

/-- All zero, but no frame received. -/
def ScomTlRxCtl.cleared : ScomTlRxCtl := ⟨false, 0, .singleFrame, 0, -1, 0, 0⟩

/-- The static variables of one side. -/
structure ScomTl where
  status : ScomTlState
  txRb : RingBuffer
  rxRb : RingBuffer
  rxDataCtl : ScomTlRxCtl

/-! ### The functions -/

def scomTlSendDataReq (tl : ScomTl) : ScomTl × List ScomTlMsg :=
  -- everything has come
  if tl.rxDataCtl.rxFtype = .lastFrame then (tl, [])
  else if scomTlFrameLen ≤ (rbUnusedLen tl.rxRb).toNat then
    -- a request asks for the frames behind the last one received
    let fno := (tl.rxDataCtl.rxFno + 1).toNat % 2 ^ 16
    let fcnt := (rbUnusedLen tl.rxRb).toNat / scomTlFrameLen % 2 ^ 16
    let fcnt := if fcnt > 5 then 5 else fcnt
    ({ tl with rxDataCtl := { tl.rxDataCtl with reqFcnt := fcnt, reqFno := fno } },
      [.dataReq fno fcnt])
  else (tl, [])

def scomTlStartServer (tl : ScomTl) (data : List UInt8) : Int × ScomTl :=
  if tl.status = .serverStarted then (-1, tl)
  else
    -- an earlier transfer's rest is thrown away
    let txRb := rbClean tl.txRb
    if (rbUnusedLen txRb).toNat < data.length then (-1, { tl with txRb })
    else
      let (_, txRb) := rbIn txRb data (UInt32.ofNat data.length)
      (0, { tl with txRb, status := .serverStarted })

def scomTlStartClient (tl : ScomTl) : Int × ScomTl × List ScomTlMsg :=
  if tl.status = .clientStarted then (-1, tl, [])
  else
    let tl := { tl with rxRb := rbClean tl.rxRb, rxDataCtl := .cleared }
    -- the request goes out before the state is changed
    let (tl, sent) := scomTlSendDataReq tl
    (0, { tl with status := .clientStarted }, sent)

def scomTlStopClient (tl : ScomTl) : ScomTl :=
  { tl with rxRb := rbClean tl.rxRb, rxDataCtl := .cleared, status := .idle }

/-- The loop of `scom_tl_proc_data_req` from frame `fno` on, at most `left` frames more. -/
def scomTlSendFrames (txRb : RingBuffer) (maxFno : Nat) : Nat → Nat → List ScomTlMsg
  | _, 0 => []
  | fno, left + 1 =>
    if fno ≤ maxFno then
      let ftype : ScomTlFrameType :=
        -- all that fits one frame is one frame
        if fno = 0 then
          if maxFno = 0 then .singleFrame else .startFrame
        else if maxFno = fno then .lastFrame
        else .middleFrame
      let frame := rbGet txRb (UInt32.ofNat (fno * scomTlFrameLen)) (UInt32.ofNat scomTlFrameLen)
      if frame.length ≤ 0 then []
      else .dataOkRes ftype fno frame :: scomTlSendFrames txRb maxFno (fno + 1) left
    else []

def scomTlProcDataReq (tl : ScomTl) (fno fcnt : Nat) : List ScomTlMsg :=
  if tl.status ≠ .serverStarted then [.dataNgRes .serverNotStart 0]
  else if rbEmpty tl.txRb then [.dataNgRes .dataUnavailable 0]
  else
    let used := (rbUsedLen tl.txRb).toNat
    -- the number of the last frame
    let maxFno :=
      if used % scomTlFrameLen ≠ 0 then used / scomTlFrameLen % 2 ^ 16
      else (used / scomTlFrameLen - 1) % 2 ^ 16
    if fno > maxFno then [.dataNgRes .invalidFno maxFno]
    else scomTlSendFrames tl.txRb maxFno fno fcnt

def scomTlProcDataOkRes (tl : ScomTl) (ftype : ScomTlFrameType) (fno : Nat)
    (data : List UInt8) : ScomTl × List ScomTlMsg :=
  -- out of order, or once more: dropped
  if (fno : Int) ≠ tl.rxDataCtl.rxFno + 1 then (tl, [])
  else
    let ctl := tl.rxDataCtl
    let tl := { tl with
      rxDataCtl := { ctl with
        used := true, rxFno := fno, rxFlen := data.length, rxFtype := ftype
        rxLen := (ctl.rxLen + data.length) % 2 ^ 32 }
      rxRb := (rbIn tl.rxRb data (UInt32.ofNat data.length)).2 }
    if ftype = .lastFrame then (tl, [])
    -- one behind the last frame that was asked for
    else if fno = ctl.reqFno + ctl.reqFcnt then scomTlSendDataReq tl
    else (tl, [])

def scomTlMsgProc (tl : ScomTl) : ScomTlMsg → ScomTl × List ScomTlMsg
  | .dataReq fno fcnt => (tl, scomTlProcDataReq tl fno fcnt)
  | .dataOkRes ftype fno data => scomTlProcDataOkRes tl ftype fno data
  | .dataNgRes _ _ => (tl, [])

/-- What a call of `scom_tl_get_data` returns and writes. -/
structure DataRead where
  ret : Int
  bytes : List UInt8
  fin : Bool

def scomTlGetData (tl : ScomTl) (len : UInt32) : DataRead × ScomTl × List ScomTlMsg :=
  if tl.status ≠ .clientStarted then (⟨-1, [], true⟩, tl, [])
  -- nothing more to come is told only when the ring is empty
  else if rbEmpty tl.rxRb then (⟨0, [], tl.rxDataCtl.rxFtype = .lastFrame⟩, tl, [])
  else
    let (bytes, rxRb) := rbOut tl.rxRb len
    let tl := { tl with rxRb }
    if bytes.length ≤ 0 then (⟨0, [], false⟩, tl, [])
    else
      let (tl, sent) :=
        if tl.rxDataCtl.rxFtype ≠ .lastFrame then scomTlSendDataReq tl else (tl, [])
      if tl.rxDataCtl.rxFtype = .lastFrame ∧ rbEmpty tl.rxRb then
        (⟨bytes.length, bytes, true⟩, scomTlStopClient tl, sent)
      else (⟨bytes.length, bytes, false⟩, tl, sent)

/-! ### Two sides and the channels between them -/

/-- `up` carries messages to the server, `down` to the client. `returned` records what
`scom_tl_get_data` returned so far; no function reads it. -/
structure Link where
  server : ScomTl
  client : ScomTl
  up : List ScomTlMsg
  down : List ScomTlMsg
  returned : List UInt8

inductive Act
  | deliverReq | deliverRes
  | getData (len : UInt32)

def step (s : Link) : Act → Option Link
  | .deliverReq =>
    match s.up with
    | [] => none
    | msg :: up =>
      let (server, sent) := scomTlMsgProc s.server msg
      some { s with server, up, down := s.down ++ sent }
  | .deliverRes =>
    match s.down with
    | [] => none
    | msg :: down =>
      let (client, sent) := scomTlMsgProc s.client msg
      some { s with client, down, up := s.up ++ sent }
  | .getData len =>
    let (read, client, sent) := scomTlGetData s.client len
    some { s with client, up := s.up ++ sent, returned := s.returned ++ read.bytes }

/-- The rings as `scom_tl_init` makes them; an earlier transfer can have left anything
else. -/
structure Prepared (tl : ScomTl) : Prop where
  tx : tl.txRb.Wf
  txSize : tl.txRb.size.toNat = 512 * 1024
  rx : tl.rxRb.Wf
  rxSize : tl.rxRb.size.toNat = 2 * 1024

/-- The server was started with `blob`, then the client, and nothing was delivered yet. -/
def Begins (blob : List UInt8) (s : Link) : Prop :=
  ∃ server client, Prepared server ∧ Prepared client ∧
    server.status ≠ .serverStarted ∧ client.status ≠ .clientStarted ∧
    s = ⟨(scomTlStartServer server blob).2, (scomTlStartClient client).2.1,
      (scomTlStartClient client).2.2, [], []⟩

end Scom
