/-!
# The UDS proxy, client side

`uds_timer_settime`, `uds_data_request`, `uds_timeout` and `uds_proxy` as far as they concern
`uds_client`. A message is the receive buffer with its length: behind the length the buffer
holds bytes of earlier messages, and the proxy reads some of them.
-/

namespace Uds

/-- `UDS_TIMER_E` -/
inductive UdsTimer
  | p2Server | p2Client | p2ExtServer | p2ExtClient | s3Server | s3Client | serverSet | clientSet
  deriving DecidableEq, Repr

/-- `UDS_T`: the identifiers, the service of the last request, and of each timer
`timer_fd.seq` and `timer_switch`. -/
structure UdsT where
  canIdPhy : UInt32
  canIdFun : UInt32
  canIdReq : UInt32
  canIdRes : UInt32
  sid : UInt8
  seq : UdsTimer → UInt16
  timerSwitch : UdsTimer → Bool

def udsCanIdPhy : UInt32 := 0x782

def udsCanIdFun : UInt32 := 0x7DF

def udsCanIdRes : UInt32 := 0x78A

def sidNegativeResponse : UInt8 := 0x7F

def sidTestPresent : UInt8 := 0x3E

def posRespondSidMask : UInt8 := 0x40

def nrcResponsePending : UInt8 := 0x78

/-- `uds_timer_settime`: the next number, without zero. -/
def nextSeq (seq : UInt16) : UInt16 :=
  if seq + 1 = 0 then 1 else seq + 1

/-- `uds_set_timer` -/
def UdsT.setTimer (uds : UdsT) (name : UdsTimer) (on : Bool) : UdsT :=
  { uds with
    seq := fun t => if t = name then nextSeq (uds.seq t) else uds.seq t
    timerSwitch := fun t => if t = name then on else uds.timerSwitch t }

/-- `uds_data_request`, what it notes of the request. -/
def UdsT.dataRequest (uds : UdsT) (canId : UInt32) (sid : UInt8) : UdsT :=
  { uds with sid, canIdReq := canId }

/-- What `uds_client_cb` is called with. -/
inductive ClientMsg
  | timeout
  | ack
  | ind (canId : UInt32) (data : List UInt8) (len : Nat)
  deriving DecidableEq, Repr

/-- The service a response answers: `data` is the response. -/
def respondedSid (data : List UInt8) : UInt8 :=
  if data.getD 0 0 = sidNegativeResponse then data.getD 1 0
  else data.getD 0 0 - posRespondSidMask

/-- The identifier behind the message's first byte. -/
def canIdAt (buf : List UInt8) : UInt32 :=
  (buf.getD 1 0).toUInt32 ||| (buf.getD 2 0).toUInt32 <<< 8 |||
    (buf.getD 3 0).toUInt32 <<< 16 ||| (buf.getD 4 0).toUInt32 <<< 24

/-- An indication for the client. -/
def udsIndication (uds : UdsT) (canId : UInt32) (data : List UInt8) (len : Nat) :
    UdsT × Option ClientMsg :=
  if respondedSid data = uds.sid ∧ respondedSid data ≠ sidTestPresent then
    let uds := uds.setTimer .p2Client false
    let pending := data.getD 0 0 = sidNegativeResponse ∧ data.getD 2 0 = nrcResponsePending
    (uds.setTimer .p2ExtClient pending, some (.ind canId data len))
  else (uds, none)

/-- `uds_proxy`: the client, and the call of its callback. -/
def udsProxy (uds : UdsT) (buf : List UInt8) (len : Nat) : UdsT × Option ClientMsg :=
  if len < 1 then (uds, none)
  else match buf.getD 0 0 with
    | 0xF8 => (uds.setTimer .clientSet false, some .ack)
    | 0xF5 =>
      if len - 1 < 5 then (uds, none)
      -- The server's own responses are confirmed to the server.
      else if canIdAt buf = udsCanIdRes then (uds, none)
      else if canIdAt buf = uds.canIdReq ∧ buf.getD 5 0 = 1 then (uds.setTimer .p2Client true, none)
      else (uds, none)
    | 0xF4 =>
      if len - 1 < 6 ∨ len - 1 - 6 ≠ (buf.getD 5 0).toNat + (buf.getD 6 0).toNat * 0xFF then
        (uds, none)
      else if canIdAt buf = udsCanIdFun ∨ canIdAt buf = udsCanIdPhy then (uds, none)
      else udsIndication uds (canIdAt buf) (buf.drop 7) (len - 1 - 6)
    | _ => (uds, none)

/-- `uds_timeout`: a message of an older setting of the timer is ignored. -/
def udsTimeout (uds : UdsT) (timer : UdsTimer) (seq : UInt16) : Option ClientMsg :=
  if uds.seq timer ≠ seq then none
  else match timer with
    | .clientSet | .p2Client | .p2ExtClient => some .timeout
    | _ => none

/-- `uds_set_client_ex`, without the request to the MCU. -/
def UdsT.setClient (uds : UdsT) (port : UInt8) (pid fid rid : UInt32) : UdsT :=
  ({ uds with canIdPhy := pid, canIdFun := fid, canIdRes := rid }.setTimer .clientSet true).dataRequest
    0 port

/-- `uds_clr_client`, the timers. -/
def UdsT.clear (uds : UdsT) : UdsT :=
  ((uds.setTimer .clientSet false).setTimer .p2Client false).setTimer .p2ExtClient false

/-- `uds_proxy_init`, the client. -/
def UdsT.initial : UdsT :=
  ⟨0, 0, 0, 0, 0, fun _ => 0, fun _ => false⟩

/-! ### What the proxy leaves as it was -/

theorem udsIndication_client (uds : UdsT) (canId : UInt32) (data : List UInt8) (len : Nat) :
    (udsIndication uds canId data len).1.canIdFun = uds.canIdFun ∧
    (udsIndication uds canId data len).1.canIdRes = uds.canIdRes := by
  unfold udsIndication
  split
  · exact ⟨rfl, rfl⟩
  · exact ⟨rfl, rfl⟩

/-- A message from the MCU never changes where requests go and responses come from. -/
theorem udsProxy_client (uds : UdsT) (buf : List UInt8) (len : Nat) :
    (udsProxy uds buf len).1.canIdFun = uds.canIdFun ∧
    (udsProxy uds buf len).1.canIdRes = uds.canIdRes := by
  unfold udsProxy
  split
  · exact ⟨rfl, rfl⟩
  split
  · exact ⟨rfl, rfl⟩
  · split
    · exact ⟨rfl, rfl⟩
    split
    · exact ⟨rfl, rfl⟩
    split
    · exact ⟨rfl, rfl⟩
    · exact ⟨rfl, rfl⟩
  · split
    · exact ⟨rfl, rfl⟩
    split
    · exact ⟨rfl, rfl⟩
    · exact udsIndication_client _ _ _ _
  · exact ⟨rfl, rfl⟩

/-- A response that reaches the callback answers the service of the last request. -/
theorem udsProxy_ind {uds uds' : UdsT} {buf : List UInt8} {len : Nat} {canId : UInt32}
    {data : List UInt8} {size : Nat}
    (h : udsProxy uds buf len = (uds', some (.ind canId data size))) :
    data = buf.drop 7 ∧ canId = canIdAt buf ∧ respondedSid data = uds.sid := by
  unfold udsProxy at h
  split at h
  · cases h
  split at h
  · cases h
  · split at h
    · cases h
    split at h
    · cases h
    split at h
    · cases h
    · cases h
  · split at h
    · cases h
    split at h
    · cases h
    unfold udsIndication at h
    split at h
    next same =>
      cases h
      exact ⟨rfl, rfl, same.1⟩
    · cases h
  · cases h

end Uds
