import TBoxMpu.Mid.Msg
import TBoxMpu.Scom.Stall

/-!
# Dispatching received messages

`scom_tl_msg_proc` on the bytes of a message, from the serial line on. A handler that reads
behind the received length has no result. The answers to connect messages and the handlers
of other channels are left out.
-/

namespace Scom

open Runs Msg

variable {tl tl' : ScomTl} {msg : List UInt8}

/-! ### Handlers -/

/-- An `unsigned short`, where the message has it. -/
def shortAt (msg : List UInt8) (i : Nat) : Option Nat := do
  let low ← msg[i]?
  let high ← msg[i + 1]?
  some (low.toNat + 256 * high.toNat)

/-- The members of `SCOM_TL_MSG_HDR` and of the requests behind it. -/
def ftypePos : Nat := 1

def fnoPos : Nat := 2

def flenPos : Nat := 4

def dataPos : Nat := 6

def reqFnoPos : Nat := dataPos

def reqFcntPos : Nat := dataPos + 2

/-- Only the last frame's type is told from the others. -/
def ftypeOf (ftype : UInt8) : ScomTlFrameType :=
  if ftype = 0 then .singleFrame
  else if ftype = 1 then .startFrame
  else if ftype = 3 then .lastFrame
  else .middleFrame

/-- `max_fno` of `scom_tl_proc_data_req` -/
def maxFno (tl : ScomTl) : Nat :=
  let used := (rbUsedLen tl.txRb).toNat
  if used % scomTlFrameLen ≠ 0 then used / scomTlFrameLen % 2 ^ 16
  else (used / scomTlFrameLen - 1) % 2 ^ 16

/-- The server has something to answer a request with. -/
def Serves (tl : ScomTl) : Prop := tl.status = .serverStarted ∧ rbEmpty tl.txRb = false

instance (tl : ScomTl) : Decidable (Serves tl) := inferInstanceAs (Decidable (_ ∧ _))

/-- `scom_tl_proc_data_req`: the count is read only for a frame that there is. -/
def procDataReqBytes (tl : ScomTl) (msg : List UInt8) : Option (List ScomTlMsg) :=
  if Serves tl then do
    let fno ← shortAt msg reqFnoPos
    -- refused before the count is read
    if fno > maxFno tl then some (scomTlProcDataReq tl fno 0)
    else do
      let fcnt ← shortAt msg reqFcntPos
      some (scomTlProcDataReq tl fno fcnt)
  else some (scomTlProcDataReq tl 0 0)

/-- The data of a frame with the declared length. What the message does not have is zero here,
and not read. -/
def frameData (msg : List UInt8) (flen : Nat) : List UInt8 :=
  (msg.drop dataPos).take flen ++ List.replicate (flen - (msg.length - dataPos)) 0

/-- `scom_tl_proc_data_ok_res`: `rb_in` reads as much of the declared length as it has room
for. -/
def procDataOkResBytes (tl : ScomTl) (msg : List UInt8) : Option (ScomTl × List ScomTlMsg) := do
  let fno ← shortAt msg fnoPos
  -- dropped before the length is read
  if (fno : Int) ≠ tl.rxDataCtl.rxFno + 1 then some (tl, [])
  else do
    let flen ← shortAt msg flenPos
    let ftype ← msg[ftypePos]?
    -- the declared length is not compared with that of the message
    if msg.length < dataPos + min flen (rbUnusedLen tl.rxRb).toNat then none
    else some (scomTlProcDataOkRes tl (ftypeOf ftype) fno (frameData msg flen))

/-- `scom_tl_proc_data_ng_res` logs the result and the reason. -/
def procDataNgResBytes (tl : ScomTl) (msg : List UInt8) : Option (ScomTl × List ScomTlMsg) := do
  let _ ← shortAt msg dataPos
  let _ ← shortAt msg (dataPos + 2)
  some (tl, [])

/-- `scom_tl_proc_con_req` and `scom_tl_proc_con_res`, the state. -/
def procCon (tl : ScomTl) : ScomTl :=
  if tl.status = .disconnected ∨ tl.status = .connecting then { tl with status := .idle } else tl

/-- `scom_tl_msg_proc` on the bytes of a message. -/
def msgProcBytes (tl : ScomTl) (msg : List UInt8) : Option (ScomTl × List ScomTlMsg) :=
  match msg.head? with
  | none => none
  | some type =>
    if type = 2 then (procDataReqBytes tl msg).map fun sent => (tl, sent)
    else if type = 3 then procDataOkResBytes tl msg
    else if type = 4 then procDataNgResBytes tl msg
    else if type = 0 ∨ type = 1 then some (procCon tl, [])
    else some (tl, [])

/-! ### What a handler reads -/

/-- The same short, of any bytes. -/
def shortOf (msg : List UInt8) (i : Nat) : Nat :=
  (msg.getD i 0).toNat + 256 * (msg.getD (i + 1) 0).toNat

/-- The message has all the bytes that its type needs in this state. -/
structure LongEnough (tl : ScomTl) (msg : List UInt8) : Prop where
  type : 0 < msg.length
  req : msg.head? = some 2 → Serves tl → 8 ≤ msg.length ∧
    (shortOf msg reqFnoPos ≤ maxFno tl → 10 ≤ msg.length)
  okRes : msg.head? = some 3 → 4 ≤ msg.length ∧
    ((shortOf msg fnoPos : Int) = tl.rxDataCtl.rxFno + 1 → 6 ≤ msg.length ∧
      6 + min (shortOf msg flenPos) (rbUnusedLen tl.rxRb).toNat ≤ msg.length)
  ngRes : msg.head? = some 4 → 10 ≤ msg.length

/-- The handler reads the message inside its length, and all the receive ring gets is from the
message. -/
def ReadsInside (tl : ScomTl) (msg : List UInt8) : Prop :=
  ∃ tl' sent k, msgProcBytes tl msg = some (tl', sent) ∧
    tl'.rxRb.contents = tl.rxRb.contents ++ (msg.drop dataPos).take k

theorem shortAt_iff (msg : List UInt8) (i : Nat) :
    (i + 2 ≤ msg.length ∧ shortAt msg i = some (shortOf msg i)) ∨
      (msg.length < i + 2 ∧ shortAt msg i = none) := by
  unfold shortAt shortOf
  by_cases low : i < msg.length
  · by_cases high : i + 1 < msg.length
    · left
      simp [low, high]
      omega
    · right
      simp [low, high]
      omega
  · right
    simp [low]
    omega

theorem procDataReqBytes_isSome (tl : ScomTl) (msg : List UInt8) :
    (procDataReqBytes tl msg).isSome ↔ (Serves tl → 8 ≤ msg.length ∧
      (shortOf msg reqFnoPos ≤ maxFno tl → 10 ≤ msg.length)) := by
  unfold procDataReqBytes
  split
  next serves =>
    rcases shortAt_iff msg reqFnoPos with ⟨long, fno⟩ | ⟨short, fno⟩
    · rw [fno]
      dsimp only [Option.bind_eq_bind, Option.bind_some]
      split
      next beyond =>
        refine ⟨fun _ _ => ⟨long, fun inside => absurd inside (Nat.not_le.mpr beyond)⟩, fun _ => rfl⟩
      next inside =>
        rcases shortAt_iff msg reqFcntPos with ⟨long', fcnt⟩ | ⟨short', fcnt⟩
        · rw [fcnt]
          exact ⟨fun _ _ => ⟨long, fun _ => long'⟩, fun _ => rfl⟩
        · rw [fcnt]
          refine ⟨nofun, fun long' => ?_⟩
          have ten := (long' serves).2 (Nat.le_of_not_lt inside)
          exact absurd ten (Nat.not_le.mpr short')
    · rw [fno]
      refine ⟨nofun, fun long => ?_⟩
      exact absurd (long serves).1 (Nat.not_le.mpr short)
  next idle => exact ⟨fun _ serves => absurd serves idle, fun _ => rfl⟩

theorem length_frameData (msg : List UInt8) (flen : Nat) : (frameData msg flen).length = flen := by
  unfold frameData
  rw [List.length_append, List.length_take, List.length_drop, List.length_replicate]
  omega

/-- Of a frame with all the data that is read, the ring gets that. -/
theorem procDataOkRes_contents (wf : tl.rxRb.Wf) {flen fno : Nat} {ftype : ScomTlFrameType}
    (short : flen < 2 ^ 32)
    (expected : (fno : Int) = tl.rxDataCtl.rxFno + 1)
    (long : dataPos + min flen (rbUnusedLen tl.rxRb).toNat ≤ msg.length) :
    (scomTlProcDataOkRes tl ftype fno (frameData msg flen)).1.rxRb.contents =
      tl.rxRb.contents ++ (msg.drop dataPos).take (min flen (rbUnusedLen tl.rxRb).toNat) := by
  have room : (rbUnusedLen tl.rxRb).toNat = tl.rxRb.size.toNat - tl.rxRb.contents.length := by
    rw [wf.unused, wf.length_contents]
  have size : (UInt32.ofNat flen).toNat = flen := by
    rw [UInt32.toNat_ofNat', Nat.mod_eq_of_lt short]
  have enough : (UInt32.ofNat flen).toNat ≤ (frameData msg flen).length := by
    rw [size, length_frameData]
  obtain ⟨-, -, -, contents⟩ := wf.stored enough
  rw [size, ← room] at contents
  have read : (frameData msg flen).take (min flen (rbUnusedLen tl.rxRb).toNat) =
      (msg.drop dataPos).take (min flen (rbUnusedLen tl.rxRb).toNat) := by
    unfold frameData
    rw [List.take_append_of_le_length, List.take_take]
    · congr 1
      omega
    · rw [List.length_take, List.length_drop]
      omega
  rw [read] at contents
  have ring : (scomTlProcDataOkRes tl ftype fno (frameData msg flen)).1.rxRb =
      (rbIn tl.rxRb (frameData msg flen) (UInt32.ofNat flen)).2 := by
    unfold scomTlProcDataOkRes
    rw [if_neg (not_not.mpr expected)]
    dsimp only
    split
    · rw [length_frameData]
    · split
      · rw [(sendDataReq_same _).2.1, length_frameData]
      · rw [length_frameData]
  rw [ring, contents]

theorem shortOf_lt (msg : List UInt8) (i : Nat) : shortOf msg i < 2 ^ 32 := by
  have low := (msg.getD i 0).toNat_lt
  have high := (msg.getD (i + 1) 0).toNat_lt
  unfold shortOf
  omega

theorem procDataOkResBytes_inside (wf : tl.rxRb.Wf) :
    (∃ tl' sent k, procDataOkResBytes tl msg = some (tl', sent) ∧
        tl'.rxRb.contents = tl.rxRb.contents ++ (msg.drop dataPos).take k) ↔
      4 ≤ msg.length ∧ ((shortOf msg fnoPos : Int) = tl.rxDataCtl.rxFno + 1 → 6 ≤ msg.length ∧
        6 + min (shortOf msg flenPos) (rbUnusedLen tl.rxRb).toNat ≤ msg.length) := by
  unfold procDataOkResBytes
  rcases shortAt_iff msg fnoPos with ⟨long, fno⟩ | ⟨short, fno⟩
  · rw [fno]
    dsimp only [Option.bind_eq_bind, Option.bind_some]
    split
    next other =>
      -- another frame than the next one is dropped by its number
      constructor
      · exact fun _ => ⟨long, fun expected => absurd expected other⟩
      · exact fun _ => ⟨tl, [], 0, rfl, by simp⟩
    next expected =>
      have expected := Decidable.not_not.mp expected
      rcases shortAt_iff msg flenPos with ⟨long', flen⟩ | ⟨short', flen⟩
      · have ftype : msg[ftypePos]? = some (msg.getD ftypePos 0) := by
          have inside : ftypePos < msg.length := by unfold flenPos at long'; unfold ftypePos; omega
          rw [List.getD_eq_getElem?_getD, List.getElem?_eq_getElem inside, Option.getD_some]
        rw [flen, ftype]
        dsimp only [Option.bind_eq_bind, Option.bind_some]
        split
        next cut =>
          -- the length goes beyond the message
          constructor
          · rintro ⟨_, _, _, none, -⟩
            cases none
          · rintro ⟨-, enough⟩
            exact absurd (enough expected).2 (Nat.not_le.mpr cut)
        next whole =>
          have whole := Nat.le_of_not_lt whole
          constructor
          · exact fun _ => ⟨long, fun _ => ⟨long', whole⟩⟩
          · intro _
            exact ⟨_, _, _, rfl, procDataOkRes_contents wf (shortOf_lt msg flenPos) expected whole⟩
      · rw [flen]
        constructor
        · rintro ⟨_, _, _, none, -⟩
          cases none
        · rintro ⟨-, enough⟩
          exact absurd (enough expected).1 (Nat.not_le.mpr short')
  · -- too short for the number
    rw [fno]
    constructor
    · rintro ⟨_, _, _, none, -⟩
      cases none
    · rintro ⟨enough, -⟩
      exact absurd enough (Nat.not_le.mpr short)

/-- A handler reads inside a message exactly if that is long enough. -/
theorem readsInside_iff (wf : tl.rxRb.Wf) : ReadsInside tl msg ↔ LongEnough tl msg := by
  -- a handler that leaves the receive buffer alone reads inside
  have kept : ∀ tl' sent, tl'.rxRb = tl.rxRb → msgProcBytes tl msg = some (tl', sent) →
      ReadsInside tl msg := by
    intro tl' sent same done
    exact ⟨tl', sent, 0, done, by rw [same, List.take_zero, List.append_nil]⟩
  unfold ReadsInside
  cases msg with
  | nil =>
    constructor
    · rintro ⟨_, _, _, none, -⟩
      cases none
    · intro long
      exact absurd long.type (Nat.lt_irrefl 0)
  | cons type rest =>
    have positive : 0 < (type :: rest).length := Nat.succ_pos _
    unfold msgProcBytes
    dsimp only [List.head?_cons]
    split
    next req =>
      subst req
      constructor
      · rintro ⟨tl', sent, k, done, -⟩
        have some : (procDataReqBytes tl (2 :: rest)).isSome := by
          obtain ⟨a, found, -⟩ := Option.map_eq_some_iff.mp done
          exact Option.isSome_iff_exists.mpr ⟨a, found⟩
        exact ⟨positive, fun _ => (procDataReqBytes_isSome tl _).mp some, nofun, nofun⟩
      · intro long
        obtain ⟨sent, found⟩ := Option.isSome_iff_exists.mp
          ((procDataReqBytes_isSome tl (2 :: rest)).mpr (long.req rfl))
        exact ⟨tl, sent, 0, by rw [found]; rfl, by simp⟩
    next =>
      split
      -- an answer is the one message whose bytes go into the buffer
      next ok =>
        subst ok
        rw [procDataOkResBytes_inside wf]
        constructor
        · exact fun enough => ⟨positive, nofun, fun _ => enough, nofun⟩
        · exact fun long => long.okRes rfl
      next =>
        split
        next ng =>
          subst ng
          unfold procDataNgResBytes
          -- the reason is read last, so that it decides
          rcases shortAt_iff (4 :: rest) (dataPos + 2) with ⟨long, reason⟩ | ⟨short, reason⟩
          · rcases shortAt_iff (4 :: rest) dataPos with ⟨-, result⟩ | ⟨short, -⟩
            · rw [result, reason]
              constructor
              · exact fun _ => ⟨positive, nofun, nofun, fun _ => long⟩
              · exact fun _ => ⟨tl, [], 0, rfl, by simp⟩
            · omega
          · constructor
            · rintro ⟨_, _, _, none, -⟩
              obtain ⟨a, -, rest⟩ := Option.bind_eq_some_iff.mp none
              rw [reason] at rest
              cases rest
            · exact fun enough => absurd (enough.ngRes rfl) (Nat.not_le.mpr short)
        next req ok ng =>
          have long : LongEnough tl (type :: rest) := by
            refine ⟨positive, ?_, ?_, ?_⟩
            · exact fun same => absurd (Option.some.inj same) req
            · exact fun same => absurd (Option.some.inj same) ok
            · exact fun same => absurd (Option.some.inj same) ng
          refine ⟨fun _ => long, fun _ => ?_⟩
          split
          · refine ⟨procCon tl, [], 0, rfl, ?_⟩
            unfold procCon
            split
            all_goals simp
          · exact ⟨tl, [], 0, rfl, by simp⟩

/-! ### The receive loop -/

/-- `sizeof(scom_msgbuf)` -/
def scomMsgbufSize : Nat := 2 * 1024 * 2

/-- The buffer of `scom_main`, the transport layer, and the messages that `msg_decode` has found
and not yet passed on. -/
structure Receiver where
  rd : MsgRead
  tl : ScomTl
  pending : List (List UInt8)

/-- `scom_tl_init` -/
def Receiver.initial : Receiver :=
  ⟨⟨[], 0, none⟩, { freshSide with status := .disconnected }, []⟩

def scomTlStopServer (tl : ScomTl) : ScomTl := { tl with txRb := rbClean tl.txRb, status := .idle }

/-- Bytes come in, a message is passed on, or the application calls the layer. -/
inductive ReceiverEvent
  | receive (chunk : List UInt8)
  | handle
  | startServer (data : List UInt8)
  | stopServer
  | startClient
  | stopClient
  | getData (len : UInt32)
  | timeout

def receiverStep (s : Receiver) : ReceiverEvent → Option Receiver
  | .receive chunk =>
    if s.pending = [] then
      (scomReceive scomMsgbufSize s.rd chunk).map fun (msgs, rd) => { s with rd, pending := msgs }
    else none
  | .handle =>
    match s.pending with
    | [] => none
    | msg :: rest => (msgProcBytes s.tl msg).map fun (tl, _) => { s with tl, pending := rest }
  | .startServer data => some { s with tl := (scomTlStartServer s.tl data).2 }
  | .stopServer => some { s with tl := scomTlStopServer s.tl }
  | .startClient => some { s with tl := (scomTlStartClient s.tl).2.1 }
  | .stopClient => some { s with tl := scomTlStopClient s.tl }
  | .getData len => some { s with tl := (scomTlGetData s.tl len).2.1 }
  | .timeout => some { s with tl := (scomTlTimeoutProc s.tl).1 }

def ReceiverReach : Receiver → Prop :=
  Reach (· = .initial) fun s e s' => receiverStep s e = some s'

theorem procDataOkRes_wf (wf : tl.rxRb.Wf) (ftype : ScomTlFrameType) (fno : Nat)
    (data : List UInt8) : (scomTlProcDataOkRes tl ftype fno data).1.rxRb.Wf := by
  have enough : (UInt32.ofNat data.length).toNat ≤ data.length := by
    rw [UInt32.toNat_ofNat']
    exact Nat.mod_le _ _
  have stored := (wf.stored enough).1
  unfold scomTlProcDataOkRes
  split
  · exact wf
  · dsimp only
    split
    · exact stored
    · split
      · rw [(sendDataReq_same _).2.1]
        exact stored
      · exact stored

theorem msgProcBytes_wf (wf : tl.rxRb.Wf) {sent : List ScomTlMsg}
    (h : msgProcBytes tl msg = some (tl', sent)) : tl'.rxRb.Wf := by
  unfold msgProcBytes at h
  split at h
  · cases h
  · split at h
    · obtain ⟨sent, -, same⟩ := Option.map_eq_some_iff.mp h
      cases same
      exact wf
    · split at h
      · unfold procDataOkResBytes at h
        obtain ⟨fno, -, h⟩ := Option.bind_eq_some_iff.mp h
        split at h
        · cases h
          exact wf
        · obtain ⟨flen, -, h⟩ := Option.bind_eq_some_iff.mp h
          obtain ⟨ftype, -, h⟩ := Option.bind_eq_some_iff.mp h
          split at h
          · cases h
          · have stored := procDataOkRes_wf wf (ftypeOf ftype) fno (frameData msg flen)
            rw [Option.some.inj h] at stored
            exact stored
      · split at h
        · unfold procDataNgResBytes at h
          obtain ⟨result, -, h⟩ := Option.bind_eq_some_iff.mp h
          obtain ⟨reason, -, h⟩ := Option.bind_eq_some_iff.mp h
          cases h
          exact wf
        · split at h
          · cases h
            unfold procCon
            split
            · exact wf
            · exact wf
          · cases h
            exact wf

theorem startClient_wf (wf : tl.rxRb.Wf) : (scomTlStartClient tl).2.1.rxRb.Wf := by
  unfold scomTlStartClient
  split
  · exact wf
  · dsimp only
    rw [(sendDataReq_same _).2.1]
    exact wf.cleaned.1

theorem getData_wf (wf : tl.rxRb.Wf) (len : UInt32) : (scomTlGetData tl len).2.1.rxRb.Wf := by
  have taken : (readBytes tl len).rxRb.Wf := (wf.taken len).1
  have sent : (scomTlSendDataReq (readBytes tl len)).1.rxRb.Wf := by
    rw [(sendDataReq_same _).2.1]
    exact taken
  unfold scomTlGetData
  split
  · exact wf
  · split
    · exact wf
    · dsimp only
      split
      · exact taken
      · split
        · split
          · exact sent.cleaned.1
          · exact sent
        · split
          · exact taken.cleaned.1
          · exact taken

theorem receiverStep_wf {s t : Receiver} {e : ReceiverEvent} (wf : s.tl.rxRb.Wf)
    (h : receiverStep s e = some t) : t.tl.rxRb.Wf := by
  unfold receiverStep at h
  cases e with
  | receive chunk =>
    obtain ⟨-, h⟩ := Option.ite_none_right_eq_some.mp h
    obtain ⟨⟨msgs, rd⟩, -, rfl⟩ := Option.map_eq_some_iff.mp h
    exact wf
  | handle =>
    dsimp only at h
    split at h
    · cases h
    · obtain ⟨⟨tl, sent⟩, done, rfl⟩ := Option.map_eq_some_iff.mp h
      exact msgProcBytes_wf wf done
  | startServer data =>
    cases h
    unfold scomTlStartServer
    split
    · exact wf
    · dsimp only
      split
      · exact wf
      · exact wf
  | stopServer =>
    cases h
    exact wf
  | startClient =>
    cases h
    exact startClient_wf wf
  | stopClient =>
    cases h
    exact wf.cleaned.1
  | getData len =>
    cases h
    exact getData_wf wf len
  | timeout =>
    cases h
    unfold scomTlTimeoutProc
    dsimp only
    split
    · exact wf
    · exact wf

/-- The receive ring is one that `rb_init` makes and the operations keep. -/
theorem receiver_wf {s : Receiver} (reached : ReceiverReach s) : s.tl.rxRb.Wf := by
  have starts : ∀ s, s = Receiver.initial → s.tl.rxRb.Wf := by
    rintro _ rfl
    exact prepared_fresh.rx
  have kept : ∀ s e t, s.tl.rxRb.Wf → receiverStep s e = some t → t.tl.rxRb.Wf :=
    fun _ _ _ => receiverStep_wf
  exact Reach.invariant starts kept reached

/-- The message that is passed on next is read inside its length, and the receive ring gets
nothing but bytes of it. -/
def Receiver.HandledInside (s : Receiver) : Prop :=
  ∀ msg rest, s.pending = msg :: rest → ReadsInside s.tl msg

/-- The message that is passed on next is long enough for its type. -/
def Receiver.PendingLong (s : Receiver) : Prop :=
  ∀ msg rest, s.pending = msg :: rest → LongEnough s.tl msg

/-- Whatever came in, what is passed on is handled inside its length exactly if it is long
enough. -/
theorem dispatch_inside_iff {s : Receiver} (reached : ReceiverReach s) :
    s.HandledInside ↔ s.PendingLong := by
  have wf := receiver_wf reached
  constructor
  · exact fun inside msg rest passed => (readsInside_iff wf).mp (inside msg rest passed)
  · exact fun long msg rest passed => (readsInside_iff wf).mpr (long msg rest passed)

/-- A client is started, and these bytes come in. -/
def receiving (chunk : List UInt8) (s : Receiver) : Option Receiver := do
  let s ← receiverStep s .startClient
  receiverStep s (.receive chunk)

theorem receiving_reach {chunk : List UInt8} {s : Receiver}
    (h : receiving chunk .initial = some s) : ReceiverReach s := by
  have start : ReceiverReach .initial := .start rfl
  generalize Receiver.initial = s₀ at h start
  unfold receiving at h
  obtain ⟨s₁, first, second⟩ := Option.bind_eq_some_iff.mp h
  exact .next _ (.next _ start first) second

/-- A frame of two bytes. -/
def wholeFrame : List UInt8 := [3, 1, 0, 0, 2, 0, 0xAA, 0xBB]

theorem whole_frame_inside :
    ∃ s, receiving (0x7E :: wholeFrame ++ [0x11, 0x7E]) .initial = some s ∧
      s.pending = [wholeFrame] ∧ s.HandledInside := by
  have shows : (receiving (0x7E :: wholeFrame ++ [0x11, 0x7E]) .initial).map Receiver.pending =
      some [wholeFrame] := by decide
  obtain ⟨s, made, pending⟩ := Option.map_eq_some_iff.mp shows
  refine ⟨s, made, pending, (dispatch_inside_iff (receiving_reach made)).mpr ?_⟩
  intro msg rest passed
  obtain ⟨rfl, -⟩ := List.cons.inj (pending.symm.trans passed)
  refine ⟨by decide, nofun, fun _ => ⟨by decide, fun _ => ⟨by decide, ?_⟩⟩, nofun⟩
  exact Nat.add_le_add_left (Nat.min_le_left _ _) 6

/-- A frame that declares five bytes and has none is stored all the same, from what lies behind
it; and the type of an empty message is read. -/
theorem short_messages_read_outside :
    (∃ s, receiving [0x7E, 3, 1, 0, 0, 5, 0, 7, 0x7E] .initial = some s ∧ ReceiverReach s ∧
      s.pending = [[3, 1, 0, 0, 5, 0]] ∧ ¬ s.HandledInside) ∧
    ∃ s, receiving [0x7E, 0, 0x7E] .initial = some s ∧ ReceiverReach s ∧
      s.pending = [[]] ∧ ¬ s.HandledInside := by
  have shows : (receiving [0x7E, 3, 1, 0, 0, 5, 0, 7, 0x7E] .initial).map (fun s =>
      (s.pending, (msgProcBytes s.tl [3, 1, 0, 0, 5, 0]).isSome)) =
        some ([[3, 1, 0, 0, 5, 0]], false) := by decide
  have shows' : (receiving [0x7E, 0, 0x7E] .initial).map Receiver.pending = some [[]] := by
    decide
  constructor
  · obtain ⟨s, made, shown⟩ := Option.map_eq_some_iff.mp shows
    obtain ⟨pending, fails⟩ := Prod.mk.inj shown
    refine ⟨s, made, receiving_reach made, pending, fun inside => ?_⟩
    obtain ⟨tl', sent, k, done, -⟩ := inside _ _ pending
    rw [done] at fails
    cases fails
  · obtain ⟨s, made, pending⟩ := Option.map_eq_some_iff.mp shows'
    refine ⟨s, made, receiving_reach made, pending, fun inside => ?_⟩
    obtain ⟨tl', sent, k, done, -⟩ := inside _ _ pending
    cases done

end Scom
