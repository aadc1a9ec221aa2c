import TBoxMpu.Gb32960.Session

/-!
# The main loop of the GB32960 thread

`gb_main` with the place it is at: it takes a message, and then calls its functions in order,
each going on to the next when it returns 0 and back to the messages when it returns −1. The CAN
thread, the connecting thread and the kernel take their steps between any two of its calls.

`GbMove` says once what a step of the loop can do to the session.
-/

namespace Gb32960

open Sock

/-! ### What goes over the wire -/

/-- The control messages the kernel took, which are sent without callback, and the login answers
that were accepted; kept for the statements only. -/
inductive GbLog
  | sent (msg : List UInt8)
  | accepted
  deriving DecidableEq, Repr

/-- The socket of the thread, with what happened on it, the newest first. -/
structure Wire where
  sock : SockT GbSync
  log : List GbLog

def Wire.sent (w : Wire) (res : Int) (buf : List UInt8) (sync : Option GbSync) : List GbLog :=
  if 0 < res ∧ sync = none then .sent buf :: w.log else w.log

def wireApi (env : SockEnv) : SockApi Wire where
  status w := w.sock.stat
  error _ := env.error
  bufsz w := sockBufsz env w.sock
  send w buf sync :=
    let r := (sockApi env).send w.sock buf sync
    (r.1, ⟨r.2, w.sent r.1 buf sync⟩)
  sync w :=
    let r := sockSync env w.sock
    (r.1, r.2.1, { w with sock := r.2.2 })
  open' w :=
    let r := sockOpen env w.sock
    (r.1, { w with sock := r.2 })
  close w := { w with sock := sockClose w.sock }

/-! ### The loop -/

/-- The next thing the thread does; in `send` it holds the pack of `gb_do_report`. -/
inductive GbPlace
  | message | checksock | receive | wait | login | suspend | report
  | send (rpt : GbNode)
  | logout
  deriving DecidableEq

/-- `flushed` counts the packs that an error flush has taken so far. -/
structure GbLoop where
  prot : GbProt Wire
  place : GbPlace
  flushed : Option Nat

/-- The steps of the CAN thread, of the connecting thread and of the kernel, then those of the
loop: a message or none, a packet received, the end of what was received (or its failure), and
the function of the place. -/
inductive GbLoopEvent
  | saveRealtm (groups : List (List UInt8))
  | flushBegin
  | flushTake (err : GbPack)
  | flushEnd
  | flushRealtm
  | loadDbc
  | connected (ok : Bool)
  | acknowledged (upto : Nat)
  | message (env : SockEnv) (msg : Option GbMsg)
  | receive (env : SockEnv) (pack : List UInt8)
  | received (env : SockEnv) (ok : Bool)
  | call (env : SockEnv) (time : RtcTime)

/-- On to the next place when the function returned 0, else back to the messages. -/
def GbLoop.advance (s : GbLoop) (place : GbPlace) (r : Int × GbProt Wire) : GbLoop :=
  { s with prot := r.2, place := if r.1 = 0 then place else .message }

def GbLoop.setStore (s : GbLoop) (store : GbStore) : GbLoop :=
  { s with prot := { s.prot with store } }

def GbLoop.setSock (s : GbLoop) (sock : SockT GbSync) : GbLoop :=
  { s with prot := { s.prot with sock := { s.prot.sock with sock } } }

/-- The function of the place. -/
def gbCall (env : SockEnv) (time : RtcTime) (s : GbLoop) : Option GbLoop :=
  match s.place with
  | .checksock => some (s.advance .receive (gbDoChecksock (wireApi env) env.now s.prot))
  | .wait => some (s.advance .login (gbDoWait (wireApi env) env.now time s.prot))
  | .login => some (s.advance .suspend (gbDoLogin (wireApi env) env.now time s.prot))
  | .suspend => some (s.advance .report (gbDoSuspend (wireApi env) s.prot))
  | .report =>
    match gbDataGetPack s.prot.store with
    | none => some { s with place := .logout }
    | some (rpt, store) => some { s.setStore store with place := .send rpt }
  | .send rpt => some (s.advance .logout (gbSendReport (wireApi env) rpt s.prot))
  | .logout => some (s.advance .message (gbDoLogout (wireApi env) env.now time s.prot))
  | .message | .receive => none

/-- The packet is the accepting answer to the login that is awaited. -/
def AcceptsLogin (stat : GbStat) (pack : List UInt8) : Prop :=
  pack.getLast? = some (gbChecksum ((pack.drop 2).dropLast)) ∧ pack.getD 2 0 = protLogin ∧
  stat.wait = protLogin ∧ pack.getD 3 0 = 0x01

instance (stat : GbStat) (pack : List UInt8) : Decidable (AcceptsLogin stat pack) := by
  unfold AcceptsLogin
  infer_instance

/-- The state after a received packet, with the answer noted when a login was accepted. -/
def gbNoted (st : GbProt Wire) (pack : List UInt8) (r : Int × GbProt Wire) : Int × GbProt Wire :=
  if AcceptsLogin st.stat pack then
    (r.1, { r.2 with sock := { r.2.sock with log := .accepted :: r.2.sock.log } })
  else r

def gbLoopStep (s : GbLoop) : GbLoopEvent → Option GbLoop
  | .saveRealtm groups => (gbDataSaveRealtm s.prot.store groups).map s.setStore
  | .flushBegin => if s.flushed = none then some { s with flushed := some 0 } else none
  | .flushTake err =>
    s.flushed.bind fun n =>
      (gbFlushErrorTake s.prot.store err).map fun store =>
        { s.setStore store with flushed := some (n + 1) }
  | .flushEnd =>
    s.flushed.map fun _ => { s.setStore (gbFlushErrorEnd s.prot.store) with flushed := none }
  | .flushRealtm => some (s.setStore (gbDataFlushRealtm s.prot.store))
  | .loadDbc => some (s.setStore (gbDataClearReport s.prot.store))
  | .connected ok =>
    if s.prot.sock.sock.stat = .inprog then some (s.setSock (sockFinish ok s.prot.sock.sock))
    else none
  | .acknowledged upto =>
    let conn := s.prot.sock.sock.conn
    if conn.acked ≤ upto ∧ upto ≤ conn.sent then
      some (s.setSock { s.prot.sock.sock with conn := { conn with acked := upto } })
    else none
  | .message env msg =>
    if s.place = .message then
      match msg with
      | none => some { s with place := .checksock }
      | some msg => some { s with
          prot := gbHandleMsg (wireApi env) msg s.prot
          place := .checksock }
    else none
  | .receive env pack =>
    if s.place = .receive then
      some (s.advance .receive (gbNoted s.prot pack (gbHandlePack (wireApi env) pack s.prot)))
    else none
  | .received env ok =>
    if s.place = .receive then
      some (if ok then { s with place := .wait }
        else { s with prot := gbReset (wireApi env) s.prot, place := .message })
    else none
  | .call env time => gbCall env time s

/-- A date of the calendar. -/
def RtcTime.Dated (time : RtcTime) : Prop :=
  1 ≤ time.mon ∧ time.mon ≤ 12 ∧ 1 ≤ time.mday ∧ time.mday ≤ 31

/-- What the system and the callers promise: a date from the clock, and from `gb_set_vin` a
number of 17 characters. -/
def GbLoopEvent.Fits : GbLoopEvent → Prop
  | .call _ time => time.Dated
  | .message _ (some (.config (.vin vin))) => vin.length = 17
  | _ => True

/-! ### What a step can do to the session -/

/-- What the session depends on. -/
structure GbCtl where
  online : Bool
  wait : UInt8
  can : Bool
  allowSleep : Bool
  vin : List UInt8
  regdate : UInt16
  regseq : UInt16
  sock : SockStat
  log : List GbLog

def GbProt.ctl (st : GbProt Wire) : GbCtl where
  online := st.stat.online
  wait := st.stat.wait
  can := st.stat.can
  allowSleep := st.vars.allowSleep
  vin := st.vars.vin
  regdate := st.vars.regdate
  regseq := st.vars.regseq
  sock := st.sock.sock.stat
  log := st.sock.log

/-- `gb_reset`: only an open socket is closed. -/
def GbCtl.reset (c : GbCtl) : GbCtl :=
  { c with online := false, wait := 0, sock := if c.sock = .opened then .closed else c.sock }

def regdateOf (time : RtcTime) : UInt16 := UInt16.ofNat (time.mon.toNat * 100 + time.mday.toNat)

/-- What `gb_pack_login` does to the number. -/
def GbCtl.regday (c : GbCtl) (time : RtcTime) : GbCtl :=
  if c.regdate ≠ regdateOf time then { c with regdate := regdateOf time, regseq := 1 } else c

def nextSeq (seq : UInt16) : UInt16 := if seq + 1 > 65531 then 1 else seq + 1

/-- The number of `gb_pack_logout`. -/
def logoutSeq (regseq : UInt16) : UInt16 := if regseq = 1 then 65531 else regseq - 1

def msgType (msg : List UInt8) : UInt8 := msg.getD 2 0

/-- The number in a login or logout packet, behind the head, the length and the time. -/
def seqOf (msg : List UInt8) : UInt16 :=
  (msg.getD 30 0).toUInt16 <<< 8 + (msg.getD 31 0).toUInt16

/-- A packet of this type with this number, as far as the vehicle number has its 17 bytes. -/
def Carries (vin : List UInt8) (type : UInt8) (seq : UInt16) (msg : List UInt8) : Prop :=
  msgType msg = type ∧ (vin.length = 17 → seqOf msg = seq)

/-- The messages that change the bus state are told from the other steps. -/
inductive GbSign
  | busOn | busOff | other
  deriving DecidableEq

def GbLoopEvent.sign : GbLoopEvent → GbSign
  | .message _ (some (.can on)) => if on then .busOn else .busOff
  | _ => .other

/-- What a step can do, from a place to the next; `gives` holds where a connection is given up
without the sleep permission. -/
inductive GbMove (c : GbCtl) (gives : Prop) : GbPlace → GbSign → GbCtl → GbPlace → Prop
  -- the other threads
  | still {p : GbPlace} : GbMove c gives p .other c p
  | connected {p : GbPlace} (stat : SockStat) :
    c.sock = .inprog → stat ≠ .inprog → GbMove c gives p .other { c with sock := stat } p
  -- messages
  | handled : GbMove c gives .message .other c .checksock
  | config (vin : List UInt8) : vin.length = 17 ∨ vin = c.vin → gives →
    GbMove c gives .message .other { c.reset with vin := vin } .checksock
  | canOn : GbMove c gives .message .busOn { c with can := true, allowSleep := false } .checksock
  | canOff : GbMove c gives .message .busOff
      { c with can := false, allowSleep := !c.online } .checksock
  -- the socket
  | refused : GbMove c gives .checksock .other c .message
  | opening (stat : SockStat) : c.sock = .closed → c.allowSleep = false → stat ≠ .opened →
    GbMove c gives .checksock .other { c with sock := stat } .message
  | ready : c.sock = .opened → c.allowSleep = false → GbMove c gives .checksock .other c .receive
  -- a connection given up
  | reset {p : GbPlace} : p ≠ .message → gives → GbMove c gives p .other c.reset .message
  | resetSend {rpt : GbNode} : GbMove c gives (.send rpt) .other c.reset .message
  | ended {p : GbPlace} : p = .receive ∨ p = .wait → c.wait = protLogout →
    GbMove c gives p .other { c.reset with allowSleep := true } .message
  -- what is received
  | answered : c.wait ≠ protLogout → GbMove c gives .receive .other { c with wait := 0 } .receive
  | accepted : c.wait = protLogin → GbMove c gives .receive .other
      { c with wait := 0, online := true, regseq := nextSeq c.regseq, log := .accepted :: c.log }
      .receive
  | received : GbMove c gives .receive .other c .wait
  -- waiting for an answer
  | idle : c.wait = 0 → GbMove c gives .wait .other c .login
  | waiting : c.wait ≠ 0 → GbMove c gives .wait .other c .message
  | retry (msg : List UInt8) : c.wait = protLogout →
    Carries c.vin protLogout (logoutSeq c.regseq) msg →
    GbMove c gives .wait .other { c with log := .sent msg :: c.log } .message
  -- login
  | online : c.online = true → GbMove c gives .login .other c .suspend
  | notDue : c.online = false → GbMove c gives .login .other c .message
  | unsent (time : RtcTime) : time.Dated → c.online = false →
    GbMove c gives .login .other (c.regday time) .message
  | failed (time : RtcTime) : time.Dated → c.online = false → gives →
    GbMove c gives .login .other (c.regday time).reset .message
  | login (time : RtcTime) (msg : List UInt8) : time.Dated → c.online = false →
    Carries c.vin protLogin (c.regday time).regseq msg → GbMove c gives .login .other
      { c.regday time with wait := protLogin, log := .sent msg :: c.log } .message
  -- reports and logout
  | onward {p q : GbPlace} : p = .suspend ∧ q = .report ∨ p = .report ∧ q = .logout ∨
      (p = .report ∧ ∃ rpt, q = .send rpt) ∨ ((∃ rpt, p = .send rpt) ∧ q = .logout) ∨
      p = .logout ∧ q = .message → GbMove c gives p .other c q
  | logout (msg : List UInt8) : Carries c.vin protLogout (logoutSeq c.regseq) msg →
    GbMove c gives .logout .other { c with wait := protLogout, log := .sent msg :: c.log } .message

/-! ### When a connection is given up -/

/-- `sock_send` fails for the control message. -/
def SendFails (env : SockEnv) (s : GbLoop) (msg : List UInt8) : Prop :=
  ((wireApi env).send s.prot.sock msg none).1 < 0

/-- The awaited answer is overdue. -/
def Overdue (env : SockEnv) (st : GbProt Wire) : Prop :=
  st.stat.wait ≠ 0 ∧ 1000 * st.vars.timeout < env.now - st.stat.waittime

/-- The step runs `gb_reset`, and it is not the end of a logout. -/
def GivesUp (s : GbLoop) : GbLoopEvent → Prop
  | .message _ (some (.network on)) => s.prot.stat.network ≠ on
  | .message _ (some (.config (.addr _))) | .message _ (some (.config (.vin _))) => True
  | .received _ ok => ok = false
  | .call env time =>
    let st := s.prot
    match s.place with
    | .checksock => st.stat.network ∧ st.vars.hasAddr ∧ st.sock.sock.stat = .opened ∧
        (env.error ∨ env.outq = false)
    | .wait => Overdue env st ∧
        if st.stat.wait = protLogout then
          st.stat.retry < 3 ∧ SendFails env s (gbPackLogout st.vars time)
        else st.stat.wait = protLogin ∨ 3 ≤ st.stat.retry
    | .login => st.stat.online = false ∧
        (st.stat.waittime = 0 ∨ 1000 * st.vars.regintv < env.now - st.stat.waittime) ∧
        SendFails env s (gbPackLogin (gbRegday st.vars time) time)
    | .suspend => st.stat.suspend ∧ gbDataNosending st.store
    | .logout => st.stat.can = false ∧ gbDataNosending st.store ∧
        SendFails env s (gbPackLogout st.vars time)
    | _ => False
  | _ => False

end Gb32960
