import TBoxMpu.Foton.Commands

/-!
# The protocol task

`ft_main` of `foton_prot.c`. One iteration handles one message and then runs the protocol until
one of its parts is not done; what the socket, the clock and the other threads contribute to an
iteration is its `FtIter`.
-/

namespace Foton

inductive FtpEvt
  | finish
  | error
  | process
  | other
  deriving DecidableEq

/-- `request` tells which accepted download an FTP event belongs to; the message does not. -/
inductive FtMsg
  | none
  | ftp (request : Option Nat) (evt : FtpEvt)
  | network (network : Nat)
  | running
  | canOn
  | canOff
  | suspend
  | resume
  | config (resets : Bool)
  | ring
  | wakeupTimeout
  | other
  deriving DecidableEq

/-- What `state->wait` stands for. -/
inductive FtWait
  | none
  | login
  | logout
  | calTime
  deriving DecidableEq

/-- A packet of the server; `sent` is what `sock_send` makes of the answer. -/
inductive FtPacket
  | login (ack : UInt8)
  | logout (ack : UInt8)
  | calTime (ack : UInt8)
  | upgrade (url : List UInt8) (requested : Bool) (sent : Int)
  | command (sent : Int)
  | unknown

inductive FtSock
  | closed
  | opening
  | opened
  deriving DecidableEq

inductive FtSend
  | login
  | logoutAgain
  | report
  | hbeat
  | logout

structure FtIter where
  msg : FtMsg
  now : Nat
  kl15 : Option UInt8
  /-- The CAN thread has set `ft_allow_sleep` to 0 since the last iteration. -/
  canThread : Bool
  addrSet : Bool
  sock : FtSock
  sockError : Bool
  received : Option (List FtPacket)
  serverTimeout : Nat
  loginIntv : Nat
  hbeatIntv : Nat
  noSending : Bool
  hasReport : Bool
  sent : FtSend → Int

/-- The task's state, its flags `ft_allow_sleep` and `ft_is_allow_login` and its wake-up timer.
`downloads` are the accepted upgrade downloads whose end event has not arrived, `accepted` counts
those accepted so far. -/
structure FtTask where
  online : Bool
  wait : FtWait
  retry : Nat
  waittime : Nat
  login : Bool
  isSuspend : Bool
  caltime : Nat
  can : Bool
  network : Nat
  upgrade : FtUpgrade
  hbeattime : Nat
  onvalue : UInt8
  allowSleep : Bool
  isAllowLogin : Bool
  wakeupTimer : Bool
  downloads : List Nat
  accepted : Nat

def FtTask.reset (s : FtTask) : FtTask :=
  { s with online := false, wait := .none, retry := 0, waittime := 0 }

def FtTask.reloadWakeup (s : FtTask) : FtTask :=
  { s with allowSleep := false, wakeupTimer := true }

/-- What a wake-up timer expiry allows. -/
inductive FtAllowed
  | logout
  | sleep
  deriving DecidableEq

/-- `ft_ftp_evt`: 0, which is `FTP_FINISH`, unless the message of the iteration sets it. -/
def ftFtpEvt : FtMsg → FtpEvt
  | .ftp _ .process => .process
  | .ftp _ .error => .error
  | _ => .finish

def ftWakeupTimeout (s : FtTask) (it : FtIter) : FtTask × Option FtAllowed :=
  let s := { s with onvalue := it.kl15.getD s.onvalue }
  let evt := ftFtpEvt it.msg
  if (evt = .finish ∨ evt = .error) ∧ s.onvalue = 0 ∧ s.can = false then
    if s.online then ({ s with isAllowLogin := false, wakeupTimer := false }, some .logout)
    else ({ s with allowSleep := true, wakeupTimer := false }, some .sleep)
  else (s.reloadWakeup, none)

/-- The switch over the message. -/
def ftHandleMsg (s : FtTask) (it : FtIter) : FtTask × Option FtAllowed :=
  match it.msg with
  | .ftp request .finish => ({ s with downloads := s.downloads.filter (some · ≠ request) }, none)
  | .ftp request .error =>
    ({ s with downloads := s.downloads.filter (some · ≠ request) }.reloadWakeup, none)
  | .ftp _ _ => (s, none)
  | .network network => (if s.network ≠ network then { s.reset with network } else s, none)
  | .running => (s.reloadWakeup, none)
  | .canOn => ({ s with can := true, isAllowLogin := true }.reloadWakeup, none)
  | .canOff => ({ s with can := false, caltime := it.now }, none)
  | .suspend => ({ s with isSuspend := true }, none)
  | .resume => ({ s with isSuspend := false }, none)
  | .config resets => (if resets then s.reset else s, none)
  | .ring => (s.reloadWakeup, none)
  | .wakeupTimeout => ftWakeupTimeout s it
  | .none | .other => (s, none)

/-! ### The protocol

Each part returns whether the next one runs. -/

def ftDoChecksock (it : FtIter) (s : FtTask) : FtTask × Bool :=
  if s.network = 0 ∨ it.addrSet = false ∨ s.allowSleep = true then (s, false)
  else if it.sock = .opened then
    if it.sockError then (s.reset, false) else (s, true)
  else (s, false)

/-- One packet with a right checksum; `false` ends the loop of `ft_do_receive`. -/
def ftHandlePacket (now : Nat) (s : FtTask) : FtPacket → FtTask × Bool
  | .login ack =>
    if s.wait ≠ .login then (s, true)
    else
      let s := { s with wait := .none }
      if ack ≠ 0x01 then (s, true)
      else ({ s.reloadWakeup with online := true, login := true, isAllowLogin := true }, true)
  | .logout ack =>
    if s.wait ≠ .logout ∨ ack ≠ 0x01 then (s, true)
    else ({ s.reset with login := false, allowSleep := true }, false)
  | .calTime ack =>
    if s.wait ≠ .calTime ∨ ack ≠ 0x01 then (s, true)
    else ({ s with wait := .none, caltime := 0 }, true)
  | .upgrade url requested sent =>
    let (upgrade, accepts) := ftUpgradeCommand s.upgrade now url requested
    let s := { s with upgrade }.reloadWakeup
    let s := if accepts then
        { s with downloads := s.accepted :: s.downloads, accepted := s.accepted + 1 }
      else s
    if sent < 0 then (s.reset, false) else (s, true)
  | .command sent => if sent < 0 then (s.reset, false) else (s, true)
  | .unknown => (s, true)

def ftHandlePackets (now : Nat) : FtTask → List FtPacket → FtTask × Bool
  | s, [] => (s, true)
  | s, packet :: packets =>
    let (s, more) := ftHandlePacket now s packet
    if more then ftHandlePackets now s packets else (s, false)

def ftDoReceive (it : FtIter) (s : FtTask) : FtTask × Bool :=
  match it.received with
  | none => (s.reset, false)
  | some packets => ftHandlePackets it.now s packets

def ftDoWait (it : FtIter) (s : FtTask) : FtTask × Bool :=
  if s.wait = .none then (s, true)
  else if it.serverTimeout < it.now - s.waittime then
    if s.wait = .login then (s.reset, false)
    else
      let s := { s with retry := s.retry + 1 }
      if 3 < s.retry then
        if s.wait = .logout then ({ s with login := false, allowSleep := true }.reset, false)
        else (s.reset, false)
      else if s.wait = .logout then
        if it.sent .logoutAgain < 0 then (s.reset, false)
        else if it.sent .logoutAgain = 0 then (s, false)
        else ({ s with waittime := it.now }, false)
      else (s, false)
  else (s, false)

def ftDoLogin (it : FtIter) (s : FtTask) : FtTask × Bool :=
  if s.online then (s, true)
  else if s.waittime = 0 ∨ it.loginIntv < it.now - s.waittime then
    let s := if it.sent .login < 0 then s.reset
      else if it.sent .login = 0 then s
      else { s with wait := .login, waittime := it.now }
    ({ s with hbeattime := it.now }, false)
  else (s, false)

def ftDoSuspend (it : FtIter) (s : FtTask) : FtTask × Bool :=
  if s.isSuspend && it.noSending then (s.reset, false) else (s, true)

def ftDoReport (it : FtIter) (s : FtTask) : FtTask × Bool :=
  if it.hasReport then
    if it.sent .report < 0 then (s.reset, false) else ({ s with hbeattime := it.now }, true)
  else (s, true)

def ftDoHbeat (it : FtIter) (s : FtTask) : FtTask × Bool :=
  if s.online && decide (it.hbeatIntv < it.now - s.hbeattime) then
    if it.sent .hbeat < 0 then (s.reset, true)
    else if it.sent .hbeat = 0 then (s, true)
    else ({ s with hbeattime := it.now }, false)
  else (s, true)

def ftDoLogout (it : FtIter) (s : FtTask) : FtTask × Bool :=
  if !s.isAllowLogin && it.noSending && decide (5000 < it.now - s.caltime) then
    if it.sent .logout < 0 then (s.reset, false)
    else if it.sent .logout = 0 then (s, false)
    else ({ s with wait := .logout, waittime := it.now }, false)
  else (s, true)

/-- The parts in turn until one of them is not done. -/
def ftProtocol (it : FtIter) (s : FtTask) : FtTask :=
  ([ftDoChecksock, ftDoReceive, ftDoWait, ftDoLogin, ftDoSuspend, ftDoReport, ftDoHbeat,
    ftDoLogout].foldl (fun (s, more) part => if more then part it s else (s, more)) (s, true)).1

/-- One iteration of `ft_main`: the state behind it and what a wake-up timer expiry allowed. -/
def ftIterate (s : FtTask) (it : FtIter) : FtTask × Option FtAllowed :=
  let s := if it.canThread then { s with allowSleep := false } else s
  let (s, allowed) := ftHandleMsg s it
  (ftProtocol it s, allowed)

def ftMain (s : FtTask) (its : List FtIter) : FtTask :=
  its.foldl (fun s it => (ftIterate s it).1) s

/-- The task before its loop; `onvalue` is not initialised. -/
def ftTaskStart (onvalue : UInt8) : FtTask where
  online := false
  wait := .none
  retry := 0
  waittime := 0
  login := false
  isSuspend := false
  caltime := 0
  can := false
  network := 0
  upgrade := ⟨false, .unknown, 0⟩
  hbeattime := 0
  onvalue := onvalue
  allowSleep := false
  isAllowLogin := false
  wakeupTimer := true
  downloads := []
  accepted := 0

end Foton
