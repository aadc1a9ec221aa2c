import Mathlib.Data.List.Basic
import TBoxMpu.Lib.Runs

/-!
# The AT channel

`at_task.c`: the queues of AT commands, the command that was sent last, the state of the channel
and its three timers. An expiry of a timer is a message that waits until the task handles it.
-/

namespace At

inductive AtCmdId
  | ate
  | ati
  | atd
  | ata
  | imei
  | imsi
  | chup
  | qnwinfo
  | cops
  | csq
  | clcc
  | cnmi
  | cpms
  | cmgd
  | qccid
  | qdai
  | qaudmod
  | qtone
  | qgpscfg
  | qgps
  | qgpsend
  | qwifi
  | qwrstd
  | qwstatus
  | qwssid
  | qwauth
  | qwsetmac
  | qwmaxsta
  | qwstainfo
  | qaudloop
  | qsidet
  | cfun
  | qfota
  | cnum
  | test
  | qcfg
  | cgdcont
  deriving DecidableEq

/-- A command; its length is that of its string. -/
structure AtCmd where
  id : AtCmdId
  str : List UInt8
  deriving DecidableEq

inductive AtPriority
  | normal
  | high
  deriving DecidableEq

def atCmdQueueNum : Nat := 10
def atCmdSizeMax : Nat := 100
def atModemTimeoutMaxCnt : Nat := 15
def atApTimeoutMaxCnt : Nat := 600
def atSendInterval : Nat := 100
def atInitInterval : Nat := 3000
def atPollInterval : Nat := 3000
def atTimeout1 : Nat := 3000
def atTimeout2 : Nat := 5000
def atTimeout3 : Nat := 8000
def atTimeout4 : Nat := 10000

/-- The field `timeout` of `at_map`. -/
def AtCmdId.timeout : AtCmdId → Nat
  | .cops => atTimeout4
  | .qwifi => atTimeout3
  | .qgpscfg | .qgps | .qgpsend | .qwstatus | .qwauth | .qwmaxsta => atTimeout2
  | _ => atTimeout1

inductive AtStat
  | off
  | reset
  | initIdle
  | initSending
  | initRetry
  | normIdle
  | normSending
  | normRetry
  deriving DecidableEq

/-- The order of the states. -/
def AtStat.num : AtStat → Nat
  | .off => 0
  | .reset => 1
  | .initIdle => 2
  | .initSending => 3
  | .initRetry => 4
  | .normIdle => 5
  | .normSending => 6
  | .normRetry => 7

/-- A one-shot timer: whether it runs, and its expiry messages not yet handled. Stopping it takes
no message back. -/
structure AtTimer where
  armed : Bool
  posted : Nat

/-- `tm_stop`. -/
def AtTimer.stop (t : AtTimer) : AtTimer :=
  { t with armed := false }

/-- `tm_start` refuses the interval 0. -/
def AtTimer.start (t : AtTimer) (interval : Nat) : AtTimer :=
  if interval = 0 then t else { t with armed := true }

def AtTimer.restart (t : AtTimer) (interval : Nat) : AtTimer :=
  t.stop.start interval

def AtTimer.expire (t : AtTimer) : Option AtTimer :=
  if t.armed then some ⟨false, t.posted + 1⟩ else none

def AtTimer.take (t : AtTimer) : Option AtTimer :=
  if t.posted = 0 then none else some { t with posted := t.posted - 1 }

/-- `port` is what was given to `at_port_dev_send`. `outstanding` are the commands sent whose
result has not come. -/
structure AtChannel where
  stat : AtStat
  high : List AtCmd
  normal : List AtCmd
  curAt : AtCmd
  atLock : Bool
  readySleep : Bool
  initStep : Nat
  pollStep : Nat
  initTimer : AtTimer
  pollTimer : AtTimer
  retryTimer : AtTimer
  sendMsgs : Nat
  modemTimeoutCnt : UInt8
  apTimeoutCnt : UInt8
  fault : Bool
  restarts : Nat
  port : List (List UInt8)
  outstanding : List AtCmd

/-- `at_task_init`. -/
def atTaskInit : AtChannel where
  stat := .initIdle
  high := []
  normal := []
  curAt := ⟨.ate, []⟩
  atLock := false
  readySleep := false
  initStep := 0
  pollStep := 0
  initTimer := AtTimer.start ⟨false, 0⟩ 100
  pollTimer := ⟨false, 0⟩
  retryTimer := ⟨false, 0⟩
  sendMsgs := 0
  modemTimeoutCnt := 0
  apTimeoutCnt := 0
  fault := false
  restarts := 0
  port := []
  outstanding := []

/-! ### Queueing -/

def atIsFull (q : List AtCmd) : Bool :=
  decide (q.length = atCmdQueueNum - 1)

def atSendEnable (s : AtChannel) (at_cmd : AtCmd) (prior : AtPriority) : AtChannel :=
  if at_cmd.str = [] then s
  else if s.stat.num < AtStat.initIdle.num then s
  else if s.atLock then s
  else
    match prior with
    | .high => if atIsFull s.high then s else { s with high := s.high ++ [at_cmd] }
    | .normal => if atIsFull s.normal then s else { s with normal := s.normal ++ [at_cmd] }

/-- What a function that looks at a line of the modem does to the channel. -/
inductive AtOp
  | queue (at_cmd : AtCmd) (prior : AtPriority)
  | lock
  | unlock
  | readySleep (ready : Bool)

def atOp (s : AtChannel) : AtOp → AtChannel
  | .queue at_cmd prior => atSendEnable s at_cmd prior
  | .lock => { s with atLock := true }
  | .unlock => { s with atLock := false }
  | .readySleep ready => { s with readySleep := ready }

/-! ### Sending -/

/-- The command taken off its queue is sent, unless it is too long. -/
def atSend (s : AtChannel) (at_cmd : AtCmd) : AtChannel :=
  if atCmdSizeMax - 1 < at_cmd.str.length then s
  else
    let s := { s with
      curAt := at_cmd
      port := s.port ++ [at_cmd.str]
      outstanding := at_cmd :: s.outstanding
      stat := if s.stat = .initIdle then .initSending else .normSending }
    if at_cmd.id ≠ .test then { s with retryTimer := s.retryTimer.restart at_cmd.id.timeout } else s

def atSendProc (s : AtChannel) : AtChannel :=
  if s.stat = .initIdle ∨ s.stat = .normIdle then
    match s.high, s.normal with
    | at_cmd :: high, _ => atSend { s with high } at_cmd
    | [], at_cmd :: normal => atSend { s with normal } at_cmd
    | [], [] => s
  else s

/-- The commands whose time-outs tell that the 4G module is at fault. -/
def AtCmdId.watched (id : AtCmdId) : Bool :=
  id = .csq || id = .cops || id = .clcc || id = .qnwinfo

/-- The counters of `at_send_retry_proc`. -/
def atCountTimeout (s : AtChannel) : AtChannel :=
  let s :=
    if s.curAt.id.watched then
      if atModemTimeoutMaxCnt < (s.modemTimeoutCnt + 1).toNat then
        { s with fault := true, modemTimeoutCnt := 0 }
      else { s with modemTimeoutCnt := s.modemTimeoutCnt + 1 }
    else s
  if atApTimeoutMaxCnt < (s.apTimeoutCnt + 1).toNat then
    { s with apTimeoutCnt := 0, restarts := s.restarts + 1 }
  else { s with apTimeoutCnt := s.apTimeoutCnt + 1 }

/-- The state that a retry leads to. -/
def AtStat.retry : AtStat → Option AtStat
  | .initSending | .initRetry => some .initRetry
  | .normSending | .normRetry => some .normRetry
  | _ => none

def atSendRetryProc (s : AtChannel) : AtChannel :=
  if s.curAt.str = [] then s
  else
    match s.stat.retry with
    | none => s
    | some stat =>
      let s := atCountTimeout { s with stat }
      { s with
        port := s.port ++ [s.curAt.str]
        retryTimer := s.retryTimer.restart s.curAt.id.timeout }

/-- A result ends the command that is outstanding. -/
def atPortRecvResult (s : AtChannel) : AtChannel :=
  atSendProc <|
    match s.stat with
    | .initSending | .initRetry =>
      { s with
        stat := .initIdle
        outstanding := s.outstanding.erase s.curAt
        initTimer := s.initTimer.restart atSendInterval }
    | .normSending | .normRetry =>
      let s := { s with stat := .normIdle, outstanding := s.outstanding.erase s.curAt }
      if s.high.isEmpty then { s with pollTimer := s.pollTimer.restart atSendInterval } else s
    | _ => s

/-- A line of the modem is a result, or a response or unsolicited code; the functions for it do
`ops`. -/
inductive AtLine
  | result (ops : List AtOp)
  | other (ops : List AtOp)

def atHandlerFromPort (s : AtChannel) (line : AtLine) : AtChannel :=
  let s := if s.curAt.id.watched then { s with fault := false, modemTimeoutCnt := 0 } else s
  let s := { s with apTimeoutCnt := 0 }
  match line with
  | .result ops => atPortRecvResult (ops.foldl atOp s)
  | .other ops => ops.foldl atOp s

/-! ### Sleep, initialisation and polling -/

/-- `pack id n` is the string packed for a command; `n` tells apart those of one identifier: the
step of a list, or the operation. -/
abbrev AtPack := AtCmdId → Nat → List UInt8

def atSleepCmds (pack : AtPack) : List AtOp :=
  [(AtCmdId.qwifi, 0), (.qwifi, 2), (.qcfg, 2), (.qcfg, 3), (.qgpsend, 0), (.qgps, 0)].map
    fun (id, op) => .queue ⟨id, pack id op⟩ .high

def atSleepProc (pack : AtPack) (s : AtChannel) : AtChannel :=
  if s.atLock then s
  else atOp ((atSleepCmds pack).foldl atOp { s with high := [], normal := [] }) .lock

def atWakeupProc (s : AtChannel) : AtChannel :=
  { s with atLock := false, readySleep := false }

def atInitCmd : List AtCmdId :=
  [.ate, .qgpscfg, .qgpscfg, .qgpscfg, .qgps, .qgps, .ati, .imei, .imsi, .qnwinfo, .cops, .csq,
    .qccid, .clcc, .cops, .qdai, .qaudmod, .qtone, .cnmi, .cfun, .qwssid, .qwauth, .qwsetmac,
    .qwmaxsta, .qwifi, .qwifi, .cpms, .cmgd, .cnum, .qcfg, .cgdcont]

def atPollCmd : List AtCmdId :=
  [.csq, .qnwinfo, .cops, .qccid, .clcc, .cfun, .qgps, .qwifi, .qwmaxsta, .qwssid, .qwauth,
    .qwstatus, .qwstainfo, .qcfg, .imei, .imsi, .cgdcont]

/-- The step of the initialisation from `step` on; without wifi its commands are skipped. -/
def atSkipInit (wifi : Bool) (step : Nat) : Nat :=
  if wifi then step
  else step + ((atInitCmd.drop step).takeWhile fun id =>
    id = .qwifi || id = .qwssid || id = .qwauth || id = .qwsetmac || id = .qwmaxsta).length

/-- The same for polling, which goes round. -/
def atSkipPoll (wifi : Bool) (step : Nat) : Nat :=
  if wifi then step
  else (step + ((atPollCmd.drop step ++ atPollCmd).takeWhile fun id =>
    id = .qwssid || id = .qwauth || id = .qwmaxsta || id = .qwstatus ||
      id = .qwstainfo).length) % atPollCmd.length

/-- `at_set_task_event(AT_MSG_SEND_EVENT)`; `posted` tells whether the message was sent. -/
def atPostSend (s : AtChannel) (posted : Bool) : AtChannel :=
  if posted then { s with sendMsgs := s.sendMsgs + 1 } else s

def atInitCmdProc (pack : AtPack) (wifi posted : Bool) (s : AtChannel) : AtChannel :=
  if s.stat ≠ .initIdle then s
  else
    let step := atSkipInit wifi s.initStep
    match atInitCmd[step]? with
    | some id =>
      let s := atPostSend (atSendEnable s ⟨id, pack id step⟩ .normal) posted
      { s with initStep := step + 1, initTimer := s.initTimer.restart atInitInterval }
    | none =>
      { s with
        stat := .normIdle
        initStep := 0
        pollTimer := s.pollTimer.restart atPollInterval }

/-- While a call is active the network type or the call is asked for instead. -/
def atPollId (inCall : Bool) (id : AtCmdId) : AtCmdId :=
  if inCall then if id = .clcc then .cops else .clcc else id

def atPollCmdProc (pack : AtPack) (wifi inCall posted : Bool) (s : AtChannel) : AtChannel :=
  if s.stat.num < AtStat.normIdle.num then s
  else
    let step := atSkipPoll wifi s.pollStep
    let id := atPollId inCall (atPollCmd.getD step .csq)
    let s := atPostSend (atSendEnable s ⟨id, pack id step⟩ .normal) posted
    { s with
      pollStep := (step + 1) % atPollCmd.length
      pollTimer := s.pollTimer.restart atPollInterval }

/-! ### The task -/

inductive AtEvent
  | queue (at_cmd : AtCmd) (prior : AtPriority)
  | sendEvent
  | initEvent (wifi posted : Bool)
  | pollEvent (wifi inCall posted : Bool)
  | retryEvent
  | initExpire
  | pollExpire
  | retryExpire
  | line (line : AtLine)
  | sleep
  | wakeup

def atStep (pack : AtPack) (s : AtChannel) : AtEvent → Option AtChannel
  | .queue at_cmd prior => some (atSendEnable s at_cmd prior)
  | .sendEvent =>
    if s.sendMsgs = 0 then none else some (atSendProc { s with sendMsgs := s.sendMsgs - 1 })
  | .initEvent wifi posted =>
    s.initTimer.take.map fun initTimer => atInitCmdProc pack wifi posted { s with initTimer }
  | .pollEvent wifi inCall posted =>
    s.pollTimer.take.map fun pollTimer =>
      atPollCmdProc pack wifi inCall posted { s with pollTimer }
  | .retryEvent => s.retryTimer.take.map fun retryTimer => atSendRetryProc { s with retryTimer }
  | .initExpire => s.initTimer.expire.map fun initTimer => { s with initTimer }
  | .pollExpire => s.pollTimer.expire.map fun pollTimer => { s with pollTimer }
  | .retryExpire => s.retryTimer.expire.map fun retryTimer => { s with retryTimer }
  | .line line => some (atHandlerFromPort s line)
  | .sleep => some (atSleepProc pack s)
  | .wakeup => some (atWakeupProc s)

def AtReach (pack : AtPack) : AtChannel → Prop :=
  Runs.Reach (· = atTaskInit) fun s ev t => atStep pack s ev = some t

end At
