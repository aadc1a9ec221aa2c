/-!
# Power management

`pm_state.c`, `pm_ctl.c` and what `pm_main.c` feeds them. One step is one event of the PM
thread, one change of the mode or one registration; what the step reads outside is its
`Answers`, and what it asks for outside is noted in order in `calls`.
-/

namespace Pm

/-! ### The module's data -/

/-- `PM_STATE` -/
inductive PmState
  | normal | mckSleep | mckPowerOff | mckEmergency | sleep
  | mckRestartApp | mckRestart4G | mckFotaUpdate
  deriving DecidableEq, Repr

/-- `PM_EVENT` -/
inductive PmEvent
  | ring | rtc | running | timeout | emergency | powerOff | sleepReq
  | restartAppReq | restart4GReq | fotaUpdateReq
  deriving DecidableEq, Repr

/-- `PM_EVENT` by its number; `pm_evt_proc` refuses the other numbers. -/
def PmEvent.ofInt (evt : Int) : Option PmEvent :=
  if evt < 0 then none
  else [.ring, .rtc, .running, .timeout, .emergency, .powerOff, .sleepReq, .restartAppReq,
    .restart4GReq, .fotaUpdateReq][evt.toNat]?

/-- `PM_MODE` -/
inductive PmMode
  | running | emergency | listen | sleep | deepSleep | off
  deriving DecidableEq, Repr

def PmMode.ofByte (mode : UInt8) : Option PmMode :=
  [.running, .emergency, .listen, .sleep, .deepSleep, .off][mode.toNat]?

/-- `PM_EVT_ID`: what the registered modules are told and asked. -/
inductive PmEvtId
  | off | sleep | emergency | running | rtcWakeup
  deriving DecidableEq, Repr

/-- `fota_get_status` -/
inductive FotaSt
  | ok | ing | error | other
  deriving DecidableEq, Repr

/-- What a step asks for outside, with the answer where there is one. -/
inductive Call
  | usbCheck (res : Int32)
  | mcuCheck (res : Int32)
  | asked (id : PmEvtId) (answers : List Int32)
  | notify (id : PmEvtId)
  | voteOppose
  | voteAgree
  | stSetAppSleep (status : UInt8)
  | rtcStart (ms : UInt32)
  | powerdown
  | killApp
  | upgIdle
  | removeDirs
  | fotaUpdate
  deriving DecidableEq, Repr

/-- What is read outside: the results of `file_read` with the byte it leaves for the two
checks, of each registered handler, of `st_get` for the mode, the wake-up time, the result
of `sock_recv_check`, and `fota_get_status`. -/
structure Answers where
  usb : Int32 × UInt8
  mcu : Int32 × UInt8
  ready : PmEvtId → Nat → Int32
  stMode : Int32 × UInt8
  rtcTime : UInt32
  sock : Int32
  fota : FotaSt

/-- The module's variables. `voted` tells whether the wake lock is released; `appSleep` is the
status item; the counters are the static variables of the handlers. -/
structure Machine where
  state : PmState
  ringStatus : Bool
  mode : PmMode
  regtbl : List UInt16
  voted : Bool
  appSleep : UInt8
  checkCnt : Int
  restartAppCnt : Int
  restart4GCnt : Int
  fotaCnt : Int
  fotaErrorCnt : Int
  calls : List Call
  deriving DecidableEq, Repr

/-- `pm_init_para`, `pm_init_state`, and `pm_main` before its loop. -/
def Machine.initial : Machine :=
  ⟨.normal, false, .running, [], false, 0, 0, 0, 0, 0, 0, []⟩

namespace Machine

def call (pm : Machine) (c : Call) : Machine :=
  { pm with calls := pm.calls ++ [c] }

def setState (pm : Machine) (state : PmState) : Machine :=
  { pm with state }

/-- `pm_notify_moudle` -/
def notify (pm : Machine) (id : PmEvtId) : Machine :=
  pm.call (.notify id)

def voteOppose (pm : Machine) : Machine :=
  { pm with voted := false }.call .voteOppose

def voteAgree (pm : Machine) : Machine :=
  { pm with voted := true }.call .voteAgree

/-- `st_set` of `ST_ITEM_APP_SLEEP` -/
def stSetAppSleep (pm : Machine) (status : UInt8) : Machine :=
  { pm with appSleep := status }.call (.stSetAppSleep status)

def wakeupLow (pm : Machine) : Machine :=
  { pm with ringStatus := false }

def wakeupHigh (pm : Machine) : Machine :=
  { pm with ringStatus := true }

end Machine

/-! ### The checks -/

/-- `pm_usb_wakeup_check` and `pm_mcu_wakeup_check`: "0 indicates module can sleep, 1
indicates module can not sleep", and `-1` when the file cannot be read or holds neither. -/
def wakeupCheck (read : Int32 × UInt8) : Int32 :=
  if read.1 ≠ 0 then -1
  else if read.2 = 0x31 then 0
  else if read.2 = 0x30 then 1
  else -1

def pmUsbWakeupCheck (a : Answers) (pm : Machine) : Int32 × Machine :=
  (wakeupCheck a.usb, pm.call (.usbCheck (wakeupCheck a.usb)))

def pmMcuWakeupCheck (a : Answers) (pm : Machine) : Int32 × Machine :=
  (wakeupCheck a.mcu, pm.call (.mcuCheck (wakeupCheck a.mcu)))

/-- Both checks, joined as their callers join them: `0 | usb | (mcu << 1)`. -/
def bothChecks (a : Answers) (pm : Machine) : Int32 × Machine :=
  let (usb, pm) := pmUsbWakeupCheck a pm
  let (mcu, pm) := pmMcuWakeupCheck a pm
  ((0 : Int32) ||| usb ||| mcu <<< 1, pm)

/-- `pm_is_sleep_ready` -/
def pmIsSleepReady (a : Answers) (id : PmEvtId) (pm : Machine) : Int32 × Machine :=
  let answers := (List.range pm.regtbl.length).map (a.ready id)
  let pm := pm.call (.asked id answers)
  if answers.countP (· = 1) = pm.regtbl.length then (1, pm) else (0, pm)

/-! ### The entries of the table -/

def pmStIgnore (_ : Answers) (pm : Machine) : Machine := pm

def pmMcuWakeup (_ : Answers) (pm : Machine) : Machine :=
  ((pm.voteOppose.setState .normal).notify .running).stSetAppSleep 0

def pmRingWakeup (a : Answers) (pm : Machine) : Machine :=
  if pm.state ≠ .normal then
    ((pm.voteOppose.setState .normal).notify .running).wakeupHigh
  else
    -- already running: the ring counts only while the MCU lets the module sleep
    let (mcu, pm) := pmMcuWakeupCheck a pm
    if mcu = 0 then pm.wakeupHigh else pm

def pmRtcWakeup (_ : Answers) (pm : Machine) : Machine :=
  pm.voteOppose.notify .rtcWakeup

/-- When the checks have let it sleep ten times, the mode tells which way. -/
def pmStS0e3 (a : Answers) (pm : Machine) : Machine :=
  let (isAllowSleep, pm) := bothChecks a pm
  -- -1 is "cannot tell": it does not keep the module awake
  if isAllowSleep ≥ 1 then
    let pm := { pm with checkCnt := 0 }
    if pm.ringStatus then pm.wakeupLow else pm
  else
    let pm := { pm with checkCnt := pm.checkCnt + 1 }
    if pm.checkCnt ≥ 10 then
      -- the counter stays, so the next check tries again
      if a.stMode.1 ≠ 0 then pm
      else
        let pm :=
          match PmMode.ofByte a.stMode.2 with
          | some .sleep | some .deepSleep | some .off => (pm.setState .mckPowerOff).notify .off
          | _ => (pm.setState .mckSleep).notify .sleep
        { pm with checkCnt := 0 }
    else pm

/-- Requests: `pm_st_s0e4` to `pm_st_s0e9`, `pm_st_s1e4` and `pm_st_s3e5` differ in the state
they enter and in what they tell the modules. -/
def enter (state : PmState) (id : PmEvtId) (_ : Answers) (pm : Machine) : Machine :=
  (pm.setState state).notify id

def pmStS0e4 : Answers → Machine → Machine := enter .mckEmergency .emergency

def pmStS0e5 : Answers → Machine → Machine := enter .mckPowerOff .off

def pmStS0e6 : Answers → Machine → Machine := enter .mckSleep .sleep

def pmStS0e7 : Answers → Machine → Machine := enter .mckRestartApp .off

def pmStS0e8 : Answers → Machine → Machine := enter .mckRestart4G .off

def pmStS0e9 : Answers → Machine → Machine := enter .mckFotaUpdate .off

def pmStS1e3 (a : Answers) (pm : Machine) : Machine :=
  let (isAllowSleep, pm) := bothChecks a pm
  -- woken before it slept
  if isAllowSleep ≥ 1 then (pmMcuWakeup a pm).wakeupLow
  else
    let (ready, pm) := pmIsSleepReady a .sleep pm
    -- a ring that no check has taken back keeps the lock
    if ready = 1 ∧ pm.ringStatus = false then
      let pm := pm.setState .sleep
      let pm := if a.rtcTime ≠ 0 then pm.call (.rtcStart (a.rtcTime * 1000)) else pm
      -- the vote comes last: nothing of this entry runs after it
      pm.voteAgree
    else pm

def pmStS1e4 : Answers → Machine → Machine := enter .mckEmergency .emergency

/-- The USB check is left out for the modes that power the module off. -/
def powerOffChecks (a : Answers) (pm : Machine) : Int32 × Machine :=
  if pm.mode ≠ .off ∧ pm.mode ≠ .deepSleep then bothChecks a pm
  else
    let (mcu, pm) := pmMcuWakeupCheck a pm
    ((0 : Int32) ||| mcu <<< 1, pm)

def pmStS2e3 (a : Answers) (pm : Machine) : Machine :=
  let (isAllowOff, pm) := powerOffChecks a pm
  if isAllowOff ≥ 1 then (pmMcuWakeup a pm).wakeupLow
  else
    let (ready, pm) := pmIsSleepReady a .off pm
    if ready = 1 ∧ pm.ringStatus = false then pm.call .powerdown else pm

def pmStS3e3 (a : Answers) (pm : Machine) : Machine :=
  let (ready, pm) := pmIsSleepReady a .emergency pm.wakeupLow
  -- only the applications go to sleep, the state is kept
  if ready = 1 then pm.stSetAppSleep 1 else pm

def pmStS3e5 : Answers → Machine → Machine := enter .mckPowerOff .off

def pmStS4e1 (a : Answers) (pm : Machine) : Machine :=
  (pmRtcWakeup a pm).setState .mckSleep

def pmStS4e3 (a : Answers) (pm : Machine) : Machine :=
  let (isAllowSleep, pm) := bothChecks a pm
  if isAllowSleep ≥ 1 then (pmMcuWakeup a pm).wakeupLow
  -- data have arrived on a socket
  else if a.sock ≥ 0 then pmRingWakeup a pm
  else pm

def pmStS5e3 (a : Answers) (pm : Machine) : Machine :=
  let (ready, pm) := pmIsSleepReady a .off pm
  if ready = 1 ∨ pm.restartAppCnt > 5 then pm.call .killApp
  else { pm with restartAppCnt := pm.restartAppCnt + 1 }

def pmStS6e3 (a : Answers) (pm : Machine) : Machine :=
  let (ready, pm) := pmIsSleepReady a .off pm
  if ready = 1 ∨ pm.restart4GCnt > 5 then pm.call .powerdown
  else { pm with restart4GCnt := pm.restart4GCnt + 1 }

/-- The update starts when every module is ready or eleven checks have passed. -/
def fotaAllowed (a : Answers) (pm : Machine) : Bool × Machine :=
  let (ready, pm) := pmIsSleepReady a .off pm
  if ready = 1 then (true, pm)
  else (decide (pm.fotaCnt + 1 > 10), { pm with fotaCnt := pm.fotaCnt + 1 })

def startFotaUpdate (isAllow : Bool) (pm : Machine) : Machine :=
  if isAllow then (pm.call .removeDirs).call .fotaUpdate else pm

def pmStS7e3 (a : Answers) (pm : Machine) : Machine :=
  let (isAllow, pm) := fotaAllowed a pm
  match a.fota with
  -- the download or the update goes on
  | .ok | .ing => pm
  | .error =>
    let pm := { pm with fotaErrorCnt := pm.fotaErrorCnt + 1 }
    if pm.fotaErrorCnt > 3 then
      ((({ pm with fotaErrorCnt := 0 }.call .upgIdle).setState .normal).notify .running).call
        .removeDirs
    else startFotaUpdate isAllow pm
  | .other => startFotaUpdate isAllow pm

/-- `state_tbl` -/
def stateTbl : PmState → PmEvent → Answers → Machine → Machine
  | .normal, .ring => pmRingWakeup
  | .normal, .timeout => pmStS0e3
  | .normal, .emergency => pmStS0e4
  | .normal, .powerOff => pmStS0e5
  | .normal, .sleepReq => pmStS0e6
  | .normal, .restartAppReq => pmStS0e7
  | .normal, .restart4GReq => pmStS0e8
  | .normal, .fotaUpdateReq => pmStS0e9
  | .normal, _ => pmStIgnore
  | .mckSleep, .ring => pmRingWakeup
  | .mckSleep, .rtc => pmRtcWakeup
  | .mckSleep, .running => pmMcuWakeup
  | .mckSleep, .timeout => pmStS1e3
  | .mckSleep, .emergency => pmStS1e4
  | .mckSleep, _ => pmStIgnore
  | .mckPowerOff, .ring => pmRingWakeup
  | .mckPowerOff, .running => pmMcuWakeup
  | .mckPowerOff, .timeout => pmStS2e3
  | .mckPowerOff, _ => pmStIgnore
  | .mckEmergency, .running => pmMcuWakeup
  | .mckEmergency, .timeout => pmStS3e3
  | .mckEmergency, .powerOff => pmStS3e5
  | .mckEmergency, _ => pmStIgnore
  | .sleep, .ring => pmRingWakeup
  | .sleep, .rtc => pmStS4e1
  | .sleep, .timeout => pmStS4e3
  | .sleep, _ => pmStIgnore
  | .mckRestartApp, .timeout => pmStS5e3
  | .mckRestartApp, _ => pmStIgnore
  | .mckRestart4G, .timeout => pmStS6e3
  | .mckRestart4G, _ => pmStIgnore
  | .mckFotaUpdate, .timeout => pmStS7e3
  | .mckFotaUpdate, _ => pmStIgnore

/-- `pm_evt_proc` -/
def pmEvtProc (evt : Int) (a : Answers) (pm : Machine) : Machine :=
  match PmEvent.ofInt evt with
  -- an event outside the table is dropped
  | none => pm
  | some evt => stateTbl pm.state evt a pm

/-! ### Runs -/

/-- `pm_mode_proc`; the event it sends comes as an event of its own. -/
def pmModeProc (newMode : UInt8) (pm : Machine) : Machine :=
  match PmMode.ofByte newMode with
  | none => pm
  | some mode => { pm with mode }

def pmMaxRegItemNum : Nat := 16

/-- `pm_reg_handler` -/
def pmRegHandler (mid : UInt16) (pm : Machine) : Machine :=
  if pm.regtbl.length ≥ pmMaxRegItemNum then pm
  else { pm with regtbl := pm.regtbl ++ [mid] }

inductive Act
  | event (evt : Int) (a : Answers)
  | mode (newMode : UInt8)
  | register (mid : UInt16)

/-- One step, with only its own calls. -/
def step (pm : Machine) : Act → Machine
  | .event evt a => pmEvtProc evt a { pm with calls := [] }
  | .mode newMode => pmModeProc newMode { pm with calls := [] }
  | .register mid => pmRegHandler mid { pm with calls := [] }

def run (acts : List Act) : Machine :=
  acts.foldl step .initial

end Pm
