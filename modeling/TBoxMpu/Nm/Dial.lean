import Mathlib.Logic.Function.Basic
import TBoxMpu.Lib.Alternation
import TBoxMpu.Lib.Runs

/-!
# Dialling the networks

`nm_dial.c`: the private and the public network are dialled one after the other under one recall
timer. The routes and the names that are set once a network is there are left out.
-/

namespace Nm

/-! ### State -/

inductive NetType
  | privateNet
  | publicNet
  deriving DecidableEq

/-- The only other network. -/
def NetType.other : NetType → NetType
  | .privateNet => .publicNet
  | .publicNet => .privateNet

inductive NetState
  | notInited
  | initing
  | inited
  | connecting
  | connected
  | disconnected
  deriving DecidableEq

inductive IpFamily
  | v4
  | v6
  | other
  deriving DecidableEq

/-- `NM_REG_MSG_CONNECTED` and `NM_REG_MSG_DISCONNECTED` -/
inductive Notice
  | connected
  | disconnected
  deriving DecidableEq

/-- `dsi_get_data_srvc_hndl` and `dsi_rel_data_srvc_hndl` -/
inductive HandleCall
  | get
  | release
  deriving DecidableEq

/-- `NM_NET_ITEM`: `handle != NULL`, `strlen(apn) != 0`, and what was told and called so far. -/
structure NetItem where
  held : Bool
  state : NetState
  waitCnt : Nat
  ipType : IpFamily
  apn : Bool
  told : List Notice
  calls : List HandleCall

/-- `NM_NET_INFO`: `curType` is `none` for `NM_NET_TYPE_NUM`. Of the recall timer: whether it
runs, and its messages that wait in the queue. -/
structure NetInfo where
  curType : Option NetType
  initState : NetState
  armed : Bool
  queued : Nat
  item : NetType → NetItem

def NetInfo.set (s : NetInfo) (t : NetType) (i : NetItem) : NetInfo :=
  { s with item := Function.update s.item t i }

def NM_MAX_DIAL_TIMES : Nat := 6

/-- The calls that may fail, each made once for a message at most. -/
inductive NmOp
  | startDisconnected
  | startWait
  | startCall
  | startRestart
  | startInit
  | startIniting
  | dsiInit
  | getHandle
  | startDataCall
  | getConf
  | cfgAuth
  | cfgApn
  deriving DecidableEq

/-- Which calls succeed. -/
abbrev Luck := NmOp → Bool

/-! ### Messages -/

section

variable (luck : Luck)

/-- `tm_start(nm_net_info.recall_timer, ..)` -/
def tmStart (op : NmOp) (s : NetInfo) : NetInfo :=
  if luck op then { s with armed := true } else s

/-- Disconnected, and those who registered are told if it was connected. -/
def NetItem.disconnect (i : NetItem) : NetItem :=
  { i with
    state := .disconnected
    told := if i.state = .connected then i.told ++ [.disconnected] else i.told }

def nmDialStop (t : NetType) (s : NetInfo) : NetInfo :=
  let i := s.item t
  s.set t { i.disconnect with
    held := false
    calls := if i.held then i.calls ++ [.release] else i.calls }

def nmDialCall (t : NetType) (s : NetInfo) : NetInfo :=
  if luck .startCall then
    let s := { s with armed := true }
    let i := { s.item t with waitCnt := 0 }
    let s := s.set t i
    if i.apn = false then s
    else if s.initState ≠ .inited then s
    else if i.held then nmDialStop t s
    else if luck .getHandle then
      let i := { i with held := true, calls := i.calls ++ [.get] }
      let s := s.set t i
      if luck .startDataCall then
        { s.set t { i with state := .connecting } with curType := some t }
      else s
    else s
  else s

/-- There is an access point, and no connection. -/
def NetInfo.wants (s : NetInfo) (t : NetType) : Bool :=
  (s.item t).state ≠ .connected && (s.item t).apn

def nmGetNextDialNet (s : NetInfo) (t : Option NetType) : Option NetType :=
  let t := t.getD .privateNet
  if s.wants t.other then some t.other else if s.wants t then some t else none

/-- The next network, if one is left. -/
def nmDialNext (t : Option NetType) (s : NetInfo) : NetInfo :=
  match nmGetNextDialNet s t with
  | some next => nmDialCall luck next s
  | none => { s with curType := none }

def nmDialAllNet (s : NetInfo) : NetInfo :=
  match if (s.item .privateNet).apn then some .privateNet
    else if (s.item .publicNet).apn then some NetType.publicNet else none with
  | none => s
  | some t =>
    match s.initState with
    | .notInited =>
      if luck .dsiInit then { s with initState := .initing } else tmStart luck .startInit s
    | .initing => tmStart luck .startIniting s
    | _ => nmDialCall luck t s

def nmDialConnected (t : NetType) (s : NetInfo) : NetInfo :=
  let i := s.item t
  if i.state ≠ .connecting then s
  else if i.ipType = .v4 ∧ luck .getConf = false then nmDialCall luck t s
  else if i.ipType = .v6 then nmDialCall luck t s
  else
    nmDialNext luck (some t)
      (s.set t { i with state := .connected, told := i.told ++ [.connected] })

def nmDialDisconnected (t : NetType) (s : NetInfo) : NetInfo :=
  if s.initState = .notInited then nmDialAllNet luck s
  else tmStart luck .startDisconnected (s.set t (s.item t).disconnect)

def nmDialInitMsgProc (t : NetType) (s : NetInfo) : NetInfo :=
  let s := { s with initState := .inited }
  if (s.item t).apn then nmDialCall luck t s else nmDialNext luck (some t) s

def nmDialTimerMsgProc (s : NetInfo) : NetInfo :=
  if s.initState = .notInited then nmDialAllNet luck s
  else
    match s.curType with
    | none => nmDialNext luck none s
    | some c =>
      let s := tmStart luck .startWait s
      let i := s.item c
      if i.state = .connecting ∧ i.waitCnt < NM_MAX_DIAL_TIMES then
        s.set c { i with waitCnt := i.waitCnt + 1 }
      else if i.state = .connecting then nmDialStop c s
      else nmDialNext luck (some c) s

def nmDialRestart (s : NetInfo) : NetInfo :=
  if luck .startRestart then
    { nmDialStop .publicNet (nmDialStop .privateNet { s with armed := true }) with
      curType := none }
  else s

/-- `nm_dial_loc_net_proc` and `nm_dial_wan_net_proc`, the latter without the user of the
network. -/
def nmDialNetProc (t : NetType) (apn : Bool) (s : NetInfo) : NetInfo :=
  if t = .privateNet ∧ luck .cfgAuth = false then s
  else if luck .cfgApn then nmDialRestart luck (s.set t { s.item t with apn := apn })
  else s

end

/-! ### Runs -/

/-- The messages of `nm_dial_msg_proc`, the timer running out, and the restart that `nm_diag`
asks for. -/
inductive NmEvent
  | dialInited (t : NetType)
  | wdsConnected (t : NetType) (ip : Option IpFamily)
  | netIsConn (t : NetType)
  | netNoNet (t : NetType)
  | expired
  | timerRecall
  | apnChanged (t : NetType) (apn : Bool)
  | diagRestart

/-- `dsi_init_ex` calls back once, and the timer and its messages are there. -/
def NmEvent.Valid (s : NetInfo) : NmEvent → Prop
  | .dialInited _ => s.initState = .initing
  | .expired => s.armed = true
  | .timerRecall => 0 < s.queued
  | _ => True

def nmStep (luck : Luck) (s : NetInfo) : NmEvent → NetInfo
  | .dialInited t => nmDialInitMsgProc luck t s
  | .wdsConnected t ip => s.set t { s.item t with ipType := ip.getD (s.item t).ipType }
  | .netIsConn t => nmDialConnected luck t s
  | .netNoNet t => nmDialDisconnected luck t s
  | .expired => { s with armed := false, queued := s.queued + 1 }
  | .timerRecall => nmDialTimerMsgProc luck { s with queued := s.queued - 1 }
  | .apnChanged t apn => nmDialNetProc luck t apn s
  | .diagRestart => nmDialRestart luck s

/-- `nm_dial_init` -/
def NmFresh (s : NetInfo) : Prop :=
  s.curType = some .privateNet ∧ s.initState = .notInited ∧ s.armed = false ∧ s.queued = 0 ∧
    ∀ t, (s.item t).held = false ∧ (s.item t).state = .disconnected ∧ (s.item t).waitCnt = 0 ∧
      (s.item t).told = [] ∧ (s.item t).calls = []

/-- The runs of `nm_main`, as far as the calls succeed that `P` asks for. -/
def NmReach (P : Luck → Prop) : NetInfo → Prop :=
  Runs.Reach (fun s => ∃ luck fresh, P luck ∧ NmFresh fresh ∧ s = nmDialAllNet luck fresh)
    fun s (a : NmEvent × Luck) s' => P a.2 ∧ a.1.Valid s ∧ s' = nmStep a.2 s a.1

end Nm
