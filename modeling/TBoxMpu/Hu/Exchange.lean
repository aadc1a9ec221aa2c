import TBoxMpu.Lib.Runs
import TBoxMpu.Fota.Ctrl
import TBoxMpu.Hu.Framing

/-!
# Exchanges with the head unit

The loop of `hu_main` over the ten commands of `hu_fota.c`. A command that needs an answer is
begun by its `send_proc`; its `done_proc` ends it. Other threads set the upgrade state between
any two steps of the loop.
-/

namespace Hu

open Fota (FotaStat)

/-! ### The upgrade state and its commands -/

/-- `HU_FOTA_STAT_*` -/
inductive HuFotaStat
  | idle | dldRequest | dldRestart | dldConfirm | dldProcess | dldFinish
  | updRequest | updConfirm | updProcess | updFinish | updWarn | updRollupd
  deriving DecidableEq, Repr

/-- The static variables of `hu_fota.c`. -/
structure HuFota where
  state : HuFotaStat
  time : UInt64
  rollback : UInt8

/-- What a step reads: the clock, the upgrade's answers, and what `sock_send` returns. -/
structure HuEnv where
  now : UInt64
  fotaState : FotaStat
  dldStart : Int
  dldPercent : Int
  updStart : Int
  updPercent : Int
  sent : Int

/-- The commands in the order in which `hu_fota_init` registers them. -/
inductive HuCmd
  | dldRequest | dldConfirm | dldProcess | dldFinish | dldRestart
  | updRequest | updProcess | updFinish | updWarn | rollupdFinish
  deriving DecidableEq, Repr

inductive HuCmdType
  | none | period | needAck | random
  deriving DecidableEq, Repr

def huCmdTbl : List HuCmd :=
  [.dldRequest, .dldConfirm, .dldProcess, .dldFinish, .dldRestart, .updRequest, .updProcess,
    .updFinish, .updWarn, .rollupdFinish]

def HuCmd.cmd : HuCmd → UInt8
  | .dldRequest => 0x41
  | .dldConfirm => 0x44
  | .dldProcess => 0x42
  | .dldFinish => 0x43
  | .dldRestart => 0x46
  | .updRequest => 0x47
  | .updProcess => 0x49
  | .updFinish => 0x4A
  | .updWarn => 0x4B
  | .rollupdFinish => 0x4C

def HuCmd.uptype : HuCmd → HuCmdType
  | .dldRequest | .dldFinish | .updFinish | .updWarn | .rollupdFinish => .needAck
  | .dldProcess | .updProcess => .period
  | .dldConfirm | .dldRestart | .updRequest => .none

def HuCmd.dwtype : HuCmd → HuCmdType
  | .dldConfirm | .dldRestart | .updRequest => .needAck
  | .dldRequest | .dldFinish | .updFinish | .updWarn | .rollupdFinish | .dldProcess | .updProcess =>
    .none

def HuCmd.period : HuCmd → UInt64
  | .dldProcess | .updProcess => 2000
  | _ => 0

def HuCmd.timeout : HuCmd → UInt64
  | .updRequest | .dldProcess | .updProcess => 0
  | _ => 3000

def huErrTimeout : Int := 4

def huErrReset : Int := 5

/-! ### What the commands do -/

def huFotaDldRequestSend (env : HuEnv) (f : HuFota) : Option (List UInt8) × HuFota :=
  if f.state = .idle ∧ env.fotaState = .newreq then (some [0], { f with state := .dldRequest })
  -- the driver has not confirmed within 65 seconds
  else if f.state = .dldConfirm ∧ env.now - f.time > 65000 then (none, { f with state := .idle })
  else (none, f)

/-- A percentage while there is one, then the end: `hu_fota_dld_process_send` and
`hu_cmd_fota_upd_process_send`. -/
def processSend (during after : HuFotaStat) (percent : Int) (f : HuFota) :
    Option (List UInt8) × HuFota :=
  if f.state = during then
    if percent > 100 ∨ percent < 0 then (none, { f with state := after })
    else (some [.ofNat percent.toNat], f)
  else (none, f)

/-- One byte in one state. -/
def stateSend (during : HuFotaStat) (byte : UInt8) (f : HuFota) : Option (List UInt8) × HuFota :=
  if f.state = during then (some [byte], f) else (none, f)

/-- `send_proc`: the data of the packet, if it returns zero. -/
def HuCmd.sendProc : HuCmd → HuEnv → HuFota → Option (List UInt8) × HuFota
  | .dldRequest, env, f => huFotaDldRequestSend env f
  | .dldConfirm, _, f | .dldRestart, _, f => (some [], f)
  | .updRequest, _, f => (some [0], f)
  | .dldProcess, env, f => processSend .dldProcess .dldFinish env.dldPercent f
  | .updProcess, env, f => processSend .updProcess .updFinish env.updPercent f
  | .dldFinish, env, f => stateSend .dldFinish (if env.fotaState = .newfile then 0 else 1) f
  | .updFinish, env, f => stateSend .updFinish (if env.fotaState = .finish then 0 else 1) f
  | .updWarn, _, f => stateSend .updWarn 0 f
  | .rollupdFinish, _, f => stateSend .updRollupd f.rollback f

/-- `recv_proc` with `dat[0]`; where there is one it returns zero, as the caller assumes where there
is none. -/
def HuCmd.recvProc : HuCmd → UInt8 → HuEnv → HuFota → HuFota
  | .dldConfirm, dat, env, f =>
    if f.state = .dldConfirm then
      if dat = 0 then { f with state := if env.dldStart = 0 then .dldProcess else .dldFinish }
      else { f with state := .idle }
    else f
  | .dldRestart, dat, env, f =>
    if f.state = .idle ∧ env.fotaState = .pending ∧ dat = 0 then
      { f with state := if env.dldStart = 0 then .dldProcess else .dldFinish }
    else f
  | .updRequest, dat, env, f =>
    if f.state = .idle ∧ (dat = 0 ∨ dat = 1) then
      { f with state := if env.updStart = 0 then .updProcess else .updFinish }
    else f
  | _, _, _, f => f

def huFotaDldRequestDone (error : Int) (env : HuEnv) (f : HuFota) : HuFota :=
  if error = 0 then { f with state := .dldConfirm, time := env.now } else { f with state := .idle }

/-- `done_proc`, which only the commands that need an answer have. -/
def HuCmd.doneProc : HuCmd → Option (Int → HuEnv → HuFota → HuFota)
  | .dldRequest => some huFotaDldRequestDone
  | .dldFinish | .updFinish | .updWarn => some fun _ _ f => { f with state := .idle }
  | .rollupdFinish => some fun _ _ f => { f with state := .idle, rollback := 0 }
  | .dldConfirm | .dldProcess | .dldRestart | .updRequest | .updProcess => none

/-! ### The loop -/

/-- A command that needs an answer is begun, or its `done_proc` is called. -/
inductive HuLog
  | begun (c : HuCmd)
  | done (c : HuCmd) (error : Int)
  deriving DecidableEq

/-- Where the loop is: `send` at an entry of the table. -/
inductive HuPc
  | socket | recv | wait | send (k : Nat)
  deriving DecidableEq

/-- `state`, the static variables of `hu_main.c` and `sendtm` of the commands; `packTemp` is the
command and the data of `pack_temp`. `log` keeps the exchanges, the latest first. -/
structure HuMain where
  fota : HuFota
  wait : Option HuCmd
  hbtime : UInt64
  sendtm : HuCmd → UInt64
  packTemp : UInt8 × List UInt8
  waitHuconut : Nat
  listenTime : UInt64
  pc : HuPc
  log : List HuLog

def HuMain.initial : HuMain :=
  ⟨⟨.idle, 0, 0⟩, none, 0, fun _ => 0, (0, []), 0, 0, .socket, []⟩

/-- `done_proc` of the command that waits, and no command waits. -/
def HuMain.finish (s : HuMain) (error : Int) (env : HuEnv) : HuMain :=
  match s.wait with
  | some c =>
    match c.doneProc with
    | some done =>
      { s with fota := done error env s.fota, wait := none, log := .done c error :: s.log }
    | none => { s with wait := none }
  | none => s

def huReset (env : HuEnv) (s : HuMain) : HuMain := { s.finish huErrReset env with hbtime := 0 }

/-- The heart beat at the clock, which is never zero. -/
def HuMain.beat (s : HuMain) (env : HuEnv) : HuMain :=
  { s with hbtime := if env.now = 0 then 1 else env.now }

inductive HuSock
  | closed | opened | other
  deriving DecidableEq

/-- `hu_check_socket`; `listen` and `error` are what `sock_listen_port` and `sock_error` return. -/
def huCheckSocket (env : HuEnv) (sock : HuSock) (listen error : Int) (s : HuMain) : Int × HuMain :=
  match sock with
  | .closed =>
    if s.listenTime = 0 ∨ env.now - s.listenTime > 5000 then
      let s := { s with listenTime := env.now }
      if listen ≠ 0 then (-1, s) else (0, s.beat env)
    else (-1, s)
  | .opened => (if error ≠ 0 then -1 else 0, s)
  | .other => (-1, s)

/-- `hu_find_command`, and none for an empty entry of the table, which nothing is done for. -/
def huFindCommand (cmd : UInt8) : Option HuCmd := huCmdTbl.find? fun c => c.cmd = cmd

/-- `hu_check_recv`; `retv` is what `hu_recv_pack` returns, with the packet in `obuf`. -/
def huCheckRecv (env : HuEnv) (retv : Int) (obuf : List UInt8) (s : HuMain) : Int × HuMain :=
  let cmd := obuf.getD 3 0
  let len := (obuf.getD 5 0).toNat
  if retv ≤ 0 then (retv, s)
  else if cmd = 0x2a then (env.sent, s.beat env)
  else
    match huFindCommand cmd with
    | none => (retv, s)
    | some c =>
      -- the checksum is behind the data, wherever the frame ends
      if obuf.getD (6 + len) 0 ≠ huChecksum ((obuf.drop 3).take (len + 3)) then
        (if c.dwtype = .needAck then env.sent else retv, s)
      -- a command that is sent upwards: this is an answer to it
      else if c.dwtype = .none ∧ s.wait.isSome then
        -- `HU_CMD_ACKERROR` is not registered: an error answer is an unknown command
        if s.wait = some c then
          (retv, { s with fota := c.recvProc (obuf.getD 6 0) env s.fota }.finish 0 env)
        else (retv, s)
      -- a command of the head unit
      else if c.dwtype ≠ .none then
        let s := { s with fota := c.recvProc (obuf.getD 6 0) env s.fota }
        -- answered by the command itself or by an error
        (env.sent, { s with fota := (c.sendProc env s.fota).2 })
      else (retv, s)

/-- `hu_check_wait` -/
def huCheckWait (env : HuEnv) (s : HuMain) : Int × HuMain :=
  let beat (s : HuMain) : Int × HuMain :=
    (if s.hbtime ≠ 0 ∧ env.now - s.hbtime ≥ 6000 then -1 else 0, s)
  match s.wait with
  | some c =>
    if env.now - s.sendtm c ≥ c.timeout then
      if s.waitHuconut ≠ 3 then
        let sendtm := fun d => if d = c then (if env.sent > 0 then env.now else 0) else s.sendtm d
        -- the ends of a download and of an update are sent again until answered
        let finish := s.packTemp.1 = HuCmd.dldFinish.cmd ∨ s.packTemp.1 = HuCmd.updFinish.cmd
        (0, { s with sendtm, waitHuconut := if finish then 0 else s.waitHuconut + 1 })
      -- given up after the third time
      else beat { s.finish huErrTimeout env with waitHuconut := 0, packTemp := (0, []) }
    else beat s
  | none => beat s

/-- Whether `hu_check_send` asks the command for a packet. -/
def HuCmd.due (c : HuCmd) (env : HuEnv) (s : HuMain) : Bool :=
  match c.uptype with
  | .period => env.now - s.sendtm c ≥ c.period
  | .needAck => s.wait.isNone
  | .random => true
  | .none => false

/-- `hu_check_send` on one entry. -/
def huCheckSend (env : HuEnv) (c : HuCmd) (s : HuMain) : Int × HuMain :=
  if c.due env s then
    match c.sendProc env s.fota with
    | (none, fota) => (0, { s with fota })
    | (some dat, fota) =>
      let sendtm := fun d => if d = c then (if env.sent > 0 then env.now else 0) else s.sendtm d
      let s := { s with fota, sendtm }
      -- the state has moved on even where nothing was sent
      if c.uptype = .needAck then
        (env.sent, { s with
          wait := if env.sent > 0 then some c else s.wait
          packTemp := (c.cmd, dat)
          waitHuconut := 1
          log := .begun c :: s.log })
      else (env.sent, s)
  else (0, s)

/-- What other threads do: `hu_fota_upd_warn_start`, `hu_fota_upd_rollupd_reslut_state` and
`hu_cmd_fota_selupgrade_finish`. -/
inductive HuCall
  | warnStart
  | rollupdResult (error : Int)
  | selupgradeFinish

def HuCall.run (f : HuFota) : HuCall → HuFota
  | .warnStart => { f with state := .updWarn }
  | .rollupdResult error => { f with rollback := if error ≠ 0 then 1 else 0, state := .updRollupd }
  | .selupgradeFinish => { f with state := .updFinish }

inductive HuEvent
  | call (c : HuCall)
  | socket (env : HuEnv) (sock : HuSock) (listen error : Int)
  | recv (env : HuEnv) (retv : Int) (obuf : List UInt8)
  | wait (env : HuEnv)
  | send (env : HuEnv)

/-- The loop goes on, or resets and starts again. -/
def goOn (env : HuEnv) (next : HuPc) (res : Int × HuMain) : HuMain :=
  -- an error of any check closes the connection
  if res.1 < 0 then { huReset env res.2 with pc := .socket } else { res.2 with pc := next }

def huStep (s : HuMain) : HuEvent → Option HuMain
  | .call c => some { s with fota := c.run s.fota }
  | .socket env sock listen error =>
    if s.pc = .socket then some (goOn env .recv (huCheckSocket env sock listen error s)) else none
  | .recv env retv obuf =>
    if s.pc = .recv then some (goOn env .wait (huCheckRecv env retv obuf s)) else none
  | .wait env => if s.pc = .wait then some (goOn env (.send 0) (huCheckWait env s)) else none
  | .send env =>
    match s.pc with
    | .send k =>
      match huCmdTbl[k]? with
      | some c =>
        let res := huCheckSend env c s
        some (goOn env (if res.1 = 0 then .send (k + 1) else .socket) res)
      | none => some { s with pc := .socket }
    | _ => none

/-! ### Exactly one end for each begin -/

/-- Commands are begun and ended in turn; the one that waits was begun last and has not ended. -/
inductive Exchanges : Option HuCmd → List HuLog → Prop
  | start : Exchanges none []
  | begun {log : List HuLog} (c : HuCmd) : Exchanges none log → Exchanges (some c) (.begun c :: log)
  | done {c : HuCmd} {log : List HuLog} (error : Int) :
      Exchanges (some c) log → Exchanges none (.done c error :: log)

/-- A command that is begun in this step is sent. -/
def BegunSent (s : HuMain) : HuEvent → Prop
  | .send env =>
    match s.pc with
    | .send k => ∀ c ∈ huCmdTbl[k]?, c.uptype = .needAck → s.wait = none →
        (c.sendProc env s.fota).1.isSome → 0 < env.sent
    | .socket | .recv | .wait => True
  | .call _ | .socket _ _ _ _ | .recv _ _ _ | .wait _ => True

instance (s : HuMain) (e : HuEvent) : Decidable (BegunSent s e) := by
  cases e
  case send env =>
    unfold BegunSent
    cases s.pc <;> infer_instance
  all_goals exact instDecidableTrue

def HuReach (ok : HuMain → HuEvent → Prop) : HuMain → Prop :=
  Runs.Reach (· = .initial) (Runs.Guarded ok fun s e s' => huStep s e = some s')

/-- The exchanges are in order, a command that waits needs an answer, and a download is requested
only while its command waits. -/
structure ExchInv (s : HuMain) : Prop where
  exchanges : Exchanges s.wait s.log
  need : ∀ c ∈ s.wait, c.uptype = .needAck
  request : s.fota.state = .dldRequest → s.wait = some .dldRequest

theorem sendProc_state (c : HuCmd) (env : HuEnv) (f : HuFota)
    (h : (c.sendProc env f).2.state = .dldRequest) :
    f.state = .dldRequest ∨ c = .dldRequest ∧ (c.sendProc env f).1.isSome := by
  cases c with
  -- the only command that begins a download request, with a packet
  | dldRequest =>
    simp only [HuCmd.sendProc, huFotaDldRequestSend] at h
    split at h
    next ready =>
      refine .inr ⟨rfl, ?_⟩
      simp only [HuCmd.sendProc, huFotaDldRequestSend, if_pos ready, Option.isSome_some]
    next =>
      split at h
      · cases h
      · exact .inl h
  | dldConfirm | dldRestart | updRequest => exact .inl h
  | dldProcess | updProcess =>
    simp only [HuCmd.sendProc, processSend] at h
    split at h
    · split at h
      · cases h
      · exact .inl h
    · exact .inl h
  | dldFinish | updFinish | updWarn | rollupdFinish =>
    simp only [HuCmd.sendProc, stateSend] at h
    split at h <;> exact .inl h

theorem recvProc_state (c : HuCmd) (dat : UInt8) (env : HuEnv) (f : HuFota)
    (h : (c.recvProc dat env f).state = .dldRequest) : f.state = .dldRequest := by
  cases c with
  | dldConfirm =>
    simp only [HuCmd.recvProc] at h
    split at h
    · split at h
      · dsimp only at h
        split at h <;> cases h
      · cases h
    · exact h
  | dldRestart | updRequest =>
    simp only [HuCmd.recvProc] at h
    split at h
    · dsimp only at h
      split at h <;> cases h
    · exact h
  | dldRequest | dldProcess | dldFinish | updProcess | updFinish | updWarn | rollupdFinish => exact h

/-- Every command that needs an answer has a `done_proc`, and none leaves a download requested. -/
theorem doneProc_needAck {c : HuCmd} (need : c.uptype = .needAck) :
    ∃ done, c.doneProc = some done ∧ ∀ error env f, (done error env f).state ≠ .dldRequest := by
  cases c with
  | dldRequest =>
    refine ⟨_, rfl, fun error env f => ?_⟩
    unfold huFotaDldRequestDone
    split <;> nofun
  | dldFinish | updFinish | updWarn | rollupdFinish =>
    refine ⟨_, rfl, fun error env f state => ?_⟩
    cases state
  | dldConfirm | dldProcess | dldRestart | updRequest | updProcess => cases need

theorem ExchInv.finish {s : HuMain} (inv : ExchInv s) (error : Int) (env : HuEnv) :
    ExchInv (s.finish error env) ∧ (s.finish error env).wait = none := by
  cases waits : s.wait with
  | none =>
    have same : s.finish error env = s := by simp only [HuMain.finish, waits]
    exact ⟨same.symm ▸ inv, same.symm ▸ waits⟩
  | some c =>
    obtain ⟨done, has, leaves⟩ := doneProc_needAck (inv.need c waits)
    have exchanges := inv.exchanges
    have ended : s.finish error env =
        { s with fota := done error env s.fota, wait := none, log := .done c error :: s.log } := by
      simp only [HuMain.finish, waits, has]
    rw [waits] at exchanges
    rw [ended]
    exact ⟨⟨.done error exchanges, nofun, fun state => absurd state (leaves error env s.fota)⟩, rfl⟩

theorem ExchInv.reset {s : HuMain} (inv : ExchInv s) (env : HuEnv) : ExchInv (huReset env s) :=
  have ⟨inv, _⟩ := inv.finish huErrReset env
  ⟨inv.exchanges, inv.need, inv.request⟩

theorem ExchInv.goOn {s : HuMain} (inv : ExchInv s) (env : HuEnv) (next : HuPc) (ret : Int) :
    ExchInv (goOn env next (ret, s)) := by
  unfold Hu.goOn
  split
  · have reset := inv.reset env
    exact ⟨reset.exchanges, reset.need, reset.request⟩
  · exact ⟨inv.exchanges, inv.need, inv.request⟩

theorem ExchInv.check_socket {s : HuMain} (inv : ExchInv s) (env : HuEnv) (sock : HuSock)
    (listen error : Int) : ExchInv (huCheckSocket env sock listen error s).2 := by
  unfold huCheckSocket
  cases sock with
  | closed =>
    dsimp only
    split
    · split <;> exact ⟨inv.exchanges, inv.need, inv.request⟩
    · exact inv
  | opened => exact inv
  | other => exact inv

theorem ExchInv.fota {s : HuMain} (inv : ExchInv s) {fota : HuFota}
    (keeps : fota.state = .dldRequest → s.fota.state = .dldRequest) :
    ExchInv { s with fota } :=
  ⟨inv.exchanges, inv.need, fun state => inv.request (keeps state)⟩

theorem ExchInv.check_recv {s : HuMain} (inv : ExchInv s) (env : HuEnv) (retv : Int)
    (obuf : List UInt8) : ExchInv (huCheckRecv env retv obuf s).2 := by
  have received (c : HuCmd) : ExchInv { s with fota := c.recvProc (obuf.getD 6 0) env s.fota } :=
    inv.fota (recvProc_state c _ env s.fota)
  unfold huCheckRecv
  dsimp only
  split
  · exact inv
  · split
    · exact ⟨inv.exchanges, inv.need, inv.request⟩
    · split
      · exact inv
      next c found =>
        split
        · exact inv
        · split
          · split
            · exact ((received c).finish 0 env).1
            · exact inv
          · split
            next answered =>
              -- the acknowledged commands leave the state alone
              refine (received c).fota fun state => ?_
              rcases sendProc_state c env _ state with same | ⟨rfl, -⟩
              · exact same
              · exact absurd rfl answered
            · exact inv

theorem ExchInv.check_wait {s : HuMain} (inv : ExchInv s) (env : HuEnv) :
    ExchInv (huCheckWait env s).2 := by
  unfold huCheckWait
  dsimp only
  split
  · split
    · split
      · exact ⟨inv.exchanges, inv.need, inv.request⟩
      · have ended := (inv.finish huErrTimeout env).1
        exact ⟨ended.exchanges, ended.need, ended.request⟩
    · exact inv
  · exact inv

theorem ExchInv.check_send {s : HuMain} (inv : ExchInv s) (env : HuEnv) (c : HuCmd)
    (sent : c.uptype = .needAck → s.wait = none → (c.sendProc env s.fota).1.isSome → 0 < env.sent) :
    ExchInv (huCheckSend env c s).2 := by
  have state := sendProc_state c env s.fota
  unfold huCheckSend
  split
  next due =>
    cases run : c.sendProc env s.fota with
    | mk pack fota =>
    rw [run] at state sent
    cases pack with
    | none =>
      refine inv.fota fun requested => ?_
      rcases state requested with same | ⟨-, begun⟩
      · exact same
      · cases begun
    | some dat =>
      dsimp only
      split
      next need =>
        have free : s.wait = none := by simpa [HuCmd.due, need] using due
        have exchanges := inv.exchanges
        rw [free] at exchanges
        -- here the condition on the run is used: the command waits
        rw [if_pos (sent need free rfl)]
        refine ⟨.begun c exchanges, ?_, fun requested => ?_⟩
        · rintro _ ⟨⟩
          exact need
        · rcases state requested with same | ⟨rfl, -⟩
          · -- a download requested before: its command would wait
            rw [inv.request same] at free
            cases free
          · rfl
      next other =>
        refine ⟨inv.exchanges, inv.need, fun requested => ?_⟩
        rcases state requested with same | ⟨rfl, -⟩
        · exact inv.request same
        · exact absurd rfl other
  · exact inv

theorem exchInv_reach {s : HuMain} (reach : HuReach BegunSent s) : ExchInv s := by
  have starts : ∀ s, s = .initial → ExchInv s := by
    rintro _ rfl
    exact ⟨.start, nofun, nofun⟩
  have kept : ∀ s e s', ExchInv s →
      Runs.Guarded BegunSent (fun s e s' => huStep s e = some s') s e s' → ExchInv s' := by
    rintro s e s' inv ⟨ok, step⟩
    cases e with
    | call c =>
      cases step
      -- no other thread requests a download
      refine inv.fota fun state => ?_
      cases c <;> cases state
    | socket env sock listen error =>
      obtain ⟨-, step⟩ := Option.ite_none_right_eq_some.mp step
      cases step
      exact (inv.check_socket env sock listen error).goOn env _ _
    | recv env retv obuf =>
      obtain ⟨-, step⟩ := Option.ite_none_right_eq_some.mp step
      cases step
      exact (inv.check_recv env retv obuf).goOn env _ _
    | wait env =>
      obtain ⟨-, step⟩ := Option.ite_none_right_eq_some.mp step
      cases step
      exact (inv.check_wait env).goOn env _ _
    | send env =>
      simp only [huStep] at step
      split at step
      next k here =>
        simp only [BegunSent, here] at ok
        split at step
        next c entry =>
          cases step
          exact (inv.check_send env c (ok c entry)).goOn env _ _
        next =>
          cases step
          exact ⟨inv.exchanges, inv.need, inv.request⟩
      · cases step
  exact Runs.Reach.invariant starts kept reach

/-- If every command is sent when it is begun, each is ended exactly once before the next is begun,
and a download is requested only while its command is outstanding. -/
theorem exchange_completes {s : HuMain} (reach : HuReach BegunSent s) :
    Exchanges s.wait s.log ∧ (s.fota.state = .dldRequest → s.wait = some .dldRequest) :=
  have inv := exchInv_reach reach
  ⟨inv.exchanges, inv.request⟩

/-- The loop to the first command with a new request; `sent` is what `sock_send` returns. -/
def requested (sent : Int) : List HuEvent :=
  let env : HuEnv := ⟨1000, .newreq, 0, 0, 0, 0, sent⟩
  [.socket env .opened 0 0, .recv env 0 [], .wait env, .send env]

/-- The answer to a download request. -/
def answered : List HuEvent :=
  let env : HuEnv := ⟨1500, .newreq, 0, 0, 0, 0, 0⟩
  [.socket env .opened 0 0, .recv env 10 [0x0d, 0x05, 0x46, 0x41, 0x00, 0x01, 0x00, 0x40, 0x0d, 0x0a]]

theorem request_answered :
    ∃ s : HuMain, s.log = [.done .dldRequest 0, .begun .dldRequest] ∧ Exchanges s.wait s.log ∧
      (s.fota.state = .dldRequest → s.wait = some .dldRequest) := by
  have start : HuReach BegunSent .initial := .start rfl
  exact ⟨_, rfl, exchange_completes (start.run_checked (requested 10 ++ answered) rfl)⟩

/-- A request that cannot be sent is never ended, and the download stays requested. -/
theorem request_not_sent :
    ∃ s, HuReach (fun _ _ => True) s ∧ s.fota.state = .dldRequest ∧ s.wait = none ∧
      ¬ Exchanges s.wait s.log := by
  have start : HuReach (fun _ _ => True) .initial := .start rfl
  exact ⟨_, start.run_checked (requested (-1)) rfl, rfl, rfl, nofun⟩

end Hu
