import TBoxMpu.Base.Sock
import TBoxMpu.Gb32960.Store

/-!
# The GB32960 protocol thread

`gb32960_prot.c` over an arbitrary socket: the packets it sends and the steps of its main
loop, each with the socket calls it makes in the order it makes them. The socket is a
parameter (`SockApi`); `sock.c` is one instance of it.
-/

namespace Gb32960

open Sock

def protLogin : UInt8 := 0x01
def protLogout : UInt8 := 0x04
def protCaltime : UInt8 := 0x08

def gbSocketRsvd : Nat := 1024

/-- `sizeof(buf)` in `gb_do_report`. -/
def gbReportBufsz : Nat := 1280

/-! ### Socket interface -/

/-- The one function this thread passes as the sync argument of `sock_send`. -/
inductive GbSync
  | ackPack
  deriving DecidableEq, Repr

/-- The calls of `sock_api.h` the thread makes on its socket. `sync` also returns the
callback it ran. -/
structure SockApi (S : Type) where
  status : S → SockStat
  error : S → Bool
  bufsz : S → Int32
  send : S → List UInt8 → Option GbSync → Int × S
  sync : S → Int × Option GbSync × S
  open' : S → Int × S
  close : S → S

/-! ### State -/

/-- `rcvstep`; `none` is the step −1. -/
inductive GbRcvStep
  | none | head | length | data | check
  deriving DecidableEq, Repr

/-- `gb_stat_t`; `rcvbuf` holds the first `rcvlen` bytes of the receive buffer. -/
structure GbStat where
  online : Bool
  wait : UInt8
  retry : Nat
  waittime : Nat
  rcvbuf : List UInt8
  rcvstep : GbRcvStep
  datalen : Nat
  login : Bool
  suspend : Bool
  caltime : Bool
  can : Bool
  network : Bool
  deriving DecidableEq

/-- The static variables of `gb32960_prot.c`; `conntime` is the one of `gb_do_checksock`,
`hasAddr` says that an address is configured. -/
structure GbVars where
  vin : List UInt8
  iccid : List UInt8
  battcode : List UInt8
  hasAddr : Bool
  timeout : Nat
  regintv : Nat
  regdate : UInt16
  regseq : UInt16
  allowSleep : Bool
  conntime : Nat
  deriving DecidableEq

/-- `gb_main` after its `memset`. -/
def gbStatZero : GbStat where
  online := false
  wait := 0
  retry := 0
  waittime := 0
  rcvbuf := []
  rcvstep := .head
  datalen := 0
  login := false
  suspend := false
  caltime := false
  can := false
  network := false

/-- The variables `gb_init` leaves when nothing is configured. -/
def gbVarsInit : GbVars where
  vin := List.replicate 17 0
  iccid := List.replicate 20 0
  battcode := []
  hasAddr := false
  timeout := 5
  regintv := 0
  regdate := 0
  regseq := 0
  allowSleep := true
  conntime := 0

structure GbProt (S : Type) where
  stat : GbStat
  vars : GbVars
  store : GbStore
  sock : S

/-- `RTCTIME`. -/
structure RtcTime where
  year : UInt16
  mon : UInt8
  mday : UInt8
  hour : UInt8
  min : UInt8
  sec : UInt8
  deriving DecidableEq

/-! ### Packets -/

def gbChecksum (data : List UInt8) : UInt8 := data.foldl (· ^^^ ·) 0

def gbPackHead (vars : GbVars) (type dir : UInt8) : List UInt8 :=
  [0x23, 0x23, type, dir] ++ vars.vin ++ [0x01]

/-- What every packet adds to its head: data length, data unit and checksum. -/
def gbPackUnit (head data : List UInt8) : List UInt8 :=
  let buf := head ++ [UInt8.ofNat (data.length >>> 8), UInt8.ofNat data.length] ++ data
  buf ++ [gbChecksum (buf.drop 2)]

def gbPackReport (vars : GbVars) (rpt : GbPack) : List UInt8 :=
  gbPackUnit (gbPackHead vars (UInt8.ofNat rpt.type) 0xfe) rpt.data

def gbPackTime (time : RtcTime) : List UInt8 :=
  [(time.year - 2000).toUInt8, time.mon, time.mday, time.hour, time.min, time.sec]

/-- A new day restarts the login numbers. -/
def gbRegday (vars : GbVars) (time : RtcTime) : GbVars :=
  let date := UInt16.ofNat (time.mon.toNat * 100 + time.mday.toNat)
  if vars.regdate ≠ date then { vars with regdate := date, regseq := 1 } else vars

/-- The login packet, of the variables `gbRegday` leaves. -/
def gbPackLogin (vars : GbVars) (time : RtcTime) : List UInt8 :=
  gbPackUnit (gbPackHead vars protLogin 0xfe)
    (gbPackTime time ++ [(vars.regseq >>> 8).toUInt8, vars.regseq.toUInt8] ++ vars.iccid ++
      [1, UInt8.ofNat vars.battcode.length] ++ vars.battcode)

def gbPackLogout (vars : GbVars) (time : RtcTime) : List UInt8 :=
  let seq : UInt16 := if vars.regseq = 1 then 65531 else vars.regseq - 1
  gbPackUnit (gbPackHead vars protLogout 0xfe)
    (gbPackTime time ++ [(seq >>> 8).toUInt8, seq.toUInt8])

/-! ### The steps of the main loop

Each returns 0 to go on with the next step of the loop, and −1 to start over. -/

section Steps

variable {S : Type} (api : SockApi S)

def gbReset (st : GbProt S) : GbProt S :=
  { st with
    sock := api.close st.sock
    stat := { st.stat with
      wait := 0, online := false, retry := 0, waittime := 0,
      -- the receiver waits for the next head
      rcvstep := .none, rcvbuf := [], datalen := 0 } }

/-- `now` is `tm_get_time()`. -/
def gbDoChecksock (now : Nat) (st : GbProt S) : Int × GbProt S :=
  if !st.stat.network || !st.vars.hasAddr || st.vars.allowSleep then (-1, st)
  else match api.status st.sock with
    | .closed =>
      -- a failed attempt is repeated after the time-out
      if !st.stat.suspend && !gbDataNoreport st.store &&
          (st.vars.conntime == 0 || now - st.vars.conntime > 1000 * st.vars.timeout) then
        (-1, { st with
          sock := (api.open' st.sock).2
          vars := { st.vars with conntime := now } })
      else (-1, st)
    | .opened =>
      if api.error st.sock then (-1, gbReset api st)
      else
        -- the callback runs inside `sock_sync`, with the result still to come
        let (res, sync, sock) := api.sync st.sock
        let store := match sync with
          | some .ackPack => gbDataAckPack st.store
          | none => st.store
        let st := { st with sock, store }
        if res ≠ 0 then (-1, gbReset api st) else (0, st)
    | _ => (-1, st)

/-- What the control messages do with the result of `sock_send`. -/
def gbSendControl (msg : List UInt8) (sent : GbStat → GbStat) (st : GbProt S) : GbProt S :=
  let (res, sock) := api.send st.sock msg none
  let st := { st with sock }
  if res < 0 then gbReset api st
  -- no room: the message is tried again in the next round
  else if res = 0 then st
  else { st with stat := sent st.stat }

def gbDoWait (now : Nat) (time : RtcTime) (st : GbProt S) : Int × GbProt S :=
  if st.stat.wait = 0 then (0, st)
  else if now - st.stat.waittime > 1000 * st.vars.timeout then
    -- a login is not repeated here, but with a new connection
    if st.stat.wait = protLogin then
      (-1, gbReset api { st with stat := { st.stat with wait := 0 } })
    else
      let st := { st with stat := { st.stat with retry := st.stat.retry + 1 } }
      if st.stat.retry > 3 then
        -- an unanswered logout counts as done
        if st.stat.wait = protLogout then
          (-1, gbReset api { st with
            stat := { st.stat with login := false }
            vars := { st.vars with allowSleep := true } })
        else (-1, gbReset api st)
      else if st.stat.wait = protLogout then
        (-1, gbSendControl api (gbPackLogout st.vars time)
          (fun stat => { stat with waittime := now }) st)
      else (-1, st)
  else (-1, st)

def gbDoLogin (now : Nat) (time : RtcTime) (st : GbProt S) : Int × GbProt S :=
  if st.stat.online then (0, st)
  else if st.stat.waittime = 0 || now - st.stat.waittime > 1000 * st.vars.regintv then
    -- the day is checked also when the packet then cannot be sent
    let st := { st with vars := gbRegday st.vars time }
    (-1, gbSendControl api (gbPackLogin st.vars time)
      (fun stat => { stat with wait := protLogin, waittime := now }) st)
  else (-1, st)

def gbDoSuspend (st : GbProt S) : Int × GbProt S :=
  if st.stat.suspend && gbDataNosending st.store then (-1, gbReset api st) else (0, st)

/-- `gb_do_report` from the test of the socket buffer on, with the pack `rpt` in hand.
The buffer size is compared as an unsigned number. -/
def gbSendReport (rpt : GbNode) (st : GbProt S) : Int × GbProt S :=
  if gbReportBufsz + gbSocketRsvd ≤ (api.bufsz st.sock).toUInt32.toNat then
    -- the pack is in hand, on no list, during the call
    let (res, sock) := api.send st.sock (gbPackReport st.vars (st.store.pack rpt)) (some .ackPack)
    let st := { st with sock }
    if res < 0 then (-1, gbReset api { st with store := gbDataPutBack st.store rpt })
    else if res = 0 then (0, { st with store := gbDataPutBack st.store rpt })
    else (0, { st with store := gbDataPutSend st.store rpt })
  -- the branch returns with the pack still in hand
  else (0, st)

def gbDoReport (st : GbProt S) : Int × GbProt S :=
  match gbDataGetPack st.store with
  -- nothing to report
  | none => (0, st)
  | some (rpt, store) => gbSendReport api rpt { st with store }

def gbDoLogout (now : Nat) (time : RtcTime) (st : GbProt S) : Int × GbProt S :=
  if !st.stat.can && gbDataNosending st.store then
    (-1, gbSendControl api (gbPackLogout st.vars time)
      (fun stat => { stat with wait := protLogout, waittime := now }) st)
  else (0, st)

/-! ### Messages -/

/-- The settings of `gb_do_config`, as far as the protocol uses them. -/
inductive GbCfg
  | addr (hasAddr : Bool)
  | vin (vin : List UInt8)
  | regintv (regintv : Nat)
  | timeout (timeout : Nat)

inductive GbMsg
  | network (on : Bool)
  | emergence (set : Bool)
  | can (on : Bool)
  | suspend (on : Bool)
  | config (cfg : GbCfg)

/-- `gb_do_config` once the setting is saved. -/
def gbDoConfig (cfg : GbCfg) (st : GbProt S) : GbProt S :=
  match cfg with
  | .addr hasAddr => gbReset api { st with vars := { st.vars with hasAddr } }
  | .vin vin => gbReset api { st with vars := { st.vars with vin } }
  | .regintv regintv => { st with vars := { st.vars with regintv } }
  | .timeout timeout => { st with vars := { st.vars with timeout } }

/-- The message switch of `gb_main`. -/
def gbHandleMsg (msg : GbMsg) (st : GbProt S) : GbProt S :=
  match msg with
  | .network on =>
    -- told twice, the network does not reset the session again
    if st.stat.network ≠ on then
      let st := gbReset api st
      { st with stat := { st.stat with network := on } }
    else st
  | .emergence set => { st with store := gbDataEmergence st.store set }
  | .can on =>
    { st with
      stat := { st.stat with can := on }
      -- a logged-in session keeps the module awake until its logout
      vars := { st.vars with allowSleep := !on && !st.stat.online } }
  | .suspend on => { st with stat := { st.stat with suspend := on } }
  | .config cfg => gbDoConfig api cfg st

/-! ### Received packets -/

/-- One round of the loop of `gb_do_receive` with a complete packet: the result and the
state. Of the error ring that a first login clears nothing is modelled here. -/
def gbHandlePack (pack : List UInt8) (st : GbProt S) : Int × GbProt S :=
  if pack.getLast? ≠ some (gbChecksum ((pack.drop 2).dropLast)) then (0, st)
  else
    let type := pack.getD 2 0
    let ack := pack.getD 3 0
    if type = protLogin then
      -- an answer nobody waits for
      if st.stat.wait ≠ protLogin then (0, st)
      else
        let st := { st with stat := { st.stat with wait := 0 } }
        -- refused: the session stays offline and waits for nothing
        if ack ≠ 0x01 then (0, st)
        else
          let st := { st with stat := { st.stat with online := true } }
          let st :=
            -- a session that goes on sends again what was not acknowledged
            if st.stat.login then
              { st with store := gbDataFlushRealtm (gbDataFlushSending st.store) }
            else
              { st with
                store := gbDataClearReport st.store
                stat := { st.stat with login := true } }
          -- the number counts up only when a login succeeds
          let regseq := st.vars.regseq + 1
          (0, { st with vars := { st.vars with regseq := if regseq > 65531 then 1 else regseq } })
    else if type = protLogout then
      if st.stat.wait ≠ protLogout then (0, st)
      else if ack ≠ 0x01 then (0, st)
      else
        let st := gbReset api st
        (-1, { st with
          stat := { st.stat with login := false }
          vars := { st.vars with allowSleep := true } })
    else if type = protCaltime then
      if st.stat.wait ≠ protCaltime then (0, st)
      else if ack ≠ 0x01 then (0, st)
      else (0, { st with stat := { st.stat with wait := 0, caltime := false } })
    -- the query, setup and control handlers return 0, as do unknown packets
    else (0, st)

end Steps

end Gb32960
