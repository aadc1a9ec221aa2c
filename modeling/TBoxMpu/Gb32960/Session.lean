import TBoxMpu.Gb32960.Ownership
import TBoxMpu.Gb32960.Protocol
import TBoxMpu.Lib.Runs

/-!
# Sessions with the GB32960 server

The protocol thread on its socket of `sock.c`, with the CAN thread saving reports and the
kernel acknowledging bytes at any point between two of its steps. `gb_do_report` is two
steps, since the CAN thread can run while it holds the pack.
-/

namespace Gb32960

open Sock Runs

/-- `sock.c` as the socket of the protocol thread, with the answers of the system. -/
def sockApi (env : SockEnv) : SockApi (SockT GbSync) where
  status := SockT.stat
  error _ := env.error
  bufsz := sockBufsz env
  send sock buf sync := (sockSend env sock buf.length sync).get (sockSend_isSome ..)
  sync := sockSync env
  open' := sockOpen env
  close := sockClose

/-- What happened on the way, kept for the statements only. Reports are numbered as they
are saved: `stamp n` is the report in the node `n`. `sends` are the reports whose bytes
this connection has taken, each with the number of bytes sent up to its last one, and
`acks` those that `gb_data_ack_pack` freed since the connection was made. -/
structure GbHistory where
  sends : List (Nat × Nat)
  acks : List Nat
  stamp : GbNode → Nat
  clock : Nat

structure GbSession where
  prot : GbProt (SockT GbSync)
  held : Option GbNode
  hist : GbHistory

/-- The steps of a session. Those from `checksock` on are the functions of the main loop;
`receive` is one complete packet in `gb_do_receive`. -/
inductive GbEvent
  | saveRealtm (groups : List (List UInt8))
  | loadDbc
  | connected (ok : Bool)
  | acknowledged (upto : Nat)
  | message (env : SockEnv) (msg : GbMsg)
  | checksock (env : SockEnv)
  | receive (env : SockEnv) (pack : List UInt8)
  | wait (env : SockEnv) (time : RtcTime)
  | login (env : SockEnv) (time : RtcTime)
  | suspended (env : SockEnv)
  | getPack
  | sendPack (env : SockEnv)
  | logout (env : SockEnv) (time : RtcTime)

/-- The stamps after `gb_data_save_realtm`, round by round. -/
def GbHistory.saved (hist : GbHistory) (s : GbStore) (i : Nat) :
    List (List UInt8) → GbHistory
  | [] => hist
  | data :: rest =>
    match gbTakeBuffer s, gbSaveOne s i data with
    | some (node, _), some s =>
      GbHistory.saved { hist with
        stamp := Function.update hist.stamp node hist.clock
        clock := hist.clock + 1 } s (i + 1) rest
    -- without a buffer the call fails
    | _, _ => hist

/-- A step of the protocol thread that leaves the history alone. -/
def GbSession.prots (t : GbSession) (prot : GbProt (SockT GbSync)) : Option GbSession :=
  if t.held = none then some { t with prot } else none

def gbEventStep (t : GbSession) : GbEvent → Option GbSession
  | .saveRealtm groups => (gbDataSaveRealtm t.prot.store groups).map fun store =>
    { t with
      prot := { t.prot with store }
      hist := t.hist.saved t.prot.store 0 groups }
  | .loadDbc =>
    some { t with prot := { t.prot with store := gbDataClearReport t.prot.store } }
  | .connected ok =>
    if t.prot.sock.stat = .inprog then
      some { t with
        prot := { t.prot with sock := sockFinish ok t.prot.sock }
        hist := if ok then { t.hist with sends := [], acks := [] } else t.hist }
    else none
  -- the peer acknowledges in order, and only what was sent
  | .acknowledged upto =>
    let conn := t.prot.sock.conn
    if conn.acked ≤ upto ∧ upto ≤ conn.sent then
      some { t with prot := { t.prot with
        sock := { t.prot.sock with conn := { conn with acked := upto } } } }
    else none
  | .message env msg => t.prots (gbHandleMsg (sockApi env) msg t.prot)
  | .checksock env =>
    let prot := (gbDoChecksock (sockApi env) env.now t.prot).2
    let trans := t.prot.store.lists .trans
    if t.held = none then
      some { t with
        prot
        hist := { t.hist with
          acks := t.hist.acks ++
            (trans.take (trans.length - (prot.store.lists .trans).length)).map t.hist.stamp } }
    else none
  | .receive env pack =>
    -- `sock_recv` fails on a socket that is not open
    if t.prot.sock.stat = .opened then t.prots (gbHandlePack (sockApi env) pack t.prot).2
    else none
  | .wait env time => t.prots (gbDoWait (sockApi env) env.now time t.prot).2
  | .login env time => t.prots (gbDoLogin (sockApi env) env.now time t.prot).2
  | .suspended env => t.prots (gbDoSuspend (sockApi env) t.prot).2
  | .getPack =>
    -- reached when `gb_do_login` has nothing left to do
    if t.held = none ∧ t.prot.stat.online = true then
      match gbDataGetPack t.prot.store with
      | none => some t
      | some (rpt, store) => some { t with prot := { t.prot with store }, held := some rpt }
    else none
  | .sendPack env =>
    match t.held with
    | none => none
    | some rpt =>
      let prot := (gbSendReport (sockApi env) rpt t.prot).2
      -- the pack is in transmission exactly if its message was taken
      let sent := (t.prot.store.lists .trans).length < (prot.store.lists .trans).length
      some { t with
        prot
        held := none
        hist := if sent then
          { t.hist with sends := t.hist.sends ++ [(t.hist.stamp rpt, prot.sock.conn.sent)] }
          else t.hist }
  | .logout env time => t.prots (gbDoLogout (sockApi env) env.now time t.prot).2

/-- A start of the protocol: nothing configured or received, no connection, and the report
lists cleared for the first time. -/
structure GbIdle (t : GbSession) : Prop where
  stat : t.prot.stat = gbStatZero
  sock : t.prot.sock.stat = .closed
  lists : ∀ l, t.prot.store.lists l = if l = .free then List.finRange gbMaxReport else []
  calm : t.prot.store.emerg = false
  held : t.held = none
  hist : t.hist.sends = [] ∧ t.hist.acks = []

/-! ### Steps that handle no report -/

/-- What the steps without a report can do to the socket: the thread gives the session up,
does nothing, or queues a control message. -/
inductive Quiet (st st' : GbProt (SockT GbSync)) : Prop
  | reset : st'.stat.online = false →
      st'.sock.stat = .closed ∨ st'.sock = st.sock ∧ st.sock.stat ≠ .opened →
      st'.sock.conn.acked = st.sock.conn.acked → Quiet st st'
  | same : st'.stat.online = st.stat.online → st'.sock = st.sock → Quiet st st'
  | queued (len : Nat) (owner : SyncList) : st'.stat.online = st.stat.online →
      st.sock.stat = .opened → st'.sock.stat = .opened → st'.sock.Wf →
      st'.sock.conn.acked = st.sock.conn.acked →
      st'.sock.conn.sent = st.sock.conn.sent + len →
      st'.sock.pending = st.sock.pending ++ [⟨len, none, owner⟩] → Quiet st st'

/-- A socket that is open, or being opened, is in order. -/
def SockOk (sock : SockT GbSync) : Prop := sock.stat = .opened ∨ sock.stat = .inprog → sock.Wf

variable {env : SockEnv} {st : GbProt (SockT GbSync)}

/-- The session is given up and the socket closed. -/
theorem Quiet.closed {st st' : GbProt (SockT GbSync)} (offline : st'.stat.online = false)
    (sock : st'.sock = sockClose st.sock) : Quiet st st' := by
  refine .reset offline ?_ ?_ <;> rw [sock, sockClose] <;> split
  -- the socket was open, or was not
  next => exact .inl rfl
  next closed => exact .inr ⟨rfl, closed⟩
  next => rfl
  next => rfl

/-- `sock_send` as the protocol thread sees it. -/
theorem sockApi_send (ok : SockOk st.sock) (env : SockEnv) (msg : List UInt8)
    (sync : Option GbSync) {r : Int × SockT GbSync}
    (h : (sockApi env).send st.sock msg sync = r) :
    r.2.stat = st.sock.stat ∧ r.2.conn.acked = st.sock.conn.acked ∧
    ((r.1 ≤ 0 ∧ r.2 = st.sock) ∨ (r.1 < 0 ∧ st.sock.stat = .opened) ∨
      (r.1 = msg.length ∧ st.sock.stat = .opened ∧ r.2.Wf ∧
        r.2.conn.sent = st.sock.conn.sent + msg.length ∧
        ∃ owner, r.2.pending = st.sock.pending ++ [⟨msg.length, sync, owner⟩])) := by
  have result : sockSend env st.sock msg.length sync = some r := by
    rw [← h]
    simp [sockApi]
  -- a socket that is not open refuses, and need not be in order
  by_cases opened : st.sock.stat = .opened
  · obtain ⟨wf, stat, acked, cases⟩ := (ok (.inl opened)).sockSend result
    exact ⟨stat, acked, cases.imp_right (Or.imp_right fun ⟨res, opened, sent, pending⟩ =>
      ⟨res, opened, wf, sent, pending⟩)⟩
  · rw [sockSend, if_pos opened] at result
    obtain rfl := Option.some.inj result
    exact ⟨rfl, rfl, .inl ⟨(by decide : (-1 : Int) ≤ 0), rfl⟩⟩

theorem gbSendControl_quiet (ok : SockOk st.sock) (msg : List UInt8)
    (sent : GbStat → GbStat) (online : ∀ stat, (sent stat).online = stat.online) :
    Quiet st (gbSendControl (sockApi env) msg sent st) := by
  unfold gbSendControl
  obtain ⟨stat, acked, cases⟩ := sockApi_send ok env msg none rfl
  generalize (sockApi env).send st.sock msg none = r at stat acked cases
  obtain ⟨res, sock⟩ := r
  dsimp only at stat acked cases ⊢
  -- refused, cut short, or queued
  rcases cases with ⟨refused, rfl⟩ | ⟨failed, opened⟩ | ⟨rfl, opened, wf, bytes, owner, pending⟩
  · split
    · exact .closed rfl rfl
    next working =>
      rw [if_pos (le_antisymm refused (Int.not_lt.mp working))]
      exact .same rfl rfl
  · rw [if_pos failed]
    refine .reset rfl (.inl ?_) ?_ <;> simp [gbReset, sockApi, sockClose, stat, opened, acked]
  · rw [if_neg (Int.not_lt.mpr (Int.natCast_nonneg _))]
    split
    · exact .queued _ owner rfl opened (stat.trans opened) wf acked bytes pending
    · exact .queued _ owner (online _) opened (stat.trans opened) wf acked bytes pending

/-- A step that handles no report. A login is awaited only while offline. -/
structure Control (st st' : GbProt (SockT GbSync)) : Prop where
  quiet : Quiet st st'
  store : st'.store = st.store
  wait : (st.stat.wait = protLogin → st.stat.online = false) →
    st'.stat.wait = protLogin → st'.stat.online = false

theorem control_refl (st : GbProt (SockT GbSync)) : Control st st :=
  ⟨.same rfl rfl, rfl, id⟩

theorem Control.closed {st st' : GbProt (SockT GbSync)} (offline : st'.stat.online = false)
    (sock : st'.sock = sockClose st.sock) (store : st'.store = st.store) : Control st st' :=
  ⟨.closed offline sock, store, fun _ _ => offline⟩

/-- A step that only changes settings or flags. -/
theorem Control.flags {st st' : GbProt (SockT GbSync)} (online : st'.stat.online = st.stat.online)
    (wait : st'.stat.wait = st.stat.wait ∨ st'.stat.wait = 0) (sock : st'.sock = st.sock)
    (store : st'.store = st.store) : Control st st' := by
  refine ⟨.same online sock, store, fun old awaited => ?_⟩
  rw [online]
  rcases wait with same | none
  · exact old (same ▸ awaited)
  · exact absurd (none ▸ awaited) (by decide)

/-- A step from a state that differs in settings and flags only. -/
theorem Control.flagsFirst {st st₁ st' : GbProt (SockT GbSync)} (control : Control st₁ st')
    (stat : st₁.stat.online = st.stat.online ∧ st₁.stat.wait = st.stat.wait)
    (sock : st₁.sock = st.sock) (store : st₁.store = st.store) : Control st st' := by
  obtain ⟨quiet, kept, wait⟩ := control
  refine ⟨?_, kept.trans store, ?_⟩
  · cases quiet with
    | reset offline closed acked => exact .reset offline (sock ▸ closed) (sock ▸ acked)
    | same online same => exact .same (online.trans stat.1) (same.trans sock)
    | queued len owner online opened still wf acked sent pending =>
      rw [sock] at opened acked sent pending
      exact .queued len owner (online.trans stat.1) opened still wf acked sent pending
  · rwa [stat.1, stat.2] at wait

/-- A control message keeps what is awaited, or the thread awaits its answer. -/
theorem gbSendControl_control (ok : SockOk st.sock) (msg : List UInt8) (sent : GbStat → GbStat)
    (online : ∀ stat, (sent stat).online = stat.online)
    (wait : (sent st.stat).wait = protLogin →
      st.stat.online = false ∨ st.stat.wait = protLogin) :
    Control st (gbSendControl (sockApi env) msg sent st) := by
  refine ⟨gbSendControl_quiet ok msg sent online, ?_, ?_⟩ <;> unfold gbSendControl <;>
    dsimp only <;> split
  · rfl
  · split <;> rfl
  · exact fun _ _ => rfl
  · split
    · exact id
    · intro old awaited
      rw [online]
      rcases wait awaited with offline | awaiting
      · exact offline
      · exact old awaiting

theorem gbHandleMsg_control {msg : GbMsg} (calm : ∀ set, msg ≠ .emergence set) :
    Control st (gbHandleMsg (sockApi env) msg st) := by
  cases msg with
  | network on =>
    unfold gbHandleMsg
    dsimp only
    split
    · exact .closed rfl rfl rfl
    · exact control_refl st
  | emergence set => exact absurd rfl (calm set)
  | can on => exact .flags rfl (.inl rfl) rfl rfl
  | suspend on => exact .flags rfl (.inl rfl) rfl rfl
  | config cfg =>
    cases cfg with
    | addr hasAddr => exact .closed rfl rfl rfl
    | vin vin => exact .closed rfl rfl rfl
    | regintv regintv => exact .flags rfl (.inl rfl) rfl rfl
    | timeout timeout => exact .flags rfl (.inl rfl) rfl rfl

theorem gbDoWait_control (ok : SockOk st.sock) (now : Nat) (time : RtcTime) :
    Control st (gbDoWait (sockApi env) now time st).2 := by
  unfold gbDoWait
  split
  · exact control_refl st
  split
  · split
    · exact .closed rfl rfl rfl
    dsimp only
    split
    · split <;> exact .closed rfl rfl rfl
    split
    next logout =>
      dsimp only
      refine Control.flagsFirst (gbSendControl_control ?_ _ _ ?_ ?_) ⟨rfl, rfl⟩ rfl rfl
      · exact ok
      · exact fun _ => rfl
      · exact .inr
    · exact .flags rfl (.inl rfl) rfl rfl
  · exact control_refl st

theorem gbDoLogin_control (ok : SockOk st.sock) (now : Nat) (time : RtcTime) :
    Control st (gbDoLogin (sockApi env) now time st).2 := by
  unfold gbDoLogin
  split
  · exact control_refl st
  next offline =>
    split
    · dsimp only
      refine Control.flagsFirst (gbSendControl_control ?_ _ _ ?_ ?_) ⟨rfl, rfl⟩ rfl rfl
      · exact ok
      · exact fun _ => rfl
      · exact fun _ => .inl (by simpa using offline)
    · exact control_refl st

theorem gbDoSuspend_control : Control st (gbDoSuspend (sockApi env) st).2 := by
  unfold gbDoSuspend
  split
  · exact .closed rfl rfl rfl
  · exact control_refl st

theorem gbDoLogout_control (ok : SockOk st.sock) (now : Nat) (time : RtcTime) :
    Control st (gbDoLogout (sockApi env) now time st).2 := by
  unfold gbDoLogout
  split
  · dsimp only
    refine gbSendControl_control ?_ _ _ ?_ ?_
    · exact ok
    · exact fun _ => rfl
    · exact fun awaited => absurd awaited (by decide : ¬ protLogout = protLogin)
  · exact control_refl st

/-! ### Steps that handle reports -/

/-- `gb_do_checksock` opens the socket, runs `sock_sync`, or handles no report. -/
theorem gbDoChecksock_cases (env : SockEnv) (ok : SockOk st.sock) (now : Nat) :
    let st' := (gbDoChecksock (sockApi env) now st).2
    Control st st' ∨
    (st.sock.stat = .closed ∧ st'.sock = (sockOpen env st.sock).2 ∧ st'.stat = st.stat ∧
      st'.store = st.store) ∨
    (st.sock.stat = .opened ∧ ∃ sync rest, st.sock.pending = sync :: rest ∧
      sync.len ≤ st.sock.sendsz - st.sock.conn.unacksz ∧ st'.stat = st.stat ∧
      st'.store = (match sync.sync with
        | some .ackPack => gbDataAckPack st.store
        | none => st.store) ∧
      st'.sock.Wf ∧ st'.sock.stat = .opened ∧ st'.sock.conn = st.sock.conn ∧
      st'.sock.pending = rest) := by
  dsimp only
  unfold gbDoChecksock
  split
  · exact .inl (control_refl st)
  have api : (sockApi env).status st.sock = st.sock.stat := rfl
  split
  next closed =>
    split
    · exact .inr (.inl ⟨api ▸ closed, rfl, rfl, rfl⟩)
    · exact .inl (control_refl st)
  next opened =>
    rw [api] at opened
    split
    -- a socket with an error is closed
    · exact .inl (.closed rfl rfl rfl)
    have result : (sockApi env).sync st.sock = sockSync env st.sock := rfl
    rw [result]
    rcases (ok (.inl opened)).sockSync rfl with ⟨none, same⟩ |
      ⟨-, sync, rest, content, acked, res, callback, wf, still, conn, pending⟩
    · generalize sockSync env st.sock = r at none same
      obtain ⟨res, sync, sock⟩ := r
      obtain rfl : sync = Option.none := none
      obtain rfl : sock = st.sock := same
      dsimp only
      split
      · exact .inl (.closed rfl rfl rfl)
      · exact .inl (.flags rfl (.inl rfl) rfl rfl)
    · refine .inr (.inr ⟨opened, sync, rest, content, acked, ?_⟩)
      generalize sockSync env st.sock = r at res callback wf still conn pending
      obtain ⟨res', callback', sock⟩ := r
      obtain rfl : res' = 0 := res
      obtain rfl : callback' = sync.sync := callback
      exact ⟨rfl, rfl, wf, still, conn, pending⟩
  · exact .inl (control_refl st)

/-- The accepted answer to a login. -/
structure LoginAccepted (st : GbProt (SockT GbSync)) (pack : List UInt8) : Prop where
  checksum : pack.getLast? = some (gbChecksum ((pack.drop 2).dropLast))
  type : pack.getD 2 0 = protLogin
  ack : pack.getD 3 0 = 0x01
  awaited : st.stat.wait = protLogin

/-- A received packet is the accepted answer to a login, or has nothing to do with
reports. -/
theorem gbHandlePack_cases (env : SockEnv) (st : GbProt (SockT GbSync)) (pack : List UInt8) :
    let st' := (gbHandlePack (sockApi env) pack st).2
    Control st st' ∨
    (LoginAccepted st pack ∧ st'.stat.online = true ∧ st'.stat.wait = 0 ∧ st'.sock = st.sock ∧
      st'.store = (if st.stat.login = true then gbDataFlushRealtm (gbDataFlushSending st.store)
        else gbDataClearReport st.store)) := by
  dsimp only
  unfold gbHandlePack
  split
  · exact .inl (control_refl st)
  next checksum =>
    simp only [ne_eq, Decidable.not_not] at checksum
    dsimp only
    split
    next type =>
      split
      · exact .inl (control_refl st)
      next awaited =>
        simp only [ne_eq, Decidable.not_not] at awaited
        split
        · exact .inl (.flags rfl (.inr rfl) rfl rfl)
        next ack =>
          simp only [ne_eq, Decidable.not_not] at ack
          refine .inr ⟨⟨checksum, type, ack, awaited⟩, ?_⟩
          split <;> exact ⟨rfl, rfl, rfl, rfl⟩
    split
    · split
      · exact .inl (control_refl st)
      split
      · exact .inl (control_refl st)
      · exact .inl (.closed rfl rfl rfl)
    split
    · split
      · exact .inl (control_refl st)
      split
      · exact .inl (control_refl st)
      · exact .inl (.flags rfl (.inr rfl) rfl rfl)
    · exact .inl (control_refl st)

theorem gbPackReport_length_pos (vars : GbVars) (rpt : GbPack) :
    0 < (gbPackReport vars rpt).length := by
  simp [gbPackReport, gbPackUnit]

/-- `gb_do_report` with a pack in hand: no room, the pack put back, or its bytes queued
with the callback and the pack on the transmit list. -/
theorem gbSendReport_steps (env : SockEnv) (ok : SockOk st.sock) (rpt : GbNode)
    {st' : GbProt (SockT GbSync)} (h : (gbSendReport (sockApi env) rpt st).2 = st') :
    st' = st ∨ Control { st with store := gbDataPutBack st.store rpt } st' ∨
    (st'.store = gbDataPutSend st.store rpt ∧ st'.stat = st.stat ∧ st.sock.stat = .opened ∧
      st'.sock.stat = .opened ∧ st'.sock.Wf ∧ st'.sock.conn.acked = st.sock.conn.acked ∧
      ∃ len owner, st'.sock.conn.sent = st.sock.conn.sent + len ∧
        st'.sock.pending = st.sock.pending ++ [⟨len, some .ackPack, owner⟩]) := by
  unfold gbSendReport at h
  by_cases room : gbReportBufsz + gbSocketRsvd ≤ ((sockApi env).bufsz st.sock).toUInt32.toNat
  · rw [if_pos room] at h
    have long := gbPackReport_length_pos st.vars (st.store.pack rpt)
    generalize gbPackReport st.vars (st.store.pack rpt) = buf at h long
    obtain ⟨stat, acked, cases⟩ := sockApi_send ok env buf (some .ackPack) rfl
    generalize (sockApi env).send st.sock buf (some .ackPack) = r at h stat acked cases
    obtain ⟨res, sock⟩ := r
    dsimp only at h stat acked cases
    subst h
    rcases cases with ⟨refused, rfl⟩ | ⟨failed, opened⟩ | ⟨rfl, opened, wf, sent, owner, pending⟩
    · split
      · exact .inr (.inl (.closed rfl rfl rfl))
      next working =>
        rw [if_pos (le_antisymm refused (Int.not_lt.mp working))]
        exact .inr (.inl (.flags rfl (.inl rfl) rfl rfl))
    · rw [if_pos failed]
      refine .inr (.inl ⟨.reset rfl (.inl ?_) ?_, rfl, fun _ _ => rfl⟩) <;>
        simp [gbReset, sockApi, sockClose, stat, opened, acked]
    · rw [if_neg (Int.not_lt.mpr (Int.natCast_nonneg _)), if_neg (by omega)]
      exact .inr (.inr ⟨rfl, rfl, opened, stat.trans opened, wf, acked, _, owner, sent, pending⟩)
  · rw [if_neg room] at h
    exact .inl h.symm

/-! ### What every session keeps -/

/-- The socket is in order, reports are only sent on an open connection, and a login is
only awaited while offline. -/
structure ProtInv (st : GbProt (SockT GbSync)) : Prop where
  ok : SockOk st.sock
  fresh : st.sock.stat = .inprog → st.sock.pending = []
  online : st.stat.online = true → st.sock.stat = .opened
  wait : st.stat.wait = protLogin → st.stat.online = false

/-- No node is on two lists, or on a list and held. A node the sender lost is gone. -/
structure SessionInv (t : GbSession) : Prop where
  prot : ProtInv t.prot
  held : t.held ≠ none → t.prot.stat.online = true
  owned : ∃ lost, Owned t.prot.store (t.held.toList ++ lost)
  tmp : t.prot.store.lists .tmplst = []

theorem ProtInv.control (inv : ProtInv st) {st' : GbProt (SockT GbSync)}
    (control : Control st st') : ProtInv st' := by
  have wait := control.wait inv.wait
  cases control.quiet with
  | reset offline closed acked =>
    refine ⟨?_, ?_, fun online => absurd (offline.symm.trans online) nofun, wait⟩
    · rcases closed with closed | ⟨same, -⟩
      · rintro (opened | inprog)
        · exact absurd (closed.symm.trans opened) nofun
        · exact absurd (closed.symm.trans inprog) nofun
      · rw [same]; exact inv.ok
    · rcases closed with closed | ⟨same, -⟩
      · exact fun inprog => absurd (closed.symm.trans inprog) nofun
      · rw [same]; exact inv.fresh
  | same online sock =>
    exact ⟨sock ▸ inv.ok, sock ▸ inv.fresh, fun on => sock ▸ inv.online (online ▸ on), wait⟩
  | queued len owner online opened still wf acked sent pending =>
    exact ⟨fun _ => wf, fun inprog => absurd (still.symm.trans inprog) nofun,
      fun _ => still, wait⟩

theorem sessionInv_idle {t : GbSession} (idle : GbIdle t) : SessionInv t := by
  obtain ⟨stat, closed, lists, -, held, -⟩ := idle
  refine ⟨⟨?_, ?_, ?_, ?_⟩, fun h => absurd held h, ⟨[], ?_⟩, by simp [lists]⟩
  · rintro (opened | inprog)
    · exact absurd (closed.symm.trans opened) nofun
    · exact absurd (closed.symm.trans inprog) nofun
  · exact fun inprog => absurd (closed.symm.trans inprog) nofun
  · exact fun online => absurd online (by rw [stat]; decide)
  · exact fun _ => by rw [stat]; rfl
  · refine ⟨fun n => ?_, fun n off => ?_⟩
    · simp [owners, lists, held, List.count_eq_one_of_mem, List.nodup_finRange]
    · simp [lists] at off

private theorem sockOk_open (env : SockEnv) {sock : SockT GbSync} (closed : sock.stat = .closed) :
    SockOk (sockOpen env sock).2 := by
  intro _
  unfold sockOpen
  rw [if_neg (by simp [closed])]
  have wf := wf_sockCleanup sock
  split <;> exact ⟨wf.parted, wf.home, wf.usedOwner, wf.pendingSize⟩

private theorem pending_open (env : SockEnv) {sock : SockT GbSync} (closed : sock.stat = .closed) :
    (sockOpen env sock).2.pending = [] := by
  unfold sockOpen
  rw [if_neg (by simp [closed])]
  split <;> rfl

variable {t t' : GbSession}

/-- The next state of a step of the protocol thread without a pack in hand. -/
theorem prots_some {prot : GbProt (SockT GbSync)} (h : t.prots prot = some t') :
    t.held = none ∧ t' = { t with prot } := by
  unfold GbSession.prots at h
  split at h
  next idle => exact ⟨idle, (Option.some.inj h).symm⟩
  · cases h

theorem SessionInv.control (inv : SessionInv t) {prot : GbProt (SockT GbSync)}
    (control : Control t.prot prot) (h : t.prots prot = some t') : SessionInv t' := by
  obtain ⟨idle, rfl⟩ := prots_some h
  obtain ⟨lost, owned⟩ := inv.owned
  exact ⟨inv.prot.control control, fun held => absurd idle held, ⟨lost, control.store ▸ owned⟩,
    control.store ▸ inv.tmp⟩

/-- The emergency flag matters for no invariant of the lists. -/
theorem SessionInv.emergence (inv : SessionInv t) (set : Bool) : SessionInv
    { t with prot := { t.prot with store := gbDataEmergence t.prot.store set } } := by
  obtain ⟨lost, owned⟩ := inv.owned
  exact ⟨⟨inv.prot.ok, inv.prot.fresh, inv.prot.online, inv.prot.wait⟩, inv.held,
    ⟨lost, owned.once, owned.home⟩, inv.tmp⟩

/-- A message sets the emergency flag or handles no report. -/
theorem message_cases {env : SockEnv} {msg : GbMsg}
    (step : gbEventStep t (.message env msg) = some t') :
    (∃ set, msg = .emergence set ∧ t' =
      { t with prot := { t.prot with store := gbDataEmergence t.prot.store set } }) ∨
    ∃ prot, Control t.prot prot ∧ t.prots prot = some t' := by
  by_cases calm : ∀ set, msg ≠ .emergence set
  · exact .inr ⟨_, gbHandleMsg_control calm, step⟩
  · obtain ⟨set, emergence⟩ := not_forall.mp calm
    obtain rfl := not_not.mp emergence
    exact .inl ⟨set, rfl, (prots_some step).2⟩

theorem getPack_cases (step : gbEventStep t .getPack = some t') :
    t.held = none ∧ t.prot.stat.online = true ∧ (t' = t ∨ ∃ rpt store,
      gbDataGetPack t.prot.store = some (rpt, store) ∧
        t' = { t with prot := { t.prot with store }, held := some rpt }) := by
  simp only [gbEventStep, Option.ite_none_right_eq_some] at step
  obtain ⟨⟨idle, online⟩, step⟩ := step
  refine ⟨idle, online, ?_⟩
  split at step
  · exact .inl (Option.some.inj step).symm
  next rpt store got => exact .inr ⟨rpt, store, got, (Option.some.inj step).symm⟩

theorem sendPack_cases {env : SockEnv} (step : gbEventStep t (.sendPack env) = some t') :
    ∃ rpt prot, t.held = some rpt ∧ prot = (gbSendReport (sockApi env) rpt t.prot).2 ∧
      t' = ⟨prot, none,
        if (t.prot.store.lists .trans).length < (prot.store.lists .trans).length then
          { t.hist with sends := t.hist.sends ++ [(t.hist.stamp rpt, prot.sock.conn.sent)] }
        else t.hist⟩ := by
  cases held : t.held with
  | none => simp [gbEventStep, held] at step
  | some rpt =>
    simp only [gbEventStep, held, Option.some.injEq] at step
    exact ⟨rpt, _, rfl, rfl, step.symm⟩

/-- A refused pack goes back on its home list. -/
theorem SessionInv.putBack (inv : SessionInv t) {rpt : GbNode} (held : t.held = some rpt) :
    SessionInv ⟨{ t.prot with store := gbDataPutBack t.prot.store rpt }, none, t.hist⟩ := by
  obtain ⟨lost, owned⟩ := inv.owned
  rw [held] at owned
  exact ⟨⟨inv.prot.ok, inv.prot.fresh, inv.prot.online, inv.prot.wait⟩, nofun,
    ⟨lost, owned.insertAfter _⟩, (putBack_other owned.held_home (by simp [GbHome])).trans inv.tmp⟩

theorem SessionInv.connected (inv : SessionInv t) {ok : Bool}
    (step : gbEventStep t (.connected ok) = some t') : SessionInv t' := by
  obtain ⟨lost, owned⟩ := inv.owned
  simp only [gbEventStep, Option.ite_none_right_eq_some, Option.some.injEq] at step
  obtain ⟨inprog, rfl⟩ := step
  have wf := inv.prot.ok (.inr inprog)
  have offline : t.prot.stat.online = false :=
    Bool.eq_false_iff.mpr fun on => nomatch inprog.symm.trans (inv.prot.online on)
  refine ⟨⟨?_, ?_, ?_, inv.prot.wait⟩, inv.held, ⟨lost, owned⟩, inv.tmp⟩
  · intro _
    cases ok <;> exact ⟨wf.parted, wf.home, wf.usedOwner, wf.pendingSize⟩
  · cases ok <;> exact nofun
  · exact fun on => absurd (offline.symm.trans on) nofun

/-- The socket is checked: opened if it was closed, or a message is taken as acknowledged. -/
theorem SessionInv.checksock (inv : SessionInv t) {env : SockEnv}
    (step : gbEventStep t (.checksock env) = some t') : SessionInv t' := by
  obtain ⟨lost, owned⟩ := inv.owned
  simp only [gbEventStep, Option.ite_none_right_eq_some, Option.some.injEq] at step
  obtain ⟨idle, rfl⟩ := step
  rcases gbDoChecksock_cases env inv.prot.ok env.now with
    control | ⟨closed, sock, stat, store⟩ |
      ⟨opened, sync, rest, content, -, stat, store, wf, still, -, pending⟩
  · have next := inv.control control (if_pos idle)
    exact ⟨next.prot, next.held, next.owned, next.tmp⟩
  · have offline : t.prot.stat.online = false :=
      Bool.eq_false_iff.mpr fun on => nomatch closed.symm.trans (inv.prot.online on)
    refine ⟨⟨?_, ?_, ?_, ?_⟩, fun held => absurd idle held, ⟨lost, store ▸ owned⟩,
      store ▸ inv.tmp⟩
    · rw [sock]
      exact sockOk_open env closed
    · rw [sock]
      exact fun _ => pending_open env closed
    · dsimp only
      rw [stat, offline]
      exact nofun
    · dsimp only
      rw [stat]
      exact fun _ => offline
  · refine ⟨⟨fun _ => wf, fun inprog => (nomatch still.symm.trans inprog), fun _ => still,
      stat ▸ inv.prot.wait⟩, fun held => absurd idle held, ⟨lost, ?_⟩, ?_⟩
    · rw [store]
      split
      · exact owned.ackPack
      · exact owned
    · rw [store]
      split
      · exact (gbDataAckPack_tmplst _).trans inv.tmp
      · exact inv.tmp

/-- Only the answer to a login changes the reports: they are put back, or cleared. -/
theorem SessionInv.receive (inv : SessionInv t) {env : SockEnv} {pack : List UInt8}
    (step : gbEventStep t (.receive env pack) = some t') : SessionInv t' := by
  obtain ⟨lost, owned⟩ := inv.owned
  simp only [gbEventStep, Option.ite_none_right_eq_some] at step
  obtain ⟨opened, step⟩ := step
  rcases gbHandlePack_cases env t.prot pack with
    control | ⟨accepted, online, wait, sock, store⟩
  · exact inv.control control step
  · obtain ⟨idle, rfl⟩ := prots_some step
    have unheld : t.held.toList = [] := by rw [idle]; rfl
    refine ⟨⟨sock ▸ inv.prot.ok, sock ▸ inv.prot.fresh, fun _ => sock ▸ opened, ?_⟩,
      fun held => absurd idle held, ?_, ?_⟩
    · exact fun awaited => absurd (wait.symm.trans awaited) (by decide)
    · dsimp only
      rw [store]
      split
      · exact ⟨lost, owned.flushSending.flushRealtm⟩
      · exact ⟨[], by rw [unheld]; exact owned_clearReport _ inv.tmp⟩
    · dsimp only
      rw [store]
      split
      · have home := fun n => owned.trans_home (n := n)
        simpa [gbDataFlushRealtm_lists] using (gbDataFlushSending_tmplst _ home).trans inv.tmp
      · simpa [gbDataClearReport_lists] using inv.tmp

theorem SessionInv.getPack (inv : SessionInv t) (step : gbEventStep t .getPack = some t') :
    SessionInv t' := by
  obtain ⟨lost, owned⟩ := inv.owned
  obtain ⟨idle, online, rfl | ⟨rpt, store, got, rfl⟩⟩ := getPack_cases step
  · exact inv
  · refine ⟨⟨inv.prot.ok, inv.prot.fresh, inv.prot.online, inv.prot.wait⟩, fun _ => online,
      ⟨lost, ?_⟩, (gbDataGetPack_same id got).trans inv.tmp⟩
    rw [idle] at owned
    exact owned.getPack got

/-- The pack held is lost for want of room, put back, or put on the transmit list. -/
theorem SessionInv.sendPack (inv : SessionInv t) {env : SockEnv}
    (step : gbEventStep t (.sendPack env) = some t') : SessionInv t' := by
  obtain ⟨lost, owned⟩ := inv.owned
  obtain ⟨rpt, prot, held, rfl, rfl⟩ := sendPack_cases step
  have online := inv.held (by simp [held])
  rw [held] at owned
  rcases gbSendReport_steps env inv.prot.ok rpt rfl with
    same | back | ⟨store, stat, -, still, wf, -⟩
  · rw [same]
    exact ⟨inv.prot, nofun, ⟨rpt :: lost, owned⟩, inv.tmp⟩
  · have next := inv.putBack held
    have after := next.control back (if_pos rfl)
    exact ⟨after.prot, after.held, after.owned, after.tmp⟩
  · refine ⟨⟨fun _ => wf, fun inprog => (nomatch still.symm.trans inprog), fun _ => still,
      stat ▸ inv.prot.wait⟩, nofun, ⟨lost, ?_⟩, ?_⟩
    · rw [store]
      exact owned.insertBefore .trans
    · rw [store]
      simpa [gbDataPutSend] using inv.tmp

/-- One step of a session keeps the invariant; a DBC load must not find a pack held. -/
theorem sessionInv_step (inv : SessionInv t) {e : GbEvent} (unheld : e = .loadDbc → t.held = none)
    (step : gbEventStep t e = some t') : SessionInv t' := by
  obtain ⟨lost, owned⟩ := inv.owned
  cases e with
  | saveRealtm groups =>
    obtain ⟨store, saved, rfl⟩ := Option.map_eq_some_iff.mp step
    exact ⟨⟨inv.prot.ok, inv.prot.fresh, inv.prot.online, inv.prot.wait⟩, inv.held,
      ⟨lost, owned.saveFrom 0 groups saved⟩, (gbSaveFrom_same id 0 groups saved).trans inv.tmp⟩
  | loadDbc =>
    obtain rfl := Option.some.inj step
    have held := unheld rfl
    refine ⟨⟨inv.prot.ok, inv.prot.fresh, inv.prot.online, inv.prot.wait⟩, inv.held, ⟨[], ?_⟩, ?_⟩
    · simpa [held] using owned_clearReport t.prot.store inv.tmp
    · simpa [gbDataClearReport_lists] using inv.tmp
  | connected ok => exact inv.connected step
  | acknowledged upto =>
    simp only [gbEventStep, Option.ite_none_right_eq_some, Option.some.injEq] at step
    obtain ⟨-, rfl⟩ := step
    refine ⟨⟨fun live => ?_, inv.prot.fresh, inv.prot.online, inv.prot.wait⟩, inv.held,
      ⟨lost, owned⟩, inv.tmp⟩
    obtain ⟨parted, home, used, size⟩ := inv.prot.ok live
    exact ⟨parted, home, used, size⟩
  | message env msg =>
    rcases message_cases step with ⟨set, -, rfl⟩ | ⟨prot, control, step⟩
    · exact inv.emergence set
    · exact inv.control control step
  | checksock env => exact inv.checksock step
  | receive env pack => exact inv.receive step
  | wait env time => exact inv.control (gbDoWait_control inv.prot.ok _ time) step
  | login env time => exact inv.control (gbDoLogin_control inv.prot.ok _ time) step
  | suspended env => exact inv.control gbDoSuspend_control step
  | getPack => exact inv.getPack step
  | sendPack env => exact inv.sendPack step
  | logout env time => exact inv.control (gbDoLogout_control inv.prot.ok _ time) step

/-! ### The numbers of the reports -/

theorem saved_sends (hist : GbHistory) (s : GbStore) (i : Nat) (groups : List (List UInt8)) :
    (hist.saved s i groups).sends = hist.sends ∧ (hist.saved s i groups).acks = hist.acks := by
  induction groups generalizing hist s i with
  | nil => exact ⟨rfl, rfl⟩
  | cons data rest ih =>
    unfold GbHistory.saved
    split
    · exact ih ..
    · exact ⟨rfl, rfl⟩

/-- A save gives no new number to a node on no list that buffers are taken from. -/
theorem saved_stamp (hist : GbHistory) (s : GbStore) (i : Nat) (groups : List (List UInt8))
    {n : GbNode} (off : ∀ l : GbList, l.isSource → n ∉ s.lists l) :
    (hist.saved s i groups).stamp n = hist.stamp n := by
  induction groups generalizing hist s i with
  | nil => rfl
  | cons data rest ih =>
    unfold GbHistory.saved
    split
    next m u s' taken saved =>
      obtain ⟨⟨m', u'⟩, taken', rfl⟩ := Option.map_eq_some_iff.mp saved
      obtain ⟨rfl, rfl⟩ : m = m' ∧ u = u' := by simpa using taken.symm.trans taken'
      obtain ⟨k, ns, origin, content, rfl⟩ := gbTakeBuffer_some taken
      have source : k.isSource := by
        rcases origin with rfl | ⟨-, rfl⟩ | ⟨-, -, rfl⟩ <;> trivial
      have ne : n ≠ m := by
        rintro rfl
        exact off k source (by simp [content])
      rw [ih]
      · simp [ne]
      · intro l hl mem
        have old := off l hl
        have olds := off k source
        rw [content] at olds
        by_cases realtm : l = .realtm <;> by_cases same : l = k <;> simp_all
    · rfl

/-! ### A session to compute with -/

/-- The store a clear leaves, its first free node in sight. -/
def gbCleared (s : GbStore) : GbStore where
  lists
    | .free => 0 :: (List.finRange gbMaxReport).tail
    | .tmplst => s.lists .tmplst
    | _ => []
  pack := s.pack
  emerg := s.emerg

private theorem finRange_head (n : Nat) [NeZero n] :
    List.finRange n = 0 :: (List.finRange n).tail := by
  cases n with
  | zero => exact absurd rfl (NeZero.ne 0)
  | succ n => rw [List.finRange_succ]; rfl

theorem gbDataClearReport_eq (s : GbStore) : gbDataClearReport s = gbCleared s := by
  ext1
  · funext l
    rw [gbDataClearReport_lists]
    cases l
    · rw [if_pos rfl, finRange_head gbMaxReport]
      rfl
    all_goals rfl
  · exact gbDataClearReport_pack s
  · exact gbDataClearReport_emerg s

theorem loadDbc_eq (t : GbSession) : gbEventStep t .loadDbc =
    some { t with prot := { t.prot with store := gbCleared t.prot.store } } := by
  rw [gbEventStep, gbDataClearReport_eq]

/-- A network that takes and reports everything at once. -/
def fastEnv : SockEnv := ⟨1, [.wrote 2000], true, true, some 8192, false⟩

def newYear : RtcTime := ⟨2020, 1, 1, 0, 0, 0⟩

/-- Configured and waiting for the network. -/
def parkedSession : GbSession where
  prot := {
    stat := gbStatZero
    vars := { gbVarsInit with hasAddr := true, allowSleep := false }
    store := gbCleared ⟨fun _ => [], fun _ => ⟨[], 0, 0, .free⟩, false⟩
    sock := ⟨.closed, 0, 0, fun _ => ⟨0, none, .free⟩, fun _ => [], ⟨0, 0⟩⟩ }
  held := none
  hist := ⟨[], [], fun _ => 0, 0⟩

theorem parkedSession_idle : GbIdle parkedSession where
  stat := rfl
  sock := rfl
  lists l := by
    cases l
    · rw [if_pos rfl, finRange_head gbMaxReport]
      rfl
    all_goals rfl
  calm := rfl
  held := rfl
  hist := ⟨rfl, rfl⟩

/-- The accepting answer to a login. -/
def loginAck : List UInt8 := gbPackUnit (gbPackHead gbVarsInit protLogin 0x01) []

/-- From the network message to the login packet. -/
def connecting : List GbEvent :=
  [.message fastEnv (.network true), .saveRealtm [[0x01]], .checksock fastEnv, .connected true,
    .login fastEnv newYear]

def firstLogin : List GbEvent := connecting ++ [.receive fastEnv loginAck]

/-- One report is saved and sent. -/
def sendOne (data : List UInt8) : List GbEvent :=
  [.saveRealtm [data], .getPack, .sendPack fastEnv]

/-- The bytes up to the given one are acknowledged, and the socket asked twice. -/
def acknowledge (upto : Nat) : List GbEvent :=
  [.acknowledged upto, .checksock fastEnv, .checksock fastEnv]

def loggingIn : GbSession := (connecting.foldlM gbEventStep parkedSession).get rfl

/-- After the first login. -/
def loggedIn : GbSession :=
  { loggingIn with prot :=
    { (gbHandlePack (sockApi fastEnv) loginAck loggingIn.prot).2 with
      store := gbCleared loggingIn.prot.store } }

theorem loggedIn_eq : firstLogin.foldlM gbEventStep parkedSession = some loggedIn := by
  have first : connecting.foldlM gbEventStep parkedSession = some loggingIn :=
    (Option.some_get _).symm
  have store : (gbHandlePack (sockApi fastEnv) loginAck loggingIn.prot).2.store =
      gbDataClearReport loggingIn.prot.store := rfl
  rw [gbDataClearReport_eq] at store
  have login : gbEventStep loggingIn (.receive fastEnv loginAck) =
      some { loggingIn with prot :=
        { (gbHandlePack (sockApi fastEnv) loginAck loggingIn.prot).2 with
          store := (gbHandlePack (sockApi fastEnv) loginAck loggingIn.prot).2.store } } := rfl
  rw [store] at login
  exact run_append first (run_cons login rfl)

end Gb32960
