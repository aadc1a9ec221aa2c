import TBoxMpu.Base.SockCallbacks
import TBoxMpu.Gb32960.LoopStores

/-!
# Packs in transmission

`InTransit`: while online every pack on the transmit list has its message among those that wait
with a callback, so the list is never longer than the socket has nodes for such messages. Every
function of the loop keeps this.
-/

namespace Gb32960

open Sock

/-- A socket that is open, or being opened, is in order. -/
def LiveOk (sock : SockT GbSync) : Prop :=
  sock.stat = .opened ∨ sock.stat = .inprog → sock.Reserved

structure InTransit (st : GbProt Wire) : Prop where
  sock : LiveOk st.sock.sock
  few : (st.store.lists .trans).length ≤ sockMaxSync - sockBack
  session : st.stat.online = true → (st.store.lists .trans).length ≤ st.sock.sock.callbacks

variable {env : SockEnv} {st st' : GbProt Wire}

/-- Neither the socket nor the transmit list is touched. -/
theorem InTransit.of_same (inv : InTransit st) (sock : st'.sock.sock = st.sock.sock)
    (trans : st'.store.lists .trans = st.store.lists .trans)
    (online : st'.stat.online = true → st.stat.online = true) : InTransit st' where
  sock := by
    rw [sock]
    exact inv.sock
  few := by
    rw [trans]
    exact inv.few
  session here := by
    rw [trans, sock]
    exact inv.session (online here)

theorem InTransit.reset (inv : InTransit st) (env : SockEnv) : InTransit (gbReset (wireApi env) st) where
  sock live := by
    change (sockClose st.sock.sock).Reserved
    change (sockClose st.sock.sock).stat = .opened ∨ (sockClose st.sock.sock).stat = .inprog at live
    unfold sockClose at live ⊢
    split at live
    · simp at live
    next notOpened =>
      rw [if_neg notOpened]
      exact inv.sock live
  few := inv.few
  session := nofun

/-- A message that is taken with a callback waits with it. -/
theorem wireApi_waits (env : SockEnv) {w : Wire} (ok : LiveOk w.sock) (buf : List UInt8) (sync : Option GbSync) :
    let r := (wireApi env).send w buf sync
    LiveOk r.2.sock ∧ w.sock.callbacks ≤ r.2.sock.callbacks ∧
    (0 < r.1 → sync.isSome → r.2.sock.stat = .opened ∧
      w.sock.callbacks + 1 ≤ r.2.sock.callbacks) := by
  dsimp only
  have result : sockSend env w.sock buf.length sync =
      some ((sockApi env).send w.sock buf sync) := by simp [sockApi]
  obtain ⟨stat, -⟩ := wireApi_send env w buf sync
  change LiveOk ((sockApi env).send w.sock buf sync).2 ∧ _
  have same : ((wireApi env).send w buf sync).2.sock = ((sockApi env).send w.sock buf sync).2 := rfl
  rw [same] at stat ⊢
  have ret : ((wireApi env).send w buf sync).1 = ((sockApi env).send w.sock buf sync).1 := rfl
  rw [ret]
  generalize (sockApi env).send w.sock buf sync = r at result stat
  by_cases opened : w.sock.stat = .opened
  · obtain ⟨reserved, more, one⟩ := (ok (.inl opened)).sockSend result
    exact ⟨fun _ => reserved, more, fun taken some => ⟨stat.trans opened, one taken some⟩⟩
  · unfold sockSend at result
    rw [if_pos opened] at result
    cases result
    exact ⟨ok, le_rfl, fun taken => absurd taken (by simp)⟩

theorem InTransit.sendControl (inv : InTransit st) (msg : List UInt8) (sent : GbStat → GbStat)
    (online : (sent st.stat).online = st.stat.online) :
    InTransit (gbSendControl (wireApi env) msg sent st) := by
  unfold gbSendControl
  obtain ⟨ok, more, -⟩ := wireApi_waits env inv.sock msg none
  generalize (wireApi env).send st.sock msg none = r at ok more
  obtain ⟨res, w⟩ := r
  dsimp only at ok more ⊢
  have queued : InTransit { st with sock := w } :=
    ⟨ok, inv.few, fun here => (inv.session here).trans more⟩
  split
  · exact queued.reset env
  · split
    · exact queued
    · exact queued.of_same rfl rfl fun here => online ▸ here

theorem InTransit.sendReport (inv : InTransit st) (env : SockEnv) (rpt : GbNode) (online : st.stat.online = true)
    (home : GbHome (st.store.pack rpt).list) :
    InTransit (gbSendReport (wireApi env) rpt st).2 := by
  -- the pack goes back to its home, which is not the transmit list
  have back : ∀ w : Wire, LiveOk w.sock → st.sock.sock.callbacks ≤ w.sock.callbacks →
      InTransit { st with sock := w, store := gbDataPutBack st.store rpt } := by
    intro w ok more
    have trans : (gbDataPutBack st.store rpt).lists .trans = st.store.lists .trans :=
      putBack_other home (by simp [GbHome])
    refine ⟨ok, ?_, fun here => ?_⟩
    · rw [trans]
      exact inv.few
    · rw [trans]
      exact (inv.session here).trans more
  unfold gbSendReport
  split
  · obtain ⟨ok, more, one⟩ := wireApi_waits env inv.sock
      (gbPackReport st.vars (st.store.pack rpt)) (some .ackPack)
    generalize (wireApi env).send st.sock (gbPackReport st.vars (st.store.pack rpt))
      (some .ackPack) = r at ok more one
    obtain ⟨res, w⟩ := r
    dsimp only at ok more one ⊢
    split
    · exact (back w ok more).reset env
    next works =>
      split
      · exact back w ok more
      -- one more pack in transmission, and one more message that waits
      next sent =>
        obtain ⟨opened, one⟩ := one (by omega) rfl
        have length : ((gbDataPutSend st.store rpt).lists .trans).length =
            (st.store.lists .trans).length + 1 := by
          simp [gbDataPutSend]
        have waiting := inv.session online
        have bound := (ok (.inl opened)).callbacks_le
        refine ⟨ok, ?_, fun _ => ?_⟩
        · dsimp only
          omega
        · dsimp only
          omega
  · exact inv

theorem InTransit.handleMsg (inv : InTransit st) (msg : GbMsg) :
    InTransit (gbHandleMsg (wireApi env) msg st) := by
  cases msg with
  | network on =>
    unfold gbHandleMsg
    dsimp only
    split
    · exact (inv.reset env).of_same rfl rfl id
    · exact inv
  | emergence set => exact inv.of_same rfl rfl id
  | can on => exact inv.of_same rfl rfl id
  | suspend on => exact inv.of_same rfl rfl id
  | config cfg =>
    cases cfg with
    | addr hasAddr => exact (inv.reset env).of_same rfl rfl id
    | vin vin => exact (inv.reset env).of_same rfl rfl id
    | regintv regintv => exact inv.of_same rfl rfl id
    | timeout timeout => exact inv.of_same rfl rfl id

/-- The acknowledged message, if it had a callback, and the pack it was of leave together. -/
theorem InTransit.synced (inv : InTransit st) (env : SockEnv) (opened : st.sock.sock.stat = .opened) :
    let r := (wireApi env).sync st.sock
    InTransit { st with
      sock := r.2.2
      store := match r.2.1 with
        | some .ackPack => gbDataAckPack st.store
        | none => st.store } := by
  dsimp only
  obtain ⟨stat, -⟩ := sockSync_ret env opened
  obtain ⟨reserved, gone⟩ := (inv.sock (.inl opened)).sockSync env
  have sync : (wireApi env).sync st.sock = ((sockSync env st.sock.sock).1,
    (sockSync env st.sock.sock).2.1,
    { st.sock with sock := (sockSync env st.sock.sock).2.2 }) := rfl
  rw [sync]
  generalize sockSync env st.sock.sock = r at stat reserved gone
  obtain ⟨res, callback, sock⟩ := r
  dsimp only at stat reserved gone ⊢
  cases callback with
  | none => exact ⟨fun _ => reserved, inv.few, fun here => (inv.session here).trans gone⟩
  | some sync =>
    cases sync
    -- the callback takes a pack away, if there is one
    rcases gbDataAckPack_cases st.store with ⟨empty, same⟩ | ⟨n, ns, content, acked⟩
    · dsimp only
      rw [same]
      refine ⟨fun _ => reserved, inv.few, fun _ => ?_⟩
      rw [empty]
      exact Nat.zero_le _
    · have trans : (gbDataAckPack st.store).lists .trans = ns := by
        rw [acked]
        simp
      have few := inv.few
      have session := inv.session
      rw [content, List.length_cons] at few session
      simp only [Option.isSome_some, if_true] at gone
      refine ⟨fun _ => reserved, ?_, fun here => ?_⟩
      · dsimp only
        rw [trans]
        omega
      · dsimp only
        rw [trans]
        have waiting := session here
        omega

theorem InTransit.doChecksock (inv : InTransit st) (env : SockEnv)
    (live : st.stat.online = true → st.sock.sock.stat = .opened) :
    InTransit (gbDoChecksock (wireApi env) env.now st).2 := by
  unfold gbDoChecksock
  split
  · exact inv
  · split
    next closed =>
      split
      · -- the clean-up of the opening
        have offline : ¬ st.stat.online = true := by
          intro online
          exact nomatch (live online).symm.trans closed
        refine ⟨fun _ => ?_, inv.few, fun online => absurd online offline⟩
        change (sockOpen env st.sock.sock).2.Reserved
        have closed : st.sock.sock.stat = .closed := closed
        unfold sockOpen
        rw [if_neg (by simp [closed])]
        split
        · exact And.left ((reserved_sockCleanup st.sock.sock).of_same rfl rfl rfl)
        · exact And.left ((reserved_sockCleanup st.sock.sock).of_same rfl rfl rfl)
      · exact inv
    next opened =>
      split
      · exact inv.reset env
      · have synced := inv.synced env opened
        generalize (wireApi env).sync st.sock = r at synced
        obtain ⟨res, callback, w⟩ := r
        dsimp only at synced ⊢
        split
        · exact synced.reset env
        · exact synced
    · exact inv

/-- An accepted login empties the transmit list, whichever way. -/
theorem InTransit.handlePack (inv : InTransit st) (env : SockEnv) (pack : List UInt8)
    (homes : ∀ n ∈ st.store.lists .trans, GbHome (st.store.pack n).list) :
    InTransit (gbHandlePack (wireApi env) pack st).2 := by
  have emptied : ∀ {st' : GbProt Wire}, st'.sock.sock = st.sock.sock →
      st'.store.lists .trans = [] → InTransit st' := by
    intro st' sock empty
    refine ⟨?_, ?_, fun _ => ?_⟩
    · rw [sock]
      exact inv.sock
    · rw [empty]
      exact Nat.zero_le _
    · rw [empty]
      exact Nat.zero_le _
  unfold gbHandlePack
  split
  · exact inv
  · dsimp only
    split
    · split
      · exact inv
      · split
        · exact inv.of_same rfl rfl id
        · split
          · -- the packs that were sent go home, and no home is the transmit list
            refine emptied (by rfl) ?_
            change (gbDataFlushRealtm (gbDataFlushSending st.store)).lists .trans = []
            rw [gbDataFlushRealtm_lists, if_neg nofun, if_neg nofun, gbDataFlushSending_lists,
              if_pos rfl, List.append_nil, List.filter_eq_nil_iff]
            intro n mem
            rcases homes n mem with home | home
            · simp [home]
            · simp [home]
          · -- a first login drops everything
            refine emptied (by rfl) ?_
            change (gbDataClearReport st.store).lists .trans = []
            rw [gbDataClearReport_lists, if_neg nofun, if_neg nofun]
    · -- the other answers leave the lists alone, that to a logout closes the socket
      split
      · split
        · exact inv
        · split
          · exact inv
          · exact (inv.reset env).of_same rfl rfl id
      · split
        · split
          · exact inv
          · split
            · exact inv
            · exact inv.of_same rfl rfl id
        · exact inv

theorem InTransit.doWait (inv : InTransit st) (env : SockEnv) (time : RtcTime) :
    InTransit (gbDoWait (wireApi env) env.now time st).2 := by
  unfold gbDoWait
  split
  · exact inv
  · split
    · split
      · dsimp only
        refine InTransit.reset ?_ env
        exact inv.of_same rfl rfl id
      · dsimp only
        split
        · split
          · dsimp only
            refine InTransit.reset ?_ env
            exact inv.of_same rfl rfl id
          · dsimp only
            refine InTransit.reset ?_ env
            exact inv.of_same rfl rfl id
        · split
          · dsimp only
            refine InTransit.sendControl ?_ _ _ ?_
            · exact inv.of_same rfl rfl id
            · rfl
          · exact inv.of_same rfl rfl id
    · exact inv

theorem InTransit.doLogin (inv : InTransit st) (env : SockEnv) (time : RtcTime) :
    InTransit (gbDoLogin (wireApi env) env.now time st).2 := by
  unfold gbDoLogin
  split
  · exact inv
  · split
    · dsimp only
      refine InTransit.sendControl ?_ _ _ ?_
      · exact inv.of_same rfl rfl id
      · rfl
    · exact inv

theorem InTransit.doSuspend (inv : InTransit st) (env : SockEnv) :
    InTransit (gbDoSuspend (wireApi env) st).2 := by
  unfold gbDoSuspend
  split
  · exact inv.reset env
  · exact inv

theorem InTransit.doLogout (inv : InTransit st) (env : SockEnv) (time : RtcTime) :
    InTransit (gbDoLogout (wireApi env) env.now time st).2 := by
  unfold gbDoLogout
  split
  · dsimp only
    refine inv.sendControl _ _ ?_
    rfl
  · exact inv

end Gb32960
