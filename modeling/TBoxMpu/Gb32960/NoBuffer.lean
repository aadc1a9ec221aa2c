import TBoxMpu.Gb32960.Buffers

/-!
# Runs that use up the buffers

`stalled_session_drains`: a session whose peer acknowledges nothing loses every report it takes,
until a save finds no buffer.
-/

namespace Gb32960

open Sock Runs

/-! ### Runs to compute with -/

instance (e : GbBufferEvent) : Decidable (∀ le, e = .loop le → le.Fits) :=
  match e with
  | .loop e => decidable_of_iff e.Fits ⟨fun fits le same => by cases same; exact fits,
      fun all => all e rfl⟩
  | .flushBegin | .flushTake | .flushUnlock | .flushEnd | .clearError =>
    .isTrue fun _ same => nomatch same
  | .saveError _ | .errorInit _ => .isTrue fun _ same => nomatch same

instance (b : GbBuffers) (e : GbBufferEvent) : Decidable (KeepsPacks b e) := by
  unfold KeepsPacks
  split
  all_goals infer_instance

/-- Configured, before any message and without a DBC. -/
def parkedBuffers : GbBuffers where
  loop := parkedThread
  errs := ⟨fun _ => ⟨[], 0, 0, .free⟩, [], List.nodup_nil⟩
  locked := false

theorem parkedBuffers_start : GbBufferStart parkedBuffers := ⟨parkedThread_start, rfl⟩

/-- The first login clears the lists. -/
theorem gbHandlePack_first (env : SockEnv) {st : GbProt Wire} {pack : List UInt8}
    (accepts : AcceptsLogin st.stat pack) (first : st.stat.login = false) :
    (gbHandlePack (wireApi env) pack st).2.store = gbDataClearReport st.store := by
  obtain ⟨checksum, type, awaited, ack⟩ := accepts
  unfold gbHandlePack
  rw [if_neg (not_not_intro checksum)]
  dsimp only
  rw [if_pos type, if_neg (not_not_intro awaited), if_neg (not_not_intro ack)]
  simp [first]

/-- The received packet, with the first clear of the lists in a form that computes. -/
def quickReceive (s : GbLoop) (env : SockEnv) (pack : List UInt8) : Option GbLoop :=
  (gbLoopStep s (.receive env pack)).map fun s' =>
    if AcceptsLogin s.prot.stat pack ∧ s.prot.stat.login = false then
      s'.setStore (gbCleared s.prot.store)
    else s'

theorem quickReceive_eq (s : GbLoop) (env : SockEnv) (pack : List UInt8) :
    quickReceive s env pack = gbLoopStep s (.receive env pack) := by
  unfold quickReceive
  cases step : gbLoopStep s (.receive env pack) with
  | none => rfl
  | some s' =>
    rw [Option.map_some]
    split
    next first =>
      obtain ⟨-, step⟩ := Option.ite_none_right_eq_some.mp step
      have store := gbHandlePack_first env first.1 first.2
      rw [gbDataClearReport_eq] at store
      have noted := gbNoted_store s.prot pack (gbHandlePack (wireApi env) pack s.prot)
      rw [store] at noted
      cases step
      rw [← noted.1]
      rfl
    · rfl

def quickStep (b : GbBuffers) : GbBufferEvent → Option GbBuffers
  | .loop (.receive env pack) => (quickReceive b.loop env pack).map fun loop => { b with loop }
  | e => gbBufferStep b e

theorem quickStep_eq (b : GbBuffers) (e : GbBufferEvent) : quickStep b e = gbBufferStep b e := by
  unfold quickStep
  split
  · rw [quickReceive_eq]
    rfl
  · rfl

/-- A run whose steps are checked for the condition, seen through `f`. -/
theorem bufferRun (ok : GbBuffers → GbBufferEvent → Prop) [∀ b e, Decidable (ok b e)] {A : Type}
    {f : GbBuffers → A} {a : A} (events : List GbBufferEvent)
    (run : (events.foldlM (fun b e => if (∀ le, e = .loop le → le.Fits) ∧ ok b e then
      quickStep b e else none) parkedBuffers).map f = some a) :
    ∃ b, GbBufferReach ok b ∧ f b = a := by
  simp only [quickStep_eq] at run
  obtain ⟨b, run, seen⟩ := Option.map_eq_some_iff.mp run
  have start : GbBufferReach ok parkedBuffers := .start parkedBuffers_start
  exact ⟨b, start.run_checked events run, seen⟩

/-- From the messages to the report that is sent. -/
def sendNext (env : SockEnv) (data : List UInt8) : List GbLoopEvent :=
  [.saveRealtm [data], .message env none, .call env newYear, .received env true] ++
    List.replicate 6 (.call env newYear)

/-- A session with one report on its way and an error flushed. -/
def toFlushed : List GbBufferEvent :=
  (toSession ++ sendNext fastEnv [0x01]).map .loop ++
    [.errorInit 1, .saveError [[0x02]], .flushBegin, .flushTake, .flushUnlock, .flushEnd]

theorem flushed_has_buffer : ∃ b, GbBufferReach KeepsPacks b ∧
    (b.loop.prot.store.lists .trans).length = 1 ∧ (b.loop.prot.store.lists .delay).length = 1 ∧
    gbTakeBuffer b.loop.prot.store ≠ none := by
  obtain ⟨b, reach, seen⟩ := bufferRun KeepsPacks
    (f := fun b => ((b.loop.prot.store.lists .trans).length,
      (b.loop.prot.store.lists .delay).length)) (a := (1, 1)) toFlushed (by decide +kernel)
  obtain ⟨trans, delay⟩ := Prod.mk.inj seen
  exact ⟨b, reach, trans, delay, (buffers_left reach).1⟩

/-! ### A session that leaks -/

/-- An online session on a working socket that has no room: the oldest message is not
acknowledged. -/
structure Stalled (env : SockEnv) (st : GbProt Wire) : Prop where
  network : st.stat.network = true
  addr : st.vars.hasAddr = true
  awake : st.vars.allowSleep = false
  opened : st.sock.sock.stat = .opened
  works : env.error = false ∧ env.outq = true
  waits : ∀ n ns, st.sock.sock.lists .used = n :: ns →
    ¬ (st.sock.sock.mem n).len ≤ st.sock.sock.sendsz - st.sock.sock.conn.unacksz
  full : (sockBufsz env st.sock.sock).toUInt32.toNat < gbReportBufsz + gbSocketRsvd
  idle : st.stat.wait = 0
  online : st.stat.online = true
  running : st.stat.suspend = false
  can : st.stat.can = true

section Leak

variable {env : SockEnv} {st : GbProt Wire}

theorem Stalled.sync (stalled : Stalled env st) :
    sockSync env st.sock.sock = (0, none, st.sock.sock) := by
  unfold sockSync
  rw [if_neg (by simp [stalled.opened]), if_neg (by simp [stalled.works.2])]
  split
  · rfl
  next n ns content => rw [if_neg (stalled.waits n ns content)]

/-- The session at a place, with these lists. -/
def atPlace (st : GbProt Wire) (store : GbStore) (place : GbPlace) : GbLoop :=
  ⟨{ st with store }, place, none⟩

theorem Stalled.checksock (stalled : Stalled env st) (store : GbStore) (time : RtcTime) :
    gbLoopStep (atPlace st store .checksock) (.call env time) =
      some (atPlace st store .receive) := by
  have gate : (!st.stat.network || !st.vars.hasAddr || st.vars.allowSleep) = false := by
    simp [stalled.network, stalled.addr, stalled.awake]
  have status : (wireApi env).status st.sock = .opened := stalled.opened
  have error : (wireApi env).error st.sock = false := stalled.works.1
  -- the oldest message is not acknowledged, so nothing is taken away
  have sync : (wireApi env).sync st.sock = (0, none, st.sock) := by
    change ((sockSync env st.sock.sock).1, (sockSync env st.sock.sock).2.1, _) = _
    rw [stalled.sync]
  have ret : gbDoChecksock (wireApi env) env.now { st with store } = (0, { st with store }) := by
    unfold gbDoChecksock
    simp [gate, status, error, sync]
  change gbCall env time (atPlace st store .checksock) = _
  unfold gbCall GbLoop.advance atPlace
  dsimp only
  rw [ret]
  rfl

theorem Stalled.upward (stalled : Stalled env st) (store : GbStore) (time : RtcTime) :
    [.received env true, .call env time, .call env time, .call env time].foldlM gbLoopStep
      (atPlace st store .receive) = some (atPlace st store .report) := by
  have wait : gbDoWait (wireApi env) env.now time { st with store } = (0, { st with store }) := by
    unfold gbDoWait
    rw [if_pos stalled.idle]
  have login : gbDoLogin (wireApi env) env.now time { st with store } =
      (0, { st with store }) := by
    unfold gbDoLogin
    rw [if_pos stalled.online]
  have suspend : gbDoSuspend (wireApi env) { st with store } = (0, { st with store }) := by
    unfold gbDoSuspend
    simp [stalled.running]
  simp [gbLoopStep, gbCall, GbLoop.advance, atPlace, wait, login, suspend]

/-- The pack is taken and not sent, and the thread goes back to the messages. -/
theorem Stalled.leak (stalled : Stalled env st) {store store' : GbStore} {rpt : GbNode}
    (got : gbDataGetPack store = some (rpt, store')) (time : RtcTime) :
    [.call env time, .call env time, .call env time, .message env none].foldlM gbLoopStep
      (atPlace st store .report) = some (atPlace st store' .checksock) := by
  -- no room: the branch that returns with the pack in hand
  have send : gbSendReport (wireApi env) rpt { st with store := store' } =
      (0, { st with store := store' }) := by
    unfold gbSendReport
    exact if_neg (Nat.not_le.mpr stalled.full)
  have logout : gbDoLogout (wireApi env) env.now time { st with store := store' } =
      (0, { st with store := store' }) := by
    unfold gbDoLogout
    simp [stalled.can]
  simp [gbLoopStep, gbCall, GbLoop.advance, GbLoop.setStore, atPlace, got, send, logout]

/-- A report is saved, taken and lost. -/
def loseOne (env : SockEnv) (data : List UInt8) : List GbLoopEvent :=
  .saveRealtm [data] :: [.call env newYear, .call env newYear, .call env newYear,
    .message env none] ++ .call env newYear :: [.received env true, .call env newYear,
    .call env newYear, .call env newYear]

theorem Stalled.loseOne (stalled : Stalled env st) {store : GbStore} {n : GbNode}
    {ns : List GbNode} (data : List UInt8) (free : store.lists .free = n :: ns)
    (realtm : store.lists .realtm = []) (delay : store.lists .delay = []) :
    ∃ store', store'.lists .free = ns ∧ store'.lists .realtm = [] ∧ store'.lists .delay = [] ∧
      (Gb32960.loseOne env data).foldlM gbLoopStep (atPlace st store .report) =
        some (atPlace st store' .report) := by
  -- the report goes through the only list that has packs
  have buffer : gbTakeBuffer store = some (n, store.setList .free ns) := by
    simp [gbTakeBuffer, GbStore.getFirst, free]
  obtain ⟨saved, save, lists⟩ : ∃ saved, gbDataSaveRealtm store [data] = some saved ∧
      ∀ l, saved.lists l = if l = .realtm then [n] else if l = .free then ns
        else store.lists l := by
    refine ⟨_, by simp [gbDataSaveRealtm, gbSaveFrom, gbSaveOne, buffer]; rfl, fun l => ?_⟩
    cases l <;> simp [realtm]
  have got : gbDataGetPack saved = some (n, saved.setList .realtm []) := by
    simp [gbDataGetPack, GbStore.getFirst, lists]
  refine ⟨saved.setList .realtm [], by simp [lists], by simp, by simp [lists, delay], ?_⟩
  have first : gbLoopStep (atPlace st store .report) (.saveRealtm [data]) =
      some (atPlace st saved .report) := by
    change (gbDataSaveRealtm store [data]).map _ = _
    rw [save]
    rfl
  refine run_append (run_cons first (stalled.leak got newYear)) ?_
  exact run_cons (stalled.checksock _ newYear) (stalled.upward _ newYear)

/-- The steps of the loop are steps of the system. -/
theorem GbBufferReach.loop {b : GbBuffers} (reach : GbBufferReach (fun _ _ => True) b)
    (events : List GbLoopEvent) (allowed : ∀ e ∈ events, e.Fits ∧ e.ofFlush = false)
    {loop : GbLoop} (run : events.foldlM gbLoopStep b.loop = some loop) :
    GbBufferReach (fun _ _ => True) { b with loop } := by
  induction events generalizing b with
  | nil =>
    cases run
    exact reach
  | cons e rest ih =>
    rw [List.foldlM_cons] at run
    obtain ⟨next, first, run⟩ := Option.bind_eq_some_iff.mp run
    obtain ⟨fits, other⟩ := allowed e (by simp)
    have step : gbBufferStep b (.loop e) = some { b with loop := next } := by
      unfold gbBufferStep
      dsimp only
      rw [if_neg (by simp [other]), first]
      rfl
    have here : GbBufferReach (fun _ _ => True) { b with loop := next } :=
      .next (.loop e) reach ⟨⟨fun le same => by cases same; exact fits, trivial⟩, step⟩
    exact ih (b := { b with loop := next }) here (fun e mem => allowed e (by simp [mem])) run

/-- A stalled session loses one report after the other, until no buffer is left. -/
theorem stalled_session_drains {b : GbBuffers} (reach : GbBufferReach (fun _ _ => True) b)
    (stalled : Stalled env b.loop.prot) (place : b.loop.place = .report)
    (flushed : b.loop.flushed = none) (realtm : b.loop.prot.store.lists .realtm = [])
    (delay : b.loop.prot.store.lists .delay = []) :
    ∃ b', GbBufferReach (fun _ _ => True) b' ∧ gbTakeBuffer b'.loop.prot.store = none := by
  have drain : ∀ (ns : List GbNode) (b : GbBuffers) (st : GbProt Wire) (store : GbStore),
      GbBufferReach (fun _ _ => True) b → Stalled env st → b.loop = atPlace st store .report →
      store.lists .free = ns → store.lists .realtm = [] → store.lists .delay = [] →
      ∃ b', GbBufferReach (fun _ _ => True) b' ∧ gbTakeBuffer b'.loop.prot.store = none := by
    intro ns
    induction ns with
    | nil =>
      intro b st store reach _ here free realtm delay
      refine ⟨b, reach, ?_⟩
      rw [here, gbTakeBuffer_none]
      exact ⟨free, delay, realtm⟩
    | cons n ns ih =>
      intro b st store reach stalled here free realtm delay
      obtain ⟨store', free', realtm', delay', run⟩ :=
        stalled.loseOne [0x01] free realtm delay
      rw [← here] at run
      have allowed : ∀ e ∈ Gb32960.loseOne env [0x01], e.Fits ∧ e.ofFlush = false := by
        have dated : newYear.Dated := by decide
        simp [Gb32960.loseOne, GbLoopEvent.Fits, GbLoopEvent.ofFlush, dated]
      exact ih _ st store' (reach.loop _ allowed run) stalled rfl free' realtm' delay'
  have here : b.loop = atPlace b.loop.prot b.loop.prot.store .report := by
    unfold atPlace
    rw [← place, ← flushed]
  exact drain _ b b.loop.prot b.loop.prot.store reach stalled here rfl realtm delay

instance (env : SockEnv) (st : GbProt Wire) : Decidable (Stalled env st) :=
  decidable_of_iff (st.stat.network = true ∧ st.vars.hasAddr = true ∧ st.vars.allowSleep = false ∧
      st.sock.sock.stat = .opened ∧ (env.error = false ∧ env.outq = true) ∧
      (∀ n ∈ (st.sock.sock.lists .used).head?,
        ¬ (st.sock.sock.mem n).len ≤ st.sock.sock.sendsz - st.sock.sock.conn.unacksz) ∧
      (sockBufsz env st.sock.sock).toUInt32.toNat < gbReportBufsz + gbSocketRsvd ∧
      st.stat.wait = 0 ∧ st.stat.online = true ∧ st.stat.suspend = false ∧ st.stat.can = true)
    ⟨fun ⟨network, addr, awake, opened, works, waits, full, idle, online, running, can⟩ =>
      ⟨network, addr, awake, opened, works, fun n ns content => waits n (by simp [content]), full,
        idle, online, running, can⟩,
    fun stalled => ⟨stalled.network, stalled.addr, stalled.awake, stalled.opened, stalled.works,
      fun n first => by
        obtain ⟨ns, content⟩ := List.head?_eq_some_iff.mp first
        exact stalled.waits n ns content,
      stalled.full, stalled.idle, stalled.online, stalled.running, stalled.can⟩⟩

end Leak

/-- A send buffer of 4608 bytes. -/
def slowEnv : SockEnv := { fastEnv with sndbuf := some 4608 }

/-- Three reports of 800 bytes are sent, and nothing is acknowledged. -/
def toStalled : List GbLoopEvent :=
  let report := sendNext slowEnv (List.replicate 800 0)
  toSession ++ report ++ report ++ report ++
    [.message slowEnv none, .call slowEnv newYear, .received slowEnv true] ++
    List.replicate 3 (.call slowEnv newYear)

/-- A save that finds no buffer: the endless loop with the data lock held. -/
theorem save_without_buffer : ∃ b, GbBufferReach (fun _ _ => True) b ∧
    gbDataSaveRealtm b.loop.prot.store [[0x01]] = none := by
  obtain ⟨b, reach, seen⟩ := bufferRun (fun _ _ => True)
    (f := fun b => decide (Stalled slowEnv b.loop.prot ∧ b.loop.place = .report ∧
      b.loop.flushed = none ∧ b.loop.prot.store.lists .realtm = [] ∧
      b.loop.prot.store.lists .delay = [])) (a := true)
    (toStalled.map .loop) (by decide +kernel)
  obtain ⟨stalled, place, flushed, realtm, delay⟩ := of_decide_eq_true seen
  obtain ⟨b', reach', none⟩ := stalled_session_drains reach stalled place flushed realtm delay
  refine ⟨b', reach', ?_⟩
  simp [gbDataSaveRealtm, gbSaveFrom, gbSaveOne, none]

end Gb32960
