import TBoxMpu.Gb32960.ErrorRing
import TBoxMpu.Gb32960.InTransit
import TBoxMpu.Gb32960.Report

/-!
# Buffers for new reports

The main loop with the ring of error packs and its lock. A new report, or a pack of an error
flush, needs a node of the free, the delay or the realtime list; without one the code spins with
the data lock held.

`buffers_left`: in a run in which `gb_do_report` finds room for the pack it takes, and no clear
of the lists finds a pack held, a node is always there.
-/

namespace Gb32960

open Sock Runs

/-! ### The system -/

/-- `locked`: an error flush holds `gb_errmtx`. -/
structure GbBuffers where
  loop : GbLoop
  errs : GbErrors
  locked : Bool

/-- The steps of an error flush, those of the error ring, and the others of the loop. -/
inductive GbBufferEvent
  | loop (e : GbLoopEvent)
  | flushBegin
  | flushTake
  | flushUnlock
  | flushEnd
  | saveError (groups : List (List UInt8))
  | clearError
  | errorInit (groups : Nat)

def GbLoopEvent.ofFlush : GbLoopEvent → Bool
  | .flushBegin | .flushTake _ | .flushEnd => true
  | _ => false

def gbBufferStep (b : GbBuffers) : GbBufferEvent → Option GbBuffers
  | .loop e =>
    if e.ofFlush then none else (gbLoopStep b.loop e).map fun loop => { b with loop }
  | .flushBegin =>
    if b.locked ∨ b.errs.ring = [] then none
    else (gbLoopStep b.loop .flushBegin).map fun loop => { b with loop, locked := true }
  | .flushTake =>
    if b.locked then
      (gbErrorTake b.errs).bind fun (err, errs) =>
        (gbLoopStep b.loop (.flushTake err)).map fun loop => { b with loop, errs }
    else none
  | .flushUnlock =>
    if b.locked ∧ (gbErrorTake b.errs).isNone then some { b with locked := false } else none
  | .flushEnd =>
    if b.locked then none else (gbLoopStep b.loop .flushEnd).map fun loop => { b with loop }
  | .saveError groups =>
    if b.locked then none
    else (gbDataSaveError b.errs groups).map fun errs => { b with errs }
  | .clearError =>
    if b.locked then none else some { b with errs := gbDataClearError b.errs }
  | .errorInit groups =>
    if b.locked then none else some { b with errs := gbErrorInit b.errs groups }

/-- As `gb_init` leaves it. -/
structure GbBufferStart (b : GbBuffers) : Prop where
  loop : GbLoopStart b.loop
  unlocked : b.locked = false

/-- The pack between `gb_data_get_pack` and its put. -/
def GbPlace.held : GbPlace → List GbNode
  | .send rpt => [rpt]
  | _ => []

/-- A pack that is sent finds room in the socket; a clear of the lists finds no pack held, and
none on the temporary list of a flush. -/
def KeepsPacks (b : GbBuffers) : GbBufferEvent → Prop
  | .loop (.call env _) => b.loop.place.held = [] ∨
      gbReportBufsz + gbSocketRsvd ≤ (sockBufsz env b.loop.prot.sock.sock).toUInt32.toNat
  | .loop .loadDbc => b.loop.place.held = [] ∧ b.loop.prot.store.lists .tmplst = []
  | .loop (.receive _ pack) =>
      AcceptsLogin b.loop.prot.stat pack → b.loop.prot.stat.login = false →
        b.loop.prot.store.lists .tmplst = []
  | _ => True

def GbBufferReach (ok : GbBuffers → GbBufferEvent → Prop) : GbBuffers → Prop :=
  Reach GbBufferStart
    (Guarded (fun b e => (∀ le, e = .loop le → le.Fits) ∧ ok b e)
      fun b e b' => gbBufferStep b e = some b')

/-! ### What a step keeps -/

/-- Every node is owned once, and those in transmission are few. -/
structure Kept (s : GbLoop) : Prop where
  owned : Owned s.prot.store s.place.held
  transit : InTransit s.prot

variable {s s' : GbLoop}

theorem kept_start (start : GbLoopStart s) : Kept s where
  owned := by
    rw [start.place]
    constructor
    · intro n
      unfold owners
      simp only [start.lists]
      simp [GbPlace.held]
    · intro n notFree
      rw [start.lists, if_pos rfl] at notFree
      exact absurd (List.mem_finRange n) notFree
  transit := by
    refine ⟨?_, ?_, ?_⟩
    · unfold LiveOk
      rw [start.sock]
      rintro (live | live)
      · cases live
      · cases live
    · rw [start.lists, if_neg nofun]
      exact Nat.zero_le _
    · rw [start.stat]
      exact nofun

/-- The function returns to a place where no pack is held. -/
theorem held_advance {next : GbPlace} {r : Int × GbProt Wire} (unheld : next.held = []) :
    (s.advance next r).place.held = [] := by
  unfold GbLoop.advance
  dsimp only
  split
  · exact unheld
  · rfl

theorem kept_advance {next : GbPlace} {r : Int × GbProt Wire} (unheld : next.held = [])
    (owned : Owned r.2.store []) (transit : InTransit r.2) : Kept (s.advance next r) where
  owned := by
    rw [held_advance unheld]
    exact owned
  transit := transit

/-- A flush in progress is left alone by the other steps. -/
structure SameFlush (s s' : GbLoop) : Prop where
  tmplst : s'.prot.store.lists .tmplst = s.prot.store.lists .tmplst
  flushed : s'.flushed = s.flushed

theorem kept_send {env : SockEnv} {rpt : GbNode} (kept : Kept s) (ctl : CtlInv s.prot.ctl s.place)
    (place : s.place = .send rpt)
    (room : gbReportBufsz + gbSocketRsvd ≤ (sockBufsz env s.prot.sock.sock).toUInt32.toNat) :
    Kept (s.advance .logout (gbSendReport (wireApi env) rpt s.prot)) ∧
    SameFlush s (s.advance .logout (gbSendReport (wireApi env) rpt s.prot)) := by
  have owned : Owned s.prot.store [rpt] := by
    have owned := kept.owned
    rw [place] at owned
    exact owned
  have online : s.prot.stat.online = true := by
    apply ctl.session
    rw [place]
    trivial
  have home : GbHome (s.prot.store.pack rpt).list := owned.held_home
  have transit := kept.transit.sendReport env rpt online home
  have same : (gbSendReport (wireApi env) rpt s.prot).2.store.lists .tmplst =
      s.prot.store.lists .tmplst →
      SameFlush s (s.advance .logout (gbSendReport (wireApi env) rpt s.prot)) :=
    fun tmplst => ⟨tmplst, rfl⟩
  rcases gbSendReport_cases (wireApi env) rpt s.prot with ⟨small, -⟩ | ⟨-, -, back⟩ | ⟨-, -, sent⟩
  · exact absurd room (by exact Nat.not_le.mpr small)
  · refine ⟨kept_advance rfl ?_ transit, ?_⟩
    · rw [back]
      exact owned.insertAfter _
    · apply same
      rw [back]
      exact putBack_other home (by simp [GbHome])
  · refine ⟨kept_advance rfl ?_ transit, ?_⟩
    · rw [sent]
      exact owned.insertBefore .trans
    · apply same
      rw [sent]
      simp [gbDataPutSend]

theorem kept_call {env : SockEnv} {time : RtcTime} (kept : Kept s)
    (ctl : CtlInv s.prot.ctl s.place)
    (room : s.place.held = [] ∨
      gbReportBufsz + gbSocketRsvd ≤ (sockBufsz env s.prot.sock.sock).toUInt32.toNat)
    (step : gbCall env time s = some s') : Kept s' ∧ SameFlush s s' := by
  have owned : s.place.held = [] → Owned s.prot.store [] := fun unheld => unheld ▸ kept.owned
  -- a call that leaves the store as it is
  have same : ∀ {next : GbPlace} {r : Int × GbProt Wire}, s.place.held = [] → next.held = [] →
      r.2.store = s.prot.store → InTransit r.2 →
      Kept (s.advance next r) ∧ SameFlush s (s.advance next r) := by
    intro next r unheld nextUnheld store transit
    refine ⟨kept_advance nextUnheld ?_ transit, ?_⟩
    · rw [store]
      exact owned unheld
    · exact ⟨congrFun (congrArg GbStore.lists store) .tmplst, rfl⟩
  unfold gbCall at step
  split at step
  next place =>
    cases step
    have unheld : s.place.held = [] := by rw [place]; rfl
    have transit := kept.transit.doChecksock env fun online => ctl.live (.inl online)
    rcases gbDoChecksock_store env s.prot with store | ⟨store, -⟩
    · exact same unheld rfl store transit
    · refine ⟨kept_advance rfl ?_ transit, ?_⟩
      · rw [store]
        exact (owned unheld).ackPack
      · exact ⟨(congrFun (congrArg GbStore.lists store) .tmplst).trans (gbDataAckPack_tmplst _),
          rfl⟩
  next place =>
    cases step
    exact same (by rw [place]; rfl) rfl (gbDoWait_store env time s.prot)
      (kept.transit.doWait env time)
  next place =>
    cases step
    exact same (by rw [place]; rfl) rfl (gbDoLogin_store env time s.prot)
      (kept.transit.doLogin env time)
  next place =>
    cases step
    exact same (by rw [place]; rfl) rfl (gbDoSuspend_store env s.prot)
      (kept.transit.doSuspend env)
  next place =>
    have unheld : s.place.held = [] := by rw [place]; rfl
    split at step
    · cases step
      exact ⟨⟨owned unheld, kept.transit⟩, rfl, rfl⟩
    next rpt store got =>
      cases step
      have trans := gbDataGetPack_same (l := .trans) id got
      refine ⟨⟨(owned unheld).getPack got, ?_⟩, gbDataGetPack_same id got, rfl⟩
      exact kept.transit.of_same rfl trans id
  next rpt place =>
    cases step
    -- a report in hand needs the room that keeps it
    apply kept_send kept ctl place
    rcases room with unheld | room
    · rw [place] at unheld
      cases unheld
    · exact room
  next place =>
    cases step
    exact same (by rw [place]; rfl) rfl (gbDoLogout_store env time s.prot)
      (kept.transit.doLogout env time)
  · cases step
  · cases step

theorem kept_receive {env : SockEnv} {pack : List UInt8} (kept : Kept s)
    (place : s.place = .receive)
    (clear : AcceptsLogin s.prot.stat pack → s.prot.stat.login = false →
      s.prot.store.lists .tmplst = []) :
    let s' := s.advance .receive (gbNoted s.prot pack (gbHandlePack (wireApi env) pack s.prot))
    Kept s' ∧ SameFlush s s' := by
  have owned : Owned s.prot.store [] := by
    have owned := kept.owned
    rw [place] at owned
    exact owned
  have homes : ∀ n ∈ s.prot.store.lists .trans, GbHome (s.prot.store.pack n).list :=
    fun n mem => owned.trans_home mem
  obtain ⟨noted, -⟩ := gbNoted_store s.prot pack (gbHandlePack (wireApi env) pack s.prot)
  have transit : InTransit (gbNoted s.prot pack (gbHandlePack (wireApi env) pack s.prot)).2 := by
    have handled := kept.transit.handlePack env pack homes
    unfold gbNoted
    split
    · exact handled.of_same rfl rfl id
    · exact handled
  have kept' : ∀ store, (gbHandlePack (wireApi env) pack s.prot).2.store = store →
      Owned store [] → store.lists .tmplst = s.prot.store.lists .tmplst →
      Kept (s.advance .receive (gbNoted s.prot pack (gbHandlePack (wireApi env) pack s.prot))) ∧
      SameFlush s
        (s.advance .receive (gbNoted s.prot pack (gbHandlePack (wireApi env) pack s.prot))) := by
    intro store eq owned tmplst
    refine ⟨kept_advance rfl ?_ transit, ?_, rfl⟩
    · rw [noted, eq]
      exact owned
    · change (gbNoted s.prot pack (gbHandlePack (wireApi env) pack s.prot)).2.store.lists _ = _
      rw [noted, eq]
      exact tmplst
  rcases gbHandlePack_store env s.prot pack with
    same | ⟨accepts, delayed | ⟨first, cleared⟩⟩
  · exact kept' _ same owned rfl
  · refine kept' _ delayed owned.flushSending.flushRealtm ?_
    rw [gbDataFlushRealtm_lists, if_neg nofun, if_neg nofun, gbDataFlushSending_tmplst _ homes]
  · refine kept' _ cleared (owned_clearReport _ (clear accepts first)) ?_
    rw [gbDataClearReport_lists, if_neg nofun, if_pos rfl]

/-- A step of the loop that is none of a flush. -/
theorem kept_step {b : GbBuffers} {e : GbLoopEvent} (kept : Kept b.loop)
    (ctl : CtlInv b.loop.prot.ctl b.loop.place) (keeps : KeepsPacks b (.loop e))
    (other : e.ofFlush = false) (step : gbLoopStep b.loop e = some s') :
    Kept s' ∧ SameFlush b.loop s' := by
  obtain ⟨owned, transit⟩ := kept
  -- a step of another thread on the lists that buffers are taken from
  have beside : ∀ {store : GbStore}, Owned store b.loop.place.held →
      (∀ l : GbList, ¬ l.isSource → store.lists l = b.loop.prot.store.lists l) →
      Kept (b.loop.setStore store) ∧ SameFlush b.loop (b.loop.setStore store) := by
    intro store owned' same
    exact ⟨⟨owned', transit.of_same rfl (same .trans id) id⟩, same .tmplst id, rfl⟩
  cases e with
  | saveRealtm groups =>
    obtain ⟨store, saved, rfl⟩ := Option.map_eq_some_iff.mp step
    exact beside (owned.saveFrom 0 groups saved) fun l hl => gbSaveFrom_same hl 0 groups saved
  | flushBegin => cases other
  | flushTake err => cases other
  | flushEnd => cases other
  | flushRealtm =>
    cases step
    refine beside owned.flushRealtm fun l hl => ?_
    rw [gbDataFlushRealtm_lists, if_neg, if_neg]
    · rintro rfl
      exact hl trivial
    · rintro rfl
      exact hl trivial
  | loadDbc =>
    cases step
    obtain ⟨unheld, empty⟩ := keeps
    have cleared := owned_clearReport b.loop.prot.store empty
    refine ⟨⟨?_, transit.sock, ?_, fun _ => ?_⟩, ?_, rfl⟩
    · change Owned (gbDataClearReport b.loop.prot.store) b.loop.place.held
      rw [unheld]
      exact cleared
    · change ((gbDataClearReport b.loop.prot.store).lists .trans).length ≤ _
      rw [gbDataClearReport_lists, if_neg nofun, if_neg nofun]
      exact Nat.zero_le _
    · change ((gbDataClearReport b.loop.prot.store).lists .trans).length ≤ _
      rw [gbDataClearReport_lists, if_neg nofun, if_neg nofun]
      exact Nat.zero_le _
    · change (gbDataClearReport b.loop.prot.store).lists .tmplst = _
      rw [gbDataClearReport_lists, if_neg nofun, if_pos rfl]
  | connected ok =>
    obtain ⟨inprog, step⟩ := Option.ite_none_right_eq_some.mp step
    cases step
    have reserved := transit.sock (.inr inprog)
    refine ⟨⟨owned, fun _ => ?_, transit.few, fun online => ?_⟩, rfl, rfl⟩
    · change (sockFinish ok b.loop.prot.sock.sock).Reserved
      cases ok with
      | true => exact And.left (reserved.of_same rfl rfl rfl)
      | false => exact And.left (reserved.of_same rfl rfl rfl)
    · exact nomatch inprog.symm.trans (ctl.live (.inl online))
  | acknowledged upto =>
    obtain ⟨-, step⟩ := Option.ite_none_right_eq_some.mp step
    cases step
    refine ⟨⟨owned, fun live => ?_, transit.few, transit.session⟩, rfl, rfl⟩
    exact And.left ((transit.sock live).of_same rfl rfl rfl)
  | message env msg =>
    obtain ⟨place, step⟩ := Option.ite_none_right_eq_some.mp step
    rw [place] at owned
    cases msg with
    | none =>
      cases step
      exact ⟨⟨owned, transit⟩, rfl, rfl⟩
    | some msg =>
      cases step
      obtain ⟨lists, pack⟩ := gbHandleMsg_store env msg b.loop.prot
      refine ⟨⟨⟨?_, ?_⟩, transit.handleMsg msg⟩, congrFun lists .tmplst, rfl⟩
      · intro n
        have once := owned.once n
        rw [← lists] at once
        exact once
      · intro n notFree
        have home := owned.home n (lists ▸ notFree)
        rw [← pack] at home
        exact home
  | receive env pack =>
    obtain ⟨place, step⟩ := Option.ite_none_right_eq_some.mp step
    cases step
    exact kept_receive ⟨owned, transit⟩ place keeps
  | received env ok =>
    obtain ⟨place, step⟩ := Option.ite_none_right_eq_some.mp step
    cases step
    rw [place] at owned
    cases ok with
    | true => exact ⟨⟨owned, transit⟩, rfl, rfl⟩
    | false => exact ⟨⟨owned, transit.reset env⟩, rfl, rfl⟩
  | call env time => exact kept_call ⟨owned, transit⟩ ctl keeps step

/-! ### The invariant -/

/-- While a flush holds the lock, what it has taken and what is left on the ring are the packs
that were there. -/
structure BufferInv (b : GbBuffers) : Prop where
  kept : Kept b.loop
  ctl : CtlInv b.loop.prot.ctl b.loop.place
  taken : (b.loop.prot.store.lists .tmplst).length + (if b.locked then b.errs.filled else 0) ≤
    gbMaxError
  idle : b.loop.flushed = none → b.loop.prot.store.lists .tmplst = []

theorem bufferInv_start {b : GbBuffers} (start : GbBufferStart b) : BufferInv b where
  kept := kept_start start.loop
  ctl := ctlInv_start start.loop
  taken := by
    rw [start.loop.lists, if_neg nofun, start.unlocked]
    exact Nat.zero_le _
  idle _ := by rw [start.loop.lists, if_neg nofun]

/-- Without the lock nothing is said of the ring. -/
theorem BufferInv.unlocked {b : GbBuffers} (inv : BufferInv b) (errs : GbErrors)
    (unlocked : b.locked = false) : BufferInv { b with errs } where
  kept := inv.kept
  ctl := inv.ctl
  taken := by
    have taken := inv.taken
    rw [unlocked] at taken ⊢
    exact taken
  idle := inv.idle

theorem flushErrorTake_lists {store store' : GbStore} {err : GbPack}
    (taken : gbFlushErrorTake store err = some store') :
    store'.lists .trans = store.lists .trans ∧
    (store'.lists .tmplst).length = (store.lists .tmplst).length + 1 := by
  obtain ⟨⟨n, t⟩, buffer, rfl⟩ := Option.map_eq_some_iff.mp taken
  have trans := gbTakeBuffer_same (l := .trans) id buffer
  have tmplst := gbTakeBuffer_same (l := .tmplst) id buffer
  constructor
  · simpa using trans
  · simp [tmplst]

theorem bufferInv_step {b b' : GbBuffers} {e : GbBufferEvent} (inv : BufferInv b)
    (fits : ∀ le, e = .loop le → le.Fits) (keeps : KeepsPacks b e)
    (step : gbBufferStep b e = some b') : BufferInv b' := by
  cases e with
  | loop e =>
    obtain ⟨other, step⟩ := Option.ite_none_left_eq_some.mp step
    obtain ⟨loop, moved, rfl⟩ := Option.map_eq_some_iff.mp step
    obtain ⟨kept, tmplst, flushed⟩ := kept_step inv.kept inv.ctl keeps (by simpa using other) moved
    refine ⟨kept, ctlInv_move inv.ctl (gbLoopStep_move (fits e rfl) moved), ?_, fun idle => ?_⟩
    · rw [tmplst]
      exact inv.taken
    · rw [tmplst]
      exact inv.idle (flushed ▸ idle)
  | flushBegin =>
    obtain ⟨-, step⟩ := Option.ite_none_left_eq_some.mp step
    obtain ⟨loop, began, rfl⟩ := Option.map_eq_some_iff.mp step
    obtain ⟨none, began⟩ := Option.ite_none_right_eq_some.mp began
    cases began
    refine ⟨⟨inv.kept.owned, inv.kept.transit⟩, inv.ctl, ?_, nofun⟩
    -- no flush is on, so that nothing is on the temporary list
    have empty : b.loop.prot.store.lists .tmplst = [] := inv.idle none
    dsimp only
    rw [empty, if_pos rfl, List.length_nil, Nat.zero_add]
    exact filled_le b.errs
  | flushTake =>
    obtain ⟨locked, step⟩ := Option.ite_none_right_eq_some.mp step
    obtain ⟨⟨err, errs⟩, take, step⟩ := Option.bind_eq_some_iff.mp step
    obtain ⟨loop, took, rfl⟩ := Option.map_eq_some_iff.mp step
    have fits : (GbLoopEvent.flushTake err).Fits := trivial
    have move := gbLoopStep_move fits took
    obtain ⟨n, -, took⟩ := Option.bind_eq_some_iff.mp took
    obtain ⟨store, taken, rfl⟩ := Option.map_eq_some_iff.mp took
    -- one error fewer in the ring, one pack more on the temporary list
    have fewer := filled_take take
    have before := inv.taken
    rw [if_pos locked] at before
    obtain ⟨trans, tmplst⟩ := flushErrorTake_lists taken
    refine ⟨⟨inv.kept.owned.flushErrorTake taken, inv.kept.transit.of_same rfl trans id⟩,
      ctlInv_move inv.ctl move, ?_, nofun⟩
    change (store.lists .tmplst).length + (if b.locked then errs.filled else 0) ≤ _
    rw [if_pos locked]
    omega
  | flushUnlock =>
    obtain ⟨-, step⟩ := Option.ite_none_right_eq_some.mp step
    cases step
    exact ⟨inv.kept, inv.ctl, (Nat.le_add_right _ _).trans inv.taken, inv.idle⟩
  | flushEnd =>
    obtain ⟨unlocked, step⟩ := Option.ite_none_left_eq_some.mp step
    obtain ⟨loop, ended, rfl⟩ := Option.map_eq_some_iff.mp step
    obtain ⟨n, -, rfl⟩ := Option.map_eq_some_iff.mp ended
    have empty : (gbFlushErrorEnd b.loop.prot.store).lists .tmplst = [] := by
      simp [gbFlushErrorEnd]
    refine ⟨⟨inv.kept.owned.flushErrorEnd, inv.kept.transit.of_same rfl ?_ id⟩, inv.ctl, ?_,
      fun _ => empty⟩
    · simp [GbLoop.setStore, gbFlushErrorEnd]
    · change ((gbFlushErrorEnd b.loop.prot.store).lists .tmplst).length +
        (if b.locked then b.errs.filled else 0) ≤ _
      rw [empty, if_neg unlocked]
      exact Nat.zero_le _
  | saveError groups =>
    obtain ⟨unlocked, step⟩ := Option.ite_none_left_eq_some.mp step
    obtain ⟨errs, -, rfl⟩ := Option.map_eq_some_iff.mp step
    exact inv.unlocked errs (by simpa using unlocked)
  | clearError =>
    obtain ⟨unlocked, step⟩ := Option.ite_none_left_eq_some.mp step
    cases step
    exact inv.unlocked _ (by simpa using unlocked)
  | errorInit groups =>
    obtain ⟨unlocked, step⟩ := Option.ite_none_left_eq_some.mp step
    cases step
    exact inv.unlocked _ (by simpa using unlocked)

/-- One node is on the free, the delay or the realtime list: the others are too few. -/
theorem Owned.buffer {s : GbStore} {held : List GbNode} (owned : Owned s held)
    (one : held.length ≤ 1) (few : (s.lists .trans).length ≤ sockMaxSync - sockBack)
    (taken : (s.lists .tmplst).length ≤ gbMaxError) : gbTakeBuffer s ≠ none := by
  intro none
  obtain ⟨free, delay, realtm⟩ := gbTakeBuffer_none.mp none
  have bound := owned.pool_length
  rw [GbStore.pool, free, delay, realtm] at bound
  have short : sockMaxSync - sockBack + gbMaxError + 1 < gbMaxReport := by decide
  simp only [List.append_nil, List.length_nil] at bound
  omega

theorem held_le (p : GbPlace) : p.held.length ≤ 1 := by
  cases p with
  | send rpt => exact le_rfl
  | _ => exact Nat.zero_le _

/-- No round of a save runs out of buffers. -/
theorem saveFrom_isSome {s : GbStore} {held : List GbNode} (owned : Owned s held)
    (one : held.length ≤ 1) (few : (s.lists .trans).length ≤ sockMaxSync - sockBack)
    (taken : (s.lists .tmplst).length ≤ gbMaxError) (i : Nat) (groups : List (List UInt8)) :
    (gbSaveFrom s i groups).isSome := by
  induction groups generalizing s i with
  | nil => rfl
  | cons data rest ih =>
    obtain ⟨⟨n, t⟩, buffer⟩ := Option.ne_none_iff_exists'.mp (owned.buffer one few taken)
    have saved : gbSaveOne s i data = some
        ((t.setPack n ⟨data, i + 1, gbRpttypeRealtm, .realtm⟩).insertBefore .realtm n) := by
      unfold gbSaveOne
      rw [buffer]
      rfl
    have trans := gbTakeBuffer_same (l := .trans) id buffer
    have tmplst := gbTakeBuffer_same (l := .tmplst) id buffer
    unfold gbSaveFrom
    rw [saved]
    apply ih (owned.saveOne saved)
    · simpa [trans] using few
    · simpa [tmplst] using taken

theorem bufferInv_reach {b : GbBuffers} (reach : GbBufferReach KeepsPacks b) : BufferInv b := by
  have starts : ∀ b, GbBufferStart b → BufferInv b := by
    intro b start
    exact bufferInv_start start
  have kept : ∀ b e b', BufferInv b →
      Guarded (fun b e => (∀ le, e = .loop le → le.Fits) ∧ KeepsPacks b e)
        (fun b e b' => gbBufferStep b e = some b') b e b' → BufferInv b' := by
    rintro b e b' inv ⟨⟨fits, keeps⟩, step⟩
    exact bufferInv_step inv fits keeps step
  exact Reach.invariant starts kept reach

/-- In a run in which `gb_do_report` finds room for the pack it takes, and no clear of the lists
finds a pack held, one of the three lists has a node whenever a buffer is needed: no save and no
error flush comes to the endless loop. -/
theorem buffers_left {b : GbBuffers} (reach : GbBufferReach KeepsPacks b) :
    gbTakeBuffer b.loop.prot.store ≠ none ∧
    (∀ groups, (gbDataSaveRealtm b.loop.prot.store groups).isSome) ∧
    (∀ err, (gbFlushErrorTake b.loop.prot.store err).isSome) := by
  obtain ⟨⟨owned, transit⟩, -, taken, -⟩ := bufferInv_reach reach
  have taken := (Nat.le_add_right _ _).trans taken
  have one := held_le b.loop.place
  have buffer := owned.buffer one transit.few taken
  refine ⟨buffer, fun groups => saveFrom_isSome owned one transit.few taken 0 groups, fun err => ?_⟩
  unfold gbFlushErrorTake
  rw [Option.isSome_map, Option.isSome_iff_ne_none]
  exact buffer

end Gb32960
