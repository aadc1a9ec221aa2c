import TBoxMpu.Foton.Runs
import TBoxMpu.Foton.CacheFifo

/-!
# What a power-off preserves

No step of the report lists makes a second copy of a report, so that the reports saved are
at all times the acknowledged ones, the held ones and the lost ones. `ft_cache_save_all`
moves the waiting reports to the cache and leaves those that are with the socket.
-/

namespace Foton

/-! ### The reports held -/

theorem ftHeld_eq (s : FtStore) : ftHeld s = ↑(s.waiting.map FtPack.report) +
    ↑((s.lists .trans).map FtPack.report) + ↑((s.lists .tmplst).map FtPack.report) +
    ↑(ftCached s) := by
  have lists : Heads.total ftReportLists FtPack.report s.lists =
      ↑((s.lists .delay).map FtPack.report) + (↑((s.lists .realtm).map FtPack.report) +
        (↑((s.lists .trans).map FtPack.report) + ↑((s.lists .tmplst).map FtPack.report))) := by
    rw [Heads.total, ftReportLists, Finset.sum_insert (by decide), Finset.sum_insert (by decide),
      Finset.sum_insert (by decide), Finset.sum_singleton]
  rw [ftHeld, lists, FtStore.waiting, List.map_append, ← Multiset.coe_add, ftCached]
  simp only [add_assoc]

/-- The step kept the ring and its file, and made no second copy of a report. -/
structure Keeps (s t : FtStore) (added removed : Multiset FtReport) : Prop where
  ring : t.InRing
  info : s.InfoRight → t.InfoRight
  held : ftHeld t + removed ≤ ftHeld s + added

/-- A step on the lists alone. -/
theorem Keeps.lists {s : FtStore} (ring : s.InRing) {lists : FtList → List FtPack}
    {added removed : Multiset FtReport}
    (total : Heads.total ftReportLists FtPack.report lists + removed ≤
      Heads.total ftReportLists FtPack.report s.lists + added) :
    Keeps s { s with lists } added removed where
  ring := ring
  info := id
  held := by
    rw [ftHeld, ftHeld, add_right_comm, add_right_comm _ _ added]
    exact add_le_add_left total _

theorem Keeps.trans {s t u : FtStore} {added added' removed : Multiset FtReport}
    (first : Keeps s t added 0) (second : Keeps t u added' removed) :
    Keeps s u (added + added') removed where
  ring := second.ring
  info := second.info ∘ first.info
  held := by
    have here := first.held
    rw [add_zero] at here
    rw [← add_assoc]
    exact second.held.trans (add_le_add_left here _)

theorem Spilled.keeps {packs : List FtPack} {s t : FtStore} (spilled : Spilled packs s t)
    (ring : s.InRing) (info : s.InfoRight → t.InfoRight) : Keeps s t 0 0 where
  ring := spilled.ring ring
  info := info
  held := by
    have kept : (↑(ftCached t) : Multiset FtReport) ≤
        ↑(ftCached s) + ↑(packs.map FtPack.report) := by
      rw [spilled.cached ring, Multiset.coe_add]
      exact (SlotRing.keepLast_sublist _ _).subperm
    rw [add_zero, add_zero, ftHeld_eq, ftHeld_eq, spilled.sending, spilled.errors, spilled.taken,
      List.map_append, ← Multiset.coe_add]
    calc ↑(t.waiting.map FtPack.report) + ↑((s.lists .trans).map FtPack.report) +
          ↑((s.lists .tmplst).map FtPack.report) + (↑(ftCached t) : Multiset FtReport)
        ≤ ↑(t.waiting.map FtPack.report) + ↑((s.lists .trans).map FtPack.report) +
          ↑((s.lists .tmplst).map FtPack.report) +
          (↑(ftCached s) + ↑(packs.map FtPack.report)) := add_le_add_right kept _
      _ = _ := by
        simp only [add_assoc, add_comm, add_left_comm]

theorem Loaded.keeps {packs : List FtPack} {s t : FtStore} (loaded : Loaded packs s t)
    (ring : s.InRing) (info : s.InfoRight → t.InfoRight) : Keeps s t 0 0 where
  ring := loaded.ring ring
  info := info
  held := by
    have cached : ftCached s = packs.map FtPack.report ++ ftCached t := loaded.pending ring
    rw [add_zero, add_zero, ftHeld_eq, ftHeld_eq, FtStore.waiting, FtStore.waiting, loaded.delay,
      loaded.realtm, loaded.sending, loaded.errors, cached]
    simp only [List.map_append, ← Multiset.coe_add]
    apply le_of_eq
    simp only [add_assoc, add_comm, add_left_comm]

theorem Keeps.refl {s : FtStore} (ring : s.InRing) : Keeps s s 0 0 :=
  ⟨ring, id, le_rfl⟩

/-! ### The CAN thread -/

/-- A node taken from the free list holds no report, one taken from a report list loses its. -/
theorem ftTakeBuffer_total {s : FtStore} {rpt : FtPack} {lists : FtList → List FtPack}
    (h : ftTakeBuffer s = some (rpt, lists)) :
    Heads.total ftReportLists FtPack.report lists ≤
      Heads.total ftReportLists FtPack.report s.lists := by
  rcases Option.or_eq_some_iff.mp h with free | ⟨-, oldest⟩
  · rw [Heads.total_getFirst _ _ free]
    exact Multiset.le_add_right _ _
  · rcases Option.or_eq_some_iff.mp oldest with delay | ⟨-, realtm⟩
    · rw [Heads.total_getFirst _ _ delay]
      exact Multiset.le_add_right _ _
    · rw [Heads.total_getFirst _ _ realtm]
      exact Multiset.le_add_right _ _

theorem ftMakeRoom_keeps {ops : FileOps} (ok : ops.Succeed) {s t : FtStore} (ring : s.InRing)
    (h : ftMakeRoom ops s = some t) : Keeps s t 0 0 := by
  unfold ftMakeRoom at h
  split at h
  · obtain ⟨⟨r, u⟩, run, rfl⟩ := Option.map_eq_some_iff.mp h
    obtain ⟨-, moved, info⟩ := ftCacheSave_spilled ok run
    exact moved.keeps ring info
  · cases h
    exact .refl ring

theorem ftSaveOne_keeps {ops : FileOps} (ok : ops.Succeed) {s t : FtStore} {i : Nat}
    {data : List UInt8} (ring : s.InRing) (h : ftSaveOne ops s i data = some t) :
    Keeps s t {(data, i + 1)} 0 := by
  obtain ⟨m, room, h⟩ := Option.bind_eq_some_iff.mp h
  obtain ⟨⟨node, lists⟩, take, rfl⟩ := Option.map_eq_some_iff.mp h
  have spilled := ftMakeRoom_keeps ok ring room
  have filled : ∀ pack : FtPack, pack.report = (data, i + 1) →
      Keeps m { m with lists := Heads.insertBefore lists .realtm pack } {(data, i + 1)} 0 := by
    intro pack report
    apply Keeps.lists spilled.ring
    rw [Heads.total_insertBefore, add_zero, ← report]
    exact add_le_add (ftTakeBuffer_total take) (Heads.worth_le _ _ _ _)
  simpa using spilled.trans (filled _ rfl)

theorem ftSaveFrom_keeps {groups : List (FileOps × List UInt8)} {s t : FtStore} {i : Nat}
    (ok : ∀ group ∈ groups, group.1.Succeed) (ring : s.InRing)
    (h : ftSaveFrom s i groups = some t) : Keeps s t (ftGroupReports i groups) 0 := by
  induction groups generalizing s i with
  | nil =>
    cases h
    exact .refl ring
  | cons group rest ih =>
    obtain ⟨m, first, h⟩ := Option.bind_eq_some_iff.mp h
    have one := ftSaveOne_keeps (ok group List.mem_cons_self) ring first
    exact one.trans (ih (fun g mem => ok g (List.mem_cons_of_mem _ mem)) one.ring h)

theorem ftFlushErrorTake_keeps {s t : FtStore} {err : FtPack} (ring : s.InRing)
    (h : ftFlushErrorTake s err = some t) : Keeps s t {err.report} 0 := by
  obtain ⟨⟨node, lists⟩, take, rfl⟩ := Option.map_eq_some_iff.mp h
  apply Keeps.lists ring
  rw [Heads.total_insertAfter, add_zero]
  exact add_le_add (ftTakeBuffer_total take) (Heads.worth_le _ _ _ _)

theorem ftFlushErrorEnd_keeps {s : FtStore} (ring : s.InRing) :
    Keeps s (ftFlushErrorEnd s) 0 0 := by
  apply Keeps.lists ring
  rw [add_zero, add_zero]
  have second := Heads.total_set ftReportLists FtPack.report
    (Heads.set s.lists .delay (s.lists .delay ++ s.lists .tmplst)) .tmplst []
  have first := Heads.total_set ftReportLists FtPack.report s.lists .delay
    (s.lists .delay ++ s.lists .tmplst)
  rw [if_pos (by decide), if_pos (by decide), List.map_append, ← Multiset.coe_add,
    ← add_assoc, add_right_comm] at first
  rw [if_pos (by decide), if_pos (by decide), Heads.set_apply, if_neg (by decide),
    List.map_nil, Multiset.coe_nil, add_zero, add_right_cancel first] at second
  exact (add_right_cancel second).le

/-- Moved one by one to lists that may count or not. -/
theorem total_foldl_le {f : FtPack → FtList} {g : FtPack → FtPack}
    (same : ∀ rpt, (g rpt).report = rpt.report) (packs : List FtPack)
    (lists : FtList → List FtPack) :
    Heads.total ftReportLists FtPack.report
        (packs.foldl (fun lists rpt => Heads.insertBefore lists (f rpt) (g rpt)) lists) ≤
      Heads.total ftReportLists FtPack.report lists + ↑(packs.map FtPack.report) := by
  induction packs generalizing lists with
  | nil => simp
  | cons rpt rest ih =>
    refine (ih _).trans ?_
    rw [Heads.total_insertBefore, add_assoc, List.map_cons, ← Multiset.cons_coe,
      ← Multiset.singleton_add, ← same rpt]
    exact add_le_add le_rfl (add_le_add (Heads.worth_le _ _ _ _) le_rfl)

theorem total_foldr_le {f : FtPack → FtList} (packs : List FtPack)
    (lists : FtList → List FtPack) :
    Heads.total ftReportLists FtPack.report
        (packs.foldr (fun rpt lists => Heads.insertAfter lists (f rpt) rpt) lists) ≤
      Heads.total ftReportLists FtPack.report lists + ↑(packs.map FtPack.report) := by
  induction packs with
  | nil => simp
  | cons rpt rest ih =>
    rw [List.foldr_cons, Heads.total_insertAfter, List.map_cons, ← Multiset.cons_coe,
      ← Multiset.singleton_add, add_left_comm, add_comm _ (Heads.worth _ _ _ _)]
    exact add_le_add (Heads.worth_le _ _ _ _) ih

/-- A list emptied, and its packs put elsewhere. -/
theorem total_emptied (s : FtStore) {l : FtList} (on : l ∈ ftReportLists) :
    Heads.total ftReportLists FtPack.report (Heads.set s.lists l []) +
      ↑((s.lists l).map FtPack.report) = Heads.total ftReportLists FtPack.report s.lists := by
  have change := Heads.total_set ftReportLists FtPack.report s.lists l []
  rw [if_pos on, if_pos on, List.map_nil, Multiset.coe_nil, add_zero] at change
  exact change

theorem ftDataFlushRealtm_keeps {s : FtStore} (ring : s.InRing) :
    Keeps s (ftDataFlushRealtm s) 0 0 := by
  apply Keeps.lists ring
  rw [add_zero, add_zero, ← total_emptied s (show .realtm ∈ ftReportLists by decide)]
  exact total_foldl_le FtPack.report_delayed _ _

/-! ### The protocol thread -/

theorem ftDataFlushSending_keeps {s : FtStore} (ring : s.InRing) :
    Keeps s (ftDataFlushSending s) 0 0 := by
  apply Keeps.lists ring
  rw [add_zero, add_zero, ← total_emptied s (show .trans ∈ ftReportLists by decide)]
  exact total_foldr_le _ _

theorem ftDataAckPack_keeps {s : FtStore} (ring : s.InRing) :
    Keeps s (ftDataAckPack s) 0 (ftAcked s) := by
  unfold ftDataAckPack
  split
  next none =>
    rw [ftAcked, Heads.getFirst_none.mp none]
    exact .refl ring
  next rpt lists first =>
    obtain ⟨rest, content, -⟩ := Heads.getFirst_some first
    apply Keeps.lists ring
    rw [Heads.total_getFirst _ _ first, Heads.total_insertBefore, ftAcked, content, add_zero,
      show Heads.worth ftReportLists FtPack.report .free rpt = 0 from rfl, add_zero]
    exact le_rfl

theorem ftRefill_keeps {ops : FileOps} (ok : ops.Succeed) {s t : FtStore} (ring : s.InRing)
    (h : ftRefill ops s = some t) : Keeps s t 0 0 := by
  unfold ftRefill at h
  split at h
  · obtain ⟨⟨r, u⟩, run, rfl⟩ := Option.map_eq_some_iff.mp h
    obtain ⟨moved, -, info⟩ := ftCacheLoad_loaded ok ring run
    exact moved.keeps ring info
  · cases h
    exact .refl ring

theorem ftTakeDelayed_total {s : FtStore} {rpt : FtPack} {lists : FtList → List FtPack}
    (h : ftTakeDelayed s = some (rpt, lists)) :
    Heads.total ftReportLists FtPack.report s.lists =
      Heads.total ftReportLists FtPack.report lists + {rpt.report} := by
  unfold ftTakeDelayed at h
  split at h
  · exact Heads.total_getLast _ _ h
  · exact Heads.total_getFirst _ _ h

theorem ftDataGetPack_keeps {ops : FileOps} (ok : ops.Succeed) {s t : FtStore}
    {rpt : Option FtPack} (ring : s.InRing) (h : ftDataGetPack ops s = some (rpt, t)) :
    Keeps s t 0 (handed rpt) := by
  unfold ftDataGetPack at h
  split at h
  next rpt lists realtm =>
    cases h
    apply Keeps.lists ring
    rw [Heads.total_getFirst _ _ realtm, add_zero]
    exact le_rfl
  next none =>
    obtain ⟨m, refill, h⟩ := Option.map_eq_some_iff.mp h
    have loaded := ftRefill_keeps ok ring refill
    split at h
    · cases h
      exact loaded
    next rpt lists take =>
      cases h
      have handing : Keeps m { m with lists } 0 (handed (some rpt)) := by
        apply Keeps.lists loaded.ring
        rw [ftTakeDelayed_total take, add_zero]
        exact le_rfl
      simpa using loaded.trans handing

/-! ### Runs -/

/-- All reports saved are acknowledged, held or lost. -/
structure Accounted (s : FtRun) : Prop where
  ring : s.store.InRing
  info : s.store.InfoRight
  account : s.saved = s.acked + s.holds + s.lost

/-- A step that makes no second copy keeps the account. -/
theorem Accounted.become {s : FtRun} (inv : Accounted s) {store : FtStore} {hand : Option FtPack}
    {saved acked : Multiset FtReport} (ring : store.InRing) (info : store.InfoRight)
    (held : ftHeld store + handed hand + acked ≤ s.holds + saved) :
    Accounted (s.become store hand saved acked) where
  ring := ring
  info := info
  account := by
    have rest := add_tsub_cancel_of_le held
    simp only [FtRun.become, FtRun.holds] at rest ⊢
    calc s.saved + saved = s.acked + s.lost + (ftHeld s.store + handed s.hand + saved) := by
          rw [inv.account, FtRun.holds]
          simp only [add_comm, add_left_comm]
      _ = _ := by
          conv_lhs => rw [← rest]
          simp only [add_assoc, add_comm, add_left_comm]

/-- The step of an operation that leaves the hand alone. -/
theorem Accounted.keeps {s : FtRun} (inv : Accounted s) {store : FtStore}
    {saved acked : Multiset FtReport} (keeps : Keeps s.store store saved acked) :
    Accounted (s.become store s.hand saved acked) := by
  apply inv.become keeps.ring (keeps.info inv.info)
  rw [FtRun.holds, add_right_comm, add_right_comm _ _ saved]
  exact add_le_add keeps.held le_rfl

/-- A pack in hand goes back to a list. -/
theorem Accounted.handBack {s : FtRun} (inv : Accounted s) {rpt : FtPack}
    (holding : s.hand = some rpt) {lists : FtList → List FtPack}
    (total : Heads.total ftReportLists FtPack.report lists ≤
      Heads.total ftReportLists FtPack.report s.store.lists + {rpt.report}) :
    Accounted (s.become { s.store with lists } none 0 0) := by
  have keeps : Keeps s.store { s.store with lists } {rpt.report} 0 := by
    apply Keeps.lists inv.ring
    rw [add_zero]
    exact total
  apply inv.become keeps.ring (keeps.info inv.info)
  rw [FtRun.holds, holding, show handed none = 0 from rfl]
  simpa [handed] using keeps.held

theorem ftStep_accounted {s t : FtRun} {a : FtAct} (inv : Accounted s) (ok : a.Succeed)
    (step : ftStep s a = some t) : Accounted t := by
  cases a with
  | saveRealtm groups =>
    obtain ⟨m, run, rfl⟩ := Option.map_eq_some_iff.mp step
    exact inv.keeps (ftSaveFrom_keeps ok inv.ring run)
  | flushErrorTake err =>
    obtain ⟨m, run, rfl⟩ := Option.map_eq_some_iff.mp step
    exact inv.keeps (ftFlushErrorTake_keeps inv.ring run)
  | flushErrorEnd =>
    cases step
    exact inv.keeps (ftFlushErrorEnd_keeps inv.ring)
  | flushRealtm =>
    cases step
    exact inv.keeps (ftDataFlushRealtm_keeps inv.ring)
  | emergence set =>
    cases step
    exact inv.keeps ⟨inv.ring, id, le_rfl⟩
  | ack =>
    cases step
    exact inv.keeps (ftDataAckPack_keeps inv.ring)
  | getPack ops =>
    obtain ⟨empty, rpt, m, run, rfl⟩ := ftStep_getPack step
    have keeps := ftDataGetPack_keeps ok inv.ring run
    apply inv.become keeps.ring (keeps.info inv.info)
    rw [FtRun.holds, empty, show handed none = 0 from rfl]
    simpa using keeps.held
  | noRoom =>
    -- the report in hand is lost, and less is held
    obtain ⟨rpt, holding, rfl⟩ := Option.map_eq_some_iff.mp step
    apply inv.become inv.ring inv.info
    rw [FtRun.holds, show handed none = 0 from rfl, add_zero, add_zero, add_zero]
    exact Multiset.le_add_right _ _
  | notSent =>
    obtain ⟨rpt, holding, rfl⟩ := Option.map_eq_some_iff.mp step
    apply inv.handBack holding
    rw [Heads.total_insertAfter]
    exact add_le_add le_rfl (Heads.worth_le _ _ _ _)
  | sent =>
    obtain ⟨rpt, holding, rfl⟩ := Option.map_eq_some_iff.mp step
    apply inv.handBack holding
    rw [Heads.total_insertBefore]
    exact add_le_add le_rfl (Heads.worth_le _ _ _ _)
  -- with the hand empty, these two move whole lists
  | flushSending =>
    obtain ⟨empty, rfl⟩ := ftStep_flushSending step
    exact empty ▸ inv.keeps (ftDataFlushSending_keeps inv.ring)
  | powerOff ops =>
    obtain ⟨empty, rfl⟩ := ftStep_powerOff step
    obtain ⟨-, spilled, info⟩ := ftCacheSaveAll_spilled ok (ftDataEmergence s.store false)
    have keeps := spilled.keeps inv.ring info
    exact empty ▸ inv.keeps ⟨keeps.ring, keeps.info, keeps.held⟩

theorem FtStart.accounted {s : FtRun} (start : FtStart s) : Accounted s := by
  obtain ⟨files, ring, rfl⟩ := start
  refine ⟨ring, rfl, ?_⟩
  simp [FtRun.holds, handed]

/-- The reachable states when all file operations succeed. -/
def FtReach (s : FtRun) : Prop :=
  Runs.Reach FtStart (Runs.Guarded (fun _ a => a.Succeed) fun s a t => ftStep s a = some t) s

theorem reach_accounted {s : FtRun} (reach : FtReach s) : Accounted s := by
  refine Runs.Reach.invariant ?_ ?_ reach
  · intro s start
    exact start.accounted
  · rintro s a t inv ⟨ok, step⟩
    exact ftStep_accounted inv ok step

/-! ### The power-off -/

/-- After a restart every report saved and not acknowledged is loaded once, as far as loads
are made, or else waits in the cache. -/
def FtRun.Preserved (t : FtRun) : Prop :=
  ∀ loads history u, (∀ call ∈ loads, call.1 = CacheCall.load ∧ call.2.Succeed) →
    cacheCalls loads (ftDataInit t.store) = some (history, u) →
    (↑(SlotRing.takenAll history ++ ftCached u) : Multiset FtReport) = t.saved - t.acked

/-- No report is with the socket or in the hands of an error flush, none was dropped before,
and the ring has room for those that wait. -/
structure FtRun.OffSafe (s : FtRun) : Prop where
  sending : s.store.lists .trans = []
  errors : s.store.lists .tmplst = []
  lost : s.lost = 0
  room : (ftPending s.store).length + s.store.waiting.length ≤ 65535

theorem loads_putAll {loads : List (CacheCall × FileOps)} {s u : FtStore}
    {history : List (SlotRing.Op FtReport)} (only : ∀ call ∈ loads, call.1 = .load)
    (run : cacheCalls loads s = some (history, u)) : SlotRing.putAll history = [] := by
  induction loads generalizing s history with
  | nil =>
    cases run
    rfl
  | cons call rest ih =>
    obtain ⟨⟨op, m⟩, first, run⟩ := Option.bind_eq_some_iff.mp run
    obtain ⟨⟨tail, v⟩, following, eq⟩ := Option.bind_eq_some_iff.mp run
    cases eq
    obtain ⟨kind, ops⟩ := call
    obtain rfl : kind = .load := only _ List.mem_cons_self
    obtain ⟨⟨r, w⟩, -, eq⟩ := Option.map_eq_some_iff.mp first
    cases eq
    rw [SlotRing.putAll]
    exact ih (fun call mem => only call (List.mem_cons_of_mem _ mem)) following

/-- A restart finds the ring as it was left. -/
theorem ftDataInit_cached {s : FtStore} (info : s.InfoRight) (ring : s.InRing) :
    (ftDataInit s).InRing ∧ ftCached (ftDataInit s) = ftCached s := by
  have right : ftCacheLoadInfo s = (s.indexR, s.indexW) := info
  simp only [ftDataInit, right, ftCached, ftPending, FtStore.InRing]
  exact ⟨ring, trivial⟩

/-- Loads after a restart take the cached reports one after the other. -/
theorem preserved_iff {t : FtRun} (ring : t.store.InRing) (info : t.store.InfoRight) :
    t.Preserved ↔ (↑(ftCached t.store) : Multiset FtReport) = t.saved - t.acked := by
  obtain ⟨inside, same⟩ := ftDataInit_cached info ring
  constructor
  · intro preserved
    have none := preserved [] [] (ftDataInit t.store) (by simp) rfl
    rwa [SlotRing.takenAll, List.nil_append, same] at none
  · intro cached loads history u only run
    have queue := cacheCalls_queue inside (fun call mem => (only call mem).2) run
    have put := loads_putAll (fun call mem => (only call mem).1) run
    have short := ftPending_length_lt inside
    rw [← cached, ← same, queue.lossless, put, List.append_nil]
    rw [put, List.append_nil, ftCached, List.length_map]
    omega

/-- The first start, without files. -/
def ftFirstStart : FtRun :=
  ⟨ftFresh, none, ftHeld ftFresh, 0, 0⟩

theorem ftFirstStart_start : FtStart ftFirstStart :=
  ⟨⟨fun _ => [], false, 0, 0, fun _ => ftBlankPack 0, none⟩,
    ⟨show 0 < ftCacheSize by decide, show 0 < ftCacheSize by decide⟩, rfl⟩

def ftRunActs (acts : List FtAct) : Option FtRun :=
  acts.foldlM ftStep ftFirstStart

/-- One report is saved. -/
def ftSaving : List FtAct := [.saveRealtm [(.fine, [1])]]

/-- It is sent and not acknowledged. -/
def ftSending : List FtAct := ftSaving ++ [.getPack .fine, .sent]

theorem ftSending_succeed : ∀ a ∈ ftSending, ∀ _ : FtRun, FtAct.Succeed a := by
  intro a mem _
  simp only [ftSending, ftSaving, List.singleton_append, List.mem_cons, List.not_mem_nil,
    or_false] at mem
  rcases mem with rfl | rfl | rfl
  · simp [FtAct.Succeed, FileOps.fine_succeed]
  · exact FileOps.fine_succeed
  · trivial

theorem ftRunActs_reach {acts : List FtAct} {s : FtRun} (part : acts ⊆ ftSending)
    (run : ftRunActs acts = some s) : FtReach s :=
  (Runs.Reach.start ftFirstStart_start).run acts (fun a mem => ftSending_succeed a (part mem)) run

/-- How many reports are with the socket, in an error flush, lost, in the cache and waiting. -/
def ftPlaces (s : FtRun) : List Nat :=
  [(s.store.lists .trans).length, (s.store.lists .tmplst).length, s.lost.card,
    (ftPending s.store).length, s.store.waiting.length]

end Foton
