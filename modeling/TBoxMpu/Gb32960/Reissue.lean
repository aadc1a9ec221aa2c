import TBoxMpu.Gb32960.Session

/-!
# Re-issue after a reconnection

When a re-login is accepted, every report not yet acknowledged becomes a delayed report.
`saveLine` puts the reports back where they came from: those in transmission or in hand
before the rest of their home list, the delayed ones before the realtime ones. With the
emergency flag clear this line is at all times in the order in which the reports were
saved, and it is what a re-login leaves on the delay list.

## Main result

`relogin_reissues`: at the step that accepts a re-login, in every run, all reports are on
the delay list, once, as delayed reports and in order.
-/

namespace Gb32960

open Sock Runs

/-- The reports of one home list, those in transmission or in hand first. -/
def homeLine (s : GbStore) (held : List GbNode) (home : GbList) : List GbNode :=
  (s.lists .trans ++ held).filter (fun n => (s.pack n).list = home) ++ s.lists home

def saveLine (s : GbStore) (held : List GbNode) : List GbNode :=
  homeLine s held .delay ++ homeLine s held .realtm

/-- The reports stand in the order of their numbers, and each list is the home of the
reports on it. -/
structure Ordered (s : GbStore) (held : List GbNode) (hist : GbHistory) : Prop where
  sorted : (saveLine s held).Pairwise fun m n => hist.stamp m < hist.stamp n
  past : ∀ n ∈ saveLine s held, hist.stamp n < hist.clock
  home : ∀ l, GbHome l → ∀ n ∈ s.lists l, (s.pack n).list = l
  type : ∀ n ∈ saveLine s held, (s.pack n).list = .delay → (s.pack n).type = gbRpttypeDelay

variable {s s' : GbStore} {held held' : List GbNode} {hist : GbHistory} {n : GbNode}

theorem mem_saveLine : n ∈ saveLine s held ↔
    (n ∈ s.lists .trans ∨ n ∈ held) ∧ GbHome (s.pack n).list ∨
      n ∈ s.lists .delay ∨ n ∈ s.lists .realtm := by
  simp only [saveLine, homeLine, List.mem_append, List.mem_filter, decide_eq_true_eq, GbHome]
  tauto

/-- A step that takes reports off the line, or leaves it alone. -/
theorem Ordered.mono (o : Ordered s held hist)
    (line : (saveLine s' held').Sublist (saveLine s held))
    (pack : ∀ n ∈ saveLine s' held', s'.pack n = s.pack n)
    (home : ∀ l, GbHome l → ∀ n ∈ s'.lists l, (s'.pack n).list = l) :
    Ordered s' held' hist := by
  refine ⟨o.sorted.sublist line, fun n mem => o.past n (line.subset mem), home, ?_⟩
  intro n mem delayed
  rw [pack n mem] at delayed ⊢
  exact o.type n (line.subset mem) delayed

/-- A step that only moves the border between the parts of the line. -/
theorem Ordered.same (o : Ordered s held hist) (line : saveLine s' held' = saveLine s held)
    (pack : s'.pack = s.pack) (home : ∀ l, GbHome l → ∀ n ∈ s'.lists l, (s'.pack n).list = l) :
    Ordered s' held' hist :=
  o.mono (line ▸ List.Sublist.refl _) (fun n _ => congrFun pack n) home

theorem Ordered.getPack (o : Ordered s [] hist) (calm : s.emerg = false)
    (got : gbDataGetPack s = some (n, s')) : Ordered s' [n] hist := by
  have homeOf := o.home
  rcases gbDataGetPack_some got with ⟨ns, content, rfl⟩ | ⟨-, -, ns, content, rfl⟩ |
    ⟨-, set, -⟩
  · have home : (s.pack n).list = .realtm := o.home .realtm (.inl rfl) n (by simp [content])
    refine o.same ?_ rfl ?_
    · simp [saveLine, homeLine, List.filter_append, home, content]
      rfl
    · intro l hl m mem
      refine homeOf l hl m ?_
      by_cases same : l = .realtm
      · subst same; simp_all
      · simpa [same] using mem
  · have home : (s.pack n).list = .delay := o.home .delay (.inr rfl) n (by simp [content])
    refine o.same ?_ rfl ?_
    · simp [saveLine, homeLine, List.filter_append, home, content]
      rfl
    · intro l hl m mem
      refine homeOf l hl m ?_
      by_cases same : l = .delay
      · subst same; simp_all
      · simpa [same] using mem
  · exact absurd (calm.symm.trans set) nofun

theorem Ordered.putBack (o : Ordered s [n] hist) (home : GbHome (s.pack n).list) :
    Ordered (gbDataPutBack s n) [] hist := by
  have homeOf := o.home
  refine o.same ?_ rfl ?_
  · rcases home with home | home <;>
      simp [saveLine, homeLine, gbDataPutBack, List.filter_append, home]
  · intro l hl m mem
    by_cases same : l = (s.pack n).list
    · subst same
      rcases List.mem_cons.mp (by simpa [gbDataPutBack] using mem) with rfl | old
      · rfl
      · exact homeOf _ hl m old
    · exact homeOf l hl m (by simpa [gbDataPutBack, same] using mem)

theorem Ordered.putSend (o : Ordered s [n] hist) : Ordered (gbDataPutSend s n) [] hist := by
  have homeOf := o.home
  refine o.same ?_ rfl ?_
  · simp [saveLine, homeLine, gbDataPutSend]
    rfl
  · intro l hl m mem
    refine homeOf l hl m ?_
    rcases hl with rfl | rfl <;> simpa [gbDataPutSend] using mem

theorem Ordered.lost (o : Ordered s [n] hist) : Ordered s [] hist := by
  refine o.mono ?_ (fun _ _ => rfl) o.home
  simp only [saveLine, homeLine, List.filter_append, List.append_nil]
  refine List.Sublist.append (List.Sublist.append_right ?_ _) (List.Sublist.append_right ?_ _) <;>
    exact List.sublist_append_left ..

theorem Ordered.ackPack (o : Ordered s held hist) : Ordered (gbDataAckPack s) held hist := by
  have homeOf := o.home
  rcases gbDataAckPack_cases s with ⟨-, eq⟩ | ⟨n, ns, content, eq⟩
  · rw [eq]; exact o
  · rw [eq]
    refine o.mono ?_ (fun _ _ => rfl) ?_
    · have shorter : ∀ home, (ns.filter fun m => (s.pack m).list = home).Sublist
          ((s.lists .trans).filter fun m => (s.pack m).list = home) := by
        intro home
        rw [content]
        exact (List.sublist_cons_self n ns).filter _
      simp only [saveLine, homeLine, List.filter_append, GbStore.insertBefore_lists,
        GbStore.setList_lists, GbStore.insertBefore_pack, GbStore.setList_pack]
      simp only [reduceCtorEq, if_true, if_false]
      exact (((shorter .delay).append_right _).append_right _).append
        (((shorter .realtm).append_right _).append_right _)
    · intro l hl m mem
      refine homeOf l hl m ?_
      rcases hl with rfl | rfl <;> simpa using mem

/-- Nothing is on the line after a clear. -/
theorem ordered_clearReport (s : GbStore) (hist : GbHistory) :
    Ordered (gbDataClearReport s) [] hist := by
  have empty : saveLine (gbDataClearReport s) [] = [] := by
    simp [saveLine, homeLine, gbDataClearReport_lists]
  refine ⟨by simp [empty], by simp [empty], ?_, by simp [empty]⟩
  rintro l (rfl | rfl) n mem <;> simp [gbDataClearReport_lists] at mem

/-! ### Saving -/

/-- The node a save takes is off the line afterwards, and the rest of the line stands. -/
theorem Ordered.takeBuffer {u : GbStore} {others : List GbNode} (o : Ordered s held hist)
    (owned : Owned s (held ++ others)) (taken : gbTakeBuffer s = some (n, u)) (rpt : GbPack) :
    Ordered (u.setPack n rpt) held hist ∧ n ∉ u.lists .trans ∧ n ∉ held ∧
      n ∉ u.lists .delay ∧ n ∉ u.lists .realtm := by
  have homeOf := o.home
  obtain ⟨l, ns, origin, content, rfl⟩ := gbTakeBuffer_some taken
  have held' : Owned ((s.setList l ns).setPack n ⟨[], 0, 0, .realtm⟩) (n :: (held ++ others)) :=
    owned.takeBuffer taken (.inl rfl)
  have fresh := held'.fresh
  have notHeld : n ∉ held := by
    have once := held'.once n
    intro mem
    have pos := List.count_pos_iff.mpr (List.mem_append_left others mem)
    simp only [owners, List.count_cons_self] at once
    omega
  refine ⟨?_, fresh .trans, notHeld, fresh .delay, fresh .realtm⟩
  have ne : l ≠ .trans := by rcases origin with rfl | ⟨-, rfl⟩ | ⟨-, -, rfl⟩ <;> rintro ⟨⟩
  -- the lists only lose the node taken
  have shorter : ∀ k, (((s.setList l ns).setPack n rpt).lists k).Sublist (s.lists k) := by
    intro k
    by_cases same : k = l
    · subst same
      simp [content]
    · simp [same]
  have unchanged : ∀ m ≠ n, ((s.setList l ns).setPack n rpt).pack m = s.pack m := by
    intro m other
    simp [other]
  have apart : ∀ m ∈ s.lists .trans ++ held, m ≠ n := by
    rintro m mem rfl
    rcases List.mem_append.mp mem with sent | mem
    · exact fresh .trans (by simpa [ne.symm] using sent)
    · exact notHeld mem
  have line : ∀ home, (homeLine ((s.setList l ns).setPack n rpt) held home).Sublist
      (homeLine s held home) := by
    intro home
    refine List.Sublist.append ?_ (shorter home)
    have trans : ((s.setList l ns).setPack n rpt).lists .trans = s.lists .trans := by
      simp [ne.symm]
    rw [trans, List.filter_congr fun m mem => by rw [unchanged m (apart m mem)]]
  refine o.mono ((line .delay).append (line .realtm)) ?_ ?_
  · intro m mem
    refine unchanged m ?_
    rintro rfl
    rcases mem_saveLine.mp mem with ⟨sent | mem, -⟩ | delay | realtm
    · exact fresh .trans sent
    · exact notHeld mem
    · exact fresh .delay delay
    · exact fresh .realtm realtm
  · intro k hk m mem
    have other : m ≠ n := by
      rintro rfl
      exact fresh k mem
    rw [unchanged m other]
    exact homeOf k hk m ((shorter k).subset mem)

/-- A new report comes last. -/
theorem Ordered.insertNew (o : Ordered s held hist) (trans : n ∉ s.lists .trans)
    (notHeld : n ∉ held) (delay : n ∉ s.lists .delay) (realtm : n ∉ s.lists .realtm)
    (home : (s.pack n).list = .realtm) :
    Ordered (s.insertBefore .realtm n) held
      { hist with stamp := Function.update hist.stamp n hist.clock, clock := hist.clock + 1 } := by
  have homeOf := o.home
  -- the new report is the last of the line, with the highest stamp
  have line : saveLine (s.insertBefore .realtm n) held = saveLine s held ++ [n] := by
    simp [saveLine, homeLine]
    rfl
  have other : ∀ m ∈ saveLine s held, m ≠ n := by
    rintro m mem rfl
    rcases mem_saveLine.mp mem with ⟨mem | mem, -⟩ | mem | mem <;> contradiction
  have stamp : ∀ m ∈ saveLine s held,
      Function.update hist.stamp n hist.clock m = hist.stamp m :=
    fun m mem => Function.update_of_ne (other m mem) ..
  refine ⟨?_, ?_, ?_, ?_⟩
  · rw [line, List.pairwise_append]
    refine ⟨?_, List.pairwise_singleton .., ?_⟩
    · refine o.sorted.imp_of_mem fun {a b} ha hb lt => ?_
      dsimp only
      rwa [stamp a ha, stamp b hb]
    · intro a ha b hb
      rw [List.mem_singleton.mp hb]
      dsimp only
      rw [stamp a ha, Function.update_self]
      exact o.past a ha
  · rw [line]
    intro m mem
    rcases List.mem_append.mp mem with old | new
    · dsimp only
      rw [stamp m old]
      exact Nat.lt_succ_of_lt (o.past m old)
    · rw [List.mem_singleton.mp new]
      simp
  · intro l hl m mem
    by_cases same : l = .realtm
    · subst same
      have parts : m ∈ s.lists .realtm ∨ m = n := by simpa using mem
      rcases parts with old | rfl
      · exact homeOf _ hl m old
      · exact home
    · exact homeOf l hl m (by simpa [same] using mem)
  · rw [line]
    intro m mem delayed
    rcases List.mem_append.mp mem with old | new
    · exact o.type m old delayed
    · rw [List.mem_singleton.mp new] at delayed
      exact absurd (home.symm.trans delayed) nofun

theorem Ordered.saveFrom {others : List GbNode} (o : Ordered s held hist)
    (owned : Owned s (held ++ others)) (i : Nat) (groups : List (List UInt8))
    (saved : gbSaveFrom s i groups = some s') : Ordered s' held (hist.saved s i groups) := by
  induction groups generalizing s hist i with
  | nil => cases saved; exact o
  | cons data rest ih =>
    obtain ⟨v, one, more⟩ := Option.bind_eq_some_iff.mp saved
    obtain ⟨⟨n, u⟩, taken, eq⟩ := Option.map_eq_some_iff.mp one
    have stamped : hist.saved s i (data :: rest) = GbHistory.saved { hist with
        stamp := Function.update hist.stamp n hist.clock
        clock := hist.clock + 1 } v (i + 1) rest := by
      rw [GbHistory.saved, taken, one]
    rw [stamped]
    have ready := o.takeBuffer owned taken ⟨data, i + 1, gbRpttypeRealtm, .realtm⟩
    refine ih ?_ (owned.saveOne one) (i + 1) more
    rw [← eq]
    exact ready.1.insertNew ready.2.1 ready.2.2.1 ready.2.2.2.1 ready.2.2.2.2 (by simp)

/-! ### The accepted re-login -/

/-- What an accepted re-login does: `gb_data_flush_sending`, then `gb_data_flush_realtm`. -/
def gbReissue (s : GbStore) : GbStore := gbDataFlushRealtm (gbDataFlushSending s)

theorem gbReissue_delay (s : GbStore) : (gbReissue s).lists .delay = saveLine s [] := by
  simp [gbReissue, gbDataFlushRealtm_lists, gbDataFlushSending_lists, saveLine, homeLine]

theorem gbReissue_empty {s : GbStore} (home : ∀ n ∈ s.lists .trans, GbHome (s.pack n).list)
    {l : GbList} (hl : l = .trans ∨ l = .realtm) : (gbReissue s).lists l = [] := by
  rcases hl with rfl | rfl
  · exact trans_relogin home
  · rw [gbReissue, gbDataFlushRealtm_lists, if_pos rfl]

/-- Every report on the line is a delayed report afterwards. -/
theorem Ordered.reissue_pack (o : Ordered s [] hist) (mem : n ∈ saveLine s []) :
    (gbReissue s).pack n = (s.pack n).delayed := by
  have homeOf := o.home
  rw [gbReissue, gbDataFlushRealtm_pack, gbDataFlushSending_pack]
  split
  · rfl
  next notRealtm =>
    -- then its home is the delay list, and so are its type and home already
    have delay : (s.pack n).list = .delay := by
      rw [gbDataFlushSending_lists, if_neg nofun, List.mem_append, List.mem_filter] at notRealtm
      rcases mem_saveLine.mp mem with ⟨sent | held, home | home⟩ | delay | realtm
      · exact absurd (.inl ⟨sent, by simpa using home⟩) notRealtm
      · exact home
      · cases held
      · cases held
      · exact homeOf .delay (.inr rfl) n delay
      · exact absurd (.inr realtm) notRealtm
    rw [GbPack.delayed, ← o.type n mem delay, ← delay]

theorem Ordered.reissue (o : Ordered s [] hist)
    (home : ∀ n ∈ s.lists .trans, GbHome (s.pack n).list) : Ordered (gbReissue s) [] hist := by
  have line : saveLine (gbReissue s) [] = saveLine s [] := by
    simp [saveLine, homeLine, gbReissue_empty home, gbReissue_delay]
  refine ⟨by rw [line]; exact o.sorted, by rw [line]; exact o.past, ?_, ?_⟩
  · rintro l (rfl | rfl) n mem
    · rw [gbReissue_empty home (.inr rfl)] at mem
      cases mem
    · rw [gbReissue_delay] at mem
      rw [o.reissue_pack mem]
      rfl
  · rw [line]
    intro n mem _
    rw [o.reissue_pack mem]
    rfl

theorem gbReissue_emerg (s : GbStore) : (gbReissue s).emerg = s.emerg := by
  rw [gbReissue, gbDataFlushRealtm_emerg, gbDataFlushSending_emerg]

/-! ### Sessions with the emergency flag clear -/

/-- The emergency flag stays clear, and no DBC load finds a pack in hand. -/
def Unalarmed (t : GbSession) : GbEvent → Prop
  | .loadDbc => t.held = none
  | .message _ (.emergence set) => set = false
  | _ => True

structure CalmInv (t : GbSession) : Prop where
  session : SessionInv t
  calm : t.prot.store.emerg = false
  ordered : Ordered t.prot.store t.held.toList t.hist

variable {t t' : GbSession}

theorem calmInv_idle (idle : GbIdle t) : CalmInv t := by
  have lists := idle.lists
  have empty : saveLine t.prot.store t.held.toList = [] := by
    simp [saveLine, homeLine, lists, idle.held]
  refine ⟨sessionInv_idle idle, idle.calm, by simp [empty], by simp [empty], ?_, by simp [empty]⟩
  rintro l (rfl | rfl) n mem <;> simp [lists] at mem

/-- A step that leaves the reports and their stamps alone. -/
theorem CalmInv.same (inv : CalmInv t) {u : GbSession} (store : u.prot.store = t.prot.store)
    (held : u.held = t.held) (stamp : u.hist.stamp = t.hist.stamp)
    (clock : u.hist.clock = t.hist.clock) (session : SessionInv u) : CalmInv u := by
  have ordered := inv.ordered
  refine ⟨session, store ▸ inv.calm, ?_, ?_, ?_, ?_⟩ <;> rw [store]
  · rw [held, stamp]; exact ordered.sorted
  · rw [held, stamp, clock]; exact ordered.past
  · exact ordered.home
  · rw [held]; exact ordered.type

theorem CalmInv.checksock (inv : CalmInv t) {env : SockEnv} (session : SessionInv t')
    (step : gbEventStep t (.checksock env) = some t') : CalmInv t' := by
  have ordered := inv.ordered
  simp only [gbEventStep, Option.ite_none_right_eq_some, Option.some.injEq] at step
  obtain ⟨-, rfl⟩ := step
  rcases gbDoChecksock_cases env inv.session.prot.ok env.now with
    control | ⟨-, -, -, store⟩ | ⟨-, sync, rest, -, -, -, store, -⟩
  · exact inv.same control.store rfl rfl rfl session
  · exact inv.same store rfl rfl rfl session
  · cases callback : sync.sync with
    | none => exact inv.same (store.trans (by rw [callback])) rfl rfl rfl session
    | some ack =>
      rw [callback] at store
      have next := ordered.ackPack
      refine ⟨session, ?_, ?_, ?_, ?_, ?_⟩ <;> dsimp only <;> rw [store]
      · exact (gbDataAckPack_emerg _).trans inv.calm
      · exact next.sorted
      · exact next.past
      · exact next.home
      · exact next.type

/-- A login puts the reports back in their order, or clears them. -/
theorem CalmInv.receive (inv : CalmInv t) {env : SockEnv} {pack : List UInt8}
    (session : SessionInv t') (step : gbEventStep t (.receive env pack) = some t') :
    CalmInv t' := by
  have ordered := inv.ordered
  obtain ⟨lost, owned⟩ := inv.session.owned
  simp only [gbEventStep, Option.ite_none_right_eq_some] at step
  obtain ⟨-, step⟩ := step
  rcases gbHandlePack_cases env t.prot pack with
    control | ⟨-, -, -, -, store⟩
  · obtain ⟨-, rfl⟩ := prots_some step
    exact inv.same control.store rfl rfl rfl session
  · obtain ⟨idle, rfl⟩ := prots_some step
    rw [idle] at ordered
    have home := fun n => owned.trans_home (n := n)
    refine ⟨session, ?_, ?_⟩ <;> dsimp only <;> rw [store]
    · split
      · exact (gbReissue_emerg _).trans inv.calm
      · exact (gbDataClearReport_emerg _).trans inv.calm
    · rw [idle]
      split
      · exact ordered.reissue home
      · exact ordered_clearReport _ _

theorem CalmInv.getPack (inv : CalmInv t) (session : SessionInv t')
    (step : gbEventStep t .getPack = some t') : CalmInv t' := by
  have ordered := inv.ordered
  obtain ⟨idle, -, rfl | ⟨rpt, store, got, rfl⟩⟩ := getPack_cases step
  · exact inv
  · rw [idle] at ordered
    exact ⟨session, (gbDataGetPack_pack got).2.trans inv.calm, ordered.getPack inv.calm got⟩

theorem CalmInv.sendPack (inv : CalmInv t) {env : SockEnv} (session : SessionInv t')
    (step : gbEventStep t (.sendPack env) = some t') : CalmInv t' := by
  have ordered := inv.ordered
  obtain ⟨lost, owned⟩ := inv.session.owned
  obtain ⟨rpt, prot, held, sent, rfl⟩ := sendPack_cases step
  rw [held] at ordered owned
  -- lost for want of room, back on its home list, or on the transmit list
  have next : prot.store = t.prot.store ∨ prot.store = gbDataPutBack t.prot.store rpt ∨
      prot.store = gbDataPutSend t.prot.store rpt := by
    rw [sent]
    rcases gbSendReport_steps env inv.session.prot.ok rpt rfl with
      same | back | ⟨store, -⟩
    · exact .inl (congrArg GbProt.store same)
    · exact .inr (.inl back.store)
    · exact .inr (.inr store)
  have kept : prot.store.emerg = t.prot.store.emerg ∧ Ordered prot.store [] t.hist := by
    rcases next with store | store | store <;> rw [store]
    · exact ⟨rfl, ordered.lost⟩
    · exact ⟨rfl, ordered.putBack owned.held_home⟩
    · exact ⟨rfl, ordered.putSend⟩
  -- the history notes no stamp here
  obtain ⟨emerg, line⟩ := kept
  refine ⟨session, emerg.trans inv.calm, ?_, ?_, line.home, line.type⟩
  · split <;> exact line.sorted
  · split <;> exact line.past

/-- One step of a session keeps the reports in order. -/
theorem calmInv_step (inv : CalmInv t) {e : GbEvent} (ok : Unalarmed t e)
    (step : gbEventStep t e = some t') : CalmInv t' := by
  have session : SessionInv t' :=
    sessionInv_step inv.session (fun load => by subst load; exact ok) step
  have ordered := inv.ordered
  obtain ⟨lost, owned⟩ := inv.session.owned
  have prots : ∀ {prot}, Control t.prot prot → t.prots prot = some t' → CalmInv t' := by
    intro prot control h
    obtain ⟨-, rfl⟩ := prots_some h
    exact inv.same control.store rfl rfl rfl session
  cases e with
  | saveRealtm groups =>
    obtain ⟨store, saved, rfl⟩ := Option.map_eq_some_iff.mp step
    exact ⟨session, (gbSaveFrom_emerg 0 groups saved).trans inv.calm,
      ordered.saveFrom owned 0 groups saved⟩
  | loadDbc =>
    obtain rfl := Option.some.inj step
    have held : t.held = none := ok
    refine ⟨session, (gbDataClearReport_emerg _).trans inv.calm, ?_⟩
    dsimp only
    rw [held]
    exact ordered_clearReport _ _
  | connected established =>
    simp only [gbEventStep, Option.ite_none_right_eq_some, Option.some.injEq] at step
    obtain ⟨-, rfl⟩ := step
    cases established <;> exact inv.same rfl rfl rfl rfl session
  | acknowledged upto =>
    simp only [gbEventStep, Option.ite_none_right_eq_some, Option.some.injEq] at step
    obtain ⟨-, rfl⟩ := step
    exact inv.same rfl rfl rfl rfl session
  | message env msg =>
    rcases message_cases step with ⟨set, rfl, rfl⟩ | ⟨prot, control, step⟩
    · exact ⟨session, ok, ordered.sorted, ordered.past, ordered.home, ordered.type⟩
    · exact prots control step
  | checksock env => exact inv.checksock session step
  | receive env pack => exact inv.receive session step
  | wait env time => exact prots (gbDoWait_control inv.session.prot.ok _ time) step
  | login env time => exact prots (gbDoLogin_control inv.session.prot.ok _ time) step
  | suspended env => exact prots gbDoSuspend_control step
  | getPack => exact inv.getPack session step
  | sendPack env => exact inv.sendPack session step
  | logout env time => exact prots (gbDoLogout_control inv.session.prot.ok _ time) step

/-! ### The step of the re-login -/

/-- All reports of `before` are delayed reports in `after`, once each and by home list in
the order in which they were saved. -/
structure Reissued (before after : GbStore) (stamp : GbNode → Nat) : Prop where
  trans : after.lists .trans = []
  realtm : after.lists .realtm = []
  delay : ∀ l, l = .trans ∨ l = .realtm ∨ l = .delay → ∀ n ∈ before.lists l,
    (after.lists .delay).count n = 1 ∧ (after.pack n).type = gbRpttypeDelay ∧
      (after.pack n).list = .delay
  order : ∀ home, ((after.lists .delay).filter fun n => (before.pack n).list = home).Pairwise
    fun m n => stamp m < stamp n

theorem Ordered.reissued {s : GbStore} {hist : GbHistory} (o : Ordered s [] hist)
    {lost : List GbNode} (owned : Owned s lost) : Reissued s (gbReissue s) hist.stamp := by
  have home := fun n => owned.trans_home (n := n)
  have line := gbReissue_delay s
  refine ⟨gbReissue_empty home (.inl rfl), gbReissue_empty home (.inr rfl), ?_, ?_⟩
  · intro l hl n mem
    have onLine : n ∈ saveLine s [] := by
      rcases hl with rfl | rfl | rfl
      · exact mem_saveLine.mpr (.inl ⟨.inl mem, home n mem⟩)
      · exact mem_saveLine.mpr (.inr (.inr mem))
      · exact mem_saveLine.mpr (.inr (.inl mem))
    rw [line, o.reissue_pack onLine]
    refine ⟨List.count_eq_one_of_mem ?_ onLine, rfl, rfl⟩
    exact o.sorted.imp fun lt => fun same => absurd (same ▸ lt) (lt_irrefl _)
  · intro l
    rw [line]
    exact o.sorted.filter _

/-- The accepted answer to a re-login: the reports are re-issued. -/
theorem gbHandlePack_relogin {env : SockEnv} {st : GbProt (SockT GbSync)} {pack : List UInt8}
    (accepted : LoginAccepted st pack) (relogin : st.stat.login = true) :
    (gbHandlePack (sockApi env) pack st).2.store = gbReissue st.store := by
  unfold gbHandlePack
  dsimp only
  rw [if_neg (not_not.mpr accepted.checksum), if_pos accepted.type,
    if_neg (not_not.mpr accepted.awaited), if_neg (not_not.mpr accepted.ack), if_pos relogin]
  rfl

/-- At the step that accepts a re-login every report is re-issued, whatever happened
before: saves, sends, acknowledgements, put-backs, resets and logins in any order. -/
theorem relogin_reissues
    (h : Reach GbIdle (Guarded Unalarmed fun t e t' => gbEventStep t e = some t') t)
    {env : SockEnv} {pack : List UInt8} (accepted : LoginAccepted t.prot pack)
    (relogin : t.prot.stat.login = true)
    (step : gbEventStep t (.receive env pack) = some t') :
    Reissued t.prot.store t'.prot.store t.hist.stamp := by
  have inv : CalmInv t := by
    refine h.invariant (fun t idle => calmInv_idle idle) ?_
    rintro t e t' inv ⟨ok, step⟩
    exact calmInv_step inv ok step
  simp only [gbEventStep, Option.ite_none_right_eq_some] at step
  obtain ⟨-, step⟩ := step
  obtain ⟨idle, rfl⟩ := prots_some step
  have ordered := inv.ordered
  obtain ⟨lost, owned⟩ := inv.session.owned
  rw [idle] at ordered
  dsimp only
  rw [gbHandlePack_relogin accepted relogin]
  exact ordered.reissued owned

/-- The network, long after the first connection. -/
def lateEnv : SockEnv := { fastEnv with now := 1000000 }

/-- One report is sent and one saved, and the connection lost and made again. -/
def reconnect : List GbEvent :=
  sendOne [0x01] ++ [.saveRealtm [[0x02]], .message lateEnv (.network false),
    .message lateEnv (.network true), .checksock lateEnv, .connected true, .login lateEnv newYear]

set_option maxRecDepth 4000 in
def loggingInAgain : GbSession := (reconnect.foldlM gbEventStep loggedIn).get rfl

set_option maxRecDepth 4000 in
/-- One report was sent before the connection was lost, and one saved. -/
theorem relogin_reissues_two : ∃ t t',
    (firstLogin ++ reconnect).foldlM gbEventStep parkedSession = some t ∧
    gbEventStep t (.receive lateEnv loginAck) = some t' ∧
    (t.prot.store.lists .trans).map t.hist.stamp = [1] ∧
    (t.prot.store.lists .realtm).map t.hist.stamp = [2] ∧
    Reissued t.prot.store t'.prot.store t.hist.stamp := by
  have rest : reconnect.foldlM gbEventStep loggedIn = some loggingInAgain :=
    (Option.some_get _).symm
  have run := run_append loggedIn_eq rest
  have step : gbEventStep loggingInAgain (.receive lateEnv loginAck) =
      some { loggingInAgain with
        prot := (gbHandlePack (sockApi lateEnv) loginAck loggingInAgain.prot).2 } := rfl
  have reach : Reach GbIdle (Guarded Unalarmed fun t e t' => gbEventStep t e = some t')
      loggingInAgain := by
    refine Reach.run (.start parkedSession_idle) _ ?_ run
    simp [firstLogin, connecting, reconnect, sendOne, Unalarmed]
  have accepted : LoginAccepted loggingInAgain.prot loginAck := ⟨rfl, rfl, rfl, rfl⟩
  exact ⟨loggingInAgain, _, run, step, rfl, rfl, relogin_reissues reach accepted rfl step⟩

end Gb32960
