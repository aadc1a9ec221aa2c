import TBoxMpu.Foton.CacheFifo
import TBoxMpu.Foton.Runs

/-!
# The index file of the flash cache

## Main result

`cache_info_agrees`: for every sequence of calls of the cache functions, with any changes of the
report lists between them, `cache_info` holds the indices in memory after each call whose own
write of it succeeds exactly if each of these calls moves a report, or leaves in memory what the
file held before. So an exit that resets the indices leaves an old file behind.

## Proof strategy

The indices change in a cache function only, and `cache_info` is written there only if a report
was moved, which the first write or read decides. What the indices are after a call that moved
none follows from the state before it (`cacheCall_infoRight`). The steps of the run model of the
report lists are such sequences (`ftStep_events`).
-/

namespace Foton

/-- A call of a cache function, or what the other functions do: they change the lists. -/
inductive StoreEv
  | call (call : CacheCall × FileOps)
  | lists (lists : FtList → List FtPack) (emerg : Bool)

def storeStep (s : FtStore) : StoreEv → Option FtStore
  | .call call => (cacheCall s call).map Prod.snd
  | .lists lists emerg => some { s with lists, emerg }

/-- The call leads from `u` to `v` in the run of `evs` from `s`. -/
def CallIn (s : FtStore) (evs : List StoreEv) (call : CacheCall × FileOps) (u v : FtStore) :
    Prop :=
  ∃ before after, evs = before ++ .call call :: after ∧ before.foldlM storeStep s = some u ∧
    storeStep u (.call call) = some v

/-- The call gets as far as its first read or write of a report, and that succeeds. -/
def MovesReport (s : FtStore) : CacheCall × FileOps → Prop
  | (.load, ops) => s.indexR ≠ s.indexW ∧ ops.formatting = false ∧ ops.openOk = true ∧
    ops.packOk 0 = true
  | (_, ops) => ops.pathOk = true ∧ ops.formatting = false ∧ ops.openOk = true ∧
    s.waiting ≠ [] ∧ ops.packOk 0 = true

/-- The indices after the call if it moves no report. -/
def unmovedIndices (s : FtStore) : CacheCall × FileOps → Nat × Nat
  | (.load, ops) =>
    if s.indexR = s.indexW ∨ ops.formatting = true then (s.indexR, s.indexW)
    else if ops.openOk = true then (0, 0) else (s.indexW, s.indexW)
  | (_, ops) =>
    if ops.pathOk = true ∧ (ops.formatting = true ∨ ops.openOk = true ∧ s.waiting = []) then
      (s.indexR, s.indexW)
    else (0, 0)

def KeepsInfo (s : FtStore) (call : CacheCall × FileOps) : Prop :=
  MovesReport s call ∨ ftCacheLoadInfo s = unmovedIndices s call

/-! ### One call -/

theorem ftCacheFinish_infoRight_iff {ops : FileOps} (ok : ops.infoOk = true) {packs : List FtPack}
    {m : FtStore} : (ftCacheFinish ops packs m).InfoRight ↔ packs ≠ [] ∨ m.InfoRight := by
  by_cases none : packs = []
  · simp [ftCacheFinish, none]
  · have written : (ftCacheSaveInfo ops m).InfoRight := by
      rw [ftCacheSaveInfo, if_pos ok]
      rfl
    simp [ftCacheFinish, none, written]

/-- The loop of a save comes to an end with a report on the lists only, and the first write
decides. -/
theorem ftCacheSaveLoop_infoRight {ops : FileOps} {rounds : Nat} {s m : FtStore}
    {packs : List FtPack} (run : ftCacheSaveLoop ops (rounds + 1) 0 s = some (packs, m)) :
    s.waiting ≠ [] ∧
      (packs ≠ [] ∨ m.InfoRight ↔ ops.packOk 0 = true ∨ ftCacheLoadInfo s = (0, 0)) := by
  simp only [ftCacheSaveLoop] at run
  split at run
  · cases run
  next pack lists oldest =>
    have waits : s.waiting ≠ [] := fun empty => by
      rw [ftTakeOldest_none.mpr empty] at oldest
      cases oldest
    refine ⟨waits, ?_⟩
    split at run
    next written =>
      obtain ⟨⟨rest, u⟩, -, eq⟩ := Option.map_eq_some_iff.mp run
      obtain ⟨rfl, rfl⟩ := Prod.mk.inj eq
      simp [written]
    next failed =>
      obtain ⟨rfl, rfl⟩ := Prod.mk.inj (Option.some.inj run)
      simp [failed, ftCachePutFailed, ftCacheReset, FtStore.InfoRight, ftCacheLoadInfo]

theorem ftCacheLoadLoop_infoRight {ops : FileOps} {rounds : Nat} {s m : FtStore}
    {packs : List FtPack} (all : ftCacheGrade = rounds + 1) (ne : s.indexR ≠ s.indexW)
    (run : ftCacheLoadLoop ops (rounds + 1) s = some (packs, m)) :
    packs ≠ [] ∨ m.InfoRight ↔ ops.packOk 0 = true ∨ ftCacheLoadInfo s = (0, 0) := by
  simp only [ftCacheLoadLoop, if_neg ne, all, Nat.sub_self] at run
  split at run
  · cases run
  next node lists free =>
    split at run
    next written =>
      obtain ⟨⟨rest, u⟩, -, eq⟩ := Option.map_eq_some_iff.mp run
      obtain ⟨rfl, rfl⟩ := Prod.mk.inj eq
      simp [written]
    next failed =>
      obtain ⟨rfl, rfl⟩ := Prod.mk.inj (Option.some.inj run)
      simp [failed, ftCacheReset, FtStore.InfoRight, ftCacheLoadInfo]

theorem ftCacheLoad_infoRight {ops : FileOps} (ok : ops.infoOk = true) {s t : FtStore}
    {r : CacheResult} (run : ftCacheLoad ops s = some (r, t)) :
    t.InfoRight ↔ KeepsInfo s (.load, ops) := by
  simp only [KeepsInfo, MovesReport, unmovedIndices]
  unfold ftCacheLoad at run
  split_ifs at run with same format opened
  · obtain ⟨-, rfl⟩ := Prod.mk.inj (Option.some.inj run)
    simp [same, FtStore.InfoRight]
  · obtain ⟨-, rfl⟩ := Prod.mk.inj (Option.some.inj run)
    simp [format, FtStore.InfoRight]
  · obtain ⟨-, rfl⟩ := Prod.mk.inj (Option.some.inj run)
    simp only [Bool.not_eq_true'] at opened
    simp [same, format, opened, FtStore.InfoRight, ftCacheLoadInfo]
  · obtain ⟨⟨packs, m⟩, loop, eq⟩ := Option.map_eq_some_iff.mp run
    obtain ⟨-, rfl⟩ := Prod.mk.inj eq
    rw [ftCacheFinish_infoRight_iff ok, ftCacheLoadLoop_infoRight rfl same loop]
    simp only [Bool.not_eq_true', Bool.not_eq_false] at opened
    simp [same, format, opened]

/-- The two saves differ in what runs once the file is open. -/
theorem saved_infoRight {ops : FileOps} (ok : ops.infoOk = true) {s t : FtStore} {r : CacheResult}
    {loop : Option (List FtPack × FtStore)}
    (first : ∀ packs m, loop = some (packs, m) → (packs ≠ [] ∨ m.InfoRight ↔
      s.waiting ≠ [] ∧ ops.packOk 0 = true ∨
        ftCacheLoadInfo s = if s.waiting = [] then (s.indexR, s.indexW) else (0, 0)))
    (run : (if !ops.pathOk then some (.moved [], ftCacheReset s)
      else if ops.formatting then some (.formatting, s)
      else if !ops.openOk then some (.moved [], ftCacheReset s)
      else loop.map fun (packs, t) => (.moved packs, ftCacheFinish ops packs t)) = some (r, t)) :
    t.InfoRight ↔ KeepsInfo s (.save, ops) := by
  have reset : (ftCacheReset s).InfoRight ↔ ftCacheLoadInfo s = (0, 0) := Iff.rfl
  simp only [KeepsInfo, MovesReport, unmovedIndices]
  split_ifs at run with path format opened
  · obtain ⟨-, rfl⟩ := Prod.mk.inj (Option.some.inj run)
    simp only [Bool.not_eq_true'] at path
    simp [path, reset]
  · obtain ⟨-, rfl⟩ := Prod.mk.inj (Option.some.inj run)
    simp only [Bool.not_eq_true', Bool.not_eq_false] at path
    simp [path, format, FtStore.InfoRight]
  · obtain ⟨-, rfl⟩ := Prod.mk.inj (Option.some.inj run)
    simp only [Bool.not_eq_true', Bool.not_eq_false] at path opened
    simp [path, format, opened, reset]
  · obtain ⟨⟨packs, m⟩, ran, eq⟩ := Option.map_eq_some_iff.mp run
    obtain ⟨-, rfl⟩ := Prod.mk.inj eq
    rw [ftCacheFinish_infoRight_iff ok, first packs m ran]
    simp only [Bool.not_eq_true', Bool.not_eq_false] at path opened
    simp [path, format, opened]

theorem cacheCall_infoRight {s t : FtStore} {call : CacheCall × FileOps}
    {op : SlotRing.Op FtReport} (ok : call.2.infoOk = true)
    (run : cacheCall s call = some (op, t)) : t.InfoRight ↔ KeepsInfo s call := by
  obtain ⟨name, ops⟩ := call
  cases name with
  | load =>
    obtain ⟨⟨r, u⟩, ran, eq⟩ := Option.map_eq_some_iff.mp run
    obtain ⟨-, rfl⟩ := Prod.mk.inj eq
    exact ftCacheLoad_infoRight ok ran
  | save =>
    obtain ⟨⟨r, u⟩, ran, eq⟩ := Option.map_eq_some_iff.mp run
    obtain ⟨-, rfl⟩ := Prod.mk.inj eq
    refine saved_infoRight ok (fun packs m loop => ?_) ran
    obtain ⟨waits, decided⟩ := ftCacheSaveLoop_infoRight loop
    simp [decided, waits]
  | saveAll =>
    obtain ⟨-, rfl⟩ := Prod.mk.inj (Option.some.inj run)
    have ran : (if !ops.pathOk then some (.moved [], ftCacheReset s)
        else if ops.formatting then some (.formatting, s)
        else if !ops.openOk then some (.moved [], ftCacheReset s)
        else (some (ftCacheSaveAllLoop ops ((s.lists .delay).length + (s.lists .realtm).length) 0
          s)).map fun (packs, t) => (.moved packs, ftCacheFinish ops packs t)) =
        some (ftCacheSaveAll ops s) := by
      simp only [ftCacheSaveAll]
      split_ifs <;> rfl
    refine saved_infoRight ok (fun packs m loop => ?_) ran
    obtain none | waits := eq_or_ne s.waiting []
    · -- no report, no round
      rw [← List.length_append, show s.lists .delay ++ s.lists .realtm = [] from none] at loop
      obtain ⟨rfl, rfl⟩ := Prod.mk.inj (Option.some.inj loop)
      simp [none, FtStore.InfoRight]
    · obtain ⟨rounds, count⟩ := Nat.exists_eq_succ_of_ne_zero
        (mt List.length_eq_zero_iff.mp waits)
      rw [← ftCacheSaveAllLoop_eq ops 0 List.length_append.symm, ← List.length_append,
        show (s.lists .delay ++ s.lists .realtm).length = rounds + 1 from count] at loop
      simp [(ftCacheSaveLoop_infoRight loop).2, waits]

/-! ### Runs -/

theorem storeStep_call {s t : FtStore} {call : CacheCall × FileOps}
    (step : storeStep s (.call call) = some t) : ∃ op, cacheCall s call = some (op, t) := by
  obtain ⟨⟨op, u⟩, run, eq⟩ := Option.map_eq_some_iff.mp step
  exact ⟨op, eq ▸ run⟩

/-- A step leaves the file right if it is no call, or one that keeps it. -/
theorem storeStep_infoRight {s t : FtStore} {ev : StoreEv} (right : s.InfoRight)
    (step : storeStep s ev = some t)
    (kept : ∀ call, ev = .call call → call.2.infoOk = true ∧
      (MovesReport s call ∨ unmovedIndices s call = (s.indexR, s.indexW))) : t.InfoRight := by
  cases ev with
  | call call =>
    obtain ⟨op, run⟩ := storeStep_call step
    obtain ⟨ok, moves | same⟩ := kept call rfl
    · exact (cacheCall_infoRight ok run).mpr (.inl moves)
    · exact (cacheCall_infoRight ok run).mpr (.inr (right.trans same.symm))
  | lists lists emerg =>
    cases step
    exact right

/-- The file is right at every point of a run whose calls all keep it. -/
theorem storeRun_infoRight {s u : FtStore} {evs before after : List StoreEv} (right : s.InfoRight)
    (kept : ∀ call u v, CallIn s evs call u v → call.2.infoOk = true ∧
      (MovesReport u call ∨ unmovedIndices u call = (u.indexR, u.indexW)))
    (split : evs = before ++ after) (run : before.foldlM storeStep s = some u) : u.InfoRight := by
  induction before using List.reverseRecOn generalizing after u with
  | nil =>
    cases run
    exact right
  | append_singleton before ev ih =>
    rw [List.foldlM_append] at run
    obtain ⟨m, first, last⟩ := Option.bind_eq_some_iff.mp run
    rw [List.foldlM_cons] at last
    obtain ⟨t, step, done⟩ := Option.bind_eq_some_iff.mp last
    cases done
    rw [List.append_assoc, List.singleton_append] at split
    refine storeStep_infoRight (ih split first) step fun call eq => ?_
    subst eq
    exact kept call m u ⟨before, after, split, first, step⟩

/-- After each call whose own write of `cache_info` succeeds the file holds the indices in
memory exactly if each of these calls moves a report, or the file held before it what its exit
leaves in memory. So in a run in which every such write succeeds, they agree throughout as long
as no call moves nothing and changes the indices. -/
theorem cache_info_agrees (s : FtStore) (evs : List StoreEv) :
    ((∀ call u v, CallIn s evs call u v → call.2.infoOk = true → v.InfoRight) ↔
      ∀ call u v, CallIn s evs call u v → call.2.infoOk = true → KeepsInfo u call) ∧
    (s.InfoRight →
      (∀ call u v, CallIn s evs call u v → call.2.infoOk = true ∧
        (MovesReport u call ∨ unmovedIndices u call = (u.indexR, u.indexW))) →
      ∀ call u v, CallIn s evs call u v → v.InfoRight) := by
  constructor
  · have each : ∀ call u v, CallIn s evs call u v → call.2.infoOk = true →
        (v.InfoRight ↔ KeepsInfo u call) := by
      rintro call u v ⟨before, after, -, -, step⟩ ok
      obtain ⟨op, run⟩ := storeStep_call step
      exact cacheCall_infoRight ok run
    constructor
    · intro right call u v reached ok
      exact (each call u v reached ok).mp (right call u v reached ok)
    · intro keeps call u v reached ok
      exact (each call u v reached ok).mpr (keeps call u v reached ok)
  · rintro right kept call u v ⟨before, after, split, run, step⟩
    have before_right := storeRun_infoRight right kept split run
    refine storeStep_infoRight before_right step fun called eq => ?_
    cases eq
    exact kept call u v ⟨before, after, split, run, step⟩

/-- A start with one report in the cache, as `cache_info` tells. -/
def ftOneCached : FtStore :=
  ftDataInit { ftFresh with cacheInfo := some (0, 1) }

/-- The first read fails: the indices are reset to 0, the file still tells of one report. -/
theorem cache_info_stale :
    ftOneCached.InfoRight ∧
      ¬ ∀ call u v, CallIn ftOneCached [.call (.load, FileOps.firstRefused)] call u v →
        call.2.infoOk = true → v.InfoRight := by
  refine ⟨rfl, fun right => ?_⟩
  have load : (storeStep ftOneCached (.call (.load, FileOps.firstRefused))).map
      (fun t => (ftCacheLoadInfo t, t.indexR, t.indexW)) = some ((0, 1), 0, 0) := by decide +kernel
  obtain ⟨t, ran, stale⟩ := Option.map_eq_some_iff.mp load
  have agrees : ftCacheLoadInfo t = (t.indexR, t.indexW) := right _ _ _ ⟨[], [], rfl, rfl, ran⟩ rfl
  simp only [Prod.mk.injEq] at stale agrees
  obtain ⟨file, zeroR, zeroW⟩ := stale
  rw [file, zeroR, zeroW] at agrees
  exact absurd agrees (by decide)

/-! ### The functions of the threads -/

def StoreRun (s t : FtStore) : Prop :=
  ∃ evs : List StoreEv, evs.foldlM storeStep s = some t

theorem StoreRun.lists {s : FtStore} (lists : FtList → List FtPack) (emerg : Bool) :
    StoreRun s { s with lists, emerg } :=
  ⟨[.lists lists emerg], rfl⟩

theorem StoreRun.call {s t : FtStore} {call : CacheCall × FileOps} {op : SlotRing.Op FtReport}
    (run : cacheCall s call = some (op, t)) : StoreRun s t := by
  refine ⟨[.call call], ?_⟩
  simp [storeStep, run]

theorem StoreRun.trans {s t u : FtStore} (first : StoreRun s t) (next : StoreRun t u) :
    StoreRun s u := by
  obtain ⟨evs, run⟩ := first
  obtain ⟨more, rest⟩ := next
  refine ⟨evs ++ more, ?_⟩
  rw [List.foldlM_append, run]
  exact rest

theorem ftSaveOne_run {ops : FileOps} {s t : FtStore} {i : Nat} {data : List UInt8}
    (saved : ftSaveOne ops s i data = some t) : StoreRun s t := by
  obtain ⟨m, room, taken⟩ := Option.bind_eq_some_iff.mp saved
  obtain ⟨⟨node, lists⟩, -, rfl⟩ := Option.map_eq_some_iff.mp taken
  have made : StoreRun s m := by
    unfold ftMakeRoom at room
    split_ifs at room
    · obtain ⟨⟨r, u⟩, run, rfl⟩ := Option.map_eq_some_iff.mp room
      exact @StoreRun.call _ _ (.save, ops) _ (by rw [cacheCall, run]; rfl)
    · cases room
      exact .lists _ _
  exact made.trans (.lists _ _)

theorem ftSaveFrom_run {groups : List (FileOps × List UInt8)} {s t : FtStore} {i : Nat}
    (saved : ftSaveFrom s i groups = some t) : StoreRun s t := by
  induction groups generalizing s i with
  | nil =>
    cases saved
    exact .lists _ _
  | cons group rest ih =>
    obtain ⟨ops, data⟩ := group
    obtain ⟨m, one, more⟩ := Option.bind_eq_some_iff.mp saved
    exact (ftSaveOne_run one).trans (ih more)

theorem ftRefill_run {ops : FileOps} {s u : FtStore} (filled : ftRefill ops s = some u) :
    StoreRun s u := by
  unfold ftRefill at filled
  split_ifs at filled
  · obtain ⟨⟨r, u⟩, load, rfl⟩ := Option.map_eq_some_iff.mp filled
    exact @StoreRun.call _ _ (.load, ops) _ (by rw [cacheCall, load]; rfl)
  · cases filled
    exact .lists _ _

theorem ftDataGetPack_run {ops : FileOps} {s u : FtStore} {rpt : Option FtPack}
    (run : ftDataGetPack ops s = some (rpt, u)) : StoreRun s u := by
  unfold ftDataGetPack at run
  split at run
  · obtain ⟨rfl, rfl⟩ := Prod.mk.inj (Option.some.inj run)
    exact .lists _ _
  · obtain ⟨m, filled, eq⟩ := Option.map_eq_some_iff.mp run
    refine (ftRefill_run filled).trans ?_
    split at eq
    · obtain ⟨rfl, rfl⟩ := Prod.mk.inj eq
      exact .lists _ _
    · obtain ⟨rfl, rfl⟩ := Prod.mk.inj eq
      exact .lists _ _

/-- What a step of the threads does to the store is a sequence of calls and list changes. -/
theorem ftStep_events {s t : FtRun} {act : FtAct} (step : ftStep s act = some t) :
    StoreRun s.store t.store := by
  cases act with
  | saveRealtm groups =>
    obtain ⟨u, saved, rfl⟩ := Option.map_eq_some_iff.mp step
    exact ftSaveFrom_run saved
  | flushErrorTake err =>
    obtain ⟨u, taken, rfl⟩ := Option.map_eq_some_iff.mp step
    obtain ⟨⟨node, lists⟩, -, rfl⟩ := Option.map_eq_some_iff.mp taken
    exact .lists _ _
  | flushErrorEnd =>
    cases step
    exact .lists _ _
  | flushRealtm =>
    cases step
    exact .lists _ _
  | emergence set =>
    cases step
    exact .lists _ _
  | ack =>
    cases step
    simp only [FtRun.become, ftDataAckPack]
    split
    · exact .lists _ _
    · exact .lists _ _
  | getPack ops =>
    obtain ⟨-, rpt, m, run, rfl⟩ := ftStep_getPack step
    exact ftDataGetPack_run run
  | noRoom =>
    obtain ⟨rpt, -, rfl⟩ := Option.map_eq_some_iff.mp step
    exact .lists _ _
  | notSent =>
    obtain ⟨rpt, -, rfl⟩ := Option.map_eq_some_iff.mp step
    exact .lists _ _
  | sent =>
    obtain ⟨rpt, -, rfl⟩ := Option.map_eq_some_iff.mp step
    exact .lists _ _
  | flushSending =>
    obtain ⟨-, rfl⟩ := ftStep_flushSending step
    exact .lists _ _
  | powerOff ops =>
    obtain ⟨-, rfl⟩ := ftStep_powerOff step
    have off : StoreRun s.store (ftDataEmergence s.store false) := .lists _ _
    exact off.trans (@StoreRun.call _ _ (.saveAll, ops) _ rfl)

end Foton
