import TBoxMpu.Foton.Cache

/-!
# The flash cache is a bounded queue

For every sequence of `ft_cache_save`, `ft_cache_save_all` and `ft_cache_load` whose file
operations succeed, the reports moved are a history of one queue of at most 65535 reports.
-/

namespace Foton

inductive CacheCall
  | save | saveAll | load
  deriving DecidableEq

/-- One call with its file luck, and the reports it moved. -/
def cacheCall (s : FtStore) :
    CacheCall × FileOps → Option (SlotRing.Op FtReport × FtStore)
  | (.save, ops) => (ftCacheSave ops s).map fun (r, t) => (.put (r.packs.map FtPack.report), t)
  | (.saveAll, ops) => some (.put ((ftCacheSaveAll ops s).1.packs.map FtPack.report),
      (ftCacheSaveAll ops s).2)
  | (.load, ops) => (ftCacheLoad ops s).map fun (r, t) =>
    (.take ftCacheGrade (r.packs.map FtPack.report), t)

def cacheCalls : List (CacheCall × FileOps) → FtStore →
    Option (List (SlotRing.Op FtReport) × FtStore)
  | [], s => some ([], s)
  | call :: rest, s => do
    let (op, s) ← cacheCall s call
    let (ops, s) ← cacheCalls rest s
    some (op :: ops, s)

/-- The reports in the cache, oldest first. -/
def ftCached (s : FtStore) : List FtReport :=
  (ftPending s).map FtPack.report

theorem Spilled.cached {packs : List FtPack} {s t : FtStore} (spilled : Spilled packs s t)
    (ring : s.InRing) :
    ftCached t = SlotRing.keepLast (ftCacheSize - 1) (ftCached s ++ packs.map FtPack.report) := by
  have room : (ftPending s).length ≤ ftCacheSize - 1 := by
    have := ftPending_length_lt ring
    omega
  rw [ftCached, spilled.pending ring, SlotRing.foldl_put packs room, SlotRing.keepLast,
    SlotRing.keepLast, List.map_drop, List.map_append, ftCached, List.length_append,
    List.length_append, List.length_map, List.length_map]

theorem Loaded.cached {packs : List FtPack} {s t : FtStore} (loaded : Loaded packs s t)
    (ring : s.InRing) (count : packs.length = min ftCacheGrade (ftPending s).length) :
    packs.map FtPack.report = (ftCached s).take ftCacheGrade ∧
      ftCached t = (ftCached s).drop ftCacheGrade := by
  have split : ftCached s = packs.map FtPack.report ++ ftCached t := loaded.pending ring
  rcases Nat.le_total ftCacheGrade (ftPending s).length with le | le
  · rw [Nat.min_eq_left le, ← List.length_map (f := FtPack.report)] at count
    rw [split, List.take_left' count, List.drop_left' count]
    exact ⟨rfl, rfl⟩
  · rw [Nat.min_eq_right le] at count
    have all : (ftCached s).length ≤ ftCacheGrade := by rwa [ftCached, List.length_map]
    have none : ftCached t = [] := by
      have total := congrArg List.length split
      rw [List.length_append, List.length_map, count, ftCached, List.length_map] at total
      exact List.length_eq_zero_iff.mp (by omega)
    rw [List.take_of_length_le all, List.drop_of_length_le all, none, split, none, List.append_nil]
    exact ⟨rfl, rfl⟩

/-- One call is one operation of the queue. -/
theorem cacheCall_queue {s t : FtStore} {call : CacheCall} {ops : FileOps}
    {op : SlotRing.Op FtReport} (ring : s.InRing) (ok : ops.Succeed)
    (h : cacheCall s (call, ops) = some (op, t)) :
    t.InRing ∧ SlotRing.History (ftCacheSize - 1) (ftCached s) [op] (ftCached t) := by
  cases call with
  | save =>
    obtain ⟨⟨r, u⟩, run, eq⟩ := Option.map_eq_some_iff.mp h
    obtain ⟨rfl, rfl⟩ := Prod.mk.inj eq
    obtain ⟨-, spilled, -⟩ := ftCacheSave_spilled ok run
    exact ⟨spilled.ring ring, spilled.cached ring⟩
  | saveAll =>
    obtain ⟨all, spilled, -⟩ := ftCacheSaveAll_spilled ok s
    simp only [cacheCall, all, Option.some.injEq, Prod.mk.injEq] at h
    obtain ⟨rfl, rfl⟩ := h
    exact ⟨spilled.ring ring, spilled.cached ring⟩
  | load =>
    obtain ⟨⟨r, u⟩, run, eq⟩ := Option.map_eq_some_iff.mp h
    obtain ⟨rfl, rfl⟩ := Prod.mk.inj eq
    obtain ⟨loaded, count, -⟩ := ftCacheLoad_loaded ok ring run
    exact ⟨loaded.ring ring, loaded.cached ring count⟩

theorem History.cons {limit : Nat} {q q' q'' : List FtReport} {op : SlotRing.Op FtReport}
    {rest : List (SlotRing.Op FtReport)} (first : SlotRing.History limit q [op] q')
    (tail : SlotRing.History limit q' rest q'') : SlotRing.History limit q (op :: rest) q'' := by
  cases op with
  | put as =>
    rw [show q' = _ from first] at tail
    exact tail
  | take n as =>
    obtain ⟨taken, left⟩ := first
    rw [show q' = _ from left] at tail
    exact ⟨taken, tail⟩

theorem cacheCalls_queue {s t : FtStore} {calls : List (CacheCall × FileOps)}
    {history : List (SlotRing.Op FtReport)} (ring : s.InRing)
    (ok : ∀ call ∈ calls, call.2.Succeed) (run : cacheCalls calls s = some (history, t)) :
    SlotRing.History (ftCacheSize - 1) (ftCached s) history (ftCached t) := by
  induction calls generalizing s history with
  | nil =>
    obtain ⟨rfl, rfl⟩ := Prod.mk.inj (Option.some.inj run)
    rfl
  | cons call rest ih =>
    obtain ⟨⟨op, m⟩, first, run⟩ := Option.bind_eq_some_iff.mp run
    obtain ⟨⟨ops, u⟩, tail, eq⟩ := Option.bind_eq_some_iff.mp run
    obtain ⟨rfl, rfl⟩ := Prod.mk.inj (Option.some.inj eq)
    obtain ⟨inside, step⟩ := cacheCall_queue ring (ok call List.mem_cons_self) first
    exact History.cons step (ih inside (fun c mem => ok c (List.mem_cons_of_mem call mem)) tail)

/-- An empty ring and one report on the delay list. -/
def ftOneDelayed : FtStore :=
  ftDelayedOnly [⟨7, [1, 2], 1, 3, .delay⟩]

end Foton
