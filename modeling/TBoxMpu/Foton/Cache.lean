import TBoxMpu.Foton.Store
import Mathlib.Tactic.SplitIfs

/-!
# The flash cache as a queue

What one spilled report does to the lists and to the ring, what a batch of them does, and
from it that `ft_cache_save`, `ft_cache_save_all` and `ft_cache_load` are the operations of
one bounded queue. A write that fails puts its report back behind the others.
-/

namespace Foton

/-! ### The ring -/

def FtStore.InRing (s : FtStore) : Prop :=
  s.indexR < ftCacheSize ∧ s.indexW < ftCacheSize

/-- The packs in the cache, oldest first. -/
def ftPending (s : FtStore) : List FtPack :=
  SlotRing.pending ftCacheSize s.cacheData s.indexR s.indexW

/-- The reports that wait on the delay list and, behind them, on the realtime list. -/
def FtStore.waiting (s : FtStore) : List FtPack :=
  s.lists .delay ++ s.lists .realtm

theorem ftPending_lists (s : FtStore) (lists : FtList → List FtPack) :
    ftPending { s with lists } = ftPending s := rfl

theorem ftIndexNext_eq (index : Nat) : ftIndexNext index = SlotRing.next ftCacheSize index :=
  Nat.and_two_pow_sub_one_eq_mod (index + 1) 16

theorem ftIndexNext_lt (index : Nat) : ftIndexNext index < ftCacheSize := by
  rw [ftIndexNext_eq]
  exact SlotRing.next_lt (by decide) index

theorem ftPending_length_lt {s : FtStore} (ring : s.InRing) :
    (ftPending s).length < ftCacheSize :=
  SlotRing.length_pending_lt _ ring.1

theorem ftCachePut_inRing {s : FtStore} (ring : s.InRing) (pack : FtPack) :
    (ftCachePut s pack).InRing := by
  refine ⟨?_, ftIndexNext_lt _⟩
  simp only [ftCachePut]
  split_ifs
  · exact ftIndexNext_lt _
  · exact ring.1

theorem ftCachePut_pending {s : FtStore} (ring : s.InRing) (pack : FtPack) :
    ftPending (ftCachePut s pack) = SlotRing.put (ftCacheSize - 1) (ftPending s) pack := by
  simp only [ftPending, ftCachePut, ftIndexNext_eq]
  exact SlotRing.pending_put _ ring.1 ring.2 pack

/-- `cache_info` holds the indices in memory. -/
def FtStore.InfoRight (s : FtStore) : Prop :=
  ftCacheLoadInfo s = (s.indexR, s.indexW)

theorem ftCacheFinish_eq (ops : FileOps) (packs : List FtPack) (s : FtStore) :
    ∃ info, ftCacheFinish ops packs s = { s with cacheInfo := info } ∧
      (packs = [] → info = s.cacheInfo) := by
  unfold ftCacheFinish ftCacheSaveInfo
  split_ifs with none ok
  · exact ⟨s.cacheInfo, rfl, fun _ => rfl⟩
  · exact ⟨some (s.indexR, s.indexW), rfl, fun empty => absurd empty none⟩
  · exact ⟨s.cacheInfo, rfl, fun _ => rfl⟩

theorem ftCacheFinish_infoRight {ops : FileOps} {packs : List FtPack} {s : FtStore}
    (ok : ops.infoOk = true) (still : packs = [] → s.InfoRight) :
    (ftCacheFinish ops packs s).InfoRight := by
  unfold ftCacheFinish ftCacheSaveInfo
  split_ifs with none
  · exact still none
  · rfl

/-! ### Spilling -/

theorem ftTakeOldest_some {s : FtStore} {pack : FtPack} {lists : FtList → List FtPack}
    (h : ftTakeOldest s = some (pack, lists)) :
    (∃ rest, s.lists .delay = pack :: rest ∧ lists = Heads.set s.lists .delay rest) ∨
      (s.lists .delay = [] ∧
        ∃ rest, s.lists .realtm = pack :: rest ∧ lists = Heads.set s.lists .realtm rest) := by
  rcases Option.or_eq_some_iff.mp h with delay | ⟨none, realtm⟩
  · exact .inl (Heads.getFirst_some delay)
  · exact .inr ⟨Heads.getFirst_none.mp none, Heads.getFirst_some realtm⟩

theorem ftTakeOldest_none {s : FtStore} :
    ftTakeOldest s = none ↔ s.waiting = [] := by
  rw [ftTakeOldest, Option.or_eq_none_iff, Heads.getFirst_none, Heads.getFirst_none,
    FtStore.waiting, List.append_eq_nil_iff]

/-- The reports `packs` went from the front of the waiting ones to the cache. -/
structure Spilled (packs : List FtPack) (s t : FtStore) : Prop where
  taken : s.waiting = packs ++ t.waiting
  delay : t.lists .delay = (s.lists .delay).drop packs.length
  realtm : t.lists .realtm = (s.lists .realtm).drop (packs.length - (s.lists .delay).length)
  free : t.lists .free = s.lists .free ++ packs
  sending : t.lists .trans = s.lists .trans
  errors : t.lists .tmplst = s.lists .tmplst
  still : packs = [] → t = s
  ring : s.InRing → t.InRing
  pending : s.InRing → ftPending t = packs.foldl (SlotRing.put (ftCacheSize - 1)) (ftPending s)

theorem Spilled.refl (s : FtStore) : Spilled [] s s :=
  ⟨rfl, rfl, by simp, by simp, rfl, rfl, fun _ => rfl, id, fun _ => by rw [List.foldl_nil]⟩

theorem Spilled.append {ps qs : List FtPack} {s t u : FtStore} (first : Spilled ps s t)
    (second : Spilled qs t u) : Spilled (ps ++ qs) s u where
  taken := by rw [first.taken, second.taken, List.append_assoc]
  delay := by rw [second.delay, first.delay, List.drop_drop, List.length_append]
  realtm := by
    rw [second.realtm, first.realtm, first.delay, List.drop_drop, List.length_drop,
      List.length_append]
    congr 1
    omega
  free := by rw [second.free, first.free, List.append_assoc]
  sending := second.sending.trans first.sending
  errors := second.errors.trans first.errors
  still none := by
    obtain ⟨noFirst, noSecond⟩ := List.append_eq_nil_iff.mp none
    rw [second.still noSecond, first.still noFirst]
  ring := second.ring ∘ first.ring
  pending ring := by
    rw [second.pending (first.ring ring), first.pending ring, List.foldl_append]

/-- The oldest pack is the first one that waits, and leaves its list. -/
theorem ftTakeOldest_lists {s : FtStore} {pack : FtPack} {lists : FtList → List FtPack}
    (h : ftTakeOldest s = some (pack, lists)) :
    s.waiting = pack :: (lists .delay ++ lists .realtm) ∧
      lists .delay = (s.lists .delay).drop 1 ∧
      lists .realtm = (s.lists .realtm).drop (1 - (s.lists .delay).length) ∧
      ∀ l, l ≠ .delay → l ≠ .realtm → lists l = s.lists l := by
  rcases ftTakeOldest_some h with ⟨rest, content, rfl⟩ | ⟨none, rest, content, rfl⟩
  · refine ⟨by simp [FtStore.waiting, content], by simp [content], by simp [content], ?_⟩
    intro l delay _
    simp [delay]
  · refine ⟨by simp [FtStore.waiting, none, content], by simp [none], by simp [none, content], ?_⟩
    intro l _ realtm
    simp [realtm]

/-- One round with a successful write. -/
theorem Spilled.one {s : FtStore} {pack : FtPack} {lists : FtList → List FtPack}
    (h : ftTakeOldest s = some (pack, lists)) :
    Spilled [pack] s (ftCachePut { s with lists } pack) := by
  obtain ⟨taken, delay, realtm, other⟩ := ftTakeOldest_lists h
  have ring : s.InRing → FtStore.InRing { s with lists } := id
  exact {
    taken := by
      rw [taken]
      simp [FtStore.waiting, ftCachePut]
    delay := by simp [ftCachePut, delay]
    realtm := by simp [ftCachePut, realtm]
    free := by simp [ftCachePut, other]
    sending := by simp [ftCachePut, other]
    errors := by simp [ftCachePut, other]
    still := fun none => nomatch none
    ring := fun inside => ftCachePut_inRing (ring inside) pack
    pending := fun inside => by
      rw [ftCachePut_pending (ring inside), List.foldl_cons, List.foldl_nil, ftPending_lists] }

/-- What was spilled is the front of what waited. -/
theorem Spilled.packs_eq {packs : List FtPack} {s t : FtStore} (spilled : Spilled packs s t) :
    packs = s.waiting.take packs.length := by
  rw [spilled.taken, List.take_left']
  rfl

/-- Up to the first failed write the loop of `ft_cache_save` spills, then it puts the
report in hand back. -/
theorem ftCacheSaveLoop_spilled {ops : FileOps} {rounds cnt : Nat} {s t : FtStore}
    {packs : List FtPack} (h : ftCacheSaveLoop ops rounds cnt s = some (packs, t)) :
    (packs.length = rounds ∧ (∀ k < rounds, ops.packOk (cnt + k) = true) ∧ Spilled packs s t) ∨
    (packs.length < rounds ∧ (∀ k < packs.length, ops.packOk (cnt + k) = true) ∧
      ops.packOk (cnt + packs.length) = false ∧
      ∃ m pack lists, Spilled packs s m ∧ ftTakeOldest m = some (pack, lists) ∧
        t = ftCachePutFailed { m with lists } pack) := by
  induction rounds generalizing cnt s packs with
  | zero =>
    obtain ⟨rfl, rfl⟩ := Prod.mk.inj (Option.some.inj h)
    exact .inl ⟨rfl, fun k hk => absurd hk (Nat.not_lt_zero k), .refl s⟩
  | succ rounds ih =>
    simp only [ftCacheSaveLoop] at h
    split at h
    · cases h
    next pack lists oldest =>
      split at h
      next written =>
        obtain ⟨⟨rest, u⟩, run, eq⟩ := Option.map_eq_some_iff.mp h
        obtain ⟨rfl, rfl⟩ := Prod.mk.inj eq
        -- the writes of the rest are numbered from the next one on
        have shift : ∀ n, (∀ k < n, ops.packOk (cnt + 1 + k) = true) →
            ∀ k < n + 1, ops.packOk (cnt + k) = true := by
          intro n rest k hk
          cases k with
          | zero => exact written
          | succ k => rw [show cnt + (k + 1) = cnt + 1 + k by omega]; exact rest k (by omega)
        rcases ih run with ⟨len, ok, spilled⟩ | ⟨len, ok, failed, m, p, ls, spilled, back⟩
        · exact .inl ⟨by simp [len], shift rounds ok, (Spilled.one oldest).append spilled⟩
        · refine .inr ⟨by simpa using len, shift _ ok, ?_, m, p, ls,
            (Spilled.one oldest).append spilled, back⟩
          rw [List.length_cons, show cnt + (rest.length + 1) = cnt + 1 + rest.length by omega]
          exact failed
      next refused =>
        obtain ⟨rfl, rfl⟩ := Prod.mk.inj (Option.some.inj h)
        refine .inr ⟨Nat.succ_pos _, fun k hk => absurd hk (Nat.not_lt_zero k), ?_, s, pack, lists,
          .refl s, oldest, rfl⟩
        simpa using refused

theorem waiting_put {s : FtStore} {pack : FtPack} {lists : FtList → List FtPack}
    (oldest : ftTakeOldest s = some (pack, lists)) :
    s.waiting.length = (ftCachePut { s with lists } pack).waiting.length + 1 := by
  have taken := congrArg List.length (Spilled.one oldest).taken
  rw [List.length_append, List.length_singleton] at taken
  omega

/-- With enough reports waiting no round of `ft_cache_save` spins. -/
theorem ftCacheSaveLoop_isSome (ops : FileOps) {rounds : Nat} (cnt : Nat) {s : FtStore}
    (enough : rounds ≤ s.waiting.length) : (ftCacheSaveLoop ops rounds cnt s).isSome := by
  induction rounds generalizing cnt s with
  | zero => rfl
  | succ rounds ih =>
    simp only [ftCacheSaveLoop]
    split
    next none =>
      rw [ftTakeOldest_none.mp none] at enough
      exact absurd enough (Nat.not_succ_le_zero _)
    next pack lists oldest =>
      have left := waiting_put oldest
      split
      · rw [Option.isSome_map]
        exact ih (cnt + 1) (by omega)
      · rfl

/-- With six reports waiting `ft_cache_save` comes to an end. -/
theorem ftCacheSave_isSome (ops : FileOps) {s : FtStore} (enough : ftCacheGrade ≤ s.waiting.length) :
    (ftCacheSave ops s).isSome := by
  unfold ftCacheSave
  split_ifs
  · rfl
  · rfl
  · rfl
  · rw [Option.isSome_map]
    exact ftCacheSaveLoop_isSome ops 0 enough

/-- The loop of `ft_cache_save_all` is that of `ft_cache_save`, run once for each report. -/
theorem ftCacheSaveAllLoop_eq (ops : FileOps) {rounds : Nat} (cnt : Nat) {s : FtStore}
    (all : rounds = s.waiting.length) :
    ftCacheSaveLoop ops rounds cnt s = some (ftCacheSaveAllLoop ops rounds cnt s) := by
  induction rounds generalizing cnt s with
  | zero => rfl
  | succ rounds ih =>
    simp only [ftCacheSaveLoop, ftCacheSaveAllLoop]
    split
    next none =>
      rw [ftTakeOldest_none.mp none] at all
      exact absurd all (Nat.succ_ne_zero _)
    next pack lists oldest =>
      have left := waiting_put oldest
      split
      · rw [ih (cnt + 1) (by omega)]
        rfl
      · rfl

theorem Spilled.finish {packs : List FtPack} {s m : FtStore} (ops : FileOps)
    (spilled : Spilled packs s m) : Spilled packs s (ftCacheFinish ops packs m) := by
  obtain ⟨info, eq, still⟩ := ftCacheFinish_eq ops packs m
  rw [eq]
  exact { spilled with
    still := fun none => by rw [still none]; exact spilled.still none }

/-- `ft_cache_save` moves the six oldest waiting reports to the cache. -/
theorem ftCacheSave_spilled {ops : FileOps} (ok : ops.Succeed) {s t : FtStore} {r : CacheResult}
    (h : ftCacheSave ops s = some (r, t)) :
    r.packs.length = ftCacheGrade ∧ Spilled r.packs s t ∧ (s.InfoRight → t.InfoRight) := by
  simp only [ftCacheSave, ok.path, ok.format, ok.opened, Bool.not_true, Bool.false_eq_true,
    if_false] at h
  obtain ⟨⟨packs, m⟩, run, eq⟩ := Option.map_eq_some_iff.mp h
  obtain ⟨rfl, rfl⟩ := Prod.mk.inj eq
  rcases ftCacheSaveLoop_spilled run with ⟨len, -, spilled⟩ | ⟨-, -, failed, -⟩
  · refine ⟨len, spilled.finish ops, fun right => ftCacheFinish_infoRight ok.info fun none => ?_⟩
    rw [spilled.still none]
    exact right
  · rw [ok.packs] at failed
    cases failed

/-- `ft_cache_save_all` moves all waiting reports to the cache. -/
theorem ftCacheSaveAll_spilled {ops : FileOps} (ok : ops.Succeed) (s : FtStore) :
    (ftCacheSaveAll ops s).1.packs = s.waiting ∧
      Spilled s.waiting s (ftCacheSaveAll ops s).2 ∧
      (s.InfoRight → (ftCacheSaveAll ops s).2.InfoRight) := by
  have rounds : (s.lists .delay).length + (s.lists .realtm).length = s.waiting.length :=
    List.length_append.symm
  have run := ftCacheSaveAllLoop_eq ops 0 rounds
  simp only [ftCacheSaveAll, ok.path, ok.format, ok.opened, Bool.not_true, Bool.false_eq_true,
    if_false]
  generalize ftCacheSaveAllLoop ops _ 0 s = out at run ⊢
  obtain ⟨packs, m⟩ := out
  rcases ftCacheSaveLoop_spilled run with ⟨len, -, spilled⟩ | ⟨-, -, failed, -⟩
  · have all := spilled.packs_eq
    rw [len, rounds, List.take_length] at all
    subst all
    refine ⟨rfl, spilled.finish ops, fun right => ftCacheFinish_infoRight ok.info fun none => ?_⟩
    rw [spilled.still none]
    exact right
  · rw [ok.packs] at failed
    cases failed

/-! ### Loading -/

/-- The oldest reports of the cache came to the end of the delay list, into free nodes. -/
structure Loaded (packs : List FtPack) (s t : FtStore) : Prop where
  delay : t.lists .delay = s.lists .delay ++ packs
  homes : ∀ pack ∈ packs, pack.list = .delay
  free : t.lists .free = (s.lists .free).drop packs.length
  realtm : t.lists .realtm = s.lists .realtm
  sending : t.lists .trans = s.lists .trans
  errors : t.lists .tmplst = s.lists .tmplst
  emerg : t.emerg = s.emerg
  still : packs = [] → t = s
  ring : s.InRing → t.InRing
  pending : s.InRing → (ftPending s).map FtPack.report =
    packs.map FtPack.report ++ (ftPending t).map FtPack.report

theorem Loaded.refl (s : FtStore) : Loaded [] s s :=
  ⟨by simp, by simp, by simp, rfl, rfl, rfl, rfl, fun _ => rfl, id,
    fun _ => by rw [List.map_nil, List.nil_append]⟩

theorem Loaded.append {ps qs : List FtPack} {s t u : FtStore} (first : Loaded ps s t)
    (second : Loaded qs t u) : Loaded (ps ++ qs) s u where
  delay := by rw [second.delay, first.delay, List.append_assoc]
  homes pack mem := (List.mem_append.mp mem).elim (first.homes pack) (second.homes pack)
  free := by rw [second.free, first.free, List.drop_drop, List.length_append]
  realtm := second.realtm.trans first.realtm
  sending := second.sending.trans first.sending
  errors := second.errors.trans first.errors
  emerg := second.emerg.trans first.emerg
  still none := by
    obtain ⟨noFirst, noSecond⟩ := List.append_eq_nil_iff.mp none
    rw [second.still noSecond, first.still noFirst]
  ring := second.ring ∘ first.ring
  pending ring := by
    rw [first.pending ring, second.pending (first.ring ring), List.map_append, List.append_assoc]

/-- One round with a successful read. -/
theorem Loaded.one {s : FtStore} {node : FtPack} {lists : FtList → List FtPack}
    (ne : s.indexR ≠ s.indexW) (free : Heads.getFirst s.lists .free = some (node, lists)) :
    Loaded [{ (s.cacheData s.indexR).delayed with node := node.node }] s
      { s with
        lists := Heads.insertBefore lists .delay
          { (s.cacheData s.indexR).delayed with node := node.node }
        indexR := ftIndexNext s.indexR } := by
  obtain ⟨rest, content, rfl⟩ := Heads.getFirst_some free
  exact {
    delay := by simp
    homes := by simp [FtPack.delayed]
    free := by simp [content]
    realtm := by simp
    sending := by simp
    errors := by simp
    emerg := rfl
    still := fun none => nomatch none
    ring := fun ring => ⟨ftIndexNext_lt _, ring.2⟩
    pending := fun ring => by
      simp only [ftPending, ftIndexNext_eq]
      rw [SlotRing.pending_pop _ ring.1 ring.2 ne, List.map_cons, List.map_singleton,
        List.singleton_append]
      congr 1 }

theorem ftCacheLoadLoop_loaded {ops : FileOps} (ok : ∀ k, ops.packOk k = true) {rounds : Nat}
    {s t : FtStore} {packs : List FtPack} (h : ftCacheLoadLoop ops rounds s = some (packs, t)) :
    Loaded packs s t ∧ (packs.length = rounds ∨ packs.length ≤ rounds ∧ t.indexR = t.indexW) := by
  induction rounds generalizing s packs with
  | zero =>
    obtain ⟨rfl, rfl⟩ := Prod.mk.inj (Option.some.inj h)
    exact ⟨.refl s, .inl rfl⟩
  | succ rounds ih =>
    simp only [ftCacheLoadLoop, ok, if_true] at h
    split at h
    next empty =>
      obtain ⟨rfl, rfl⟩ := Prod.mk.inj (Option.some.inj h)
      exact ⟨.refl s, .inr ⟨Nat.zero_le _, empty⟩⟩
    next ne =>
      split at h
      · cases h
      next node lists free =>
        obtain ⟨⟨rest, u⟩, run, eq⟩ := Option.map_eq_some_iff.mp h
        obtain ⟨rfl, rfl⟩ := Prod.mk.inj eq
        obtain ⟨loaded, count⟩ := ih run
        refine ⟨(Loaded.one ne free).append loaded, count.imp (congrArg Nat.succ) ?_⟩
        rintro ⟨len, empty⟩
        exact ⟨Nat.succ_le_succ len, empty⟩

theorem Loaded.finish {packs : List FtPack} {s m : FtStore} (ops : FileOps)
    (loaded : Loaded packs s m) : Loaded packs s (ftCacheFinish ops packs m) := by
  obtain ⟨info, eq, still⟩ := ftCacheFinish_eq ops packs m
  rw [eq]
  exact { loaded with
    still := fun none => by rw [still none]; exact loaded.still none }

/-- `ft_cache_load` moves the six oldest reports of the cache to the delay list, or all that
there are. -/
theorem ftCacheLoad_loaded {ops : FileOps} (ok : ops.Succeed) {s t : FtStore} {r : CacheResult}
    (ring : s.InRing) (h : ftCacheLoad ops s = some (r, t)) :
    Loaded r.packs s t ∧ r.packs.length = min ftCacheGrade (ftPending s).length ∧
      (s.InfoRight → t.InfoRight) := by
  unfold ftCacheLoad at h
  split at h
  next empty =>
    obtain ⟨rfl, rfl⟩ := Prod.mk.inj (Option.some.inj h)
    refine ⟨.refl s, ?_, id⟩
    rw [ftPending, empty, SlotRing.pending_empty]
    rfl
  next ne =>
    simp only [ok.format, ok.opened, Bool.not_true, Bool.false_eq_true, if_false] at h
    obtain ⟨⟨packs, m⟩, run, eq⟩ := Option.map_eq_some_iff.mp h
    obtain ⟨rfl, rfl⟩ := Prod.mk.inj eq
    obtain ⟨loaded, count⟩ := ftCacheLoadLoop_loaded ok.packs run
    refine ⟨loaded.finish ops, ?_, fun right => ftCacheFinish_infoRight ok.info fun none => ?_⟩
    · have total := congrArg List.length (loaded.pending ring)
      simp only [List.length_append, List.length_map] at total
      rcases count with len | ⟨len, empty⟩
      · show packs.length = _
        omega
      · rw [ftPending, ftPending, empty, SlotRing.pending_empty, List.length_nil] at total
        show packs.length = _
        rw [← ftPending] at total
        omega
    · rw [loaded.still none]
      exact right

end Foton
