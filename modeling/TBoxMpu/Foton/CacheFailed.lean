import TBoxMpu.Foton.Cache

/-!
# A spill that fails

`ft_cache_save` and `ft_cache_save_all` unlink a report at the front of its list before the
write, and link it in again with `list_insert_before`, at the end of the list. The reports
that were not written keep their order only where the report in hand was the last one on
its list.
-/

namespace Foton

/-- The packs on the two report lists name their list and are nodes of their own. -/
structure FtStore.Linked (s : FtStore) : Prop where
  delay : ∀ pack ∈ s.lists .delay, pack.list = .delay
  realtm : ∀ pack ∈ s.lists .realtm, pack.list = .realtm
  nodes : (s.waiting.map FtPack.node).Nodup

/-- The reports behind the written ones are where they were. -/
structure UnwrittenStay (s : FtStore) (written : List FtPack) (t : FtStore) : Prop where
  delay : t.lists .delay = (s.lists .delay).drop written.length
  realtm : t.lists .realtm =
    (s.lists .realtm).drop (written.length - (s.lists .delay).length)
  sending : t.lists .trans = s.lists .trans
  errors : t.lists .tmplst = s.lists .tmplst

/-- The waiting report number `k` is the last one on its list. -/
def FtStore.LastOnList (s : FtStore) (k : Nat) : Prop :=
  k + 1 = (s.lists .delay).length ∨ k + 1 = s.waiting.length

/-- If one of the first `rounds` writes is reached and fails, the first that does is that of
the last report on its list. -/
def SpillSafe (ops : FileOps) (rounds : Nat) (s : FtStore) : Prop :=
  ops.pathOk = true → ops.formatting = false → ops.openOk = true →
    ∀ k < rounds, (∀ j < k, ops.packOk j = true) → ops.packOk k = false → s.LastOnList k

theorem Spilled.stay {packs : List FtPack} {s t : FtStore} (spilled : Spilled packs s t) :
    UnwrittenStay s packs t :=
  ⟨spilled.delay, spilled.realtm, spilled.sending, spilled.errors⟩

theorem UnwrittenStay.refl (s : FtStore) : UnwrittenStay s [] s :=
  (Spilled.refl s).stay

theorem UnwrittenStay.reset (s : FtStore) : UnwrittenStay s [] (ftCacheReset s) :=
  ⟨rfl, (refl s).realtm, rfl, rfl⟩

/-- An element goes to the end of a list of distinct ones and stays first only if it is alone. -/
theorem rotate_eq_iff {pack : FtPack} {rest : List FtPack}
    (distinct : ((pack :: rest).map FtPack.node).Nodup) :
    rest ++ [pack] = pack :: rest ↔ rest = [] := by
  constructor
  · intro same
    cases rest with
    | nil => rfl
    | cons next rest =>
      have front : next = pack := (List.cons.inj same).1
      subst front
      simp at distinct
  · rintro rfl
    rfl

/-- The report in hand goes back to where it was exactly if it is the last on its list. -/
theorem putFailed_stay_iff {s m : FtStore} {packs : List FtPack} {pack : FtPack}
    {lists : FtList → List FtPack} (linked : s.Linked) (spilled : Spilled packs s m)
    (oldest : ftTakeOldest m = some (pack, lists)) :
    UnwrittenStay s packs (ftCachePutFailed { m with lists } pack) ↔
      s.LastOnList packs.length := by
  have nodes : (m.waiting.map FtPack.node).Nodup := by
    have all := linked.nodes
    rw [spilled.taken, List.map_append] at all
    exact (List.nodup_append.mp all).2.1
  have delayed := congrArg List.length spilled.delay
  have realtime := congrArg List.length spilled.realtm
  rw [List.length_drop] at delayed realtime
  simp only [FtStore.LastOnList, FtStore.waiting, List.length_append]
  rcases ftTakeOldest_some oldest with ⟨rest, content, rfl⟩ | ⟨none, rest, content, rfl⟩
  · -- the report came from the delay list, and goes to its end
    have home : pack.list = .delay := by
      apply linked.delay
      apply List.mem_of_mem_drop (i := packs.length)
      rw [← spilled.delay, content]
      exact List.mem_cons_self
    have stays : UnwrittenStay s packs (ftCachePutFailed
        { m with lists := Heads.set m.lists .delay rest } pack) ↔ rest ++ [pack] = pack :: rest := by
      constructor
      · intro stay
        have same := stay.delay
        rw [← spilled.delay, content] at same
        simpa [ftCachePutFailed, ftCacheReset, home] using same
      · intro same
        exact {
          delay := by
            rw [← spilled.delay, content, ← same]
            simp [ftCachePutFailed, ftCacheReset, home]
          realtm := by simp [ftCachePutFailed, ftCacheReset, home, spilled.realtm]
          sending := by simp [ftCachePutFailed, ftCacheReset, home, spilled.sending]
          errors := by simp [ftCachePutFailed, ftCacheReset, home, spilled.errors] }
    rw [FtStore.waiting, content, List.map_append] at nodes
    rw [stays, rotate_eq_iff (List.nodup_append.mp nodes).1, ← List.length_eq_zero_iff]
    rw [content, List.length_cons] at delayed
    omega
  · -- the delay list was empty: the same on the realtime list
    have home : pack.list = .realtm := by
      apply linked.realtm
      apply List.mem_of_mem_drop (i := packs.length - (s.lists .delay).length)
      rw [← spilled.realtm, content]
      exact List.mem_cons_self
    have stays : UnwrittenStay s packs (ftCachePutFailed
        { m with lists := Heads.set m.lists .realtm rest } pack) ↔
          rest ++ [pack] = pack :: rest := by
      constructor
      · intro stay
        have same := stay.realtm
        rw [← spilled.realtm, content] at same
        simpa [ftCachePutFailed, ftCacheReset, home] using same
      · intro same
        exact {
          delay := by simp [ftCachePutFailed, ftCacheReset, home, spilled.delay]
          realtm := by
            rw [← spilled.realtm, content, ← same]
            simp [ftCachePutFailed, ftCacheReset, home]
          sending := by simp [ftCachePutFailed, ftCacheReset, home, spilled.sending]
          errors := by simp [ftCachePutFailed, ftCacheReset, home, spilled.errors] }
    rw [FtStore.waiting, none, List.nil_append, content] at nodes
    rw [stays, rotate_eq_iff nodes, ← List.length_eq_zero_iff]
    rw [none, List.length_nil] at delayed
    rw [content, List.length_cons] at realtime
    omega

/-- The loop's own case of `ft_spill_stays`. -/
theorem saveLoop_stay_iff {ops : FileOps} {rounds : Nat} {s t : FtStore} {packs : List FtPack}
    (linked : s.Linked) (h : ftCacheSaveLoop ops rounds 0 s = some (packs, t)) :
    UnwrittenStay s packs t ↔
      ∀ k < rounds, (∀ j < k, ops.packOk j = true) → ops.packOk k = false → s.LastOnList k := by
  rcases ftCacheSaveLoop_spilled h with
    ⟨len, ok, spilled⟩ | ⟨len, ok, failed, m, p, ls, spilled, oldest, rfl⟩
  · refine ⟨fun _ k inside _ failed => ?_, fun _ => spilled.stay⟩
    have written := ok k inside
    rw [Nat.zero_add, failed] at written
    cases written
  · simp only [Nat.zero_add] at ok failed
    rw [putFailed_stay_iff linked spilled oldest]
    constructor
    · intro last k _ before refused
      -- the first write that fails is the one of the report in hand
      have same : k = packs.length := by
        rcases Nat.lt_trichotomy k packs.length with lt | eq | gt
        · rw [ok k lt] at refused
          cases refused
        · exact eq
        · rw [before packs.length gt] at failed
          cases failed
      exact same ▸ last
    · intro safe
      exact safe packs.length len ok failed

theorem UnwrittenStay.finish_iff {ops : FileOps} {packs : List FtPack} {s t : FtStore} :
    UnwrittenStay s packs (ftCacheFinish ops packs t) ↔ UnwrittenStay s packs t := by
  obtain ⟨info, eq, -⟩ := ftCacheFinish_eq ops packs t
  rw [eq]
  exact ⟨fun ⟨a, b, c, d⟩ => ⟨a, b, c, d⟩, fun ⟨a, b, c, d⟩ => ⟨a, b, c, d⟩⟩

theorem ftCacheSave_stay_iff {ops : FileOps} {s t : FtStore} {r : CacheResult}
    (linked : s.Linked) (h : ftCacheSave ops s = some (r, t)) :
    UnwrittenStay s r.packs t ↔ SpillSafe ops ftCacheGrade s := by
  unfold ftCacheSave at h
  split_ifs at h with path format opened
  · obtain ⟨rfl, rfl⟩ := Prod.mk.inj (Option.some.inj h)
    exact ⟨fun _ ok => by simp [ok] at path, fun _ => .reset s⟩
  · obtain ⟨rfl, rfl⟩ := Prod.mk.inj (Option.some.inj h)
    exact ⟨fun _ _ ok => by simp [ok] at format, fun _ => .refl s⟩
  · obtain ⟨rfl, rfl⟩ := Prod.mk.inj (Option.some.inj h)
    exact ⟨fun _ _ _ ok => by simp [ok] at opened, fun _ => .reset s⟩
  · obtain ⟨⟨packs, m⟩, run, eq⟩ := Option.map_eq_some_iff.mp h
    obtain ⟨rfl, rfl⟩ := Prod.mk.inj eq
    rw [show (CacheResult.moved packs).packs = packs from rfl, UnwrittenStay.finish_iff,
      saveLoop_stay_iff linked run]
    exact ⟨fun safe _ _ _ => safe, fun safe => safe (by simpa using path) (by simpa using format)
      (by simpa using opened)⟩

theorem ftCacheSaveAll_stay_iff {ops : FileOps} {s : FtStore} (linked : s.Linked) :
    UnwrittenStay s (ftCacheSaveAll ops s).1.packs (ftCacheSaveAll ops s).2 ↔
      SpillSafe ops s.waiting.length s := by
  have rounds : (s.lists .delay).length + (s.lists .realtm).length = s.waiting.length :=
    List.length_append.symm
  have run := ftCacheSaveAllLoop_eq ops 0 rounds
  unfold ftCacheSaveAll
  split_ifs with path format opened
  · exact ⟨fun _ ok => by simp [ok] at path, fun _ => .reset s⟩
  · exact ⟨fun _ _ ok => by simp [ok] at format, fun _ => .refl s⟩
  · exact ⟨fun _ _ _ ok => by simp [ok] at opened, fun _ => .reset s⟩
  · dsimp only
    generalize ftCacheSaveAllLoop ops _ 0 s = out at run ⊢
    obtain ⟨packs, m⟩ := out
    rw [show (CacheResult.moved packs).packs = packs from rfl, UnwrittenStay.finish_iff,
      saveLoop_stay_iff linked run, rounds]
    exact ⟨fun safe _ _ _ => safe, fun safe => safe (by simpa using path) (by simpa using format)
      (by simpa using opened)⟩

/-- The reports that a spill did not write stay on their lists in their order and position
exactly if no write fails, or the first one that does is that of the last report on its list. -/
theorem ft_spill_stays (s : FtStore) (ops : FileOps) (linked : s.Linked) :
    (∀ r t, ftCacheSave ops s = some (r, t) →
      (UnwrittenStay s r.packs t ↔ SpillSafe ops ftCacheGrade s)) ∧
    (UnwrittenStay s (ftCacheSaveAll ops s).1.packs (ftCacheSaveAll ops s).2 ↔
      SpillSafe ops s.waiting.length s) :=
  ⟨fun _ _ h => ftCacheSave_stay_iff linked h, ftCacheSaveAll_stay_iff linked⟩

/-- Two delayed reports, the older one in front. -/
def ftTwoDelayed : FtStore :=
  ftDelayedOnly [⟨4, [1], 1, 3, .delay⟩, ⟨5, [2], 2, 3, .delay⟩]

/-- The first write fails. -/
def FileOps.firstRefused : FileOps :=
  { fine with packOk := fun k => k ≠ 0 }

theorem ftTwoDelayed_linked : ftTwoDelayed.Linked :=
  ⟨by decide, by decide, by decide⟩

/-- One failed write is put back in place, the last of two; the first of two is not. -/
theorem ft_spill_stays_two :
    UnwrittenStay ftTwoDelayed
        (ftCacheSaveAll { FileOps.fine with packOk := fun k => k ≠ 1 } ftTwoDelayed).1.packs
        (ftCacheSaveAll { FileOps.fine with packOk := fun k => k ≠ 1 } ftTwoDelayed).2 := by
  refine (ft_spill_stays ftTwoDelayed _ ftTwoDelayed_linked).2.mpr ?_
  intro _ _ _ k inside _ failed
  have second : k = 1 := by simpa using failed
  subst second
  exact .inl rfl

/-- With the first of two writes refused the older report comes behind the newer one. -/
theorem ft_spill_turns : ¬ ∀ (s : FtStore) (ops : FileOps), s.Linked →
    (∀ r t, ftCacheSave ops s = some (r, t) → UnwrittenStay s r.packs t) ∧
      UnwrittenStay s (ftCacheSaveAll ops s).1.packs (ftCacheSaveAll ops s).2 := by
  intro claim
  have stay := (claim ftTwoDelayed .firstRefused ftTwoDelayed_linked).2.delay
  have turned : (ftCacheSaveAll .firstRefused ftTwoDelayed).2.lists .delay =
      [⟨5, [2], 2, 3, .delay⟩, ⟨4, [1], 1, 3, .delay⟩] := by decide
  have before : (ftTwoDelayed.lists .delay).drop
      (ftCacheSaveAll .firstRefused ftTwoDelayed).1.packs.length =
      [⟨4, [1], 1, 3, .delay⟩, ⟨5, [2], 2, 3, .delay⟩] := by decide
  rw [turned, before] at stay
  exact absurd stay (by decide)

end Foton
