import Mathlib.Data.Fintype.Card
import TBoxMpu.Gb32960.Store

/-!
# Owners of the report nodes

Every node of `gb_datamem` is on one of the lists or held by an operation in progress.
`Owned` says so; each operation of the lists keeps it.
-/

namespace Gb32960

/-- How often the node `n` is linked on the lists or held. -/
def owners (lists : GbList → List GbNode) (held : List GbNode) (n : GbNode) : Nat :=
  (lists .free).count n + (lists .realtm).count n + (lists .delay).count n +
    (lists .trans).count n + (lists .tmplst).count n + held.count n

/-- Every node has one owner, and every report knows a home list. -/
structure Owned (s : GbStore) (held : List GbNode) : Prop where
  once : ∀ n, owners s.lists held n = 1
  home : ∀ n, n ∉ s.lists .free → GbHome (s.pack n).list

variable {s t : GbStore} {held : List GbNode} {n : GbNode}

theorem Owned.perm {held' : List GbNode} (o : Owned s held) (perm : held.Perm held') :
    Owned s held' := by
  refine ⟨fun n => ?_, o.home⟩
  have once := o.once n
  rw [owners, perm.count_eq] at once
  exact once

/-- A held node is on no list. -/
theorem Owned.fresh (o : Owned s (n :: held)) (l : GbList) : n ∉ s.lists l := by
  intro mem
  have once := o.once n
  have linked := List.count_pos_iff.mpr mem
  simp only [owners, List.count_cons_self] at once
  cases l <;> omega

theorem Owned.held_home (o : Owned s (n :: held)) : GbHome (s.pack n).list :=
  o.home n (o.fresh .free)

/-- A node of one list is on no other. -/
theorem Owned.apart (o : Owned s held) {l k : GbList} (ne : l ≠ k) (mem : n ∈ s.lists l) :
    n ∉ s.lists k := by
  intro other
  have once := o.once n
  have here := List.count_pos_iff.mpr mem
  have there := List.count_pos_iff.mpr other
  simp only [owners] at once
  cases l <;> cases k <;> first | contradiction | omega

theorem Owned.trans_home (o : Owned s held) (mem : n ∈ s.lists .trans) :
    GbHome (s.pack n).list :=
  o.home n (o.apart (l := .trans) (by decide) mem)

theorem Owned.length_lt (o : Owned s held) (l : GbList) :
    (s.lists l).length < gbMaxReport + 1 := by
  have nodup : (s.lists l).Nodup := by
    refine List.nodup_iff_count_le_one.mpr fun m => ?_
    have once := o.once m
    simp only [owners] at once
    cases l <;> omega
  have bound := nodup.length_le_card
  rw [Fintype.card_fin] at bound
  exact Nat.lt_succ_of_le bound

/-- The nodes that a new pack may use, in the order in which they are used. -/
def GbStore.pool (s : GbStore) : List GbNode := s.lists .free ++ s.lists .delay ++ s.lists .realtm

theorem Owned.pool_nodup (o : Owned s held) : s.pool.Nodup := by
  refine List.nodup_iff_count_le_one.mpr fun m => ?_
  have once := o.once m
  simp only [owners, GbStore.pool, List.count_append] at once ⊢
  omega

/-- A node that a new pack may not use is on one of the other lists, or held. -/
theorem Owned.pool_length (o : Owned s held) : gbMaxReport ≤ s.pool.length +
    ((s.lists .trans).length + (s.lists .tmplst).length + held.length) := by
  have all : List.finRange gbMaxReport ⊆
      s.pool ++ (s.lists .trans ++ s.lists .tmplst ++ held) := by
    intro m _
    have once := o.once m
    apply List.count_pos_iff.mp
    simp only [owners, GbStore.pool, List.count_append] at once ⊢
    omega
  have bound := (List.subperm_of_subset (List.nodup_finRange _) all).length_le
  simpa only [List.length_finRange, List.length_append] using bound

theorem Owned.insertBefore (o : Owned s (n :: held)) (l : GbList) :
    Owned (s.insertBefore l n) held := by
  constructor
  · intro m
    have once := o.once m
    simp only [owners, List.count_cons, beq_iff_eq] at once
    cases l <;> simp [owners, List.count_append, List.count_cons] <;> omega
  · intro m hm
    refine o.home m fun mem => hm ?_
    by_cases free : GbList.free = l
    · subst free; simp [mem]
    · simpa [free] using mem

theorem Owned.insertAfter (o : Owned s (n :: held)) (l : GbList) :
    Owned (s.insertAfter l n) held := by
  constructor
  · intro m
    have once := o.once m
    simp only [owners, List.count_cons, beq_iff_eq] at once
    cases l <;> simp [owners, List.count_cons] <;> omega
  · intro m hm
    refine o.home m fun mem => hm ?_
    by_cases free : GbList.free = l
    · subst free; simp [mem]
    · simpa [free] using mem

/-- Taking a node off the list `l`: its holder owns it now. -/
private theorem owners_setList {l : GbList} {ns : List GbNode}
    (counts : ∀ m, (s.lists l).count m = ns.count m + (n :: []).count m) (m : GbNode) :
    owners (s.setList l ns).lists (n :: held) m = owners s.lists held m := by
  have count := counts m
  simp only [List.count_singleton, beq_iff_eq] at count
  simp only [owners, List.count_cons, beq_iff_eq]
  cases l <;> simp <;> omega

/-- A buffer taken from the lists and filled with a new report. -/
theorem Owned.takeBuffer (o : Owned s held) (taken : gbTakeBuffer s = some (n, t))
    {rpt : GbPack} (home : GbHome rpt.list) : Owned (t.setPack n rpt) (n :: held) := by
  obtain ⟨l, ns, origin, content, rfl⟩ := gbTakeBuffer_some taken
  constructor
  · intro m
    have counts : ∀ m, (s.lists l).count m = ns.count m + (n :: []).count m :=
      fun m => by simp [content, List.count_cons]
    exact (owners_setList counts m).trans (o.once m)
  · intro m hm
    by_cases same : m = n
    · simpa [same] using home
    · rw [GbStore.setPack_pack, if_neg same]
      refine o.home m fun mem => hm ?_
      by_cases free : GbList.free = l
      · subst free
        simpa [content, same] using mem
      · simpa [free] using mem

theorem Owned.saveOne (o : Owned s held) {i : Nat} {data : List UInt8}
    (saved : gbSaveOne s i data = some t) : Owned t held := by
  obtain ⟨⟨n, u⟩, taken, rfl⟩ := Option.map_eq_some_iff.mp saved
  exact (o.takeBuffer taken (.inl rfl)).insertBefore .realtm

theorem Owned.saveFrom (o : Owned s held) (i : Nat) (groups : List (List UInt8))
    (saved : gbSaveFrom s i groups = some t) : Owned t held := by
  refine gbSaveFrom_kept (R := fun s t => Owned s held → Owned t held) (fun _ o => o)
    (fun first more o => more (first o)) ?_ saved o
  exact fun one o => o.saveOne one

theorem Owned.flushErrorTake (o : Owned s held) {err : GbPack}
    (taken : gbFlushErrorTake s err = some t) : Owned t held := by
  obtain ⟨⟨n, u⟩, buffer, rfl⟩ := Option.map_eq_some_iff.mp taken
  exact (o.takeBuffer buffer (.inr rfl)).insertAfter .tmplst

theorem Owned.flushErrorEnd (o : Owned s held) : Owned (gbFlushErrorEnd s) held := by
  constructor
  · intro m
    have once := o.once m
    simp only [owners] at once
    simp [owners, gbFlushErrorEnd, List.count_append]
    omega
  · intro m hm
    exact o.home m (by simpa [gbFlushErrorEnd] using hm)

theorem Owned.flushRealtm (o : Owned s held) : Owned (gbDataFlushRealtm s) held := by
  constructor
  · intro m
    have once := o.once m
    simp only [owners] at once
    simp [owners, gbDataFlushRealtm_lists, List.count_append]
    omega
  · intro m hm
    rw [gbDataFlushRealtm_pack]
    split
    · exact .inr rfl
    · exact o.home m (by simpa [gbDataFlushRealtm_lists] using hm)

theorem Owned.flushSending (o : Owned s held) : Owned (gbDataFlushSending s) held := by
  have split : ∀ m l, ((s.lists .trans).filter fun k => (s.pack k).list = l).count m =
      if (s.pack m).list = l then (s.lists .trans).count m else 0 := by
    intro m l
    by_cases home : (s.pack m).list = l
    · rw [if_pos home, List.count_filter (by simpa using home)]
    · rw [if_neg home, List.count_eq_zero]
      simp [home]
  constructor
  · intro m
    have once := o.once m
    simp only [owners] at once
    by_cases sent : m ∈ s.lists .trans
    · have pos := List.count_pos_iff.mpr sent
      have notFree : m ∉ s.lists .free := fun mem => by
        have := List.count_pos_iff.mpr mem
        omega
      rcases o.home m notFree with home | home <;>
        simp [owners, gbDataFlushSending_lists, List.count_append, split, home] <;> omega
    · have zero := List.count_eq_zero.mpr sent
      simp [owners, gbDataFlushSending_lists, List.count_append, split, zero]
      omega
  · intro m hm
    rw [gbDataFlushSending_pack]
    exact o.home m fun mem => hm (by simp [gbDataFlushSending_lists, mem])

theorem owned_clearReport (s : GbStore) (empty : s.lists .tmplst = []) :
    Owned (gbDataClearReport s) [] := by
  constructor
  · intro m
    simp [owners, gbDataClearReport_lists, empty, List.count_eq_one_of_mem, List.nodup_finRange]
  · intro m hm
    simp [gbDataClearReport_lists] at hm

theorem Owned.ackPack (o : Owned s held) : Owned (gbDataAckPack s) held := by
  rcases gbDataAckPack_cases s with ⟨-, eq⟩ | ⟨n, ns, content, eq⟩
  · rw [eq]; exact o
  · rw [eq]
    have taken : Owned (s.setList .trans ns) (n :: held) :=
      ⟨fun m => (owners_setList (by simp [content, List.count_cons]) m).trans (o.once m),
        fun m hm => o.home m (by simpa using hm)⟩
    exact taken.insertBefore .free

theorem Owned.getPack (o : Owned s held) (taken : gbDataGetPack s = some (n, t)) :
    Owned t (n :: held) := by
  have from' : ∃ l ns, l ≠ .free ∧ t = s.setList l ns ∧
      ∀ m, (s.lists l).count m = ns.count m + (n :: []).count m := by
    rcases gbDataGetPack_some taken with ⟨ns, content, rfl⟩ | ⟨-, -, ns, content, rfl⟩ |
      ⟨-, -, ns, content, rfl⟩
    · exact ⟨.realtm, ns, nofun, rfl, fun m => by
        simp [content, List.count_cons]⟩
    · exact ⟨.delay, ns, nofun, rfl, fun m => by
        simp [content, List.count_cons]⟩
    · exact ⟨.delay, ns, nofun, rfl, fun m => by simp [content, List.count_append]⟩
  obtain ⟨l, ns, notFree, rfl, counts⟩ := from'
  refine ⟨fun m => (owners_setList counts m).trans (o.once m), fun m hm => ?_⟩
  exact o.home m (by simpa [Ne.symm notFree] using hm)

end Gb32960
