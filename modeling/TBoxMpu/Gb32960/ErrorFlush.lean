import TBoxMpu.Gb32960.Buffers
import TBoxMpu.Gb32960.Heap

/-!
# Flushes of the error ring

A flush takes the packs of the ring backwards from `gb_errlst_head`, newest first, into buffers of
the report lists, and puts these at the end of the delay list.

`dataFlushError_spec`: with buffers for a whole ring it returns, and appends the packs before the
head that hold something, in the order of the ring. `Refines.flushError`: the code in memory does
the same.
-/

namespace Gb32960

open LinkedRing Sock

/-! ### The flush -/

/-- The loop of `gb_data_flush_error`: `none` when it finds no buffer, or out of fuel. -/
def gbFlushErrorLoop : Nat → GbStore → GbErrors → Option (GbStore × GbErrors)
  | 0, _, _ => none
  | fuel + 1, s, errs =>
    match gbErrorTake errs with
    | none => some (s, errs)
    | some (err, errs) => (gbFlushErrorTake s err).bind fun s => gbFlushErrorLoop fuel s errs

/-- `gb_data_flush_error`. It takes each pack of the ring once at most. -/
def gbDataFlushError (s : GbStore) (errs : GbErrors) : Option (GbStore × GbErrors) :=
  if errs.ring = [] then some (s, errs)
  else (gbFlushErrorLoop (gbMaxError + 1) (s.setList .tmplst []) errs).map fun (s, errs) =>
    (gbFlushErrorEnd s, errs)

/-! ### Buffers of the report lists -/

/-- The lists without their first buffers, `k` in all. -/
structure Dropped (s t : GbStore) (k : Nat) : Prop where
  free : t.lists .free = (s.lists .free).drop k
  delay : t.lists .delay = (s.lists .delay).drop (k - (s.lists .free).length)
  realtm : t.lists .realtm = (s.lists .realtm).drop
    (k - (s.lists .free).length - (s.lists .delay).length)
  trans : t.lists .trans = s.lists .trans
  emerg : t.emerg = s.emerg

theorem Dropped.none (s : GbStore) : Dropped s s 0 where
  free := rfl
  delay := by simp
  realtm := by simp
  trans := rfl
  emerg := rfl

theorem Dropped.pool {s t : GbStore} {k : Nat} (dropped : Dropped s t k) :
    t.pool = s.pool.drop k := by
  unfold GbStore.pool
  rw [dropped.free, dropped.delay, dropped.realtm, List.drop_append, List.drop_append,
    List.length_append, Nat.sub_sub]

theorem Dropped.trans_add {s t u : GbStore} {j k : Nat} (first : Dropped s t j)
    (second : Dropped t u k) : Dropped s u (j + k) where
  free := by rw [second.free, first.free, List.drop_drop]
  delay := by
    rw [second.delay, first.delay, first.free, List.drop_drop, List.length_drop]
    congr 1
    omega
  realtm := by
    rw [second.realtm, first.realtm, first.free, first.delay, List.drop_drop, List.length_drop,
      List.length_drop]
    congr 1
    omega
  trans := second.trans.trans first.trans
  emerg := second.emerg.trans first.emerg

/-- The buffer taken is the first of the pool. -/
theorem takeBuffer_pool {s : GbStore} {n : GbNode} {rest : List GbNode}
    (pool : s.pool = n :: rest) :
    ∃ t, gbTakeBuffer s = some (n, t) ∧ Dropped s t 1 ∧ t.pack = s.pack ∧
      t.lists .tmplst = s.lists .tmplst := by
  unfold GbStore.pool at pool
  unfold gbTakeBuffer GbStore.getFirst
  cases free : s.lists .free with
  | cons m ms =>
    rw [free] at pool
    obtain rfl : m = n := (List.cons.inj pool).1
    exact ⟨s.setList .free ms, rfl, ⟨by simp [free], by simp [free], by simp [free], by simp, rfl⟩,
      rfl, by simp⟩
  | nil =>
    rw [free, List.nil_append] at pool
    cases delay : s.lists .delay with
    | cons m ms =>
      rw [delay] at pool
      obtain rfl : m = n := (List.cons.inj pool).1
      exact ⟨s.setList .delay ms, rfl,
        ⟨by simp [free], by simp [free, delay], by simp [free, delay], by simp, rfl⟩, rfl, by simp⟩
    | nil =>
      rw [delay, List.nil_append] at pool
      rw [pool]
      exact ⟨s.setList .realtm rest, rfl,
        ⟨by simp [free], by simp [free, delay], by simp [free, delay, pool], by simp, rfl⟩, rfl,
        by simp⟩

/-- What the loop does to the report lists for these packs of the ring. -/
structure Took (s t : GbStore) (packs : List GbPack) : Prop where
  dropped : Dropped s t packs.length
  -- the newest pack is taken first, and the one taken last is in front
  tmplst : t.lists .tmplst = (s.pool.take packs.length).reverse ++ s.lists .tmplst
  stored : (s.pool.take packs.length).reverse.map t.pack = packs
  others : ∀ n ∉ s.pool.take packs.length, t.pack n = s.pack n

theorem Took.none (s : GbStore) : Took s s [] where
  dropped := Dropped.none s
  tmplst := by simp
  stored := by simp
  others _ _ := rfl

/-- A buffer is there, and takes the newest pack. -/
theorem took_one {s : GbStore} {n : GbNode} {rest : List GbNode} (pool : s.pool = n :: rest)
    (err : GbPack) : ∃ t, gbFlushErrorTake s err = some t ∧ Took s t [err.delayed] ∧
      t.pool = rest := by
  obtain ⟨t, buffer, dropped, pack, tmplst⟩ := takeBuffer_pool pool
  have same : Dropped s ((t.setPack n err.delayed).insertAfter .tmplst n) 1 :=
    ⟨by simpa using dropped.free, by simpa using dropped.delay, by simpa using dropped.realtm,
      by simpa using dropped.trans, dropped.emerg⟩
  refine ⟨(t.setPack n err.delayed).insertAfter .tmplst n, ?_, ⟨same, ?_, ?_, ?_⟩, ?_⟩
  · unfold gbFlushErrorTake
    rw [buffer]
    rfl
  · simp [pool, tmplst]
  · simp [pool]
  · intro m other
    have ne : m ≠ n := by simpa [pool] using other
    simp [ne, pack]
  · rw [same.pool, pool]
    rfl

theorem Took.next {s t u : GbStore} {packs : List GbPack} {err : GbPack} {n : GbNode}
    {rest : List GbNode} (pool : s.pool = n :: rest) (left : t.pool = rest)
    (fresh : n ∉ rest.take packs.length) (first : Took s t [err]) (later : Took t u packs) :
    Took s u (packs ++ [err]) := by
  have taken : s.pool.take (packs ++ [err]).length = n :: t.pool.take packs.length := by
    rw [pool, left, List.length_append]
    rfl
  have one : t.pack n = err := by
    have stored := first.stored
    rw [pool] at stored
    exact (List.cons.inj stored).1
  constructor
  · have length : (packs ++ [err]).length = 1 + packs.length := by
      rw [List.length_append, Nat.add_comm]
      rfl
    rw [length]
    exact first.dropped.trans_add later.dropped
  · rw [taken, later.tmplst, first.tmplst, pool]
    simp
  · rw [taken, List.reverse_cons, List.map_append, later.stored, List.map_singleton]
    rw [later.others n (left ▸ fresh), one]
  · intro m other
    rw [taken, List.mem_cons, not_or] at other
    rw [later.others m other.2]
    refine first.others m ?_
    rw [pool]
    simpa using other.1

/-! ### The loop -/

/-- The pack before the head is empty, or there is no ring. -/
def GbErrors.Ends (errs : GbErrors) (e : List GbErrNode) : Prop :=
  ∀ n, e.getLast? = some n → (errs.mem n).data = []

theorem errorTake_none {errs : GbErrors} (ends : errs.Ends errs.ring) :
    gbErrorTake errs = none := by
  unfold gbErrorTake
  split
  · rfl
  next n last =>
    rw [if_pos (ends n last)]

/-- A round takes the last pack of the ring, which is the first and empty then. -/
theorem errorTake_some {errs : GbErrors} {ns : List GbErrNode} {n : GbErrNode}
    (ring : errs.ring = ns ++ [n]) (holds : (errs.mem n).data ≠ []) :
    ∃ errs', gbErrorTake errs = some (errs.mem n, errs') ∧ errs'.ring = n :: ns ∧
      errs'.mem = Function.update errs.mem n { errs.mem n with data := [] } := by
  have last : errs.ring.getLast? = some n := by rw [ring, List.getLast?_append]; rfl
  unfold gbErrorTake
  split
  next none => rw [last] at none; cases none
  next m found =>
    obtain rfl : m = n := by rw [last] at found; exact (Option.some.inj found).symm
    rw [if_neg holds]
    exact ⟨_, rfl, by simp [ring], rfl⟩

/-- The loop takes all the packs before the head that hold something, up to the first that does
not, and empties them. -/
theorem flushErrorLoop_spec {errs : GbErrors} {e f : List GbErrNode} {s : GbStore} (fuel : Nat)
    (ring : errs.ring = e ++ f) (ends : errs.Ends e) (holds : ∀ n ∈ f, (errs.mem n).data ≠ [])
    (nodup : s.pool.Nodup) (room : f.length ≤ s.pool.length) (enough : f.length < fuel) :
    ∃ t errs', gbFlushErrorLoop fuel s errs = some (t, errs') ∧
      Took s t (f.map fun n => (errs.mem n).delayed) ∧ errs'.ring = f ++ e ∧
      ∀ n, errs'.mem n = if n ∈ f then { errs.mem n with data := [] } else errs.mem n := by
  induction f using List.reverseRecOn generalizing errs e s fuel with
  | nil =>
    obtain ⟨fuel, rfl⟩ := Nat.exists_eq_succ_of_ne_zero (Nat.ne_of_gt enough)
    rw [List.append_nil] at ring
    refine ⟨s, errs, ?_, Took.none s, ring, fun n => by simp⟩
    unfold gbFlushErrorLoop
    rw [errorTake_none (ring ▸ ends)]
  | append_singleton f n ih =>
    obtain ⟨fuel, rfl⟩ := Nat.exists_eq_succ_of_ne_zero (Nat.ne_of_gt (Nat.zero_lt_of_lt enough))
    rw [List.length_append, List.length_singleton] at room enough
    obtain ⟨m, rest, pool⟩ := List.exists_cons_of_length_pos (show 0 < s.pool.length by omega)
    rw [← List.append_assoc] at ring
    obtain ⟨errs₁, taken, ring₁, mem₁⟩ := errorTake_some ring (holds n (by simp))
    obtain ⟨s₁, took, first, left⟩ := took_one pool (errs.mem n)
    -- the node just taken is not met again
    have apart : n ∉ e ++ f := by
      have once := errs.nodup
      rw [ring] at once
      exact fun mem => (List.nodup_append.mp once).2.2 n mem n (by simp) rfl
    have same : ∀ k ∈ e ++ f, errs₁.mem k = errs.mem k := by
      intro k mem
      rw [mem₁, Function.update_of_ne]
      rintro rfl
      exact apart mem
    have ends₁ : errs₁.Ends (n :: e) := by
      intro k last
      rw [List.getLast?_cons] at last
      cases back : e.getLast? with
      | none =>
        obtain rfl : n = k := by simpa [back] using last
        rw [mem₁, Function.update_self]
      | some j =>
        obtain rfl : j = k := by simpa [back] using last
        rw [same j (List.mem_append_left f (List.mem_of_getLast? back))]
        exact ends j back
    rw [pool] at nodup room
    obtain ⟨t, errs', run, later, ring', mem'⟩ := ih fuel ring₁ ends₁
      (fun k mem => same k (List.mem_append_right e mem) ▸ holds k (by simp [mem]))
      (left ▸ (List.nodup_cons.mp nodup).2) (by rw [left]; simpa using room) (by omega)
    refine ⟨t, errs', ?_, ?_, by rw [ring']; simp, fun k => ?_⟩
    · unfold gbFlushErrorLoop
      rw [taken]
      dsimp only
      rw [took]
      exact run
    · rw [List.map_append, List.map_singleton]
      have packs : f.map (fun k => (errs₁.mem k).delayed) = f.map fun k => (errs.mem k).delayed :=
        List.map_congr_left fun k mem => by rw [same k (List.mem_append_right e mem)]
      rw [packs] at later
      exact first.next pool left
        (fun mem => (List.nodup_cons.mp nodup).1 (List.mem_of_mem_take mem)) later
    · rw [mem' k]
      by_cases old : k ∈ f
      · rw [if_pos old, if_pos (List.mem_append_left [n] old),
          same k (List.mem_append_right e old)]
      · rw [if_neg old, mem₁]
        by_cases this : k = n
        · subst this
          simp
        · simp [old, this]

/-- The loop ends where no pack is left to take. -/
theorem flushErrorLoop_ends {fuel : Nat} {s t : GbStore} {errs errs' : GbErrors}
    (run : gbFlushErrorLoop fuel s errs = some (t, errs')) : gbErrorTake errs' = none := by
  induction fuel generalizing s errs with
  | zero => cases run
  | succ fuel ih =>
    unfold gbFlushErrorLoop at run
    split at run
    next done =>
      cases run
      exact done
    · obtain ⟨u, -, later⟩ := Option.bind_eq_some_iff.mp run
      exact ih later

theorem dataFlushError_ends {s t : GbStore} {errs errs' : GbErrors}
    (run : gbDataFlushError s errs = some (t, errs')) : gbErrorTake errs' = none := by
  unfold gbDataFlushError at run
  split at run
  next empty =>
    cases run
    refine errorTake_none ?_
    rw [empty]
    exact nofun
  · obtain ⟨⟨u, errs⟩, loop, eq⟩ := Option.map_eq_some_iff.mp run
    cases eq
    exact flushErrorLoop_ends loop

/-- What a flush does to the report lists: these packs are at the end of the delay list. Buffers
are taken from the heads of the free, the delay and the realtime list. -/
structure Appends (s t : GbStore) (packs : List GbPack) : Prop where
  free : t.lists .free = (s.lists .free).drop packs.length
  delay : t.lists .delay = (s.lists .delay).drop (packs.length - (s.lists .free).length) ++
    (s.pool.take packs.length).reverse
  realtm : t.lists .realtm = (s.lists .realtm).drop
    (packs.length - (s.lists .free).length - (s.lists .delay).length)
  trans : t.lists .trans = s.lists .trans
  stored : (s.pool.take packs.length).reverse.map t.pack = packs
  others : ∀ n ∉ s.pool.take packs.length, t.pack n = s.pack n
  emerg : t.emerg = s.emerg

/-- There are buffers for a whole ring. -/
structure Ready (s : GbStore) : Prop where
  nodup : s.pool.Nodup
  enough : gbMaxError ≤ s.pool.length

/-- The same nodes are there afterwards: what the packs took is on the delay list. -/
theorem Appends.ready {s t : GbStore} {packs : List GbPack} (appends : Appends s t packs)
    (ready : Ready s) : Ready t := by
  have dropped : t.lists .free ++ ((s.lists .delay).drop
      (packs.length - (s.lists .free).length) ++ t.lists .realtm) = s.pool.drop packs.length := by
    unfold GbStore.pool
    rw [appends.free, appends.realtm, List.drop_append, List.drop_append, List.length_append,
      Nat.sub_sub, List.append_assoc]
  have perm : t.pool.Perm s.pool := by
    calc t.pool
        = t.lists .free ++ ((s.lists .delay).drop (packs.length - (s.lists .free).length) ++
            (s.pool.take packs.length).reverse ++ t.lists .realtm) := by
          change t.lists .free ++ t.lists .delay ++ t.lists .realtm = _
          rw [appends.delay]
          simp only [List.append_assoc]
      _ |>.Perm (t.lists .free ++ ((s.lists .delay).drop
            (packs.length - (s.lists .free).length) ++ t.lists .realtm ++
            (s.pool.take packs.length).reverse)) := by
          refine List.Perm.append_left _ ?_
          rw [List.append_assoc, List.append_assoc]
          exact List.Perm.append_left _ List.perm_append_comm
      _ = s.pool.drop packs.length ++ (s.pool.take packs.length).reverse := by
          rw [← List.append_assoc, dropped]
      _ |>.Perm (s.pool.take packs.length ++ s.pool.drop packs.length) :=
          (List.Perm.append_left _ (List.reverse_perm _)).trans List.perm_append_comm
      _ = s.pool := List.take_append_drop _ _
  exact ⟨perm.nodup_iff.mpr ready.nodup, perm.length_eq ▸ ready.enough⟩

theorem Took.ended {s t : GbStore} {packs : List GbPack}
    (took : Took (s.setList .tmplst []) t packs) : Appends s (gbFlushErrorEnd t) packs := by
  have pool : (s.setList .tmplst []).pool = s.pool := by simp [GbStore.pool]
  obtain ⟨⟨free, delay, realtm, trans, emerg⟩, tmplst, stored, others⟩ := took
  rw [pool] at tmplst stored others
  constructor
  · simpa [gbFlushErrorEnd] using free
  · simpa [gbFlushErrorEnd, tmplst] using delay
  · simpa [gbFlushErrorEnd] using realtm
  · simpa [gbFlushErrorEnd] using trans
  · exact stored
  · exact others
  · exact emerg

/-- The data and the number of a pack of the ring. -/
def GbErrors.entry (errs : GbErrors) (n : GbErrNode) : List UInt8 × Nat :=
  ((errs.mem n).data, (errs.mem n).seq)

/-- The delayed report of a saved packet. -/
def delayedReport (entry : List UInt8 × Nat) : GbPack := ⟨entry.1, entry.2, gbRpttypeDelay, .delay⟩

/-- A flush appends the packs before the head that hold something, in the order of the ring. -/
theorem dataFlushError_spec {errs : GbErrors} {e f : List GbErrNode} {s : GbStore}
    (ring : errs.ring = e ++ f) (ends : errs.Ends e) (holds : ∀ n ∈ f, (errs.mem n).data ≠ [])
    (ready : Ready s) :
    ∃ t errs', gbDataFlushError s errs = some (t, errs') ∧
      Appends s t ((f.map errs.entry).map delayedReport) ∧ errs'.ring = f ++ e ∧
      ∀ n, errs'.mem n = if n ∈ f then { errs.mem n with data := [] } else errs.mem n := by
  have packs : (f.map errs.entry).map delayedReport = f.map fun n => (errs.mem n).delayed := by
    rw [List.map_map]
    rfl
  have few : f.length ≤ gbMaxError := by
    have card := errs.nodup.length_le_card
    rw [Fintype.card_fin, ring, List.length_append] at card
    omega
  have pool : (s.setList .tmplst []).pool = s.pool := by simp [GbStore.pool]
  obtain ⟨t, errs', run, took, ring', mem'⟩ := flushErrorLoop_spec (s := s.setList .tmplst [])
    (gbMaxError + 1) ring ends holds (pool ▸ ready.nodup)
    (pool ▸ few.trans ready.enough) (by omega)
  rw [packs]
  unfold gbDataFlushError
  split
  next none =>
    -- without a ring there is nothing to take
    obtain ⟨rfl, rfl⟩ : e = [] ∧ f = [] := by
      rw [ring] at none
      exact List.append_eq_nil_iff.mp none
    exact ⟨s, errs, rfl, ⟨rfl, by simp, by simp, rfl, by simp, fun _ _ => rfl, rfl⟩, ring,
      fun n => by simp⟩
  · rw [run]
    exact ⟨gbFlushErrorEnd t, errs', rfl, took.ended, ring', mem'⟩

/-! ### The flush in memory -/

namespace GbHeap

/-- A round for the error pack `err`. The copy takes its links along, `prev` and `next` of the
error ring in the code. -/
def flushErrorCopy (h : GbHeap) (err : GbPack) (prev next : GbCell) : Option GbHeap :=
  h.takeBuffer.map fun (node, h) =>
    let h := { h with link := (h.link.setPrev (.inr node) prev).setNext (.inr node) next }
    (h.setPack node err.delayed).insertAfter .tmplst node

def flushErrorLoop : Nat → GbHeap → GbErrors → Option (GbHeap × GbErrors)
  | 0, _, _ => none
  | fuel + 1, h, errs =>
    match gbErrorTake errs with
    | none => some (h, errs)
    | some (err, errs) => (h.flushErrorTake err).bind fun h => flushErrorLoop fuel h errs

def gbDataFlushError (h : GbHeap) (errs : GbErrors) : Option (GbHeap × GbErrors) :=
  if errs.ring = [] then some (h, errs)
  else (h.flushErrorBegin.flushErrorLoop (gbMaxError + 1) errs).map fun (h, errs) =>
    (h.flushErrorEnd, errs)

end GbHeap

/-- The links that were copied are overwritten when the node is linked. -/
theorem flushErrorCopy_eq (h : GbHeap) (err : GbPack) (prev next : GbCell) :
    h.flushErrorCopy err prev next = h.flushErrorTake err := by
  unfold GbHeap.flushErrorCopy GbHeap.flushErrorTake
  congr 1
  funext ⟨node, h⟩
  have links := listInsertAfter_relinked h.link
    (nofun : (Sum.inl GbList.tmplst : GbCell) ≠ .inr node) prev next
  simp only [GbHeap.insertAfter, GbHeap.setPack, links]

theorem Refines.flushErrorLoop {h : GbHeap} {s : GbStore} (r : Refines h (liveHeads true) s)
    (fuel : Nat) (errs : GbErrors) :
    (gbFlushErrorLoop fuel s errs = none ∧ h.flushErrorLoop fuel errs = none) ∨
    ∃ t h' errs', gbFlushErrorLoop fuel s errs = some (t, errs') ∧
      h.flushErrorLoop fuel errs = some (h', errs') ∧ Refines h' (liveHeads true) t := by
  induction fuel generalizing h s errs with
  | zero => exact .inl ⟨rfl, rfl⟩
  | succ fuel ih =>
    unfold gbFlushErrorLoop GbHeap.flushErrorLoop
    cases gbErrorTake errs with
    | none => exact .inr ⟨s, h, errs, rfl, rfl, r⟩
    | some pair =>
      dsimp only
      rcases r.flushErrorTake pair.1 with ⟨e, f⟩ | ⟨t, h', e, f, r'⟩
      · rw [e, f]
        exact .inl ⟨rfl, rfl⟩
      · rw [e, f]
        exact ih r' pair.2

/-- In memory a flush does to the lists what it is said to do here. -/
theorem Refines.flushError {h : GbHeap} {s : GbStore} (r : Refines h (liveHeads false) s)
    (errs : GbErrors) :
    (gbDataFlushError s errs = none ∧ h.gbDataFlushError errs = none) ∨
    ∃ t h' errs', gbDataFlushError s errs = some (t, errs') ∧
      h.gbDataFlushError errs = some (h', errs') ∧ Refines h' (liveHeads false) t := by
  unfold gbDataFlushError GbHeap.gbDataFlushError
  split
  · exact .inr ⟨s, h, errs, rfl, rfl, r⟩
  · rcases r.flushErrorBegin.flushErrorLoop (gbMaxError + 1) errs with
      ⟨e, f⟩ | ⟨t, h', errs', e, f, r'⟩
    · rw [e, f]
      exact .inl ⟨rfl, rfl⟩
    · rw [e, f]
      exact .inr ⟨_, _, errs', rfl, rfl, r'.flushErrorEnd⟩

/-! ### Buffers in the running system -/

/-- In the runs that keep their packs there are buffers for a whole ring between two flushes. -/
theorem buffers_ready {b : GbBuffers} (reach : GbBufferReach KeepsPacks b)
    (idle : b.loop.flushed = none) : Ready b.loop.prot.store := by
  have inv := bufferInv_reach reach
  have length := inv.kept.owned.pool_length
  have held := held_le b.loop.place
  have few := inv.kept.transit.few
  rw [inv.idle idle, List.length_nil] at length
  have rest : gbMaxError + (sockMaxSync - sockBack) + 1 ≤ gbMaxReport := by decide
  refine ⟨inv.kept.owned.pool_nodup, ?_⟩
  omega

end Gb32960
