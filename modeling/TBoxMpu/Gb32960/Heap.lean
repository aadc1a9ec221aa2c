import Mathlib.Data.List.Induction
import TBoxMpu.Lib.Rings
import TBoxMpu.Lib.Runs
import TBoxMpu.Gb32960.Store

/-!
# The GB32960 report lists in memory

`gb32960_data.c` on the intrusive lists of `list.h`: every list head and every
`gb_datamem` node has two links, and each critical section is its sequence of link
writes. While the heads that are in use carry disjoint rings, every section refines its
list operation of `Gb32960.Store`. The sections of the CAN thread and of the protocol
thread then interleave freely.
-/

namespace Gb32960

open LinkedRing

/-- The address of a `list_t`: a list head or the link of a node. -/
abbrev GbCell := GbList ⊕ GbNode

/-- The static data of `gb32960_data.c`: all links, the packs and the emergency flag. -/
structure GbHeap where
  link : Links GbCell
  mem : GbNode → GbPack
  emerg : Bool

namespace GbHeap

/-- `list_entry`; a list head is not the link of a pack. -/
def listEntry : GbCell → Option GbNode
  | .inl _ => none
  | .inr n => some n

def takeBuffer (h : GbHeap) : Option (GbNode × GbHeap) :=
  match listGetFirst h.link (.inl .free) with
  | (some cell, link) => (listEntry cell).map fun n => (n, { h with link })
  | (none, _) =>
    match listGetFirst h.link (.inl .delay) with
    | (some cell, link) => (listEntry cell).map fun n => (n, { h with link })
    | (none, _) =>
      match listGetFirst h.link (.inl .realtm) with
      | (some cell, link) => (listEntry cell).map fun n => (n, { h with link })
      | (none, _) => none

def setPack (h : GbHeap) (n : GbNode) (rpt : GbPack) : GbHeap :=
  { h with mem := Function.update h.mem n rpt }

def insertBefore (h : GbHeap) (l : GbList) (n : GbNode) : GbHeap :=
  { h with link := listInsertBefore h.link (.inl l) (.inr n) }

def insertAfter (h : GbHeap) (l : GbList) (n : GbNode) : GbHeap :=
  { h with link := listInsertAfter h.link (.inl l) (.inr n) }

def saveOne (h : GbHeap) (i : Nat) (data : List UInt8) : Option GbHeap :=
  h.takeBuffer.map fun (node, h) =>
    (h.setPack node ⟨data, i + 1, gbRpttypeRealtm, .realtm⟩).insertBefore .realtm node

def saveFrom (h : GbHeap) (i : Nat) : List (List UInt8) → Option GbHeap
  | [] => some h
  | data :: rest => (h.saveOne i data).bind fun h => saveFrom h (i + 1) rest

def gbDataSaveRealtm (h : GbHeap) (groups : List (List UInt8)) : Option GbHeap :=
  h.saveFrom 0 groups

def flushErrorBegin (h : GbHeap) : GbHeap :=
  { h with link := listInit h.link (.inl .tmplst) }

def flushErrorTake (h : GbHeap) (err : GbPack) : Option GbHeap :=
  h.takeBuffer.map fun (node, h) => (h.setPack node err.delayed).insertAfter .tmplst node

def flushErrorEnd (h : GbHeap) : GbHeap :=
  if listEmpty h.link (.inl .tmplst) then h
  else { h with link := listSplice h.link (.inl .delay) (.inl .tmplst) }

/-- The loop of `gb_data_flush_realtm`; out of fuel it has not returned. -/
def flushRealtmLoop : Nat → GbHeap → Option GbHeap
  | 0, _ => none
  | fuel + 1, h =>
    match listGetFirst h.link (.inl .realtm) with
    | (none, _) => some h
    | (some cell, link) => (listEntry cell).bind fun n =>
      let h := { h with link }
      flushRealtmLoop fuel ((h.setPack n (h.mem n).delayed).insertBefore .delay n)

/-- The loop of `gb_data_flush_sending`; out of fuel it has not returned. -/
def flushSendingLoop : Nat → GbHeap → Option GbHeap
  | 0, _ => none
  | fuel + 1, h =>
    match listGetLast h.link (.inl .trans) with
    | (none, _) => some h
    | (some cell, link) => (listEntry cell).bind fun n =>
      let h := { h with link }
      flushSendingLoop fuel (h.insertAfter (h.mem n).list n)

def gbDataFlushRealtm (h : GbHeap) : Option GbHeap := flushRealtmLoop (gbMaxReport + 1) h

def gbDataFlushSending (h : GbHeap) : Option GbHeap := flushSendingLoop (gbMaxReport + 1) h

def gbDataClearReport (h : GbHeap) : GbHeap :=
  (List.finRange gbMaxReport).foldl (fun h n => h.insertBefore .free n)
    { h with
      link := listInit (listInit (listInit (listInit h.link (.inl .realtm)) (.inl .delay))
        (.inl .trans)) (.inl .free) }

def gbDataPutBack (h : GbHeap) (n : GbNode) : GbHeap := h.insertAfter (h.mem n).list n

def gbDataPutSend (h : GbHeap) (n : GbNode) : GbHeap := h.insertBefore .trans n

def gbDataAckPack (h : GbHeap) : Option GbHeap :=
  match listGetFirst h.link (.inl .trans) with
  | (none, _) => some h
  | (some cell, link) => (listEntry cell).map fun n => ({ h with link }).insertBefore .free n

def gbDataEmergence (h : GbHeap) (set : Bool) : GbHeap := { h with emerg := set }

/-- The pack taken for sending, `none` inside when there is no report. -/
def gbDataGetPack (h : GbHeap) : Option (Option GbNode × GbHeap) :=
  match listGetFirst h.link (.inl .realtm) with
  | (some cell, link) => (listEntry cell).map fun n => (some n, { h with link })
  | (none, _) =>
    match if h.emerg then listGetLast h.link (.inl .delay)
      else listGetFirst h.link (.inl .delay) with
    | (some cell, link) => (listEntry cell).map fun n => (some n, { h with link })
    | (none, _) => some (none, h)

end GbHeap

/-! ### Refinement of the list operations -/

/-- The memory carries, on the live heads, exactly the lists of the store. -/
structure Refines (h : GbHeap) (live : GbList → Prop) (s : GbStore) : Prop where
  rings : Rings h.link live s.lists
  mem : h.mem = s.pack
  emerg : h.emerg = s.emerg

section Refinement

variable {h : GbHeap} {live : GbList → Prop} {s : GbStore}

theorem Refines.setPack (r : Refines h live s) (n : GbNode) (rpt : GbPack) :
    Refines (h.setPack n rpt) live (s.setPack n rpt) :=
  ⟨r.rings, by simp [GbHeap.setPack, GbStore.setPack, r.mem], r.emerg⟩

theorem Refines.insertBefore (r : Refines h live s) {l : GbList} (hl : live l) {n : GbNode}
    (fresh : Fresh live s.lists n) :
    Refines (h.insertBefore l n) live (s.insertBefore l n) :=
  ⟨r.rings.listInsertBefore hl fresh, r.mem, r.emerg⟩

theorem Refines.insertAfter (r : Refines h live s) {l : GbList} (hl : live l) {n : GbNode}
    (fresh : Fresh live s.lists n) :
    Refines (h.insertAfter l n) live (s.insertAfter l n) :=
  ⟨r.rings.listInsertAfter hl fresh, r.mem, r.emerg⟩

/-- `list_get_first` on a live head, with the node it returns free to be linked. -/
theorem Refines.getFirst (r : Refines h live s) {l : GbList} (hl : live l) :
    (s.getFirst l = none ∧ listGetFirst h.link (.inl l) = (none, h.link)) ∨
    ∃ n t link, s.getFirst l = some (n, t) ∧
      listGetFirst h.link (.inl l) = (some (.inr n), link) ∧
      Refines { h with link } live t ∧ Fresh live t.lists n := by
  rcases r.rings.listGetFirst hl with ⟨empty, eq⟩ | ⟨n, ns, link, content, eq, rings, fresh⟩
  · exact .inl ⟨GbStore.getFirst_none.mpr empty, eq⟩
  · exact .inr ⟨n, s.setList l ns, link, by simp [GbStore.getFirst, content], eq,
      ⟨rings, r.mem, r.emerg⟩, fresh⟩

theorem Refines.getLast (r : Refines h live s) {l : GbList} (hl : live l) :
    (s.getLast l = none ∧ listGetLast h.link (.inl l) = (none, h.link)) ∨
    ∃ n t link, s.getLast l = some (n, t) ∧
      listGetLast h.link (.inl l) = (some (.inr n), link) ∧
      Refines { h with link } live t ∧ Fresh live t.lists n := by
  rcases r.rings.listGetLast hl with ⟨empty, eq⟩ | ⟨n, ns, link, content, eq, rings, fresh⟩
  · exact .inl ⟨GbStore.getLast_none.mpr empty, eq⟩
  · exact .inr ⟨n, s.setList l ns, link, by simp [GbStore.getLast, content], eq,
      ⟨rings, r.mem, r.emerg⟩, fresh⟩

/-- The four static heads are in use; `tmplst` only during an error flush. -/
def liveHeads (flushing : Bool) (l : GbList) : Prop := l = .tmplst → flushing = true

variable {flushing : Bool}

theorem Refines.takeBuffer (r : Refines h (liveHeads flushing) s) :
    (gbTakeBuffer s = none ∧ h.takeBuffer = none) ∨
    ∃ n t h', gbTakeBuffer s = some (n, t) ∧ h.takeBuffer = some (n, h') ∧
      Refines h' (liveHeads flushing) t ∧ Fresh (liveHeads flushing) t.lists n := by
  unfold gbTakeBuffer GbHeap.takeBuffer
  rcases r.getFirst (l := .free) nofun with ⟨e₁, f₁⟩ | ⟨n, t, link, e₁, f₁, r₁, fresh⟩
  · rcases r.getFirst (l := .delay) nofun with ⟨e₂, f₂⟩ | ⟨n, t, link, e₂, f₂, r₂, fresh⟩
    · rcases r.getFirst (l := .realtm) nofun with ⟨e₃, f₃⟩ | ⟨n, t, link, e₃, f₃, r₃, fresh⟩
      · exact .inl (by simp [e₁, e₂, e₃, f₁, f₂, f₃])
      · exact .inr ⟨n, t, _, by simp [e₁, e₂, e₃], by simp [f₁, f₂, f₃, GbHeap.listEntry],
          r₃, fresh⟩
    · exact .inr ⟨n, t, _, by simp [e₁, e₂], by simp [f₁, f₂, GbHeap.listEntry], r₂, fresh⟩
  · exact .inr ⟨n, t, _, by simp [e₁], by simp [f₁, GbHeap.listEntry], r₁, fresh⟩

theorem Refines.saveFrom (r : Refines h (liveHeads flushing) s) (i : Nat)
    (groups : List (List UInt8)) :
    (gbSaveFrom s i groups = none ∧ h.saveFrom i groups = none) ∨
    ∃ t h', gbSaveFrom s i groups = some t ∧ h.saveFrom i groups = some h' ∧
      Refines h' (liveHeads flushing) t := by
  induction groups generalizing h s i with
  | nil => exact .inr ⟨s, h, rfl, rfl, r⟩
  | cons data rest ih =>
    simp only [gbSaveFrom, gbSaveOne, GbHeap.saveFrom, GbHeap.saveOne]
    rcases r.takeBuffer with ⟨e, f⟩ | ⟨n, t, h', e, f, r', fresh⟩
    · exact .inl (by simp [e, f])
    · have saved := (r'.setPack n ⟨data, i + 1, gbRpttypeRealtm, .realtm⟩).insertBefore
        (l := .realtm) nofun fresh
      simpa [e, f] using ih saved (i + 1)

theorem Refines.flushErrorTake (r : Refines h (liveHeads true) s) (err : GbPack) :
    (gbFlushErrorTake s err = none ∧ h.flushErrorTake err = none) ∨
    ∃ t h', gbFlushErrorTake s err = some t ∧ h.flushErrorTake err = some h' ∧
      Refines h' (liveHeads true) t := by
  unfold gbFlushErrorTake GbHeap.flushErrorTake
  rcases r.takeBuffer with ⟨e, f⟩ | ⟨n, t, h', e, f, r', fresh⟩
  · exact .inl (by simp [e, f])
  · have taken := (r'.setPack n err.delayed).insertAfter (l := .tmplst) (fun _ => rfl) fresh
    exact .inr ⟨_, _, by simp [e], by simp [f], taken⟩

theorem Refines.flushErrorBegin (r : Refines h (liveHeads false) s) :
    Refines h.flushErrorBegin (liveHeads true) (s.setList .tmplst []) :=
  ⟨r.rings.listInit _ fun _ _ ne eq => absurd eq ne, r.mem, r.emerg⟩

theorem Refines.flushErrorEnd (r : Refines h (liveHeads true) s) :
    Refines h.flushErrorEnd (liveHeads false) (gbFlushErrorEnd s) := by
  have shrink : ∀ k, liveHeads false k → liveHeads true k ∧ k ≠ .tmplst :=
    fun k hk => ⟨fun _ => rfl, fun eq => by cases hk eq⟩
  unfold GbHeap.flushErrorEnd gbFlushErrorEnd
  split
  next empty =>
    rw [r.rings.listEmpty_iff fun _ => rfl] at empty
    refine ⟨⟨fun k hk => ?_, fun k l hk hl ne => ?_⟩, r.mem, r.emerg⟩
    · have ring := r.rings.ring k (shrink k hk).1
      by_cases delay : k = .delay <;> simp_all
    · have old := r.rings.disjoint k l (shrink k hk).1 (shrink l hl).1 ne
      by_cases hkd : k = .delay <;> by_cases hld : l = .delay <;> simp_all
  next full =>
    rw [r.rings.listEmpty_iff fun _ => rfl] at full
    exact ⟨r.rings.listSplice (by rintro ⟨⟩) (fun _ => rfl) (by rintro ⟨⟩) full shrink,
      r.mem, r.emerg⟩

theorem Refines.ackPack (r : Refines h (liveHeads flushing) s) :
    ∃ h', h.gbDataAckPack = some h' ∧ Refines h' (liveHeads flushing) (gbDataAckPack s) := by
  unfold gbDataAckPack GbHeap.gbDataAckPack
  rcases r.getFirst (l := .trans) nofun with ⟨e, f⟩ | ⟨n, t, link, e, f, r', fresh⟩
  · exact ⟨h, by simp [f], by simpa [e] using r⟩
  · have freed := r'.insertBefore (l := .free) nofun fresh
    exact ⟨(⟨link, h.mem, h.emerg⟩ : GbHeap).insertBefore .free n,
      by simp [f, GbHeap.listEntry], by simpa [e] using freed⟩

theorem Refines.getPack (r : Refines h (liveHeads flushing) s) :
    (gbDataGetPack s = none ∧ h.gbDataGetPack = some (none, h)) ∨
    ∃ n t h', gbDataGetPack s = some (n, t) ∧ h.gbDataGetPack = some (some n, h') ∧
      Refines h' (liveHeads flushing) t ∧ Fresh (liveHeads flushing) t.lists n := by
  have emerg := r.emerg
  unfold gbDataGetPack GbHeap.gbDataGetPack
  rcases r.getFirst (l := .realtm) nofun with ⟨e₁, f₁⟩ | ⟨n, t, link, e₁, f₁, r₁, fresh⟩
  · cases set : s.emerg with
    | false =>
      rw [set] at emerg
      rcases r.getFirst (l := .delay) nofun with ⟨e₂, f₂⟩ | ⟨n, t, link, e₂, f₂, r₂, fresh⟩
      · exact .inl (by simp [e₁, e₂, f₁, f₂, emerg])
      · exact .inr ⟨n, t, _, by simp [e₁, e₂], by simp [f₁, f₂, emerg, GbHeap.listEntry],
          r₂, fresh⟩
    | true =>
      rw [set] at emerg
      rcases r.getLast (l := .delay) nofun with ⟨e₂, f₂⟩ | ⟨n, t, link, e₂, f₂, r₂, fresh⟩
      · exact .inl (by simp [e₁, e₂, f₁, f₂, emerg])
      · exact .inr ⟨n, t, _, by simp [e₁, e₂], by simp [f₁, f₂, emerg, GbHeap.listEntry],
          r₂, fresh⟩
  · exact .inr ⟨n, t, _, by simp [e₁], by simp [f₁, GbHeap.listEntry], r₁, fresh⟩

theorem Refines.flushRealtmLoop (r : Refines h (liveHeads flushing) s) (fuel : Nat)
    {ns : List GbNode} (content : s.lists .realtm = ns) (enough : ns.length < fuel) :
    ∃ h', h.flushRealtmLoop fuel = some h' ∧
      Refines h' (liveHeads flushing) (ns.foldl (fun s n =>
        (s.setPack n (s.pack n).delayed).insertBefore .delay n) (s.setList .realtm [])) := by
  induction ns generalizing h s fuel with
  | nil =>
    obtain ⟨fuel, rfl⟩ := Nat.exists_eq_succ_of_ne_zero (Nat.ne_of_gt enough)
    have same : s.setList .realtm [] = s := by
      ext1
      · funext k; by_cases hk : k = .realtm <;> simp [hk, content]
      · rfl
      · rfl
    rcases r.getFirst (l := .realtm) nofun with ⟨e, f⟩ | ⟨n, t, link, e, f, -⟩
    · exact ⟨h, by simp [GbHeap.flushRealtmLoop, f], by rw [List.foldl_nil, same]; exact r⟩
    · simp [GbStore.getFirst, content] at e
  | cons n ns ih =>
    obtain ⟨fuel, rfl⟩ := Nat.exists_eq_succ_of_ne_zero (Nat.ne_of_gt (Nat.zero_lt_of_lt enough))
    rcases r.getFirst (l := .realtm) nofun with ⟨e, f⟩ | ⟨n', t, link, e, f, r', fresh⟩
    · simp [GbStore.getFirst, content] at e
    · obtain ⟨rfl, rfl⟩ : n = n' ∧ s.setList .realtm ns = t := by
        simpa [GbStore.getFirst, content] using e
      have mem : h.mem n = s.pack n := by rw [r.mem]
      have moved := (r'.setPack n (s.pack n).delayed).insertBefore (l := .delay) nofun fresh
      obtain ⟨h', run, refines⟩ := ih moved fuel (by simp) (by simpa using enough)
      refine ⟨h', by simpa [GbHeap.flushRealtmLoop, f, GbHeap.listEntry, mem] using run, ?_⟩
      rw [List.foldl_cons]
      convert refines using 3
      ext1
      · funext k
        by_cases hk : k = .realtm
        · simp [hk]
        · by_cases hd : k = .delay <;> simp [hk, hd]
      · rfl
      · rfl

theorem Refines.flushSendingLoop (r : Refines h (liveHeads flushing) s) (fuel : Nat)
    {ns : List GbNode} (content : s.lists .trans = ns) (enough : ns.length < fuel)
    (home : ∀ n ∈ ns, GbHome (s.pack n).list) :
    ∃ h', h.flushSendingLoop fuel = some h' ∧
      Refines h' (liveHeads flushing)
        (ns.foldr (fun n s => s.insertAfter (s.pack n).list n) (s.setList .trans [])) := by
  induction ns using List.reverseRecOn generalizing h s fuel with
  | nil =>
    obtain ⟨fuel, rfl⟩ := Nat.exists_eq_succ_of_ne_zero (Nat.ne_of_gt enough)
    have same : s.setList .trans [] = s := by
      ext1
      · funext k; by_cases hk : k = .trans <;> simp [hk, content]
      · rfl
      · rfl
    rcases r.getLast (l := .trans) nofun with ⟨e, f⟩ | ⟨n, t, link, e, f, -⟩
    · exact ⟨h, by simp [GbHeap.flushSendingLoop, f], by rw [List.foldr_nil, same]; exact r⟩
    · simp [GbStore.getLast, content] at e
  | append_singleton ns n ih =>
    obtain ⟨fuel, rfl⟩ := Nat.exists_eq_succ_of_ne_zero (Nat.ne_of_gt (Nat.zero_lt_of_lt enough))
    rcases r.getLast (l := .trans) nofun with ⟨e, f⟩ | ⟨n', t, link, e, f, r', fresh⟩
    · simp [GbStore.getLast, content] at e
    · obtain ⟨rfl, rfl⟩ : n = n' ∧ s.setList .trans ns = t := by
        simpa [GbStore.getLast, content] using e
      have mem : h.mem n = s.pack n := by rw [r.mem]
      have homeN : GbHome (s.pack n).list := home n (by simp)
      have live : liveHeads flushing (s.pack n).list := by
        rcases homeN with eq | eq <;> rw [eq] <;> nofun
      have ne : (s.pack n).list ≠ .trans := by
        rcases homeN with eq | eq <;> rw [eq] <;> nofun
      have moved := r'.insertAfter live fresh
      obtain ⟨h', run, refines⟩ := ih moved fuel (by simp [ne.symm])
        (by simpa using Nat.lt_of_succ_lt_succ (by simpa using enough))
        (fun m hm => home m (by simp [hm]))
      refine ⟨h', by simpa [GbHeap.flushSendingLoop, f, GbHeap.listEntry, mem] using run, ?_⟩
      rw [List.foldr_append]
      convert refines using 3
      ext1
      · funext k
        by_cases hk : k = .trans
        · simp [hk, ne.symm]
        · by_cases hd : k = (s.pack n).list <;> simp [hk, hd, ne]
      · rfl
      · rfl

theorem Refines.flushRealtm (r : Refines h (liveHeads flushing) s)
    (enough : (s.lists .realtm).length < gbMaxReport + 1) :
    ∃ h', h.gbDataFlushRealtm = some h' ∧
      Refines h' (liveHeads flushing) (gbDataFlushRealtm s) :=
  r.flushRealtmLoop _ rfl enough

theorem Refines.flushSending (r : Refines h (liveHeads flushing) s)
    (enough : (s.lists .trans).length < gbMaxReport + 1)
    (home : ∀ n ∈ s.lists .trans, GbHome (s.pack n).list) :
    ∃ h', h.gbDataFlushSending = some h' ∧
      Refines h' (liveHeads flushing) (gbDataFlushSending s) :=
  r.flushSendingLoop _ rfl enough home

private theorem Refines.insertAll {live : GbList → Prop} (free : live .free)
    (ns : List GbNode) {h : GbHeap} {s : GbStore} (r : Refines h live s)
    (others : ∀ l, live l → l ≠ .free → s.lists l = [])
    (nodup : (s.lists .free ++ ns).Nodup) :
    Refines (ns.foldl (fun h n => h.insertBefore .free n) h) live
      (ns.foldl (fun s n => s.insertBefore .free n) s) := by
  induction ns generalizing h s with
  | nil => exact r
  | cons n ns ih =>
    have fresh : Fresh live s.lists n := by
      intro l hl
      by_cases eq : l = .free
      · subst eq
        exact fun mem => (List.nodup_append.mp nodup).2.2 n mem n (by simp) rfl
      · simp [others l hl eq]
    refine ih (r.insertBefore free fresh) (fun l hl ne => ?_) (by simpa using nodup)
    simpa [ne] using others l hl ne

/-- Clearing needs nothing of the static lists, initialised or not, but the temporary list
of an error flush in progress must be empty. -/
theorem refines_clearReport (tmp : Rings h.link (fun l => live l ∧ l = .tmplst) s.lists)
    (empty : live .tmplst → s.lists .tmplst = []) (mem : h.mem = s.pack)
    (emerg : h.emerg = s.emerg) (free : live .free) :
    Refines h.gbDataClearReport live (gbDataClearReport s) := by
  have r₁ := tmp.listInit (i := .realtm) (fun l => live l ∧ (l = .tmplst ∨ l = .realtm))
    (by rintro j ⟨hj, eq | eq⟩ ne; exacts [⟨hj, eq⟩, absurd eq ne])
  have r₂ := r₁.listInit (i := .delay)
    (fun l => live l ∧ (l = .tmplst ∨ l = .realtm ∨ l = .delay))
    (by rintro j ⟨hj, eq⟩ ne; exact ⟨hj, by tauto⟩)
  have r₃ := r₂.listInit (i := .trans)
    (fun l => live l ∧ (l = .tmplst ∨ l = .realtm ∨ l = .delay ∨ l = .trans))
    (by rintro j ⟨hj, eq⟩ ne; exact ⟨hj, by tauto⟩)
  have r₄ := r₃.listInit (i := .free) live
    (by intro j hj ne; exact ⟨hj, by cases j <;> simp_all⟩)
  rw [gbDataClearReport, GbHeap.gbDataClearReport]
  refine Refines.insertAll free _ ⟨r₄, mem, emerg⟩ ?_ ?_
  · intro l hl ne
    cases l <;> simp_all
  · -- by rewriting: a conversion check would run the list of all nodes
    rw [GbStore.setList_lists, if_pos rfl, List.nil_append]
    exact List.nodup_finRange gbMaxReport

-- Two thousand nodes: no conversion check may run the loop.
attribute [irreducible] GbHeap.gbDataClearReport

end Refinement

end Gb32960
