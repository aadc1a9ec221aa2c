import Mathlib.Data.List.FinRange
import Mathlib.Data.UInt
import Mathlib.Logic.Function.Basic

/-!
# The GB32960 report lists

The four report lists of `gb32960_data.c` with the temporary list of an error flush, each
as the list of the `gb_datamem` nodes linked on it, and every `gb_data_*` operation on
them. A call that finds no buffer at all never returns from the code (it spins with the
data lock held); here it is `none`.
-/

namespace Gb32960

/-- The list heads: the four static ones and `tmplst` of `gb_data_flush_error`. -/
inductive GbList
  | free | realtm | delay | trans | tmplst
  deriving DecidableEq, Repr

def gbMaxReport : Nat := 2000

/-- A node of `gb_datamem`. -/
abbrev GbNode := Fin gbMaxReport

instance : NeZero gbMaxReport := ⟨by decide⟩

def gbRpttypeRealtm : Nat := 0x02
def gbRpttypeDelay : Nat := 0x03

/-- `gb_pack_t` without its link; `data` holds the first `len` bytes of the buffer and
`list` is the home list a put-back returns the pack to. -/
structure GbPack where
  data : List UInt8
  seq : Nat
  type : Nat
  list : GbList
  deriving DecidableEq

/-- The home lists a pack can be returned to. -/
def GbHome (l : GbList) : Prop := l = .realtm ∨ l = .delay

/-- The pack as a delayed report: type and home list of the delay list. -/
def GbPack.delayed (rpt : GbPack) : GbPack :=
  { rpt with list := .delay, type := gbRpttypeDelay }

@[ext] structure GbStore where
  lists : GbList → List GbNode
  pack : GbNode → GbPack
  emerg : Bool

namespace GbStore

def setList (s : GbStore) (l : GbList) (ns : List GbNode) : GbStore :=
  { s with lists := Function.update s.lists l ns }

def setPack (s : GbStore) (n : GbNode) (rpt : GbPack) : GbStore :=
  { s with pack := Function.update s.pack n rpt }

def insertBefore (s : GbStore) (l : GbList) (n : GbNode) : GbStore :=
  s.setList l (s.lists l ++ [n])

def insertAfter (s : GbStore) (l : GbList) (n : GbNode) : GbStore :=
  s.setList l (n :: s.lists l)

def getFirst (s : GbStore) (l : GbList) : Option (GbNode × GbStore) :=
  match s.lists l with
  | [] => none
  | n :: ns => some (n, s.setList l ns)

def getLast (s : GbStore) (l : GbList) : Option (GbNode × GbStore) :=
  match (s.lists l).getLast? with
  | none => none
  | some n => some (n, s.setList l (s.lists l).dropLast)

@[simp] theorem setList_lists (s : GbStore) (l k : GbList) (ns : List GbNode) :
    (s.setList l ns).lists k = if k = l then ns else s.lists k := by
  simp [setList, Function.update_apply]

@[simp] theorem setList_pack (s : GbStore) (l : GbList) (ns : List GbNode) :
    (s.setList l ns).pack = s.pack := rfl

@[simp] theorem setList_emerg (s : GbStore) (l : GbList) (ns : List GbNode) :
    (s.setList l ns).emerg = s.emerg := rfl

@[simp] theorem setPack_lists (s : GbStore) (n : GbNode) (rpt : GbPack) :
    (s.setPack n rpt).lists = s.lists := rfl

@[simp] theorem setPack_pack (s : GbStore) (n m : GbNode) (rpt : GbPack) :
    (s.setPack n rpt).pack m = if m = n then rpt else s.pack m := by
  simp [setPack, Function.update_apply]

@[simp] theorem setPack_emerg (s : GbStore) (n : GbNode) (rpt : GbPack) :
    (s.setPack n rpt).emerg = s.emerg := rfl

@[simp] theorem insertBefore_lists (s : GbStore) (l k : GbList) (n : GbNode) :
    (s.insertBefore l n).lists k = if k = l then s.lists l ++ [n] else s.lists k := by
  simp [insertBefore]

@[simp] theorem insertBefore_pack (s : GbStore) (l : GbList) (n : GbNode) :
    (s.insertBefore l n).pack = s.pack := rfl

@[simp] theorem insertBefore_emerg (s : GbStore) (l : GbList) (n : GbNode) :
    (s.insertBefore l n).emerg = s.emerg := rfl

@[simp] theorem insertAfter_lists (s : GbStore) (l k : GbList) (n : GbNode) :
    (s.insertAfter l n).lists k = if k = l then n :: s.lists l else s.lists k := by
  simp [insertAfter]

@[simp] theorem insertAfter_pack (s : GbStore) (l : GbList) (n : GbNode) :
    (s.insertAfter l n).pack = s.pack := rfl

@[simp] theorem insertAfter_emerg (s : GbStore) (l : GbList) (n : GbNode) :
    (s.insertAfter l n).emerg = s.emerg := rfl

theorem getFirst_some {s t : GbStore} {l : GbList} {n : GbNode}
    (h : s.getFirst l = some (n, t)) :
    ∃ ns, s.lists l = n :: ns ∧ t = s.setList l ns := by
  unfold getFirst at h
  split at h
  · cases h
  next m ns content =>
    cases h
    exact ⟨ns, content, rfl⟩

theorem getFirst_none {s : GbStore} {l : GbList} :
    s.getFirst l = none ↔ s.lists l = [] := by
  unfold getFirst
  split <;> simp_all

theorem getLast_some {s t : GbStore} {l : GbList} {n : GbNode}
    (h : s.getLast l = some (n, t)) :
    ∃ ns, s.lists l = ns ++ [n] ∧ t = s.setList l ns := by
  unfold getLast at h
  split at h
  · cases h
  next m last =>
    cases h
    obtain ⟨ns, content⟩ := List.getLast?_eq_some_iff.mp last
    exact ⟨ns, content, by simp [content]⟩

theorem getLast_none {s : GbStore} {l : GbList} :
    s.getLast l = none ↔ s.lists l = [] := by
  unfold getLast
  split
  next last => simpa using last
  next n last =>
    have ne : s.lists l ≠ [] := by
      rintro empty
      simp [empty] at last
    simp [ne]

end GbStore

/-! ### Operations of the CAN thread -/

/-- The buffer for a new report: a free node, else the oldest delayed report, else the
oldest realtime one. -/
def gbTakeBuffer (s : GbStore) : Option (GbNode × GbStore) :=
  (s.getFirst .free).or ((s.getFirst .delay).or (s.getFirst .realtm))

/-- One round of the loop of `gb_data_save_realtm`; `data` is what `gb_data_save_all`
wrote for the group `i`. -/
def gbSaveOne (s : GbStore) (i : Nat) (data : List UInt8) : Option GbStore :=
  (gbTakeBuffer s).map fun (node, s) =>
    (s.setPack node ⟨data, i + 1, gbRpttypeRealtm, .realtm⟩).insertBefore .realtm node

def gbSaveFrom (s : GbStore) (i : Nat) : List (List UInt8) → Option GbStore
  | [] => some s
  | data :: rest => (gbSaveOne s i data).bind fun s => gbSaveFrom s (i + 1) rest

def gbDataSaveRealtm (s : GbStore) (groups : List (List UInt8)) : Option GbStore :=
  gbSaveFrom s 0 groups

/-- One round of the loop of `gb_data_flush_error` for the error pack `err`. -/
def gbFlushErrorTake (s : GbStore) (err : GbPack) : Option GbStore :=
  (gbTakeBuffer s).map fun (node, s) =>
    (s.setPack node err.delayed).insertAfter .tmplst node

/-- The end of `gb_data_flush_error`: the temporary list is appended to the delay list. -/
def gbFlushErrorEnd (s : GbStore) : GbStore :=
  (s.setList .delay (s.lists .delay ++ s.lists .tmplst)).setList .tmplst []

def gbDataFlushRealtm (s : GbStore) : GbStore :=
  (s.lists .realtm).foldl (fun s n =>
    (s.setPack n (s.pack n).delayed).insertBefore .delay n)
    (s.setList .realtm [])

def gbDataClearReport (s : GbStore) : GbStore :=
  -- all nodes are free again, a pack in hand among them
  (List.finRange gbMaxReport).foldl (fun s n => s.insertBefore .free n)
    ((((s.setList .realtm []).setList .delay []).setList .trans []).setList .free [])

/-! ### Operations of the protocol thread -/

def gbDataFlushSending (s : GbStore) : GbStore :=
  -- from the last one back, so that the order stays
  (s.lists .trans).foldr (fun n s => s.insertAfter (s.pack n).list n) (s.setList .trans [])

def gbDataPutBack (s : GbStore) (n : GbNode) : GbStore :=
  s.insertAfter (s.pack n).list n

def gbDataPutSend (s : GbStore) (n : GbNode) : GbStore :=
  s.insertBefore .trans n

def gbDataAckPack (s : GbStore) : GbStore :=
  match s.getFirst .trans with
  | none => s
  | some (n, s) => s.insertBefore .free n

def gbDataEmergence (s : GbStore) (set : Bool) : GbStore :=
  { s with emerg := set }

def gbDataGetPack (s : GbStore) : Option (GbNode × GbStore) :=
  -- a new report before the delayed ones; in an emergency the newest of these
  (s.getFirst .realtm).or (if s.emerg then s.getLast .delay else s.getFirst .delay)

def gbDataNosending (s : GbStore) : Bool :=
  (s.lists .trans).isEmpty

def gbDataNoreport (s : GbStore) : Bool :=
  (s.lists .realtm).isEmpty && (s.lists .delay).isEmpty

/-! ### What each operation does to the lists -/

/-- A buffer comes from the head of the free, the delay or the realtime list. -/
theorem gbTakeBuffer_some {s t : GbStore} {n : GbNode} (h : gbTakeBuffer s = some (n, t)) :
    ∃ l ns, (l = .free ∨ (s.lists .free = [] ∧ l = .delay) ∨
        (s.lists .free = [] ∧ s.lists .delay = [] ∧ l = .realtm)) ∧
      s.lists l = n :: ns ∧ t = s.setList l ns := by
  unfold gbTakeBuffer at h
  rcases Option.or_eq_some_iff.mp h with free | ⟨noFree, h⟩
  · obtain ⟨ns, content, rfl⟩ := GbStore.getFirst_some free
    exact ⟨.free, ns, .inl rfl, content, rfl⟩
  · rw [GbStore.getFirst_none] at noFree
    rcases Option.or_eq_some_iff.mp h with delay | ⟨noDelay, realtm⟩
    · obtain ⟨ns, content, rfl⟩ := GbStore.getFirst_some delay
      exact ⟨.delay, ns, .inr (.inl ⟨noFree, rfl⟩), content, rfl⟩
    · rw [GbStore.getFirst_none] at noDelay
      obtain ⟨ns, content, rfl⟩ := GbStore.getFirst_some realtm
      exact ⟨.realtm, ns, .inr (.inr ⟨noFree, noDelay, rfl⟩), content, rfl⟩

/-- Only with all three lists empty there is no buffer. -/
theorem gbTakeBuffer_none {s : GbStore} : gbTakeBuffer s = none ↔
    s.lists .free = [] ∧ s.lists .delay = [] ∧ s.lists .realtm = [] := by
  simp only [gbTakeBuffer, Option.or_eq_none_iff, GbStore.getFirst_none]

theorem gbDataFlushRealtm_lists (s : GbStore) (l : GbList) :
    (gbDataFlushRealtm s).lists l =
      if l = .realtm then [] else if l = .delay then s.lists .delay ++ s.lists .realtm
      else s.lists l := by
  have loop : ∀ (ns : List GbNode) (s : GbStore),
      (ns.foldl (fun s n => (s.setPack n (s.pack n).delayed).insertBefore .delay n) s).lists =
        (s.setList .delay (s.lists .delay ++ ns)).lists := by
    intro ns
    induction ns with
    | nil => intro s; funext k; simp +contextual
    | cons n ns ih =>
      intro s
      rw [List.foldl_cons, ih]
      funext k
      by_cases same : k = .delay <;> simp [same]
  rw [gbDataFlushRealtm, loop]
  cases l <;> simp

/-- Every pack that was on the realtime list is a delayed report with the delay list as
its home; no other pack changes. -/
theorem gbDataFlushRealtm_pack (s : GbStore) (n : GbNode) :
    (gbDataFlushRealtm s).pack n =
      if n ∈ s.lists .realtm then (s.pack n).delayed else s.pack n := by
  have loop : ∀ (ns : List GbNode) (s : GbStore),
      (ns.foldl (fun s n => (s.setPack n (s.pack n).delayed).insertBefore .delay n) s).pack n =
        if n ∈ ns then (s.pack n).delayed else s.pack n := by
    intro ns
    induction ns with
    | nil => intro s; simp
    | cons k ns ih =>
      intro s
      rw [List.foldl_cons, ih]
      by_cases same : n = k <;> simp [same, GbPack.delayed]
  rw [gbDataFlushRealtm, loop]
  simp

theorem gbDataFlushSending_pack (s : GbStore) : (gbDataFlushSending s).pack = s.pack := by
  have loop : ∀ (ns : List GbNode) (s : GbStore),
      (ns.foldr (fun n s => s.insertAfter (s.pack n).list n) s).pack = s.pack := by
    intro ns s
    induction ns with
    | nil => rfl
    | cons n ns ih => simpa using ih
  simp [gbDataFlushSending, loop]

/-- Every pack in transmission is back at the head of its home list, in sending order. -/
theorem gbDataFlushSending_lists (s : GbStore) (l : GbList) :
    (gbDataFlushSending s).lists l =
      (s.lists .trans).filter (fun n => (s.pack n).list = l) ++
        (if l = .trans then [] else s.lists l) := by
  have loop : ∀ (ns : List GbNode) (s : GbStore),
      (ns.foldr (fun n s => s.insertAfter (s.pack n).list n) s).pack = s.pack ∧
      (ns.foldr (fun n s => s.insertAfter (s.pack n).list n) s).lists l =
        ns.filter (fun n => (s.pack n).list = l) ++ s.lists l := by
    intro ns s
    induction ns with
    | nil => simp
    | cons n ns ih =>
      obtain ⟨pack, lists⟩ := ih
      refine ⟨by simpa using pack, ?_⟩
      by_cases home : (s.pack n).list = l
      · simp [pack, home, lists]
      · simp [pack, home, lists, Ne.symm home]
  rw [gbDataFlushSending, (loop _ _).2]
  simp only [GbStore.setList_pack, GbStore.setList_lists]
  rfl

/-- A report goes back to the realtime or the delay list; the other lists keep theirs. -/
theorem putBack_other {s : GbStore} {n : GbNode} (home : GbHome (s.pack n).list) {l : GbList}
    (other : ¬ GbHome l) : (gbDataPutBack s n).lists l = s.lists l := by
  unfold gbDataPutBack
  rw [GbStore.insertAfter_lists, if_neg]
  rintro rfl
  exact other home

/-- A new login puts every report in transmission back to its home list. -/
theorem trans_relogin {s : GbStore} (home : ∀ n ∈ s.lists .trans, GbHome (s.pack n).list) :
    (gbDataFlushRealtm (gbDataFlushSending s)).lists .trans = [] := by
  rw [gbDataFlushRealtm_lists, if_neg nofun, if_neg nofun, gbDataFlushSending_lists, if_pos rfl,
    List.append_nil, List.filter_eq_nil_iff]
  intro n mem
  rcases home n mem with eq | eq <;> simp [eq]

theorem gbDataClearReport_lists (s : GbStore) (l : GbList) :
    (gbDataClearReport s).lists l =
      if l = .free then List.finRange gbMaxReport
      else if l = .tmplst then s.lists .tmplst else [] := by
  have loop : ∀ (ns : List GbNode) (s : GbStore),
      (ns.foldl (fun s n => s.insertBefore .free n) s).lists =
        (s.setList .free (s.lists .free ++ ns)).lists := by
    intro ns
    induction ns with
    | nil => intro s; funext k; simp +contextual
    | cons n ns ih =>
      intro s
      rw [List.foldl_cons, ih]
      funext k
      by_cases same : k = .free <;> simp [same]
  -- for any list of nodes: a conversion check would run the list of all of them
  have reset : ∀ ns : List GbNode, (ns.foldl (fun s n => s.insertBefore .free n)
      ((((s.setList .realtm []).setList .delay []).setList .trans []).setList .free [])).lists l =
        if l = .free then ns else if l = .tmplst then s.lists .tmplst else [] := by
    intro ns
    rw [loop]
    cases l <;> simp
  rw [gbDataClearReport, reset]

theorem gbDataClearReport_pack (s : GbStore) : (gbDataClearReport s).pack = s.pack := by
  have loop : ∀ (ns : List GbNode) (s : GbStore),
      (ns.foldl (fun s n => s.insertBefore .free n) s).pack = s.pack := by
    intro ns
    induction ns with
    | nil => intro s; rfl
    | cons n ns ih => intro s; rw [List.foldl_cons, ih]; rfl
  simp [gbDataClearReport, loop]

theorem gbDataClearReport_emerg (s : GbStore) : (gbDataClearReport s).emerg = s.emerg := by
  have loop : ∀ (ns : List GbNode) (s : GbStore),
      (ns.foldl (fun s n => s.insertBefore .free n) s).emerg = s.emerg := by
    intro ns
    induction ns with
    | nil => intro s; rfl
    | cons n ns ih => intro s; rw [List.foldl_cons, ih]; rfl
  simp [gbDataClearReport, loop]

-- Two thousand nodes: no conversion check may run the loop.
attribute [irreducible] gbDataClearReport

/-- An acknowledgement frees the oldest pack in transmission, if there is one. -/
theorem gbDataAckPack_cases (s : GbStore) :
    (s.lists .trans = [] ∧ gbDataAckPack s = s) ∨
    ∃ n ns, s.lists .trans = n :: ns ∧
      gbDataAckPack s = (s.setList .trans ns).insertBefore .free n := by
  unfold gbDataAckPack
  cases first : s.getFirst .trans with
  | none => exact .inl ⟨GbStore.getFirst_none.mp first, rfl⟩
  | some pair =>
    obtain ⟨ns, content, eq⟩ := GbStore.getFirst_some (t := pair.2) (n := pair.1) first
    exact .inr ⟨pair.1, ns, content, by rw [← eq]⟩

/-- The pack taken for sending is the oldest realtime report, or with none there a
delayed one: the oldest, in an emergency the newest. -/
theorem gbDataGetPack_some {s t : GbStore} {n : GbNode} (h : gbDataGetPack s = some (n, t)) :
    (∃ ns, s.lists .realtm = n :: ns ∧ t = s.setList .realtm ns) ∨
    (s.lists .realtm = [] ∧ s.emerg = false ∧
      ∃ ns, s.lists .delay = n :: ns ∧ t = s.setList .delay ns) ∨
    (s.lists .realtm = [] ∧ s.emerg = true ∧
      ∃ ns, s.lists .delay = ns ++ [n] ∧ t = s.setList .delay ns) := by
  unfold gbDataGetPack at h
  rcases Option.or_eq_some_iff.mp h with realtm | ⟨noRealtm, h⟩
  · exact .inl (GbStore.getFirst_some realtm)
  · rw [GbStore.getFirst_none] at noRealtm
    cases emerg : s.emerg with
    | false =>
      rw [emerg] at h
      exact .inr (.inl ⟨noRealtm, rfl, GbStore.getFirst_some h⟩)
    | true =>
      rw [emerg] at h
      exact .inr (.inr ⟨noRealtm, rfl, GbStore.getLast_some h⟩)

theorem gbDataGetPack_none {s : GbStore} :
    gbDataGetPack s = none ↔ s.lists .realtm = [] ∧ s.lists .delay = [] := by
  unfold gbDataGetPack
  rw [Option.or_eq_none_iff, GbStore.getFirst_none]
  split <;> simp [GbStore.getFirst_none, GbStore.getLast_none]

theorem gbDataNoreport_iff {s : GbStore} :
    gbDataNoreport s = true ↔ gbDataGetPack s = none := by
  simp [gbDataNoreport, gbDataGetPack_none]

/-! ### Lists an operation does not touch -/

/-- The lists from which buffers are taken. -/
def GbList.isSource : GbList → Prop
  | .free | .realtm | .delay => True
  | .trans | .tmplst => False

theorem gbTakeBuffer_same {s t : GbStore} {n : GbNode} {l : GbList} (hl : ¬ l.isSource)
    (h : gbTakeBuffer s = some (n, t)) : t.lists l = s.lists l := by
  obtain ⟨k, ns, origin, -, rfl⟩ := gbTakeBuffer_some h
  have ne : l ≠ k := by
    rintro rfl
    rcases origin with rfl | ⟨-, rfl⟩ | ⟨-, -, rfl⟩ <;> exact hl trivial
  simp [ne]

/-- What the save of one group keeps, and any number of such saves, the save of all keeps. -/
theorem gbSaveFrom_kept {R : GbStore → GbStore → Prop} (refl : ∀ s, R s s)
    (trans : ∀ {s t u}, R s t → R t u → R s u)
    (one : ∀ {s t i data}, gbSaveOne s i data = some t → R s t) {s t : GbStore} {i : Nat}
    {groups : List (List UInt8)} (saved : gbSaveFrom s i groups = some t) : R s t := by
  induction groups generalizing s i with
  | nil =>
    cases saved
    exact refl _
  | cons data rest ih =>
    obtain ⟨u, first, more⟩ := Option.bind_eq_some_iff.mp saved
    exact trans (one first) (ih more)

theorem gbSaveFrom_same {s t : GbStore} {l : GbList} (hl : ¬ l.isSource) (i : Nat)
    (groups : List (List UInt8)) (h : gbSaveFrom s i groups = some t) :
    t.lists l = s.lists l := by
  have ne : l ≠ .realtm := by rintro rfl; exact hl trivial
  refine gbSaveFrom_kept (R := fun s t => t.lists l = s.lists l) (fun _ => rfl)
    (fun first more => more.trans first) ?_ h
  intro s u i data one
  obtain ⟨⟨n, v⟩, taken, rfl⟩ := Option.map_eq_some_iff.mp one
  simpa [ne] using gbTakeBuffer_same hl taken

theorem gbDataGetPack_same {s t : GbStore} {n : GbNode} {l : GbList} (hl : ¬ l.isSource)
    (h : gbDataGetPack s = some (n, t)) : t.lists l = s.lists l := by
  have realtm : l ≠ .realtm := by rintro rfl; exact hl trivial
  have delay : l ≠ .delay := by rintro rfl; exact hl trivial
  rcases gbDataGetPack_some h with ⟨_, -, rfl⟩ | ⟨-, -, _, -, rfl⟩ | ⟨-, -, _, -, rfl⟩ <;>
    simp [realtm, delay]

theorem gbDataGetPack_pack {s t : GbStore} {n : GbNode} (h : gbDataGetPack s = some (n, t)) :
    t.pack = s.pack ∧ t.emerg = s.emerg := by
  rcases gbDataGetPack_some h with ⟨_, -, rfl⟩ | ⟨-, -, _, -, rfl⟩ | ⟨-, -, _, -, rfl⟩ <;>
    exact ⟨rfl, rfl⟩

theorem gbDataAckPack_tmplst (s : GbStore) :
    (gbDataAckPack s).lists .tmplst = s.lists .tmplst := by
  rcases gbDataAckPack_cases s with ⟨-, eq⟩ | ⟨n, ns, -, eq⟩ <;> simp [eq]

theorem gbDataAckPack_emerg (s : GbStore) : (gbDataAckPack s).emerg = s.emerg := by
  rcases gbDataAckPack_cases s with ⟨-, eq⟩ | ⟨n, ns, -, eq⟩ <;> simp [eq]

theorem gbSaveFrom_emerg {s t : GbStore} (i : Nat) (groups : List (List UInt8))
    (h : gbSaveFrom s i groups = some t) : t.emerg = s.emerg := by
  refine gbSaveFrom_kept (R := fun s t => t.emerg = s.emerg) (fun _ => rfl)
    (fun first more => more.trans first) ?_ h
  intro s u i data one
  obtain ⟨⟨n, v⟩, taken, rfl⟩ := Option.map_eq_some_iff.mp one
  obtain ⟨k, ns, -, -, rfl⟩ := gbTakeBuffer_some taken
  rfl

theorem gbDataFlushRealtm_emerg (s : GbStore) : (gbDataFlushRealtm s).emerg = s.emerg := by
  have loop : ∀ (ns : List GbNode) (s : GbStore),
      (ns.foldl (fun s n =>
        (s.setPack n (s.pack n).delayed).insertBefore .delay n) s).emerg = s.emerg := by
    intro ns
    induction ns with
    | nil => intro s; rfl
    | cons n ns ih => intro s; rw [List.foldl_cons, ih]; rfl
  simp [gbDataFlushRealtm, loop]

theorem gbDataFlushSending_emerg (s : GbStore) : (gbDataFlushSending s).emerg = s.emerg := by
  have loop : ∀ (ns : List GbNode) (s : GbStore),
      (ns.foldr (fun n s => s.insertAfter (s.pack n).list n) s).emerg = s.emerg := by
    intro ns s
    induction ns with
    | nil => rfl
    | cons n ns ih => simpa using ih
  simp [gbDataFlushSending, loop]

theorem gbDataFlushSending_tmplst (s : GbStore)
    (home : ∀ n ∈ s.lists .trans, GbHome (s.pack n).list) :
    (gbDataFlushSending s).lists .tmplst = s.lists .tmplst := by
  rw [gbDataFlushSending_lists, List.filter_eq_nil_iff.mpr]
  · simp
  · intro n mem
    rcases home n mem with eq | eq <;> simp [eq]

end Gb32960
