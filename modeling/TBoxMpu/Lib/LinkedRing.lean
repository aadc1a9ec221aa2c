import Mathlib.Data.List.Basic
import Mathlib.Data.List.Nodup
import Mathlib.Logic.Function.Basic

/-!
# Circular doubly linked lists

Cells of an arbitrary type `A` carry two links. A list is represented by a head cell
whose links close the circle: `Ring m h xs` says that from the head `h` the cells `xs`
are met in this order, in both directions. Every operation has one lemma about the ring
it works on and one frame lemma about the rings it does not touch.
-/

namespace LinkedRing

variable {A : Type}

/-- The two links of every cell. -/
structure Links (A : Type) where
  prev : A → A
  next : A → A

/-- Exchanging the two directions. -/
def Links.flip (m : Links A) : Links A := ⟨m.next, m.prev⟩

@[simp] theorem flip_flip (m : Links A) : m.flip.flip = m := rfl
@[simp] theorem flip_next (m : Links A) : m.flip.next = m.prev := rfl
@[simp] theorem flip_prev (m : Links A) : m.flip.prev = m.next := rfl

/-! ### Segments -/

/-- From `a` the cells `xs` lead to `b`, in both directions. -/
def Seg (m : Links A) : A → List A → A → Prop
  | a, [], b => m.next a = b ∧ m.prev b = a
  | a, x :: xs, b => (m.next a = x ∧ m.prev x = a) ∧ Seg m x xs b

theorem seg_append (m : Links A) (a : A) (xs : List A) (y : A) (ys : List A) (b : A) :
    Seg m a (xs ++ y :: ys) b ↔ Seg m a xs y ∧ Seg m y ys b := by
  induction xs generalizing a with
  | nil => rfl
  | cons x xs ih => simp only [List.cons_append, Seg, ih, and_assoc]

/-- A segment only depends on the forward links of its first cells and the backward
links of its last ones. -/
theorem Seg.congr {m m' : Links A} {a b : A} {xs : List A} (h : Seg m a xs b)
    (next : ∀ c ∈ a :: xs, m'.next c = m.next c)
    (prev : ∀ c ∈ xs ++ [b], m'.prev c = m.prev c) : Seg m' a xs b := by
  induction xs generalizing a with
  | nil =>
    obtain ⟨hn, hp⟩ := h
    exact ⟨(next a (by simp)).trans hn, (prev b (by simp)).trans hp⟩
  | cons x xs ih =>
    obtain ⟨⟨hn, hp⟩, rest⟩ := h
    refine ⟨⟨(next a (by simp)).trans hn, (prev x (by simp)).trans hp⟩, ?_⟩
    exact ih rest (fun c hc => next c (List.mem_cons_of_mem _ hc))
      (fun c hc => prev c (List.mem_cons_of_mem _ hc))

theorem Seg.prev_mem {m : Links A} {a b : A} {xs : List A} (h : Seg m a xs b) :
    m.prev b ∈ a :: xs := by
  induction xs generalizing a with
  | nil => simp [h.2]
  | cons x xs ih => exact List.mem_cons_of_mem _ (ih h.2)

theorem Seg.flip {m : Links A} {a b : A} {xs : List A} (h : Seg m a xs b) :
    Seg m.flip b xs.reverse a := by
  induction xs generalizing a with
  | nil => exact ⟨h.2, h.1⟩
  | cons x xs ih =>
    rw [List.reverse_cons, seg_append]
    exact ⟨ih h.2, h.1.2, h.1.1⟩

/-- Redirecting the last link of a segment to another cell. -/
theorem Seg.retarget {m m' : Links A} {a b b' : A} {xs : List A} (h : Seg m a xs b)
    (nodup : (a :: xs).Nodup)
    (next : ∀ c ∈ a :: xs, c ≠ m.prev b → m'.next c = m.next c)
    (last : m'.next (m.prev b) = b')
    (prev : ∀ c ∈ xs, m'.prev c = m.prev c) (back : m'.prev b' = m.prev b) :
    Seg m' a xs b' := by
  induction xs generalizing a with
  | nil =>
    obtain ⟨-, hp⟩ := h
    rw [hp] at last back
    exact ⟨last, back⟩
  | cons x xs ih =>
    obtain ⟨⟨hn, hp⟩, rest⟩ := h
    have apart : a ≠ m.prev b := fun eq => (List.nodup_cons.mp nodup).1 (eq ▸ rest.prev_mem)
    refine ⟨⟨(next a (by simp) apart).trans hn, (prev x (by simp)).trans hp⟩, ?_⟩
    exact ih rest (List.nodup_cons.mp nodup).2
      (fun c hc => next c (List.mem_cons_of_mem _ hc))
      (fun c hc => prev c (List.mem_cons_of_mem _ hc))

/-! ### Rings -/

/-- The ring with head `h` holds exactly the cells `xs`, in this order. -/
structure Ring (m : Links A) (h : A) (xs : List A) : Prop where
  seg : Seg m h xs h
  nodup : (h :: xs).Nodup

theorem Ring.congr {m m' : Links A} {h : A} {xs : List A} (ring : Ring m h xs)
    (same : ∀ c ∈ h :: xs, m'.next c = m.next c ∧ m'.prev c = m.prev c) : Ring m' h xs := by
  refine ⟨ring.seg.congr (fun c hc => (same c hc).1) (fun c hc => (same c ?_).2), ring.nodup⟩
  simpa [or_comm] using hc

private theorem Seg.unique {m : Links A} {a h : A} {xs ys : List A} (left : Seg m a xs h)
    (right : Seg m a ys h) (hx : h ∉ xs) (hy : h ∉ ys) : xs = ys := by
  induction xs generalizing a ys with
  | nil =>
    cases ys with
    | nil => rfl
    | cons y ys => exact absurd (left.1.symm.trans right.1.1) (by simp_all)
  | cons x xs ih =>
    cases ys with
    | nil => exact absurd (right.1.symm.trans left.1.1) (by simp_all)
    | cons y ys =>
      obtain rfl : x = y := left.1.1.symm.trans right.1.1
      rw [ih left.2 right.2 (by simp_all) (by simp_all)]

/-- The links determine the content of a ring. -/
theorem Ring.unique {m : Links A} {h : A} {xs ys : List A} (left : Ring m h xs)
    (right : Ring m h ys) : xs = ys :=
  left.seg.unique right.seg (List.nodup_cons.mp left.nodup).1 (List.nodup_cons.mp right.nodup).1

theorem Ring.flip {m : Links A} {h : A} {xs : List A} (ring : Ring m h xs) :
    Ring m.flip h xs.reverse :=
  ⟨ring.seg.flip, by simpa using ring.nodup⟩

theorem Ring.prev_mem {m : Links A} {h : A} {xs : List A} (ring : Ring m h xs) {c : A}
    (hc : c ∈ h :: xs) : m.prev c ∈ h :: xs := by
  rcases List.mem_cons.mp hc with rfl | hc
  · exact ring.seg.prev_mem
  · obtain ⟨ys, zs, rfl⟩ := List.append_of_mem hc
    have left := ((seg_append ..).mp ring.seg).1.prev_mem
    simp only [List.mem_cons, List.mem_append] at left ⊢
    exact left.imp_right Or.inl

theorem Ring.next_mem {m : Links A} {h : A} {xs : List A} (ring : Ring m h xs) {c : A}
    (hc : c ∈ h :: xs) : m.next c ∈ h :: xs := by
  simpa using ring.flip.prev_mem (c := c) (by simpa using hc)

theorem ring_nil_iff (m : Links A) (h : A) :
    Ring m h [] ↔ m.next h = h ∧ m.prev h = h :=
  ⟨fun ring => ring.seg, fun links => ⟨links, by simp⟩⟩

theorem Ring.next_head {m : Links A} {h x : A} {xs : List A} (ring : Ring m h (x :: xs)) :
    m.next h = x := ring.seg.1.1

theorem Ring.prev_head {m : Links A} {h x : A} {xs : List A} (ring : Ring m h (xs ++ [x])) :
    m.prev h = x := ((seg_append ..).mp ring.seg).2.2

/-! ### Operations -/

variable [DecidableEq A]

def Links.setPrev (m : Links A) (a b : A) : Links A :=
  { m with prev := Function.update m.prev a b }

def Links.setNext (m : Links A) (a b : A) : Links A :=
  { m with next := Function.update m.next a b }

@[simp] theorem setPrev_prev (m : Links A) (a b c : A) :
    (m.setPrev a b).prev c = if c = a then b else m.prev c := by
  simp [Links.setPrev, Function.update_apply]

@[simp] theorem setPrev_next (m : Links A) (a b : A) : (m.setPrev a b).next = m.next := rfl

@[simp] theorem setNext_next (m : Links A) (a b c : A) :
    (m.setNext a b).next c = if c = a then b else m.next c := by
  simp [Links.setNext, Function.update_apply]

@[simp] theorem setNext_prev (m : Links A) (a b : A) : (m.setNext a b).prev = m.prev := rfl

def listInit (m : Links A) (list : A) : Links A :=
  (m.setNext list list).setPrev list list

def listInsertBefore (m : Links A) (list node : A) : Links A :=
  let m := m.setPrev node (m.prev list)
  let m := m.setNext node list
  let m := m.setNext (m.prev list) node
  m.setPrev list node

def listInsertAfter (m : Links A) (list node : A) : Links A :=
  let m := m.setNext node (m.next list)
  let m := m.setPrev node list
  let m := m.setPrev (m.next list) node
  m.setNext list node

def listDelete (m : Links A) (node : A) : Links A :=
  let m := m.setNext (m.prev node) (m.next node)
  m.setPrev (m.next node) (m.prev node)

def listEmpty (m : Links A) (list : A) : Bool :=
  m.next list == list || m.prev list == list

def listGetFirst (m : Links A) (list : A) : Option A × Links A :=
  if listEmpty m list then (none, m)
  else (some (m.next list), listDelete m (m.next list))

def listGetLast (m : Links A) (list : A) : Option A × Links A :=
  if listEmpty m list then (none, m)
  else (some (m.prev list), listDelete m (m.prev list))

/-- Move all cells of the ring `src` behind the last cell of the ring `dst`. -/
def listSplice (m : Links A) (dst src : A) : Links A :=
  let m := m.setPrev (m.next src) (m.prev dst)
  let m := m.setNext (m.prev dst) (m.next src)
  let m := m.setNext (m.prev src) dst
  m.setPrev dst (m.prev src)

/-! ### Initialisation and insertion -/

theorem ring_listInit (m : Links A) (h : A) : Ring (listInit m h) h [] := by
  simp [ring_nil_iff, listInit]

theorem Ring.frame_listInit {m : Links A} {h list : A} {xs : List A} (ring : Ring m h xs)
    (apart : list ∉ h :: xs) : Ring (listInit m list) h xs := by
  refine ring.congr fun c hc => ?_
  have ne : c ≠ list := fun eq => apart (eq ▸ hc)
  simp [listInit, ne]

theorem Ring.listInsertBefore {m : Links A} {h n : A} {xs : List A} (ring : Ring m h xs)
    (fresh : n ∉ h :: xs) : Ring (listInsertBefore m h n) h (xs ++ [n]) := by
  -- the new cell is none of those whose links are read
  have hn : h ≠ n := fun eq => fresh (by simp [eq])
  have pn : m.prev h ≠ n := fun eq => fresh (eq ▸ ring.seg.prev_mem)
  refine ⟨(seg_append ..).mpr ⟨ring.seg.retarget ring.nodup ?_ ?_ ?_ ?_, ?_, ?_⟩, ?_⟩
  · intro c hc ne
    have cn : c ≠ n := fun eq => fresh (eq ▸ hc)
    simp [LinkedRing.listInsertBefore, ne, cn, hn]
  · simp [LinkedRing.listInsertBefore, hn]
  · intro c hc
    have cn : c ≠ n := fun eq => fresh (eq ▸ List.mem_cons_of_mem _ hc)
    have ch : c ≠ h := fun eq => (List.nodup_cons.mp ring.nodup).1 (eq ▸ hc)
    simp [LinkedRing.listInsertBefore, ch, cn]
  · simp [LinkedRing.listInsertBefore, hn.symm]
  · simp [LinkedRing.listInsertBefore, hn, pn.symm]
  · simp [LinkedRing.listInsertBefore]
  · rw [← List.cons_append, List.nodup_append]
    refine ⟨ring.nodup, by simp, fun a ha b hb eq => fresh ?_⟩
    rw [← List.mem_singleton.mp hb, ← eq]
    exact ha

theorem listInsertAfter_eq (m : Links A) (h n : A) :
    listInsertAfter m h n = (LinkedRing.listInsertBefore m.flip h n).flip := rfl

theorem Ring.listInsertAfter {m : Links A} {h n : A} {xs : List A} (ring : Ring m h xs)
    (fresh : n ∉ h :: xs) : Ring (listInsertAfter m h n) h (n :: xs) := by
  have dual := (ring.flip.listInsertBefore (n := n) (by simpa using fresh)).flip
  simpa [listInsertAfter_eq] using dual

/-- What the links of a cell were before it is linked does not matter. -/
theorem listInsertAfter_relinked (m : Links A) {h n : A} (ne : h ≠ n) (a b : A) :
    LinkedRing.listInsertAfter ((m.setPrev n a).setNext n b) h n =
      LinkedRing.listInsertAfter m h n := by
  have prev : ∀ c, (LinkedRing.listInsertAfter ((m.setPrev n a).setNext n b) h n).prev c =
      (LinkedRing.listInsertAfter m h n).prev c := by
    intro c
    by_cases self : c = n <;> simp [LinkedRing.listInsertAfter, self, ne]
  have next : ∀ c, (LinkedRing.listInsertAfter ((m.setPrev n a).setNext n b) h n).next c =
      (LinkedRing.listInsertAfter m h n).next c := by
    intro c
    by_cases self : c = n <;> simp [LinkedRing.listInsertAfter, self, ne]
  exact congrArg₂ Links.mk (funext prev) (funext next)

theorem Ring.frame_listInsertBefore {m : Links A} {h n h' : A} {xs ys : List A}
    (ring : Ring m h xs) (fresh : n ∉ h' :: ys) (apart : (h :: xs).Disjoint (h' :: ys))
    (other : Ring m h' ys) : Ring (LinkedRing.listInsertBefore m h n) h' ys := by
  refine other.congr fun c hc => ?_
  have cn : c ≠ n := fun eq => fresh (eq ▸ hc)
  have ch : c ≠ h := fun eq => apart (List.mem_cons_self ..) (eq ▸ hc)
  have cp : c ≠ m.prev h := fun eq => apart ring.seg.prev_mem (eq ▸ hc)
  have hn : h = n ∨ h ≠ n := em _
  rcases hn with rfl | hn
  · simp [LinkedRing.listInsertBefore, cn, cp]
  · simp [LinkedRing.listInsertBefore, cn, ch, cp, hn]

theorem Ring.frame_listInsertAfter {m : Links A} {h n h' : A} {xs ys : List A}
    (ring : Ring m h xs) (fresh : n ∉ h' :: ys) (apart : (h :: xs).Disjoint (h' :: ys))
    (other : Ring m h' ys) : Ring (LinkedRing.listInsertAfter m h n) h' ys := by
  have fresh' : n ∉ h' :: ys.reverse := by simpa using fresh
  have apart' : (h :: xs.reverse).Disjoint (h' :: ys.reverse) := by
    intro c hc hc'
    exact apart (by simpa using hc) (by simpa using hc')
  simpa [listInsertAfter_eq] using
    (ring.flip.frame_listInsertBefore fresh' apart' other.flip).flip

/-! ### Deletion -/

theorem Ring.listDelete {m : Links A} {h n : A} {xs ys : List A}
    (ring : Ring m h (xs ++ n :: ys)) : Ring (listDelete m n) h (xs ++ ys) := by
  obtain ⟨left, right⟩ := (seg_append ..).mp ring.seg
  have nodup := ring.nodup
  rw [← List.cons_append, List.nodup_append] at nodup
  obtain ⟨nodupLeft, nodupRight, apart⟩ := nodup
  have pmem := left.prev_mem
  refine ⟨?_, ring.nodup.sublist (by simp)⟩
  cases ys with
  -- the last cell: its successor is the head
  | nil =>
    have hnext : m.next n = h := right.1
    rw [List.append_nil]
    refine left.retarget nodupLeft ?_ ?_ ?_ ?_
    · intro c hc ne; simp [LinkedRing.listDelete, ne]
    · simp [LinkedRing.listDelete, hnext]
    · intro c hc
      have ch : c ≠ h := fun eq => (List.nodup_cons.mp nodupLeft).1 (eq ▸ hc)
      have cn : n ≠ m.prev n := fun eq => apart _ pmem n (by simp) eq.symm
      simp [LinkedRing.listDelete, cn, hnext, ch]
    · have cn : n ≠ m.prev n := fun eq => apart _ pmem n (by simp) eq.symm
      simp [LinkedRing.listDelete, cn, hnext]
  | cons y ys =>
    have hnext : m.next n = y := right.1.1
    have cn : n ≠ m.prev n := fun eq => apart _ pmem n (by simp) eq.symm
    refine (seg_append ..).mpr ⟨left.retarget nodupLeft ?_ ?_ ?_ ?_, right.2.congr ?_ ?_⟩
    · intro c hc ne; simp [LinkedRing.listDelete, ne]
    · simp [LinkedRing.listDelete, hnext]
    · intro c hc
      have cy : c ≠ y := apart c (by simp [hc]) y (by simp)
      simp [LinkedRing.listDelete, cn, hnext, cy]
    · simp [LinkedRing.listDelete, cn, hnext]
    · intro c hc
      have cp : c ≠ m.prev n := fun eq => apart _ pmem c (List.mem_cons_of_mem _ hc) eq.symm
      simp [LinkedRing.listDelete, cp]
    · intro c hc
      have cy : c ≠ y := by
        rintro rfl
        have once := (List.nodup_cons.mp (List.nodup_cons.mp nodupRight).2).1
        rcases List.mem_append.mp hc with hc | hc
        · exact once hc
        · exact apart h (by simp) c (by simp) (List.mem_singleton.mp hc).symm
      simp [LinkedRing.listDelete, cn, hnext, cy]

theorem Ring.frame_listDelete {m : Links A} {h n h' : A} {xs ys : List A}
    (ring : Ring m h xs) (member : n ∈ h :: xs) (apart : (h :: xs).Disjoint (h' :: ys))
    (other : Ring m h' ys) : Ring (LinkedRing.listDelete m n) h' ys := by
  have nmem := ring.next_mem member
  have pmem := ring.prev_mem member
  refine other.congr fun c hc => ?_
  have cp : c ≠ m.prev n := fun eq => apart pmem (eq ▸ hc)
  have cn : c ≠ m.next n := fun eq => apart nmem (eq ▸ hc)
  refine ⟨by simp [LinkedRing.listDelete, cp], ?_⟩
  simp [LinkedRing.listDelete, cn]

/-! ### Taking the first or the last cell -/

theorem Ring.listEmpty_iff {m : Links A} {h : A} {xs : List A} (ring : Ring m h xs) :
    listEmpty m h = true ↔ xs = [] := by
  constructor
  · intro empty
    cases xs with
    | nil => rfl
    | cons x xs =>
      have nh : h ∉ x :: xs := (List.nodup_cons.mp ring.nodup).1
      have pmem : m.prev h ∈ x :: xs := ring.seg.2.prev_mem
      simp only [listEmpty, ring.next_head, Bool.or_eq_true, beq_iff_eq] at empty
      rcases empty with eq | eq
      · exact absurd (by simp [eq]) nh
      · exact absurd (eq ▸ pmem) nh
  · rintro rfl
    simp [listEmpty, ((ring_nil_iff m h).mp ring).1]

theorem Ring.listGetFirst_nil {m : Links A} {h : A} (ring : Ring m h []) :
    listGetFirst m h = (none, m) := by
  simp [listGetFirst, ring.listEmpty_iff]

theorem Ring.listGetFirst_cons {m : Links A} {h x : A} {xs : List A}
    (ring : Ring m h (x :: xs)) : listGetFirst m h = (some x, LinkedRing.listDelete m x) := by
  have full : ¬ listEmpty m h = true := by simp [ring.listEmpty_iff]
  simp [listGetFirst, full, ring.next_head]

theorem Ring.listGetLast_nil {m : Links A} {h : A} (ring : Ring m h []) :
    listGetLast m h = (none, m) := by
  simp [listGetLast, ring.listEmpty_iff]

theorem Ring.listGetLast_concat {m : Links A} {h x : A} {xs : List A}
    (ring : Ring m h (xs ++ [x])) : listGetLast m h = (some x, LinkedRing.listDelete m x) := by
  have full : ¬ listEmpty m h = true := by simp [ring.listEmpty_iff]
  simp [listGetLast, full, ring.prev_head]

/-! ### Splicing -/

theorem Ring.listSplice {m : Links A} {dst src x : A} {xs ys : List A}
    (into : Ring m dst xs) (ring : Ring m src (x :: ys))
    (apart : (dst :: xs).Disjoint (src :: x :: ys)) :
    Ring (listSplice m dst src) dst (xs ++ x :: ys) := by
  obtain ⟨⟨hn, -⟩, tail⟩ := ring.seg
  have hsrc := List.nodup_cons.mp ring.nodup
  have last := tail.prev_mem
  have lastNe : m.prev src ≠ m.prev dst := fun eq =>
    apart into.seg.prev_mem (eq ▸ List.mem_cons_of_mem _ last)
  have dx : dst ≠ x := fun eq => apart (List.mem_cons_self ..) (by simp [eq])
  have sp : src ≠ m.prev dst := fun eq => apart into.seg.prev_mem (by simp [← eq])
  have sx : src ≠ x := fun eq => hsrc.1 (by simp [eq])
  -- each segment keeps its cells and gets a new end
  refine ⟨(seg_append ..).mpr ⟨into.seg.retarget into.nodup ?_ ?_ ?_ ?_,
    tail.retarget hsrc.2 ?_ ?_ ?_ ?_⟩, ?_⟩
  · intro c hc ne
    have cs : c ≠ m.prev src := fun eq => apart hc (eq ▸ List.mem_cons_of_mem _ last)
    simp [LinkedRing.listSplice, hn, ne, sx, dx, cs]
  · simp [LinkedRing.listSplice, hn, dx, sx, lastNe.symm]
  · intro c hc
    have cd : c ≠ dst := fun eq => (List.nodup_cons.mp into.nodup).1 (eq ▸ hc)
    have cx : c ≠ x := fun eq => apart (List.mem_cons_of_mem _ hc) (by simp [eq])
    simp [LinkedRing.listSplice, hn, cd, cx]
  · simp [LinkedRing.listSplice, hn, dx.symm]
  · intro c hc ne
    have cp : c ≠ m.prev dst := fun eq => apart into.seg.prev_mem (eq ▸ List.mem_cons_of_mem _ hc)
    simp [LinkedRing.listSplice, hn, sx, dx, ne, cp]
  · simp [LinkedRing.listSplice, hn, sx]
  · intro c hc
    have cd : c ≠ dst := fun eq => apart (List.mem_cons_self ..) (by simp [← eq, hc])
    have cx : c ≠ x := fun eq => (List.nodup_cons.mp hsrc.2).1 (eq ▸ hc)
    simp [LinkedRing.listSplice, hn, cd, cx]
  · simp [LinkedRing.listSplice, hn, sx]
  · rw [← List.cons_append, List.nodup_append]
    exact ⟨into.nodup, hsrc.2, fun a ha b hb eq =>
      apart ha (eq ▸ List.mem_cons_of_mem _ hb)⟩

theorem Ring.frame_listSplice {m : Links A} {dst src x h' : A} {xs ys zs : List A}
    (into : Ring m dst xs) (ring : Ring m src (x :: ys))
    (apart : (dst :: xs).Disjoint (src :: x :: ys))
    (apart₁ : (dst :: xs).Disjoint (h' :: zs)) (apart₂ : (src :: x :: ys).Disjoint (h' :: zs))
    (other : Ring m h' zs) : Ring (LinkedRing.listSplice m dst src) h' zs := by
  have hn := ring.next_head
  refine other.congr fun c hc => ?_
  have c1 : c ≠ dst := fun eq => apart₁ (List.mem_cons_self ..) (eq ▸ hc)
  have c2 : c ≠ x := fun eq => apart₂ (by simp) (eq ▸ hc)
  have c3 : c ≠ m.prev dst := fun eq => apart₁ into.seg.prev_mem (eq ▸ hc)
  have c4 : c ≠ m.prev src := fun eq => apart₂ ring.seg.prev_mem (eq ▸ hc)
  have sx : src ≠ x := fun eq => (List.nodup_cons.mp ring.nodup).1 (by simp [eq])
  have dx : dst ≠ x := fun eq => apart (List.mem_cons_self ..) (by simp [eq])
  simp [LinkedRing.listSplice, hn, sx, dx, c1, c2, c3, c4]

end LinkedRing
