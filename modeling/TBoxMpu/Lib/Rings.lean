import Mathlib.Data.List.Lattice
import TBoxMpu.Lib.LinkedRing

/-!
# Families of disjoint rings

Several list heads share one pool of cells. `Rings m live L` says that every live head
`i` is the head of a ring holding the nodes `L i`, and that no node is on two of them.
Each operation on the links is one update of `L`; the frame over all other heads is
proved once here.
-/

namespace LinkedRing

variable {I N : Type}

/-- The live heads carry pairwise disjoint rings with the contents `L`. -/
structure Rings (m : Links (I ⊕ N)) (live : I → Prop) (L : I → List N) : Prop where
  ring : ∀ i, live i → Ring m (.inl i) ((L i).map .inr)
  disjoint : ∀ i j, live i → live j → i ≠ j → (L i).Disjoint (L j)

theorem Rings.nodup {m : Links (I ⊕ N)} {live : I → Prop} {L : I → List N}
    (rings : Rings m live L) {i : I} (hi : live i) : (L i).Nodup :=
  ((List.nodup_cons.mp (rings.ring i hi).nodup).2).of_map _

/-- A node that is on no live list. -/
def Fresh (live : I → Prop) (L : I → List N) (n : N) : Prop :=
  ∀ i, live i → n ∉ L i

private theorem cells_disjoint {m : Links (I ⊕ N)} {live : I → Prop} {L : I → List N}
    (rings : Rings m live L) {i j : I} (hi : live i) (hj : live j) (ne : i ≠ j) :
    (Sum.inl i :: (L i).map Sum.inr).Disjoint (Sum.inl j :: (L j).map (Sum.inr (α := I))) := by
  intro c hc hc'
  cases c with
  | inl k => simp_all
  | inr n =>
    exact rings.disjoint i j hi hj ne (by simpa using hc) (by simpa using hc')

theorem not_mem_cells {L : I → List N} {i : I} {n : N} (h : n ∉ L i) :
    Sum.inr n ∉ Sum.inl i :: (L i).map (Sum.inr (α := I)) := by
  simpa using h

variable [DecidableEq I] [DecidableEq N]

omit [DecidableEq N] in
/-- The shape every operation on one head has: its own ring changes as stated, the other
rings stay, and the new content brings in no node of another list. -/
theorem Rings.update {m m' : Links (I ⊕ N)} {live : I → Prop} {L : I → List N}
    (rings : Rings m live L) {i : I} {xs : List N}
    (self : Ring m' (.inl i) (xs.map .inr))
    (frame : ∀ j, live j → j ≠ i → Ring m' (.inl j) ((L j).map .inr))
    (apart : ∀ j, live j → j ≠ i → xs.Disjoint (L j)) :
    Rings m' live (Function.update L i xs) := by
  constructor
  · intro j hj
    by_cases same : j = i
    · subst same; simpa using self
    · simpa [same] using frame j hj same
  · intro j k hj hk ne
    by_cases hji : j = i
    · subst hji
      simpa [Function.update_of_ne ne.symm] using apart k hk ne.symm
    · by_cases hki : k = i
      · subst hki
        simpa [Function.update_of_ne hji] using (apart j hj hji).symm
      · simpa [hji, hki] using rings.disjoint j k hj hk ne

theorem Rings.listInsertBefore {m : Links (I ⊕ N)} {live : I → Prop} {L : I → List N}
    (rings : Rings m live L) {i : I} (hi : live i) {n : N} (fresh : Fresh live L n) :
    Rings (listInsertBefore m (.inl i) (.inr n)) live (Function.update L i (L i ++ [n])) := by
  refine rings.update ?_ ?_ ?_
  · simpa using (rings.ring i hi).listInsertBefore (not_mem_cells (fresh i hi))
  · intro j hj ne
    exact (rings.ring i hi).frame_listInsertBefore (not_mem_cells (fresh j hj))
      (cells_disjoint rings hi hj ne.symm) (rings.ring j hj)
  · intro j hj ne
    have old := rings.disjoint i j hi hj ne.symm
    simpa [old] using fresh j hj

theorem Rings.listInsertAfter {m : Links (I ⊕ N)} {live : I → Prop} {L : I → List N}
    (rings : Rings m live L) {i : I} (hi : live i) {n : N} (fresh : Fresh live L n) :
    Rings (listInsertAfter m (.inl i) (.inr n)) live (Function.update L i (n :: L i)) := by
  refine rings.update ?_ ?_ ?_
  · simpa using (rings.ring i hi).listInsertAfter (not_mem_cells (fresh i hi))
  · intro j hj ne
    exact (rings.ring i hi).frame_listInsertAfter (not_mem_cells (fresh j hj))
      (cells_disjoint rings hi hj ne.symm) (rings.ring j hj)
  · intro j hj ne
    have old := rings.disjoint i j hi hj ne.symm
    simpa [old] using fresh j hj

theorem Rings.listDelete {m : Links (I ⊕ N)} {live : I → Prop} {L : I → List N}
    (rings : Rings m live L) {i : I} (hi : live i) (xs ys : List N) {n : N}
    (content : L i = xs ++ n :: ys) :
    Rings (listDelete m (.inr n)) live (Function.update L i (xs ++ ys)) := by
  have ring := rings.ring i hi
  refine rings.update ?_ ?_ ?_
  · have parts : Ring m (.inl i) (xs.map Sum.inr ++ Sum.inr n :: ys.map Sum.inr) := by
      simpa [content] using ring
    simpa using parts.listDelete
  · intro j hj ne
    exact ring.frame_listDelete (by simp [content]) (cells_disjoint rings hi hj ne.symm)
      (rings.ring j hj)
  · intro j hj ne
    have old := rings.disjoint i j hi hj ne.symm
    rw [content] at old
    intro c hc
    exact old (by simp only [List.mem_append, List.mem_cons] at hc ⊢; tauto)

omit [DecidableEq N] in
/-- A node taken off its list is on no list any more. -/
theorem Rings.fresh {m : Links (I ⊕ N)} {live : I → Prop} {L : I → List N}
    (rings : Rings m live L) {i : I} (hi : live i) (xs ys : List N) {n : N}
    (content : L i = xs ++ n :: ys) : Fresh live (Function.update L i (xs ++ ys)) n := by
  intro j hj
  by_cases same : j = i
  · subst same
    have nodup := rings.nodup hi
    rw [content] at nodup
    simpa using (List.nodup_middle.mp nodup).notMem
  · rw [Function.update_of_ne same]
    exact rings.disjoint i j hi hj (Ne.symm same) (by simp [content])

/-- Taking the first node; `none` exactly when the list is empty. -/
theorem Rings.listGetFirst {m : Links (I ⊕ N)} {live : I → Prop} {L : I → List N}
    (rings : Rings m live L) {i : I} (hi : live i) :
    (L i = [] ∧ listGetFirst m (.inl i) = (none, m)) ∨
    ∃ n xs m', L i = n :: xs ∧ listGetFirst m (.inl i) = (some (.inr n), m') ∧
      Rings m' live (Function.update L i xs) ∧ Fresh live (Function.update L i xs) n := by
  have ring := rings.ring i hi
  cases content : L i with
  | nil =>
    rw [content] at ring
    exact .inl ⟨rfl, ring.listGetFirst_nil⟩
  | cons n xs =>
    rw [content] at ring
    exact .inr ⟨n, xs, _, rfl, ring.listGetFirst_cons,
      rings.listDelete hi [] xs content, rings.fresh hi [] xs content⟩

/-- Taking the last node; `none` exactly when the list is empty. -/
theorem Rings.listGetLast {m : Links (I ⊕ N)} {live : I → Prop} {L : I → List N}
    (rings : Rings m live L) {i : I} (hi : live i) :
    (L i = [] ∧ listGetLast m (.inl i) = (none, m)) ∨
    ∃ n xs m', L i = xs ++ [n] ∧ listGetLast m (.inl i) = (some (.inr n), m') ∧
      Rings m' live (Function.update L i xs) ∧ Fresh live (Function.update L i xs) n := by
  have ring := rings.ring i hi
  rcases List.eq_nil_or_concat (L i) with content | ⟨xs, n, content⟩
  · rw [content] at ring
    exact .inl ⟨content, ring.listGetLast_nil⟩
  · rw [List.concat_eq_append] at content
    rw [content, List.map_append] at ring
    refine .inr ⟨n, xs, _, content, ring.listGetLast_concat, ?_, ?_⟩
    · simpa using rings.listDelete hi xs [] content
    · simpa using rings.fresh hi xs [] content

theorem Rings.listEmpty_iff {m : Links (I ⊕ N)} {live : I → Prop} {L : I → List N}
    (rings : Rings m live L) {i : I} (hi : live i) :
    listEmpty m (.inl i) = true ↔ L i = [] := by
  simpa using (rings.ring i hi).listEmpty_iff

/-- Initialising a head, live before or not, empties its list and touches no other. -/
theorem Rings.listInit {m : Links (I ⊕ N)} {live : I → Prop} {L : I → List N}
    (rings : Rings m live L) (live' : I → Prop) {i : I} (grow : ∀ j, live' j → j ≠ i → live j) :
    Rings (listInit m (.inl i)) live' (Function.update L i []) := by
  constructor
  · intro j hj
    by_cases same : j = i
    · subst same; simpa using ring_listInit m (Sum.inl j)
    · simpa [same] using (rings.ring j (grow j hj same)).frame_listInit (by simp [Ne.symm same])
  · intro j k hj hk ne
    by_cases hji : j = i
    · simp [hji]
    · by_cases hki : k = i
      · simp [hki]
      · simpa [hji, hki] using rings.disjoint j k (grow j hj hji) (grow k hk hki) ne

/-- Splicing the list of `j` behind the one of `i`; the head `j` is dead afterwards. -/
theorem Rings.listSplice {m : Links (I ⊕ N)} {live live' : I → Prop} {L : I → List N}
    (rings : Rings m live L) {i j : I} (hi : live i) (hj : live j) (ne : i ≠ j)
    (full : L j ≠ []) (shrink : ∀ k, live' k → live k ∧ k ≠ j) :
    Rings (listSplice m (.inl i) (.inl j)) live'
      (Function.update (Function.update L i (L i ++ L j)) j []) := by
  obtain ⟨n, ns, content⟩ := List.exists_cons_of_ne_nil full
  have from' : Ring m (.inl j) (.inr n :: ns.map .inr) := by simpa [content] using rings.ring j hj
  have apart : (Sum.inl i :: (L i).map Sum.inr).Disjoint
      (Sum.inl j :: Sum.inr n :: ns.map (Sum.inr (α := I))) := by
    simpa [content] using cells_disjoint rings hi hj ne
  have spliced : Rings (LinkedRing.listSplice m (.inl i) (.inl j)) live'
      (Function.update L i (L i ++ L j)) := by
    refine Rings.update (m := m) ⟨fun k hk => rings.ring k (shrink k hk).1,
      fun k l hk hl => rings.disjoint k l (shrink k hk).1 (shrink l hl).1⟩ ?_ ?_ ?_
    · simpa [content] using (rings.ring i hi).listSplice from' apart
    · intro k hk hki
      obtain ⟨hk, hkj⟩ := shrink k hk
      refine (rings.ring i hi).frame_listSplice from' apart
        (cells_disjoint rings hi hk hki.symm) ?_ (rings.ring k hk)
      simpa [content] using cells_disjoint rings hj hk hkj.symm
    · intro k hk hki
      obtain ⟨hk, hkj⟩ := shrink k hk
      rw [List.disjoint_append_left]
      exact ⟨rings.disjoint i k hi hk hki.symm, rings.disjoint j k hj hk hkj.symm⟩
  constructor
  · intro k hk
    rw [Function.update_of_ne (shrink k hk).2]
    exact spliced.ring k hk
  · intro k l hk hl hkl
    rw [Function.update_of_ne (shrink k hk).2, Function.update_of_ne (shrink l hl).2]
    exact spliced.disjoint k l hk hl hkl

end LinkedRing
