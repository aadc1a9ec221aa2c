import TBoxMpu.Gb32960.Store

/-!
# The home lists of the packs

A pack is filled before it comes to a list, and then has the realtime or the delay list for a
home, to which a put-back returns it. `KeepsHomes` says this of one operation of the lists; it
holds of each of them, whoever owns the nodes.
-/

namespace Gb32960

/-- The packs on the lists, the free ones apart, have the realtime or the delay list for a home. -/
def Homed (s : GbStore) : Prop :=
  ∀ n l, l ≠ .free → n ∈ s.lists l → GbHome (s.pack n).list

/-- A home is never lost, and a pack comes to the lists with one or from one of them. -/
structure KeepsHomes (s t : GbStore) : Prop where
  pack : ∀ n, GbHome (s.pack n).list → GbHome (t.pack n).list
  lists : ∀ n l, l ≠ .free → n ∈ t.lists l →
    GbHome (t.pack n).list ∨ ∃ k, k ≠ .free ∧ n ∈ s.lists k

theorem Homed.keeps {s t : GbStore} (homed : Homed s) (keeps : KeepsHomes s t) : Homed t := by
  intro n l listed mem
  rcases keeps.lists n l listed mem with home | ⟨k, listed, mem⟩
  · exact home
  · exact keeps.pack n (homed n k listed mem)

theorem KeepsHomes.of_pack {s t : GbStore} (pack : t.pack = s.pack)
    (lists : ∀ n l, l ≠ .free → n ∈ t.lists l →
      GbHome (t.pack n).list ∨ ∃ k, k ≠ .free ∧ n ∈ s.lists k) : KeepsHomes s t where
  pack n home := by
    rw [pack]
    exact home
  lists := lists

theorem KeepsHomes.trans {s t u : GbStore} (first : KeepsHomes s t) (second : KeepsHomes t u) :
    KeepsHomes s u where
  pack n home := second.pack n (first.pack n home)
  lists n l listed mem := by
    rcases second.lists n l listed mem with home | ⟨k, listed, mem⟩
    · exact .inl home
    · rcases first.lists n k listed mem with home | old
      · exact .inl (second.pack n home)
      · exact .inr old

/-- A buffer leaves its list. -/
theorem takeBuffer_mem {s t : GbStore} {n m : GbNode} {l : GbList}
    (taken : gbTakeBuffer s = some (n, t)) (mem : m ∈ t.lists l) : m ∈ s.lists l := by
  obtain ⟨k, ns, -, content, rfl⟩ := gbTakeBuffer_some taken
  rw [GbStore.setList_lists] at mem
  split at mem
  next same =>
    rw [same, content]
    exact List.mem_cons_of_mem n mem
  · exact mem

theorem takeBuffer_pack {s t : GbStore} {n : GbNode} (taken : gbTakeBuffer s = some (n, t)) :
    t.pack = s.pack := by
  obtain ⟨k, ns, -, -, rfl⟩ := gbTakeBuffer_some taken
  rfl

/-- A buffer is filled, and only then on a list it was not on before. -/
theorem keepsHomes_fill {s t u : GbStore} {n : GbNode} (rpt : GbPack)
    (taken : gbTakeBuffer s = some (n, t)) (home : GbHome rpt.list)
    (pack : ∀ m, u.pack m = if m = n then rpt else t.pack m)
    (lists : ∀ m l, m ∈ u.lists l → m = n ∨ m ∈ t.lists l) : KeepsHomes s u where
  pack m old := by
    rw [pack]
    split
    · exact home
    · rw [takeBuffer_pack taken]
      exact old
  lists m l listed mem := by
    rcases lists m l mem with same | old
    · left
      rw [pack, if_pos same]
      exact home
    · exact .inr ⟨l, listed, takeBuffer_mem taken old⟩

theorem keepsHomes_saveOne {s t : GbStore} {i : Nat} {data : List UInt8}
    (saved : gbSaveOne s i data = some t) : KeepsHomes s t := by
  obtain ⟨⟨n, u⟩, taken, rfl⟩ := Option.map_eq_some_iff.mp saved
  refine keepsHomes_fill ⟨data, i + 1, gbRpttypeRealtm, .realtm⟩ taken (.inl rfl) ?_ ?_
  · intro m
    simp
  · intro m l mem
    by_cases realtm : l = .realtm
    · subst realtm
      simpa [or_comm] using mem
    · simpa [realtm] using Or.inr (a := m = n) mem

theorem keepsHomes_flushErrorTake {s t : GbStore} {err : GbPack}
    (taken : gbFlushErrorTake s err = some t) : KeepsHomes s t := by
  obtain ⟨⟨n, u⟩, buffer, rfl⟩ := Option.map_eq_some_iff.mp taken
  refine keepsHomes_fill err.delayed buffer (.inr rfl) ?_ ?_
  · intro m
    simp
  · intro m l mem
    by_cases tmp : l = .tmplst
    · subst tmp
      simpa using mem
    · simpa [tmp] using Or.inr (a := m = n) mem

theorem keepsHomes_refl (s : GbStore) : KeepsHomes s s :=
  ⟨fun _ home => home, fun _ l listed mem => .inr ⟨l, listed, mem⟩⟩

theorem keepsHomes_saveFrom {s t : GbStore} (i : Nat) (groups : List (List UInt8))
    (saved : gbSaveFrom s i groups = some t) : KeepsHomes s t :=
  gbSaveFrom_kept keepsHomes_refl KeepsHomes.trans keepsHomes_saveOne saved

theorem keepsHomes_flushErrorEnd (s : GbStore) : KeepsHomes s (gbFlushErrorEnd s) := by
  apply KeepsHomes.of_pack
  · rfl
  · intro n l listed mem
    right
    cases l with
    | free => contradiction
    | realtm => exact ⟨.realtm, listed, by simpa [gbFlushErrorEnd] using mem⟩
    | trans => exact ⟨.trans, listed, by simpa [gbFlushErrorEnd] using mem⟩
    -- the temporary list is spliced away
    | tmplst => simp [gbFlushErrorEnd] at mem
    | delay =>
      -- and appended to the delay list
      have mem : n ∈ s.lists .delay ∨ n ∈ s.lists .tmplst := by
        simpa [gbFlushErrorEnd] using mem
      rcases mem with delay | tmp
      · exact ⟨.delay, nofun, delay⟩
      · exact ⟨.tmplst, nofun, tmp⟩

theorem keepsHomes_flushRealtm (s : GbStore) : KeepsHomes s (gbDataFlushRealtm s) where
  pack n home := by
    rw [gbDataFlushRealtm_pack]
    split
    · exact .inr rfl
    · exact home
  lists n l listed mem := by
    right
    rw [gbDataFlushRealtm_lists] at mem
    split at mem
    · cases mem
    · split at mem
      · rcases List.mem_append.mp mem with delay | realtm
        · exact ⟨.delay, nofun, delay⟩
        · exact ⟨.realtm, nofun, realtm⟩
      · exact ⟨l, listed, mem⟩

theorem keepsHomes_flushSending (s : GbStore) : KeepsHomes s (gbDataFlushSending s) := by
  apply KeepsHomes.of_pack (gbDataFlushSending_pack s)
  intro n l listed mem
  right
  rw [gbDataFlushSending_lists] at mem
  rcases List.mem_append.mp mem with back | old
  · exact ⟨.trans, nofun, (List.mem_filter.mp back).1⟩
  · split at old
    · cases old
    · exact ⟨l, listed, old⟩

theorem keepsHomes_clearReport (s : GbStore) : KeepsHomes s (gbDataClearReport s) := by
  apply KeepsHomes.of_pack (gbDataClearReport_pack s)
  intro n l listed mem
  rw [gbDataClearReport_lists, if_neg listed] at mem
  split at mem
  · exact .inr ⟨.tmplst, nofun, mem⟩
  · cases mem

theorem keepsHomes_ackPack (s : GbStore) : KeepsHomes s (gbDataAckPack s) := by
  rcases gbDataAckPack_cases s with ⟨-, same⟩ | ⟨n, ns, content, eq⟩
  · rw [same]
    exact keepsHomes_refl s
  · rw [eq]
    apply KeepsHomes.of_pack
    · rfl
    · intro m l listed mem
      right
      by_cases trans : l = .trans
      · subst trans
        have mem : m ∈ ns := by simpa using mem
        exact ⟨.trans, listed, content ▸ List.mem_cons_of_mem n mem⟩
      · exact ⟨l, listed, by simpa [trans, listed] using mem⟩

theorem keepsHomes_getPack {s t : GbStore} {n : GbNode} (got : gbDataGetPack s = some (n, t)) :
    KeepsHomes s t ∧ ∃ k, k ≠ .free ∧ n ∈ s.lists k := by
  -- the pack is the first of its list, whichever the reports allow
  have from' : ∃ k ns, k ≠ .free ∧ t = s.setList k ns ∧ n ∈ s.lists k ∧
      ∀ m ∈ ns, m ∈ s.lists k := by
    rcases gbDataGetPack_some got with ⟨ns, content, rfl⟩ | ⟨-, -, ns, content, rfl⟩ |
      ⟨-, -, ns, content, rfl⟩
    · exact ⟨.realtm, ns, nofun, rfl, by simp [content], fun m mem => by simp [content, mem]⟩
    · exact ⟨.delay, ns, nofun, rfl, by simp [content], fun m mem => by simp [content, mem]⟩
    · exact ⟨.delay, ns, nofun, rfl, by simp [content], fun m mem => by simp [content, mem]⟩
  obtain ⟨k, ns, notFree, rfl, here, rest⟩ := from'
  refine ⟨KeepsHomes.of_pack rfl ?_, k, notFree, here⟩
  intro m l listed mem
  right
  rw [GbStore.setList_lists] at mem
  split at mem
  next same => exact ⟨k, notFree, rest m mem⟩
  · exact ⟨l, listed, mem⟩

theorem keepsHomes_putBack {s : GbStore} {n : GbNode} (home : GbHome (s.pack n).list) :
    KeepsHomes s (gbDataPutBack s n) := by
  apply KeepsHomes.of_pack
  · rfl
  · intro m l listed mem
    unfold gbDataPutBack at mem ⊢
    rw [GbStore.insertAfter_lists] at mem
    split at mem
    next same =>
      rcases List.mem_cons.mp mem with rfl | old
      · exact .inl home
      · exact .inr ⟨l, listed, same ▸ old⟩
    · exact .inr ⟨l, listed, mem⟩

theorem keepsHomes_putSend {s : GbStore} {n : GbNode} (home : GbHome (s.pack n).list) :
    KeepsHomes s (gbDataPutSend s n) := by
  apply KeepsHomes.of_pack
  · rfl
  · intro m l listed mem
    unfold gbDataPutSend at mem ⊢
    rw [GbStore.insertBefore_lists] at mem
    split at mem
    next same =>
      rcases List.mem_append.mp mem with old | new
      · exact .inr ⟨l, listed, same ▸ old⟩
      · rw [List.mem_singleton.mp new]
        exact .inl home
    · exact .inr ⟨l, listed, mem⟩

end Gb32960
