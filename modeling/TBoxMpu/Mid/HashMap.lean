import Mathlib.Data.Finmap
import TBoxMpu.Lib.Runs
import TBoxMpu.Mid.Hashtable

/-!
# The hash table as a finite map

`finite_map`: in every run whose operations all meet `Sound`, the table is the finite map that
the same operations give, the count is that of its keys, the chains end, and every operation
that meets it returns what the map answers.
-/

namespace Hash

open Chains Runs

/-! ### Runs -/

inductive HashOp
  | insert (k v : UInt32)
  | search (k : UInt32)
  | remove (k : UInt32)
  deriving DecidableEq, Repr

/-- An operation with its return value, what it writes to `v`, and the table after it. -/
def hashOp (fuel : Nat) (h : HashTable) : HashOp → Option ((Int × Option UInt32) × HashTable)
  | .insert k v => (hashtableInsert fuel h k v).map fun r => ((r.1, none), r.2)
  | .search k => (hashtableSearch fuel h k).map fun r => (r, h)
  | .remove k => hashtableRemove fuel h k

abbrev KeyMap := Finmap fun _ : UInt32 => UInt32

/-- The same operation on a finite map; one that reports an error changes nothing. -/
def mapOp (m : KeyMap) (ret : Int) : HashOp → KeyMap
  | .insert k v => if ret = 0 then m.insert k v else m
  | .search _ => m
  | .remove k => if ret = 0 then m.erase k else m

/-- The answer for a key that has this value in the map, or none. -/
def answerOf (value : Option UInt32) : Int × Option UInt32 :=
  match value with
  | some v => (0, some v)
  | none => (-1, none)

/-- What a finite map answers; a key is not inserted twice. -/
def Answers (m : KeyMap) (res : Int × Option UInt32) : HashOp → Prop
  | .insert k _ => res.1 = 0 → k ∉ m
  | .search k | .remove k => res = answerOf (m.lookup k)

/-- The table, and the map that the operations so far give. -/
structure HashRun where
  h : HashTable
  m : KeyMap

def hashStep (s : HashRun) (op : HashOp) (s' : HashRun) : Prop :=
  ∃ fuel res h, hashOp fuel s.h op = some (res, h) ∧ s' = ⟨h, mapOp s.m res.1 op⟩

def Initialised (s : HashRun) : Prop :=
  ∃ limit size, hashtableInit limit size = some s.h ∧ s.m = ∅

/-! ### What the operations rely on -/

/-- An entry marked free that holds the key is behind a used one that does. -/
def NotStale (h : HashTable) (k : UInt32) : Prop :=
  ∃ b, h.bucket k = some b ∧
    ∀ i, Leads h.next b i → h.Holds k i → (h.table i).used = false →
      ∃ j, Leads h.next b j ∧ h.Holds k j ∧ (h.table j).used ∧ Leads h.next j i

/-- An insertion is refused at once, or the key is new, its bucket is free or the chain behind it
holds the key nowhere before its last entry, and an entry is free whose own links do not come
to that last one. -/
def Insertable (h : HashTable) (k : UInt32) : Prop :=
  h.entrycount + 1 > h.loadlimit ∨
  ∃ b, h.bucket k = some b ∧ (∀ i, (h.table i).used → (h.table i).k ≠ k) ∧
    ((h.table b).used = false ∨
      (∀ i, Leads h.next b i → h.next i ≠ none → (h.table i).k ≠ k) ∧
      ∃ i, freeEntry h = some i ∧ ∀ e, Leads h.next b e → h.next e = none → ¬ Leads h.next i e)

def Sound (h : HashTable) : HashOp → Prop
  | .insert k _ => Insertable h k
  | .search k | .remove k => NotStale h k

/-- The table after its init function and operations that each met their condition. -/
def HashReach : HashRun → Prop :=
  Reach Initialised (Guarded (fun s op => Sound s.h op) hashStep)

/-! ### The table holds the map -/

/-- The used entries are the keys of the map, each on the chain of its bucket, and the chains
end. -/
structure Keeps (h : HashTable) (m : KeyMap) : Prop where
  ends : ∀ i, Ends h.next i
  inside : ∀ i, (h.table i).used → i < h.tablelength.toNat
  hashed : ∀ i, (h.table i).used → (h.table i).h = hash (h.table i).k
  value : ∀ i, (h.table i).used → m.lookup (h.table i).k = some (h.table i).v
  chained : ∀ i, (h.table i).used →
    ∃ b, h.bucket (h.table i).k = some b ∧ Leads h.next b i
  unique : ∀ i j, (h.table i).used → (h.table j).used → (h.table i).k = (h.table j).k → i = j
  kept : ∀ k ∈ m, ∃ i, (h.table i).used ∧ (h.table i).k = k

section Keeps

variable {h : HashTable} {m : KeyMap} {k v : UInt32}

theorem fill_next (i : Nat) : (h.fill i k v).next = h.next := by
  funext j
  by_cases same : j = i
  · subst same
    simp [HashTable.next, HashTable.fill]
  · simp [HashTable.next, HashTable.fill, Function.update_of_ne same]

theorem free_next (i : Nat) : (h.free i).next = h.next := by
  funext j
  by_cases same : j = i
  · subst same
    simp [HashTable.next, HashTable.free]
  · simp [HashTable.next, HashTable.free, Function.update_of_ne same]

theorem link_next (e i : Nat) : (h.link e i).next = Function.update h.next e (some i) := by
  funext j
  by_cases same : j = e
  · subst same
    simp [HashTable.next, HashTable.link]
  · simp [HashTable.next, HashTable.link, Function.update_of_ne same]

/-- What an entry holds is the same after a link was set. -/
theorem link_entry (e i j : Nat) :
    ((h.link e i).table j).used = (h.table j).used ∧ ((h.link e i).table j).k = (h.table j).k ∧
    ((h.link e i).table j).h = (h.table j).h ∧ ((h.link e i).table j).v = (h.table j).v := by
  by_cases same : j = e
  · subst same
    simp [HashTable.link]
  · simp [HashTable.link, Function.update_of_ne same]

theorem Keeps.link (keeps : Keeps h m) {e i : Nat} (last : h.next e = none)
    (apart : ¬ Leads h.next i e) : Keeps (h.link e i) m := by
  have same := fun j => link_entry (h := h) e i j
  constructor
  · intro j
    rw [link_next]
    exact (keeps.ends j).update (keeps.ends i) apart
  · intro j used
    rw [(same j).1] at used
    exact keeps.inside j used
  · intro j used
    obtain ⟨sameUsed, sameK, sameH, -⟩ := same j
    rw [sameUsed] at used
    rw [sameK, sameH]
    exact keeps.hashed j used
  · intro j used
    obtain ⟨sameUsed, sameK, -, sameV⟩ := same j
    rw [sameUsed] at used
    rw [sameK, sameV]
    exact keeps.value j used
  · intro j used
    obtain ⟨sameUsed, sameK, -, -⟩ := same j
    rw [sameUsed] at used
    obtain ⟨b, bucket, leads⟩ := keeps.chained j used
    refine ⟨b, ?_, ?_⟩
    · rw [sameK]
      exact bucket
    · rw [link_next]
      exact leads.update last
  · intro j j' used used' equal
    rw [(same j).1] at used
    rw [(same j').1] at used'
    rw [(same j).2.1, (same j').2.1] at equal
    exact keeps.unique j j' used used' equal
  · intro k mem
    obtain ⟨j, used, key⟩ := keeps.kept k mem
    refine ⟨j, ?_, ?_⟩
    · rw [(same j).1]
      exact used
    · rw [(same j).2.1]
      exact key

/-- A new key in an entry of its chain that was free. -/
theorem Keeps.fill (keeps : Keeps h m) {b i : Nat} (bucket : h.bucket k = some b)
    (leads : Leads h.next b i) (inside : i < h.tablelength.toNat)
    (unused : (h.table i).used = false) (new : ∀ j, (h.table j).used → (h.table j).k ≠ k) :
    Keeps (h.fill i k v) (m.insert k v) := by
  have self : (h.fill i k v).table i = ⟨hash k, k, v, true, h.next i⟩ := by
    simp [HashTable.fill, HashTable.next]
  have others : ∀ j, j ≠ i → (h.fill i k v).table j = h.table j := by
    intro j ne
    exact Function.update_of_ne ne _ _
  constructor
  · intro j
    rw [fill_next]
    exact keeps.ends j
  · intro j used
    by_cases same : j = i
    · exact same ▸ inside
    · rw [others j same] at used
      exact keeps.inside j used
  · intro j used
    by_cases same : j = i
    · rw [same, self]
    · rw [others j same] at used ⊢
      exact keeps.hashed j used
  · intro j used
    by_cases same : j = i
    · rw [same, self]
      exact Finmap.lookup_insert m
    · rw [others j same] at used ⊢
      rw [Finmap.lookup_insert_of_ne m (new j used)]
      exact keeps.value j used
  · intro j used
    rw [fill_next]
    by_cases same : j = i
    · rw [same, self]
      exact ⟨b, bucket, leads⟩
    · rw [others j same] at used ⊢
      exact keeps.chained j used
  · -- two nodes with the new key: one of them would be an old one
    intro j j' used used' equal
    by_cases same : j = i
    · by_cases same' : j' = i
      · rw [same, same']
      · rw [same, self, others j' same'] at equal
        rw [others j' same'] at used'
        exact absurd equal.symm (new j' used')
    · rw [others j same] at used equal
      by_cases same' : j' = i
      · rw [same', self] at equal
        exact absurd equal (new j used)
      · rw [others j' same'] at used' equal
        exact keeps.unique j j' used used' equal
  · -- the entry of an old key was in use, so it is not the one that is filled
    intro k' mem
    rcases Finmap.mem_insert.mp mem with rfl | old
    · exact ⟨i, by rw [self], by rw [self]⟩
    · obtain ⟨j, used, key⟩ := keeps.kept k' old
      have ne : j ≠ i := by
        rintro rfl
        rw [unused] at used
        cases used
      exact ⟨j, by rw [others j ne]; exact used, by rw [others j ne]; exact key⟩

/-- A used entry marked free takes its key out of the map. -/
theorem Keeps.free (keeps : Keeps h m) {i : Nat} (used : (h.table i).used)
    (key : (h.table i).k = k) : Keeps (h.free i) (m.erase k) := by
  have self : ((h.free i).table i).used = false := by simp [HashTable.free]
  have others : ∀ j, j ≠ i → (h.free i).table j = h.table j := by
    intro j ne
    exact Function.update_of_ne ne _ _
  have ne_of_used : ∀ j, ((h.free i).table j).used → j ≠ i := by
    rintro j used rfl
    rw [self] at used
    cases used
  constructor
  · intro j
    rw [free_next]
    exact keeps.ends j
  · intro j usedJ
    rw [others j (ne_of_used j usedJ)] at usedJ
    exact keeps.inside j usedJ
  · intro j usedJ
    have ne := ne_of_used j usedJ
    rw [others j ne] at usedJ ⊢
    exact keeps.hashed j usedJ
  · intro j usedJ
    have ne := ne_of_used j usedJ
    rw [others j ne] at usedJ ⊢
    have other : (h.table j).k ≠ k := by
      rintro same
      exact ne (keeps.unique j i usedJ used (same.trans key.symm))
    rw [Finmap.lookup_erase_ne other]
    exact keeps.value j usedJ
  · intro j usedJ
    have ne := ne_of_used j usedJ
    rw [free_next]
    rw [others j ne] at usedJ ⊢
    exact keeps.chained j usedJ
  · intro j j' usedJ usedJ' equal
    have ne := ne_of_used j usedJ
    have ne' := ne_of_used j' usedJ'
    rw [others j ne] at usedJ equal
    rw [others j' ne'] at usedJ' equal
    exact keeps.unique j j' usedJ usedJ' equal
  · intro k' mem
    obtain ⟨ne, mem⟩ := Finmap.mem_erase.mp mem
    obtain ⟨j, usedJ, keyJ⟩ := keeps.kept k' mem
    have other : j ≠ i := by
      rintro rfl
      exact ne (keyJ.symm.trans key)
    exact ⟨j, by rw [others j other]; exact usedJ, by rw [others j other]; exact keyJ⟩

/-- There are no more keys than entries. -/
theorem Keeps.card_le (keeps : Keeps h m) : m.keys.card ≤ h.tablelength.toNat := by
  have covered : m.keys ⊆ (Finset.range h.tablelength.toNat).image fun i => (h.table i).k := by
    intro k mem
    obtain ⟨i, used, key⟩ := keeps.kept k (Finmap.mem_keys.mp mem)
    exact Finset.mem_image.mpr ⟨i, Finset.mem_range.mpr (keeps.inside i used), key⟩
  calc m.keys.card
      ≤ ((Finset.range h.tablelength.toNat).image fun i => (h.table i).k).card :=
        Finset.card_le_card covered
    _ ≤ (Finset.range h.tablelength.toNat).card := Finset.card_image_le
    _ = h.tablelength.toNat := Finset.card_range _

/-- A search that meets no stale entry finds the entry of the key, or the map has none. -/
theorem Keeps.find (keeps : Keeps h m) {b fuel : Nat} {r : Option Nat}
    (bucket : h.bucket k = some b)
    (notStale : ∀ i, Leads h.next b i → h.Holds k i → (h.table i).used = false →
      ∃ j, Leads h.next b j ∧ h.Holds k j ∧ (h.table j).used ∧ Leads h.next j i)
    (found : find h k fuel (some b) = some r) :
    m.lookup k = r.map (fun e => (h.table e).v) ∧
    ∀ e, r = some e → (h.table e).used ∧ (h.table e).k = k := by
  cases r with
  | none =>
    refine ⟨?_, nofun⟩
    rw [Option.map_none, Finmap.lookup_eq_none]
    intro mem
    obtain ⟨i, used, key⟩ := keeps.kept k mem
    obtain ⟨b', bucket', leads⟩ := keeps.chained i used
    rw [key, bucket] at bucket'
    cases bucket'
    have holds : h.Holds k i := ⟨by rw [keeps.hashed i used, key], key.symm⟩
    exact find_none found leads holds
  | some e =>
    obtain ⟨leads, holds, first⟩ := find_first found
    have used : (h.table e).used = true := by
      by_contra unused
      obtain ⟨j, way, holdsJ, usedJ, back⟩ := notStale e leads holds (by simpa using unused)
      -- the used one before it is the one found, on a chain that ends
      have same := (first j way holdsJ).antisymm (keeps.ends e) back
      rw [same] at unused
      exact unused usedJ
    have key := holds.2.symm
    constructor
    · have value := keeps.value e used
      rw [key] at value
      exact value
    · rintro e' same
      cases same
      exact ⟨used, key⟩

end Keeps

/-! ### One operation -/

/-- The table keeps the map, and the count is that of its keys. -/
structure HashInv (h : HashTable) (m : KeyMap) : Prop where
  keeps : Keeps h m
  count : h.entrycount.toNat = m.keys.card
  size : h.tablelength.toNat ≤ 2 ^ 30

section Operations

variable {h : HashTable} {m : KeyMap} {k v : UInt32} {fuel : Nat}

theorem Keeps.counted (keeps : Keeps h m) (count : UInt32) :
    Keeps { h with entrycount := count } m :=
  ⟨keeps.ends, keeps.inside, keeps.hashed, keeps.value, keeps.chained, keeps.unique, keeps.kept⟩

theorem HashInv.count_succ (inv : HashInv h m) :
    (h.entrycount + 1).toNat = m.keys.card + 1 := by
  have bound := inv.keeps.card_le
  have size := inv.size
  have count := inv.count
  rw [UInt32.toNat_add]
  change (h.entrycount.toNat + 1) % 2 ^ 32 = _
  omega

theorem keys_insert_card (new : k ∉ m) : (m.insert k v).keys.card = m.keys.card + 1 := by
  have keys : (m.insert k v).keys = Insert.insert k m.keys := by
    ext k'
    rw [Finmap.mem_keys, Finmap.mem_insert, Finset.mem_insert, Finmap.mem_keys]
  rw [keys, Finset.card_insert_of_notMem (mt Finmap.mem_keys.mp new)]

theorem HashInv.notMem (inv : HashInv h m) (new : ∀ i, (h.table i).used → (h.table i).k ≠ k) :
    k ∉ m := by
  intro mem
  obtain ⟨i, used, key⟩ := inv.keeps.kept k mem
  exact new i used key

/-- An insertion under its condition is refused, or adds a key that was not there. -/
theorem HashInv.insert (inv : HashInv h m) (sound : Insertable h k) {r : Int × HashTable}
    (done : hashtableInsert fuel h k v = some r) :
    (r.1 = -1 ∧ r.2 = h) ∨ (r.1 = 0 ∧ k ∉ m ∧ HashInv r.2 (m.insert k v)) := by
  unfold hashtableInsert at done
  split at done
  · cases done
    exact .inl ⟨rfl, rfl⟩
  next notFull =>
    obtain ⟨b, bucket, new, place⟩ := sound.resolve_left notFull
    have notMem := inv.notMem new
    have counted := inv.keeps.counted (h.entrycount + 1)
    dsimp only at done
    obtain ⟨b', bucket', done⟩ := Option.bind_eq_some_iff.mp done
    obtain rfl : b = b' := Option.some.inj (bucket.symm.trans bucket')
    right
    split at done
    next headUsed =>
      obtain ⟨w, walked, rfl⟩ := Option.map_eq_some_iff.mp done
      obtain ⟨before, i, free, apart⟩ := place.resolve_left (by simpa using headUsed)
      cases w with
      | duplicate =>
        obtain ⟨j, leads, more, same⟩ := walk_duplicate walked
        exact absurd same (before j leads more)
      | last e =>
        obtain ⟨leads, last⟩ := walk_last walked
        obtain ⟨unused, inside⟩ := freeEntry_some free
        have taken : freeEntry { h with entrycount := h.entrycount + 1 } = some i := free
        unfold chainInsert
        rw [taken]
        -- the chain is linked first, and then the new last entry filled
        have linked := counted.link last (apart e leads last)
        have same := fun j =>
          link_entry (h := { h with entrycount := h.entrycount + 1 }) e i j
        refine ⟨rfl, notMem, ?_, ?_, inv.size⟩
        · apply linked.fill bucket
          · rw [link_next]
            exact leads.linked i last
          · exact inside
          · rw [(same i).1]
            exact unused
          · intro j used
            rw [(same j).1] at used
            rw [(same j).2.1]
            exact new j used
        · rw [keys_insert_card notMem]
          exact inv.count_succ
    next headUnused =>
      cases done
      refine ⟨rfl, notMem, ?_, ?_, inv.size⟩
      · exact counted.fill bucket (Leads.refl b) (bucket_lt bucket) (by simpa using headUnused) new
      · rw [keys_insert_card notMem]
        exact inv.count_succ

theorem HashInv.insert_returns (inv : HashInv h m) (sound : Insertable h k) (v : UInt32) :
    ∃ fuel, (hashtableInsert fuel h k v).isSome := by
  by_cases full : h.entrycount + 1 > h.loadlimit
  · refine ⟨0, ?_⟩
    unfold hashtableInsert
    rw [if_pos full]
    rfl
  · obtain ⟨b, bucket, -, -⟩ := sound.resolve_left full
    have same : HashTable.bucket { h with entrycount := h.entrycount + 1 } k = some b := bucket
    obtain ⟨fuel, w, walked⟩ := walk_returns (k := k)
      ((inv.keeps.counted (h.entrycount + 1)).ends b)
    refine ⟨fuel, ?_⟩
    unfold hashtableInsert
    rw [if_neg full]
    dsimp only
    rw [same, Option.bind_some, walked]
    split
    · rfl
    · rfl

/-- The search of an operation under its condition returns, and finds what the map has. -/
theorem HashInv.search (inv : HashInv h m) (sound : NotStale h k) :
    ∃ b, h.bucket k = some b ∧ (∃ fuel r, find h k fuel (some b) = some r) ∧
    ∀ fuel r, find h k fuel (some b) = some r →
      m.lookup k = r.map (fun e => (h.table e).v) ∧
      ∀ e, r = some e → (h.table e).used ∧ (h.table e).k = k := by
  obtain ⟨b, bucket, notStale⟩ := sound
  exact ⟨b, bucket, find_returns (inv.keeps.ends b),
    fun _ _ => inv.keeps.find bucket notStale⟩

theorem HashInv.searched (inv : HashInv h m) (sound : NotStale h k)
    {res : Int × Option UInt32} (done : hashtableSearch fuel h k = some res) :
    res = answerOf (m.lookup k) := by
  obtain ⟨b, bucket, -, finds⟩ := inv.search sound
  unfold hashtableSearch at done
  rw [bucket, Option.bind_some] at done
  obtain ⟨r, found, rfl⟩ := Option.map_eq_some_iff.mp done
  rw [(finds fuel r found).1]
  cases r with
  | none => rfl
  | some e => rfl

theorem HashInv.removed (inv : HashInv h m) (sound : NotStale h k)
    {res : (Int × Option UInt32) × HashTable} (done : hashtableRemove fuel h k = some res) :
    res.1 = answerOf (m.lookup k) ∧
    ((res.1.1 = -1 ∧ res.2 = h) ∨ (res.1.1 = 0 ∧ HashInv res.2 (m.erase k))) := by
  obtain ⟨b, bucket, -, finds⟩ := inv.search sound
  unfold hashtableRemove at done
  rw [bucket, Option.bind_some] at done
  obtain ⟨r, found, rfl⟩ := Option.map_eq_some_iff.mp done
  obtain ⟨value, holder⟩ := finds fuel r found
  rw [value]
  cases r with
  | none => exact ⟨rfl, .inl ⟨rfl, rfl⟩⟩
  | some e =>
    obtain ⟨used, key⟩ := holder e rfl
    have mem : k ∈ m.keys := by
      rw [Finmap.mem_keys, ← Finmap.lookup_isSome, value]
      rfl
    refine ⟨rfl, .inr ⟨rfl, (inv.keeps.counted (h.entrycount - 1)).free used key, ?_, inv.size⟩⟩
    have some : 1 ≤ m.keys.card := Finset.card_pos.mpr ⟨k, mem⟩
    have one : (1 : UInt32) ≤ h.entrycount := by
      rw [UInt32.le_iff_toNat_le, inv.count]
      exact some
    change (h.entrycount - 1).toNat = _
    rw [UInt32.toNat_sub_of_le _ _ one, inv.count, Finmap.keys_erase, Finset.card_erase_of_mem mem]
    rfl

end Operations

theorem hashInv_init {s : HashRun} (init : Initialised s) : HashInv s.h s.m := by
  obtain ⟨limit, size, made, empty⟩ := init
  unfold hashtableInit at made
  obtain ⟨small, made⟩ := Option.ite_none_left_eq_some.mp made
  rw [empty, ← Option.some.inj made]
  refine ⟨⟨fun i => .last rfl, nofun, nofun, nofun, nofun, nofun, ?_⟩, rfl, ?_⟩
  · intro k mem
    exact absurd mem Finmap.notMem_empty
  · have bound := UInt32.le_iff_toNat_le.mp (UInt32.not_lt.mp small)
    exact bound

/-- What an operation under its condition does: it returns, answers as the map does, and the
table keeps the map after it; an error changes nothing. -/
theorem HashInv.op {h : HashTable} {m : KeyMap} (inv : HashInv h m) {op : HashOp}
    (sound : Sound h op) {fuel : Nat} {res : Int × Option UInt32} {h' : HashTable}
    (done : hashOp fuel h op = some (res, h')) :
    Answers m res op ∧ (res.1 ≠ 0 → h' = h) ∧ HashInv h' (mapOp m res.1 op) := by
  cases op with
  | insert k v =>
    obtain ⟨r, inserted, eq⟩ := Option.map_eq_some_iff.mp done
    cases eq
    unfold Answers mapOp
    rcases inv.insert sound inserted with ⟨ret, same⟩ | ⟨ret, notMem, after⟩
    · dsimp only
      rw [ret, same]
      exact ⟨nofun, fun _ => rfl, inv⟩
    · dsimp only
      rw [ret]
      exact ⟨fun _ => notMem, fun error => absurd rfl error, after⟩
  | search k =>
    obtain ⟨r, searched, eq⟩ := Option.map_eq_some_iff.mp done
    cases eq
    exact ⟨inv.searched sound searched, fun _ => rfl, inv⟩
  | remove k =>
    obtain ⟨answer, after⟩ := inv.removed sound done
    refine ⟨answer, ?_⟩
    unfold mapOp
    rcases after with ⟨ret, same⟩ | ⟨ret, after⟩
    · dsimp only at ret same ⊢
      rw [ret, same]
      exact ⟨fun _ => rfl, inv⟩
    · dsimp only at ret ⊢
      rw [ret]
      exact ⟨fun error => absurd rfl error, after⟩

theorem HashInv.returns {h : HashTable} {m : KeyMap} (inv : HashInv h m) {op : HashOp}
    (sound : Sound h op) : ∃ fuel, (hashOp fuel h op).isSome := by
  cases op with
  | insert k v =>
    obtain ⟨fuel, returns⟩ := inv.insert_returns sound v
    exact ⟨fuel, by simpa [hashOp] using returns⟩
  | search k =>
    obtain ⟨b, bucket, ⟨fuel, r, found⟩, -⟩ := inv.search sound
    exact ⟨fuel, by simp [hashOp, hashtableSearch, bucket, found]⟩
  | remove k =>
    obtain ⟨b, bucket, ⟨fuel, r, found⟩, -⟩ := inv.search sound
    exact ⟨fuel, by simp [hashOp, hashtableRemove, bucket, found]⟩

theorem hashInv_reach {s : HashRun} (reach : HashReach s) : HashInv s.h s.m := by
  have starts : ∀ s, Initialised s → HashInv s.h s.m := fun _ => hashInv_init
  have kept : ∀ s op s', HashInv s.h s.m →
      Guarded (fun s op => Sound s.h op) hashStep s op s' → HashInv s'.h s'.m := by
    rintro s op s' inv ⟨sound, fuel, res, h, done, rfl⟩
    exact (inv.op sound done).2.2
  exact Reach.invariant starts kept reach

/-- In every run whose operations meet their conditions, the table is a finite map: its count is
that of the keys, no chain is a circle, and each further operation that meets its condition
returns, answers as the map does, and changes nothing when it reports an error. -/
theorem finite_map {s : HashRun} (reach : HashReach s) :
    s.h.entrycount.toNat = s.m.keys.card ∧ (∀ i, Ends s.h.next i) ∧
    ∀ op, Sound s.h op → (∃ fuel, (hashOp fuel s.h op).isSome) ∧
      ∀ fuel res h, hashOp fuel s.h op = some (res, h) →
        Answers s.m res op ∧ (res.1 ≠ 0 → h = s.h) := by
  have inv := hashInv_reach reach
  refine ⟨inv.count, inv.keeps.ends, ?_⟩
  intro op sound
  refine ⟨inv.returns sound, ?_⟩
  intro fuel res h done
  obtain ⟨answers, unchanged, -⟩ := inv.op sound done
  exact ⟨answers, unchanged⟩

/-! ### Runs that go wrong, and one that does not -/

/-- The run of these operations on a table with `limit` buckets and `size` entries. -/
def hashRun (limit size : UInt32) (ops : List HashOp) : Option HashRun :=
  (hashtableInit limit size).bind fun h =>
    ops.foldlM (fun s op => (hashOp 8 s.h op).map fun r => ⟨r.2, mapOp s.m r.1.1 op⟩) ⟨h, ∅⟩

/-- A walk that comes to an entry linked to itself does not end. -/
theorem find_self {h : HashTable} {k : UInt32} {e : Nat} (self : h.next e = some e)
    (other : ¬ h.Holds k e) (fuel : Nat) : find h k fuel (some e) = none := by
  induction fuel with
  | zero => rfl
  | succ fuel ih =>
    unfold find
    rw [if_neg other, self]
    exact ih

/-- Two colliding keys, the second of them removed: the next that collides takes its entry, the
last of the chain, and links it behind itself. -/
def circular : Option HashRun := hashRun 2 3 [.insert 2 20, .insert 3 30, .remove 3, .insert 6 60]

theorem circular_search {s : HashRun} (run : circular = some s) (fuel : Nat) :
    hashtableSearch fuel s.h 7 = none := by
  obtain rfl := Option.some.inj run
  unfold hashtableSearch
  rw [show HashTable.bucket _ 7 = some 0 from by decide, Option.bind_some]
  cases fuel with
  | zero => rfl
  | succ fuel =>
    unfold find
    rw [if_neg (by decide), show HashTable.next _ 0 = some 2 from by decide]
    rw [find_self (by decide) (by decide) fuel]
    rfl

/-- A cleared table answers for key 0, a removed key is still found, a duplicate is counted, and
a search comes to no end. -/
theorem not_a_map :
    (hashRun 2 3 []).map (fun s => (hashtableSearch 8 s.h 0, s.m.lookup 0)) =
      some (some (0, some 0), none) ∧
    (hashRun 2 3 [.insert 2 20, .remove 2]).map (fun s => (hashtableSearch 8 s.h 2, s.m.lookup 2)) =
      some (some (0, some 20), none) ∧
    (hashRun 4 8 [.insert 2 20, .insert 10 30, .insert 2 40]).map
      (fun s => (s.h.entrycount, s.m.keys.card)) = some (3, 2) ∧
    circular.isSome ∧ ∀ s, circular = some s → ∀ fuel, hashtableSearch fuel s.h 7 = none :=
  ⟨by decide, by decide, by decide, by decide,
    fun _ run fuel => circular_search run fuel⟩

/-- A cleared table of four buckets and four entries behind them. -/
def clearedTable : HashTable := ⟨4, 8, 0, fun _ => ⟨0, 0, 0, false, none⟩⟩

def oneKey : HashTable := { clearedTable with entrycount := 1 }.fill 2 2 20

/-- The second key collides with the first. -/
def twoKeys : HashTable := ({ oneKey with entrycount := 2 }.link 2 4).fill 4 10 30

theorem oneKey_next (i : Nat) : oneKey.next i = none := by
  rw [oneKey, fill_next]
  rfl

theorem insertable_first : Insertable clearedTable 2 :=
  .inr ⟨2, by decide, nofun, .inl rfl⟩

theorem insertable_second : Insertable oneKey 10 := by
  refine .inr ⟨2, by decide, ?_, .inr ⟨?_, 4, by decide, ?_⟩⟩
  · intro i used
    by_cases first : i = 2
    · subst first
      decide
    · have same : oneKey.table i = clearedTable.table i := Function.update_of_ne first _ _
      rw [same] at used
      cases used
  · intro i _ more
    exact absurd (oneKey_next i) more
  · intro e leads _ back
    have first := leads.eq_of_last (oneKey_next 2)
    have free := back.eq_of_last (oneKey_next 4)
    omega

theorem twoKeys_reach :
    HashReach ⟨twoKeys, ((∅ : KeyMap).insert 2 20).insert 10 30⟩ := by
  have start : HashReach ⟨clearedTable, ∅⟩ := .start ⟨4, 8, rfl, rfl⟩
  have first : HashReach ⟨oneKey, (∅ : KeyMap).insert 2 20⟩ :=
    .next (.insert 2 20) start ⟨insertable_first, 8, (0, none), oneKey, rfl, rfl⟩
  exact .next (.insert 10 30) first ⟨insertable_second, 8, (0, none), twoKeys, rfl, rfl⟩

theorem notStale_second : NotStale twoKeys 10 := by
  refine ⟨2, by decide, ?_⟩
  intro i _ holds unused
  by_cases last : i = 4
  · subst last
    cases unused
  · have same : twoKeys.table i = (HashTable.link { oneKey with entrycount := 2 } 2 4).table i :=
      Function.update_of_ne last _ _
    rw [same] at unused
    obtain ⟨used, key, -, -⟩ := link_entry (h := { oneKey with entrycount := 2 }) 2 4 i
    by_cases first : i = 2
    · subst first
      rw [used] at unused
      cases unused
    · -- the other entries are the cleared ones
      have cleared : oneKey.table i = clearedTable.table i := Function.update_of_ne first _ _
      have held := holds.2
      rw [same, key] at held
      change 10 = (oneKey.table i).k at held
      rw [cleared] at held
      cases held

theorem twoKeys_found :
    twoKeys.entrycount.toNat = (((∅ : KeyMap).insert 2 20).insert 10 30).keys.card ∧
    (∃ fuel, (hashOp fuel twoKeys (.search 10)).isSome) ∧
    ∀ fuel res h, hashOp fuel twoKeys (.search 10) = some (res, h) → res = (0, some 30) := by
  obtain ⟨count, -, ops⟩ := finite_map twoKeys_reach
  obtain ⟨returns, answers⟩ := ops (.search 10) notStale_second
  refine ⟨count, returns, ?_⟩
  intro fuel res h done
  exact (answers fuel res h done).1

end Hash
