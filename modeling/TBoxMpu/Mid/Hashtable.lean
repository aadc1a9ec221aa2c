import Mathlib.Data.List.Basic
import TBoxMpu.Lib.Chains

/-!
# Hash table

`hashtable.c`: the first `loadlimit` entries of the table are the buckets, the others are linked
behind them when keys collide. The operations follow the links of a chain; they are given the
number of entries they may visit, and `none` says that they are not through by then, or that
they leave the table. A walk has one lemma for where it stops, and returns on a chain that ends.
-/

namespace Hash

open Chains

structure Entry where
  h : UInt32
  k : UInt32
  v : UInt32
  used : Bool
  next : Option Nat
  deriving DecidableEq, Repr

structure HashTable where
  loadlimit : UInt32
  tablelength : UInt32
  entrycount : UInt32
  table : Nat → Entry

/-- The entries are cleared; `none` is the error. -/
def hashtableInit (limit size : UInt32) : Option HashTable :=
  if size > (1 : UInt32) <<< 30 then none
  else some {
    loadlimit := limit
    tablelength := size
    entrycount := 0
    table := fun _ => ⟨0, 0, 0, false, none⟩ }

def hash (k : UInt32) : UInt32 :=
  let i := k
  let i := i + ~~~(i <<< 9)
  let i := i ^^^ ((i >>> 14) ||| (i <<< 18))
  let i := i + (i <<< 4)
  i ^^^ ((i >>> 10) ||| (i <<< 22))

def indexFor (tablelength hashvalue : UInt32) : UInt32 := hashvalue % tablelength

namespace HashTable

/-- The bucket of a key; none where the division is by zero or the entry is not in the table. -/
def bucket (h : HashTable) (k : UInt32) : Option Nat :=
  if h.loadlimit = 0 then none
  else
    let index := indexFor h.loadlimit (hash k)
    if index < h.tablelength then some index.toNat else none

def next (h : HashTable) (i : Nat) : Option Nat := (h.table i).next

/-- The entry is the one that a comparison with the key accepts. -/
def Holds (h : HashTable) (k : UInt32) (i : Nat) : Prop :=
  hash k = (h.table i).h ∧ k = (h.table i).k

instance (h : HashTable) (k : UInt32) (i : Nat) : Decidable (h.Holds k i) := by
  unfold Holds
  infer_instance

/-- The entry `i` filled; its link stays. -/
def fill (h : HashTable) (i : Nat) (k v : UInt32) : HashTable :=
  let e := { h.table i with h := hash k, k := k, v := v, used := true }
  { h with table := Function.update h.table i e }

def link (h : HashTable) (e i : Nat) : HashTable :=
  { h with table := Function.update h.table e { h.table e with next := some i } }

def free (h : HashTable) (i : Nat) : HashTable :=
  { h with table := Function.update h.table i { h.table i with used := false } }

end HashTable

/-- Where the walk of an insertion stops. -/
inductive Walked
  | duplicate
  | last (e : Nat)
  deriving DecidableEq, Repr

/-- The walk to the last entry of a chain, which does not look at the key of the last one. -/
def walk (h : HashTable) (k : UInt32) : Nat → Nat → Option Walked
  | 0, _ => none
  | fuel + 1, e =>
    match h.next e with
    | none => some (.last e)
    | some e' => if k = (h.table e).k then some .duplicate else walk h k fuel e'

/-- The first entry behind the buckets that is not used. -/
def freeEntry (h : HashTable) : Option Nat :=
  (List.range' h.loadlimit.toNat (h.tablelength.toNat - h.loadlimit.toNat)).find?
    fun i => !(h.table i).used

/-- What an insertion does behind a used bucket; the entry has been counted. -/
def chainInsert (h : HashTable) (k v : UInt32) : Walked → Int × HashTable
  | .duplicate => (-2, h)
  | .last e =>
    match freeEntry h with
    | none => (-3, h)
    | some i => (0, (h.link e i).fill i k v)

def hashtableInsert (fuel : Nat) (h : HashTable) (k v : UInt32) : Option (Int × HashTable) :=
  if h.entrycount + 1 > h.loadlimit then some (-1, h)
  else
    -- counted before it is known that there is a place
    let h := { h with entrycount := h.entrycount + 1 }
    (h.bucket k).bind fun e =>
      if (h.table e).used then (walk h k fuel e).map (chainInsert h k v)
      else some (0, h.fill e k v)

/-- The walk of a search: the entry that holds the key. -/
def find (h : HashTable) (k : UInt32) : Nat → Option Nat → Option (Option Nat)
  | _, none => some none
  | 0, some _ => none
  | fuel + 1, some e => if h.Holds k e then some (some e) else find h k fuel (h.next e)

/-- The value is what the caller's `v` points to afterwards, when it is written. -/
def hashtableSearch (fuel : Nat) (h : HashTable) (k : UInt32) : Option (Int × Option UInt32) :=
  (h.bucket k).bind fun index =>
    (find h k fuel (some index)).map fun
      | none => (-1, none)
      | some e => (0, some (h.table e).v)

def hashtableRemove (fuel : Nat) (h : HashTable) (k : UInt32) :
    Option ((Int × Option UInt32) × HashTable) :=
  (h.bucket k).bind fun index =>
    (find h k fuel (some index)).map fun
      | none => ((-1, none), h)
      -- the entry stays in its chain, with its key
      | some e => ((0, some (h.table e).v), { h with entrycount := h.entrycount - 1 }.free e)

/-! ### Where the walks stop -/

section Walks

variable {h : HashTable} {k : UInt32} {i e : Nat} {fuel : Nat}

theorem find_nil : find h k fuel none = some none := by
  unfold find
  rfl

theorem find_returns (ends : Ends h.next i) : ∃ fuel r, find h k fuel (some i) = some r := by
  induction ends with
  | @last i last =>
    refine ⟨1, ?_⟩
    unfold find
    split
    · exact ⟨_, rfl⟩
    · rw [last]
      exact ⟨_, find_nil⟩
  | @more i j link _ ih =>
    obtain ⟨fuel, r, found⟩ := ih
    refine ⟨fuel + 1, ?_⟩
    unfold find
    split
    · exact ⟨_, rfl⟩
    · rw [link]
      exact ⟨r, found⟩

/-- The entry found is the first of its chain that holds the key. -/
theorem find_first (found : find h k fuel (some i) = some (some e)) :
    Leads h.next i e ∧ h.Holds k e ∧ ∀ j, Leads h.next i j → h.Holds k j → Leads h.next e j := by
  induction fuel generalizing i with
  | zero => cases found
  | succ fuel ih =>
    unfold find at found
    split at found
    next holds =>
      cases found
      exact ⟨Leads.refl _, holds, fun j leads _ => leads⟩
    next skipped =>
      cases link : h.next i with
      | none =>
        rw [link, find_nil] at found
        cases found
      | some i' =>
        rw [link] at found
        obtain ⟨leads, holds, first⟩ := ih found
        refine ⟨leads.head link, holds, ?_⟩
        intro j way holdsJ
        rcases way.cases with rfl | ⟨i'', link', rest⟩
        · exact absurd holdsJ skipped
        · rw [link] at link'
          cases link'
          exact first j rest holdsJ

theorem find_none (missed : find h k fuel (some i) = some none) {j : Nat}
    (leads : Leads h.next i j) : ¬ h.Holds k j := by
  induction fuel generalizing i with
  | zero => cases missed
  | succ fuel ih =>
    unfold find at missed
    split at missed
    · cases missed
    next skipped =>
      rcases leads.cases with rfl | ⟨i', link, rest⟩
      · exact skipped
      · rw [link] at missed
        exact ih missed rest

theorem walk_returns (ends : Ends h.next i) : ∃ fuel w, walk h k fuel i = some w := by
  induction ends with
  | @last i last =>
    refine ⟨1, .last i, ?_⟩
    unfold walk
    rw [last]
  | @more i j link _ ih =>
    obtain ⟨fuel, w, walked⟩ := ih
    refine ⟨fuel + 1, ?_⟩
    unfold walk
    rw [link]
    dsimp only
    split
    · exact ⟨_, rfl⟩
    · exact ⟨w, walked⟩

theorem walk_last (walked : walk h k fuel i = some (.last e)) :
    Leads h.next i e ∧ h.next e = none := by
  induction fuel generalizing i with
  | zero => cases walked
  | succ fuel ih =>
    unfold walk at walked
    split at walked
    next last =>
      cases walked
      exact ⟨Leads.refl _, last⟩
    next i' link =>
      split at walked
      · cases walked
      · obtain ⟨leads, last⟩ := ih walked
        exact ⟨leads.head link, last⟩

/-- A walk that reports a duplicate came to an entry with that key before the last one. -/
theorem walk_duplicate (walked : walk h k fuel i = some .duplicate) :
    ∃ j, Leads h.next i j ∧ h.next j ≠ none ∧ (h.table j).k = k := by
  induction fuel generalizing i with
  | zero => cases walked
  | succ fuel ih =>
    unfold walk at walked
    split at walked
    · cases walked
    next i' link =>
      split at walked
      next same =>
        refine ⟨_, Leads.refl _, ?_, same.symm⟩
        rw [link]
        nofun
      · obtain ⟨j, leads, more, same⟩ := ih walked
        exact ⟨j, leads.head link, more, same⟩

theorem freeEntry_some (free : freeEntry h = some i) :
    (h.table i).used = false ∧ i < h.tablelength.toNat := by
  unfold freeEntry at free
  have unused := List.find?_some free
  have mem := List.mem_range'_1.mp (List.mem_of_find?_eq_some free)
  exact ⟨by simpa using unused, by omega⟩

theorem bucket_lt (bucket : h.bucket k = some i) : i < h.tablelength.toNat := by
  unfold HashTable.bucket at bucket
  split at bucket
  · cases bucket
  · obtain ⟨inside, same⟩ := Option.ite_none_right_eq_some.mp bucket
    cases same
    exact UInt32.lt_iff_toNat_lt.mp inside

end Walks

end Hash
