import Mathlib.Data.Finset.Card
import Mathlib.Data.Finset.Range
import TBoxMpu.Gb32960.MapWrites

/-!
# The places of the signals' ids

Which words of a `gb_info_t` are for ids, what a suffix and a definition make of them, and what
they hold after a file was read: ids of signals that have the place in their suffix. The counters
of the battery's cells and temperatures count the places that are filled, so that the check at
`FINISHED` is passed by a file that leaves no gaps.
-/

namespace Gb32960

open Can

/-! ### Places -/

/-- The arrays of signal ids in `gb_info_t` and their lengths. -/
def idArrays : List (Int × Int) :=
  [(vehiInfo, 16), (motor 0, 8), (motor 1, 8), (motor 2, 8), (motor 3, 8), (fuelInfo, 16),
    (fuelTemp, 200), (enginInfo, 4), (battVoltage, 1), (battCurrent, 1), (battCell, 800),
    (battTemp, 800), (warn, 128), (extr, 16)]

/-- The word of a block is for the id of a signal. -/
def SignalPlace (a : Int) : Prop := ∃ r ∈ idArrays, r.1 ≤ a ∧ a < r.1 + r.2

instance (a : Int) : Decidable (SignalPlace a) := inferInstanceAs (Decidable (∃ r ∈ idArrays, _))

/-- The arrays that the battery's signals fill one by one, with their counters. -/
def counters : List (Int × Int) := [(battCell, battCellCnt), (battTemp, battTempCnt)]

/-- The place that a field is for; a fuel-cell temperature has one in its array only. -/
def Entry.place : Entry → Option Int
  | .refused => none
  | .plain a | .motor a _ | .counted a _ => some a
  | .fuelTemp a => if Gb32960.fuelTemp ≤ a ∧ a < fuelTempCnt then some a else none

/-- The index of a fuel-cell temperature is in its array. -/
def Entry.InTable : Entry → Prop
  | .fuelTemp a => Gb32960.fuelTemp ≤ a ∧ a < fuelTempCnt
  | _ => True

/-- The index of a definition is in its table. -/
def GbDefine.InTable : GbDefine → Prop
  | .vehiType _ => True
  | .hvdcdcState i _ => i < 8
  | .enginState i _ | .vehiState i _ | .vehiMode i _ | .chgState i _ | .dcdcState i _
  | .shift i _ | .motState _ i _ => i < 256

/-- A cell or a temperature of the battery is declared only with those before it. -/
def Gapless (fields : List (UInt32 × UInt32)) : Prop :=
  ∀ r ∈ counters, ∀ i j : Nat, i < j →
    (∃ field ∈ fields, surfixEntry field.1 field.2 = .counted (r.1 + j) r.2) →
      ∃ field ∈ fields, surfixEntry field.1 field.2 = .counted (r.1 + i) r.2

theorem SignalPlace.ranges {a : Int} (place : SignalPlace a) :
    (0 ≤ a ∧ a < 16) ∨ (337 ≤ a ∧ a < 345) ∨ (409 ≤ a ∧ a < 417) ∨ (481 ≤ a ∧ a < 489) ∨
      (553 ≤ a ∧ a < 561) ∨ (626 ≤ a ∧ a < 842) ∨ (845 ≤ a ∧ a < 849) ∨ (913 ≤ a ∧ a < 2515) ∨
      (2517 ≤ a ∧ a < 2661) := by
  obtain ⟨r, mem, low, high⟩ := place
  simp only [idArrays, List.mem_cons, List.not_mem_nil, or_false, vehiInfo, motor, fuelInfo,
    fuelTemp, enginInfo, battVoltage, battCurrent, battCell, battTemp, warn, extr] at mem
  rcases mem with rfl | rfl | rfl | rfl | rfl | rfl | rfl | rfl | rfl | rfl | rfl | rfl | rfl | rfl
  all_goals
    dsimp only at low high
    omega

/-- The arrays in numbers. -/
theorem counters_cases {r : Int × Int} (mem : r ∈ counters) : r = (915, 2515) ∨ r = (1715, 2516) := by
  simpa [counters, battCell, battCellCnt, battTemp, battTempCnt] using mem

theorem counters_place {r : Int × Int} (mem : r ∈ counters) {a : Int} (low : r.1 ≤ a)
    (high : a < r.1 + 800) : SignalPlace a := by
  rcases counters_cases mem with rfl | rfl
  · exact ⟨(battCell, 800), by decide, low, high⟩
  · exact ⟨(battTemp, 800), by decide, low, high⟩

theorem counter_unplaced {r : Int × Int} (mem : r ∈ counters) {a : Int} (place : SignalPlace a) :
    a ≠ r.2 := by
  have ranges := place.ranges
  rcases counters_cases mem with rfl | rfl
  · dsimp only
    omega
  · dsimp only
    omega

theorem counters_apart {r s : Int × Int} (mem : r ∈ counters) (mem' : s ∈ counters)
    (other : s ≠ r) : s.2 ≠ r.2 ∧ (s.1 + 800 ≤ r.1 ∨ r.1 + 800 ≤ s.1) := by
  rcases counters_cases mem with rfl | rfl
  · rcases counters_cases mem' with rfl | rfl
    · exact absurd rfl other
    · decide
  · rcases counters_cases mem' with rfl | rfl
    · decide
    · exact absurd rfl other

/-- The words that decide what becomes of a map: the places and the two counters. -/
def Watched (a : Int) : Prop := SignalPlace a ∨ ∃ r ∈ counters, a = r.2

theorem Watched.ranges {a : Int} (watched : Watched a) :
    (0 ≤ a ∧ a < 16) ∨ (337 ≤ a ∧ a < 345) ∨ (409 ≤ a ∧ a < 417) ∨ (481 ≤ a ∧ a < 489) ∨
      (553 ≤ a ∧ a < 561) ∨ (626 ≤ a ∧ a < 842) ∨ (845 ≤ a ∧ a < 849) ∨ (913 ≤ a ∧ a < 2661) := by
  rcases watched with place | ⟨r, mem, rfl⟩
  · have := place.ranges
    omega
  · rcases counters_cases mem with rfl | rfl
    · decide
    · decide

/-! ### What a definition makes of them -/

variable {b : Bool} {w w' : Words} {a : Int}

theorem pokeByte_changes {i : Int} {v : UInt8} (h : pokeByte a i v w = some w') :
    ChangesOnly (· = a + i / 4) w w' :=
  poke_changes h

/-- A definition in its table keeps the words that are for no states. -/
theorem gbDataParseDefine_stateless {d : GbDefine} (range : d.InRange) (inTable : d.InTable)
    (h : gbDataParseDefine (blockBase b) w d = some w')
    (ranges : (0 ≤ a ∧ a < 16) ∨ (337 ≤ a ∧ a < 345) ∨ (409 ≤ a ∧ a < 417) ∨
      (481 ≤ a ∧ a < 489) ∨ (553 ≤ a ∧ a < 561) ∨ (625 ≤ a ∧ a < 842) ∨ (845 ≤ a ∧ a < 849) ∨
      (913 ≤ a ∧ a < 2661)) :
    w' (blockBase b + a) = w (blockBase b + a) := by
  have small : ∀ {i n : UInt32}, i < n → n.toNat ≤ 256 → 0 ≤ offset i ∧ offset i < n.toNat :=
    fun lt le => offset_lt (UInt32.not_le.mpr lt) (by omega)
  cases d with
  | vehiType vtype =>
    apply pokeByte_changes h
    simp only [vehiType]
    omega
  | hvdcdcState i st =>
    have index := small inTable (by decide)
    apply pokeByte_changes h
    simp only [fuelHvdcdc] at *
    have : (8 : UInt32).toNat = 8 := rfl
    omega
  | motState m i st =>
    have index := small inTable (by decide)
    have number := small range.1 (by decide)
    apply pokeByte_changes h
    simp only [motor] at *
    have : (256 : UInt32).toNat = 256 := rfl
    have : (4 : UInt32).toNat = 4 := rfl
    omega
  -- the six tables of states are alike
  | _ =>
    have index := small inTable (by decide)
    apply pokeByte_changes h
    simp only [enginStateTbl, vehiStateTbl, vehiModeTbl, vehiShiftTbl, vehiChargeTbl,
      vehiDcdcTbl] at *
    have : (256 : UInt32).toNat = 256 := rfl
    omega

/-- It keeps the places and the counters. -/
theorem gbDataParseDefine_watched {d : GbDefine} (range : d.InRange) (inTable : d.InTable)
    (h : gbDataParseDefine (blockBase b) w d = some w') (watched : Watched a) :
    w' (blockBase b + a) = w (blockBase b + a) := by
  have ranges := watched.ranges
  exact gbDataParseDefine_stateless range inTable h (by omega)

/-! ### What a suffix makes of them -/

/-- Only the entries that are counted are for the battery's arrays. -/
def Entry.Apart : Entry → Prop
  | .refused | .fuelTemp _ => True
  | .plain a => a < battCell ∨ warn ≤ a
  | .motor a _ => a < motorCnt
  | .counted a c => ∃ r ∈ counters, c = r.2 ∧ r.1 ≤ a ∧ a < r.1 + 800

theorem boundedEntry_apart {array : Int} {size : UInt32} (small : size.toNat ≤ 800)
    (apart : array + size.toNat ≤ battCell ∨ warn ≤ array) (i : UInt32) :
    (boundedEntry array size i).Apart := by
  unfold boundedEntry
  split
  · trivial
  next fits =>
    obtain ⟨lower, upper⟩ := offset_lt fits small
    rcases apart with below | above
    · exact .inl (by omega)
    · exact .inr (by omega)

theorem motorEntry_apart (i : UInt32) : (motorEntry i).Apart := by
  unfold motorEntry
  split
  · trivial
  next number =>
    split
    · trivial
    next place =>
      have m := offset_lt number (by decide)
      have k := offset_lt place (by decide)
      simp [Entry.Apart, motor, motorCnt] at *
      omega

theorem fuelcellEntry_apart (i : UInt32) : (fuelcellEntry i).Apart := by
  unfold fuelcellEntry
  split
  · trivial
  · exact boundedEntry_apart (by decide) (by decide) _

theorem warnEntry_apart (i : UInt32) : (warnEntry i).Apart := by
  unfold warnEntry
  split
  · trivial
  next level =>
    split
    · trivial
    next number =>
      have l := offset_lt level (by decide)
      have k := offset_lt number (by decide)
      exact .inr (by omega)

theorem battVoltEntry_apart (i : UInt32) : (battVoltEntry i).Apart := by
  unfold battVoltEntry
  split
  · trivial
  · split
    · exact .inl (by decide)
    · split
      · exact .inl (by decide)
      · split
        · trivial
        next cell =>
          have k := offset_lt cell (by decide)
          have : (800 : UInt32).toNat = 800 := rfl
          exact ⟨(battCell, battCellCnt), by decide, rfl, by dsimp only; omega,
            by dsimp only; omega⟩

theorem battTempEntry_apart (i : UInt32) : (battTempEntry i).Apart := by
  unfold battTempEntry
  split
  · trivial
  · split
    · trivial
    next temp =>
      have k := offset_lt temp (by decide)
      have : (800 : UInt32).toNat = 800 := rfl
      exact ⟨(battTemp, battTempCnt), by decide, rfl, by dsimp only; omega,
        by dsimp only; omega⟩

theorem surfixEntry_apart (gbtype gbindex : UInt32) : (surfixEntry gbtype gbindex).Apart := by
  unfold surfixEntry
  split
  · exact boundedEntry_apart (by decide) (by decide) _
  · exact motorEntry_apart _
  · exact fuelcellEntry_apart _
  · exact boundedEntry_apart (by decide) (by decide) _
  · exact boundedEntry_apart (by decide) (by decide) _
  · exact warnEntry_apart _
  · exact battVoltEntry_apart _
  · exact battTempEntry_apart _
  · trivial

/-- What a suffix for a place in its table makes of the words. -/
inductive Written (base : Int) (id : Nat) (entry : Entry) (w : Words) : Words → Prop
  | nothing (filled : ∀ a c, entry = .counted a c → w (base + a) ≠ 0) : Written base id entry w w
  | plain {w' : Words} {a : Int} (place : entry.place = some a)
      (uncounted : ∀ a c, entry ≠ .counted a c) (apart : a < battCell ∨ warn ≤ a)
      (got : w' (base + a) = UInt32.ofNat id)
      (changes : ChangesOnly (fun x => x = base + a ∨ x = base + motorCnt ∨
        x = base + fuelTempCnt) w w') : Written base id entry w w'
  | counted {w' : Words} {a : Int} {r : Int × Int} (mem : r ∈ counters)
      (inside : r.1 ≤ a ∧ a < r.1 + 800) (at_ : entry = .counted a r.2)
      (empty : w (base + a) = 0) (got : w' (base + a) = UInt32.ofNat id)
      (count : w' (base + r.2) = w (base + r.2) + 1)
      (changes : ChangesOnly (fun x => x = base + a ∨ x = base + r.2) w w') :
      Written base id entry w w'

theorem poke_same {a : Int} {v : UInt32} (h : poke a v w = some w') : w' a = v := by
  unfold poke at h
  split at h
  · cases h
    exact if_pos rfl
  · cases h

theorem gbDataParseSurfix_written {base : Int} {id : Nat} {field : UInt32 × UInt32}
    (inTable : (surfixEntry field.1 field.2).InTable)
    (h : gbDataParseSurfix base id field w = some w') :
    Written base id (surfixEntry field.1 field.2) w w' := by
  have apart := surfixEntry_apart field.1 field.2
  unfold gbDataParseSurfix at h
  generalize surfixEntry field.1 field.2 = entry at *
  cases entry with
  | refused =>
    cases h
    exact .nothing nofun
  | plain a =>
    exact .plain rfl nofun apart (poke_same h) ((poke_changes h).weaken fun _ => .inl)
  | motor a number =>
    obtain ⟨w₁, first, h⟩ := Option.bind_eq_some_iff.mp h
    have below : a < motorCnt := apart
    have battery : a < battCell ∨ warn ≤ a := .inl (below.trans (by decide))
    split at h
    · have other : w' (base + a) = w₁ (base + a) := poke_changes h _ (by omega)
      refine .plain rfl nofun battery (other.trans (poke_same first)) (ChangesOnly.trans
        ((poke_changes first).weaken fun _ => .inl) ((poke_changes h).weaken fun _ => ?_))
      exact fun same => .inr (.inl same)
    · cases h
      exact .plain rfl nofun battery (poke_same first) ((poke_changes first).weaken fun _ => .inl)
  | fuelTemp a =>
    obtain ⟨w₁, first, h⟩ := Option.bind_eq_some_iff.mp h
    have below : a < fuelTempCnt := inTable.2
    refine .plain (if_pos inTable) nofun (.inl (below.trans (by decide))) (poke_same h)
      (ChangesOnly.trans ((poke_changes first).weaken fun _ => ?_)
        ((poke_changes h).weaken fun _ => .inl))
    exact fun same => .inr (.inr same)
  | counted a c =>
    obtain ⟨r, mem, rfl, low, high⟩ := apart
    dsimp only at h
    split at h
    -- only an empty place is filled, and counted
    next empty =>
      obtain ⟨w₁, first, h⟩ := Option.bind_eq_some_iff.mp h
      have distinct : a ≠ r.2 := by
        rcases counters_cases mem with rfl | rfl
        · dsimp only at low high ⊢
          omega
        · dsimp only at low high ⊢
          omega
      have got : w' (base + a) = w₁ (base + a) := poke_changes h _ (by omega)
      have old : w₁ (base + r.2) = w (base + r.2) := poke_changes first _ (by omega)
      refine .counted mem ⟨low, high⟩ rfl empty (got.trans (poke_same first)) ?_
        (ChangesOnly.trans ((poke_changes first).weaken fun _ => .inl)
          ((poke_changes h).weaken fun _ => .inr))
      rw [poke_same h, old]
    next filled =>
      cases h
      refine .nothing ?_
      intro _ _ same
      cases same
      exact filled

/-! ### A map that is filled -/

/-- How many places of an array are filled. -/
def filledCount (w : Words) (start : Int) : Nat :=
  ((Finset.range 800).filter fun i => w (start + (i : Nat)) ≠ 0).card

theorem filledCount_le (w : Words) (start : Int) : filledCount w start ≤ 800 :=
  (Finset.card_filter_le _ _).trans (Finset.card_range 800).le

theorem filledCount_congr {start : Int} (same : ∀ i : Nat, i < 800 → w' (start + i) = w (start + i)) :
    filledCount w' start = filledCount w start := by
  refine congrArg Finset.card (Finset.filter_congr ?_)
  intro i mem
  rw [same i (Finset.mem_range.mp mem)]

/-- One place more is filled. -/
theorem filledCount_succ {start : Int} {k : Nat} (inside : k < 800)
    (empty : w (start + k) = 0) (filled : w' (start + k) ≠ 0)
    (same : ∀ i : Nat, i < 800 → i ≠ k → w' (start + i) = w (start + i)) :
    filledCount w' start = filledCount w start + 1 := by
  unfold filledCount
  -- the filled places are those before and the new one
  have grown : ((Finset.range 800).filter fun i => w' (start + (i : Nat)) ≠ 0) =
      insert k ((Finset.range 800).filter fun i => w (start + (i : Nat)) ≠ 0) := by
    ext i
    simp only [Finset.mem_filter, Finset.mem_insert, Finset.mem_range]
    by_cases new : i = k
    · simp [new, inside, filled]
    · by_cases small : i < 800
      · simp [new, same i small new]
      · simp [new, small]
  rw [grown, Finset.card_insert_of_notMem]
  simp [empty]

/-- Where the filled places have no gap, they are the first ones. -/
theorem filled_of_lt_count {start : Int} {i : Nat} (below : i < filledCount w start)
    (gapless : ∀ j : Nat, j < 800 → i < j → w (start + j) ≠ 0 → w (start + i) ≠ 0) :
    w (start + i) ≠ 0 := by
  intro empty
  -- an empty place would have all filled ones below it, which are too few
  have early : ((Finset.range 800).filter fun j => w (start + (j : Nat)) ≠ 0) ⊆ Finset.range i := by
    intro j mem
    obtain ⟨inside, filled⟩ := Finset.mem_filter.mp mem
    apply Finset.mem_range.mpr
    rcases Nat.lt_trichotomy j i with lt | rfl | gt
    · exact lt
    · exact absurd empty filled
    · exact absurd empty (gapless j (Finset.mem_range.mp inside) gt filled)
  have few := Finset.card_le_card early
  rw [Finset.card_range] at few
  exact Nat.not_lt.mpr few below

/-- The block at `base` was filled from the fields `asks` of signals, each with the signal's id. -/
structure Filled (base : Int) (asks : List (Nat × UInt32 × UInt32)) (w : Words) : Prop where
  ids : ∀ a, SignalPlace a → w (base + a) ≠ 0 → ∃ id field, (id, field) ∈ asks ∧
    (surfixEntry field.1 field.2).place = some a ∧ w (base + a) = UInt32.ofNat id
  count : ∀ r ∈ counters, w (base + r.2) = UInt32.ofNat (filledCount w (base + r.1))
  asked : ∀ ask ∈ asks, ∀ a c, surfixEntry ask.2.1 ask.2.2 = .counted a c → w (base + a) ≠ 0

theorem filled_reload (b : Bool) (w : Words) : Filled (blockBase b) [] (reloadWords b w) := by
  have cleared : ∀ a, Watched a → reloadWords b w (blockBase b + a) = 0 := by
    intro a watched
    have ranges := watched.ranges
    unfold reloadWords
    rw [if_neg (by simp only [vehiType]; omega), if_pos (by simp only [infoNext]; omega)]
  refine ⟨?_, ?_, List.forall_mem_nil _⟩
  · intro a place filled
    exact absurd (cleared a (.inl place)) filled
  · intro r mem
    rw [cleared r.2 (.inr ⟨r, mem, rfl⟩)]
    have none : filledCount (reloadWords b w) (blockBase b + r.1) = 0 := by
      apply Finset.card_eq_zero.mpr
      apply Finset.filter_eq_empty_iff.mpr
      intro i inside
      have small := Finset.mem_range.mp inside
      have place : SignalPlace (r.1 + i) := counters_place mem (by omega) (by omega)
      rw [Int.add_assoc]
      exact not_not_intro (cleared _ (.inl place))
    rw [none]
    rfl

variable {base : Int} {asks : List (Nat × UInt32 × UInt32)} {id : Nat} {field : UInt32 × UInt32}

/-- The place of a field that is counted. -/
theorem counted_place {c : Int} (at_ : surfixEntry field.1 field.2 = .counted a c) :
    ∃ r ∈ counters, c = r.2 ∧ r.1 ≤ a ∧ a < r.1 + 800 := by
  have apart := surfixEntry_apart field.1 field.2
  rw [at_] at apart
  exact apart

/-- Other words than the places and the counters do not matter. -/
theorem Filled.of_same (filled : Filled base asks w)
    (same : ∀ a, Watched a → w' (base + a) = w (base + a)) : Filled base asks w' := by
  refine ⟨?_, ?_, ?_⟩
  · intro a place
    rw [same a (.inl place)]
    exact filled.ids a place
  · intro r mem
    rw [same r.2 (.inr ⟨r, mem, rfl⟩), filled.count r mem]
    refine congrArg UInt32.ofNat (filledCount_congr fun i small => ?_).symm
    rw [Int.add_assoc]
    exact same _ (.inl (counters_place mem (by omega) (by omega)))
  · intro ask mem a c at_
    obtain ⟨r, counted, rfl, low, high⟩ := counted_place at_
    rw [same a (.inl (counters_place counted low high))]
    exact filled.asked ask mem a r.2 at_

/-- A signal asks for a place that has one already, or for none. -/
theorem Filled.refuse (filled : Filled base asks w)
    (taken : ∀ a c, surfixEntry field.1 field.2 = .counted a c → w (base + a) ≠ 0) :
    Filled base (asks ++ [(id, field)]) w := by
  refine ⟨?_, filled.count, ?_⟩
  · intro a place nonzero
    obtain ⟨id', field', mem, rest⟩ := filled.ids a place nonzero
    exact ⟨id', field', List.mem_append_left _ mem, rest⟩
  · intro ask mem
    rcases List.mem_append.mp mem with mem | mem
    · exact filled.asked ask mem
    · cases List.mem_singleton.mp mem
      exact taken

/-- The id of a signal is put into its place `a`; the other places keep theirs. -/
theorem Filled.ids_put (filled : Filled base asks w)
    (place : (surfixEntry field.1 field.2).place = some a)
    (got : w' (base + a) = UInt32.ofNat id)
    (others : ∀ p, SignalPlace p → p ≠ a → w' (base + p) = w (base + p)) :
    ∀ p, SignalPlace p → w' (base + p) ≠ 0 → ∃ id' field', (id', field') ∈ asks ++ [(id, field)] ∧
      (surfixEntry field'.1 field'.2).place = some p ∧ w' (base + p) = UInt32.ofNat id' := by
  intro p at_ nonzero
  by_cases new : p = a
  · subst new
    exact ⟨id, field, List.mem_append_right _ (List.mem_singleton.mpr rfl), place, got⟩
  · rw [others p at_ new] at nonzero ⊢
    obtain ⟨id', field', mem, rest⟩ := filled.ids p at_ nonzero
    exact ⟨id', field', List.mem_append_left _ mem, rest⟩

/-- A place of the battery is filled and counted; the other array and its counter stay. -/
theorem Filled.count_put (filled : Filled base asks w) {r : Int × Int} (mem : r ∈ counters)
    (inside : r.1 ≤ a ∧ a < r.1 + 800) (empty : w (base + a) = 0) (put : w' (base + a) ≠ 0)
    (count : w' (base + r.2) = w (base + r.2) + 1)
    (same : ∀ p, Watched p → p ≠ a → p ≠ r.2 → w' (base + p) = w (base + p)) :
    ∀ s ∈ counters, w' (base + s.2) = UInt32.ofNat (filledCount w' (base + s.1)) := by
  have here : SignalPlace a := counters_place mem inside.1 inside.2
  have at_ : ∀ {s : Int × Int} {i : Nat}, s ∈ counters → i < 800 → SignalPlace (s.1 + i) :=
    fun counter small => counters_place counter (by omega) (by omega)
  intro s counter
  by_cases own : s = r
  · subst own
    obtain ⟨k, rfl⟩ : ∃ k : Nat, a = s.1 + k := ⟨(a - s.1).toNat, by omega⟩
    -- the array itself: one place more, and one more counted
    have grown : filledCount w' (base + s.1) = filledCount w (base + s.1) + 1 := by
      refine filledCount_succ (k := k) (by omega) ?_ ?_ fun i small other => ?_
      · rw [Int.add_assoc]
        exact empty
      · rw [Int.add_assoc]
        exact put
      · have place : SignalPlace (s.1 + i) := at_ counter small
        rw [Int.add_assoc]
        exact same _ (.inl place) (by omega) (counter_unplaced counter place)
    rw [count, filled.count s counter, grown, UInt32.ofNat_add]
    rfl
  · obtain ⟨apart, arrays⟩ := counters_apart mem counter own
    have old : w' (base + s.2) = w (base + s.2) :=
      same _ (.inr ⟨s, counter, rfl⟩) (counter_unplaced counter here).symm apart
    rw [old, filled.count s counter]
    refine congrArg UInt32.ofNat (filledCount_congr fun i small => ?_).symm
    have place : SignalPlace (s.1 + i) := at_ counter small
    rw [Int.add_assoc]
    exact same _ (.inl place) (by omega) (counter_unplaced mem place)

/-- A suffix keeps the map filled, if its signal's id is not zero. -/
theorem Filled.written (filled : Filled base asks w) (nonzero : UInt32.ofNat id ≠ 0)
    (written : Written base id (surfixEntry field.1 field.2) w w') :
    Filled base (asks ++ [(id, field)]) w' := by
  cases written with
  | nothing taken => exact filled.refuse taken
  | @plain _ a place uncounted apart got changes =>
    have same : ∀ p, Watched p → p ≠ a → w' (base + p) = w (base + p) := by
      intro p watched other
      have ranges := watched.ranges
      apply changes
      simp only [motorCnt, fuelTempCnt]
      omega
    have battery : ∀ p, battCell ≤ p → p < warn → p ≠ a := by
      intro p low high
      omega
    -- neither the arrays of the battery nor their counters change
    have kept : ∀ r ∈ counters, w' (base + r.2) = w (base + r.2) ∧
        ∀ p, r.1 ≤ p → p < r.1 + 800 → w' (base + p) = w (base + p) := by
      intro r mem
      refine ⟨same r.2 (.inr ⟨r, mem, rfl⟩) ?_, fun p low high =>
        same p (.inl (counters_place mem low high)) ?_⟩
      · rcases counters_cases mem with rfl | rfl
        · exact battery _ (by decide) (by decide)
        · exact battery _ (by decide) (by decide)
      · apply battery
        · rcases counters_cases mem with rfl | rfl
          · exact low
          · exact le_trans (by decide) low
        · rcases counters_cases mem with rfl | rfl
          · exact high.trans (by decide)
          · exact high.trans (by decide)
    refine ⟨filled.ids_put place got fun p at_ => same p (.inl at_), ?_, ?_⟩
    · intro r mem
      rw [(kept r mem).1, filled.count r mem]
      refine congrArg UInt32.ofNat (filledCount_congr fun i small => ?_).symm
      rw [Int.add_assoc]
      exact (kept r mem).2 _ (by omega) (by omega)
    · intro ask mem p c at_
      rcases List.mem_append.mp mem with mem | mem
      · obtain ⟨r, counted, rfl, low, high⟩ := counted_place at_
        rw [(kept r counted).2 p low high]
        exact filled.asked ask mem p r.2 at_
      · cases List.mem_singleton.mp mem
        exact absurd at_ (uncounted p c)
  | @counted _ a r mem inside at_ empty got count changes =>
    have same : ∀ p, Watched p → p ≠ a → p ≠ r.2 → w' (base + p) = w (base + p) := by
      intro p watched other apart
      apply changes
      omega
    have place : (surfixEntry field.1 field.2).place = some a := by
      rw [at_]
      rfl
    refine ⟨filled.ids_put place got fun p place other =>
      same p (.inl place) other (counter_unplaced mem place),
      filled.count_put mem inside empty (got ▸ nonzero) count same, ?_⟩
    intro ask asked p c counted
    rcases List.mem_append.mp asked with asked | asked
    · obtain ⟨s, counter, rfl, low, high⟩ := counted_place counted
      by_cases new : p = a
      · rw [new, got]
        exact nonzero
      · have at_p : SignalPlace p := counters_place counter low high
        rw [same p (.inl at_p) new (counter_unplaced mem at_p)]
        exact filled.asked ask asked p s.2 counted
    · cases List.mem_singleton.mp asked
      cases at_.symm.trans counted
      rw [got]
      exact nonzero

/-- The arrays of the battery are for fields that are counted. -/
theorem counted_of_place {r : Int × Int} (mem : r ∈ counters) (low : r.1 ≤ a) (high : a < r.1 + 800)
    (place : (surfixEntry field.1 field.2).place = some a) :
    surfixEntry field.1 field.2 = .counted a r.2 := by
  have apart := surfixEntry_apart field.1 field.2
  have battery : battCell ≤ a ∧ a < warn := by
    simp only [battCell, warn]
    rcases counters_cases mem with rfl | rfl
    · dsimp only at low high
      omega
    · dsimp only at low high
      omega
  cases entry : surfixEntry field.1 field.2 with
  | refused =>
    rw [entry] at place
    cases place
  | plain p =>
    rw [entry] at place apart
    cases place
    exact absurd battery (by rcases apart with below | above <;> omega)
  | motor p number =>
    rw [entry] at place apart
    cases place
    have below : a < battCell := lt_trans (show a < motorCnt from apart) (by decide)
    exact absurd battery.1 (not_le.mpr below)
  | fuelTemp p =>
    rw [entry] at place
    obtain ⟨inTable, same⟩ := Option.ite_none_right_eq_some.mp place
    cases same
    have below : a < battCell := lt_trans inTable.2 (by decide)
    exact absurd battery.1 (not_le.mpr below)
  | counted p c =>
    obtain ⟨s, counter, rfl, low', high'⟩ := counted_place entry
    rw [entry] at place
    cases place
    have same : s = r := by
      rcases counters_cases mem with rfl | rfl
      all_goals
        rcases counters_cases counter with rfl | rfl
        all_goals
          dsimp only at low high low' high'
          first | rfl | omega
    rw [same]

/-- What is counted is all there, if the signals leave no gap. -/
theorem Filled.allDefined (filled : Filled base asks w) (gapless : Gapless (asks.map (·.2)))
    {r : Int × Int} (mem : r ∈ counters) :
    allDefined w (base + r.1) (base + r.2) = true := by
  have count : (w (base + r.2)).toNat = filledCount w (base + r.1) := by
    have small := filledCount_le w (base + r.1)
    rw [filled.count r mem, UInt32.toNat_ofNat_of_lt' (by simp only [UInt32.size]; omega)]
  unfold Gb32960.allDefined
  rw [count]
  apply List.all_eq_true.mpr
  intro i below
  have below := List.mem_range.mp below
  apply decide_eq_true
  apply filled_of_lt_count below
  intro j small before nonzero
  rw [Int.add_assoc] at nonzero ⊢
  obtain ⟨id, field, asked, place, -⟩ :=
    filled.ids _ (counters_place mem (by omega) (by omega)) nonzero
  -- a filled place was declared, so that those before it were
  have declared := counted_of_place mem (by omega) (by omega) place
  obtain ⟨field', asked', first⟩ := gapless r mem i j before
    ⟨field, List.mem_map.mpr ⟨(id, field), asked, rfl⟩, declared⟩
  obtain ⟨ask, mem', rfl⟩ := List.mem_map.mp asked'
  exact filled.asked ask mem' _ _ first

end Gb32960
