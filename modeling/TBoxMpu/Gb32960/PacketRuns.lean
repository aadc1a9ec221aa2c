import TBoxMpu.Can.MapAgree
import TBoxMpu.Gb32960.PacketBounds

/-!
# Loads and reports

A DBC file fills a `gb_info_t` line by line, and the reports that follow are made from it.

## Main result

`report_contained_iff`: in a run whose steps all meet `Fits`, a load indexes only inside its arrays,
and a report reads only inside them and fits into its buffer, exactly if it meets `Fits` itself.

## Proof strategy

The counts of the battery are those of the places filled, so that the arrays bound them; a call
leaves the statics at zero, where the next one begins.
-/

namespace Gb32960.Packet

open Can Checked Runs

/-! ### What a line indexes -/

/-- The arrays that a suffix is stored through: each index with the length of its array. -/
def surfixIndices (gbtype gbindex : UInt32) : List (UInt32 × UInt32) :=
  match gbtype.toNat with
  | 0x01 => [(gbindex, 16)]
  | 0x02 => [(gbindex >>> 8, 4), (gbindex &&& 0xff, 8)]
  | 0x0A => if gbindex ≥ 0x100 then [(gbindex - 0x100, 200)] else [(gbindex &&& 0xf, 16)]
  | 0x04 => [(gbindex, 4)]
  | 0x06 => [(gbindex, 16)]
  | 0x07 => [(gbindex >>> 8, 4), (gbindex &&& 0xff, 32)]
  | 0x08 =>
    if gbindex &&& 0x3ff = 0x3fe ∨ gbindex &&& 0x3ff = 0x3ff then []
    else [(gbindex &&& 0x3ff, 800)]
  | 0x09 => [(gbindex &&& 0xff, 800)]
  | _ => []

def defineIndices : GbDefine → List (UInt32 × UInt32)
  | .vehiType _ => []
  | .hvdcdcState i _ => [(i, 8)]
  | .motState m i _ => [(m, 4), (i, 256)]
  | .enginState i _ | .vehiState i _ | .vehiMode i _ | .chgState i _ | .dcdcState i _
  | .shift i _ => [(i, 256)]

/-- A suffix that is not refused is stored inside its arrays. -/
def SurfixInside (gbtype gbindex : UInt32) : Prop :=
  surfixEntry gbtype gbindex ≠ .refused → ∀ p ∈ surfixIndices gbtype gbindex, p.1 < p.2

theorem boundedEntry_stored {array : Int} {size i : UInt32}
    (stored : boundedEntry array size i ≠ .refused) : i < size := by
  unfold boundedEntry at stored
  split at stored
  · exact absurd rfl stored
  next small => exact UInt32.not_le.mp small

theorem boundedEntry_inTable {array : Int} {size i : UInt32} :
    (boundedEntry array size i).InTable := by
  unfold boundedEntry
  split <;> trivial

/-- An entry of an array of `n` arrays, for the indices that are compared with their lengths. -/
theorem stored_of_compared {level index n size : UInt32} {entry : Entry}
    (stored : (if level ≥ n then .refused else if index ≥ size then .refused else entry) ≠
      Entry.refused) : level < n ∧ index < size := by
  split at stored
  · exact absurd rfl stored
  next low =>
    split at stored
    · exact absurd rfl stored
    next small => exact ⟨UInt32.not_le.mp low, UInt32.not_le.mp small⟩

theorem battVoltEntry_stored {i : UInt32} (stored : battVoltEntry i ≠ .refused)
    (cell : ¬ (i &&& 0x3ff = 0x3fe ∨ i &&& 0x3ff = 0x3ff)) : i &&& 0x3ff < 800 := by
  rw [not_or] at cell
  unfold battVoltEntry at stored
  rw [if_neg cell.1, if_neg cell.2] at stored
  exact (stored_of_compared stored).2

/-- A fuel-cell temperature is in its array exactly if its index is. -/
theorem fuelTemp_inside (i : UInt32) (temp : i ≥ 0x100) :
    i - 0x100 < 200 ↔ (fuelcellEntry i).InTable := by
  have low : 0x100 ≤ i.toNat := UInt32.le_iff_toNat_le.mp temp
  have index : (i - 0x100).toNat = i.toNat - 0x100 := UInt32.toNat_sub_of_le _ _ temp
  have two : (200 : UInt32).toNat = 200 := rfl
  rw [fuelcellEntry, if_pos temp]
  unfold Entry.InTable offset
  rw [UInt32.lt_iff_toNat_lt, index, two]
  simp only [fuelTemp, fuelTempCnt]
  have small := i.toNat_lt
  split <;> omega

theorem surfixInside_iff (gbtype gbindex : UInt32) :
    SurfixInside gbtype gbindex ↔ (surfixEntry gbtype gbindex).InTable := by
  unfold SurfixInside surfixEntry surfixIndices
  generalize gbtype.toNat = kind
  split
  next =>
    exact iff_of_true (by simpa using boundedEntry_stored) boundedEntry_inTable
  next =>
    refine iff_of_true (fun stored => by simpa using stored_of_compared stored) ?_
    unfold motorEntry
    split_ifs <;> trivial
  next =>
    by_cases temp : gbindex ≥ 0x100
    · have named : fuelcellEntry gbindex ≠ .refused := by
        rw [fuelcellEntry, if_pos temp]
        rintro ⟨⟩
      rw [if_pos temp, ← fuelTemp_inside gbindex temp]
      simp [named]
    · rw [if_neg temp, fuelcellEntry, if_neg temp]
      refine iff_of_true (fun stored => ?_) boundedEntry_inTable
      simpa using UInt32.lt_trans (boundedEntry_stored stored) (show (10 : UInt32) < 16 by decide)
  next =>
    exact iff_of_true (by simpa using boundedEntry_stored) boundedEntry_inTable
  next =>
    exact iff_of_true (by simpa using boundedEntry_stored) boundedEntry_inTable
  next =>
    refine iff_of_true (fun stored => by simpa using stored_of_compared stored) ?_
    unfold warnEntry
    split_ifs <;> trivial
  next =>
    refine iff_of_true (fun stored => ?_) ?_
    · by_cases cell : gbindex &&& 0x3ff = 0x3fe ∨ gbindex &&& 0x3ff = 0x3ff
      · simp only [if_pos cell]
        exact fun _ mem => absurd mem List.not_mem_nil
      · simp only [if_neg cell]
        simpa using battVoltEntry_stored stored cell
    · unfold battVoltEntry
      split_ifs <;> trivial
  next =>
    refine iff_of_true (fun stored => by simpa using (stored_of_compared stored).2) ?_
    unfold battTempEntry
    split_ifs <;> trivial
  · exact iff_of_true (fun stored => absurd rfl stored) trivial

theorem defineInside_iff {d : GbDefine} (range : d.InRange) :
    (∀ p ∈ defineIndices d, p.1 < p.2) ↔ d.InTable := by
  cases d with
  | motState m i st => simp [defineIndices, GbDefine.InTable, range.1]
  | _ => simp [defineIndices, GbDefine.InTable]

/-! ### The count of the motors -/

/-- Only a motor's signal changes how many motors there are, and to no more than four. -/
def Entry.KeepsMotors : Entry → Prop
  | .refused | .fuelTemp _ => True
  | .plain a => a ≠ motorCnt
  | .motor a number => a ≠ motorCnt ∧ number < 4
  | .counted a c => a ≠ motorCnt ∧ c ≠ motorCnt

theorem boundedEntry_keepsMotors {array : Int} {size i : UInt32} (small : size.toNat ≤ 800)
    (apart : array + size.toNat ≤ motorCnt ∨ motorCnt < array) :
    Entry.KeepsMotors (boundedEntry array size i) := by
  unfold boundedEntry
  split
  · trivial
  next fits =>
    obtain ⟨lower, upper⟩ := offset_lt fits small
    show array + offset i ≠ motorCnt
    omega

theorem counted_keepsMotors {a c : Int} (apart : (Entry.counted a c).Apart) :
    Entry.KeepsMotors (.counted a c) := by
  obtain ⟨r, mem, rfl, low, -⟩ := apart
  rcases counters_cases mem with rfl | rfl
  · exact ⟨by simp only [motorCnt]; omega, by decide⟩
  · exact ⟨by simp only [motorCnt]; omega, by decide⟩

theorem motorEntry_keepsMotors (i : UInt32) : Entry.KeepsMotors (motorEntry i) := by
  unfold motorEntry
  split
  · trivial
  next number =>
    split
    · trivial
    next place =>
      have m := offset_lt number (by decide)
      have k := offset_lt place (by decide)
      have four : (4 : UInt32).toNat = 4 := rfl
      have eight : (8 : UInt32).toNat = 8 := rfl
      refine ⟨?_, UInt32.not_le.mp number⟩
      simp only [motor, motorCnt]
      omega

theorem warnEntry_keepsMotors (i : UInt32) : Entry.KeepsMotors (warnEntry i) := by
  unfold warnEntry
  split
  · trivial
  next level =>
    split
    · trivial
    next number =>
      have l := offset_lt level (by decide)
      have k := offset_lt number (by decide)
      show warn + 32 * offset (i >>> 8) + offset (i &&& 0xff) ≠ motorCnt
      simp only [warn, motorCnt]
      omega

theorem battVoltEntry_keepsMotors (i : UInt32) : Entry.KeepsMotors (battVoltEntry i) := by
  have apart := battVoltEntry_apart i
  unfold battVoltEntry at *
  split_ifs at *
  · trivial
  · exact (by decide : battVoltage ≠ motorCnt)
  · exact (by decide : battCurrent ≠ motorCnt)
  · trivial
  · exact counted_keepsMotors apart

theorem battTempEntry_keepsMotors (i : UInt32) : Entry.KeepsMotors (battTempEntry i) := by
  have apart := battTempEntry_apart i
  unfold battTempEntry at *
  split_ifs at *
  · trivial
  · trivial
  · exact counted_keepsMotors apart

theorem surfixEntry_keepsMotors (gbtype gbindex : UInt32) :
    Entry.KeepsMotors (surfixEntry gbtype gbindex) := by
  unfold surfixEntry
  split
  · exact boundedEntry_keepsMotors (by decide) (by decide)
  · exact motorEntry_keepsMotors gbindex
  · unfold fuelcellEntry
    split
    · trivial
    · exact boundedEntry_keepsMotors (by decide) (by decide)
  · exact boundedEntry_keepsMotors (by decide) (by decide)
  · exact boundedEntry_keepsMotors (by decide) (by decide)
  · exact warnEntry_keepsMotors gbindex
  · exact battVoltEntry_keepsMotors gbindex
  · exact battTempEntry_keepsMotors gbindex
  · trivial

variable {b : Bool} {id : Nat} {field : UInt32 × UInt32} {w w' : Words} {base : Int}

theorem gbDataParseSurfix_motors (inTable : (surfixEntry field.1 field.2).InTable)
    (few : (w (base + motorCnt)).toNat ≤ 4) (h : gbDataParseSurfix base id field w = some w') :
    (w' (base + motorCnt)).toNat ≤ 4 := by
  have keeps := surfixEntry_keepsMotors field.1 field.2
  unfold gbDataParseSurfix at h
  -- a word that is not the count
  have other : ∀ {a : Int} {v : UInt32} {u u' : Words}, a ≠ motorCnt →
      poke (base + a) v u = some u' → u' (base + motorCnt) = u (base + motorCnt) :=
    fun apart done => poke_changes done _ (by omega)
  generalize surfixEntry field.1 field.2 = entry at *
  cases entry with
  | refused =>
    cases h
    exact few
  | plain a =>
    rw [other keeps h]
    exact few
  | motor a number =>
    obtain ⟨w₁, first, h⟩ := Option.bind_eq_some_iff.mp h
    have kept := other keeps.1 first
    split at h
    · rw [poke_same h, UInt32.toNat_add]
      have below : number.toNat < 4 := UInt32.lt_iff_toNat_lt.mp keeps.2
      have one : (1 : UInt32).toNat = 1 := rfl
      omega
    · cases h
      rw [kept]
      exact few
  | fuelTemp a =>
    obtain ⟨w₁, first, h⟩ := Option.bind_eq_some_iff.mp h
    have above : a ≠ motorCnt := by
      have low := inTable.1
      simp only [fuelTemp, motorCnt] at low ⊢
      omega
    rw [other above h, other (by decide) first]
    exact few
  | counted a c =>
    dsimp only at h
    split at h
    · obtain ⟨w₁, first, h⟩ := Option.bind_eq_some_iff.mp h
      rw [other keeps.2 h, other keeps.1 first]
      exact few
    · cases h
      exact few

/-! ### The count of the temperatures -/

theorem boundedEntry_uncounted {array a c : Int} {size i : UInt32} :
    boundedEntry array size i ≠ .counted a c := by
  unfold boundedEntry
  split <;> nofun

/-- A temperature's number has one byte. -/
theorem surfixEntry_counted {gbtype gbindex : UInt32} {a c : Int}
    (is : surfixEntry gbtype gbindex = .counted a c) : a < battTemp + 256 := by
  unfold surfixEntry at is
  split at is
  · exact absurd is boundedEntry_uncounted
  · unfold motorEntry at is
    split_ifs at is
  · unfold fuelcellEntry at is
    split at is
    · cases is
    · exact absurd is boundedEntry_uncounted
  · exact absurd is boundedEntry_uncounted
  · exact absurd is boundedEntry_uncounted
  · unfold warnEntry at is
    split_ifs at is
  · unfold battVoltEntry at is
    split_ifs at is with low _ _ many
    cases is
    have index := offset_lt many (by decide)
    have most : (800 : UInt32).toNat = 800 := rfl
    simp only [battCell, battTemp]
    omega
  · unfold battTempEntry at is
    split_ifs at is with low many
    cases is
    have byte : (gbindex &&& 0xff).toNat < 256 := by
      rw [UInt32.toNat_and]
      exact Nat.lt_of_le_of_lt Nat.and_le_right (by decide)
    unfold offset
    rw [if_pos (by omega)]
    omega
  · cases is

theorem temps_le {asks : List (Nat × UInt32 × UInt32)} (filled : Filled base asks w) :
    filledCount w (base + battTemp) ≤ 256 := by
  have few : ((Finset.range 800).filter fun i => w (base + battTemp + (i : Nat)) ≠ 0) ⊆
      Finset.range 256 := by
    intro i mem
    obtain ⟨inside, there⟩ := Finset.mem_filter.mp mem
    rw [Finset.mem_range] at inside ⊢
    have place : SignalPlace (battTemp + i) :=
      counters_place (r := (battTemp, battTempCnt)) (by decide) (by omega) (by omega)
    rw [Int.add_assoc] at there
    obtain ⟨id, field, -, at_, -⟩ := filled.ids _ place there
    have apart := surfixEntry_apart field.1 field.2
    cases is : surfixEntry field.1 field.2 with
    | refused => exact nomatch is ▸ at_
    | plain a =>
      rw [is] at at_ apart
      obtain rfl := Option.some.inj at_
      have : battTemp + (i : Int) < battCell ∨ warn ≤ battTemp + i := apart
      simp only [battTemp, battCell, warn] at this
      omega
    | motor a number =>
      rw [is] at at_ apart
      obtain rfl := Option.some.inj at_
      have : battTemp + (i : Int) < motorCnt := apart
      simp only [battTemp, motorCnt] at this
      omega
    | fuelTemp a =>
      rw [is] at at_
      obtain ⟨inTable, same⟩ := Option.ite_none_right_eq_some.mp at_
      obtain rfl := Option.some.inj same
      have := inTable.2
      simp only [battTemp, fuelTempCnt] at this
      omega
    | counted a c =>
      rw [is] at at_
      obtain rfl := Option.some.inj at_
      have := surfixEntry_counted is
      omega
  exact (Finset.card_le_card few).trans (Finset.card_range 256).le

/-! ### Loads and reports -/

/-- A line of a DBC file, as the GB32960 layer is given it: a definition, or the suffix of a signal
with the signal's id, which is one above its place. -/
inductive GbLine
  | define (line : Bytes)
  | surfix (place : Fin dbcMaxSignal) (sfx : Bytes)

def GbLine.event : GbLine → DbcEvent
  | .define line => .define line
  | .surfix place sfx => .surfix (place + 1) sfx

/-- The events of one load. -/
def loadEvents (fpath : Bytes) (lines : List GbLine) (ret : Int32) : List DbcEvent :=
  .reload fpath :: lines.map GbLine.event ++ [.finished ret]

structure GbReporter where
  gb : GbInfo
  statics : GbStatics

/-- A load with its result, or a call of `gb_data_save_realtm` or `gb_data_save_error`. -/
inductive GbStep (F : Type)
  | load (fpath : Bytes) (lines : List GbLine) (ret : Int32)
  | report (readings : Nat → GbReading F)

variable {F : Type} (fl : Floating F) (scan : Scan F) (defs : DefineScan)

/-- The packets of a call on the active block. -/
def gbReport (s : GbReporter) (b : Bool) (readings : Nat → GbReading F) :
    Except Outside (List (List UInt8) × GbStatics) :=
  saveGroups fl s.gb.words (blockBase b) readings s.statics 0
    (groups s.gb.words (blockBase b)).toNat

/-- There are no reports before a DBC file is loaded. -/
def gbStep (s : GbReporter) : GbStep F → Option GbReporter
  | .load fpath lines ret =>
    (gbRun scan defs (loadEvents fpath lines ret) s.gb).map fun gb => { s with gb }
  | .report readings =>
    s.gb.inf.bind fun b =>
      (gbReport fl s b readings).toOption.map fun saved => { s with statics := saved.2 }

/-- Nothing is loaded, and the statics are zero. -/
structure GbReporterStart (s : GbReporter) : Prop where
  inf : s.gb.inf = none
  run : s.statics.run = ⟨0, 0⟩

/-- The line is stored inside its arrays. -/
def GbLine.Inside (scan : Scan F) (defs : DefineScan) : GbLine → Prop
  | .define line => ∀ d, defs.define line = some d → ∀ p ∈ defineIndices d, p.1 < p.2
  | .surfix _ sfx => ∀ field, scan.gbField sfx = some field → SurfixInside field.1 field.2

/-- A load stores inside the arrays. A report reads inside them, and each of its packets fits into
its buffer. -/
def Contained (s : GbReporter) : GbStep F → Prop
  | .load _ lines _ => ∀ line ∈ lines, line.Inside scan defs
  | .report readings => ∀ b, s.gb.inf = some b →
    ∃ packets statics, gbReport fl s b readings = .ok (packets, statics) ∧
      ∀ p ∈ packets, p.length ≤ dataSize

/-- The index of a fuel-cell temperature is one of 0x100 to 0x1c7, that of a state of the high
voltage DC-DC converter below 8, and that of another state below 256. -/
def GbLine.InTable (scan : Scan F) (defs : DefineScan) : GbLine → Prop
  | .define line => ∀ d, defs.define line = some d → d.InTable
  | .surfix _ sfx => ∀ field, scan.gbField sfx = some field →
    (surfixEntry field.1 field.2).InTable

/-- The lines of a load have their indices in the tables, the readings of a report fit. -/
def Fits (s : GbReporter) : GbStep F → Prop
  | .load _ lines _ => ∀ line ∈ lines, line.InTable scan defs
  | .report readings => ∀ b, s.gb.inf = some b →
    ∀ i < (groups s.gb.words (blockBase b)).toNat,
      ReadingFits fl s.gb.words (blockBase b) (readings i)

/-! ### What a run preserves -/

/-- The block was filled by a load, and its motors are counted. -/
structure BlockFilled (b : Bool) (w : Words) : Prop where
  filled : ∃ asks, Filled (blockBase b) asks w
  motors : (w (blockBase b + motorCnt)).toNat ≤ 4

structure GbInv (s : GbReporter) : Prop where
  active : ∀ b, s.gb.inf = some b → BlockFilled b s.gb.words
  run : s.statics.run = ⟨0, 0⟩

variable {gb g : GbInfo} {lines : List GbLine} {asks : List (Nat × UInt32 × UInt32)}

theorem BlockFilled.count (block : BlockFilled b w) {r : Int × Int} (mem : r ∈ counters) :
    (w (blockBase b + r.2)).toNat = filledCount w (blockBase b + r.1) := by
  obtain ⟨asks, filled⟩ := block.filled
  have bound := filledCount_le w (blockBase b + r.1)
  rw [filled.count r mem, UInt32.toNat_ofNat_of_lt' (by simp only [UInt32.size]; omega)]

theorem BlockFilled.counted (block : BlockFilled b w) : Counted w (blockBase b) := by
  obtain ⟨asks, filled⟩ := block.filled
  refine ⟨block.motors, ?_, ?_⟩
  · rw [block.count (r := (battCell, battCellCnt)) (by decide)]
    exact filledCount_le _ _
  · rw [block.count (r := (battTemp, battTempCnt)) (by decide)]
    exact temps_le filled

theorem BlockFilled.of_same (block : BlockFilled b w)
    (same : ∀ a, 0 ≤ a → a < infoNext → w' (blockBase b + a) = w (blockBase b + a)) :
    BlockFilled b w' := by
  obtain ⟨asks, filled⟩ := block.filled
  refine ⟨⟨asks, filled.of_same fun a watched => ?_⟩, ?_⟩
  · have ranges := watched.ranges
    have next : infoNext = 2663 := rfl
    exact same a (by omega) (by omega)
  · rw [same motorCnt (by decide) (by decide)]
    exact block.motors

theorem lines_reading (lines : List GbLine) : ∀ evt ∈ lines.map GbLine.event, evt.Reading := by
  intro evt mem
  obtain ⟨line, -, rfl⟩ := List.mem_map.mp mem
  cases line <;> trivial

/-- Indices in the tables are what the map of the signals asks for. -/
theorem lines_tame (inTable : ∀ line ∈ lines, line.InTable scan defs) :
    Tame scan defs (lines.map GbLine.event) := by
  constructor
  · rintro ⟨id, field⟩ asked
    obtain ⟨sfx, mem, given⟩ := mem_gbAsks.mp asked
    obtain ⟨line, at_, is⟩ := List.mem_map.mp mem
    cases line with
    | define line => exact nomatch is
    | surfix place sfx' =>
      cases is
      refine ⟨?_, inTable _ at_ field given⟩
      have small := place.isLt
      intro zero
      have toNat := congrArg UInt32.toNat zero
      rw [UInt32.toNat_ofNat_of_lt' (by simp only [UInt32.size, dbcMaxSignal] at *; omega)] at toNat
      exact nomatch toNat
  · intro line mem d given
    obtain ⟨l, at_, is⟩ := List.mem_map.mp mem
    cases l with
    | define line' =>
      cases is
      exact inTable _ at_ d given
    | surfix place sfx => exact nomatch is

/-- One line keeps the motors counted. -/
theorem gbDataDbcCb_motors {evt : DbcEvent} (loading : gb.rld = some b) (reading : evt.Reading)
    (tame : Tame scan defs [evt]) (few : (gb.words (blockBase b + motorCnt)).toNat ≤ 4)
    (h : gbDataDbcCb scan defs evt gb = some g) : (g.words (blockBase b + motorCnt)).toNat ≤ 4 := by
  unfold gbDataDbcCb at h
  cases evt with
  | reload fpath => exact reading.elim
  | finished ret => exact reading.elim
  | define line =>
    dsimp only at h
    rw [loading] at h
    cases read : defs.define line with
    | none =>
      rw [read] at h
      cases h
      exact few
    | some d =>
      rw [read] at h
      obtain ⟨words, done, rfl⟩ := Option.map_eq_some_iff.mp h
      have inTable := tame.defines line (List.mem_singleton.mpr rfl) d read
      dsimp only
      rw [gbDataParseDefine_stateless (a := motorCnt) (defs.inRange line d read) inTable done
        (by simp only [motorCnt]; omega)]
      exact few
  | surfix id sfx =>
    dsimp only at h
    rw [loading] at h
    cases given : scan.gbField sfx with
    | none =>
      rw [given] at h
      cases h
      exact few
    | some field =>
      have asked := tame.asks (id, field)
        (mem_gbAsks.mpr ⟨sfx, List.mem_singleton.mpr rfl, given⟩)
      rw [given] at h
      obtain ⟨words, done, rfl⟩ := Option.map_eq_some_iff.mp h
      exact gbDataParseSurfix_motors asked.2 few done

theorem gbRun_motors {evts : List DbcEvent} (loads : Loads b asks gb)
    (reading : ∀ evt ∈ evts, evt.Reading) (tame : Tame scan defs evts)
    (few : (gb.words (blockBase b + motorCnt)).toNat ≤ 4)
    (h : gbRun scan defs evts gb = some g) : (g.words (blockBase b + motorCnt)).toNat ≤ 4 := by
  induction evts generalizing asks gb with
  | nil =>
    cases h
    exact few
  | cons evt rest ih =>
    rw [gbRun_cons] at h
    obtain ⟨m, first, h⟩ := Option.bind_eq_some_iff.mp h
    obtain ⟨now, later⟩ := tame.of_cons
    have read := reading evt List.mem_cons_self
    obtain ⟨-, loads'⟩ := gbDataDbcCb_loads loads read now first
    exact ih loads' (fun e mem => reading e (List.mem_cons_of_mem _ mem)) later
      (gbDataDbcCb_motors scan defs loads.rld read now few first) h

/-- What lines with indices in the tables reach. -/
theorem gbRun_tame {evts : List DbcEvent} (filling : gb.Filling)
    (reading : ∀ evt ∈ evts, evt.Reading) (tame : Tame scan defs evts)
    (h : gbRun scan defs evts gb = some g) :
    ChangesOnly (InBlock (spareOf gb.inf)) gb.words g.words := by
  have table : ∀ {id sfx field}, DbcEvent.surfix id sfx ∈ evts → scan.gbField sfx = some field →
      (surfixEntry field.1 field.2).InTable :=
    fun mem given => (tame.asks (_, _) (mem_gbAsks.mpr ⟨_, mem, given⟩)).2
  have inside : ∀ {a : Int} {field : UInt32 × UInt32}, (surfixEntry field.1 field.2).InTable →
      surfixEntry field.1 field.2 = .fuelTemp a →
        InBlock (spareOf gb.inf) (blockBase (spareOf gb.inf) + a) := by
    intro a field inTable at_
    rw [at_] at inTable
    have : fuelTemp ≤ a ∧ a < fuelTempCnt := inTable
    simp only [fuelTemp, fuelTempCnt] at this
    exact InBlock.add (by omega) (by simp only [infoNext]; omega)
  have failing : ∀ evt ∈ evts, evt ≠ .finished 0 := by
    rintro evt mem rfl
    exact reading _ mem
  have reach : ∀ evt ∈ evts, Reaches scan (spareOf gb.inf) evt := by
    rintro evt mem id sfx field a rfl given at_
    exact writable_of_inBlock (inside (table mem given) at_)
  obtain ⟨g', run, -, changes⟩ : ∃ g', gbRun scan defs evts gb = some g' ∧ _ :=
    gbRun_changes filling failing reach
  obtain rfl := Option.some.inj (h.symm.trans run)
  refine changes.weaken fun a => ?_
  rintro (own | ⟨evt, mem, id, sfx, field, rfl, given, at_⟩)
  · exact own
  · have here := inside (table mem given) at_
    rwa [show blockBase (spareOf gb.inf) + (a - blockBase (spareOf gb.inf)) = a by omega] at here

/-- `FINISHED` switches to the block that was loaded, or not. -/
theorem gbRun_last {ret : Int32} (loads : Loads b asks gb)
    (h : gbRun scan defs [.finished ret] gb = some g) :
    g.words = gb.words ∧ (g.inf = some b ∨ g.inf = gb.inf) := by
  by_cases good : ret = 0
  · subst good
    obtain ⟨words, inf⟩ := gbRun_finished loads 0 h
    exact ⟨words, inf.imp id And.left⟩
  · rw [gbRun_cons] at h
    obtain ⟨m, first, h⟩ := Option.bind_eq_some_iff.mp h
    cases h
    unfold gbDataDbcCb at first
    dsimp only at first
    rw [loads.rld] at first
    cases (if_pos good).symm.trans first
    exact ⟨rfl, .inr rfl⟩

theorem load_filled {fpath : Bytes} {ret : Int32}
    (active : ∀ b, gb.inf = some b → BlockFilled b gb.words)
    (inTable : ∀ line ∈ lines, line.InTable scan defs)
    (h : gbRun scan defs (loadEvents fpath lines ret) gb = some g) :
    ∀ b, g.inf = some b → BlockFilled b g.words := by
  have whole : gbRun scan defs (lines.map GbLine.event ++ [.finished ret]) (reloaded gb) =
      some g := by
    rw [loadEvents, List.cons_append, gbRun_cons] at h
    exact h
  rw [gbRun_append] at whole
  obtain ⟨m, read, last⟩ := Option.bind_eq_some_iff.mp whole
  have reading := lines_reading lines
  have tame := lines_tame scan defs inTable
  have begun : Loads (spareOf gb.inf) [] (reloaded gb) := ⟨rfl, filled_reload _ _⟩
  have none : ((reloaded gb).words (blockBase (spareOf gb.inf) + motorCnt)).toNat ≤ 4 := by
    have cleared : (reloaded gb).words (blockBase (spareOf gb.inf) + motorCnt) = 0 := by
      unfold reloaded reloadWords
      dsimp only
      rw [if_neg (by simp only [vehiType, motorCnt]; omega),
        if_pos (by simp only [infoNext, motorCnt]; omega)]
    rw [cleared]
    exact Nat.zero_le 4
  obtain ⟨inf, loads⟩ := gbRun_loads begun reading tame read
  have few := gbRun_motors scan defs begun reading tame none read
  have changes := (reloadWords_changes (spareOf gb.inf) gb.words).trans
    (gbRun_tame scan defs (reloaded_filling gb) reading tame read)
  obtain ⟨words, finished⟩ := gbRun_last scan defs loads last
  intro b is
  rw [words]
  rcases finished with new | old
  · obtain rfl := Option.some.inj (new.symm.trans is)
    exact ⟨⟨_, loads.filled⟩, few⟩
  · -- the active block is as it was
    have before : gb.inf = some b := inf.symm.trans (old.symm.trans is)
    refine (active b before).of_same fun a low high => changes _ ?_
    have size : infoSize = 2664 := rfl
    have next : infoNext = 2663 := rfl
    exact outside_of_active before (by omega) (by omega)

/-! ### Runs -/

variable {fl scan defs} {s s' : GbReporter} {readings : Nat → GbReading F}

/-- A call on a filled block, with the statics at zero. -/
theorem gbReport_iff (inv : GbInv s) (active : s.gb.inf = some b) :
    (∃ packets statics, gbReport fl s b readings = .ok (packets, statics) ∧
      ∀ p ∈ packets, p.length ≤ dataSize) ↔
    ∀ i < (groups s.gb.words (blockBase b)).toNat,
      ReadingFits fl s.gb.words (blockBase b) (readings i) := by
  unfold gbReport
  by_cases cells : 0 < (s.gb.words (blockBase b + battCellCnt)).toNat
  · have inside : s.statics.run.start.toNat < (s.gb.words (blockBase b + battCellCnt)).toNat := by
      rw [inv.run]
      exact cells
    rw [saveGroups_iff (inv.active b active).counted inside]
    simp only [Nat.zero_add]
  · -- without cells there are no packets
    have none : (groups s.gb.words (blockBase b)).toNat = 0 := by
      have zero : s.gb.words (blockBase b + battCellCnt) = 0 := UInt32.toNat_inj.mp (by
        rw [Nat.eq_zero_of_not_pos cells]
        rfl)
      rw [groups, zero]
      rfl
    rw [none]
    exact iff_of_true ⟨[], s.statics, rfl, nofun⟩ fun i lt => absurd lt (Nat.not_lt_zero i)

theorem gbStep_inv {step : GbStep F} (inv : GbInv s) (fits : Fits fl scan defs s step)
    (h : gbStep fl scan defs s step = some s') : GbInv s' := by
  cases step with
  | load fpath lines ret =>
    obtain ⟨gb, run, rfl⟩ := Option.map_eq_some_iff.mp h
    exact ⟨load_filled scan defs inv.active fits run, inv.run⟩
  | report readings =>
    obtain ⟨b, active, h⟩ := Option.bind_eq_some_iff.mp h
    obtain ⟨⟨packets, statics⟩, saved, rfl⟩ := Option.map_eq_some_iff.mp h
    have block := inv.active b active
    have ok : gbReport fl s b readings = .ok (packets, statics) := by
      cases result : gbReport fl s b readings with
      | error e => exact nomatch result ▸ saved
      | ok saved' =>
        rw [result] at saved
        exact congrArg Except.ok (Option.some.inj saved)
    refine ⟨inv.active, ?_⟩
    have run := saveGroups_run block.counted (fun j lt => by
      rw [Nat.zero_add]
      exact fits b active j lt) ok
    rw [inv.run] at run
    obtain ⟨asks, filled⟩ := block.filled
    exact run.trans (nextRun_groups (filled.count (battCell, battCellCnt) (by decide)))

theorem lineInside_iff (line : GbLine) : line.Inside scan defs ↔ line.InTable scan defs := by
  cases line with
  | define line =>
    exact forall₂_congr fun d given => defineInside_iff (defs.inRange line d given)
  | surfix place sfx =>
    exact forall₂_congr fun field _ => surfixInside_iff field.1 field.2

/-- After any loads and reports that met the condition, the next one is contained exactly if it
meets it. -/
theorem report_contained_iff
    (reach : Reach GbReporterStart
      (Guarded (Fits fl scan defs) fun s a t => gbStep fl scan defs s a = some t) s)
    (step : GbStep F) : Contained fl scan defs s step ↔ Fits fl scan defs s step := by
  have starts : ∀ s, GbReporterStart s → GbInv s := fun s start =>
    ⟨fun b active => (nomatch start.inf.symm.trans active), start.run⟩
  have kept : ∀ s a t, GbInv s → Guarded (Fits fl scan defs)
      (fun s a t => gbStep fl scan defs s a = some t) s a t → GbInv t :=
    fun _ _ _ inv next => gbStep_inv inv next.1 next.2
  have inv : GbInv s := Reach.invariant starts kept reach
  cases step with
  | load fpath lines ret => exact forall₂_congr fun line _ => lineInside_iff line
  | report readings => exact forall₂_congr fun b active => gbReport_iff inv active

/-! ### Runs to compute with -/

def freshReporter : GbReporter :=
  ⟨⟨fun _ => 0, none, none⟩, ⟨⟨0, 0⟩, 0, 0⟩⟩

/-- Whole numbers in the place of floating point. -/
def wholes : Floating Int where
  ofNat n := n
  add := (· + ·)
  mul := (· * ·)
  lt a b := a < b
  nonzero a := a ≠ 0
  toUInt32 := UInt32.ofInt
  toUInt8 := UInt8.ofInt

/-- The suffix of the first cell, too. -/
def cellScan : Scan Int :=
  { sampleScan with
    gbField := fun sfx =>
      if text "G8000" <+: sfx then some (0x8, 0x000) else sampleScan.gbField sfx }

def cellLoad : GbStep Int := .load [] [.surfix ⟨0, by decide⟩ (text "G8000")] 0

/-- The state after a load with one cell. -/
theorem cellLoad_contained : ∃ s, gbStep wholes cellScan noDefine freshReporter cellLoad = some s ∧
    s.gb.inf = some false ∧ (groups s.gb.words (blockBase false)).toNat = 1 ∧
    ∀ readings, Contained wholes cellScan noDefine s (.report readings) ↔
      Fits wholes cellScan noDefine s (.report readings) := by
  have shows : (gbStep wholes cellScan noDefine freshReporter cellLoad).map (fun s =>
      (s.gb.inf, (groups s.gb.words (blockBase false)).toNat)) = some (some false, 1) := by
    decide
  obtain ⟨s, step, shown⟩ := Option.map_eq_some_iff.mp shows
  obtain ⟨active, one⟩ := Prod.mk.inj shown
  have fits : Fits wholes cellScan noDefine freshReporter cellLoad := by
    intro line mem
    rw [List.mem_singleton.mp mem]
    intro field given
    obtain rfl : (0x8, 0x000) = field := Option.some.inj given
    trivial
  exact ⟨s, step, active, one, fun readings =>
    report_contained_iff (.next cellLoad (.start ⟨rfl, rfl⟩) ⟨fits, step⟩) (.report readings)⟩

/-- The signal of a fuel-cell temperature with the number 2022. -/
theorem fuelTemp_outside :
    ¬ Contained wholes sampleScan noDefine freshReporter
      (.load [] [.surfix ⟨0, by decide⟩ (text "GA8E6")] 0) := by
  intro inside
  have stored := inside _ (List.mem_singleton.mpr rfl) (0xA, 0x8E6) (by decide) (by decide)
  exact absurd (stored (0x7E6, 200) (by decide)) (by decide)

end Gb32960.Packet
