import TBoxMpu.Lib.Scanf
import TBoxMpu.Lib.Search

/-!
# The oldest file of a directory

`dsu_file.c` and `log_file_mgr.c`: the search for the file that is deleted next, over what
`readdir` gives. The numbers in the names are the reboot count and an index.

## Main result

`oldFile_chosen`: the first file whose name does not have the form that is looked for is chosen,
for the logs also one with a number above the current one; without such a file, one with the least
numbers in lexicographic order, as long as they fit their places in the key.

## Proof strategy

1. Both searches are one pass that takes the first marked entry, or else one with the least key
2. Below their bounds the numbers are ordered as the keys
-/

namespace OldFile

open Scanf Search

/-- An entry of a directory: what `stat` says of its bare name in the working directory of the
program, its type and size, for a directory what `dir_get_size` says of it, and whether `unlink`
removes it. -/
structure Entry where
  name : List UInt8
  statDir : Bool
  isDir : Bool
  size : Int
  removable : Bool
  dir_stays : removable = true → isDir = false
  deriving DecidableEq

/-- `%u` in 32 bits: `strtoul` ends at its greatest value. -/
def toUnsigned (n : Int) : UInt32 := if n.natAbs < 2 ^ 32 then .ofInt n else 0xFFFFFFFF

/-- The two numbers, if `sscanf` returns 2. -/
def scanned (convert : Int → UInt32) : List Value × Option Stop → Option (UInt32 × UInt32)
  | ([.number reboot, .number tmpIndex], _) => some (convert reboot, convert tmpIndex)
  | _ => none

/-- `%*[^(](%u_%u)%*[^)]` -/
def dsuFormat : List Directive :=
  [.run (· ≠ 40) false, .literal 40, .decimal true, .literal 95, .decimal true, .literal 41,
    .run (· ≠ 41) false]

/-- `log_%d_%d` -/
def logFormat : List Directive :=
  [.literal 108, .literal 111, .literal 103, .literal 95, .decimal true, .literal 95,
    .decimal true]

def dsuNumbers (name : List UInt8) : Option (UInt32 × UInt32) :=
  scanned toUnsigned (scan dsuFormat name)

def logNumbers (name : List UInt8) : Option (UInt32 × UInt32) :=
  scanned Scanf.toUInt32 (scan logFormat name)

/-- `reboot * 10000 + tmpIndex`, in the 32 bits of its operands. -/
def fileKey (numbers : UInt32 × UInt32) : UInt64 := (numbers.1 * 10000 + numbers.2).toUInt64

/-- The loop over the entries, with `x` and `ret`. An entry whose key is `beyond` ends it like one
whose name does not match. -/
def oldLoop (skip : Entry → Bool) (numbers : List UInt8 → Option (UInt32 × UInt32))
    (beyond : UInt64 → Bool) : UInt64 → Option Entry → List Entry → Option Entry
  | _, ret, [] => ret
  | x, ret, file :: rest =>
    if skip file then oldLoop skip numbers beyond x ret rest
    else
      match numbers file.name with
      | none => some file
      | some pair =>
        let y := fileKey pair
        if beyond y then some file
        else if y < x then oldLoop skip numbers beyond y (some file) rest
        else oldLoop skip numbers beyond x ret rest

/-- Directories are left out by what `stat` says of the bare name, and the entries `.` and `..`. -/
def skipDir (file : Entry) : Bool := file.statDir || file.name = [46] || file.name = [46, 46]

/-- The name is part of the path of an open file. -/
def isOpen (exlist : List (List UInt8)) (file : Entry) : Bool :=
  exlist.any fun ex => file.name <:+: ex

/-- `snprintf` into `old_file`. -/
def oldPath (path : List UInt8) (file : Entry) : List UInt8 := (path ++ file.name).take 127

/-- The search of `dsu_find_oldfile`. -/
def dsuOldEntry (exlist : List (List UInt8)) (entries : List Entry) : Option Entry :=
  oldLoop (fun file => skipDir file || isOpen exlist file) dsuNumbers (fun _ => false)
    0xFFFFFFFFFFFFFFFF none entries

/-- The search of `log_find_oldfile`; `cur` is what `log_file_cur_get_num` returns. -/
def logOldEntry (cur : Int32) (entries : List Entry) : Option Entry :=
  oldLoop skipDir logNumbers (fun y => y > cur.toInt64.toUInt64) 0xFFFFFFFFFFFFFFFF none entries

/-- `dsu_find_oldfile`; a directory that cannot be opened has no entries. -/
def dsuFindOldfile (path : List UInt8) (exlist : List (List UInt8)) (dir : Option (List Entry)) :
    Option (List UInt8) :=
  (dir.bind (dsuOldEntry exlist)).map (oldPath (path ++ [47]))

/-- `log_find_oldfile` -/
def logFindOldfile (path : List UInt8) (cur : Int32) (dir : Option (List Entry)) :
    Option (List UInt8) :=
  (dir.bind (logOldEntry cur)).map (oldPath path)

/-! ### One pass -/

/-- An entry that ends the loop. -/
def marked (numbers : List UInt8 → Option (UInt32 × UInt32)) (beyond : UInt64 → Bool)
    (file : Entry) : Bool :=
  (numbers file.name).all fun pair => beyond (fileKey pair)

def keyOf (numbers : List UInt8 → Option (UInt32 × UInt32)) (file : Entry) : Nat :=
  (numbers file.name).elim 0 fun pair => (fileKey pair).toNat

variable {skip : Entry → Bool} {numbers : List UInt8 → Option (UInt32 × UInt32)}
  {beyond : UInt64 → Bool} {entries : List Entry} {file : Entry}

theorem fileKey_lt (pair : UInt32 × UInt32) : fileKey pair < 0xFFFFFFFFFFFFFFFF := by
  rw [UInt64.lt_iff_toNat_lt, fileKey, UInt32.toNat_toUInt64]
  exact Nat.lt_trans (UInt32.toNat_lt _) (by decide)

/-- `x` is the key of the best entry so far, or greater than all keys. -/
def Tracks (numbers : List UInt8 → Option (UInt32 × UInt32)) (x : UInt64) : Option Entry → Prop
  | none => x = 0xFFFFFFFFFFFFFFFF
  | some file => x.toNat = keyOf numbers file

theorem oldLoop_eq {x : UInt64} {ret : Option Entry} (tracks : Tracks numbers x ret) :
    oldLoop skip numbers beyond x ret entries =
      search (marked numbers beyond) (keyOf numbers) ret (entries.filter (!skip ·)) := by
  induction entries generalizing x ret with
  | nil => rfl
  | cons file rest ih =>
    rw [oldLoop]
    by_cases skipped : skip file
    · rw [if_pos skipped, List.filter_cons_of_neg (by simp [skipped]), ih tracks]
    · rw [if_neg skipped, List.filter_cons_of_pos (by simp [skipped]), search]
      cases parsed : numbers file.name with
      | none => simp [marked, parsed]
      | some pair =>
        have mark : marked numbers beyond file = beyond (fileKey pair) := by
          simp [marked, parsed]
        have key : keyOf numbers file = (fileKey pair).toNat := by simp [keyOf, parsed]
        dsimp only
        rw [mark]
        split
        · rfl
        · have better : (fileKey pair < x) ↔
              ret.all (keyOf numbers file < keyOf numbers ·) = true := by
            cases ret with
            | none =>
              have greatest : x = 0xFFFFFFFFFFFFFFFF := tracks
              simp [greatest, fileKey_lt]
            | some best =>
              have same : x.toNat = keyOf numbers best := tracks
              rw [Option.all_some, decide_eq_true_iff, key, ← same, UInt64.lt_iff_toNat_lt]
          by_cases less : fileKey pair < x
          · rw [if_pos less, if_pos (better.mp less)]
            exact ih key.symm
          · rw [if_neg less, if_neg fun all => less (better.mpr all)]
            exact ih tracks

/-! ### Keys and numbers -/

/-- The index has its four digits, and the reboot count the places before them. -/
def Small (pair : UInt32 × UInt32) : Prop :=
  pair.2.toNat < 10000 ∧ pair.1.toNat * 10000 + pair.2.toNat < 2 ^ 32

/-- The lexicographic order of reboot count and index. -/
def NotYounger (a b : UInt32 × UInt32) : Prop := a.1 < b.1 ∨ a.1 = b.1 ∧ a.2 ≤ b.2

theorem fileKey_small {pair : UInt32 × UInt32} (small : Small pair) :
    (fileKey pair).toNat = pair.1.toNat * 10000 + pair.2.toNat := by
  have fits := small.2
  rw [fileKey, UInt32.toNat_toUInt64, UInt32.toNat_add, UInt32.toNat_mul,
    show (10000 : UInt32).toNat = 10000 from rfl]
  omega

theorem notYounger_of_key {a b : UInt32 × UInt32} (small_a : Small a) (small_b : Small b)
    (le : (fileKey a).toNat ≤ (fileKey b).toNat) : NotYounger a b := by
  rw [fileKey_small small_a, fileKey_small small_b] at le
  have index_a := small_a.1
  have index_b := small_b.1
  rcases Nat.lt_trichotomy a.1.toNat b.1.toNat with less | same | greater
  · exact .inl (UInt32.lt_iff_toNat_lt.mpr less)
  · exact .inr ⟨UInt32.toNat.inj same, UInt32.le_iff_toNat_le.mpr (by omega)⟩
  · omega

/-- The names that are written have the form that is looked for. -/
theorem dsuNumbers_written {stamp reboot index ext : List UInt8} (stamped : stamp ≠ [])
    (clean : 40 ∉ stamp) (some : reboot ≠ [] ∧ index ≠ [])
    (digits : ∀ c ∈ reboot ++ index, isDigit c) :
    dsuNumbers (stamp ++ 40 :: (reboot ++ 95 :: (index ++ 41 :: ext))) =
      Option.some (toUnsigned (digitsValue reboot), toUnsigned (digitsValue index)) := by
  have before : ∀ c ∈ stamp, (c ≠ 40 : Bool) := fun c mem =>
    decide_eq_true fun eq => clean (eq ▸ mem)
  unfold dsuNumbers dsuFormat
  rw [scan_skip stamped before rfl, scan_literal,
    scan_decimal some.1 (fun c mem => digits c (List.mem_append_left _ mem)) rfl, scan_literal,
    scan_decimal some.2 (fun c mem => digits c (List.mem_append_right _ mem)) rfl, scan_literal,
    scan_silent (by simp [Directive.stores])]
  rfl

/-! ### The file chosen -/

/-- What an entry must be to be chosen from the eligible ones: the first one that is marked; if
there is none, and the numbers of all fit their places, one with the least numbers. -/
structure Oldest (numbers : List UInt8 → Option (UInt32 × UInt32)) (beyond : UInt64 → Bool)
    (eligible : List Entry) (chosen : Option Entry) : Prop where
  first : ∀ file, eligible.find? (marked numbers beyond) = some file → chosen = some file
  nothing : eligible = [] → chosen = none
  least : (∀ file ∈ eligible, ∃ pair, numbers file.name = some pair ∧ Small pair ∧
      beyond (fileKey pair) = false) → eligible ≠ [] →
    ∃ file ∈ eligible, chosen = some file ∧ ∃ pair, numbers file.name = some pair ∧
      ∀ other ∈ eligible, ∀ pair', numbers other.name = some pair' → NotYounger pair pair'

theorem oldLoop_oldest (skip : Entry → Bool) (numbers : List UInt8 → Option (UInt32 × UInt32))
    (beyond : UInt64 → Bool) (entries : List Entry) :
    Oldest numbers beyond (entries.filter (!skip ·))
      (oldLoop skip numbers beyond 0xFFFFFFFFFFFFFFFF none entries) := by
  have start : Tracks numbers 0xFFFFFFFFFFFFFFFF none := rfl
  rw [oldLoop_eq start]
  refine ⟨fun file => search_marked, fun none => ?_, fun parsed some => ?_⟩
  · rw [none]
    rfl
  · have unmarked : ∀ d ∈ entries.filter (!skip ·), ¬marked numbers beyond d := by
      intro d mem
      obtain ⟨pair, number, -, low⟩ := parsed d mem
      simp [marked, number, low]
    rcases search_none_least unmarked with none | ⟨file, mem, found, least⟩
    · exact absurd none.1 some
    obtain ⟨pair, number, small, -⟩ := parsed file mem
    refine ⟨file, mem, found, pair, number, fun other mem' pair' number' => ?_⟩
    obtain ⟨pair'', again, small', -⟩ := parsed other mem'
    obtain rfl := Option.some.inj (number'.symm.trans again)
    have le := least other mem'
    rw [keyOf, keyOf, number, number'] at le
    exact notYounger_of_key small small' le

/-- For any directory, any open files and any current number of the logs. -/
theorem oldFile_chosen (exlist : List (List UInt8)) (cur : Int32) (entries : List Entry) :
    Oldest dsuNumbers (fun _ => false)
        (entries.filter fun file => !(skipDir file || isOpen exlist file))
        (dsuOldEntry exlist entries) ∧
      Oldest logNumbers (fun y => y > cur.toInt64.toUInt64)
        (entries.filter fun file => !skipDir file) (logOldEntry cur entries) :=
  ⟨oldLoop_oldest .., oldLoop_oldest ..⟩

/-- A file that can be deleted, with its name. -/
def plainFile (name : String) : Entry := ⟨chars name, false, false, 1, true, fun _ => rfl⟩

theorem other_name_chosen :
    dsuNumbers (plainFile "20200101_080000(1_1).inx").name = some (1, 1) ∧
      dsuNumbers (plainFile "notes").name = none ∧
      dsuOldEntry [] [plainFile "20200101_080000(1_1).inx", plainFile "notes"] =
        some (plainFile "notes") ∧
      logNumbers (plainFile "log_1_1").name = some (1, 1) ∧
      logNumbers (plainFile "notes").name = none ∧
      logOldEntry 20001 [plainFile "log_1_1", plainFile "notes"] = some (plainFile "notes") := by
  decide

end OldFile
