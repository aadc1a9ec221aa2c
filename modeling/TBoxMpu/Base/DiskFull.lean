import TBoxMpu.Base.OldFile
import TBoxMpu.Lib.Cleanup

/-!
# Making room on the disk

`dsu_do_diskfull` and `log_dir_do_full`: the oldest file is deleted until there is room enough.

## Main result

`cleanUp_iff`: a clean-up ends, with a file removed in each of its rounds, exactly if whenever it
looks for a file the path that the search returns is that of a file that can be removed.

## Proof strategy

1. A round removes a file exactly if the path is that of a removable entry; otherwise nothing
   changes
2. With a file less in each round there are not more rounds than files
-/

namespace DiskFull

open OldFile Scanf Cleanup

/-! ### Directories -/

/-- `file_delete`: what `unlink` leaves of the entries in the directory `path`. -/
def fileDelete (path old : List UInt8) (entries : List Entry) : List Entry :=
  entries.filter fun file => !(file.removable && path ++ file.name = old)

/-- `dir_get_size`; the directories are in the sizes of their entries. -/
def dirGetSize (path : List UInt8) : Option (List Entry) → Int32
  | none => -1
  | some entries => entries.foldl (fun size file =>
      if (file.isDir && (file.name = [46] || file.name = [46, 46])) ||
          path.length + file.name.length + 1 ≥ 256 then size
      else size + .ofInt file.size) 0

/-! ### `dsu_do_diskfull` -/

def dsuIwdFilePath : List UInt8 := chars "/media/sdcard/canlog"

def dsuIwdzFilePath : List UInt8 := chars "/media/sdcard/data"

def dsuReserveDiskSize : UInt64 := 20

/-- What `statfs` says of the card. -/
structure StatFs where
  bsize : UInt64
  blocks : UInt64
  bavail : UInt64

/-- The two directories; one that cannot be opened is `none`. -/
structure Disk where
  canlog : Option (List Entry)
  data : Option (List Entry)

/-- The search in the directory that takes too much room. -/
def dsuOldfile (exfile : List (List UInt8)) (diskfs : StatFs) (disk : Disk) :
    Option (List UInt8) :=
  let total := diskfs.blocks * diskfs.bsize
  let folderSize := (dirGetSize dsuIwdFilePath disk.canlog).toInt64.toUInt64
  if folderSize > total / 2 then dsuFindOldfile dsuIwdFilePath exfile disk.canlog
  else dsuFindOldfile dsuIwdzFilePath exfile disk.data

/-- `unlink(NULL)` fails. -/
def Disk.delete (oldfile : Option (List UInt8)) (disk : Disk) : Disk :=
  match oldfile with
  | none => disk
  | some old =>
    ⟨disk.canlog.map (fileDelete (dsuIwdFilePath ++ [47]) old),
      disk.data.map (fileDelete (dsuIwdzFilePath ++ [47]) old)⟩

/-- A round of `dsu_do_diskfull`. -/
def dsuDoDiskfull (exfile : List (List UInt8)) (diskfs : StatFs) (disk : Disk) : Option Disk :=
  let avail := diskfs.bavail * diskfs.bsize
  if avail >>> 20 ≤ dsuReserveDiskSize then some (disk.delete (dsuOldfile exfile diskfs disk))
  else none

/-! ### `log_dir_do_full` -/

def comLogDir : List UInt8 := chars "/media/sdcard/log/"

def logDirMaxSize : UInt64 := 300 * 1024 * 1024

def logDelete (oldfile : Option (List UInt8)) (dir : Option (List Entry)) : Option (List Entry) :=
  match oldfile with
  | none => dir
  | some old => dir.map (fileDelete comLogDir old)

/-- A round of `log_dir_do_full`; there is no reading but the directory itself. -/
def logDirDoFull (cur : Int32) (_ : Unit) (dir : Option (List Entry)) :
    Option (Option (List Entry)) :=
  let folderSize := (dirGetSize comLogDir dir).toInt64.toUInt64
  if folderSize > logDirMaxSize then some (logDelete (logFindOldfile comLogDir cur dir) dir)
  else none

/-! ### What a round removes -/

def entryCount (dir : Option (List Entry)) : Nat := (dir.getD []).length

def Disk.count (disk : Disk) : Nat := entryCount disk.canlog + entryCount disk.data

/-- `old` is the path of an entry that can be removed. -/
def Removable (path old : List UInt8) (dir : Option (List Entry)) : Prop :=
  ∃ file ∈ dir.getD [], file.removable ∧ path ++ file.name = old

variable {path old : List UInt8} {dir : Option (List Entry)} {exfile : List (List UInt8)}

theorem entryCount_delete (path old : List UInt8) (dir : Option (List Entry)) :
    entryCount (dir.map (fileDelete path old)) ≤ entryCount dir ∧
      (entryCount (dir.map (fileDelete path old)) < entryCount dir ↔ Removable path old dir) := by
  cases dir with
  | none => exact ⟨Nat.le_refl _, by simp [entryCount, Removable]⟩
  | some entries =>
    refine ⟨List.length_filter_le .., ?_⟩
    show (fileDelete path old entries).length < entries.length ↔ _
    rw [fileDelete, List.length_filter_lt_length_iff_exists]
    simp [Removable]

/-- The path that the search of a round returns is that of a removable file. -/
def DsuRemoves (exfile : List (List UInt8)) (diskfs : StatFs) (disk : Disk) : Prop :=
  ∃ old, dsuOldfile exfile diskfs disk = some old ∧
    (Removable (dsuIwdFilePath ++ [47]) old disk.canlog ∨
      Removable (dsuIwdzFilePath ++ [47]) old disk.data)

def LogRemoves (cur : Int32) (dir : Option (List Entry)) : Prop :=
  ∃ old, logFindOldfile comLogDir cur dir = some old ∧ Removable comLogDir old dir

theorem dsuDoDiskfull_shrinks (diskfs : StatFs) (disk disk' : Disk)
    (round : dsuDoDiskfull exfile diskfs disk = some disk') :
    disk'.count < disk.count ↔ DsuRemoves exfile diskfs disk := by
  rw [dsuDoDiskfull] at round
  split at round
  · cases round
    unfold DsuRemoves
    cases found : dsuOldfile exfile diskfs disk with
    | none => simp [Disk.delete]
    | some old =>
      obtain ⟨canlog_le, canlog⟩ := entryCount_delete (dsuIwdFilePath ++ [47]) old disk.canlog
      obtain ⟨data_le, data⟩ := entryCount_delete (dsuIwdzFilePath ++ [47]) old disk.data
      simp only [Option.some.injEq, exists_eq_left', ← canlog, ← data, Disk.delete, Disk.count]
      omega
  · cases round

theorem logDirDoFull_shrinks (cur : Int32) (dir dir' : Option (List Entry))
    (round : logDirDoFull cur () dir = some dir') :
    entryCount dir' < entryCount dir ↔ LogRemoves cur dir := by
  rw [logDirDoFull] at round
  split at round
  · cases round
    unfold LogRemoves
    cases found : logFindOldfile comLogDir cur dir with
    | none => simp [logDelete]
    | some old =>
      simp only [Option.some.injEq, exists_eq_left', logDelete]
      exact (entryCount_delete comLogDir old dir).2
  · cases round

/-- For any directories, any readings, any open files and any current number of the logs. The
logs are only cleaned up if their directory is there or could be made. -/
theorem cleanUp_iff (exfile : List (List UInt8)) (readings : Nat → StatFs) (disk : Disk)
    (cur : Int32) (ready : Bool) (dir : Option (List Entry)) :
    (Ends (dsuDoDiskfull exfile) readings (some disk) ∧
        Progresses (dsuDoDiskfull exfile) readings (some disk) Disk.count ↔
      ∀ n disk', before (dsuDoDiskfull exfile) readings (some disk) n = some disk' →
        dsuDoDiskfull exfile (readings n) disk' ≠ none → DsuRemoves exfile (readings n) disk') ∧
    (Ends (logDirDoFull cur) (fun _ => ()) (if ready then some dir else none) ∧
        Progresses (logDirDoFull cur) (fun _ => ()) (if ready then some dir else none)
          entryCount ↔
      ∀ n dir', before (logDirDoFull cur) (fun _ => ()) (if ready then some dir else none) n =
          some dir' →
        logDirDoFull cur () dir' ≠ none → LogRemoves cur dir') :=
  ⟨ends_progresses_iff dsuDoDiskfull_shrinks,
    ends_progresses_iff fun _ => logDirDoFull_shrinks cur⟩

/-- A directory among the logs: it is chosen for its name, and stays. -/
def oldLogs : Entry := ⟨chars "old", false, true, 400 * 1024 * 1024, false, nofun⟩

theorem cleanUp_goes_on :
    ¬Ends (dsuDoDiskfull []) (fun _ => ⟨4096, 1000000, 0⟩) (some ⟨some [], some []⟩) ∧
      ¬Ends (logDirDoFull 10001) (fun _ => ()) (some (some [oldLogs])) :=
  ⟨not_ends rfl, not_ends (by decide)⟩

end DiskFull
