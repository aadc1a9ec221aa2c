import Mathlib.Data.UInt
import TBoxMpu.Lib.Faults

/-!
# Directories that are marked good

`dir.c`: removing a directory, marking it bad and good, and copying into it, over files that are
named by their places in the directory. A file `status` holds the mark.
-/

namespace Dir

open Crash Faults

variable {F : Type} [DecidableEq F]

/-! ### The functions -/

/-- The codes `DIR_*`, `FILE_*`, `DEV_*` and those of `write`, `close` and `pm_send_evt`. -/
inductive ErrCode
  | dirInvalidParameter | dirOpenFailed | dirStatFailed | dirMakeFailed | dirRemoveFailed
  | dirCopyFailed | fileStatFailed | fileMakeFailed | fileSetAttrFailed | fileCopyFailed
  | devFileReadFailed | devFileOpenFailed | devUncompressFailed | devDataCheckFailed
  | devSameVer | devInvalidType | writeFailed | closeFailed | pmSendFailed
  deriving DecidableEq, Repr

/-- An entry that `fts_read` gives: a directory, a file, or what cannot be read. -/
inductive FtsEntry (F : Type)
  | dir
  | file (f : F)
  | error
  deriving DecidableEq

/-- All that `fts_read` gives, and whether it ends with an error. -/
structure FtsRun (F : Type) where
  entries : List (FtsEntry F)
  failed : Bool

/-- The switch of `dir_remove_path`. -/
def dirRemoveEntries (luck : Luck) : List (FtsEntry F) → Fio F ErrCode Unit
  | [] => pure ()
  | .dir :: rest => do
    must luck .dirRemoveFailed id
    dirRemoveEntries luck rest
  | .file f :: rest => do
    must luck .dirRemoveFailed fun files => files.set f none
    dirRemoveEntries luck rest
  | .error :: rest => dirRemoveEntries luck rest

def dirRemovePath (luck : Luck) (run : FtsRun F) : Fio F ErrCode Unit := do
  must luck .dirStatFailed id
  must luck .dirOpenFailed id
  dirRemoveEntries luck run.entries
  if run.failed then throw .dirRemoveFailed else pure ()

/-- `dir_make_path`: no file is made. -/
def dirMakePath (luck : Luck) : Fio F ErrCode Unit := must luck .dirMakeFailed id

/-- `file_write_atomic` -/
def fileWriteAtomic (luck : Luck) (f : F) (data : List UInt8) : Fio F ErrCode Unit :=
  must luck .writeFailed fun files => files.set f (some data)

/-- "good" -/
def goodMark : List UInt8 := [0x67, 0x6F, 0x6F, 0x64]

/-- "bad" -/
def badMark : List UInt8 := [0x62, 0x61, 0x64]

def dirUpdateStart (luck : Luck) (status : F) : Fio F ErrCode Unit :=
  fileWriteAtomic luck status badMark

def dirUpdateCommit (luck : Luck) (status : F) : Fio F ErrCode Unit :=
  fileWriteAtomic luck status goodMark

/-- `dir_get_status`: `strstr` in the first fifteen bytes. -/
def dirGetStatus (status : F) (files : Files F) : Bool :=
  match files status with
  | none => false
  | some data => decide (goodMark <:+: (data.take 15).takeWhile (· ≠ 0))

/-- `file_copy` to `f`: `sendfile` goes on until a step fails. -/
def fileCopy (luck : Luck) (f : F) (src : Option (List UInt8)) : Fio F ErrCode Unit :=
  match src with
  | none => throw .fileStatFailed
  | some bytes => do
    must luck .fileStatFailed id
    must luck .fileMakeFailed id
    must luck .fileStatFailed id
    -- opened with `O_TRUNC`
    must luck .fileStatFailed fun files => files.set f (some [])
    must luck .fileSetAttrFailed id
    let done ← writeAll luck f bytes
    if done then pure () else throw .fileCopyFailed

/-- The loop of `dir_copy_no_st`. -/
def dirCopyEntries (luck : Luck) (status : F) (src : Files F) :
    List (FtsEntry F) → Fio F ErrCode Unit
  | [] => pure ()
  | .dir :: rest => do
    must luck .dirStatFailed id
    dirMakePath luck
    dirCopyEntries luck status src rest
  | .file f :: rest =>
    if f = status then dirCopyEntries luck status src rest
    else do
      fileCopy luck f (src f)
      dirCopyEntries luck status src rest
  | .error :: _ => throw .dirCopyFailed

/-- `dir_copy_no_st`: that `fts_read` ended with an error goes unnoticed, and a failed `fts_open`
is a crash. -/
def dirCopyNoSt (luck : Luck) (status : F) (src : Files F) (run : FtsRun F) :
    Fio F ErrCode Unit := do
  must luck .dirInvalidParameter id
  must luck .dirInvalidParameter id
  must luck .dirOpenFailed id
  dirCopyEntries luck status src run.entries

/-- `dir_copy`; `run` visits the source, `removed` the destination. -/
def dirCopy (luck : Luck) (status : F) (src : Files F) (run removed : FtsRun F) :
    Fio F ErrCode Unit := do
  let there ← attempt luck id
  if !there || run.entries = [] then pure ()
  else do
    dirMakePath luck
    dirRemovePath luck removed
    dirMakePath luck
    dirUpdateStart luck status
    dirCopyNoSt luck status src run
    dirUpdateCommit luck status

/-! ### Good directories -/

/-- All files of `content` are there, complete. -/
def Holds (content files : Files F) : Prop := ∀ f c, content f = some c → files f = some c

/-- A directory that is good holds all it held before, or all that is new. -/
def GoodIsWhole (status : F) (old new files : Files F) : Prop :=
  dirGetStatus status files = true → Holds old files ∨ Holds new files

/-- The files that are removed before the mark. -/
def filesBefore (status : F) : List (FtsEntry F) → List F
  | [] => []
  | .file f :: rest => if f = status then [] else f :: filesBefore status rest
  | _ :: rest => filesBefore status rest

/-- The old directory is not good, or the mark is the first file removed, or the old directory
holds all that is new and none of it is removed before the mark. -/
def RemovedSafely (status : F) (old new : Files F) (run : FtsRun F) : Prop :=
  dirGetStatus status old = true → filesBefore status run.entries = [] ∨
    Holds new old ∧ ∀ f ∈ filesBefore status run.entries, new f = none

/-- Without an error `fts_read` visits every file. -/
def FtsVisits (src : Files F) (run : FtsRun F) : Prop :=
  run.failed = false → .error ∉ run.entries → ∀ f c, src f = some c → .file f ∈ run.entries

variable {luck : Luck} {status : F} {old new files : Files F}

omit [DecidableEq F] in
theorem holds_refl (content : Files F) : Holds content content := fun _ _ => id

omit [DecidableEq F] in
theorem goodIsWhole_of_bad (bad : dirGetStatus status files = false) :
    GoodIsWhole status old new files :=
  fun good => absurd good (by simp [bad])

theorem dirGetStatus_set_other {f : F} (other : f ≠ status) (c : Option (List UInt8)) :
    dirGetStatus status (files.set f c) = dirGetStatus status files := by
  unfold dirGetStatus
  rw [set_other _ _ (Ne.symm other)]

theorem dirGetStatus_set_none : dirGetStatus status (files.set status none) = false := by
  unfold dirGetStatus
  rw [set_same]

theorem dirGetStatus_set_bad : dirGetStatus status (files.set status (some badMark)) = false := by
  unfold dirGetStatus
  rw [set_same]
  decide

/-! ### Removal -/

/-- What holds while `entries` are still to be removed. -/
def Removing (status : F) (old new : Files F) (entries : List (FtsEntry F)) (files : Files F) :
    Prop :=
  dirGetStatus status files = true → filesBefore status entries = [] ∧ Holds old files ∨
    Holds new files ∧ ∀ f ∈ filesBefore status entries, new f = none

theorem Removing.whole {entries : List (FtsEntry F)}
    (h : Removing status old new entries files) : GoodIsWhole status old new files :=
  fun good => (h good).imp And.right And.left

theorem Removing.removed {f : F} {rest : List (FtsEntry F)}
    (h : Removing status old new (.file f :: rest) files) :
    Removing status old new rest (files.set f none) := by
  intro good
  by_cases mark : f = status
  · -- without the mark the directory is not good
    subst mark
    exact absurd good (by simp [dirGetStatus_set_none])
  · rw [dirGetStatus_set_other mark] at good
    -- a file before the mark goes while the directory is good: it must not be needed
    rcases h good with ⟨first, -⟩ | ⟨holds, unneeded⟩
    · simp [filesBefore, mark] at first
    · simp only [filesBefore, mark, if_false, List.forall_mem_cons] at unneeded
      refine .inr ⟨fun g c has => ?_, unneeded.2⟩
      have apart : g ≠ f := by
        rintro rfl
        simp [unneeded.1] at has
      rw [set_other _ _ apart]
      exact holds g c has

theorem dirRemoveEntries_whole {entries : List (FtsEntry F)}
    (h : Removing status old new entries files) :
    fwpe (dirRemoveEntries luck entries) (fun _ => GoodIsWhole status old new)
      (GoodIsWhole status old new) files := by
  induction entries generalizing files with
  | nil => exact fwpe_pure h.whole
  | cons e rest ih =>
    cases e with
    | dir => exact fwpe_must_bind h.whole (ih h)
    | file f => exact fwpe_must_bind h.whole (ih h.removed)
    | error => exact ih h

theorem dirRemovePath_whole {run : FtsRun F} (safe : RemovedSafely status old new run) :
    fwpe (dirRemovePath luck run) (fun _ => GoodIsWhole status old new)
      (GoodIsWhole status old new) old := by
  have start : Removing status old new run.entries old := fun good =>
    (safe good).imp_left fun first => ⟨first, holds_refl old⟩
  unfold dirRemovePath
  refine fwpe_must_bind start.whole (fwpe_must_bind start.whole ?_)
  refine fwpe_bind (dirRemoveEntries_whole start) fun _ files whole => ?_
  exact fwpe_ite (fun _ => fwpe_throw whole) (fun _ => fwpe_pure whole)

/-- What every update begins with: the old files are removed, and the directory is marked bad. -/
theorem marked_bad {run : FtsRun F} (safe : RemovedSafely status old new run) {α : Type}
    {p : Fio F ErrCode α} {Q : α → Files F → Prop}
    (next : ∀ files, dirGetStatus status files = false →
      fwpe p Q (GoodIsWhole status old new) files) :
    fwpe (do dirRemovePath luck run; dirMakePath luck; dirUpdateStart luck status; p) Q
      (GoodIsWhole status old new) old := by
  refine fwpe_bind (dirRemovePath_whole safe) fun _ files whole => ?_
  exact fwpe_must_bind whole (fwpe_must_bind whole (next _ dirGetStatus_set_bad))

/-- What every update ends with. -/
theorem marked_good (whole : Holds new (files.set status (some goodMark)))
    (bad : dirGetStatus status files = false) :
    fwpe (dirUpdateCommit luck status) (fun _ => GoodIsWhole status old new)
      (GoodIsWhole status old new) files :=
  fwpe_must (goodIsWhole_of_bad bad) fun _ => .inr whole

/-! ### Copying -/

/-- A copy is whole if it returns, and changes one file at most. -/
theorem fileCopy_spec {f : F} {src : Option (List UInt8)} {E : Files F → Prop} (stop : E files)
    (stops : ∀ c, E (files.set f c)) :
    fwpe (fileCopy luck f src) (fun _ files' => files' = files.set f src) E files := by
  unfold fileCopy
  cases src with
  | none => exact fwpe_throw stop
  | some bytes =>
    refine fwpe_must_bind stop (fwpe_must_bind stop (fwpe_must_bind stop ?_))
    refine fwpe_must_bind stop (fwpe_must_bind (stops _) ?_)
    refine fwpe_bind (fwpe_writeAll rfl stops) ?_
    rintro done files' ⟨⟨c, rfl⟩, all⟩
    refine fwpe_ite (fun ok => ?_) (fun _ => fwpe_throw (stops c))
    rw [all ok, List.nil_append]
    exact fwpe_pure rfl

/-- The files copied so far. -/
def Copied (status : F) (src : Files F) (entries : List (FtsEntry F)) (files : Files F) : Prop :=
  ∀ f, .file f ∈ entries → f ≠ status → files f = src f

theorem dirCopyEntries_spec {src : Files F} {entries done : List (FtsEntry F)}
    (bad : dirGetStatus status files = false) (copied : Copied status src done files) :
    fwpe (dirCopyEntries luck status src entries)
      (fun _ files' => dirGetStatus status files' = false ∧ .error ∉ entries ∧
        Copied status src (done ++ entries) files')
      (fun files' => dirGetStatus status files' = false) files := by
  induction entries generalizing files done with
  | nil => exact fwpe_pure ⟨bad, nofun, by rwa [List.append_nil]⟩
  | cons e rest ih =>
    -- an entry that is done joins those copied so far
    have after : ∀ files', dirGetStatus status files' = false →
        Copied status src (done ++ [e]) files' → e ≠ .error →
        fwpe (dirCopyEntries luck status src rest)
          (fun _ files' => dirGetStatus status files' = false ∧ .error ∉ e :: rest ∧
            Copied status src (done ++ e :: rest) files')
          (fun files' => dirGetStatus status files' = false) files' := by
      intro files' bad copied fine
      refine fwpe_mono (ih bad copied) ?_ (fun _ => id)
      rintro _ _ ⟨bad, none, copied⟩
      rw [List.append_assoc] at copied
      exact ⟨bad, by simp [none, Ne.symm fine], copied⟩
    cases e with
    | error => exact fwpe_throw bad
    | dir =>
      refine fwpe_must_bind bad (fwpe_must_bind bad (after files bad ?_ nofun))
      intro f mem
      exact copied f (by simpa using mem)
    | file f =>
      unfold dirCopyEntries
      refine fwpe_ite (fun mark => ?_) (fun other => ?_)
      · -- the mark is not copied, and nothing is asked of it
        refine after files bad (fun g mem apart => ?_) nofun
        have mem : .file g ∈ done := by
          simpa [mark, apart] using mem
        exact copied g mem apart
      · -- until it is whole, the copy may hold anything
        have kept : ∀ c, dirGetStatus status (files.set f c) = false := fun c => by
          rwa [dirGetStatus_set_other other]
        refine fwpe_bind (fileCopy_spec bad kept) ?_
        rintro _ files' rfl
        refine after _ (kept _) (fun g mem apart => ?_) nofun
        by_cases same : g = f
        · rw [same, set_same]
        · rw [set_other _ _ same]
          have mem : .file g ∈ done := by
            simpa [same] using mem
          exact copied g mem apart

theorem dirCopyNoSt_spec {src : Files F} {run : FtsRun F}
    (bad : dirGetStatus status files = false) :
    fwpe (dirCopyNoSt luck status src run)
      (fun _ files' => dirGetStatus status files' = false ∧ .error ∉ run.entries ∧
        Copied status src run.entries files')
      (fun files' => dirGetStatus status files' = false) files := by
  unfold dirCopyNoSt
  refine fwpe_must_bind bad (fwpe_must_bind bad (fwpe_must_bind bad ?_))
  have start : Copied status src [] files := nofun
  exact dirCopyEntries_spec bad start

/-- Wherever `dir_copy` ends: a good destination is as it was before, or holds the source. -/
theorem dirCopy_whole {src : Files F} {run removed : FtsRun F}
    (safe : RemovedSafely status old (src.set status none) removed) (visits : FtsVisits src run)
    (readable : run.failed = false) :
    fwpe (dirCopy luck status src run removed)
      (fun _ => GoodIsWhole status old (src.set status none))
      (GoodIsWhole status old (src.set status none)) old := by
  have kept : GoodIsWhole status old (src.set status none) old := fun _ => .inl (holds_refl old)
  unfold dirCopy
  refine fwpe_bind (fwpe_attempt (Q := fun _ files => old = files) kept rfl rfl) ?_
  rintro there _ rfl
  refine fwpe_ite (fun _ => fwpe_pure kept) (fun _ => fwpe_must_bind kept ?_)
  refine marked_bad safe fun files bad => ?_
  refine fwpe_bind (fwpe_mono (dirCopyNoSt_spec bad) (fun _ _ => id)
    fun _ => goodIsWhole_of_bad) ?_
  rintro _ files' ⟨bad, none, copied⟩
  -- every file of the source was visited, and copied but for the mark
  refine marked_good (fun f c has => ?_) bad
  by_cases mark : f = status
  · rw [mark, set_same] at has
    cases has
  · rw [set_other _ _ mark] at has ⊢
    exact (copied f (visits readable none f c has) mark).trans has

end Dir
