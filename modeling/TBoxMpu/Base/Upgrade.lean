import TBoxMpu.Mid.Dir

/-!
# Unpacking an upgrade package

`upg_ctl_proc` of `upg_ctl.c`, with `upg_ctl_save` and `upg_ctl_fwsave`, over the files of
`COM_APP_UPG_DIR`. A package is what the reads of its table and its commands give.
-/

namespace Upg

open Crash Faults Dir

/-! ### Packages -/

/-- The files of the directory: the mark, those that a package has, and any other. -/
inductive UpgFile
  | status | pkgVer | mcuVer | mcuApp | mcuBoot | appImage | script | fwUpdate
  | other (path : List UInt8)
  deriving DecidableEq, Repr

def mcuAppBin : UInt8 := 0
def mcuBtlBin : UInt8 := 1
def mcuCfgFile : UInt8 := 2
def mpuAppBin : UInt8 := 4
def mpuShellFile : UInt8 := 5
def mpuFirmware : UInt8 := 7

/-- A command: its type, and its data with compression undone. `ver` is a text, for a
configuration file the path; `lumps` are those of a firmware image. -/
structure UpgCmd where
  type : UInt32
  ver : List UInt8
  content : List UInt8
  lumps : List (List UInt8)

/-- `cmd_table` has room for all commands; `verMid` is what `sscanf` reads of the version. -/
structure UpgPkg where
  version : List UInt8
  verMid : Int
  cmds : List UpgCmd
  few : cmds.length ≤ 8

/-- What the functions depend on besides: which steps succeed, the file of the directory that a
path leads to, the versions that run already, and whether the event that starts the firmware
update is accepted. -/
structure UpgEnv where
  luck : Luck
  resolve : List UInt8 → Option UpgFile
  sameVer : UInt8 → List UInt8 → Bool
  accepted : Bool

/-! ### Saving a command -/

/-- A file of the directory is set, one elsewhere does not show. -/
def setFile (f : Option UpgFile) (content : Option (List UInt8)) (files : Files UpgFile) :
    Files UpgFile :=
  match f with
  | some f => files.set f content
  | none => files

/-- `file_delete`: nobody sees whether it succeeds. -/
def fileDelete (luck : Luck) (f : Option UpgFile) : Fio UpgFile ErrCode Unit := do
  let _ ← attempt luck (setFile f none)
  pure ()

/-- `file_exists` and `file_delete` -/
def fileClear (luck : Luck) (f : Option UpgFile) : Fio UpgFile ErrCode Unit := do
  let files ← look
  if f.all fun f => (files f).isSome then fileDelete luck f else pure ()

/-- The switch of `upg_ctl_save`: the path; the version of an MCU application is written. -/
def upgPath (env : UpgEnv) (type : UInt8) (ver : List UInt8) :
    Fio UpgFile ErrCode (Option UpgFile) :=
  if type = mcuAppBin then
    if env.sameVer type ver then throw .devSameVer
    else do
      fileWriteAtomic env.luck .mcuVer ver
      pure (some .mcuApp)
  else if type = mcuBtlBin then pure (some .mcuBoot)
  else if type = mcuCfgFile then pure (env.resolve ver)
  else if type = mpuAppBin then
    if env.sameVer type ver then throw .devSameVer else pure (some .appImage)
  else if type = mpuShellFile then pure (some .script)
  else if type = mpuFirmware then pure (some .fwUpdate)
  else throw .devInvalidType

/-- `upg_ctl_save`, without what a script does that it runs. -/
def upgCtlSave (env : UpgEnv) (cmd : UpgCmd) : Fio UpgFile ErrCode Unit := do
  must env.luck .devUncompressFailed id
  if cmd.content.length < 32 then throw .devDataCheckFailed
  else do
    let path ← upgPath env cmd.type.toUInt8 cmd.ver
    fileClear env.luck path
    dirMakePath env.luck
    -- `file_write_atomic`, to a place that may be outside the directory
    must env.luck .writeFailed (setFile path (some cmd.content))

/-- The loop of `upg_ctl_fwsave`. -/
def upgLumps (env : UpgEnv) : List (List UInt8) → Fio UpgFile ErrCode Unit
  | [] => pure ()
  | lump :: rest => do
    must env.luck .devFileReadFailed id
    must env.luck .devUncompressFailed id
    let done ← writeAll env.luck .fwUpdate lump
    if done then upgLumps env rest
    else do
      fileDelete env.luck (some .fwUpdate)
      throw .writeFailed

def upgCtlFwsave (env : UpgEnv) (cmd : UpgCmd) : Fio UpgFile ErrCode Unit := do
  must env.luck .devFileReadFailed id
  fileClear env.luck (some .fwUpdate)
  -- the cache of an earlier update is removed if it can be
  let _ ← attempt env.luck id
  dirMakePath env.luck
  must env.luck .devFileOpenFailed fun files => files.set .fwUpdate (some [])
  upgLumps env cmd.lumps
  must env.luck .closeFailed id

/-! ### The package -/

/-- From the third version of packages on a firmware image is saved lump by lump. -/
def upgCmd (env : UpgEnv) (verMid : Int) (cmd : UpgCmd) : Fio UpgFile ErrCode Unit :=
  if cmd.type = mpuFirmware.toUInt32 ∧ verMid ≥ 3 then upgCtlFwsave env cmd
  else upgCtlSave env cmd

/-- The loop over the commands. -/
def upgCmds (env : UpgEnv) (verMid : Int) : List UpgCmd → Fio UpgFile ErrCode Unit
  | [] => pure ()
  | cmd :: rest => do
    must env.luck .devFileReadFailed id
    upgCmd env verMid cmd
    upgCmds env verMid rest

/-- The events at the end: a firmware image that cannot be installed is deleted. -/
def upgNotify (env : UpgEnv) (pkg : UpgPkg) : Fio UpgFile ErrCode Unit :=
  if (pkg.cmds.any fun cmd => cmd.type.toUInt8 = mpuFirmware) && !env.accepted then do
    fileDelete env.luck (some .fwUpdate)
    throw .pmSendFailed
  else pure ()

/-- The flag file is elsewhere, and nobody sees whether it is written. -/
def upgFlag (env : UpgEnv) (last : UpgCmd) : Fio UpgFile ErrCode Unit :=
  if last.type = mpuAppBin.toUInt32 then do
    let _ ← attempt env.luck id
    pure ()
  else pure ()

/-- What `upg_ctl_proc` does with a directory that is good. -/
def upgFinish (env : UpgEnv) (pkg : UpgPkg) : Fio UpgFile ErrCode Unit :=
  match pkg.cmds with
  | [cmd] =>
    if cmd.type = mpuShellFile.toUInt32 ∨ cmd.type = mcuCfgFile.toUInt32 then pure ()
    else upgNotify env pkg
  | [first, second] => do
    upgFlag env second
    if second.type.toUInt8 = mpuShellFile ∧ first.type.toUInt8 = mcuCfgFile then pure ()
    else upgNotify env pkg
  | _ => upgNotify env pkg

/-- `upg_ctl_proc`; `removed` visits the directory as it is before. -/
def upgCtlProc (env : UpgEnv) (pkg : UpgPkg) (removed : FtsRun UpgFile) :
    Fio UpgFile ErrCode Unit := do
  -- the old package goes before the directory is marked bad
  dirRemovePath env.luck removed
  dirMakePath env.luck
  dirUpdateStart env.luck .status
  dirMakePath env.luck
  must env.luck .devFileReadFailed id
  fileWriteAtomic env.luck .pkgVer pkg.version
  must env.luck .devFileReadFailed id
  upgCmds env pkg.verMid pkg.cmds
  dirUpdateCommit env.luck .status
  upgFinish env pkg

/-! ### The files of a package -/

/-- The place of a command's content. -/
def upgPlace (env : UpgEnv) (type : UInt8) (ver : List UInt8) : Option UpgFile :=
  if type = mcuAppBin then some .mcuApp
  else if type = mcuBtlBin then some .mcuBoot
  else if type = mcuCfgFile then env.resolve ver
  else if type = mpuAppBin then some .appImage
  else if type = mpuShellFile then some .script
  else if type = mpuFirmware then some .fwUpdate
  else none

def UpgCmd.saved (env : UpgEnv) (cmd : UpgCmd) : List (UpgFile × List UInt8) :=
  (if cmd.type.toUInt8 = mcuAppBin then [(.mcuVer, cmd.ver)] else []) ++
    (upgPlace env cmd.type.toUInt8 cmd.ver).toList.map fun f => (f, cmd.content)

def UpgCmd.files (env : UpgEnv) (verMid : Int) (cmd : UpgCmd) : List (UpgFile × List UInt8) :=
  if cmd.type = mpuFirmware.toUInt32 ∧ verMid ≥ 3 then [(.fwUpdate, cmd.lumps.flatten)]
  else cmd.saved env

/-- Of two files at one place the later one counts. -/
def install (entries : List (UpgFile × List UInt8)) (files : Files UpgFile) : Files UpgFile :=
  entries.foldl (fun files e => files.set e.1 (some e.2)) files

/-- The files of a package: its version and those of its commands. -/
def UpgPkg.files (env : UpgEnv) (pkg : UpgPkg) : Files UpgFile :=
  install ((.pkgVer, pkg.version) :: pkg.cmds.flatMap (UpgCmd.files env pkg.verMid)) fun _ => none

theorem install_append (entries more : List (UpgFile × List UInt8)) (files : Files UpgFile) :
    install (entries ++ more) files = install more (install entries files) :=
  List.foldl_append

theorem install_apply (entries : List (UpgFile × List UInt8)) (files : Files UpgFile)
    (f : UpgFile) : install entries files f =
      (install entries (fun _ => none) f).or (files f) := by
  induction entries generalizing files with
  | nil => rfl
  | cons e rest ih =>
    have first : ∀ files : Files UpgFile, install (e :: rest) files =
        install rest (files.set e.1 (some e.2)) := fun _ => rfl
    rw [first, first, ih, ih (Files.set _ _ _)]
    by_cases same : f = e.1
    · rw [same, set_same, set_same, Option.or_assoc, Option.some_or]
    · rw [set_other _ _ same, set_other _ _ same, Option.or_none]

theorem holds_install (entries : List (UpgFile × List UInt8)) (files : Files UpgFile) :
    Holds (install entries fun _ => none) (install entries files) := by
  intro f c has
  rw [install_apply, has, Option.some_or]

theorem install_other {entries : List (UpgFile × List UInt8)} {f : UpgFile}
    (apart : ∀ e ∈ entries, e.1 ≠ f) (files : Files UpgFile) :
    install entries files f = files f := by
  induction entries generalizing files with
  | nil => rfl
  | cons e rest ih =>
    have other : f ≠ e.1 := Ne.symm (apart e (by simp))
    exact (ih (fun e mem => apart e (by simp [mem])) _).trans (set_other _ _ other)

/-! ### Every step before the commit leaves the mark -/

/-- The directory is not good. -/
def Bad (files : Files UpgFile) : Prop := dirGetStatus .status files = false

theorem Bad.set {files : Files UpgFile} (bad : Bad files) {f : UpgFile} (other : f ≠ .status)
    (c : Option (List UInt8)) : Bad (files.set f c) := by
  unfold Bad
  rwa [dirGetStatus_set_other other]

theorem Bad.setFile {files : Files UpgFile} (bad : Bad files) {f : Option UpgFile}
    (other : f ≠ some .status) (c : Option (List UInt8)) : Bad (setFile f c files) := by
  cases f with
  | none => exact bad
  | some f => exact bad.set (fun mark => other (congrArg some mark)) c

variable {env : UpgEnv} {cmd : UpgCmd} {files : Files UpgFile}

/-- A file is deleted or not; what is set in its place afterwards does not depend on it. -/
theorem fileDelete_spec {luck : Luck} {f : Option UpgFile} (other : f ≠ some .status)
    (bad : Bad files) :
    fwpe (fileDelete luck f) (fun _ files' => Bad files' ∧
      ∀ c, setFile f c files' = setFile f c files) Bad files := by
  refine fwpe_attempt_bind bad (fwpe_pure ⟨bad.setFile other none, fun c => ?_⟩)
    (fwpe_pure ⟨bad, fun _ => rfl⟩)
  cases f with
  | none => rfl
  | some f => exact set_set _ _ _ _

theorem fileClear_spec {luck : Luck} {f : Option UpgFile} (other : f ≠ some .status)
    (bad : Bad files) :
    fwpe (fileClear luck f) (fun _ files' => Bad files' ∧
      ∀ c, setFile f c files' = setFile f c files) Bad files :=
  fwpe_look_bind (fwpe_ite (fun _ => fileDelete_spec other bad)
    fun _ => fwpe_pure ⟨bad, fun _ => rfl⟩)

/-- The switch finds the place, and writes the version of an MCU application. -/
theorem upgPath_spec {type : UInt8} {ver : List UInt8} (bad : Bad files) :
    fwpe (upgPath env type ver) (fun path files' => Bad files' ∧ path = upgPlace env type ver ∧
      files' = install (if type = mcuAppBin then [(.mcuVer, ver)] else []) files) Bad files := by
  unfold upgPath upgPlace
  by_cases app : type = mcuAppBin
  · simp only [if_pos app]
    have other : UpgFile.mcuVer ≠ .status := nofun
    refine fwpe_ite (fun _ => fwpe_throw bad) (fun _ => ?_)
    exact fwpe_must_bind bad (fwpe_pure ⟨bad.set other _, rfl, rfl⟩)
  · simp only [if_neg app]
    refine fwpe_ite (fun h => ?_) (fun h => ?_)
    · exact fwpe_pure ⟨bad, by rw [if_pos h], rfl⟩
    rw [if_neg h]
    refine fwpe_ite (fun h => ?_) (fun h => ?_)
    · exact fwpe_pure ⟨bad, by rw [if_pos h], rfl⟩
    rw [if_neg h]
    refine fwpe_ite (fun h => ?_) (fun h => ?_)
    · rw [if_pos h]
      exact fwpe_ite (fun _ => fwpe_throw bad) (fun _ => fwpe_pure ⟨bad, rfl, rfl⟩)
    rw [if_neg h]
    refine fwpe_ite (fun h => ?_) (fun h => ?_)
    · exact fwpe_pure ⟨bad, by rw [if_pos h], rfl⟩
    rw [if_neg h]
    refine fwpe_ite (fun h => ?_) (fun _ => fwpe_throw bad)
    exact fwpe_pure ⟨bad, by rw [if_pos h], rfl⟩

/-- A command whose configuration file, if it is one, is not the mark. -/
def UpgCmd.Unmarked (env : UpgEnv) (cmd : UpgCmd) : Prop :=
  cmd.type.toUInt8 = mcuCfgFile → env.resolve cmd.ver ≠ some .status

theorem upgPlace_unmarked (unmarked : cmd.Unmarked env) :
    upgPlace env cmd.type.toUInt8 cmd.ver ≠ some .status := by
  unfold upgPlace
  by_cases cfg : cmd.type.toUInt8 = mcuCfgFile
  · rw [cfg]
    exact unmarked cfg
  · rw [if_neg cfg]
    repeat' split
    all_goals nofun

theorem upgCtlSave_spec (unmarked : cmd.Unmarked env) (bad : Bad files) :
    fwpe (upgCtlSave env cmd)
      (fun _ files' => Bad files' ∧ files' = install (cmd.saved env) files) Bad files := by
  have other := upgPlace_unmarked unmarked
  refine fwpe_must_bind bad (fwpe_ite (fun _ => fwpe_throw bad) fun _ => ?_)
  refine fwpe_bind (upgPath_spec bad) ?_
  rintro path files₁ ⟨bad, rfl, version⟩
  refine fwpe_bind (fileClear_spec other bad) ?_
  rintro _ files₂ ⟨bad, cleared⟩
  refine fwpe_must_bind bad (fwpe_must bad ⟨bad.setFile other _, ?_⟩)
  -- what is set at the place hides whether the former file was deleted
  change setFile _ _ files₂ = _
  rw [cleared, version, UpgCmd.saved, install_append]
  cases upgPlace env cmd.type.toUInt8 cmd.ver <;> rfl

theorem upgLumps_spec {lumps : List (List UInt8)} {start : Files UpgFile} {content : List UInt8}
    (bad : Bad start) (has : files = start.set .fwUpdate (some content)) :
    fwpe (upgLumps env lumps)
      (fun _ files' => files' = start.set .fwUpdate (some (content ++ lumps.flatten))) Bad
      files := by
  have other : UpgFile.fwUpdate ≠ .status := nofun
  have stop : ∀ c, Bad (start.set .fwUpdate c) := fun c => bad.set other c
  induction lumps generalizing content files with
  | nil =>
    refine fwpe_pure ?_
    rw [has, List.flatten_nil, List.append_nil]
  | cons lump rest ih =>
    have here : Bad files := has ▸ stop _
    refine fwpe_must_bind here (fwpe_must_bind here ?_)
    refine fwpe_bind (fwpe_writeAll has stop) ?_
    rintro done files' ⟨⟨c, only⟩, all⟩
    refine fwpe_ite (fun ok => ?_) (fun _ => ?_)
    · rw [List.flatten_cons, ← List.append_assoc]
      exact ih (all ok)
    · -- a write failed: the image is deleted, and the upgrade ends
      have other : some UpgFile.fwUpdate ≠ some .status := nofun
      refine fwpe_bind (fileDelete_spec other (only ▸ stop c)) ?_
      exact fun _ _ deleted => fwpe_throw deleted.1

theorem upgCtlFwsave_spec (bad : Bad files) :
    fwpe (upgCtlFwsave env cmd) (fun _ files' => Bad files' ∧
      files' = install [(.fwUpdate, cmd.lumps.flatten)] files) Bad files := by
  have other : some UpgFile.fwUpdate ≠ some .status := nofun
  have apart : UpgFile.fwUpdate ≠ .status := nofun
  refine fwpe_must_bind bad (fwpe_bind (fileClear_spec other bad) ?_)
  rintro _ files' ⟨bad', cleared⟩
  -- the new image starts empty, whether the former one was deleted or not
  have opened : files'.set .fwUpdate (some []) = files.set .fwUpdate (some []) := cleared _
  refine fwpe_attempt_bind bad' ?_ ?_
  all_goals
    refine fwpe_must_bind bad' (fwpe_must_bind bad' ?_)
    refine fwpe_bind (upgLumps_spec bad opened) ?_
    rintro _ files₂ rfl
    have kept := bad.set apart (some ([] ++ cmd.lumps.flatten))
    exact fwpe_must kept ⟨kept, rfl⟩

theorem upgCmds_spec {verMid : Int} {cmds : List UpgCmd}
    (unmarked : ∀ cmd ∈ cmds, cmd.Unmarked env) (bad : Bad files) :
    fwpe (upgCmds env verMid cmds) (fun _ files' => Bad files' ∧
      files' = install (cmds.flatMap (UpgCmd.files env verMid)) files) Bad files := by
  induction cmds generalizing files with
  | nil => exact fwpe_pure ⟨bad, rfl⟩
  | cons cmd rest ih =>
    have saved : fwpe (upgCmd env verMid cmd)
        (fun _ files' => Bad files' ∧ files' = install (cmd.files env verMid) files) Bad files := by
      unfold upgCmd UpgCmd.files
      refine fwpe_ite (fun firmware => ?_) (fun other => ?_)
      · rw [if_pos firmware]
        exact upgCtlFwsave_spec bad
      · rw [if_neg other]
        exact upgCtlSave_spec (unmarked cmd (by simp)) bad
    -- the head of the command, its data, the other commands
    refine fwpe_must_bind bad (fwpe_bind saved ?_)
    rintro _ files₁ ⟨bad, rfl⟩
    rw [List.flatMap_cons]
    refine fwpe_mono (ih (fun cmd mem => unmarked cmd (by simp [mem])) bad) ?_ (fun _ => id)
    rintro _ _ ⟨bad, rfl⟩
    exact ⟨bad, (install_append _ _ _).symm⟩

/-! ### The end of an upgrade -/

/-- What has to be given for a good directory to be whole. -/
structure UpgSafe (env : UpgEnv) (pkg : UpgPkg) (old : Files UpgFile) (removed : FtsRun UpgFile) :
    Prop where
  removed : RemovedSafely .status old (pkg.files env) removed
  unmarked : ∀ cmd ∈ pkg.cmds, cmd.Unmarked env
  accepted : (∃ cmd ∈ pkg.cmds, cmd.type.toUInt8 = mpuFirmware) → env.accepted = true

theorem upgFinish_spec {pkg : UpgPkg}
    (accepted : (∃ cmd ∈ pkg.cmds, cmd.type.toUInt8 = mpuFirmware) → env.accepted = true)
    {P : Files UpgFile → Prop} (h : P files) : fwpe (upgFinish env pkg) (fun _ => P) P files := by
  have notify : fwpe (upgNotify env pkg) (fun _ => P) P files := by
    refine fwpe_ite (fun refused => ?_) (fun _ => fwpe_pure h)
    obtain ⟨firmware, refused⟩ := (Bool.and_eq_true _ _).mp refused
    -- a refused event would leave a good directory without the image
    have accepted := accepted (by simpa using firmware)
    simp [accepted] at refused
  unfold upgFinish
  split
  · exact fwpe_ite (fun _ => fwpe_pure h) (fun _ => notify)
  next second _ =>
    have flag : fwpe (upgFlag env second) (fun _ files' => files' = files) P files :=
      fwpe_ite (fun _ => fwpe_attempt_bind h (fwpe_pure rfl) (fwpe_pure rfl))
        (fun _ => fwpe_pure rfl)
    refine fwpe_bind flag ?_
    rintro _ _ rfl
    exact fwpe_ite (fun _ => fwpe_pure h) (fun _ => notify)
  · exact notify

/-- No file of a package is the mark. -/
theorem files_status {pkg : UpgPkg} (unmarked : ∀ cmd ∈ pkg.cmds, cmd.Unmarked env) :
    pkg.files env .status = none := by
  refine install_other (fun e mem => ?_) _
  rcases List.mem_cons.mp mem with rfl | mem
  · nofun
  obtain ⟨cmd, cmd_mem, mem⟩ := List.mem_flatMap.mp mem
  have place := upgPlace_unmarked (unmarked cmd cmd_mem)
  unfold UpgCmd.files UpgCmd.saved at mem
  split at mem
  · obtain rfl := List.mem_singleton.mp mem
    nofun
  · rcases List.mem_append.mp mem with version | content
    · split at version
      · obtain rfl := List.mem_singleton.mp version
        nofun
      · cases version
    · obtain ⟨f, at_place, rfl⟩ := List.mem_map.mp content
      rintro rfl
      exact place (Option.mem_toList.mp at_place)

/-- Wherever `upg_ctl_proc` ends: a good directory is as it was before, or holds the package. -/
theorem upgCtlProc_whole {pkg : UpgPkg} {old : Files UpgFile} {removed : FtsRun UpgFile}
    (safe : UpgSafe env pkg old removed) :
    fwpe (upgCtlProc env pkg removed) (fun _ => GoodIsWhole .status old (pkg.files env))
      (GoodIsWhole .status old (pkg.files env)) old := by
  have stop : ∀ files, Bad files → GoodIsWhole .status old (pkg.files env) files :=
    fun _ => goodIsWhole_of_bad
  have other : UpgFile.pkgVer ≠ .status := nofun
  refine marked_bad safe.removed fun files (bad : Bad files) => ?_
  refine fwpe_must_bind (stop _ bad) (fwpe_must_bind (stop _ bad) ?_)
  have versioned : Bad (files.set .pkgVer (some pkg.version)) := bad.set other _
  refine fwpe_must_bind (stop _ bad) (fwpe_must_bind (stop _ versioned) ?_)
  refine fwpe_bind (fwpe_mono (upgCmds_spec safe.unmarked versioned) (fun _ _ => id) stop) ?_
  rintro _ files' ⟨bad', saved⟩
  have all : files' = install ((.pkgVer, pkg.version) ::
    pkg.cmds.flatMap (UpgCmd.files env pkg.verMid)) files := saved
  -- the mark is set last, over all the files of the package
  have whole : Holds (pkg.files env) (files'.set .status (some goodMark)) := fun f c has => by
    have apart : f ≠ .status := by
      rintro rfl
      simp [files_status safe.unmarked] at has
    rw [set_other _ _ apart, all]
    exact holds_install _ files f c has
  exact fwpe_bind (marked_good whole bad') fun _ _ whole => upgFinish_spec safe.accepted whole

/-- Both updates, with any steps failing and the power failing anywhere. -/
theorem good_is_whole {pkg : UpgPkg} {old : Files UpgFile} {removed : FtsRun UpgFile}
    (safe : UpgSafe env pkg old removed) {F : Type} [DecidableEq F] {luck : Luck} {status : F}
    {src dst : Files F} {run dstRemoved : FtsRun F}
    (copySafe : RemovedSafely status dst (src.set status none) dstRemoved)
    (visits : FtsVisits src run) (readable : run.failed = false) :
    fwpe (upgCtlProc env pkg removed) (fun _ => GoodIsWhole .status old (pkg.files env))
      (GoodIsWhole .status old (pkg.files env)) old ∧
    fwpe (dirCopy luck status src run dstRemoved)
      (fun _ => GoodIsWhole status dst (src.set status none))
      (GoodIsWhole status dst (src.set status none)) dst :=
  ⟨upgCtlProc_whole safe, dirCopy_whole copySafe visits readable⟩

/-- A package with an application, and a directory with an earlier one, committed. -/
def appPkg : UpgPkg :=
  ⟨[0x32], 1, [⟨mpuAppBin.toUInt32, [0x62], List.replicate 32 0xB, []⟩], by decide⟩

def appDir : Files UpgFile
  | .status => some goodMark
  | .pkgVer => some [0x31]
  | .appImage => some (List.replicate 32 0xA)
  | _ => none

/-- Every step succeeds. -/
def lucky : UpgEnv := ⟨fun _ => true, fun _ => none, fun _ _ => false, true⟩

theorem app_upgrade_and_copy :
    fwpe (upgCtlProc lucky appPkg
        ⟨[.file .status, .file .pkgVer, .file .appImage, .dir, .dir, .dir], false⟩)
      (fun _ => GoodIsWhole .status appDir (appPkg.files lucky))
      (GoodIsWhole .status appDir (appPkg.files lucky)) appDir ∧
    fwpe (dirCopy (fun _ => true) .status appDir
        ⟨[.file .status, .dir, .file .pkgVer, .file .appImage], false⟩ ⟨[.dir], false⟩)
      (fun _ => GoodIsWhole UpgFile.status (fun _ => none) (appDir.set .status none))
      (GoodIsWhole UpgFile.status (fun _ => none) (appDir.set .status none)) fun _ => none := by
  refine good_is_whole ⟨fun _ => .inl rfl, ?_, fun _ => rfl⟩ nofun ?_ rfl
  · exact List.forall_mem_singleton.mpr fun cfg => absurd cfg (by decide)
  · intro _ _ f c has
    cases f <;> simp [appDir] at has ⊢

/-- The old application is removed while the directory is good, and the power fails. -/
theorem removed_while_good : ¬ fwpe (upgCtlProc lucky appPkg
      ⟨[.file .appImage, .file .pkgVer, .file .status, .dir, .dir, .dir], false⟩)
    (fun _ => GoodIsWhole .status appDir (appPkg.files lucky))
    (GoodIsWhole .status appDir (appPkg.files lucky)) appDir := by
  intro safe
  -- power fails right behind the first removal
  have left : GoodIsWhole .status appDir (appPkg.files lucky) (appDir.set .appImage none) := safe 3
  rcases left (by decide) with old | new
  · exact absurd (old .appImage _ rfl) (by decide)
  · exact absurd (new .appImage (List.replicate 32 0xB) rfl) (by decide)

end Upg
