import TBoxMpu.Base.FwFailures
import TBoxMpu.Base.Upgrade

/-!
# The bounds of an upgrade package

## Main result

`upg_proc_bounded`: `upg_ctl_proc` stays inside `upg_file_data`, `rawData`, the version buffer and
the command table, and subtracts no length from a smaller one, exactly if each command that its
loop gets to meets `CmdFits`, a condition on the lengths of the package.

## Proof strategy

A loop is inside if each of its rounds is, in every state that the rounds before reach
(`stopsIn_rounds_iff`). A function that copies has one lemma that says which of its lengths decide.
-/

namespace PkgFile

open Checked Stops Dir
open Upg (mcuAppBin mcuBtlBin mcuCfgFile mpuAppBin mpuShellFile mpuFirmware)

def upgVerSize : Nat := 256

/-- `DEV_UPG_NUM_MAX` -/
def cmdTableSize : Nat := 8

/-- An `unsigned int` in a buffer. -/
def word (mem : Nat → UInt8) (i : Nat) : Nat :=
  le32 (stretch mem i 4)

section

variable (pkg : Pkg) (env : Env)

/-! ### `upg_ctl_save` -/

/-- The data of a command in `upg_file_data` is unpacked to `rawData`. -/
def unpackCmd : M Unit := do
  let w ← get
  let length := word w.upgFileData 4
  if word w.upgFileData 0 ≠ 0 then
    -- `uncompress` runs beyond the buffer only if it wants more than that has
    let src := stretch w.upgFileData 8 (min length (fileDataSize - 8))
    if fileDataSize - 8 < length ∧ pkg.zlib.wants src rawDataSize then throw (.fault .fileData)
    else
      match uncompress pkg.zlib src rawDataSize with
      | none => throw (.ret .devUncompressFailed)
      | some out => storeRaw out
  else if fileDataSize < 8 + length then throw (.fault .fileData)
  else storeRaw (stretch w.upgFileData 8 length)

/-- The version of a command in `rawData`, and the length of the content behind it. -/
def World.ver (w : World) : List UInt8 :=
  stretch w.rawData 4 (word w.rawData 0)

def World.contentLength (w : World) : Nat :=
  word w.rawData (4 + word w.rawData 0)

/-- The version is copied to `upg_ver`. -/
def readVer : M (List UInt8) := do
  let w ← get
  if upgVerSize < word w.rawData 0 then throw (.fault .upgVer)
  else pure w.ver

/-- `strlen(upg_ver)`, or a use as a path. -/
def verText (ver : List UInt8) : M (List UInt8) :=
  if upgVerSize ≤ (cString ver).length then throw (.fault .upgVer) else pure (cString ver)

/-- The switch of `upg_ctl_save`. -/
def upgPath (type : UInt8) (ver : List UInt8) : M Unit :=
  if type = mcuAppBin then do
    let text ← verText ver
    if env.sameVer type text then throw (.ret .devSameVer) else op env .writeFailed
  else if type = mcuBtlBin then pure ()
  else if type = mcuCfgFile then do
    let _ ← verText ver
    pure ()
  else if type = mpuAppBin then
    if env.sameVer type (cString ver) then throw (.ret .devSameVer) else pure ()
  else if type = mpuShellFile then pure ()
  else if type = mpuFirmware then pure ()
  else throw (.ret .devInvalidType)

/-- A former file is deleted; only the firmware image is followed here. -/
def clearContent (type : UInt8) : M Unit :=
  if type = mpuFirmware then clearFw env else pure ()

/-- The file for the content is made and opened. -/
def openContent (type : UInt8) (ver : List UInt8) : M Unit := do
  upgPath env type ver
  clearContent env type
  op env .dirMakeFailed
  op env .writeFailed

def writeContent (type : UInt8) (verLen length : Nat) : M Unit := do
  let w ← get
  if rawDataSize < 8 + verLen + length then throw (.fault .rawData)
  else do
    op env .writeFailed
    if type = mpuFirmware then
      modify fun w' => { w' with fw := some (stretch w.rawData (8 + verLen) length) }
    else pure ()

def upgCtlSave (cmdtype : Nat) : M Unit := do
  unpackCmd pkg
  let ver ← readVer
  let w ← get
  if w.contentLength < 32 then throw (.ret .devDataCheckFailed)
  else do
    openContent env (UInt8.ofNat cmdtype) ver
    writeContent env (UInt8.ofNat cmdtype) ver.length w.contentLength

/-! ### `upg_ctl_proc` -/

/-- The offset, the length and the type of a command; two of the seeks are not checked. -/
def readCmdHead (table i : Nat) : M (Nat × Nat × Nat) := do
  let _ ← lseek (u32 (table + i * 8))
  let offset ← readWord pkg env
  let _ ← lseek (u32 (table + i * 8 + 4))
  let length ← readWord pkg env
  let type ← readWordAt pkg env offset
  pure (offset, length, type)

/-- The data of a command other than a firmware image. -/
def saveData (offset length type : Nat) : M Unit :=
  if fileDataSize < length then throw .tooLong
  else do
    seekTo (u32 (offset + 4))
    if length < 4 then throw (.fault .wraps)
    else do
      readFileData pkg env (length - 4)
      upgCtlSave pkg env type

/-- From the third version of packages on a firmware image is saved lump by lump. -/
def saveByType (verMid : Int) (offset length type : Nat) : M Unit :=
  if type = mpuFirmware.toNat ∧ verMid ≥ 3 then upgCtlFwsave pkg env (u32 (offset + 4))
  else saveData pkg env offset length type

/-- One round of the loop of `upg_ctl_proc`; `cmds` is what `cmd_table` holds so far. -/
def saveCmd (verMid : Int) (table i : Nat) (cmds : List Nat) : M (List Nat) := do
  let (offset, length, type) ← readCmdHead pkg env table i
  if cmdTableSize ≤ i then throw (.fault .cmdTable)
  else do
    saveByType pkg env verMid offset length type
    pure (cmds ++ [type])

/-- The directories are made, and the version and the number of commands are read. -/
def readPkgHead (pos : Nat) : M (Int × Nat) := do
  op env .dirRemoveFailed
  modify fun w => { w with fw := none }
  op env .dirMakeFailed
  op env .writeFailed
  op env .dirMakeFailed
  seekTo 1
  let (version, done) ← devRead pkg env 8
  if done then do
    op env .writeFailed
    let _dataLen ← readWordAt pkg env pos
    let cmdtotal ← readWordAt pkg env (u32 (pos + 4))
    pure (pkg.verMid version, cmdtotal)
  else throw (.ret .devFileReadFailed)

/-- The events at the end. `cmd_table` is looked at up to the number of commands. -/
def upgFinish (cmds : List Nat) : M Unit :=
  if cmds = [mpuShellFile.toNat] ∨ cmds = [mcuCfgFile.toNat] ∨
      cmds.map UInt8.ofNat = [mcuCfgFile, mpuShellFile] then pure ()
  else if mpuFirmware ∈ cmds.map UInt8.ofNat then do
    let luck ← tick env
    if luck.isSome then do
      deleteFw env
      throw (.ret .pmSendFailed)
    else pure ()
  else op env .pmSendFailed

def upgCtlProc (pos : Nat) : M Unit := do
  let (verMid, cmdtotal) ← readPkgHead pkg env pos
  let cmds ← rounds (saveCmd pkg env verMid (u32 (pos + 8))) 0 cmdtotal []
  op env .writeFailed
  upgFinish env cmds

end

/-! ### The condition -/

/-- The bytes that `dev_read` of `n` bytes stores. -/
def readLen (pkg : Pkg) (env : Env) (n : Nat) (u : World) : Nat :=
  let there := min n (pkg.file.length - u.pos)
  ((env.luck u.clock).filter (· < n)).elim there (min · there)

/-- The data of a lump is read to `upg_file_data` as far as the package has it. -/
def LumpInside (pkg : Pkg) (env : Env) (v : LumpVars) (m : World) : Prop :=
  ∀ length m', readWordAt pkg env (u32 (v.rPos + v.length)) m = .ok length m' →
    ∀ m'', seekTo (u32 (u32 (v.rPos + v.length) + 4)) m' = .ok () m'' →
      readLen pkg env length m'' ≤ fileDataSize

/-- Every lump that the loop of `upg_ctl_fwsave` gets to. -/
def FwInside (pkg : Pkg) (env : Env) (offset : Nat) (m : World) : Prop :=
  ∀ attr lumpCnt rPos w₁ w₂,
    readFwHead pkg env offset { m with fwFd := .unset } = .ok (attr, lumpCnt, rPos) w₁ →
    startFw env w₁ = .ok () w₂ → ∀ k < lumpCnt, ∀ v u,
      rounds (saveLump pkg env attr) 0 k ⟨rPos, 0, 0, rawDataSize⟩ w₂ = .ok v u →
      LumpInside pkg env v u

/-- The length of a command's data is that of a copy, or `uncompress` needs no more than there
is. -/
def DataFits (pkg : Pkg) (m : World) : Prop :=
  if word m.upgFileData 0 = 0 then 8 + word m.upgFileData 4 ≤ fileDataSize
  else fileDataSize - 8 < word m.upgFileData 4 →
    pkg.zlib.wants (stretch m.upgFileData 8 (fileDataSize - 8)) rawDataSize = false

/-- What must hold of a command's data `m` in `upg_file_data`. -/
structure SaveFits (pkg : Pkg) (env : Env) (type : UInt8) (m : World) : Prop where
  data : DataFits pkg m
  ver : ∀ m', unpackCmd pkg m = .ok () m' → word m'.rawData 0 ≤ upgVerSize
  /-- The version ends in the buffer where it is used as a string. -/
  text : ∀ m', unpackCmd pkg m = .ok () m' → 32 ≤ m'.contentLength →
    type = mcuAppBin ∨ type = mcuCfgFile → (cString m'.ver).length < upgVerSize
  content : ∀ m', unpackCmd pkg m = .ok () m' → 32 ≤ m'.contentLength →
    ∀ m'', openContent env type m'.ver m' = .ok () m'' →
      8 + m'.ver.length + m'.contentLength ≤ rawDataSize

/-- What must hold of the command that `m` is the world before. -/
def CmdFits (pkg : Pkg) (env : Env) (verMid : Int) (table k : Nat) (m : World) : Prop :=
  ∀ offset length type m', readCmdHead pkg env table k m = .ok (offset, length, type) m' →
    k < cmdTableSize ∧
    if type = mpuFirmware.toNat ∧ verMid ≥ 3 then FwInside pkg env (u32 (offset + 4)) m'
    else length ≤ fileDataSize → ∀ m₁, seekTo (u32 (offset + 4)) m' = .ok () m₁ →
      4 ≤ length ∧ ∀ m₂, readFileData pkg env (length - 4) m₁ = .ok () m₂ →
        SaveFits pkg env (UInt8.ofNat type) m₂

/-! ### What cannot leave its bounds -/

/-- A run stops for another reason than a fault. -/
def NoFault (stop : Stop) (_ : World) : Prop :=
  ∀ what, stop ≠ .fault what

abbrev Tame {α : Type} (p : M α) : Prop :=
  ∀ u, StopsIn NoFault p u

section

variable {pkg : Pkg} {env : Env} {α β : Type}

theorem Tame.bind {p : M α} {f : α → M β} (first : Tame p) (rest : ∀ a, Tame (f a)) :
    Tame (p >>= f) :=
  fun u => stopsIn_bind_iff.mpr ⟨first u, fun a v _ => rest a v⟩

theorem Tame.ite {c : Prop} [Decidable c] {p q : M α} (yes : Tame p) (no : Tame q) :
    Tame (if c then p else q) := by
  split
  · exact yes
  · exact no

theorem Tame.bind_iff {p : M α} {f : α → M β} (first : Tame p) {u : World} :
    StopsIn NoFault (p >>= f) u ↔ ∀ a v, p u = .ok a v → StopsIn NoFault (f a) v := by
  rw [stopsIn_bind_iff, and_iff_right (first u)]

theorem Tame.unit_bind_iff {p : M Unit} {f : Unit → M β} (first : Tame p) {u : World} :
    StopsIn NoFault (p >>= f) u ↔ ∀ v, p u = .ok () v → StopsIn NoFault (f ()) v := by
  rw [first.bind_iff]
  exact ⟨fun each => each (), fun each _ => each⟩

theorem Tame.then_iff {p : M α} {f : α → M β} (rest : ∀ a, Tame (f a)) {u : World} :
    StopsIn NoFault (p >>= f) u ↔ StopsIn NoFault p u := by
  rw [stopsIn_bind_iff, and_iff_left fun a v _ => rest a v]

theorem tame_pure (a : α) : Tame (pure a : M α) :=
  fun _ => stopsIn_pure a

theorem tame_ret (code : ErrCode) : Tame (throw (.ret code) : M α) :=
  fun _ => stopsIn_throw_iff.mpr fun _ => Stop.noConfusion

theorem fault_not_noFault {what : Fault} {u : World} :
    ¬ StopsIn NoFault (throw (.fault what) : M α) u :=
  fun inside => stopsIn_throw_iff.mp inside what rfl

theorem tame_tick : Tame (tick env) :=
  fun _ => stopsIn_of_ok rfl

theorem tame_modify (f : World → World) : Tame (modify f : M Unit) :=
  fun _ => stopsIn_of_ok rfl

theorem tame_get : Tame (get : M World) :=
  fun _ => stopsIn_of_ok rfl

theorem tame_op (err : ErrCode) : Tame (op env err) :=
  tame_tick.bind fun _ => (tame_ret _).ite (tame_pure _)

theorem tame_lseek (p : Nat) : Tame (lseek p) := by
  intro u
  rw [StopsIn, lseek]
  split_ifs <;> rintro _ _ ⟨⟩

theorem tame_seekTo (p : Nat) : Tame (seekTo p) :=
  (tame_lseek p).bind fun _ => (tame_pure _).ite (tame_ret _)

theorem devRead_noFault_iff {n : Nat} {u : World} :
    StopsIn NoFault (devRead pkg env n) u ↔ readLen pkg env n u ≤ fileDataSize := by
  have count : (((env.luck u.clock).filter (· < n)).elim ((pkg.file.drop u.pos).take n)
      ((pkg.file.drop u.pos).take n).take).length = readLen pkg env n u := by
    rw [readLen]
    cases (env.luck u.clock).filter (· < n) <;> simp
  simp only [StopsIn, devRead, count]
  by_cases beyond : fileDataSize < readLen pkg env n u
  · refine iff_of_false (fun inside => ?_) (Nat.not_le.mpr beyond)
    exact inside _ _ (if_pos beyond) _ rfl
  · refine iff_of_true (fun stop v run => ?_) (Nat.not_lt.mp beyond)
    rw [if_neg beyond] at run
    split_ifs at run
    cases run
    exact fun _ => Stop.noConfusion

theorem readLen_le (n : Nat) (u : World) : readLen pkg env n u ≤ n := by
  rw [readLen]
  cases (env.luck u.clock).filter (· < n) with
  | none => exact Nat.min_le_left _ _
  | some k => exact (Nat.min_le_right _ _).trans (Nat.min_le_left _ _)

theorem tame_devRead {n : Nat} (small : n ≤ fileDataSize) : Tame (devRead pkg env n) :=
  fun u => devRead_noFault_iff.mpr ((readLen_le n u).trans small)

theorem tame_readWord : Tame (readWord pkg env) :=
  (tame_devRead (by decide)).bind fun _ => (tame_pure _).ite (tame_ret _)

theorem tame_readWordAt (p : Nat) : Tame (readWordAt pkg env p) :=
  (tame_seekTo p).bind fun _ => tame_readWord

theorem readFileData_noFault_iff {n : Nat} {u : World} :
    StopsIn NoFault (readFileData pkg env n) u ↔ readLen pkg env n u ≤ fileDataSize := by
  rw [← devRead_noFault_iff, readFileData]
  exact Tame.then_iff fun _ => (tame_modify _).bind fun _ => (tame_pure _).ite (tame_ret _)

theorem tame_storeRaw {bytes : List UInt8} (room : bytes.length ≤ rawDataSize) :
    Tame (storeRaw bytes) :=
  fun u => stopsIn_of_ok (storeRaw_run room u)

theorem uncompress_length {z : Zlib} {src out : List UInt8} {room : Nat}
    (unpacks : uncompress z src room = some out) : out.length ≤ room := by
  obtain ⟨-, small⟩ := Option.filter_eq_some_iff.mp unpacks
  exact of_decide_eq_true small

/-! ### Firmware images -/

theorem unpackLump_noFault {attr length room : Nat} (inside : length ≤ fileDataSize)
    (small : room ≤ rawDataSize) : Tame (unpackLump pkg attr length room) := by
  have buffers : fileDataSize ≤ rawDataSize := by decide
  refine tame_get.bind fun w => ?_
  rw [if_neg (Nat.not_lt.mpr inside)]
  refine Tame.ite ?_ ?_
  · split
    · exact (tame_modify _).bind fun _ => tame_ret _
    next out unpacks =>
      have fits := (uncompress_length unpacks).trans small
      exact (tame_storeRaw fits).bind fun _ => tame_pure _
  · have fits : (stretch w.upgFileData 0 length).length ≤ rawDataSize := by
      rw [stretch_length]
      omega
    exact (tame_storeRaw fits).bind fun _ => tame_pure _

/-- The new size is the room for the next lump. -/
theorem unpackLump_size {attr length room n : Nat} {u v : World} (inside : length ≤ fileDataSize)
    (small : room ≤ rawDataSize) (run : unpackLump pkg attr length room u = .ok n v) :
    n ≤ rawDataSize := by
  have buffers : fileDataSize ≤ rawDataSize := by decide
  rw [unpackLump, get_bind_run, if_neg (Nat.not_lt.mpr inside)] at run
  split_ifs at run
  · cases unpacks : uncompress pkg.zlib (stretch u.upgFileData 0 length) room with
    | none =>
      rw [unpacks] at run
      cases run
    | some out =>
      rw [unpacks] at run
      obtain ⟨_, m, -, rest⟩ := bind_ok_iff.mp run
      cases rest
      exact (uncompress_length unpacks).trans small
  · obtain ⟨_, m, -, rest⟩ := bind_ok_iff.mp run
    cases rest
    omega

theorem tame_writeLump {wPos n : Nat} (small : n ≤ rawDataSize) : Tame (writeLump env wPos n) := by
  have tame_delete : Tame (deleteFw env) := fun u => stopsIn_of_ok (deleteFw_run u)
  have tame_write : Tame (writeRaw env wPos n) := by
    refine (tame_modify _).bind fun _ => tame_get.bind fun w => ?_
    rw [if_neg (Nat.not_lt.mpr small)]
    exact fun _ => stopsIn_of_ok rfl
  exact tame_write.bind fun _ => (tame_pure _).ite
    ((tame_modify _).bind fun _ => tame_delete.bind fun _ => tame_ret _)

theorem saveLump_noFault_iff {attr k : Nat} {v : LumpVars} {m : World}
    (small : v.uncompressLen ≤ rawDataSize) :
    StopsIn NoFault (saveLump pkg env attr k v) m ↔ LumpInside pkg env v m := by
  rw [saveLump, (tame_readWordAt _).bind_iff]
  refine forall_congr' fun length => forall_congr' fun m' => forall_congr' fun _ => ?_
  simp only
  rw [(tame_seekTo _).unit_bind_iff]
  refine forall_congr' fun m'' => forall_congr' fun _ => ?_
  rw [stopsIn_bind_iff, readFileData_noFault_iff, and_iff_left_iff_imp]
  intro _ _ m₁ run
  have inside := readFileData_inside run
  rw [(unpackLump_noFault inside small).bind_iff]
  intro n m₂ unpacks
  exact ((tame_writeLump (unpackLump_size inside small unpacks)).bind fun _ => tame_pure _) m₂

/-- The room for the next lump stays inside `rawData`. -/
theorem saveLump_room {attr k : Nat} {v v' : LumpVars} {m m' : World}
    (small : v.uncompressLen ≤ rawDataSize) (run : saveLump pkg env attr k v m = .ok v' m') :
    v'.uncompressLen ≤ rawDataSize := by
  rw [saveLump] at run
  obtain ⟨length, m₁, -, run⟩ := bind_ok_iff.mp run
  obtain ⟨_, m₂, -, run⟩ := bind_ok_iff.mp run
  obtain ⟨_, m₃, read, run⟩ := bind_ok_iff.mp run
  obtain ⟨n, m₄, unpacks, run⟩ := bind_ok_iff.mp run
  obtain ⟨_, m₅, -, run⟩ := bind_ok_iff.mp run
  cases run
  exact unpackLump_size (readFileData_inside read) small unpacks

theorem tame_clearFw : Tame (clearFw env) :=
  tame_get.bind fun _ => Tame.ite (fun u => stopsIn_of_ok (deleteFw_run u)) (tame_pure _)

theorem tame_readFwHead (offset : Nat) : Tame (readFwHead pkg env offset) :=
  (tame_readWordAt _).bind fun _ => (tame_readWordAt _).bind fun _ =>
    (tame_readWordAt _).bind fun _ => (tame_readWordAt _).bind fun _ =>
      (tame_readWordAt _).bind fun _ => tame_pure _

theorem tame_startFw : Tame (startFw env) :=
  tame_clearFw.bind fun _ => tame_tick.bind fun _ => (tame_op _).bind fun _ =>
    (tame_op _).bind fun _ => tame_modify _

theorem fwsave_noFault_iff {offset : Nat} {w : World} :
    StopsIn NoFault (upgCtlFwsave pkg env offset) w ↔ FwInside pkg env offset w := by
  have declared : (modify fun w => { w with fwFd := .unset } : M Unit) w =
      .ok () { w with fwFd := .unset } := rfl
  rw [upgCtlFwsave, stopsIn_bind_ok declared, (tame_readFwHead offset).bind_iff]
  have closes : Tame (do closeFw; op env .closeFailed) := (tame_modify _).bind fun _ => tame_op _
  have loop : ∀ attr n p w₂, StopsIn NoFault (do
        let _ ← rounds (saveLump pkg env attr) 0 n ⟨p, 0, 0, rawDataSize⟩
        closeFw
        op env .closeFailed) w₂ ↔
      ∀ k < n, ∀ v m, rounds (saveLump pkg env attr) 0 k ⟨p, 0, 0, rawDataSize⟩ w₂ = .ok v m →
        LumpInside pkg env v m := by
    intro attr n p w₂
    rw [Tame.then_iff fun _ => closes, stopsIn_rounds_iff]
    refine forall_congr' fun k => forall_congr' fun _ => forall_congr' fun v =>
      forall_congr' fun m => forall_congr' fun run => saveLump_noFault_iff ?_
    exact @rounds_invariant _ _ _ (saveLump pkg env attr)
      (fun _ v _ => v.uncompressLen ≤ rawDataSize) 0 k
      (fun _ _ _ _ _ small ran => saveLump_room small ran) _ _ _ _ (Nat.le_refl _) run
  constructor
  · intro inside attr n p w₁ w₂ head start
    have stops := inside (attr, n, p) w₁ head
    rw [tame_startFw.unit_bind_iff] at stops
    exact (loop attr n p w₂).mp (stops w₂ start)
  · rintro inside ⟨attr, n, p⟩ w₁ head
    rw [tame_startFw.unit_bind_iff]
    exact fun w₂ start => (loop attr n p w₂).mpr (inside attr n p w₁ w₂ head start)

/-! ### Other commands -/

theorem unpackCmd_noFault_iff {m : World} :
    StopsIn NoFault (unpackCmd pkg) m ↔ DataFits pkg m := by
  have start : StopsIn NoFault (unpackCmd pkg) m ↔ _ :=
    stopsIn_bind_ok (show (get : M World) m = .ok m m from rfl)
  rw [start, DataFits]
  by_cases plain : word m.upgFileData 0 = 0
  · rw [if_neg (not_not.mpr plain), if_pos plain]
    by_cases beyond : fileDataSize < 8 + word m.upgFileData 4
    · rw [if_pos beyond]
      exact iff_of_false fault_not_noFault (Nat.not_le.mpr beyond)
    · have fits : (stretch m.upgFileData 8 (word m.upgFileData 4)).length ≤ rawDataSize := by
        have buffers : fileDataSize ≤ rawDataSize := by decide
        rw [stretch_length]
        omega
      rw [if_neg beyond]
      exact iff_of_true (tame_storeRaw fits m) (Nat.not_lt.mp beyond)
  · rw [if_pos plain, if_neg plain]
    by_cases wants : fileDataSize - 8 < word m.upgFileData 4 ∧
        pkg.zlib.wants (stretch m.upgFileData 8 (min (word m.upgFileData 4) (fileDataSize - 8)))
          rawDataSize = true
    · rw [if_pos wants]
      obtain ⟨long, more⟩ := wants
      rw [Nat.min_eq_right (Nat.le_of_lt long)] at more
      exact iff_of_false fault_not_noFault fun enough => by simp [enough long] at more
    · rw [if_neg wants]
      refine iff_of_true ?_ fun long => ?_
      · split
        · exact tame_ret _ m
        next out unpacks => exact tame_storeRaw (uncompress_length unpacks) m
      · have enough := fun more => wants ⟨long, more⟩
        rw [Nat.min_eq_right (Nat.le_of_lt long)] at enough
        exact Bool.eq_false_iff.mpr enough

theorem verText_noFault_iff {ver : List UInt8} {m : World} :
    StopsIn NoFault (verText ver) m ↔ (cString ver).length < upgVerSize := by
  rw [verText]
  by_cases beyond : upgVerSize ≤ (cString ver).length
  · rw [if_pos beyond]
    exact iff_of_false fault_not_noFault (Nat.not_lt.mpr beyond)
  · rw [if_neg beyond]
    exact iff_of_true (tame_pure _ m) (Nat.not_le.mp beyond)

/-- The version is used as a string for an MCU application and a configuration file. -/
theorem upgPath_noFault_iff {type : UInt8} {ver : List UInt8} {m : World} :
    StopsIn NoFault (upgPath env type ver) m ↔
      (type = mcuAppBin ∨ type = mcuCfgFile → (cString ver).length < upgVerSize) := by
  rw [upgPath]
  by_cases app : type = mcuAppBin
  · rw [if_pos app, Tame.then_iff fun _ => (tame_ret _).ite (tame_op _), verText_noFault_iff]
    simp [app]
  rw [if_neg app]
  by_cases btl : type = mcuBtlBin
  · have unused : ¬ (type = mcuAppBin ∨ type = mcuCfgFile) := by
      rw [btl]
      decide
    rw [if_pos btl]
    exact iff_of_true (tame_pure _ m) fun used => absurd used unused
  rw [if_neg btl]
  by_cases cfg : type = mcuCfgFile
  · rw [if_pos cfg, Tame.then_iff fun _ => tame_pure _, verText_noFault_iff]
    simp [cfg]
  rw [if_neg cfg]
  refine iff_of_true ?_ (fun used => absurd used (not_or.mpr ⟨app, cfg⟩))
  exact Tame.ite ((tame_ret _).ite (tame_pure _))
    (Tame.ite (tame_pure _) (Tame.ite (tame_pure _) (tame_ret _))) m

theorem openContent_noFault_iff {type : UInt8} {ver : List UInt8} {m : World} :
    StopsIn NoFault (openContent env type ver) m ↔
      (type = mcuAppBin ∨ type = mcuCfgFile → (cString ver).length < upgVerSize) := by
  have clears : Tame (clearContent env type) := tame_clearFw.ite (tame_pure _)
  rw [openContent, Tame.then_iff fun _ => clears.bind fun _ => (tame_op _).bind fun _ => tame_op _]
  exact upgPath_noFault_iff

theorem writeContent_noFault_iff {type : UInt8} {verLen length : Nat} {m : World} :
    StopsIn NoFault (writeContent env type verLen length) m ↔
      8 + verLen + length ≤ rawDataSize := by
  have start : StopsIn NoFault (writeContent env type verLen length) m ↔ _ :=
    stopsIn_bind_ok (show (get : M World) m = .ok m m from rfl)
  rw [start]
  by_cases beyond : rawDataSize < 8 + verLen + length
  · rw [if_pos beyond]
    exact iff_of_false fault_not_noFault (Nat.not_le.mpr beyond)
  · rw [if_neg beyond]
    refine iff_of_true ?_ (Nat.not_lt.mp beyond)
    exact ((tame_op _).bind fun _ => (tame_modify _).ite (tame_pure _)) m

/-- What is done with the data of a command in `rawData`. -/
theorem unpacked_noFault_iff {type : UInt8} {m : World} :
    StopsIn NoFault (do
        let ver ← readVer
        let w ← get
        if w.contentLength < 32 then throw (.ret .devDataCheckFailed)
        else do
          openContent env type ver
          writeContent env type ver.length w.contentLength) m ↔
      word m.rawData 0 ≤ upgVerSize ∧ (32 ≤ m.contentLength →
        (type = mcuAppBin ∨ type = mcuCfgFile → (cString m.ver).length < upgVerSize) ∧
        ∀ m', openContent env type m.ver m = .ok () m' →
          8 + m.ver.length + m.contentLength ≤ rawDataSize) := by
  by_cases beyond : upgVerSize < word m.rawData 0
  · have stop : readVer m = .error (.fault .upgVer) m := by
      rw [readVer, get_bind_run, if_pos beyond, throw_run]
    refine iff_of_false (fun inside => ?_) (fun fits => Nat.not_le.mpr beyond fits.1)
    exact (stopsIn_bind_iff.mp inside).1 _ _ stop _ rfl
  · have run : readVer m = .ok m.ver m := by
      rw [readVer, get_bind_run, if_neg beyond, pure_run]
    rw [stopsIn_bind_ok run, stopsIn_bind_ok (show (get : M World) m = .ok m m from rfl),
      and_iff_right (Nat.not_lt.mp beyond)]
    by_cases short : m.contentLength < 32
    · rw [if_pos short]
      exact iff_of_true (tame_ret _ m) fun long => absurd short (Nat.not_lt.mpr long)
    · rw [if_neg short, stopsIn_bind_iff, openContent_noFault_iff,
        forall_prop_of_true (Nat.not_lt.mp short)]
      simp only [writeContent_noFault_iff]
      exact and_congr_right fun _ => ⟨fun each => each (), fun each _ => each⟩

theorem upgCtlSave_noFault_iff {cmdtype : Nat} {m : World} :
    StopsIn NoFault (upgCtlSave pkg env cmdtype) m ↔
      SaveFits pkg env (UInt8.ofNat cmdtype) m := by
  rw [upgCtlSave, stopsIn_bind_iff, unpackCmd_noFault_iff]
  simp only [unpacked_noFault_iff]
  constructor
  · rintro ⟨data, each⟩
    exact {
      data := data
      ver := fun m' run => (each () m' run).1
      text := fun m' run long => ((each () m' run).2 long).1
      content := fun m' run long => ((each () m' run).2 long).2 }
  · intro fits
    exact ⟨fits.data, fun _ m' run =>
      ⟨fits.ver m' run, fun long => ⟨fits.text m' run long, fits.content m' run long⟩⟩⟩

theorem saveData_noFault_iff {offset length type : Nat} {m : World} :
    StopsIn NoFault (saveData pkg env offset length type) m ↔
      (length ≤ fileDataSize → ∀ m₁, seekTo (u32 (offset + 4)) m = .ok () m₁ →
        4 ≤ length ∧ ∀ m₂, readFileData pkg env (length - 4) m₁ = .ok () m₂ →
          SaveFits pkg env (UInt8.ofNat type) m₂) := by
  rw [saveData]
  by_cases long : fileDataSize < length
  · rw [if_pos long]
    refine iff_of_true (stopsIn_throw_iff.mpr fun _ => Stop.noConfusion) fun fits => ?_
    exact absurd long (Nat.not_lt.mpr fits)
  rw [if_neg long, (tame_seekTo _).unit_bind_iff, forall_prop_of_true (Nat.not_lt.mp long)]
  refine forall_congr' fun m₁ => forall_congr' fun _ => ?_
  by_cases wraps : length < 4
  · rw [if_pos wraps]
    exact iff_of_false fault_not_noFault fun fits => Nat.not_le.mpr wraps fits.1
  · have room : readLen pkg env (length - 4) m₁ ≤ fileDataSize :=
      (readLen_le _ _).trans (by omega)
    rw [if_neg wraps, and_iff_right (Nat.not_lt.mp wraps), stopsIn_bind_iff,
      readFileData_noFault_iff, and_iff_right room]
    simp only [upgCtlSave_noFault_iff]
    exact ⟨fun each => each (), fun each _ => each⟩

/-! ### The package -/

theorem tame_readCmdHead (table k : Nat) : Tame (readCmdHead pkg env table k) :=
  (tame_lseek _).bind fun _ => tame_readWord.bind fun _ => (tame_lseek _).bind fun _ =>
    tame_readWord.bind fun _ => (tame_readWordAt _).bind fun _ => tame_pure _

theorem saveCmd_noFault_iff {verMid : Int} {table k : Nat} {cmds : List Nat} {m : World} :
    StopsIn NoFault (saveCmd pkg env verMid table k cmds) m ↔ CmdFits pkg env verMid table k m := by
  have each : ∀ offset length type m', StopsIn NoFault (
      if cmdTableSize ≤ k then throw (.fault .cmdTable)
      else do
        saveByType pkg env verMid offset length type
        pure (cmds ++ [type])) m' ↔ k < cmdTableSize ∧
      if type = mpuFirmware.toNat ∧ verMid ≥ 3 then FwInside pkg env (u32 (offset + 4)) m'
      else length ≤ fileDataSize → ∀ m₁, seekTo (u32 (offset + 4)) m' = .ok () m₁ →
        4 ≤ length ∧ ∀ m₂, readFileData pkg env (length - 4) m₁ = .ok () m₂ →
          SaveFits pkg env (UInt8.ofNat type) m₂ := by
    intro offset length type m'
    by_cases full : cmdTableSize ≤ k
    · rw [if_pos full]
      exact iff_of_false fault_not_noFault fun fits => Nat.not_lt.mpr full fits.1
    rw [if_neg full, and_iff_right (Nat.not_le.mp full), Tame.then_iff fun _ => tame_pure _,
      saveByType]
    by_cases firmware : type = mpuFirmware.toNat ∧ verMid ≥ 3
    · rw [if_pos firmware, if_pos firmware, fwsave_noFault_iff]
    · rw [if_neg firmware, if_neg firmware, saveData_noFault_iff]
  rw [saveCmd, (tame_readCmdHead table k).bind_iff]
  constructor
  · intro inside offset length type m' head
    exact (each offset length type m').mp (inside (offset, length, type) m' head)
  · rintro fits ⟨offset, length, type⟩ m' head
    exact (each offset length type m').mpr (fits offset length type m' head)

theorem tame_readPkgHead (pos : Nat) : Tame (readPkgHead pkg env pos) := by
  refine (tame_op _).bind fun _ => (tame_modify _).bind fun _ => (tame_op _).bind fun _ =>
    (tame_op _).bind fun _ => (tame_op _).bind fun _ => (tame_seekTo _).bind fun _ =>
      (tame_devRead (by decide)).bind fun _ => Tame.ite ?_ (tame_ret _)
  exact (tame_op _).bind fun _ => (tame_readWordAt _).bind fun _ =>
    (tame_readWordAt _).bind fun _ => tame_pure _

theorem tame_upgFinish (cmds : List Nat) : Tame (upgFinish env cmds) := by
  have tame_delete : Tame (deleteFw env) := fun u => stopsIn_of_ok (deleteFw_run u)
  exact Tame.ite (tame_pure _) (Tame.ite (tame_tick.bind fun _ =>
    Tame.ite (tame_delete.bind fun _ => tame_ret _) (tame_pure _)) (tame_op _))

/-- `upg_ctl_proc` leaves none of the buffers, and subtracts no length from a smaller one, exactly
if each command that its loop gets to has its place in the table and lengths that fit. -/
theorem upg_proc_bounded (pkg : Pkg) (env : Env) (pos : Nat) (w : World) :
    StopsIn NoFault (upgCtlProc pkg env pos) w ↔
      ∀ verMid cmdtotal w₁, readPkgHead pkg env pos w = .ok (verMid, cmdtotal) w₁ →
        ∀ k < cmdtotal, ∀ cmds m,
          rounds (saveCmd pkg env verMid (u32 (pos + 8))) 0 k [] w₁ = .ok cmds m →
          CmdFits pkg env verMid (u32 (pos + 8)) k m := by
  have loop : ∀ verMid n w₁, StopsIn NoFault (do
        let cmds ← rounds (saveCmd pkg env verMid (u32 (pos + 8))) 0 n []
        op env .writeFailed
        upgFinish env cmds) w₁ ↔
      ∀ k < n, ∀ cmds m, rounds (saveCmd pkg env verMid (u32 (pos + 8))) 0 k [] w₁ = .ok cmds m →
        CmdFits pkg env verMid (u32 (pos + 8)) k m := by
    intro verMid n w₁
    rw [Tame.then_iff fun cmds => (tame_op _).bind fun _ => tame_upgFinish cmds,
      stopsIn_rounds_iff]
    simp only [Nat.zero_add, saveCmd_noFault_iff]
  rw [upgCtlProc, (tame_readPkgHead pos).bind_iff]
  constructor
  · intro inside verMid n w₁ head
    exact (loop verMid n w₁).mp (inside (verMid, n) w₁ head)
  · rintro fits ⟨verMid, n⟩ w₁ head
    exact (loop verMid n w₁).mpr (fits verMid n w₁ head)

end

/-- A package with one command of length 0: the start mark, the version, no information, the
table, the type of the command, the MD5 of all that, and the end mark. -/
def emptyCmd : Pkg where
  file := [0xAA,
    0x56, 0x65, 0x72, 0x2E, 0x33, 0x2E, 0x30, 0x00, 0x00, 0x00, 0x00, 0x00,
    0x10, 0x00, 0x00, 0x00, 0x01, 0x00, 0x00, 0x00, 0x1D, 0x00, 0x00, 0x00,
    0x00, 0x00, 0x00, 0x00, 0x00, 0x00, 0x00, 0x00,
    0xD5, 0xB2, 0xAB, 0x75, 0xA5, 0xDB, 0xC9, 0xB6,
    0xFB, 0x20, 0xDB, 0x93, 0xBE, 0x57, 0xD0, 0xA9, 0x55]
  small := by decide
  zlib := twoStreams
  verMid _ := 3

/-- The length of the data, 0 - 4, wraps. -/
theorem upg_proc_wraps : ¬ StopsIn NoFault (upgCtlProc emptyCmd fine 13) World.fresh := by
  have wraps : exit (upgCtlProc emptyCmd fine 13 World.fresh) =
      some (.fault .wraps, .unset, none) := by decide +kernel
  obtain ⟨u, run, -⟩ := exit_eq wraps
  exact fun inside => inside _ u run _ rfl

end PkgFile
