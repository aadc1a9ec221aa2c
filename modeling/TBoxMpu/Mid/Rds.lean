import Mathlib.Data.UInt
import TBoxMpu.Lib.Crash

/-!
# The reliable data store

`rds_get` and `rds_update_once` of `rds.c`, with what they use of `file.c`. Each item has a
master file and a backup file; a file is a header, the data, and the MD5 of both.
-/

namespace Rds

open Crash

/-! ### Items and their files -/

inductive RdsDataType
  | devInfo | distance | udsDiag | j1939Fault | sysCfg | adaptiveCfg | fotonRegseq
  deriving DecidableEq, Repr

inductive RdsBackupAttr
  | single | backup
  deriving DecidableEq, Repr

/-- `RDS_ITEM`; the directories and the file name are in `RdsPath`. -/
structure RdsItem where
  type : RdsDataType
  backupAttr : RdsBackupAttr
  hasArea : Bool
  deriving DecidableEq, Repr

def rdsDataTbl : List RdsItem :=
  [⟨.devInfo, .backup, false⟩, ⟨.distance, .backup, false⟩, ⟨.udsDiag, .backup, false⟩,
    ⟨.j1939Fault, .backup, false⟩, ⟨.sysCfg, .backup, true⟩, ⟨.adaptiveCfg, .backup, false⟩,
    ⟨.fotonRegseq, .backup, false⟩]

/-- `rds_get_index`, and the item. -/
def rdsItem? (type : RdsDataType) : Option RdsItem :=
  rdsDataTbl.find? fun item => item.type = type

/-- The file of an item in its master or its backup directory, and the `.new` beside it. -/
structure RdsPath where
  type : RdsDataType
  backup : Bool
  new : Bool
  deriving DecidableEq, Repr

/-- `rds_get_full_path`: an item without backup has one file. -/
def rdsGetFullPath (item : RdsItem) (backup : Bool) : RdsPath :=
  ⟨item.type, item.backupAttr = .backup && backup, false⟩

/-- `path.new` -/
def RdsPath.temp (path : RdsPath) : RdsPath :=
  { path with new := true }

inductive Ret
  | ok | invalidPara | invalidType | fileNotExist | invalidFile | fileStatFailed
  deriving DecidableEq, Repr

/-! ### Files -/

/-- MD5 of a file's header and data. -/
abbrev Md5 := List UInt8 → Vector UInt8 16

/-- `file_update_atomic` -/
def fileUpdateAtomic (md5 : Md5) (path : RdsPath) (hdr data : List UInt8) :
    Io RdsPath Ret := do
  -- the file in use stays whole until the name is moved
  create path.temp
  write path.temp hdr
  write path.temp data
  write path.temp (md5 (hdr ++ data)).toList
  quiet
  rename path.temp path
  pure .ok

/-- `dir_make_path` for a file that is not there yet. -/
def dirMakePath (files : Files RdsPath) (path : RdsPath) : Io RdsPath Unit :=
  if files path = none then quiet else pure ()

/-- `file_copy`; the step after `creat` copies the owner. -/
def fileCopy (src dst : RdsPath) : Io RdsPath Ret := do
  let files ← read
  match files src with
  | none => pure .fileStatFailed
  | some bytes => do
    dirMakePath files dst
    -- from here to the second write the copy is not whole
    create dst
    quiet
    write dst bytes
    quiet
    pure .ok

/-! ### Writing and reading an item -/

/-- `COM_APP_MAIN_VER`, in the 32 bytes of `RDS_HDR.ver`. -/
def mainVer : List UInt8 :=
  "MPU_J303FTTRAD091[A_00]".toList.map (fun c => UInt8.ofNat c.toNat) ++ List.replicate 9 0

/-- `RDS_HDR.len`, the lowest byte first. -/
def lenBytes (len : UInt32) : List UInt8 :=
  [0, 8, 16, 24].map fun shift => UInt8.ofNat (len.toNat / 2 ^ shift)

def lenOf (bytes : List UInt8) : UInt32 :=
  UInt32.ofNat (bytes.foldr (fun b high => b.toNat + 256 * high) 0)

/-- `RDS_HDR` -/
def hdrBytes (len : UInt32) : List UInt8 :=
  mainVer ++ lenBytes len

/-- `rds_write` -/
def rdsWrite (md5 : Md5) (path : RdsPath) (data : List UInt8) : Io RdsPath Ret := do
  let files ← read
  dirMakePath files path
  fileUpdateAtomic md5 path (hdrBytes (UInt32.ofNat data.length)) data

/-- `dir_copy` of the item's directory to another partition: none of the item's files. -/
def dirCopy : Io RdsPath Ret := do
  quiet
  pure .ok

/-- `rds_update_once` -/
def rdsUpdateOnce (md5 : Md5) (type : RdsDataType) (data : List UInt8) : Io RdsPath Ret :=
  if data.length = 0 then pure .invalidPara
  else match rdsItem? type with
    | none => pure .invalidType
    | some item => do
      -- the master first, so that one of the two files is always whole
      let ret ← rdsWrite md5 (rdsGetFullPath item false) data
      if ret ≠ .ok then pure ret
      else do
        let ret ← (if item.backupAttr = .backup then
          fileCopy (rdsGetFullPath item false) (rdsGetFullPath item true) else pure ret)
        if item.hasArea then dirCopy else pure ret

/-- What the caller passes to `rds_get`: its buffer, `*len`, and `ver` if it is not null. -/
structure OutBuf where
  data : List UInt8
  len : UInt32
  ver : Option (List UInt8)
  deriving DecidableEq, Repr

/-- `strncpy` into the 32 bytes of `ver`, and the final zero. -/
def copyVer (ver : List UInt8) : List UInt8 :=
  let text := (ver.takeWhile (· ≠ 0)).take 31
  text ++ List.replicate (32 - text.length) 0

/-- `rds_read`: sizes are compared as unsigned numbers. -/
def rdsRead (md5 : Md5) (file : Option (List UInt8)) (out : OutBuf) : Ret × OutBuf :=
  match file with
  | none => (.fileNotExist, out)
  | some bytes =>
    let size := UInt32.ofNat bytes.length
    let hdr := bytes.take 36
    let hdrLen := lenOf (hdr.drop 32)
    if size ≤ 36 + 16 then (.invalidFile, out)
    -- the length in the header tells what the file must have
    else if size ≠ 36 + 16 + hdrLen then (.invalidFile, out)
    else if out.len < hdrLen then (.invalidPara, out)
    else
      let data := (bytes.drop 36).take hdrLen.toNat
      -- the caller's buffer is written before the digest is compared
      let out := { out with data := data ++ out.data.drop hdrLen.toNat }
      if (md5 (hdr ++ data)).toList ≠ (bytes.drop (36 + hdrLen.toNat)).take 16 then
        (.invalidFile, out)
      else (.ok, { out with len := hdrLen, ver := out.ver.map fun _ => copyVer (hdr.take 32) })

/-- `rds_get`: what is read from the backup is copied back. -/
def rdsGet (md5 : Md5) (type : RdsDataType) (out : OutBuf) : Io RdsPath (Ret × OutBuf) :=
  match rdsItem? type with
  | none => pure (.invalidType, out)
  | some item => do
    let files ← read
    let (ret, out) := rdsRead md5 (files (rdsGetFullPath item false)) out
    if ret = .ok then pure (.ok, out)
    else if item.backupAttr ≠ .backup then pure (ret, out)
    else
      -- the master is not whole, or not there
      let (ret, out) := rdsRead md5 (files (rdsGetFullPath item true)) out
      if ret ≠ .ok then pure (ret, out)
      else do
        let _ ← fileCopy (rdsGetFullPath item true) (rdsGetFullPath item false)
        pure (.ok, out)

/-! ### What a file holds -/

@[simp]
theorem length_mainVer : mainVer.length = 32 := by
  decide

@[simp]
theorem length_lenBytes (len : UInt32) : (lenBytes len).length = 4 :=
  rfl

theorem lenOf_lenBytes (len : UInt32) : lenOf (lenBytes len) = len := by
  apply UInt32.toNat_inj.mp
  have small := len.toNat_lt
  simp only [lenOf, lenBytes, List.map_cons, List.map_nil, List.foldr_cons, List.foldr_nil,
    UInt8.toNat_ofNat', UInt32.toNat_ofNat']
  omega

/-- The file of `data`. -/
def image (md5 : Md5) (data : List UInt8) : List UInt8 :=
  let hdr := hdrBytes (UInt32.ofNat data.length)
  hdr ++ data ++ (md5 (hdr ++ data)).toList

@[simp]
theorem length_hdrBytes (len : UInt32) : (hdrBytes len).length = 36 := by
  simp [hdrBytes]

theorem length_image (md5 : Md5) (data : List UInt8) :
    (image md5 data).length = data.length + 52 := by
  simp [image]
  omega

theorem lenOf_hdrBytes (len : UInt32) : lenOf ((hdrBytes len).drop 32) = len := by
  have drop : (hdrBytes len).drop 32 = lenBytes len := List.drop_left' length_mainVer
  rw [drop, lenOf_lenBytes]

/-- The data of an item: not empty, and a file can hold it. -/
structure RdsData where
  bytes : List UInt8
  nonempty : 0 < bytes.length
  fits : bytes.length + 52 < 2 ^ 31

/-- The header of an image, or of what a crash left of it, gives the length of the data. -/
theorem lenOf_prefix {md5 : Md5} {data p : List UInt8} (prefixed : p <+: image md5 data)
    (long : 36 ≤ p.length) :
    p.take 36 = hdrBytes (UInt32.ofNat data.length) := by
  obtain ⟨rest, eq⟩ := prefixed
  have take : (image md5 data).take 36 = hdrBytes (UInt32.ofNat data.length) := by
    unfold image
    rw [List.append_assoc]
    exact List.take_left' (length_hdrBytes _)
  rw [← take, ← eq, List.take_append_of_le_length long]

/-- The comparison of the sizes, for the header of `data`. -/
theorem size_eq {n : Nat} (data : RdsData) (small : n < 2 ^ 31) :
    UInt32.ofNat n = 36 + 16 + UInt32.ofNat data.bytes.length ↔ n = data.bytes.length + 52 := by
  have fits := data.fits
  rw [← UInt32.toNat_inj, UInt32.toNat_add, UInt32.toNat_ofNat', UInt32.toNat_ofNat']
  have const : (36 + 16 : UInt32).toNat = 52 := rfl
  omega

theorem size_le {n : Nat} (small : n < 2 ^ 31) : UInt32.ofNat n ≤ 36 + 16 ↔ n ≤ 52 := by
  rw [UInt32.le_iff_toNat_le, UInt32.toNat_ofNat']
  have const : (36 + 16 : UInt32).toNat = 52 := rfl
  omega

theorem toNat_length (data : RdsData) :
    (UInt32.ofNat data.bytes.length).toNat = data.bytes.length := by
  have fits := data.fits
  rw [UInt32.toNat_ofNat']
  omega

/-- Reading the file of `data`: the buffer is too short, or gets `data`. -/
theorem rdsRead_image (md5 : Md5) (data : RdsData) (out : OutBuf) :
    rdsRead md5 (some (image md5 data.bytes)) out =
      if out.len.toNat < data.bytes.length then (.invalidPara, out)
      else (.ok, ⟨data.bytes ++ out.data.drop data.bytes.length,
        UInt32.ofNat data.bytes.length, out.ver.map fun _ => copyVer mainVer⟩) := by
  have fits := data.fits
  have nonempty := data.nonempty
  have small : (image md5 data.bytes).length < 2 ^ 31 := by
    rw [length_image]
    exact fits
  have hdr := lenOf_prefix (List.prefix_refl (image md5 data.bytes))
    (by rw [length_image]; omega)
  have body : ((image md5 data.bytes).drop 36).take data.bytes.length = data.bytes := by
    unfold image
    rw [List.append_assoc, List.drop_left' (length_hdrBytes _)]
    exact List.take_left
  have tail : ((image md5 data.bytes).drop (36 + data.bytes.length)).take 16 =
      (md5 (hdrBytes (UInt32.ofNat data.bytes.length) ++ data.bytes)).toList := by
    unfold image
    rw [List.drop_left' (by simp), List.take_of_length_le (by simp)]
  have ver : (hdrBytes (UInt32.ofNat data.bytes.length)).take 32 = mainVer :=
    List.take_left' length_mainVer
  unfold rdsRead
  dsimp only
  rw [hdr, lenOf_hdrBytes, toNat_length, body, tail, ver, if_neg, if_neg]
  · simp only [UInt32.lt_iff_toNat_lt, toNat_length]
    split
    · rfl
    · exact if_neg (fun h => h rfl)
  · rw [ne_eq, Decidable.not_not]
    exact (size_eq data small).mpr (length_image md5 data.bytes)
  · rw [size_le small, length_image]
    omega

/-- No file, or one that `rds_read` refuses for every buffer. -/
def Unreadable (md5 : Md5) (file : Option (List UInt8)) : Prop :=
  ∀ out, (rdsRead md5 file out).1 ≠ .ok

theorem unreadable_none (md5 : Md5) : Unreadable md5 none :=
  fun _ => nofun

/-- What a crash leaves of a file that was not written to its end is not read. -/
theorem prefix_unreadable {md5 : Md5} {data : RdsData} {p : List UInt8}
    (prefixed : p <+: image md5 data.bytes) (short : p ≠ image md5 data.bytes) :
    Unreadable md5 (some p) := by
  intro out
  have fits := data.fits
  have shorter : p.length < data.bytes.length + 52 := by
    rw [← length_image md5]
    apply Nat.lt_of_le_of_ne prefixed.length_le
    exact fun h => short (prefixed.eq_of_length h)
  have small : p.length < 2 ^ 31 := by omega
  unfold rdsRead
  dsimp only
  by_cases size : p.length ≤ 52
  · rw [if_pos ((size_le small).mpr size)]
    exact nofun
  · have hdr := lenOf_prefix prefixed (by omega)
    rw [hdr, lenOf_hdrBytes, if_neg (mt (size_le small).mp size), if_pos]
    · exact nofun
    · intro h
      have whole := (size_eq data small).mp h
      omega

end Rds
