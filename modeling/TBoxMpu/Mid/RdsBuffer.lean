import TBoxMpu.Mid.RdsCrash

/-!
# The caller's buffer after a failed get

`rds_read` writes the data of a file into the caller's buffer before it compares the digest.
A get that fails leaves there what the master, and then the backup, had in the place of the
data (`get_failed`), so that the buffer is as before only if it held these bytes already
(`get_keeps_buffer_iff`). `*len` and `ver` are written after the comparison.
-/

namespace Rds

open Crash

variable {md5 : Md5} {type : RdsDataType}

/-! ### Overwritten buffers -/

/-- The buffer with other bytes at its beginning. -/
def overlay (front buffer : List UInt8) : List UInt8 :=
  front ++ buffer.drop front.length

theorem overlay_nil (buffer : List UInt8) : overlay [] buffer = buffer :=
  rfl

theorem overlay_overlay (second first buffer : List UInt8) :
    overlay second (overlay first buffer) = overlay (overlay second first) buffer := by
  have behind : first.length + (second.length - first.length) =
      second.length + (first.length - second.length) := by omega
  unfold overlay
  rw [List.drop_append, List.drop_drop, List.append_assoc, List.length_append, List.length_drop,
    behind]

theorem overlay_eq_iff {front buffer : List UInt8} :
    overlay front buffer = buffer ↔ front <+: buffer := by
  constructor
  · exact fun same => ⟨_, same⟩
  · rintro ⟨rest, rfl⟩
    unfold overlay
    rw [List.drop_left]

/-! ### A read that fails -/

/-- What `rds_read` takes for the data: those of a file with the size that its header tells,
if the buffer has room for them. -/
def payload (file : Option (List UInt8)) (len : UInt32) : List UInt8 :=
  match file with
  | none => []
  | some bytes =>
    let size := UInt32.ofNat bytes.length
    let hdrLen := lenOf ((bytes.take 36).drop 32)
    if 36 + 16 < size ∧ size = 36 + 16 + hdrLen ∧ hdrLen ≤ len then
      (bytes.drop 36).take hdrLen.toNat
    else []

/-- A file that passes the tests of the sizes has all of the data. -/
theorem length_data {bytes : List UInt8} {hdrLen : UInt32}
    (long : ¬ UInt32.ofNat bytes.length ≤ 36 + 16)
    (size : UInt32.ofNat bytes.length = 36 + 16 + hdrLen) :
    ((bytes.drop 36).take hdrLen.toNat).length = hdrLen.toNat := by
  have const : (36 + 16 : UInt32).toNat = 52 := rfl
  have small := hdrLen.toNat_lt
  rw [size, UInt32.le_iff_toNat_le, UInt32.toNat_add, const] at long
  replace size := congrArg UInt32.toNat size
  rw [UInt32.toNat_add, UInt32.toNat_ofNat', const] at size
  rw [List.length_take, List.length_drop]
  omega

theorem rdsRead_failed {file : Option (List UInt8)} {out : OutBuf}
    (failed : (rdsRead md5 file out).1 ≠ .ok) :
    (rdsRead md5 file out).2 = { out with data := overlay (payload file out.len) out.data } := by
  cases file with
  | none => rfl
  | some bytes =>
    unfold rdsRead at failed ⊢
    unfold payload
    dsimp only at failed ⊢
    split
    next small => rw [if_neg fun sizes => UInt32.not_le.mpr sizes.1 small, overlay_nil]
    next long =>
    split
    next other => rw [if_neg fun sizes => other sizes.2.1, overlay_nil]
    next size =>
    replace size := Decidable.not_not.mp size
    split
    next short => rw [if_neg fun sizes => UInt32.not_le.mpr short sizes.2.2, overlay_nil]
    next enough =>
    have sizes : 36 + 16 < UInt32.ofNat bytes.length ∧ UInt32.ofNat bytes.length =
        36 + 16 + lenOf ((bytes.take 36).drop 32) ∧ lenOf ((bytes.take 36).drop 32) ≤ out.len :=
      ⟨UInt32.not_le.mp long, size, UInt32.not_lt.mp enough⟩
    rw [if_pos sizes, overlay, length_data long size]
    split
    next differs => rfl
    next same =>
      rw [if_neg long, if_neg (not_not_intro size), if_neg enough, if_neg same] at failed
      exact absurd rfl failed

/-! ### A get that fails -/

/-- What a failed get writes over the buffer: the data of the backup over those of the
master. -/
def leftBehind (type : RdsDataType) (files : Files RdsPath) (len : UInt32) : List UInt8 :=
  overlay (payload (files (backup type)) len) (payload (files (master type)) len)

variable {files : Files RdsPath} {out out' : OutBuf} {life : Nat} {ret : Ret} {d : Disk RdsPath}

theorem get_failed (run : rdsGet md5 type out ⟨files, life⟩ = .ok (ret, out') d)
    (failed : ret ≠ .ok) :
    out' = { out with data := overlay (leftBehind type files out.len) out.data } := by
  rcases fwp_ok (rdsGet_spec out files) run with
    ⟨ok, res, -⟩ | ⟨-, ok, res, -⟩ | ⟨first, second, res, -⟩
  · exact absurd ((congrArg Prod.fst res).trans ok) failed
  · exact absurd ((congrArg Prod.fst res).trans ok) failed
  · have left := rdsRead_failed first
    have left' : out' = _ := (congrArg Prod.snd res).trans (rdsRead_failed second)
    unfold firstRead at left'
    rw [left', left, overlay_overlay]
    rfl

/-- A get that fails leaves the buffer as it was exactly if this already began with what the
two files have in the place of the data. -/
theorem get_keeps_buffer_iff (run : rdsGet md5 type out ⟨files, life⟩ = .ok (ret, out') d)
    (failed : ret ≠ .ok) :
    out' = out ↔ leftBehind type files out.len <+: out.data := by
  rw [get_failed run failed, ← overlay_eq_iff]
  cases out with
  | mk data len ver => simp only [OutBuf.mk.injEq, and_true]

/-- The buffer of `uds_diag_init`. -/
def udsDiagItemBuf : OutBuf :=
  ⟨List.replicate 1024 0, 1024, some (List.replicate 32 0)⟩

/-- No master, and this backup. -/
def backupOnly (bytes : List UInt8) : Files RdsPath :=
  fun path => if path = backup .udsDiag then some bytes else none

/-- The backup has lost its last byte. -/
theorem get_keeps_short : ∃ out d,
    rdsGet sampleMd5 .udsDiag udsDiagItemBuf ⟨backupOnly ((image sampleMd5 [1]).take 52), 0⟩ =
      .ok (.invalidFile, out) d ∧ out = udsDiagItemBuf :=
  have run : rdsGet sampleMd5 .udsDiag udsDiagItemBuf
      ⟨backupOnly ((image sampleMd5 [1]).take 52), 0⟩ = .ok (.invalidFile, udsDiagItemBuf) _ := rfl
  ⟨_, _, run, (get_keeps_buffer_iff run nofun).mpr (by decide)⟩

/-- The data of the backup were changed: the get fails, and they are in the buffer. -/
theorem changed_backup_left : ∃ out d,
    rdsGet sampleMd5 .udsDiag udsDiagItemBuf
      ⟨backupOnly (hdrBytes 1 ++ [2] ++ (sampleMd5 (hdrBytes 1 ++ [1])).toList), 0⟩ =
      .ok (.invalidFile, out) d ∧ out.data.head? = some 2 ∧ out ≠ udsDiagItemBuf := by
  refine ⟨_, _, rfl, by decide, by decide⟩

end Rds
