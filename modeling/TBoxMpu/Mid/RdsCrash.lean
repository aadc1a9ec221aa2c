import TBoxMpu.Lib.Runs
import TBoxMpu.Mid.Rds

/-!
# The data store over crashes

An update takes effect when the new master file gets its name: the backup is written while
the master is whole, and the master is written in place only from a whole backup.
-/

namespace Rds

open Crash

variable {md5 : Md5} {type : RdsDataType}

/-! ### File operations -/

/-- Only the file beside `path` differs. -/
def Beside (path : RdsPath) (files files' : Files RdsPath) : Prop :=
  ∀ p, p ≠ path.temp → files' p = files p

theorem beside_set (path : RdsPath) (files : Files RdsPath) (c : Option (List UInt8)) :
    Beside path files (files.set path.temp c) :=
  fun _ => set_other files c

theorem write_temp (path : RdsPath) (files : Files RdsPath) (c bytes : List UInt8) :
    fwp (write path.temp bytes)
      (fun _ files' => files' = files.set path.temp (some (c ++ bytes)))
      (Beside path files) (files.set path.temp (some c)) := by
  apply fwp_mono (fwp_write (set_same _ _ _))
  · rintro _ _ rfl
    rw [set_set]
  · rintro _ ⟨p, -, rfl⟩
    rw [set_set]
    exact beside_set _ _ _

theorem fileUpdateAtomic_spec {path : RdsPath} (main : path.new = false) (hdr data : List UInt8)
    (files : Files RdsPath) :
    fwp (fileUpdateAtomic md5 path hdr data)
      (fun ret files' => ret = .ok ∧
        Beside path (files.set path (some (hdr ++ data ++ (md5 (hdr ++ data)).toList))) files')
      (Beside path files) files := by
  have apart : path ≠ path.temp :=
    fun h => nomatch main.symm.trans (congrArg RdsPath.new h)
  unfold fileUpdateAtomic create rename
  apply fwp_step_bind (fun _ _ => rfl)
  -- Until the file gets its name, only the one beside it has changed.
  refine fwp_bind (write_temp path files [] hdr) ?_
  rintro ⟨⟩ _ rfl
  refine fwp_bind (write_temp path files _ data) ?_
  rintro ⟨⟩ _ rfl
  refine fwp_bind (write_temp path files _ _) ?_
  rintro ⟨⟩ _ rfl
  apply fwp_step_bind (beside_set _ _ _)
  apply fwp_step_bind (beside_set _ _ _)
  refine fwp_pure ⟨rfl, ?_⟩
  intro p other
  rw [set_same, Option.isSome_some, if_pos rfl, set_other _ _ other, List.nil_append]
  by_cases h : p = path
  · rw [h, set_same, set_same]
  · rw [set_other _ _ h, set_other _ _ h, set_other _ _ other]

theorem dirMakePath_spec {path : RdsPath} {E : Files RdsPath → Prop} {files : Files RdsPath}
    (crash : E files) :
    fwp (dirMakePath files path) (fun _ files' => files' = files) E files := by
  apply fwp_ite
  · exact fun _ => fwp_step crash rfl
  · exact fun _ => fwp_pure rfl

/-- A crash leaves the copy as it was, or a prefix of it. -/
theorem fileCopy_spec {src dst : RdsPath} {bytes : List UInt8} {files : Files RdsPath}
    (has : files src = some bytes) :
    fwp (fileCopy src dst)
      (fun ret files' => ret = .ok ∧ files' = files.set dst (some bytes))
      (fun files' => files' = files ∨ ∃ p, p <+: bytes ∧ files' = files.set dst (some p))
      files := by
  unfold fileCopy create
  apply fwp_read_bind
  rw [has]
  refine fwp_bind (dirMakePath_spec (.inl rfl)) ?_
  rintro ⟨⟩ _ rfl
  apply fwp_step_bind (.inl rfl)
  -- emptied, then filled from the front
  apply fwp_step_bind (.inr ⟨[], List.nil_prefix, rfl⟩)
  refine fwp_bind (fwp_mono (fwp_write (set_same _ _ _)) (fun _ _ => id) ?_) ?_
  · rintro _ ⟨p, prefixed, rfl⟩
    rw [id, set_set]
    exact .inr ⟨p, prefixed, rfl⟩
  rintro ⟨⟩ _ rfl
  rw [id, set_set]
  apply fwp_step_bind (.inr ⟨bytes, List.prefix_refl _, rfl⟩)
  exact fwp_pure ⟨rfl, rfl⟩

/-! ### Updating and reading -/

/-- The item's two files. -/
def master (type : RdsDataType) : RdsPath := ⟨type, false, false⟩

def backup (type : RdsDataType) : RdsPath := ⟨type, true, false⟩

/-- Every item is in the table, with backup. -/
theorem rdsItem?_some (type : RdsDataType) :
    ∃ area, rdsItem? type = some ⟨type, .backup, area⟩ := by
  cases type
  all_goals exact ⟨_, rfl⟩

theorem backup_ne_master (type : RdsDataType) : backup type ≠ master type :=
  fun h => nomatch congrArg RdsPath.backup h

theorem rdsWrite_spec {path : RdsPath} (main : path.new = false) (data : List UInt8)
    (files : Files RdsPath) :
    fwp (rdsWrite md5 path data)
      (fun ret files' => ret = .ok ∧
        Beside path (files.set path (some (image md5 data))) files')
      (Beside path files) files := by
  unfold rdsWrite
  apply fwp_read_bind
  refine fwp_bind (dirMakePath_spec (fun _ _ => rfl)) ?_
  rintro ⟨⟩ _ rfl
  exact fileUpdateAtomic_spec main _ _ _

/-- The files after an update, or after a crash in it: both as they were, or a new master and
the backup as it was, or in part. -/
structure Updated (type : RdsDataType) (img : List UInt8) (files files' : Files RdsPath) :
    Prop where
  master : files' (master type) = files (master type) ∨ files' (master type) = some img
  backup : files' (backup type) = files (backup type) ∨
    files' (Rds.master type) = some img ∧ ∃ p, p <+: img ∧ files' (backup type) = some p

/-- An update writes both files. -/
theorem rdsUpdateOnce_spec (data : RdsData) (files : Files RdsPath) :
    fwp (rdsUpdateOnce md5 type data.bytes)
      (fun ret files' => ret = .ok ∧ files' (master type) = some (image md5 data.bytes) ∧
        files' (backup type) = some (image md5 data.bytes))
      (Updated type (image md5 data.bytes) files) files := by
  obtain ⟨area, item⟩ := rdsItem?_some type
  have apart := backup_ne_master type
  have besideMaster : master type ≠ (master type).temp := nofun
  have besideBackup : backup type ≠ (master type).temp := nofun
  have writes := @rdsWrite_spec md5 (master type) rfl data.bytes files
  unfold rdsUpdateOnce
  rw [if_neg (Nat.pos_iff_ne_zero.mp data.nonempty), item]
  refine fwp_bind (fwp_mono writes (fun _ _ => id) ?_) ?_
  · intro files' beside
    exact ⟨.inl (beside _ besideMaster), .inl (beside _ besideBackup)⟩
  rintro _ files' ⟨rfl, beside⟩
  -- the master is whole before the backup is touched
  have written : files' (master type) = some (image md5 data.bytes) := by
    rw [beside _ besideMaster, set_same]
  have kept : files' (backup type) = files (backup type) := by
    rw [beside _ besideBackup, set_other _ _ apart]
  rw [if_neg (fun h => h rfl), if_pos rfl]
  refine fwp_bind (fwp_mono (fileCopy_spec written) (fun _ _ => id) ?_) ?_
  · -- a crash in the copy leaves the new master
    rintro _ (rfl | ⟨p, prefixed, rfl⟩)
    · exact ⟨.inr written, .inl kept⟩
    · have master' := set_other files' (some p) apart.symm
      exact ⟨.inr (master'.trans written), .inr ⟨master'.trans written, p, prefixed,
        set_same _ _ _⟩⟩
  rintro _ _ ⟨rfl, rfl⟩
  have master' := (set_other files' (some (image md5 data.bytes)) apart.symm).trans written
  have backup' := set_same files' (backup type) (some (image md5 data.bytes))
  apply fwp_ite
  · intro _
    apply fwp_step_bind ⟨.inr master', .inr ⟨master', _, List.prefix_refl _, backup'⟩⟩
    exact fwp_pure ⟨rfl, master', backup'⟩
  · exact fun _ => fwp_pure ⟨rfl, master', backup'⟩

theorem rdsUpdateOnce_empty (data : List UInt8) (h : data.length = 0) :
    rdsUpdateOnce md5 type data = pure .invalidPara :=
  if_pos h

/-- The first read; the second one, of the backup, gets what it left in the buffer. -/
def firstRead (md5 : Md5) (type : RdsDataType) (files : Files RdsPath) (out : OutBuf) :
    Ret × OutBuf :=
  rdsRead md5 (files (master type)) out

def secondRead (md5 : Md5) (type : RdsDataType) (files : Files RdsPath) (out : OutBuf) :
    Ret × OutBuf :=
  rdsRead md5 (files (backup type)) (firstRead md5 type files out).2

/-- A get reads the master, or reads the backup and copies it to the master, or fails. -/
theorem rdsGet_spec (out : OutBuf) (files : Files RdsPath) :
    fwp (rdsGet md5 type out)
      (fun res files' =>
        ((firstRead md5 type files out).1 = .ok ∧ res = firstRead md5 type files out ∧
          files' = files) ∨
        ((firstRead md5 type files out).1 ≠ .ok ∧ (secondRead md5 type files out).1 = .ok ∧
          res = secondRead md5 type files out ∧
          files' = files.set (master type) (files (backup type))) ∨
        ((firstRead md5 type files out).1 ≠ .ok ∧ (secondRead md5 type files out).1 ≠ .ok ∧
          res = secondRead md5 type files out ∧ files' = files))
      (fun files' => files' = files ∨ (secondRead md5 type files out).1 = .ok ∧
        ∃ bytes p, files (backup type) = some bytes ∧ p <+: bytes ∧
          files' = files.set (master type) (some p)) files := by
  obtain ⟨area, item⟩ := rdsItem?_some type
  unfold rdsGet
  rw [item]
  apply fwp_read_bind
  change fwp (if (firstRead md5 type files out).1 = .ok then
      pure (.ok, (firstRead md5 type files out).2)
    else if (secondRead md5 type files out).1 ≠ .ok then pure (secondRead md5 type files out)
    else do
      let _ ← fileCopy (backup type) (master type)
      pure (.ok, (secondRead md5 type files out).2)) _ _ _
  apply fwp_ite
  · intro first
    exact fwp_pure (.inl ⟨first, Prod.ext first.symm rfl, rfl⟩)
  intro first
  apply fwp_ite
  · exact fun second => fwp_pure (.inr (.inr ⟨first, second, rfl, rfl⟩))
  intro second
  replace second := Decidable.not_not.mp second
  cases has : files (backup type) with
  | none =>
    unfold secondRead at second
    rw [has] at second
    exact nomatch second
  | some bytes =>
    refine fwp_bind (fwp_mono (fileCopy_spec has) (fun _ _ => id) ?_) ?_
    · rintro _ (rfl | ⟨p, prefixed, rfl⟩)
      · exact .inl rfl
      · exact .inr ⟨second, bytes, p, rfl, prefixed, rfl⟩
    rintro _ _ ⟨rfl, rfl⟩
    exact fwp_pure (.inr (.inl ⟨first, second, Prod.ext second.symm rfl, rfl⟩))

/-! ### Runs -/

/-- The files, and what the run shows: the data of the last update that returned, and of
those begun after it, the latest first. -/
structure RdsRun where
  files : Files RdsPath
  begun : List (List UInt8)
  completed : Option (List UInt8)

/-- A call, with the number of elementary steps before the power fails. -/
inductive RdsCall
  | update (data : List UInt8) (life : Nat)
  | get (out : OutBuf) (life : Nat)
  deriving DecidableEq, Repr

/-- The files after a call that returned or was cut off. -/
def filesAfter {α : Type} (p : Io RdsPath α) (files : Files RdsPath) (life : Nat) :
    Files RdsPath :=
  match p ⟨files, life⟩ with
  | .ok _ d | .error _ d => d.files

/-- One call for the item. A file of two gigabytes or more cannot be written. -/
def rdsStep (md5 : Md5) (type : RdsDataType) (s : RdsRun) : RdsCall → Option RdsRun
  | .update data life =>
    if data.length + 52 < 2 ^ 31 then
      some (match rdsUpdateOnce md5 type data ⟨s.files, life⟩ with
        | .ok .ok d => ⟨d.files, [], some data⟩
        | .ok _ d => { s with files := d.files }
        | .error _ d => ⟨d.files, data :: s.begun, s.completed⟩)
    else none
  | .get out life => some { s with files := filesAfter (rdsGet md5 type out) s.files life }

/-- An item that was never stored. -/
def Unstored (type : RdsDataType) (s : RdsRun) : Prop :=
  s.files (master type) = none ∧ s.files (backup type) = none ∧ s.begun = [] ∧
    s.completed = none

/-- The data that a get may return: of the last update that returned, or of one that began
after it. -/
def RdsRun.recent (s : RdsRun) : List (List UInt8) :=
  s.begun ++ s.completed.toList

/-! ### The invariant -/

/-- The file is that of one of the data. -/
def Holds (md5 : Md5) (recent : List (List UInt8)) (file : Option (List UInt8)) : Prop :=
  ∃ data : RdsData, data.bytes ∈ recent ∧ file = some (image md5 data.bytes)

/-- Each file is whole or refused, and once an update has returned one of them is whole. -/
structure RdsRun.Safe (md5 : Md5) (type : RdsDataType) (s : RdsRun) : Prop where
  master : Holds md5 s.recent (s.files (master type)) ∨ Unreadable md5 (s.files (master type))
  backup : Holds md5 s.recent (s.files (backup type)) ∨ Unreadable md5 (s.files (backup type))
  stored : s.completed ≠ none → Holds md5 s.recent (s.files (Rds.master type)) ∨
    Holds md5 s.recent (s.files (Rds.backup type))

theorem Holds.mono {recent recent' : List (List UInt8)} {file : Option (List UInt8)}
    (h : Holds md5 recent file) (more : ∀ d ∈ recent, d ∈ recent') : Holds md5 recent' file := by
  obtain ⟨data, mem, eq⟩ := h
  exact ⟨data, more _ mem, eq⟩

theorem holds_prefix {recent : List (List UInt8)} {data : RdsData} {p : List UInt8}
    (mem : data.bytes ∈ recent) (prefixed : p <+: image md5 data.bytes) :
    Holds md5 recent (some p) ∨ Unreadable md5 (some p) := by
  by_cases whole : p = image md5 data.bytes
  · exact .inl ⟨data, mem, congrArg some whole⟩
  · exact .inr (prefix_unreadable prefixed whole)

theorem holds_of_read {recent : List (List UInt8)} {file : Option (List UInt8)} {out : OutBuf}
    (h : Holds md5 recent file ∨ Unreadable md5 file) (ok : (rdsRead md5 file out).1 = .ok) :
    Holds md5 recent file :=
  h.resolve_right fun refused => refused out ok

/-- An update that returned. -/
theorem safe_completed {data : RdsData} {files : Files RdsPath}
    (master' : files (master type) = some (image md5 data.bytes))
    (backup' : files (backup type) = some (image md5 data.bytes)) :
    RdsRun.Safe md5 type ⟨files, [], some data.bytes⟩ := by
  have recent : data.bytes ∈ RdsRun.recent ⟨files, [], some data.bytes⟩ := by
    simp [RdsRun.recent]
  refine ⟨.inl ⟨data, recent, master'⟩, .inl ⟨data, recent, backup'⟩, fun _ => .inl ?_⟩
  exact ⟨data, recent, master'⟩

/-- An update that was cut off. -/
theorem RdsRun.Safe.crashed {s : RdsRun} (safe : s.Safe md5 type) {data : RdsData}
    {files : Files RdsPath} (updated : Updated type (image md5 data.bytes) s.files files) :
    RdsRun.Safe md5 type ⟨files, data.bytes :: s.begun, s.completed⟩ := by
  have more : ∀ d ∈ s.recent,
      d ∈ RdsRun.recent ⟨files, data.bytes :: s.begun, s.completed⟩ :=
    fun _ => List.mem_cons_of_mem _
  have new : data.bytes ∈ RdsRun.recent ⟨files, data.bytes :: s.begun, s.completed⟩ :=
    List.mem_cons_self
  obtain ⟨master', backup'⟩ := updated
  refine ⟨?_, ?_, ?_⟩
  · dsimp only
    rcases master' with kept | written
    · rw [kept]
      exact safe.master.imp (fun h => h.mono more) id
    · exact .inl ⟨data, new, written⟩
  · dsimp only
    rcases backup' with kept | ⟨-, p, prefixed, copied⟩
    · rw [kept]
      exact safe.backup.imp (fun h => h.mono more) id
    · rw [copied]
      exact holds_prefix new prefixed
  · intro completed
    dsimp only
    rcases master' with kept | written
    · rcases backup' with kept' | ⟨written, -⟩
      · rw [kept, kept']
        exact (safe.stored completed).imp (fun h => h.mono more) (fun h => h.mono more)
      · exact .inl ⟨data, new, written⟩
    · exact .inl ⟨data, new, written⟩

/-- What is copied back to the master is the whole backup; a crash leaves the backup. -/
theorem RdsRun.Safe.repaired {s : RdsRun} (safe : s.Safe md5 type) {out : OutBuf}
    (second : (secondRead md5 type s.files out).1 = .ok) {bytes p : List UInt8}
    (has : s.files (Rds.backup type) = some bytes) (prefixed : p <+: bytes) :
    RdsRun.Safe md5 type { s with files := s.files.set (Rds.master type) (some p) } := by
  have whole := holds_of_read safe.backup second
  have kept := set_other s.files (some p) (backup_ne_master type)
  have backup' : Holds md5 s.recent
      (s.files.set (Rds.master type) (some p) (Rds.backup type)) := by
    rw [kept]
    exact whole
  refine ⟨?_, .inl backup', fun _ => .inr backup'⟩
  dsimp only
  rw [set_same]
  obtain ⟨data, mem, eq⟩ := whole
  obtain rfl := Option.some.inj (has.symm.trans eq)
  exact holds_prefix mem prefixed

theorem rdsStep_safe {s s' : RdsRun} {call : RdsCall} (safe : s.Safe md5 type)
    (step : rdsStep md5 type s call = some s') : s'.Safe md5 type := by
  cases call with
  | update data life =>
    obtain ⟨fits, step⟩ := Option.ite_none_right_eq_some.mp step
    obtain rfl := Option.some.inj step
    by_cases empty : data.length = 0
    · rw [rdsUpdateOnce_empty data empty]
      exact ⟨safe.master, safe.backup, safe.stored⟩
    · have spec := @rdsUpdateOnce_spec md5 type ⟨data, Nat.pos_of_ne_zero empty, fits⟩ s.files
      split
      next run =>
        obtain ⟨-, master', backup'⟩ := fwp_ok spec run
        exact safe_completed master' backup'
      next bad run => exact absurd (fwp_ok spec run).1 bad
      next run => exact safe.crashed (fwp_error spec run)
  | get out life =>
    obtain rfl := Option.some.inj step
    have spec := @rdsGet_spec md5 type out s.files
    unfold filesAfter
    split
    next run =>
      rcases fwp_ok spec run with ⟨-, -, same⟩ | ⟨-, second, -, copied⟩ | ⟨-, -, -, same⟩
      · rw [same]
        exact safe
      · cases has : s.files (Rds.backup type) with
        | none =>
          unfold secondRead at second
          rw [has] at second
          exact nomatch second
        | some bytes =>
          rw [copied, has]
          exact safe.repaired second has (List.prefix_refl _)
      · rw [same]
        exact safe
    next run =>
      rcases fwp_error spec run with same | ⟨second, bytes, p, has, prefixed, torn⟩
      · rw [same]
        exact safe
      · rw [torn]
        exact safe.repaired second has prefixed

/-! ### What a get returns -/

/-- A read that fails leaves the length as it was. -/
theorem rdsRead_len {file : Option (List UInt8)} {out : OutBuf}
    (h : (rdsRead md5 file out).1 ≠ .ok) : (rdsRead md5 file out).2.len = out.len := by
  cases file with
  | none => rfl
  | some bytes =>
    unfold rdsRead at h ⊢
    dsimp only at h ⊢
    split
    · rfl
    split
    · rfl
    split
    · rfl
    split
    · rfl
    next small size enough sum =>
      rw [if_neg small, if_neg size, if_neg enough, if_neg sum] at h
      exact absurd rfl h

/-- What is read is the data of the file. -/
theorem read_holds {recent : List (List UInt8)} {file : Option (List UInt8)} {out : OutBuf}
    (h : Holds md5 recent file) :
    ((rdsRead md5 file out).1 = .ok → ∃ data ∈ recent,
      (rdsRead md5 file out).2.len.toNat = data.length ∧
      (rdsRead md5 file out).2.data.take data.length = data) ∧
    ((∀ data ∈ recent, data.length ≤ out.len.toNat) → (rdsRead md5 file out).1 = .ok) := by
  obtain ⟨data, mem, rfl⟩ := h
  rw [rdsRead_image]
  constructor
  · intro ok
    split at ok
    · exact nomatch ok
    next enough =>
      rw [if_neg enough]
      exact ⟨data.bytes, mem, toNat_length data, List.take_left⟩
  · intro long
    rw [if_neg (Nat.not_lt.mpr (long _ mem))]

/-- In any state that calls and crashes lead to, a get that returns data returns that of the
last update that returned or of one that began after it, and once an update has returned a
get does not fail for a buffer that has room for these data. -/
theorem get_after_crashes {s : RdsRun}
    (h : Runs.Reach (Unstored type) (fun s c s' => rdsStep md5 type s c = some s') s)
    {out : OutBuf} {life : Nat} {ret : Ret} {out' : OutBuf} {d : Disk RdsPath}
    (run : rdsGet md5 type out ⟨s.files, life⟩ = .ok (ret, out') d) :
    (ret = .ok → ∃ data ∈ s.recent, out'.len.toNat = data.length ∧
      out'.data.take data.length = data) ∧
    (s.completed ≠ none → (∀ data ∈ s.recent, data.length ≤ out.len.toNat) → ret = .ok) := by
  have safe : s.Safe md5 type := by
    apply h.invariant
    · rintro s ⟨noMaster, noBackup, -, none⟩
      refine ⟨.inr ?_, .inr ?_, fun completed => absurd none completed⟩
      · exact noMaster ▸ unreadable_none md5
      · exact noBackup ▸ unreadable_none md5
    · exact fun _ _ _ safe step => rdsStep_safe safe step
  rcases fwp_ok (rdsGet_spec out s.files) run with
    ⟨first, res, -⟩ | ⟨first, second, res, -⟩ | ⟨first, second, res, -⟩
  · obtain ⟨rfl, rfl⟩ := Prod.ext_iff.mp res
    refine ⟨fun ok => (read_holds (holds_of_read safe.master first)).1 ok, fun _ _ => first⟩
  · obtain ⟨rfl, rfl⟩ := Prod.ext_iff.mp res
    refine ⟨fun ok => (read_holds (holds_of_read safe.backup second)).1 ok, fun _ _ => second⟩
  · obtain ⟨rfl, rfl⟩ := Prod.ext_iff.mp res
    refine ⟨fun ok => absurd ok second, fun completed long => ?_⟩
    rcases safe.stored completed with whole | whole
    · exact absurd ((read_holds whole).2 long) first
    · have long' := long
      rw [← rdsRead_len first] at long'
      exact absurd ((read_holds whole).2 long') second

/-! ### Runs on a fixed item -/

/-- MD5 of the files of the data used below: the last byte is the data. -/
def sampleMd5 : Md5 := fun bytes =>
  if bytes.getLast? = some 1 then
    #v[228, 157, 96, 94, 51, 100, 242, 68, 184, 32, 213, 19, 0, 185, 177, 157]
  else if bytes.getLast? = some 2 then
    #v[120, 23, 73, 242, 81, 110, 226, 87, 94, 173, 160, 66, 253, 242, 183, 136]
  else #v[111, 205, 118, 11, 23, 61, 83, 169, 157, 181, 81, 89, 160, 179, 145, 134]

def unstored : RdsRun :=
  ⟨fun _ => none, [], none⟩

/-- The state after the calls, and what a get with room for `len` bytes returns there. -/
def getAfter (calls : List RdsCall) (len : UInt32) :
    Option (RdsRun × Ret × OutBuf) := do
  let s ← calls.foldlM (rdsStep sampleMd5 .distance) unstored
  match rdsGet sampleMd5 .distance ⟨List.replicate len.toNat 0, len, none⟩ ⟨s.files, 0⟩ with
  | .ok (ret, out) _ => some (s, ret, out)
  | .error _ _ => none

/-- An update returns; the next one is cut off as the backup is copied, and a third one
before its file gets its name. -/
def twoCrashes : List RdsCall :=
  [.update [1] 200, .update [2] 56, .update [3] 10]

theorem get_after_two_crashes :
    ∃ s, twoCrashes.foldlM (rdsStep sampleMd5 .distance) unstored = some s ∧
      ∃ out d, rdsGet sampleMd5 .distance ⟨[0], 1, none⟩ ⟨s.files, 0⟩ = .ok (.ok, out) d ∧
        ∃ data ∈ s.recent, out.len.toNat = data.length ∧ out.data.take data.length = data := by
  have shows : (getAfter twoCrashes 1).map (fun r => (r.1.completed, r.1.begun)) =
      some (some [1], [[3], [2]]) := by decide +kernel
  obtain ⟨⟨s, ret, out⟩, got, shown⟩ := Option.map_eq_some_iff.mp shows
  obtain ⟨completed, begun⟩ := Prod.ext_iff.mp shown
  unfold getAfter at got
  obtain ⟨s', run, got⟩ := Option.bind_eq_some_iff.mp got
  split at got
  next d get =>
    cases got
    have reach := (Runs.Reach.start ⟨rfl, rfl, rfl, rfl⟩ : Runs.Reach (Unstored .distance)
      (fun s c s' => rdsStep sampleMd5 .distance s c = some s') unstored).follow twoCrashes run
    have after := get_after_crashes reach get
    obtain rfl : ret = .ok := by
      apply after.2 (fun none => nomatch completed.symm.trans none)
      simp only [RdsRun.recent] at completed begun ⊢
      rw [completed, begun]
      decide
    exact ⟨s, run, out, d, get, after.1 rfl⟩
  · cases got

/-- The get returns the second update, which neither returned nor was in progress at the last
crash. And a get whose buffer is too short fails after an update. -/
theorem interrupted_update_returned :
    (getAfter twoCrashes 1).map (fun r => (r.1.completed, r.1.begun, r.2.1, r.2.2.data)) =
      some (some [1], [[3], [2]], .ok, [2]) ∧
    (getAfter [.update [1] 200] 0).map (fun r => (r.1.completed, r.2.1)) =
      some (some [1], .invalidPara) := by
  constructor
  · decide +kernel
  · decide +kernel

end Rds
