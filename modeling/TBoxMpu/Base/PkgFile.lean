import TBoxMpu.Lib.Checked
import TBoxMpu.Lib.Stops
import TBoxMpu.Mid.Dir

/-!
# The bytes of an upgrade package

What `upg_ctl_proc`, `upg_ctl_save` and `upg_ctl_fwsave` of `upg_ctl.c` share: the package behind
the descriptor `fd`, the static buffers `upg_file_data` and `rawData`, the firmware file, and
`dev_read` and `dev_write` of `dev_rw.c`.
-/

namespace PkgFile

open Checked Stops Dir

def fileDataSize : Nat := 2 * 1024 * 1024

def rawDataSize : Nat := 4 * 1024 * 1024

/-- `off_t` has 32 bits. -/
def offMax : Nat := 2 ^ 31

def u32 (n : Nat) : Nat := n % 2 ^ 32

/-- What a bounds fault is about. -/
inductive Fault
  | fileData | rawData | upgVer | cmdTable | wraps
  deriving DecidableEq

/-- Why a function stops short. -/
inductive Stop
  | ret (code : ErrCode)
  /-- `dev_read` goes on at the end of the file for ever. -/
  | hang
  /-- -1: the command is too long. -/
  | tooLong
  | fault (what : Fault)
  deriving DecidableEq

/-- `fw_fd` -/
inductive FwFd
  | unset | opened | closed
  deriving DecidableEq

structure World where
  /-- The offset of `fd`. -/
  pos : Nat
  upgFileData : Nat → UInt8
  rawData : Nat → UInt8
  /-- The file at the firmware update path. -/
  fw : Option (List UInt8)
  fwFd : FwFd
  fwPos : Nat
  /-- The operations so far that may fail. -/
  clock : Nat

/-- zlib: what a stream unpacks to, and whether `inflate` takes all of the bytes given and wants
more, with room for so many. -/
structure Zlib where
  data : List UInt8 → Option (List UInt8)
  wants : List UInt8 → Nat → Bool

/-- `uncompress` fails if the destination is too small, and stores the size otherwise. -/
def uncompress (z : Zlib) (src : List UInt8) (room : Nat) : Option (List UInt8) :=
  (z.data src).filter (·.length ≤ room)

structure Pkg where
  file : List UInt8
  small : file.length < offMax
  zlib : Zlib
  /-- What `sscanf` makes of the version and of the memory behind it. -/
  verMid : List UInt8 → Int

structure Env where
  /-- By the number of the operation: the bytes after which it fails, if it does. -/
  luck : Nat → Option Nat
  sameVer : UInt8 → List UInt8 → Bool

abbrev M := EStateM Stop World

/-- An `unsigned int` in memory. -/
def le32 (bytes : List UInt8) : Nat :=
  bytes.foldr (fun byte value => byte.toNat + 256 * value) 0

/-- `memcpy` to the front of a buffer. -/
def store (mem : Nat → UInt8) (bytes : List UInt8) : Nat → UInt8 :=
  fun i => (bytes[i]?).getD (mem i)

section

variable (pkg : Pkg) (env : Env)

def tick : M (Option Nat) := fun w =>
  .ok (env.luck w.clock) { w with clock := w.clock + 1 }

/-- An operation of which only the result matters. -/
def op (err : ErrCode) : M Unit := do
  let luck ← tick env
  if luck.isSome then throw (.ret err) else pure ()

/-- `lseek(fd, p, SEEK_SET)`, and whether it returns `p`: a negative offset is refused with -1. -/
def lseek (p : Nat) : M Bool := fun w =>
  if p < offMax then .ok true { w with pos := p } else .ok (p = 2 ^ 32 - 1) w

def seekTo (p : Nat) : M Unit := do
  let done ← lseek p
  if done then pure () else throw (.ret .devFileReadFailed)

/-- `dev_read` of `n` bytes, and whether it returns 0; the bytes that were read are stored in a
buffer of `fileDataSize` bytes or, if `n` is 4, in a variable. -/
def devRead (n : Nat) : M (List UInt8 × Bool) := fun w =>
  let there := (pkg.file.drop w.pos).take n
  let luck := (env.luck w.clock).filter (· < n)
  let got := luck.elim there there.take
  let w' := { w with pos := w.pos + got.length, clock := w.clock + 1 }
  if fileDataSize < got.length then .error (.fault .fileData) w'
  else if luck.isNone ∧ got.length < n then .error .hang w'
  else .ok (got, luck.isNone) w'

def readWord : M Nat := do
  let (bytes, done) ← devRead pkg env 4
  if done then pure (le32 bytes) else throw (.ret .devFileReadFailed)

def readWordAt (p : Nat) : M Nat := do
  seekTo p
  readWord pkg env

/-- `dev_read` into `upg_file_data`. -/
def readFileData (n : Nat) : M Unit := do
  let (bytes, done) ← devRead pkg env n
  modify fun w => { w with upgFileData := store w.upgFileData bytes }
  if done then pure () else throw (.ret .devFileReadFailed)

/-- Bytes are stored at the front of `rawData`. -/
def storeRaw (bytes : List UInt8) : M Unit :=
  if rawDataSize < bytes.length then throw (.fault .rawData)
  else modify fun w => { w with rawData := store w.rawData bytes }

/-! ### The firmware file -/

def lseekFw (p : Nat) : M Unit :=
  modify fun w => if p < offMax then { w with fwPos := p } else w

/-- Bytes written to a file at an offset. -/
def writeAt (file : List UInt8) (p : Nat) (bytes : List UInt8) : List UInt8 :=
  file.take p ++ List.replicate (p - file.length) 0 ++ bytes ++ file.drop (p + bytes.length)

/-- `dev_write`, and whether it returns 0: the bytes are written up to where it fails, at the
largest offset at the latest. -/
def devWrite (bytes : List UInt8) : M Bool := fun w =>
  let room := offMax - 1 - w.fwPos
  let luck := (env.luck w.clock).filter (· < bytes.length)
  let done := (luck.elim bytes bytes.take).take room
  .ok (luck.isNone ∧ bytes.length ≤ room)
    { w with fw := w.fw.map (writeAt · w.fwPos done)
             fwPos := w.fwPos + done.length
             clock := w.clock + 1 }

/-- `file_delete`: nobody sees whether it succeeds. -/
def deleteFw : M Unit := do
  let luck ← tick env
  modify fun w => if luck.isNone then { w with fw := none } else w

/-- `file_exists` and `file_delete` -/
def clearFw : M Unit := do
  let w ← get
  if w.fw.isSome then deleteFw env else pure ()

def openFw : M Unit := do
  op env .devFileOpenFailed
  modify fun w => { w with fw := some [], fwFd := .opened, fwPos := 0 }

def closeFw : M Unit :=
  modify fun w => { w with fwFd := .closed }

end

/-! ### Runs of the operations -/

theorem u32_of_lt {n : Nat} (lt : n < 2 ^ 32) : u32 n = n :=
  Nat.mod_eq_of_lt lt

/-- What was stored in front is read back. -/
theorem stretch_store (mem : Nat → UInt8) (bytes : List UInt8) :
    stretch (store mem bytes) 0 bytes.length = bytes := by
  apply List.ext_getElem (stretch_length _ _ _)
  intro i less _
  have inside : i < bytes.length := by rwa [stretch_length] at less
  simp [stretch, store, inside]

variable {pkg : Pkg} {env : Env} {w : World}

theorem seekTo_run {p : Nat} (low : p < offMax) : seekTo p w = .ok () { w with pos := p } := by
  rw [seekTo, bind_run, lseek, if_pos low]
  rfl

/-- A read of bytes that are there, with luck. -/
theorem devRead_run {n : Nat} {bytes rest : List UInt8} (lucky : env.luck w.clock = none)
    (there : pkg.file.drop w.pos = bytes ++ rest) (count : bytes.length = n)
    (room : n ≤ fileDataSize) : devRead pkg env n w =
      .ok (bytes, true) { w with pos := w.pos + n, clock := w.clock + 1 } := by
  have got : (pkg.file.drop w.pos).take n = bytes := by rw [there, ← count, List.take_left]
  simp [devRead, lucky, got, count, Nat.not_lt.mpr room]

theorem readWord_run {value : Nat} {bytes rest : List UInt8} (lucky : env.luck w.clock = none)
    (there : pkg.file.drop w.pos = bytes ++ rest) (count : bytes.length = 4)
    (is : le32 bytes = value) : readWord pkg env w =
      .ok value { w with pos := w.pos + 4, clock := w.clock + 1 } := by
  rw [readWord, bind_run, devRead_run lucky there count (by decide), ← is]
  rfl

theorem readWordAt_run {p value : Nat} {bytes rest : List UInt8} (low : p < offMax)
    (lucky : env.luck w.clock = none) (there : pkg.file.drop p = bytes ++ rest)
    (count : bytes.length = 4) (is : le32 bytes = value) : readWordAt pkg env p w =
      .ok value { w with pos := p + 4, clock := w.clock + 1 } := by
  rw [readWordAt, bind_run, seekTo_run low]
  exact @readWord_run pkg env { w with pos := p } _ _ _ lucky there count is

theorem readFileData_run {n : Nat} {bytes rest : List UInt8} (lucky : env.luck w.clock = none)
    (there : pkg.file.drop w.pos = bytes ++ rest) (count : bytes.length = n)
    (room : n ≤ fileDataSize) : readFileData pkg env n w =
      .ok () { w with pos := w.pos + n
                      clock := w.clock + 1
                      upgFileData := store w.upgFileData bytes } := by
  rw [readFileData, bind_run, devRead_run lucky there count room]
  rfl

theorem storeRaw_run {bytes : List UInt8} (room : bytes.length ≤ rawDataSize) (w : World) :
    storeRaw bytes w = .ok () { w with rawData := store w.rawData bytes } := by
  rw [storeRaw, if_neg (Nat.not_lt.mpr room)]
  rfl

theorem deleteFw_run (w : World) : deleteFw env w = .ok ()
    { w with fw := if (env.luck w.clock).isNone then none else w.fw, clock := w.clock + 1 } := by
  cases luck : env.luck w.clock <;> simp [deleteFw, bind_run, tick, luck]

/-- A read that is complete did not leave the buffer. -/
theorem devRead_inside {n : Nat} {got : List UInt8} {w' : World}
    (run : devRead pkg env n w = .ok (got, true) w') : got.length = n ∧ n ≤ fileDataSize := by
  simp only [devRead] at run
  split_ifs at run with outside short
  simp only [EStateM.Result.ok.injEq, Prod.mk.injEq] at run
  obtain ⟨⟨rfl, whole⟩, -⟩ := run
  have enough : ¬ _ < n := fun less => short ⟨whole, less⟩
  have none := Option.isNone_iff_eq_none.mp whole
  rw [none] at enough outside ⊢
  simp only [Option.elim_none, List.length_take] at enough outside ⊢
  omega

theorem readFileData_inside {n : Nat} {w' : World} (run : readFileData pkg env n w = .ok () w') :
    n ≤ fileDataSize := by
  obtain ⟨⟨got, done⟩, m, read, rest⟩ := bind_ok_iff.mp run
  cases done with
  | true => exact (devRead_inside read).2
  | false => cases rest

/-- Bytes go to the end of the file. -/
theorem devWrite_run {bytes content : List UInt8} (lucky : env.luck w.clock = none)
    (has : w.fw = some content) (at_end : w.fwPos = content.length)
    (room : content.length + bytes.length < offMax) : devWrite env bytes w =
      .ok true { w with fw := some (content ++ bytes)
                        fwPos := content.length + bytes.length
                        clock := w.clock + 1 } := by
  have all : bytes.length ≤ offMax - 1 - content.length := by omega
  simp [devWrite, lucky, has, at_end, all, writeAt, List.take_of_length_le]

/-- A file does not grow beyond the largest offset. -/
theorem devWrite_full {bytes : List UInt8} (full : offMax ≤ w.fwPos + bytes.length)
    (some_bytes : bytes ≠ []) : ∃ w', devWrite env bytes w = .ok false w' := by
  have none : ¬ bytes.length ≤ offMax - 1 - w.fwPos := by
    have := List.length_pos_iff.mpr some_bytes
    omega
  exact ⟨_, by simp [devWrite, none]; rfl⟩

end PkgFile
