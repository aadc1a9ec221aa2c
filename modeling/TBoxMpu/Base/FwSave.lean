import Mathlib.Data.List.Chain
import TBoxMpu.Base.PkgFile

/-!
# Unpacking a firmware image

## Main result

`fwsave_unpacks`: where all file operations succeed, `upg_ctl_fwsave` writes the concatenation of
the unpacked lumps of a section exactly if the section is not compressed or no lump unpacks to
more bytes than the one before it, and the image stays below the largest file.

## Proof strategy

`uncompress_len` is the size of the lump before when the next one is unpacked. One round, with the
image written so far and that size, goes on exactly if the lump fits both (`saveLump_fits`,
`saveLump_stops`); the loop follows by induction on the lumps.
-/

namespace PkgFile

open Checked Stops Dir

/-- The variables of `upg_ctl_fwsave` that one lump leaves to the next. -/
structure LumpVars where
  rPos : Nat
  length : Nat
  wPos : Nat
  uncompressLen : Nat

section

variable (pkg : Pkg) (env : Env)

/-- The data of a lump in `upg_file_data` is unpacked to `rawData`; its new size. -/
def unpackLump (attr length room : Nat) : M Nat := do
  let w ← get
  if fileDataSize < length then throw (.fault .fileData)
  else if attr ≠ 0 then
    match uncompress pkg.zlib (stretch w.upgFileData 0 length) room with
    | none => do
      closeFw
      throw (.ret .devUncompressFailed)
    | some out => do
      storeRaw out
      pure out.length
  else do
    storeRaw (stretch w.upgFileData 0 length)
    pure length

/-- The lump is written behind the others. -/
def writeRaw (wPos n : Nat) : M Bool := do
  lseekFw wPos
  let w ← get
  if rawDataSize < n then throw (.fault .rawData)
  else devWrite env (stretch w.rawData 0 n)

def writeLump (wPos n : Nat) : M Unit := do
  let done ← writeRaw env wPos n
  if done then pure ()
  else do
    closeFw
    deleteFw env
    throw (.ret .writeFailed)

/-- One round of the loop of `upg_ctl_fwsave`. -/
def saveLump (attr : Nat) (_ : Nat) (v : LumpVars) : M LumpVars := do
  let rPos := u32 (v.rPos + v.length)
  let length ← readWordAt pkg env rPos
  let rPos := u32 (rPos + 4)
  seekTo rPos
  readFileData pkg env length
  let n ← unpackLump pkg attr length v.uncompressLen
  writeLump env v.wPos n
  pure ⟨rPos, length, u32 (v.wPos + n), n⟩

/-- The head of a firmware section: the attribute, the number of lumps, and where they begin. -/
def readFwHead (offset : Nat) : M (Nat × Nat × Nat) := do
  let attr ← readWordAt pkg env offset
  let rPos := u32 (offset + 4)
  let verLen ← readWordAt pkg env rPos
  let rPos := u32 (rPos + 4 + verLen)
  let _contentLength ← readWordAt pkg env rPos
  let rPos := u32 (rPos + 4)
  let _lumpLen ← readWordAt pkg env rPos
  let rPos := u32 (rPos + 4)
  let lumpCnt ← readWordAt pkg env rPos
  pure (attr, lumpCnt, u32 (rPos + 4))

/-- The former image and the cache of an update are removed, the new image is opened. -/
def startFw : M Unit := do
  clearFw env
  let _ ← tick env
  op env .dirMakeFailed
  openFw env

def upgCtlFwsave (offset : Nat) : M Unit := do
  modify fun w => { w with fwFd := .unset }
  let (attr, lumpCnt, rPos) ← readFwHead pkg env offset
  startFw env
  let _ ← rounds (saveLump pkg env attr) 0 lumpCnt ⟨rPos, 0, 0, rawDataSize⟩
  closeFw
  op env .closeFailed

end

/-! ### Firmware sections -/

/-- An `unsigned int` as the bytes of a file. -/
def bytes32 (n : Nat) : List UInt8 :=
  [UInt8.ofNat n, UInt8.ofNat (n / 256), UInt8.ofNat (n / 65536), UInt8.ofNat (n / 16777216)]

@[simp] theorem bytes32_length (n : Nat) : (bytes32 n).length = 4 := rfl

theorem le32_bytes32 (n : Nat) : le32 (bytes32 n) = u32 n := by
  simp only [le32, bytes32, List.foldr, UInt8.toNat_ofNat', u32]
  omega

/-- What `upg_ctl_fwsave` reads: the version and two of the lengths are not used. -/
structure FwSection where
  attr : Nat
  ver : List UInt8
  contentLength : Nat
  lumpLen : Nat
  lumps : List (List UInt8)
  attr_lt : attr < 2 ^ 32

def lumpBytes (lump : List UInt8) : List UInt8 :=
  bytes32 lump.length ++ lump

def FwSection.bytes (sec : FwSection) : List UInt8 :=
  bytes32 sec.attr ++ bytes32 sec.ver.length ++ sec.ver ++ bytes32 sec.contentLength ++
    bytes32 sec.lumpLen ++ bytes32 sec.lumps.length ++ sec.lumps.flatMap lumpBytes

/-- What a lump is unpacked to. -/
def unpacked (z : Zlib) (attr : Nat) (lump : List UInt8) : List UInt8 :=
  if attr ≠ 0 then (z.data lump).getD [] else lump

/-- A lump fits the buffers, and unpacks if it is compressed. -/
structure LumpFits (z : Zlib) (attr : Nat) (lump : List UInt8) : Prop where
  file : lump.length ≤ fileDataSize
  unpacks : attr ≠ 0 → (z.data lump).isSome
  raw : (unpacked z attr lump).length ≤ rawDataSize

/-- No lump unpacks to more bytes than the one before. -/
def SizesFall (z : Zlib) (attr : Nat) (lumps : List (List UInt8)) : Prop :=
  (lumps.map fun lump => (unpacked z attr lump).length).IsChain (· ≥ ·)

/-! ### One lump -/

section

variable {pkg : Pkg} {env : Env} {u : World} {attr room : Nat} {lump content rest : List UInt8}

theorem unpackLump_run (src : stretch u.upgFileData 0 lump.length = lump)
    (fits : LumpFits pkg.zlib attr lump)
    (enough : attr = 0 ∨ (unpacked pkg.zlib attr lump).length ≤ room) :
    unpackLump pkg attr lump.length room u =
      .ok (unpacked pkg.zlib attr lump).length
        { u with rawData := store u.rawData (unpacked pkg.zlib attr lump) } := by
  have within : ¬ fileDataSize < lump.length := Nat.not_lt.mpr fits.file
  have raw := storeRaw_run fits.raw u
  rw [unpackLump, get_bind_run, src, if_neg within]
  by_cases plain : attr = 0
  · simp only [plain, unpacked, ne_eq, not_true, if_false] at raw ⊢
    rw [bind_run, raw]
    rfl
  · obtain ⟨out, unpacks⟩ := Option.isSome_iff_exists.mp (fits.unpacks plain)
    have small : out.length ≤ room := by simpa [unpacked, plain, unpacks] using enough
    have done : uncompress pkg.zlib lump room = some out := by
      simp [uncompress, unpacks, small]
    simp only [plain, unpacked, unpacks, Option.getD_some, ne_eq, not_false_eq_true, if_true]
      at raw ⊢
    simp only [done, bind_run, raw]
    rfl

theorem unpackLump_stops (src : stretch u.upgFileData 0 lump.length = lump) (packed : attr ≠ 0)
    (fits : LumpFits pkg.zlib attr lump) (large : room < (unpacked pkg.zlib attr lump).length) :
    ∃ e u', unpackLump pkg attr lump.length room u = .error e u' := by
  obtain ⟨out, unpacks⟩ := Option.isSome_iff_exists.mp (fits.unpacks packed)
  have large : room < out.length := by simpa [unpacked, packed, unpacks] using large
  have refused : uncompress pkg.zlib lump room = none := by
    simp [uncompress, unpacks, large]
  rw [unpackLump, get_bind_run, src, if_neg (Nat.not_lt.mpr fits.file)]
  simp only [packed, ne_eq, not_false_eq_true, if_true, refused]
  exact ⟨_, _, rfl⟩

theorem writeLump_run {out : List UInt8} (lucky : env.luck u.clock = none)
    (has : u.fw = some content) (raw : stretch u.rawData 0 out.length = out)
    (whole : out.length ≤ rawDataSize) (room : content.length + out.length < offMax) :
    writeLump env content.length out.length u = .ok ()
      { u with fw := some (content ++ out)
               fwPos := content.length + out.length
               clock := u.clock + 1 } := by
  have low : content.length < offMax := by omega
  rw [writeLump, bind_run, writeRaw, lseekFw, modify_bind_run, if_pos low, get_bind_run,
    if_neg (Nat.not_lt.mpr whole), raw, @devWrite_run env { u with fwPos := content.length } _ _ lucky has rfl room]
  rfl

theorem writeLump_stops {n : Nat} (low : content.length < offMax) (whole : n ≤ rawDataSize)
    (full : offMax ≤ content.length + n) :
    ∃ e u', writeLump env content.length n u = .error e u' := by
  have some_bytes : stretch u.rawData 0 n ≠ [] := by
    rw [← List.length_pos_iff, stretch_length]
    omega
  have count : offMax ≤ content.length + (stretch u.rawData 0 n).length := by
    rwa [stretch_length]
  obtain ⟨u', short⟩ := @devWrite_full env { u with fwPos := content.length } _ count some_bytes
  rw [writeLump, bind_run, writeRaw, lseekFw, modify_bind_run, if_pos low, get_bind_run,
    if_neg (Nat.not_lt.mpr whole), short]
  exact ⟨_, _, rfl⟩

section

variable {p i : Nat} {v : LumpVars}

/-- The lump is there, behind the ones before. -/
structure LumpAt (pkg : Pkg) (v : LumpVars) (lump content rest : List UInt8) : Prop where
  there : pkg.file.drop (v.rPos + v.length) = lumpBytes lump ++ rest
  behind : v.wPos = content.length

theorem LumpAt.low (here : LumpAt pkg v lump content rest) :
    v.rPos + v.length + 4 + lump.length < offMax := by
  have count := congrArg List.length here.there
  simp only [List.length_drop, lumpBytes, List.length_append, bytes32_length] at count
  have small := pkg.small
  omega

/-- The lump is read as it is in the file. -/
theorem readLump_run (lucky : ∀ k, env.luck k = none) (here : LumpAt pkg v lump content rest)
    (fits : LumpFits pkg.zlib attr lump) :
    ∃ u' : World, stretch u'.upgFileData 0 lump.length = lump ∧ u'.fw = u.fw ∧
      saveLump pkg env attr i v u = (do
        let n ← unpackLump pkg attr lump.length v.uncompressLen
        writeLump env v.wPos n
        pure (LumpVars.mk (v.rPos + v.length + 4) lump.length (u32 (v.wPos + n)) n)) u' := by
  have low := here.low
  have small : offMax < 2 ^ 32 := by decide
  have split : lumpBytes lump ++ rest = bytes32 lump.length ++ (lump ++ rest) :=
    List.append_assoc _ _ _
  have behind : pkg.file.drop (v.rPos + v.length + 4) = lump ++ rest := by
    rw [← List.drop_drop, here.there, split]
    rfl
  have word := @readWordAt_run pkg env u _ _ _ _ (by omega) (lucky _) (here.there.trans split)
    (bytes32_length _) ((le32_bytes32 lump.length).trans (u32_of_lt (by omega)))
  let u' : World :=
    { u with pos := v.rPos + v.length + 4 + lump.length
             clock := u.clock + 1 + 1
             upgFileData := store u.upgFileData lump }
  refine ⟨u', stretch_store _ _, rfl, ?_⟩
  rw [saveLump, u32_of_lt (by omega), bind_run, word]
  simp only
  rw [u32_of_lt (by omega), bind_run, seekTo_run (by omega)]
  simp only
  rw [bind_run, @readFileData_run pkg env _ _ _ _ (lucky _) behind rfl fits.file]

/-- A lump that is not larger than the one before, if it is compressed, is written. -/
theorem saveLump_fits (lucky : ∀ k, env.luck k = none) (here : LumpAt pkg v lump content rest)
    (fits : LumpFits pkg.zlib attr lump) (has : u.fw = some content)
    (enough : attr = 0 ∨ (unpacked pkg.zlib attr lump).length ≤ v.uncompressLen)
    (room : content.length + (unpacked pkg.zlib attr lump).length < offMax) :
    ∃ v' u', saveLump pkg env attr i v u = .ok v' u' ∧
      u'.fw = some (content ++ unpacked pkg.zlib attr lump) ∧
      v'.rPos + v'.length = v.rPos + v.length + 4 + lump.length ∧
      v'.wPos = (content ++ unpacked pkg.zlib attr lump).length ∧
      v'.uncompressLen = (unpacked pkg.zlib attr lump).length := by
  obtain ⟨m, src, same, run⟩ := @readLump_run pkg env u attr lump content rest i v lucky here fits
  have small : offMax < 2 ^ 32 := by decide
  rw [run, bind_run, unpackLump_run src fits enough, here.behind]
  simp only
  rw [bind_run, @writeLump_run env { m with
    rawData := store m.rawData (unpacked pkg.zlib attr lump) } content _ (lucky _)
    (same.trans has) (stretch_store _ _) fits.raw room]
  refine ⟨_, _, rfl, rfl, rfl, ?_, rfl⟩
  rw [List.length_append]
  exact u32_of_lt (by omega)

theorem saveLump_stops (lucky : ∀ k, env.luck k = none) (here : LumpAt pkg v lump content rest)
    (fits : LumpFits pkg.zlib attr lump) (low : content.length < offMax)
    (over_full : ¬ ((attr = 0 ∨ (unpacked pkg.zlib attr lump).length ≤ v.uncompressLen) ∧
      content.length + (unpacked pkg.zlib attr lump).length < offMax)) :
    ∃ e u', saveLump pkg env attr i v u = .error e u' := by
  obtain ⟨m, src, -, run⟩ := @readLump_run pkg env u attr lump content rest i v lucky here fits
  rw [run, bind_run, here.behind]
  by_cases enough : attr = 0 ∨ (unpacked pkg.zlib attr lump).length ≤ v.uncompressLen
  · rw [unpackLump_run src fits enough]
    simp only
    obtain ⟨e, u', stop⟩ := @writeLump_stops env { m with
      rawData := store m.rawData (unpacked pkg.zlib attr lump) } content _ low fits.raw
      (Nat.not_lt.mp fun room => over_full ⟨enough, room⟩)
    rw [bind_run, stop]
    exact ⟨e, u', rfl⟩
  · obtain ⟨packed, large⟩ := not_or.mp enough
    obtain ⟨e, u', stop⟩ := unpackLump_stops src packed fits (Nat.not_le.mp large)
    rw [stop]
    exact ⟨e, u', rfl⟩

/-! ### The loop -/

/-- The lumps are written if each fits behind the one before; `v.uncompressLen` is its size. -/
theorem saveLumps_iff (lucky : ∀ k, env.luck k = none) {lumps : List (List UInt8)}
    (there : pkg.file.drop (v.rPos + v.length) = lumps.flatMap lumpBytes ++ rest)
    (behind : v.wPos = content.length) (fits : ∀ lump ∈ lumps, LumpFits pkg.zlib attr lump)
    (has : u.fw = some content) (low : content.length < offMax) :
    (∃ v' u', rounds (saveLump pkg env attr) i lumps.length v u = .ok v' u' ∧
      u'.fw = some (content ++ lumps.flatMap (unpacked pkg.zlib attr))) ↔
    (attr = 0 ∨ (v.uncompressLen :: lumps.map fun lump =>
      (unpacked pkg.zlib attr lump).length).IsChain (· ≥ ·)) ∧
      content.length + (lumps.flatMap (unpacked pkg.zlib attr)).length < offMax := by
  induction lumps generalizing i v u content with
  | nil => simpa [rounds, has] using low
  | cons lump lumps ih =>
    have here : LumpAt pkg v lump content (lumps.flatMap lumpBytes ++ rest) :=
      ⟨by rw [there, List.flatMap_cons, List.append_assoc], behind⟩
    have fit := fits lump List.mem_cons_self
    have sum : content.length + ((lump :: lumps).flatMap (unpacked pkg.zlib attr)).length =
        (content ++ unpacked pkg.zlib attr lump).length +
          (lumps.flatMap (unpacked pkg.zlib attr)).length := by
      rw [List.flatMap_cons, List.length_append, List.length_append, Nat.add_assoc]
    rw [List.length_cons, rounds, sum, List.map_cons, List.isChain_cons_cons]
    -- this lump is saved exactly if it is no larger than the one before and ends in the file
    by_cases goes : (attr = 0 ∨ (unpacked pkg.zlib attr lump).length ≤ v.uncompressLen) ∧
        content.length + (unpacked pkg.zlib attr lump).length < offMax
    · obtain ⟨v', u', run, has', next, behind', size⟩ :=
        @saveLump_fits pkg env u attr lump content _ i v lucky here fit has goes.1 goes.2
      have there' : pkg.file.drop (v'.rPos + v'.length) = lumps.flatMap lumpBytes ++ rest := by
        rw [next, Nat.add_assoc, ← List.drop_drop, here.there]
        exact List.drop_left' (by simp [lumpBytes, Nat.add_comm])
      have rest_iff := @ih u' _ (i + 1) v' there' behind'
        (fun l mem => fits l (List.mem_cons_of_mem _ mem)) has'
        (by rw [List.length_append]; exact goes.2)
      rw [size, List.append_assoc] at rest_iff
      simp only [bind_run, run, List.flatMap_cons, rest_iff]
      constructor
      · rintro ⟨falls, room⟩
        exact ⟨or_and_left.mpr ⟨goes.1, falls⟩, room⟩
      · rintro ⟨falls, room⟩
        exact ⟨falls.imp_right And.right, room⟩
    · obtain ⟨e, u', stop⟩ := @saveLump_stops pkg env u attr lump content _ i v lucky here fit low
        goes
      constructor
      · rintro ⟨v', u', run, -⟩
        rw [bind_run, stop] at run
        cases run
      · rintro ⟨falls, room⟩
        refine absurd ⟨falls.imp_right And.left, ?_⟩ goes
        rw [List.length_append] at room
        omega

end

/-! ### The whole function -/

variable {sec : FwSection} {pre post : List UInt8}

theorem readWordAt_prefix {w : World} {before : List UInt8} {value : Nat}
    (lucky : ∀ k, env.luck k = none) (front : before ++ bytes32 value <+: pkg.file) :
    readWordAt pkg env before.length w =
      .ok (u32 value) { w with pos := before.length + 4, clock := w.clock + 1 } := by
  obtain ⟨after, split⟩ := front
  have count := congrArg List.length split
  simp only [List.length_append, bytes32_length] at count
  have small := pkg.small
  have there : pkg.file.drop before.length = bytes32 value ++ after := by
    rw [← split, List.append_assoc, List.drop_left]
  exact readWordAt_run (by omega) (lucky _) there rfl (le32_bytes32 _)

theorem length_le_lumpBytes (lumps : List (List UInt8)) :
    lumps.length ≤ (lumps.flatMap lumpBytes).length := by
  induction lumps with
  | nil => exact Nat.le_refl 0
  | cons lump lumps ih =>
    rw [List.flatMap_cons, List.length_append, List.length_cons, lumpBytes, List.length_append,
      bytes32_length]
    omega

theorem readFwHead_run (lucky : ∀ k, env.luck k = none)
    (layout : pkg.file = pre ++ sec.bytes ++ post) (w : World) :
    ∃ p u, readFwHead pkg env pre.length w = .ok (sec.attr, sec.lumps.length, p) u ∧
      pkg.file.drop p = sec.lumps.flatMap lumpBytes ++ post := by
  -- what is before each of the words that are read
  obtain ⟨a₁, at₁⟩ : ∃ a, a = pre ++ bytes32 sec.attr := ⟨_, rfl⟩
  obtain ⟨a₂, at₂⟩ : ∃ a, a = a₁ ++ bytes32 sec.ver.length ++ sec.ver := ⟨_, rfl⟩
  obtain ⟨a₃, at₃⟩ : ∃ a, a = a₂ ++ bytes32 sec.contentLength := ⟨_, rfl⟩
  obtain ⟨a₄, at₄⟩ : ∃ a, a = a₃ ++ bytes32 sec.lumpLen := ⟨_, rfl⟩
  obtain ⟨a₅, at₅⟩ : ∃ a, a = a₄ ++ bytes32 sec.lumps.length := ⟨_, rfl⟩
  have whole : pkg.file = a₅ ++ (sec.lumps.flatMap lumpBytes ++ post) := by
    simp [at₁, at₂, at₃, at₄, at₅, layout, FwSection.bytes]
  have front₅ : a₅ <+: pkg.file := ⟨_, whole.symm⟩
  have front₄ : a₄ <+: pkg.file := (at₅ ▸ List.prefix_append a₄ _ : a₄ <+: a₅).trans front₅
  have front₃ : a₃ <+: pkg.file := (at₄ ▸ List.prefix_append a₃ _ : a₃ <+: a₄).trans front₄
  have front₂ : a₂ <+: pkg.file := (at₃ ▸ List.prefix_append a₂ _ : a₂ <+: a₃).trans front₃
  have ver_front : a₁ ++ bytes32 sec.ver.length <+: pkg.file :=
    (at₂ ▸ List.prefix_append _ _ : a₁ ++ bytes32 sec.ver.length <+: a₂).trans front₂
  have front₁ : a₁ <+: pkg.file := (List.prefix_append a₁ _).trans ver_front
  have len₁ : a₁.length = pre.length + 4 := by simp [at₁]
  have len₂ : a₂.length = a₁.length + 4 + sec.ver.length := by simp [at₂, Nat.add_assoc]
  have len₃ : a₃.length = a₂.length + 4 := by simp [at₃]
  have len₄ : a₄.length = a₃.length + 4 := by simp [at₄]
  have len₅ : a₅.length = a₄.length + 4 := by simp [at₅]
  -- all of these are offsets in the file, so nothing wraps
  have small := pkg.small
  rw [whole, List.length_append, List.length_append] at small
  have max : offMax < 2 ^ 32 := by decide
  have lumps := length_le_lumpBytes sec.lumps
  have ver : u32 sec.ver.length = sec.ver.length := u32_of_lt (by omega)
  have next₁ : u32 (pre.length + 4) = a₁.length := by rw [len₁, u32_of_lt (by omega)]
  have next₂ : u32 (a₁.length + 4 + sec.ver.length) = a₂.length := by
    rw [len₂, u32_of_lt (by omega)]
  have next₃ : u32 (a₂.length + 4) = a₃.length := by rw [len₃, u32_of_lt (by omega)]
  have next₄ : u32 (a₃.length + 4) = a₄.length := by rw [len₄, u32_of_lt (by omega)]
  have next₅ : u32 (a₄.length + 4) = a₅.length := by rw [len₅, u32_of_lt (by omega)]
  refine ⟨a₅.length, { w with pos := a₄.length + 4, clock := w.clock + 5 }, ?_, by
    rw [whole, List.drop_left]⟩
  simp only [readFwHead, bind_run, readWordAt_prefix lucky (at₁ ▸ front₁), next₁,
    readWordAt_prefix lucky ver_front, ver, next₂, readWordAt_prefix lucky (at₃ ▸ front₃), next₃,
    readWordAt_prefix lucky (at₄ ▸ front₄), next₄, readWordAt_prefix lucky (at₅ ▸ front₅), next₅,
    pure_run, u32_of_lt sec.attr_lt]
  rw [u32_of_lt (show sec.lumps.length < 2 ^ 32 by omega)]

theorem op_run (lucky : ∀ k, env.luck k = none) (err : ErrCode) (w : World) :
    op env err w = .ok () { w with clock := w.clock + 1 } := by
  simp [op, bind_run, tick, lucky]

theorem startFw_run (lucky : ∀ k, env.luck k = none) (w : World) :
    ∃ u, startFw env w = .ok () u ∧ u.fw = some [] := by
  have cleared : ∃ u, clearFw env w = .ok () u := by
    rw [clearFw, get_bind_run]
    split_ifs
    · simp only [deleteFw, bind_run, tick, lucky]
      exact ⟨_, rfl⟩
    · exact ⟨w, rfl⟩
  obtain ⟨u, run⟩ := cleared
  simp only [startFw, bind_run, run, tick, op_run lucky, openFw]
  exact ⟨_, rfl, rfl⟩

/-- The first lump is not larger than the buffer. -/
theorem sizesFall_iff {z : Zlib} {attr : Nat} {lumps : List (List UInt8)}
    (fits : ∀ lump ∈ lumps, LumpFits z attr lump) : SizesFall z attr lumps ↔
      (rawDataSize :: lumps.map fun lump => (unpacked z attr lump).length).IsChain (· ≥ ·) := by
  cases lumps with
  | nil => simp [SizesFall]
  | cons lump lumps =>
    rw [List.map_cons, List.isChain_cons_cons, and_iff_right (fits lump List.mem_cons_self).raw]
    rfl

/-- Where all file operations succeed, a section whose lumps fit the buffers is unpacked to the
concatenation of its lumps exactly if it is not compressed or no lump unpacks to more bytes than
the one before it, and the image stays below the largest file. -/
theorem fwsave_unpacks (pkg : Pkg) (env : Env) (lucky : ∀ k, env.luck k = none) (sec : FwSection)
    (pre post : List UInt8) (layout : pkg.file = pre ++ sec.bytes ++ post)
    (fits : ∀ lump ∈ sec.lumps, LumpFits pkg.zlib sec.attr lump) (w : World) :
    (∃ w', upgCtlFwsave pkg env pre.length w = .ok () w' ∧
      w'.fw = some (sec.lumps.flatMap (unpacked pkg.zlib sec.attr))) ↔
    (sec.attr = 0 ∨ SizesFall pkg.zlib sec.attr sec.lumps) ∧
      (sec.lumps.flatMap (unpacked pkg.zlib sec.attr)).length < offMax := by
  obtain ⟨p, u, head, there⟩ := readFwHead_run lucky layout { w with fwFd := .unset }
  obtain ⟨u', start, empty⟩ := @startFw_run env lucky u
  have run : upgCtlFwsave pkg env pre.length w = (do
      let _ ← rounds (saveLump pkg env sec.attr) 0 sec.lumps.length ⟨p, 0, 0, rawDataSize⟩
      closeFw
      op env .closeFailed) u' := by
    rw [upgCtlFwsave, modify_bind_run, bind_run, head]
    simp only
    rw [bind_run, start]
  have loop := @saveLumps_iff pkg env u' sec.attr [] post 0 ⟨p, 0, 0, rawDataSize⟩ lucky sec.lumps
    there rfl fits empty (by decide)
  simp only [List.nil_append, List.length_nil, Nat.zero_add] at loop
  rw [sizesFall_iff fits, ← loop, run]
  have closing : ∀ m, (do closeFw; op env .closeFailed : M Unit) m =
      .ok () { m with fwFd := .closed, clock := m.clock + 1 } := by
    intro m
    rw [closeFw, modify_bind_run, op_run lucky]
  constructor
  · rintro ⟨w', done, image⟩
    obtain ⟨v', m, ran, closed⟩ := bind_ok_iff.mp done
    rw [closing] at closed
    cases closed
    exact ⟨v', m, ran, image⟩
  · rintro ⟨v', m, ran, image⟩
    exact ⟨_, bind_ok_iff.mpr ⟨v', m, ran, closing m⟩, image⟩

end

/-- The zlib streams of "a" and "ab". -/
def twoStreams : Zlib where
  data src :=
    if src = [0x78, 0x9C, 0x4B, 0x04, 0x00, 0x00, 0x62, 0x00, 0x62] then some [0x61]
    else if src = [0x78, 0x9C, 0x4B, 0x4C, 0x02, 0x00, 0x01, 0x26, 0x00, 0xC4] then
      some [0x61, 0x62]
    else none
  wants _ _ := false

/-- A package with a firmware section at its front, and the end mark. -/
def sectionPkg (sec : FwSection) (small : (sec.bytes ++ [0x55]).length < offMax) : Pkg where
  file := sec.bytes ++ [0x55]
  small := small
  zlib := twoStreams
  verMid _ := 3

def fine : Env where
  luck _ := none
  sameVer _ _ := false

def World.fresh : World where
  pos := 0
  upgFileData _ := 0
  rawData _ := 0
  fw := none
  fwFd := .unset
  fwPos := 0
  clock := 0

/-- Two compressed lumps, "ab" and "a". -/
def falling : FwSection where
  attr := 1
  ver := [0x31]
  contentLength := 3
  lumpLen := 2
  lumps := [[0x78, 0x9C, 0x4B, 0x4C, 0x02, 0x00, 0x01, 0x26, 0x00, 0xC4],
    [0x78, 0x9C, 0x4B, 0x04, 0x00, 0x00, 0x62, 0x00, 0x62]]
  attr_lt := by decide

/-- The same lumps the other way round. -/
def growing : FwSection :=
  { falling with lumps := falling.lumps.reverse }

theorem fwsave_unpacks_falling :
    ∃ w', upgCtlFwsave (sectionPkg falling (by decide)) fine 0 World.fresh = .ok () w' ∧
      w'.fw = some [0x61, 0x62, 0x61] := by
  refine (fwsave_unpacks (sectionPkg falling (by decide)) fine (fun _ => rfl) falling [] [0x55] rfl
    ?_ World.fresh).mpr ⟨.inr ?_, ?_⟩
  · rintro lump (_ | ⟨_, _ | ⟨_, ⟨⟩⟩⟩)
    · exact ⟨by decide, fun _ => by decide, by decide⟩
    · exact ⟨by decide, fun _ => by decide, by decide⟩
  · simp only [SizesFall]
    decide
  · decide

/-- "a" unpacks to one byte, and there is no room for "ab" then. -/
theorem fwsave_refuses_growing :
    (∀ lump ∈ growing.lumps, LumpFits twoStreams growing.attr lump) ∧
      ¬ ∃ w', upgCtlFwsave (sectionPkg growing (by decide)) fine 0 World.fresh = .ok () w' ∧
        w'.fw = some (growing.lumps.flatMap (unpacked twoStreams growing.attr)) := by
  constructor
  · rintro lump (_ | ⟨_, _ | ⟨_, ⟨⟩⟩⟩)
    · exact ⟨by decide, fun _ => by decide, by decide⟩
    · exact ⟨by decide, fun _ => by decide, by decide⟩
  · rintro ⟨w', done, -⟩
    have stops : returns (upgCtlFwsave (sectionPkg growing (by decide)) fine 0 World.fresh) =
        false := by decide +kernel
    rw [done] at stops
    cases stops

end PkgFile
