import TBoxMpu.Fota.Image

/-!
# Upgrading the ECUs of a package

`fota_core.c` with the FOTON functions that `fota_load` installs. Everything outside (the
message to the CAN thread, the UDS client, the image files, the progress call-back, the
T-Box's own upgrade) is a parameter `Env` that answers from a state of its own. A call
through a null pointer and a division by zero stop the run.
-/

namespace Fota

/-! ### The package -/

/-- A string without its final zero. -/
abbrev CStr := List UInt8

/-- What `img_load` and `img_calc` can point at. -/
inductive ImgLoader
  | s19 | hex | bin
  deriving DecidableEq, Repr

/-- `fota_ver_t`; `fota_load_ver` leaves `imgLoad` null for the format `PKG`. -/
structure FotaVer where
  ver : CStr
  fpath : CStr
  imgLoad : Option ImgLoader
  imgAttr : UInt32
  deriving DecidableEq, Repr

/-- `fota_ecu_t`; a version whose `ecu` is null is `none`, `rel` ends before the first of
them. `rback` is kept in the world. -/
structure FotaEcu where
  name : CStr
  hwVer : CStr
  src : FotaVer
  tar : Option FotaVer
  rel : List FotaVer
  drv : Option FotaVer
  keyPar : List Int
  keyLvl : Int
  deriving DecidableEq, Repr

structure EcuInf where
  name : CStr
  pid : Int
  rid : Int
  deriving DecidableEq, Repr

structure BusInf where
  port : Int
  baud : Int
  fid : Int
  ecu : List EcuInf
  deriving DecidableEq, Repr

/-- The constant part of `fota_t` with the ECUs whose `fota` is set. -/
structure Package where
  root : CStr
  bus : List BusInf
  ecu : List FotaEcu
  deriving DecidableEq, Repr

/-- "TBOX" -/
def tboxName : CStr := [0x54, 0x42, 0x4f, 0x58]

/-! ### The world of a run -/

/-- What the run does: calls it makes and lines it logs. ECUs are given by their place. -/
inductive FotaEvent
  | upgrade (ecu : Nat) (ver : FotaVer)
  | request (bc : Bool) (sid : Nat) (sub : Int) (data : List UInt8)
  | erase (ecu : Nat)
  | checkFail (ecu : Nat)
  | setBaud (ecu : Nat) (port : Int) (baud : Int16) (res : Int)
  | rollback
  | rollbackEcu (ecu : Nat)
  | rollbackResult (error : Int)
  deriving DecidableEq, Repr

/-- How `fota_uds_open` ends: refused or timed out, open, or woken by the time-out of the
client configuration, when it returns 0 but nothing is open. -/
inductive UdsOpen
  | failed | opened | expired
  deriving DecidableEq, Repr

inductive Crash
  | null | divZero
  deriving DecidableEq, Repr

structure Env (σ : Type) where
  tcomSendMsg : (port : Int) → (baud : Int16) → σ → Int × σ
  udsOpen : (port fid rid pid : Int) → σ → UdsOpen × σ
  udsRequest : (bc : Bool) → (sid : Nat) → (sub : Int) → List UInt8 → (timeout : Nat) → σ → Int × σ
  udsResult : σ → Option (List UInt8)
  imgLoad : ImgLoader → CStr → UInt32 → σ → Option FotaImg × σ
  imgCalc : ImgLoader → CStr → σ → Int × σ
  callback : Int → σ → Int × σ
  fileCopy : CStr → σ → Int × σ
  pkgupgrade : σ → Int × σ

structure World (σ : Type) where
  env : σ
  rback : Nat → Bool
  callback : Bool
  curr : Int
  total : Int
  tboxSelfupgrade : Bool
  blkCnt : Nat
  canBaud : Int → Int16
  udsOpen : Bool
  trace : List FotaEvent

abbrev Job (σ : Type) := EStateM Crash (World σ)

variable {σ : Type}

def call {α : Type} (f : σ → α × σ) : Job σ α := do
  let w ← get
  set { w with env := (f w.env).2 }
  pure (f w.env).1

def emit (e : FotaEvent) : Job σ Unit :=
  modify fun w => { w with trace := w.trace ++ [e] }

/-! ### CAN ports and the UDS client -/

def canMaxPort : Int := 5

def World.baud (w : World σ) (port : Int) : Int16 :=
  if port < 0 ∨ port ≥ canMaxPort then -1 else w.canBaud port

def canGetBaud (port : Int) : Job σ Int16 := do
  let w ← get
  pure (w.baud port)

/-- `can_set_baud` for the ECU `i`; the CAN thread takes the rate over from the message. -/
def canSetBaud (env : Env σ) (i : Nat) (port : Int) (baud : Int16) : Job σ Int := do
  if port < 0 ∨ port ≥ canMaxPort ∨ baud < 0 then
    emit (.setBaud i port baud (-1))
    pure (-1)
  else if (← call (env.tcomSendMsg port baud)) ≠ 0 then
    emit (.setBaud i port baud (-2))
    pure (-2)
  else
    emit (.setBaud i port baud 0)
    -- the port has the rate only if the message was taken
    modify fun w => { w with canBaud := fun p => if p = port then baud else w.canBaud p }
    pure 0

def fotaUdsOpen (env : Env σ) (port fid rid pid : Int) : Job σ Int := do
  let w ← get
  if w.udsOpen then pure (-1)
  else
    match ← call (env.udsOpen port fid rid pid) with
    | .failed => pure (-1)
    | .opened =>
      modify fun w => { w with udsOpen := true }
      pure 0
    -- told as success, though nothing is open
    | .expired => pure 0

def fotaUdsClose : Job σ Unit :=
  modify fun w => { w with udsOpen := false }

def fotaUdsRequest (env : Env σ) (bc : Bool) (sid : Nat) (sub : Int) (data : List UInt8)
    (timeout : Nat) : Job σ Int := do
  let w ← get
  if ¬w.udsOpen then pure (-1)
  else if data.length + 2 > 1024 then pure (-1)
  else
    emit (.request bc sid sub data)
    call (env.udsRequest bc sid sub data timeout)

/-- The answer when it fits in `siz` bytes. -/
def fotaUdsResult (env : Env σ) (siz : Nat) : Job σ (Option (List UInt8)) := do
  let w ← get
  pure ((env.udsResult w.env).filter fun data => data.length ≤ siz)

def be32 (x : UInt32) : List UInt8 :=
  [(x >>> 24).toUInt8, (x >>> 16).toUInt8, (x >>> 8).toUInt8, x.toUInt8]

def fotaUdsReqDownload (env : Env σ) (base size : UInt32) : Job σ Int := do
  let buf := [0, 0x44] ++ be32 base ++ be32 size
  if (← fotaUdsRequest env false 0x34 0 buf 3) ≠ 0 then pure (-1)
  else
    match ← fotaUdsResult env 64 with
    | none => pure (-1)
    | some data =>
      -- The answer is copied over the request, whose rest stays in the buffer.
      let buf := data ++ buf.drop data.length
      let l := ((buf.getD 0 0) >>> 4).toNat
      let plen := (List.range l).foldl
        (fun (plen : Int32) k => plen * 256 + Int32.ofNat (buf.getD (k + 1) 0).toNat) 0
      modify fun w => { w with blkCnt := 0 }
      -- two bytes of a block are its service and its number
      pure (if plen > 258 then 256 else (plen - 2).toInt)

def fotaUdsTransData (env : Env σ) (data : List UInt8) : Job σ Int := do
  if data.length + 1 > 522 then pure (-1)
  else
    -- the block counter runs on when the request fails
    modify fun w => { w with blkCnt := w.blkCnt + 1 }
    let w ← get
    fotaUdsRequest env false 0x36 0 (UInt8.ofNat w.blkCnt :: data) 3

def fotaUdsTransExit (env : Env σ) : Job σ Int :=
  fotaUdsRequest env false 0x37 0 [] 3

/-! ### The functions `fota_load` installs -/

/-- A routine with its parameters; whether it was answered with its identifier and 0. -/
def fotonRoutine (env : Env σ) (id : UInt8 × UInt8) (par : List UInt8) (timeout : Nat) :
    Job σ Bool := do
  if (← fotaUdsRequest env false 0x31 0x01 ([id.1, id.2] ++ par) timeout) ≠ 0 then pure false
  else
    let tmp ← fotaUdsResult env 16
    pure (tmp == some [id.1, id.2, 0])

def fotonErase (env : Env σ) (base size : UInt32) : Job σ Int := do
  pure (if ← fotonRoutine env (0xff, 0) (0x44 :: be32 base ++ be32 size) 60 then 0 else -1)

def fotonCheck0 (env : Env σ) : Job σ Int := do
  pure (if ← fotonRoutine env (0xf0, 0x02) [] 3 then 0 else 1)

def fotonCheck1 (env : Env σ) : Job σ Int := do
  pure (if ← fotonRoutine env (0xf0, 0x01) [] 3 then 0 else 1)

def fotonCheck2 (env : Env σ) : Job σ Int := do
  pure (if ← fotonRoutine env (0xff, 0x01) [] 3 then 0 else 1)

/-- Reading an identifier into a buffer of `size` bytes; `none` for a result of -1. -/
def fotonReadId (env : Env σ) (id : UInt8 × UInt8) (size : Nat) : Job σ (Option (List UInt8)) := do
  if (← fotaUdsRequest env false 0x22 0 [id.1, id.2] 5) ≠ 0 then pure none
  else
    match ← fotaUdsResult env size with
    | some (hi :: lo :: ver) => pure (if (hi, lo) = id then some ver else none)
    | _ => pure none

def fotonSwver (env : Env σ) : Nat → Job σ (Option (List UInt8)) := fotonReadId env (0xf1, 0x95)

def fotonHwver (env : Env σ) : Nat → Job σ (Option (List UInt8)) := fotonReadId env (0xf1, 0x93)

/-- The string in the buffer, which `foton_swver` and `foton_hwver` end with a zero. -/
def fotonVerstr (ver : List UInt8) : CStr := ver.takeWhile (· != 0)

/-- The four bytes of the key. -/
def fotonSecurity (seed : List UInt8) (keyPar : List Int) : List UInt8 :=
  let s := fun k => ((seed.getD k 0).toNat : Int)
  let p := fun k => keyPar.getD k 0
  [p 0 * s 0 * s 0 + p 1 * s 1 * s 1 + p 2 * s 0 * s 1,
    p 0 * s 0 + p 1 * s 1 + p 3 * s 0 * s 1,
    p 0 * s 2 * s 3 + p 1 * s 3 * s 3 + p 2 * s 2 * s 3,
    p 0 * s 2 * s 3 + p 1 * s 3 + p 3 * s 2 * s 3].map fun x => UInt8.ofNat (x % 256).toNat

/-! ### One ECU -/

def fotaEcuMatch (env : Env σ) (ecu : FotaEcu) : Job σ Int := do
  match ← fotonHwver env 128 with
  | none | some [] => pure (-1)
  | some ver =>
    if ecu.hwVer ≠ fotonVerstr ver then pure (-1)
    else
      -- the hardware is right, now the version to be replaced
      match ← fotonSwver env 128 with
      | none | some [] => pure (-1)
      | some ver => pure (if ecu.src.ver ≠ fotonVerstr ver then -1 else 0)

/-- `rback` is set and the erase request made. -/
def markErase (i : Nat) : Job σ Unit := do
  -- before the answer is known: the ECU may be erased from here on
  modify fun w => { w with rback := fun j => if j = i then true else w.rback j }
  emit (.erase i)

/-- The loop that erases the sections. -/
def fotaErase (env : Env σ) (i : Nat) : List ImgSect → Job σ Int
  | [] => pure 0
  | sect :: rest => do
    markErase i
    if (← fotonErase env sect.base sect.size) ≠ 0 then pure (-1) else fotaErase env i rest

/-- `data` cut into pieces of `plen` bytes, at most `left` of them. -/
def blocks (plen : Nat) : Nat → List UInt8 → List (List UInt8)
  | 0, _ => []
  | left + 1, data =>
    if data = [] then [] else data.take plen :: blocks plen left (data.drop plen)

/-- The loop that transfers one section; a report asks the call-back whether to go on. -/
def fotaTransfer (env : Env σ) : List (List UInt8) → Job σ Int
  | [] => pure 0
  | block :: rest => do
    if (← fotaUdsTransData env block) ≠ 0 then pure (-1)
    else
      modify fun w => { w with curr := w.curr + block.length }
      let w ← get
      -- the code divides by the total without looking
      if w.total = 0 then throw .divZero
      else
        -- the product is an `int`
        let percent := (Int32.ofInt (w.curr * 100)).toInt.tdiv w.total
        let percent := if w.tboxSelfupgrade ∧ percent ≥ 90 then 90 else percent
        if w.callback then
          if (← call (env.callback percent)) ≠ 0 then pure (-1) else fotaTransfer env rest
        else fotaTransfer env rest

/-- The loop that programs the sections. -/
def fotaProgramSects (env : Env σ) (img : FotaImg) : List ImgSect → Job σ Int
  | [] => pure 0
  | sect :: rest => do
    -- the ECU chooses the length of a block
    let plen ← fotaUdsReqDownload env sect.base sect.size
    if plen ≤ 0 then pure (-1)
    else
      let data := img.bytes sect
      if (← fotaTransfer env (blocks plen.toNat data.length data)) ≠ 0 then pure (-1)
      else if (← fotaUdsTransExit env) ≠ 0 then pure (-1)
      else fotaProgramSects env img rest

def fotaEcuProgram (env : Env σ) (root : CStr) (i : Nat) (ver : FotaVer) (erase : Bool) :
    Job σ Int := do
  if root.length + ver.fpath.length ≥ 256 then pure (-1)
  else
    match ver.imgLoad with
    | none => throw .null
    | some loader =>
      match ← call (env.imgLoad loader (root ++ ver.fpath) ver.imgAttr) with
      | none => pure (-1)
      | some img =>
        if (← fotaErase env i (if erase then img.sects else [])) ≠ 0 then pure (-1)
        else if (← fotaProgramSects env img img.sects) ≠ 0 then pure (-1)
        else if (← fotonCheck1 env) ≠ 0 then pure (-1)
        else if (← fotonCheck2 env) ≠ 0 then pure (-1)
        else pure 0

/-- A disjunction of results that are not 0. -/
def anyFails : List (Job σ Int) → Job σ Bool
  | [] => pure false
  | p :: rest => do if (← p) ≠ 0 then pure true else anyFails rest

def fotaUpgradePrepare (env : Env σ) : Job σ Bool :=
  anyFails [fotaUdsRequest env true 0x10 0x83 [] 2, fotonCheck0 env,
    fotaUdsRequest env true 0x85 0x82 [] 2, fotaUdsRequest env true 0x28 0x83 [0x01] 2]

/-- The flash driver, if there is one, is programmed without erasing. -/
def fotaFlashDriver (env : Env σ) (root : CStr) (i : Nat) (ecu : FotaEcu) : Job σ Int := do
  match ecu.drv with
  | none => pure 0
  | some drv => fotaEcuProgram env root i drv false

def fotaUpgradeExcute (env : Env σ) (root : CStr) (i : Nat) (ecu : FotaEcu) (ver : FotaVer) :
    Job σ Int := do
  if (← fotaUdsRequest env false 0x10 0x02 [] 3) ≠ 0 then pure (-1)
  else if (← fotaUdsRequest env false 0x27 ecu.keyLvl [] 3) ≠ 0 then pure (-1)
  else
    match ← fotaUdsResult env 128 with
    | none | some [] => pure (-1)
    | some seed =>
      let key := fotonSecurity seed ecu.keyPar
      if (← fotaUdsRequest env false 0x27 (ecu.keyLvl + 1) key 3) ≠ 0 then pure (-1)
      else
        if (← fotaFlashDriver env root i ecu) ≠ 0 then pure (-1)
        else if (← fotaEcuProgram env root i ver true) ≠ 0 then pure (-1)
        else pure 0

def fotaUpgradeFinish (env : Env σ) : Job σ Bool :=
  anyFails [fotaUdsRequest env false 0x11 0x01 [] 10, fotaUdsRequest env true 0x10 0x83 [] 2,
    fotaUdsRequest env true 0x28 0x80 [0x03] 2, fotaUdsRequest env true 0x85 0x81 [] 2,
    fotaUdsRequest env true 0x10 0x81 [] 2, fotaUdsRequest env false 0x14 0 [0xff, 0xff, 0xff] 3]

def fotaEcuUpgrade (env : Env σ) (root : CStr) (i : Nat) (ecu : FotaEcu) (ver : FotaVer) :
    Job σ Int := do
  emit (.upgrade i ver)
  if ← fotaUpgradePrepare env then pure (-1)
  else if (← fotaUpgradeExcute env root i ecu ver) ≠ 0 then pure (-1)
  else if ← fotaUpgradeFinish env then pure (-1)
  else pure 0

/-- The loop over the related versions when the ECU runs `verstr`. -/
def fotaResolveRel (env : Env σ) (root : CStr) (i : Nat) (ecu : FotaEcu) (verstr : CStr) :
    List FotaVer → Job σ Int
  | [] => pure 0
  | relv :: rest => do
    if ¬verstr < relv.ver then fotaResolveRel env root i ecu verstr rest
    else if (← fotaEcuUpgrade env root i ecu relv) ≠ 0 then pure (-1)
    else fotaResolveRel env root i ecu verstr rest

def fotaEcuResolve (env : Env σ) (root : CStr) (i : Nat) (ecu : FotaEcu) : Job σ Int := do
  match ← fotonSwver env 128 with
  | none | some [] => pure (-1)
  | some ver => fotaResolveRel env root i ecu (fotonVerstr ver) ecu.rel

/-! ### The workload -/

def fotaVerSize (env : Env σ) (root : CStr) (ver : FotaVer) : Job σ Int := do
  if root.length + ver.fpath.length ≥ 256 then pure (-1)
  else
    match ver.imgLoad with
    | none => throw .null
    | some loader => call (env.imgCalc loader (root ++ ver.fpath))

/-- The size of a version that may be missing; `none` when it cannot be calculated. -/
def fotaOptSize (env : Env σ) (root : CStr) : Option FotaVer → Job σ (Option Int)
  | none => pure (some 0)
  | some ver => do
    let size ← fotaVerSize env root ver
    pure (if size ≤ 0 then none else some size)

/-- The loop of `fota_rel_size`, with the sum so far. -/
def fotaRelSize (env : Env σ) (root : CStr) (src : CStr) : Int → List FotaVer → Job σ Int
  | total, [] => pure total
  | total, relv :: rest => do
    if ¬src < relv.ver then fotaRelSize env root src total rest
    else
      let size ← fotaVerSize env root relv
      if size ≤ 0 then pure (-1) else fotaRelSize env root src (total + size) rest

def addTotal (size : Int) : Job σ Unit :=
  modify fun w => { w with total := w.total + size }

/-- The loop of `fota_calc_workload`: whether all sizes could be calculated, and
`tbox_selfupgrade`. -/
def fotaWorkloadLoop (env : Env σ) (root : CStr) : Int → List FotaEcu → Job σ (Option Int)
  | tbox, [] => pure (some tbox)
  | tbox, ecu :: rest => do
    if ecu.name = tboxName then
      modify fun w => { w with tboxSelfupgrade := true }
      fotaWorkloadLoop env root 1 rest
    else
      match ← fotaOptSize env root ecu.drv with
      | none => pure none
      | some size =>
        addTotal size
        match ← fotaOptSize env root ecu.tar with
        | none => pure none
        | some size =>
          addTotal size
          let size ← fotaRelSize env root ecu.src.ver 0 ecu.rel
          if size < 0 then pure none
          else
            addTotal size
            fotaWorkloadLoop env root tbox rest

def fotaCalcWorkload (env : Env σ) (f : Package) : Job σ Int := do
  modify fun w => { w with total := 0 }
  match ← fotaWorkloadLoop env f.root 0 f.ecu with
  | none => pure (-1)
  | some tbox =>
    let w ← get
    pure (w.total + tbox)

/-! ### The run -/

/-- `FOR_EACH_FOTABUS` -/
def Package.buses (f : Package) : List BusInf := f.bus.takeWhile (·.port ≠ 0)

/-- `FOR_EACH_BUSECU` -/
def BusInf.ecus (bus : BusInf) : List EcuInf := bus.ecu.takeWhile (·.name ≠ [])

def fotaFindEcuInfo (f : Package) (name : CStr) : Option EcuInf :=
  f.buses.findSome? fun bus => bus.ecus.find? fun ecu => ecu.name = name

def fotaFindEcuBus (f : Package) (name : CStr) : Option BusInf :=
  f.buses.find? fun bus => bus.ecus.any fun ecu => ecu.name = name

/-- The bus rate is set and the UDS client opened, in `fota_excute` as in `fota_rollback`;
the former rate, or `none` after a failure. -/
def fotaEnter (env : Env σ) (i : Nat) (bus : BusInf) (info : EcuInf) :
    Job σ (Option Int16) := do
  let baud ← canGetBaud (bus.port - 1)
  let set ←
    if baud.toInt ≠ bus.baud then canSetBaud env i (bus.port - 1) (.ofInt bus.baud) else pure 0
  if set ≠ 0 then pure none
  else if (← fotaUdsOpen env (bus.port - 1) bus.fid info.rid info.pid) ≠ 0 then
    let _ ← canSetBaud env i (bus.port - 1) baud
    pure none
  else pure (some baud)

/-- The end of both loop bodies. -/
def fotaLeave (env : Env σ) (i : Nat) (bus : BusInf) (baud : Int16) : Job σ Unit := do
  fotaUdsClose
  let _ ← canSetBaud env i (bus.port - 1) baud

/-- The body of the loop of `fota_rollback` for an ECU whose `rback` is set and that is not
the T-Box; the number of errors. -/
def fotaRollbackEcu (env : Env σ) (f : Package) (i : Nat) (ecu : FotaEcu) : Job σ Int := do
  emit (.rollbackEcu i)
  match fotaFindEcuBus f ecu.name, fotaFindEcuInfo f ecu.name with
  | some bus, some info =>
    match ← fotaEnter env i bus info with
    | none => pure 1
    | some baud =>
      let res ← fotaEcuUpgrade env f.root i ecu ecu.src
      fotaLeave env i bus baud
      pure (if res ≠ 0 then 1 else 0)
  | _, _ => throw .null

def fotaRollbackLoop (env : Env σ) (f : Package) : Int → List (FotaEcu × Nat) → Job σ Int
  | error, [] => pure error
  | error, (ecu, i) :: rest => do
    let w ← get
    if w.rback i ∧ ecu.name ≠ tboxName then
      let res ← fotaRollbackEcu env f i ecu
      fotaRollbackLoop env f (error + res) rest
    else fotaRollbackLoop env f error rest

def fotaRollback (env : Env σ) (f : Package) : Job σ Unit := do
  emit .rollback
  modify fun w => { w with callback := false }
  let error ← fotaRollbackLoop env f 0 f.ecu.zipIdx
  emit (.rollbackResult error)

def fotaTboxUpgrade (env : Env σ) (root : CStr) (tar : Option FotaVer) : Job σ Int := do
  match tar with
  | none => throw .null
  | some ver =>
    if root.length + ver.fpath.length ≥ 256 then pure (-1)
    else if (← call (env.fileCopy (root ++ ver.fpath))) ≠ 0 then pure (-1)
    else call env.pkgupgrade

/-- The T-Box comes last, when nothing failed. -/
def fotaTboxLast (env : Env σ) (root : CStr) (error : Int) : Option FotaEcu → Job σ Int
  | none => pure error
  | some tbox => if error = 0 then fotaTboxUpgrade env root tbox.tar else pure error

/-- The body of the loop of `fota_excute` for an ECU other than the T-Box; the number of
errors, after which the loop ends. -/
def fotaExcuteEcu (env : Env σ) (f : Package) (i : Nat) (ecu : FotaEcu) : Job σ Int := do
  match fotaFindEcuBus f ecu.name, fotaFindEcuInfo f ecu.name, ecu.tar with
  | some bus, some info, some tar =>
    match ← fotaEnter env i bus info with
    | none => pure 1
    | some baud =>
      if (← fotaEcuMatch env ecu) ≠ 0 then
        emit (.checkFail i)
        fotaUdsClose
        pure 1
      else if (← fotaEcuResolve env f.root i ecu) ≠ 0 then
        emit (.checkFail i)
        fotaUdsClose
        pure 1
      else
        let res ← fotaEcuUpgrade env f.root i ecu tar
        fotaLeave env i bus baud
        pure (if res ≠ 0 then 1 else 0)
  | _, _, _ => pure 1

/-- The errors of the loop and the T-Box's entry, if it was passed. -/
def fotaExcuteLoop (env : Env σ) (f : Package) :
    Option FotaEcu → List (FotaEcu × Nat) → Job σ (Int × Option FotaEcu)
  | tbox, [] => pure (0, tbox)
  | tbox, (ecu, i) :: rest => do
    if ecu.name = tboxName then fotaExcuteLoop env f (some ecu) rest
    else
      let error ← fotaExcuteEcu env f i ecu
      if error ≠ 0 then pure (error, tbox) else fotaExcuteLoop env f tbox rest

def fotaExcute (env : Env σ) (f : Package) (cb : Bool) : Job σ Int := do
  if (← fotaCalcWorkload env f) ≤ 0 then pure (-1)
  else
    modify fun w => { w with callback := cb }
    let (error, tbox) ← fotaExcuteLoop env f none f.ecu.zipIdx
    let error ← fotaTboxLast env f.root error tbox
    if error ≠ 0 then
      fotaRollback env f
      pure error
    else pure error

end Fota
