import TBoxMpu.Lib.Heads
import TBoxMpu.Lib.SlotRing

/-!
# The FOTON report lists and their flash cache

The report lists of `foton_data.c`, each as the list of the packs linked on it, and the
flash ring that packs are spilled to. A call that finds no node at all never returns from
the code (it spins); here it is `none`.
-/

namespace Foton

/-- The list heads: the four static ones and `tmplst` of `ft_data_flush_error`. -/
inductive FtList
  | free | realtm | delay | trans | tmplst
  deriving DecidableEq, Repr

def ftRpttypeRealtm : Nat := 0x02
def ftRpttypeDelay : Nat := 0x03

/-- `ft_pack_t`, with the place `node` in `ft_datamem` for its link; `data` holds the first
`len` bytes of the buffer and `list` is the home list a put-back returns the pack to. -/
structure FtPack where
  node : Nat
  data : List UInt8
  seq : Nat
  type : Nat
  list : FtList
  deriving DecidableEq, Repr

/-- The report in a pack: its data (with the length) and its sequence number. -/
abbrev FtReport := List UInt8 × Nat

def FtPack.report (rpt : FtPack) : FtReport :=
  (rpt.data, rpt.seq)

/-- The pack as a delayed report: type and home list of the delay list. -/
def FtPack.delayed (rpt : FtPack) : FtPack :=
  { rpt with list := .delay, type := ftRpttypeDelay }

@[simp] theorem FtPack.report_delayed (rpt : FtPack) : rpt.delayed.report = rpt.report := rfl

def ftCacheSize : Nat := 1 <<< 16
def ftCacheMask : Nat := ftCacheSize - 1
def ftCacheGrade : Nat := 6

/-- The report lists, the ring indices in memory, and the files `cache_data` (the pack in
each slot) and `cache_info` (the indices, if the file is there and its checksum right). -/
@[ext] structure FtStore where
  lists : FtList → List FtPack
  emerg : Bool
  indexR : Nat
  indexW : Nat
  cacheData : Nat → FtPack
  cacheInfo : Option (Nat × Nat)

/-- How the file operations of one call come out: whether the directory is there or could
be made, the eMMC is being formatted, `cache_data` opens, the write or read number `k` of
a pack succeeds and `cache_info` is written. -/
structure FileOps where
  pathOk : Bool
  formatting : Bool
  openOk : Bool
  packOk : Nat → Bool
  infoOk : Bool

structure FileOps.Succeed (ops : FileOps) : Prop where
  path : ops.pathOk = true
  format : ops.formatting = false
  opened : ops.openOk = true
  packs : ∀ k, ops.packOk k = true
  info : ops.infoOk = true

/-- All file operations succeed. -/
def FileOps.fine : FileOps := ⟨true, false, true, fun _ => true, true⟩

theorem FileOps.fine_succeed : FileOps.fine.Succeed :=
  ⟨rfl, rfl, rfl, fun _ => rfl, rfl⟩

/-- What a cache function did: the packs it moved, or nothing while formatting. -/
inductive CacheResult
  | moved (packs : List FtPack)
  | formatting
  deriving DecidableEq

/-- The C return value. -/
def CacheResult.ret : CacheResult → Int
  | moved packs => packs.length
  | formatting => -2

def CacheResult.packs : CacheResult → List FtPack
  | moved packs => packs
  | formatting => []

/-! ### The flash cache -/

def ftIndexNext (index : Nat) : Nat :=
  (index + 1) &&& ftCacheMask

def ftCacheReset (s : FtStore) : FtStore :=
  { s with indexR := 0, indexW := 0 }

def ftCacheSaveInfo (ops : FileOps) (s : FtStore) : FtStore :=
  if ops.infoOk then { s with cacheInfo := some (s.indexR, s.indexW) } else s

/-- `if (cnt > 0)` at the end of the cache functions. -/
def ftCacheFinish (ops : FileOps) (packs : List FtPack) (s : FtStore) : FtStore :=
  if packs = [] then s else ftCacheSaveInfo ops s

/-- The loop of `ft_cache_load` with `rounds` of the grade left. -/
def ftCacheLoadLoop (ops : FileOps) : Nat → FtStore → Option (List FtPack × FtStore)
  | 0, s => some ([], s)
  | rounds + 1, s =>
    if s.indexR = s.indexW then some ([], s)
    else
      match Heads.getFirst s.lists .free with
      | none => none
      | some (node, lists) =>
        if ops.packOk (ftCacheGrade - (rounds + 1)) then
          -- the file's copy of the link is replaced when the node is linked in
          let pack := { (s.cacheData s.indexR).delayed with node := node.node }
          (ftCacheLoadLoop ops rounds
            { s with lists := Heads.insertBefore lists .delay pack
                     indexR := ftIndexNext s.indexR }).map fun (packs, t) => (pack :: packs, t)
        else
          -- the cache is given up with the slots not read yet
          some ([], ftCacheReset { s with lists := Heads.insertBefore lists .free node })

def ftCacheLoad (ops : FileOps) (s : FtStore) : Option (CacheResult × FtStore) :=
  if s.indexR = s.indexW then some (.moved [], s)
  else if ops.formatting then some (.formatting, s)
  else if !ops.openOk then some (.moved [], { s with indexR := s.indexW })
  else (ftCacheLoadLoop ops ftCacheGrade s).map fun (packs, t) =>
    (.moved packs, ftCacheFinish ops packs t)

/-- The oldest report that is not with the socket, unlinked. -/
def ftTakeOldest (s : FtStore) : Option (FtPack × (FtList → List FtPack)) :=
  (Heads.getFirst s.lists .delay).or (Heads.getFirst s.lists .realtm)

/-- A pack written to the slot at the write index: its node is free again. -/
def ftCachePut (s : FtStore) (pack : FtPack) : FtStore :=
  let w := ftIndexNext s.indexW
  { s with lists := Heads.insertBefore s.lists .free pack
           cacheData := Function.update s.cacheData s.indexW pack
           indexW := w
           indexR := if s.indexR = w then ftIndexNext s.indexR else s.indexR }

/-- A pack whose write failed goes back to its home list, the cache is given up. -/
def ftCachePutFailed (s : FtStore) (pack : FtPack) : FtStore :=
  ftCacheReset { s with lists := Heads.insertBefore s.lists pack.list pack }

/-- The loop of `ft_cache_save`: `rounds` of the grade are left, `cnt` packs written. -/
def ftCacheSaveLoop (ops : FileOps) :
    Nat → Nat → FtStore → Option (List FtPack × FtStore)
  | 0, _, s => some ([], s)
  | rounds + 1, cnt, s =>
    match ftTakeOldest s with
    | none => none
    | some (pack, lists) =>
      if ops.packOk cnt then
        (ftCacheSaveLoop ops rounds (cnt + 1) (ftCachePut { s with lists } pack)).map
          fun (packs, t) => (pack :: packs, t)
      else some ([], ftCachePutFailed { s with lists } pack)

def ftCacheSave (ops : FileOps) (s : FtStore) : Option (CacheResult × FtStore) :=
  if !ops.pathOk then some (.moved [], ftCacheReset s)
  else if ops.formatting then some (.formatting, s)
  else if !ops.openOk then some (.moved [], ftCacheReset s)
  else (ftCacheSaveLoop ops ftCacheGrade 0 s).map fun (packs, t) =>
    (.moved packs, ftCacheFinish ops packs t)

/-- The loop of `ft_cache_save_all`; `rounds` is the number of reports on the two lists,
every round with a successful write takes one of them. -/
def ftCacheSaveAllLoop (ops : FileOps) : Nat → Nat → FtStore → List FtPack × FtStore
  | 0, _, s => ([], s)
  | rounds + 1, cnt, s =>
    match ftTakeOldest s with
    | none => ([], s)
    | some (pack, lists) =>
      if ops.packOk cnt then
        let (packs, t) := ftCacheSaveAllLoop ops rounds (cnt + 1) (ftCachePut { s with lists } pack)
        (pack :: packs, t)
      else ([], ftCachePutFailed { s with lists } pack)

def ftCacheSaveAll (ops : FileOps) (s : FtStore) : CacheResult × FtStore :=
  if !ops.pathOk then (.moved [], ftCacheReset s)
  else if ops.formatting then (.formatting, s)
  else if !ops.openOk then (.moved [], ftCacheReset s)
  else
    let rounds := (s.lists .delay).length + (s.lists .realtm).length
    let (packs, t) := ftCacheSaveAllLoop ops rounds 0 s
    (.moved packs, ftCacheFinish ops packs t)

/-! ### Operations of the CAN thread -/

/-- A free node, else the oldest report that is not with the socket. -/
def ftTakeBuffer (s : FtStore) : Option (FtPack × (FtList → List FtPack)) :=
  (Heads.getFirst s.lists .free).or (ftTakeOldest s)

/-- With no free node left reports are spilled to the cache. -/
def ftMakeRoom (ops : FileOps) (s : FtStore) : Option FtStore :=
  if s.lists .free = [] then (ftCacheSave ops s).map Prod.snd else some s

/-- One round of the loop of `ft_data_save_realtm`; `data` is what `ft_data_save_all`
wrote for the group `i`. With nothing spilled the oldest report is overwritten. -/
def ftSaveOne (ops : FileOps) (s : FtStore) (i : Nat) (data : List UInt8) : Option FtStore :=
  (ftMakeRoom ops s).bind fun s =>
    (ftTakeBuffer s).map fun (node, lists) =>
      let rpt := ⟨node.node, data, i + 1, ftRpttypeRealtm, .realtm⟩
      { s with lists := Heads.insertBefore lists .realtm rpt }

/-- `ft_data_save_realtm`: the groups from number `i` on, each with its own file luck. -/
def ftSaveFrom (s : FtStore) (i : Nat) : List (FileOps × List UInt8) → Option FtStore
  | [] => some s
  | (ops, data) :: rest => (ftSaveOne ops s i data).bind fun s => ftSaveFrom s (i + 1) rest

def ftDataSaveRealtm (s : FtStore) (groups : List (FileOps × List UInt8)) : Option FtStore :=
  ftSaveFrom s 0 groups

/-- One round of the loop of `ft_data_flush_error` for the error pack `err`. -/
def ftFlushErrorTake (s : FtStore) (err : FtPack) : Option FtStore :=
  (ftTakeBuffer s).map fun (node, lists) =>
    let rpt := { err.delayed with node := node.node }
    { s with lists := Heads.insertAfter lists .tmplst rpt }

/-- The end of `ft_data_flush_error`: the temporary list is appended to the delay list. -/
def ftFlushErrorEnd (s : FtStore) : FtStore :=
  let lists := Heads.set s.lists .delay (s.lists .delay ++ s.lists .tmplst)
  { s with lists := Heads.set lists .tmplst [] }

def ftDataFlushRealtm (s : FtStore) : FtStore :=
  { s with lists := (s.lists .realtm).foldl (fun lists rpt =>
      Heads.insertBefore lists .delay rpt.delayed) (Heads.set s.lists .realtm []) }

/-! ### Operations of the protocol thread -/

def ftDataFlushSending (s : FtStore) : FtStore :=
  -- from the last one back, so that the order stays
  { s with lists := (s.lists .trans).foldr (fun rpt lists =>
      Heads.insertAfter lists rpt.list rpt) (Heads.set s.lists .trans []) }

def ftDataPutBack (s : FtStore) (rpt : FtPack) : FtStore :=
  { s with lists := Heads.insertAfter s.lists rpt.list rpt }

def ftDataPutSend (s : FtStore) (rpt : FtPack) : FtStore :=
  { s with lists := Heads.insertBefore s.lists .trans rpt }

def ftDataAckPack (s : FtStore) : FtStore :=
  match Heads.getFirst s.lists .trans with
  | none => s
  | some (rpt, lists) => { s with lists := Heads.insertBefore lists .free rpt }

def ftDataEmergence (s : FtStore) (set : Bool) : FtStore :=
  { s with emerg := set }

/-- With no delayed report left some are loaded from the cache. -/
def ftRefill (ops : FileOps) (s : FtStore) : Option FtStore :=
  if s.lists .delay = [] then (ftCacheLoad ops s).map Prod.snd else some s

/-- The delayed report to send next: in an emergency the newest one. -/
def ftTakeDelayed (s : FtStore) : Option (FtPack × (FtList → List FtPack)) :=
  if s.emerg then Heads.getLast s.lists .delay else Heads.getFirst s.lists .delay

/-- `ft_data_get_pack`: the pack taken, if any. -/
def ftDataGetPack (ops : FileOps) (s : FtStore) : Option (Option FtPack × FtStore) :=
  match Heads.getFirst s.lists .realtm with
  | some (rpt, lists) => some (some rpt, { s with lists })
  | none => (ftRefill ops s).map fun s =>
    match ftTakeDelayed s with
    | none => (none, s)
    | some (rpt, lists) => (some rpt, { s with lists })

/-- `ft_cache_load_info` at start-up: without a right `cache_info` the ring is empty. -/
def ftCacheLoadInfo (s : FtStore) : Nat × Nat :=
  s.cacheInfo.getD (0, 0)

def ftMaxReport : Nat := 2000

def ftBlankPack (node : Nat) : FtPack :=
  ⟨node, [], 0, 0, .free⟩

/-- `ft_data_init`: all nodes free, the indices from `cache_info`, the files as they are. -/
def ftDataInit (s : FtStore) : FtStore :=
  let (r, w) := ftCacheLoadInfo s
  { s with lists := fun l => if l = .free then (List.range ftMaxReport).map ftBlankPack else []
           emerg := false, indexR := r, indexW := w }

/-- The lists and the cache before the first start: there are no files yet. -/
def ftFresh : FtStore :=
  ftDataInit ⟨fun _ => [], false, 0, 0, fun _ => ftBlankPack 0, none⟩

/-- An empty ring and the reports `packs` on the delay list, all other nodes in use. -/
def ftDelayedOnly (packs : List FtPack) : FtStore :=
  { ftFresh with lists := Heads.set (fun _ => []) .delay packs }

end Foton
