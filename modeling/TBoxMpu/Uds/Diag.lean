import Mathlib.Data.List.Basic
import Mathlib.Data.UInt
import TBoxMpu.Lib.Runs

/-!
# Faults and their freeze frames

`uds_diag.c`: the layout of `uds_diag_item_buf`, the fault counters, the freeze frame that is
written when a fault is confirmed, and its retrieval. The tables are parameters.
-/

namespace Uds

/-! ### The tables -/

/-- An entry of `diag_did_table`; what its `get` reads is given with each check. -/
structure DiagDid where
  id : UInt16
  len : Nat
  deriving DecidableEq

/-- An entry of `diag_table`: the digits of the DTC, the threshold and the array `freeze`. -/
structure DiagItem where
  dtc : List Char
  thsd : Nat
  freeze : List UInt16
  deriving DecidableEq

structure DiagCfg where
  items : List DiagItem
  dids : List DiagDid

def didInvalid : UInt16 := 0xFFFF

def diagMaxDidCnt : Nat := 17

def diagItemBufLen : Nat := 1024

/-- The identifiers of a freeze frame: the loops end at `DID_INVALID`. -/
def DiagItem.ids (item : DiagItem) : List UInt16 :=
  (item.freeze.take diagMaxDidCnt).takeWhile (· ≠ didInvalid)

def DiagCfg.did (c : DiagCfg) (id : UInt16) : Option DiagDid := c.dids.find? (·.id = id)

/-- The length of an identifier's data, zero for one that is not in the table. -/
def DiagCfg.didLen (c : DiagCfg) (id : UInt16) : Nat := ((c.did id).map DiagDid.len).getD 0

/-- `offset` and `len` of an item in `uds_diag_item_buf`. -/
structure DiagSlot where
  offset : Nat
  len : Nat
  deriving DecidableEq

/-- The loops of `uds_diag_init`: the flag and the data, one item behind the other. -/
def diagSlots (c : DiagCfg) : Nat → List DiagItem → Option (List DiagSlot)
  | _, [] => some []
  | offset, item :: rest =>
    if item.ids.all fun id => (c.did id).isSome then
      let len := (item.ids.map c.didLen).sum + 4
      (diagSlots c (offset + len) rest).map (⟨offset, len⟩ :: ·)
    else none

/-- `uds_diag_init`: the layout, if it is accepted. -/
def udsDiagInit (c : DiagCfg) : Option (List DiagSlot) :=
  (diagSlots c 0 c.items).filter fun slots =>
    slots.getLast?.all fun slot => slot.offset + slot.len ≤ diagItemBufLen

/-! ### Checks -/

/-- What the identifiers' sources hold: byte for byte. -/
abbrev DidSource := UInt16 → Nat → UInt8

/-- `uds_diag_item_buf` -/
abbrev DiagBuf := Nat → UInt8

/-- `get` into the buffer. -/
def DiagBuf.write (buf : DiagBuf) (offset len : Nat) (data : Nat → UInt8) : DiagBuf := fun p =>
  if offset ≤ p ∧ p < offset + len then data (p - offset) else buf p

def DiagBuf.read (buf : DiagBuf) (offset len : Nat) : List UInt8 :=
  (List.range len).map fun k => buf (offset + k)

/-- `*confirmed`, as an `unsigned int`. -/
def DiagBuf.confirmed (buf : DiagBuf) (slot : DiagSlot) : Bool :=
  (buf.read slot.offset 4).any (· ≠ 0)

/-- `*confirmed = 1` -/
def DiagBuf.confirm (buf : DiagBuf) (slot : DiagSlot) : DiagBuf :=
  buf.write slot.offset 4 fun k => if k = 0 then 1 else 0

/-- `uds_diag_gen_freeze`: every identifier is written behind the flag. -/
def udsDiagGenFreeze (c : DiagCfg) (slot : DiagSlot) (src : DidSource) (ids : List UInt16)
    (buf : DiagBuf) : DiagBuf :=
  ids.foldl (fun buf id =>
    match c.did id with
    -- the offset is computed anew for each identifier
    | some did => buf.write (slot.offset + 4) did.len (src id)
    | none => buf) buf

/-- The buffer and the counters. `frozen` keeps, for the faults confirmed since the last clear,
what the sources held then. -/
structure DiagState where
  buf : DiagBuf
  counter : Nat → Nat
  frozen : Nat → Option DidSource

def DiagState.initial : DiagState := ⟨fun _ => 0, fun _ => 0, fun _ => none⟩

/-- `uds_diag_one_device`; `fault` is what the item's function returns. -/
def udsDiagOneDevice (c : DiagCfg) (slots : List DiagSlot) (i : Nat) (fault : Bool)
    (src : DidSource) (s : DiagState) : DiagState :=
  match c.items[i]?, slots[i]? with
  | some item, some slot =>
    -- a check without the fault starts the count anew
    if !fault then { s with counter := fun j => if j = i then 0 else s.counter j }
    else if s.counter i < item.thsd then
      { s with counter := fun j => if j = i then s.counter j + 1 else s.counter j }
    -- a confirmed fault keeps its first freeze frame
    else if s.buf.confirmed slot then s
    else
      { s with
        buf := udsDiagGenFreeze c slot src item.ids (s.buf.confirm slot)
        frozen := fun j => if j = i then some src else s.frozen j }
  | _, _ => s

/-- What the checks of a round find: the faults and the sources. -/
structure DiagRound where
  setting : Bool
  fault : Nat → Bool
  src : Nat → DidSource

/-- `uds_diag_all_devices`, without saving the buffer. -/
def udsDiagAllDevices (c : DiagCfg) (slots : List DiagSlot) (round : DiagRound) (s : DiagState) :
    DiagState :=
  if round.setting then
    (List.range c.items.length).foldl
      (fun s i => udsDiagOneDevice c slots i (round.fault i) (round.src i) s) s
  else s

/-- `uds_diag_dtc_clear` -/
def udsDiagDtcClear : DiagState := .initial

/-! ### Retrieval -/

/-- What `uds_diag_get_freeze` gives: the record, `*len` and `*did_num`. -/
structure FreezeRecord where
  data : List UInt8
  len : Nat
  didNum : Nat
  deriving DecidableEq

def idBytes (id : UInt16) : List UInt8 := [(id >>> 8).toUInt8, id.toUInt8]

/-- The loop of `uds_diag_get_freeze`; `limit` is `*len`. -/
def freezeLoop (c : DiagCfg) (slot : DiagSlot) (buf : DiagBuf) (limit : Nat) :
    List UInt16 → List UInt8 → Option (List UInt8)
  | [], data => some data
  | id :: rest, data =>
    match c.did id with
    | some did =>
      -- the identifier and its data must fit; the data is read from one place for all
      if did.len + (data.length + 2) > limit then none
      else
        freezeLoop c slot buf limit rest
          (data ++ idBytes id ++ buf.read (slot.offset + 4) did.len)
    | none => none

/-- `uds_diag_get_freeze`; `none` where it returns `NRC_RequestOutOfRange`. -/
def udsDiagGetFreeze (c : DiagCfg) (slot : DiagSlot) (item : DiagItem) (buf : DiagBuf)
    (limit : Nat) : Option FreezeRecord :=
  if item.ids = [] then some ⟨[], 0, 0⟩
  else (freezeLoop c slot buf limit item.ids []).map fun data =>
    ⟨data, slot.len - 4 + item.ids.length * 2, item.ids.length⟩

end Uds
