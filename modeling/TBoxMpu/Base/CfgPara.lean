import Mathlib.Data.UInt
import TBoxMpu.Lib.Machines
import TBoxMpu.Lib.Slots

/-!
# The configuration store

`cfg_para.c`: the parameters lie one behind the other in a buffer, at offsets computed from a
table at initialisation. Over it, a map from the ids to values in which a set that cannot be
saved is none. The store is that map exactly if the table fits into the buffer and no set
that is not saved changes a value (`store_is_map_iff`): `cfg_set_by_id` does not look at what
`cfg_save_para` returns.
-/

open Machines Circular Slots

namespace CfgPara

/-! ### The table -/

inductive CfgDataType
  | uint | ushort | uchar | string | double | invalid
  deriving DecidableEq, Repr

inductive CfgError
  | invalidParameter | tableUpdateParaFailed | checkCfgTableFailed | paraOverflow
  deriving DecidableEq, Repr

/-- `CFG_ITEM_TYPE` -/
structure CfgItemType where
  type : CfgDataType
  len : UInt32

def cfgParaMaxMemberCnt : Nat := 6
def cfgMaxParaLen : UInt32 := 512
def cfgParaBufLen : UInt32 := 5 * 1024

/-- `cfg_para_check` returns 0. -/
def cfgParaCheck (type : CfgDataType) (len : UInt32) : Bool :=
  match type with
  | .uint => len == 4
  | .ushort => len == 2
  | .uchar => len == 1
  | .double => len == 8
  | .string => 1 < len
  | .invalid => false

/-- The inner loop of `cfg_init_para`: the length of an item. -/
def memberLoop (size : UInt32) : List CfgItemType → Option UInt32
  | [] => some size
  | member :: rest =>
    if member.type = .invalid then some size
    else if cfgParaCheck member.type member.len then memberLoop (size + member.len) rest
    else none

/-- What `cfg_init_para` fills in of a `CFG_ITEM_INFO`. -/
structure CfgItemInfo where
  len : UInt32
  offset : UInt32
  deriving DecidableEq

/-- The outer loop of `cfg_init_para`, on the members of each item. -/
def tableLoop (offset : UInt32) : List (List CfgItemType) → Option (List CfgItemInfo)
  | [] => some []
  | members :: rest => do
    let size ← memberLoop 0 (members.take cfgParaMaxMemberCnt)
    let items ← tableLoop (offset + size) rest
    some (⟨size, offset⟩ :: items)

/-- The table, `cfg_para_buf`, and what was last saved of it. There is an item for each id
below `CFG_ITEM_ID_MAX`. -/
structure CfgStore where
  table : List CfgItemInfo
  paraBuf : List UInt8
  saved : List UInt8
  deriving DecidableEq

def cfgInitPara (members : List (List CfgItemType)) (saved : List UInt8) :
    Except CfgError CfgStore :=
  match tableLoop 0 members with
  | none => .error .checkCfgTableFailed
  | some table =>
    -- only the end of the last item is compared
    if table.getLast?.any fun last => cfgParaBufLen < last.offset + last.len then
      .error .paraOverflow
    else .ok ⟨table, List.replicate cfgParaBufLen.toNat 0, saved⟩

/-! ### Getting and setting -/

def CfgItemInfo.slot (item : CfgItemInfo) : Slot :=
  ⟨item.offset.toNat, item.len.toNat⟩

/-- The bytes of the item, if it has any, are bytes of `cfg_para_buf`. -/
def CfgStore.Inside (s : CfgStore) (item : CfgItemInfo) : Prop :=
  item.len = 0 ∨ item.offset.toNat + item.len.toNat ≤ s.paraBuf.length

instance (s : CfgStore) (item : CfgItemInfo) : Decidable (s.Inside item) :=
  inferInstanceAs (Decidable (_ ∨ _))

/-- `none` when bytes outside of `cfg_para_buf` are read. -/
def cfgGetPara (s : CfgStore) (id : Nat) (len : UInt32) :
    Option (Except CfgError (List UInt8)) :=
  match s.table[id]? with
  | none => some (.error .invalidParameter)
  | some item =>
    if len < item.len then some (.error .invalidParameter)
    else if s.Inside item then some (.ok (slice s.paraBuf item.slot))
    else none

/-- `none` when bytes outside of `cfg_para_buf` are written. -/
def cfgSetParaIm (s : CfgStore) (id : Nat) (data : List UInt8) :
    Option (Except CfgError CfgStore) :=
  match s.table[id]? with
  | none => some (.error .invalidParameter)
  | some item =>
    if data.length ≠ item.len.toNat then some (.error .invalidParameter)
    else if s.Inside item then
      some (.ok { s with paraBuf := overwrite s.paraBuf item.offset.toNat data })
    else none

/-- `written` is whether the file could be updated. -/
def cfgSavePara (s : CfgStore) (written : Bool) : Bool × CfgStore :=
  (written, if written then { s with saved := s.paraBuf } else s)

/-- The callbacks that are told of the change afterwards do not write the store: the mutex of
the set is held. -/
def cfgSetById (s : CfgStore) (id : Nat) (data : List UInt8) (silent written : Bool) :
    Option (Except CfgError Unit × CfgStore) :=
  if s.table.length ≤ id then some (.error .invalidParameter, s)
  else do
    match ← cfgGetPara s id cfgMaxParaLen with
    | .error _ => some (.error .invalidParameter, s)
    | .ok oldpara =>
      if oldpara.length ≠ data.length then some (.error .invalidParameter, s)
      else match ← cfgSetParaIm s id data with
        | .error _ => some (.error .tableUpdateParaFailed, s)
        | .ok s =>
          if silent then some (.ok (), s)
          -- what `cfg_save_para` returns is not looked at
          else some (.ok (), (cfgSavePara s written).2)

def cfgSetPara (s : CfgStore) (id : Nat) (data : List UInt8) (written : Bool) :
    Option (Except CfgError Unit × CfgStore) :=
  cfgSetById s id data false written

/-! ### Calls, and what they mean -/

inductive CfgCall
  | set (id : Nat) (data : List UInt8) (written : Bool)
  | get (id : Nat) (len : UInt32)
  deriving DecidableEq

/-- A set answers no bytes. -/
def cfgCall (s : Option CfgStore) (call : CfgCall) :
    Option (Except CfgError (List UInt8)) × Option CfgStore :=
  match s, call with
  | none, _ => (none, none)
  | some s, .set id data written =>
    match cfgSetPara s id data written with
    | none => (none, none)
    | some (ret, s) => (some (ret.map fun _ => []), some s)
  | some s, .get id len => (cfgGetPara s id len, (cfgGetPara s id len).map fun _ => s)

/-- There is such an id, and its values have this length, which is at most 512. -/
def Takes (values : List (List UInt8)) (id : Nat) (data : List UInt8) : Prop :=
  (values[id]?).map List.length = some data.length ∧ data.length ≤ 512

instance (values : List (List UInt8)) (id : Nat) (data : List UInt8) :
    Decidable (Takes values id data) :=
  inferInstanceAs (Decidable (_ ∧ _))

def mapGet (values : List (List UInt8)) (id : Nat) (len : UInt32) :
    Except CfgError (List UInt8) :=
  match values[id]? with
  | none => .error .invalidParameter
  | some value => if len.toNat < value.length then .error .invalidParameter else .ok value

/-- A set of a bad id or length, and one that is not saved, fails and changes nothing. -/
def mapCall (values : List (List UInt8)) : CfgCall → Unit × List (List UInt8)
  | .set id data written =>
    ((), if Takes values id data ∧ written then values.set id data else values)
  | .get _ _ => ((), values)

/-- Every get returns what the map has. -/
def Agrees (s : Option CfgStore) (values : List (List UInt8)) : Prop :=
  ∀ id len, s.bind (cfgGetPara · id len) = some (mapGet values id len)

/-- A set that is not saved sets what is there. -/
def SavedIfChanged (values : List (List UInt8)) : CfgCall → Prop
  | .set id data written => Takes values id data → written ∨ values[id]? = some data
  | .get _ _ => True

/-! ### One call -/

variable {s : CfgStore} {values : List (List UInt8)} {id : Nat} {item : CfgItemInfo}

/-- The values lie in the buffer as the table has it. -/
structure Holds (s : CfgStore) (values : List (List UInt8)) : Prop where
  laid : Laid 0 (s.table.map CfgItemInfo.slot) values
  buf : ∃ rest, s.paraBuf = values.flatten ++ rest

theorem Holds.length_eq (holds : Holds s values) : s.table.length = values.length := by
  rw [← holds.laid.length_eq, List.length_map]

theorem getElem?_slot (get : s.table[id]? = some item) :
    (s.table.map CfgItemInfo.slot)[id]? = some item.slot := by
  rw [List.getElem?_map, get, Option.map_some]

theorem Holds.value (holds : Holds s values) (get : s.table[id]? = some item) :
    values[id]? = some (slice s.paraBuf item.slot) := by
  obtain ⟨rest, buf⟩ := holds.buf
  rw [buf]
  exact holds.laid.slice_eq (getElem?_slot get) rest

theorem Holds.slot_inside (holds : Holds s values) (get : s.table[id]? = some item) :
    item.offset.toNat + item.len.toNat ≤ s.paraBuf.length := by
  obtain ⟨rest, buf⟩ := holds.buf
  have inside := holds.laid.inside (getElem?_slot get)
  rw [buf, List.length_append]
  exact Nat.le_add_right_of_le inside

theorem Holds.inside (holds : Holds s values) (get : s.table[id]? = some item) : s.Inside item :=
  .inr (holds.slot_inside get)

theorem Holds.length_slice (holds : Holds s values) (get : s.table[id]? = some item) :
    (slice s.paraBuf item.slot).length = item.len.toNat := by
  have inside := holds.slot_inside get
  have slot : item.slot = ⟨item.offset.toNat, item.len.toNat⟩ := rfl
  rw [slice, slot, List.length_take, List.length_drop]
  dsimp only
  omega

theorem Holds.get_eq (holds : Holds s values) (id : Nat) (len : UInt32) :
    cfgGetPara s id len = some (mapGet values id len) := by
  unfold cfgGetPara mapGet
  cases get : s.table[id]? with
  | none =>
    have behind := List.getElem?_eq_none_iff.mp get
    rw [List.getElem?_eq_none (holds.length_eq ▸ behind)]
  | some item =>
    dsimp only
    rw [holds.value get, if_pos (holds.inside get)]
    dsimp only
    rw [holds.length_slice get]
    simp only [UInt32.lt_iff_toNat_lt, apply_ite some]

/-- What a set does to the values, saved or not. -/
theorem Holds.set_eq (holds : Holds s values) (id : Nat) (data : List UInt8) (written : Bool) :
    ∃ ret s', cfgSetPara s id data written = some (ret, s') ∧
      Holds s' (if Takes values id data then values.set id data else values) := by
  have length := holds.length_eq
  unfold cfgSetPara cfgSetById
  cases get : s.table[id]? with
  | none =>
    have behind := List.getElem?_eq_none_iff.mp get
    have none : values[id]? = none := List.getElem?_eq_none (length ▸ behind)
    rw [if_pos behind, if_neg fun takes => by simp [Takes, none] at takes]
    exact ⟨_, s, rfl, holds⟩
  | some item =>
    have front := (List.getElem?_eq_some_iff.mp get).1
    have value := holds.value get
    have same := holds.length_slice get
    have max : cfgMaxParaLen.toNat = 512 := rfl
    have takes : Takes values id data ↔ item.len.toNat = data.length ∧ data.length ≤ 512 := by
      unfold Takes
      rw [value, Option.map_some, Option.some.injEq, same]
    rw [if_neg (Nat.not_le.mpr front), holds.get_eq, mapGet, value]
    dsimp only [Option.bind_eq_bind, Option.bind_some]
    rw [same, max]
    by_cases long : 512 < item.len.toNat
    · rw [if_pos long, if_neg fun takes' => by have := takes.mp takes'; omega]
      exact ⟨_, s, rfl, holds⟩
    rw [if_neg long]
    dsimp only
    rw [same]
    by_cases other : item.len.toNat = data.length
    · rw [if_neg (not_not_intro other), cfgSetParaIm, get]
      dsimp only
      rw [if_neg (not_not_intro other.symm), if_pos (holds.inside get),
        if_pos (takes.mpr ⟨other, by omega⟩)]
      obtain ⟨rest, buf⟩ := holds.buf
      obtain ⟨overwritten, laid⟩ := holds.laid.overwrite_eq (getElem?_slot get) other.symm rest
      refine ⟨_, _, rfl, ?_⟩
      cases written with
      | false => exact ⟨laid, rest, buf ▸ overwritten⟩
      | true => exact ⟨laid, rest, buf ▸ overwritten⟩
    · rw [if_pos other, if_neg fun takes' => other (takes.mp takes').1]
      exact ⟨_, s, rfl, holds⟩

/-! ### Tables -/

theorem tableLoop_cons {members : List CfgItemType} {rest : List (List CfgItemType)}
    {offset : UInt32} {table : List CfgItemInfo}
    (loop : tableLoop offset (members :: rest) = some table) :
    ∃ size items, tableLoop (offset + size) rest = some items ∧
      table = ⟨size, offset⟩ :: items := by
  obtain ⟨size, -, loop⟩ := Option.bind_eq_some_iff.mp loop
  obtain ⟨items, later, same⟩ := Option.bind_eq_some_iff.mp loop
  exact ⟨size, items, later, (Option.some.inj same).symm⟩

/-- The length of all items, without wrapping around. -/
def totalLen (table : List CfgItemInfo) : Nat :=
  (table.map fun item => item.len.toNat).sum

def zeros (table : List CfgItemInfo) : List (List UInt8) :=
  table.map fun item => List.replicate item.len.toNat 0

theorem toNat_offset {offset size : UInt32} (fits : offset.toNat + size.toNat < 2 ^ 32) :
    (offset + size).toNat = offset.toNat + size.toNat := by
  rw [UInt32.toNat_add, Nat.mod_eq_of_lt fits]

theorem tableLoop_laid {members : List (List CfgItemType)} {offset : UInt32}
    {table : List CfgItemInfo} (loop : tableLoop offset members = some table)
    (fits : offset.toNat + totalLen table < 2 ^ 32) :
    Laid offset.toNat (table.map CfgItemInfo.slot) (zeros table) := by
  induction members generalizing offset table with
  | nil =>
    obtain rfl := Option.some.inj loop
    trivial
  | cons item rest ih =>
    obtain ⟨size, items, later, rfl⟩ := tableLoop_cons loop
    have total : totalLen (⟨size, offset⟩ :: items) = size.toNat + totalLen items := List.sum_cons
    have moved : (offset + size).toNat = offset.toNat + size.toNat := toNat_offset (by omega)
    have laid := ih later (by omega)
    rw [moved] at laid
    exact ⟨rfl, List.length_replicate.symm, List.length_replicate.symm ▸ laid⟩

/-- A table of which the items are longer in all than the buffer has an item that ends behind
the buffer. -/
theorem tableLoop_behind {members : List (List CfgItemType)} {offset : UInt32}
    {table : List CfgItemInfo} (loop : tableLoop offset members = some table)
    (inside : offset.toNat ≤ 5120) (long : 5120 < offset.toNat + totalLen table) :
    ∃ (id : Nat) (item : CfgItemInfo), table[id]? = some item ∧ item.len ≠ 0 ∧
      5120 < item.offset.toNat + item.len.toNat := by
  induction members generalizing offset table with
  | nil =>
    obtain rfl := Option.some.inj loop
    exact absurd inside (Nat.not_le.mpr long)
  | cons item rest ih =>
    obtain ⟨size, items, later, rfl⟩ := tableLoop_cons loop
    have total : totalLen (⟨size, offset⟩ :: items) = size.toNat + totalLen items := List.sum_cons
    by_cases crosses : 5120 < offset.toNat + size.toNat
    · refine ⟨0, ⟨size, offset⟩, rfl, fun zero => ?_, crosses⟩
      have none : size.toNat = 0 := congrArg UInt32.toNat zero
      omega
    · have moved : (offset + size).toNat = offset.toNat + size.toNat := toNat_offset (by omega)
      obtain ⟨id, found, get, behind⟩ := ih later (by omega) (by omega)
      exact ⟨id + 1, found, get, behind⟩

theorem init_cases {members : List (List CfgItemType)} {saved : List UInt8}
    (init : cfgInitPara members saved = .ok s) : tableLoop 0 members = some s.table ∧
      s.paraBuf = List.replicate 5120 0 := by
  unfold cfgInitPara at init
  split at init
  · exact nomatch init
  next table loop =>
    split at init
    · exact nomatch init
    · obtain rfl := Except.ok.inj init
      exact ⟨loop, rfl⟩

theorem flatten_zeros (table : List CfgItemInfo) :
    (zeros table).flatten = List.replicate (totalLen table) 0 := by
  induction table with
  | nil => rfl
  | cons item table ih =>
    have total : totalLen (item :: table) = item.len.toNat + totalLen table := List.sum_cons
    rw [total, List.replicate_add, ← ih]
    rfl

theorem holds_init {members : List (List CfgItemType)} {saved : List UInt8}
    (init : cfgInitPara members saved = .ok s) (fits : totalLen s.table ≤ 5120) :
    Holds s (zeros s.table) := by
  obtain ⟨loop, buf⟩ := init_cases init
  have zero : (0 : UInt32).toNat = 0 := rfl
  refine ⟨tableLoop_laid loop (by omega), List.replicate (5120 - totalLen s.table) 0, ?_⟩
  rw [buf, flatten_zeros, List.replicate_append_replicate, Nat.add_sub_cancel' fits]

/-- A get of the item behind the buffer reads there. -/
theorem init_behind {members : List (List CfgItemType)} {saved : List UInt8}
    (init : cfgInitPara members saved = .ok s) (long : 5120 < totalLen s.table) :
    ∃ id len, cfgGetPara s id len = none := by
  obtain ⟨loop, buf⟩ := init_cases init
  have zero : (0 : UInt32).toNat = 0 := rfl
  obtain ⟨id, item, get, some_bytes, behind⟩ := tableLoop_behind loop (by omega) (by omega)
  refine ⟨id, item.len, ?_⟩
  unfold cfgGetPara
  rw [get]
  dsimp only
  rw [if_neg (UInt32.lt_irrefl _), if_neg]
  rintro (none | inside)
  · exact some_bytes none
  · rw [buf, List.length_replicate] at inside
    omega

/-! ### All calls -/

theorem mapCall_set (values : List (List UInt8)) (id : Nat) (data : List UInt8) (written : Bool) :
    (mapCall values (.set id data written)).2 =
      if Takes values id data ∧ written then values.set id data else values :=
  rfl

/-- The store, still without access outside of its buffer, has these values. -/
def Stores (s : Option CfgStore) (values : List (List UInt8)) : Prop :=
  ∃ store, s = some store ∧ Holds store values

theorem Stores.agrees {s : Option CfgStore} (stores : Stores s values) : Agrees s values := by
  obtain ⟨store, rfl, holds⟩ := stores
  exact fun id len => holds.get_eq id len

theorem Stores.set {s : Option CfgStore} (stores : Stores s values) (id : Nat) (data : List UInt8)
    (written : Bool) : Stores (cfgCall s (.set id data written)).2
      (if Takes values id data then values.set id data else values) := by
  obtain ⟨store, rfl, holds⟩ := stores
  obtain ⟨ret, s', set, holds⟩ := holds.set_eq id data written
  refine ⟨s', ?_, holds⟩
  simp only [cfgCall, set]

theorem Stores.get {s : Option CfgStore} (stores : Stores s values) (id : Nat) (len : UInt32) :
    Stores (cfgCall s (.get id len)).2 values := by
  obtain ⟨store, rfl, holds⟩ := stores
  refine ⟨store, ?_, holds⟩
  simp only [cfgCall, holds.get_eq, Option.map_some]

theorem set_same {data : List UInt8} (same : values[id]? = some data) :
    values.set id data = values := by
  obtain ⟨inside, get⟩ := List.getElem?_eq_some_iff.mp same
  rw [← get, List.set_getElem_self]

theorem Stores.kept {s : Option CfgStore} (stores : Stores s values) (call : CfgCall)
    (saved : SavedIfChanged values call) : Stores (cfgCall s call).2 (mapCall values call).2 := by
  cases call with
  | get id len => exact stores.get id len
  | set id data written =>
    have set := stores.set id data written
    rw [mapCall_set]
    by_cases takes : Takes values id data
    · rcases saved takes with written | same
      · rw [if_pos takes] at set
        rwa [if_pos ⟨takes, written⟩]
      · rw [set_same same, ite_self] at set ⊢
        exact set
    · rw [if_neg takes] at set
      rwa [if_neg fun both => takes both.1]

theorem mapGet_short {value : List UInt8} (get : values[id]? = some value)
    (short : value.length ≤ 512) : mapGet values id 512 = .ok value := by
  have max : (512 : UInt32).toNat = 512 := rfl
  rw [mapGet, get]
  dsimp only
  rw [if_neg (by omega)]

/-- A set that changes a value and is not saved shows in the next get. -/
theorem Stores.shows {s : Option CfgStore} (stores : Stores s values) (call : CfgCall)
    (agrees : Agrees (cfgCall s call).2 (mapCall values call).2) : SavedIfChanged values call := by
  cases call with
  | get id len => trivial
  | set id data written =>
    intro takes
    by_contra unsaved
    have changed := (stores.set id data written).agrees id 512
    have old := agrees id 512
    rw [if_pos takes] at changed
    rw [mapCall_set, if_neg fun both => unsaved (.inl both.2), changed] at old
    obtain ⟨value, get, length⟩ := Option.map_eq_some_iff.mp takes.1
    have inside := (List.getElem?_eq_some_iff.mp get).1
    have short := takes.2
    rw [mapGet_short (List.getElem?_set_self inside) short,
      mapGet_short get (length ▸ short)] at old
    have same : data = value := Except.ok.inj (Option.some.inj old)
    exact unsaved (.inr (same ▸ get))

/-- After every sequence of calls each get returns what the map has, exactly if the items fit
into the buffer and a set that is not saved only sets what is there. -/
theorem store_is_map_iff {members : List (List CfgItemType)} {saved : List UInt8}
    (init : cfgInitPara members saved = .ok s) (calls : List CfgCall) :
    (∀ n, Agrees (after cfgCall (some s) (calls.take n))
        (after mapCall (zeros s.table) (calls.take n))) ↔
      totalLen s.table ≤ 5120 ∧ Along mapCall SavedIfChanged (zeros s.table) calls := by
  by_cases fits : totalLen s.table ≤ 5120
  · rw [and_iff_right fits]
    have start : Stores (some s) (zeros s.table) := ⟨s, rfl, holds_init init fits⟩
    have kept (s : Option CfgStore) (values : List (List UInt8)) (call : CfgCall)
        (stores : Stores s values) : SavedIfChanged values call →
        Stores (cfgCall s call).2 (mapCall values call).2 := stores.kept call
    exact agree_iff (fun _ _ => Stores.agrees) (fun _ _ call stores => stores.shows call) kept
      start calls
  · refine iff_of_false (fun agrees => ?_) fun both => fits both.1
    obtain ⟨id, len, outside⟩ := init_behind init (Nat.not_le.mp fits)
    have found : cfgGetPara s id len = some _ := agrees 0 id len
    exact nomatch outside.symm.trans found

/-- `cfg_para_def.h`: the types and lengths of the members of each item. -/
def cfgTable : List (List CfgItemType) :=
  [[⟨.uint, 4⟩], [⟨.uint, 4⟩], [⟨.uchar, 1⟩], [⟨.string, 32⟩], [⟨.string, 32⟩, ⟨.string, 32⟩],
    [⟨.string, 32⟩], [⟨.string, 32⟩, ⟨.string, 32⟩], [⟨.string, 256⟩], [⟨.uchar, 1⟩],
    [⟨.uchar, 1⟩], [⟨.uchar, 1⟩], [⟨.uchar, 1⟩], [⟨.string, 32⟩], [⟨.string, 32⟩],
    [⟨.string, 32⟩], [⟨.string, 32⟩], [⟨.string, 512⟩], [⟨.uint, 4⟩], [⟨.uint, 4⟩],
    [⟨.uchar, 1⟩], [⟨.ushort, 2⟩], [⟨.uchar, 1⟩], [⟨.uchar, 1⟩], [⟨.uchar, 1⟩], [⟨.ushort, 2⟩],
    [⟨.ushort, 2⟩], [⟨.ushort, 2⟩], [⟨.ushort, 2⟩], [⟨.ushort, 2⟩], [⟨.uchar, 1⟩], [⟨.uint, 4⟩],
    [⟨.uchar, 1⟩], [⟨.string, 18⟩], [⟨.string, 256⟩], [⟨.ushort, 2⟩], [⟨.ushort, 2⟩],
    [⟨.ushort, 2⟩], [⟨.ushort, 2⟩], [⟨.uint, 4⟩], [⟨.string, 256⟩], [⟨.ushort, 2⟩],
    [⟨.uchar, 1⟩], [⟨.uchar, 1⟩], [⟨.uchar, 1⟩], [⟨.uchar, 1⟩], [⟨.string, 18⟩],
    [⟨.string, 256⟩], [⟨.ushort, 2⟩], [⟨.ushort, 2⟩], [⟨.ushort, 2⟩], [⟨.ushort, 2⟩],
    [⟨.string, 10⟩], [⟨.string, 16⟩], [⟨.uchar, 1⟩], [⟨.ushort, 2⟩], [⟨.uchar, 1⟩],
    [⟨.uchar, 1⟩], [⟨.string, 14⟩], [⟨.string, 14⟩], [⟨.string, 32⟩], [⟨.ushort, 2⟩],
    [⟨.uchar, 1⟩], [⟨.string, 7⟩], [⟨.string, 13⟩], [⟨.string, 29⟩], [⟨.string, 10⟩],
    [⟨.string, 13⟩], [⟨.uchar, 1⟩], [⟨.uchar, 1⟩], [⟨.string, 18⟩], [⟨.string, 256⟩],
    [⟨.ushort, 2⟩], [⟨.ushort, 2⟩], [⟨.string, 17⟩]]

/-- The items of the device's table fit into the buffer. -/
theorem cfgTable_fits : ∃ table, tableLoop 0 cfgTable = some table ∧ totalLen table ≤ 5120 := by
  exact ⟨(tableLoop 0 cfgTable).getD [], by decide +kernel, by decide +kernel⟩

def twoItems : List (List CfgItemType) :=
  [[⟨.uint, 4⟩], [⟨.uchar, 1⟩]]

def twoItemStore : CfgStore :=
  ⟨[⟨4, 0⟩, ⟨1, 4⟩], List.replicate 5120 0, []⟩

theorem init_twoItems : cfgInitPara twoItems [] = .ok twoItemStore := rfl

/-- A set, one of a bad length, and one that sets the same value without saving it. -/
theorem store_is_map_two : totalLen twoItemStore.table ≤ 5120 ∧ ∀ n, Agrees
    (after cfgCall (some twoItemStore)
      (List.take n [.set 1 [7] true, .set 0 [1, 2] true, .get 0 4, .set 1 [7] false]))
    (after mapCall (zeros twoItemStore.table)
      (List.take n [.set 1 [7] true, .set 0 [1, 2] true, .get 0 4, .set 1 [7] false])) := by
  refine ⟨by decide, (store_is_map_iff init_twoItems _).mpr ⟨by decide, ?_⟩⟩
  refine ⟨fun _ => .inl rfl, fun _ => .inl rfl, trivial, fun _ => .inr ?_, trivial⟩
  decide

/-- The file cannot be updated: the set returns 0, and the next get has its value. -/
theorem unsaved_set_shows :
    cfgInitPara twoItems [] = .ok twoItemStore ∧
    (cfgSetPara twoItemStore 1 [7] false).map (fun r => (r.1.isOk, r.2.saved)) =
      some (true, []) ∧
    (cfgCall (some twoItemStore) (.set 1 [7] false)).2.bind (cfgGetPara · 1 1) =
      some (.ok [7]) ∧
    ¬ ∀ n, Agrees (after cfgCall (some twoItemStore) (List.take n [.set 1 [7] false]))
      (after mapCall (zeros twoItemStore.table) (List.take n [.set 1 [7] false])) := by
  have shows : (cfgCall (some twoItemStore) (.set 1 [7] false)).2.bind (cfgGetPara · 1 1) =
      some (.ok [7]) := by decide +kernel
  refine ⟨rfl, by decide +kernel, shows, fun agrees => ?_⟩
  have old : some (.ok [7]) = some (mapGet [[0, 0, 0, 0], [0]] 1 1) :=
    shows.symm.trans (agrees 1 1 1)
  exact absurd (Except.ok.inj (Option.some.inj old)) (by decide)

/-- A table is accepted in which the lengths wrap around, and a get of its second item reads
in front of the buffer. -/
example : ((cfgInitPara [[⟨.string, 0xFFFFFFFC⟩], [⟨.uint, 4⟩]] []).toOption.map
    fun s => cfgGetPara s 1 4) = some none := by
  decide +kernel

end CfgPara
