import Mathlib.Logic.Function.Basic
import TBoxMpu.Lib.Flat

/-!
# The status store

`status.c`: the items of a table lie one behind the other in one buffer, each with a flag of its
own, and a change is told to the callbacks registered for the item. One thread at a time is in
`st_set`; registrations and `st_get` of other threads come between any two turns of its loop over
the callbacks.

## Main result

`status_served`: while the lengths of a table's members do not add up to 2^32, `st_get` returns
what was set last, a change is told once to each callback of the item, with the value before and
after it, and nothing else is told.

## Proof strategy

1. `tiles`: the places of the items lie apart and inside the buffer
2. `Holds` ties the buffer and the flags to the values set last; each step keeps it
3. From the start of a change on, the calls made are those of the entries passed
-/

namespace Status

/-! ### The table -/

/-- `ST_DATA_TYPE`; `ST_DATA_INVALID` ends the members of an item. -/
inductive StDataType
  | uint | int | ushort | uchar | string | double
  deriving DecidableEq, Repr

structure StMember where
  type : StDataType
  len : UInt32

abbrev StItem := List StMember

structure StItemInfo where
  len : UInt32
  offset : UInt32

def stItemBufLen : UInt32 := 1024

def stMaxRegItemNum : Nat := 32

def stMaxStatusLen : Nat := 32

/-- `st_para_check` -/
def stParaCheck (m : StMember) : Bool :=
  match m.type with
  | .uint | .int => m.len = 4
  | .ushort => m.len = 2
  | .uchar => m.len = 1
  | .double => m.len = 8
  | .string => m.len > 1

/-- The loop of `st_init` over the items. -/
def stInitLoop : UInt32 → List StItem → Option (List StItemInfo)
  | _, [] => some []
  | offset, item :: rest =>
    if item.all stParaCheck then
      let size := item.foldl (fun size m => size + m.len) 0
      (stInitLoop (offset + size) rest).map (⟨size, offset⟩ :: ·)
    else none

/-- `st_init` -/
def stInit (table : List StItem) : Option (List StItemInfo) :=
  match stInitLoop 0 table with
  | none => none
  | some infos =>
    match infos.getLast? with
    | none => none
    -- only the end of the last item is looked at
    | some last => if last.offset + last.len > stItemBufLen then none else some infos

/-- A table that `st_init` accepts; it has an entry for each of the ids. -/
structure StTable where
  items : List StItem
  infos : List StItemInfo
  accepted : stInit items = some infos

variable (t : StTable)

/-- `ST_ITEM_ID_MAX` -/
def StTable.idMax : Nat := t.infos.length

def StTable.len (id : Nat) : Nat := ((t.infos[id]?).map fun i => i.len.toNat).getD 0

def StTable.offset (id : Nat) : UInt32 := ((t.infos[id]?).map StItemInfo.offset).getD 0

/-! ### The store -/

inductive StRet
  | ok | invalidPara | unknown | tableOverflow
  deriving DecidableEq, Repr

structure StReg where
  id : Nat
  onchanged : Nat
  deriving DecidableEq

/-- A call of a callback. -/
structure StCall where
  onchanged : Nat
  id : Nat
  oldStatus : List UInt8
  newStatus : List UInt8
  deriving DecidableEq

/-- The variables of `st_notify_changed`. -/
structure StNotify where
  id : Nat
  oldPara : List UInt8
  paraLen : Nat
  j : Nat

/-- `buf` is the memory from `st_item_buf` on; `notify` is there while a thread has
`st_set_mutex` and tells of a change. -/
structure StState where
  buf : UInt32 → UInt8
  valid : Nat → Bool
  regtbl : List StReg
  notify : Option StNotify
  calls : List StCall

def StState.initial : StState := ⟨fun _ => 0, fun _ => false, [], none, []⟩

/-- `st_get` with the size of the buffer of the caller: the length that it reports, and what it
copies. -/
def stGet (s : StState) (id size : Nat) : StRet × Nat × List UInt8 :=
  if id ≥ t.idMax then (.invalidPara, size, [])
  else if size < t.len id then (.invalidPara, size, [])
  else if s.valid id = false then (.unknown, t.len id, [])
  else (.ok, t.len id, Flat.read s.buf (t.offset id) (t.len id))

/-- What is copied into a buffer of `ST_MAX_STATUS_LEN` zeros. -/
def paraOf (bytes : List UInt8) : List UInt8 :=
  bytes ++ List.replicate (stMaxStatusLen - bytes.length) 0

/-- `st_set`, up to the loop of `st_notify_changed`. -/
def stSet (s : StState) (id : Nat) (data : List UInt8) : StRet × StState :=
  if id ≥ t.idMax then (.invalidPara, s)
  else
    let (ret, paralen, bytes) := stGet t s id stMaxStatusLen
    let oldpara := paraOf bytes
    if (ret ≠ .ok ∧ ret ≠ .unknown) ∨ paralen ≠ data.length then (.invalidPara, s)
    else if ret = .unknown ∨ data ≠ oldpara.take data.length then
      (.ok, { s with
        buf := Flat.write s.buf (t.offset id) data
        valid := Function.update s.valid id true
        notify := some ⟨id, oldpara, data.length, 0⟩ })
    else (.ok, s)

/-- `st_register`; a pointer that is NULL is refused. -/
def stRegister (s : StState) (id : Nat) (onchanged : Option Nat) : StRet × StState :=
  match onchanged with
  | none => (.invalidPara, s)
  | some onchanged =>
    if s.regtbl.length ≥ stMaxRegItemNum then (.tableOverflow, s)
    else (.ok, { s with regtbl := s.regtbl ++ [⟨id, onchanged⟩] })

/-- A turn of the loop of `st_notify_changed`, or its end, which ends `st_set` too. -/
def stTurn (n : StNotify) (s : StState) : StState :=
  match s.regtbl[n.j]? with
  | none => { s with notify := none }
  | some r =>
    if r.id = n.id then
      let (ret, newLen, newpara) := stGet t s n.id stMaxStatusLen
      if ret ≠ .ok ∨ newLen ≠ n.paraLen then { s with notify := none }
      else
        let call := ⟨r.onchanged, n.id, n.oldPara.take n.paraLen, (paraOf newpara).take n.paraLen⟩
        { s with calls := s.calls ++ [call], notify := some { n with j := n.j + 1 } }
    else { s with notify := some { n with j := n.j + 1 } }

inductive StAct
  | register (id : Nat) (onchanged : Option Nat)
  | get (id size : Nat)
  | set (id : Nat) (data : List UInt8)
  | turn
  deriving DecidableEq

def stStep (s : StState) : StAct → Option StState
  | .register id onchanged => some (stRegister s id onchanged).2
  | .get _ _ => some s
  | .set id data => if s.notify.isSome then none else some (stSet t s id data).2
  | .turn => s.notify.map fun n => stTurn t n s

/-! ### The places of the items -/

/-- The lengths of all members, without wrap around. -/
def total (items : List StItem) : Nat :=
  (items.map fun item => (item.map fun m => m.len.toNat).sum).sum

theorem size_toNat (item : StItem) (size : UInt32)
    (fits : size.toNat + (item.map fun m => m.len.toNat).sum < 2 ^ 32) :
    (item.foldl (fun size m => size + m.len) size).toNat =
      size.toNat + (item.map fun m => m.len.toNat).sum := by
  induction item generalizing size with
  | nil => rfl
  | cons m rest ih =>
    rw [List.map_cons, List.sum_cons] at fits ⊢
    have sum : (size + m.len).toNat = size.toNat + m.len.toNat := by
      rw [UInt32.toNat_add]
      exact Nat.mod_eq_of_lt (by omega)
    rw [List.foldl_cons, ih _ (by omega), sum, Nat.add_assoc]

/-- The items lie one behind the other, from the first offset on to the end of the last one. -/
structure Tiles (offset : UInt32) (size : Nat) (infos : List StItemInfo) : Prop where
  within : ∀ i ∈ infos, offset.toNat ≤ i.offset.toNat ∧
    i.offset.toNat + i.len.toNat ≤ offset.toNat + size
  apart : infos.Pairwise fun i i' => i.offset.toNat + i.len.toNat ≤ i'.offset.toNat
  empty : infos = [] → size = 0
  last : ∀ i, infos.getLast? = some i → i.offset.toNat + i.len.toNat = offset.toNat + size

theorem tiles {offset : UInt32} {items : List StItem} {infos : List StItemInfo}
    (loop : stInitLoop offset items = some infos) (fits : offset.toNat + total items < 2 ^ 32) :
    Tiles offset (total items) infos := by
  induction items generalizing offset infos with
  | nil =>
    cases loop
    exact ⟨nofun, .nil, fun _ => rfl, nofun⟩
  | cons item rest ih =>
    rw [stInitLoop] at loop
    split at loop
    next =>
      obtain ⟨behind, after, rfl⟩ := Option.map_eq_some_iff.mp loop
      clear loop
      have whole : total (item :: rest) = (item.map fun m => m.len.toNat).sum + total rest := rfl
      have size := size_toNat item 0 (by rw [UInt32.toNat_zero]; omega)
      rw [UInt32.toNat_zero, Nat.zero_add] at size
      generalize item.foldl (fun size m => size + m.len) 0 = len at size after ⊢
      have next : (offset + len).toNat = offset.toNat + len.toNat := by
        rw [UInt32.toNat_add]
        exact Nat.mod_eq_of_lt (by omega)
      obtain ⟨within, apart, empty, last⟩ := ih after (by omega)
      rw [whole]
      refine ⟨?_, ?_, nofun, ?_⟩
      · rintro i (_ | ⟨_, mem⟩)
        · exact ⟨Nat.le_refl _, by dsimp only; omega⟩
        · have := within i mem
          omega
      · refine .cons (fun i mem => ?_) apart
        have := within i mem
        dsimp only
        omega
      · intro i end_
        cases behind with
        | nil =>
          rw [List.getLast?_singleton] at end_
          cases end_
          have none := empty rfl
          dsimp only
          omega
        | cons first behind =>
          rw [List.getLast?_cons_cons] at end_
          have := last i end_
          omega
    next => cases loop

variable {t}

theorem infos_tile (fits : total t.items < 2 ^ 32) :
    Tiles 0 (total t.items) t.infos ∧ total t.items ≤ 1024 := by
  have init := t.accepted
  unfold stInit at init
  split at init
  · cases init
  next infos loop =>
    have tile := tiles loop (by rw [UInt32.toNat_zero]; omega)
    split at init
    · cases init
    next last end_ =>
      split at init
      · cases init
      next room =>
        cases init
        have whole := tile.last last end_
        rw [UInt32.toNat_zero, Nat.zero_add] at whole
        refine ⟨tile, ?_⟩
        have le := UInt32.le_iff_toNat_le.mp (UInt32.not_lt.mp room)
        rw [UInt32.toNat_add, whole, Nat.mod_eq_of_lt fits] at le
        exact le

/-- The place of an item. -/
theorem item_inside (fits : total t.items < 2 ^ 32) {id : Nat} (item : id < t.idMax) :
    (t.offset id).toNat + t.len id ≤ 1024 := by
  obtain ⟨tile, small⟩ := infos_tile fits
  have within := (tile.within _ (List.getElem_mem item)).2
  rw [UInt32.toNat_zero, Nat.zero_add] at within
  rw [StTable.offset, StTable.len, List.getElem?_eq_getElem item]
  exact Nat.le_trans within small

theorem items_apart (fits : total t.items < 2 ^ 32) {id id' : Nat} (item : id < t.idMax)
    (item' : id' < t.idMax) (other : id ≠ id') :
    (t.offset id).toNat + t.len id ≤ (t.offset id').toNat ∨
      (t.offset id').toNat + t.len id' ≤ (t.offset id).toNat := by
  have apart := List.pairwise_iff_getElem.mp (infos_tile fits).1.apart
  simp only [StTable.offset, StTable.len, List.getElem?_eq_getElem item,
    List.getElem?_eq_getElem item', Option.map_some, Option.getD_some]
  rcases Nat.lt_or_gt_of_ne other with before | behind
  · exact .inl (apart id id' item item' before)
  · exact .inr (apart id' id item' item behind)

/-! ### What is set -/

/-- An item that `st_set` takes the data for. -/
structure Settable (t : StTable) (id : Nat) (data : List UInt8) : Prop where
  item : id < t.idMax
  short : t.len id ≤ stMaxStatusLen
  whole : data.length = t.len id

instance (t : StTable) (id : Nat) (data : List UInt8) : Decidable (Settable t id data) :=
  decidable_of_iff (id < t.idMax ∧ t.len id ≤ stMaxStatusLen ∧ data.length = t.len id)
    ⟨fun ⟨item, short, whole⟩ => ⟨item, short, whole⟩, fun h => ⟨h.item, h.short, h.whole⟩⟩

def setValue (t : StTable) (v : Nat → Option (List UInt8)) : StAct → Nat → Option (List UInt8)
  | .set id data => if Settable t id data then Function.update v id (some data) else v
  | .register _ _ | .get _ _ | .turn => v

/-- What was set last, if anything was. -/
def lastValue (t : StTable) (acts : List StAct) : Nat → Option (List UInt8) :=
  acts.foldl (setValue t) fun _ => none

/-- What `st_get` is to return. -/
def valueGet (t : StTable) (v : Nat → Option (List UInt8)) (id size : Nat) :
    StRet × Nat × List UInt8 :=
  if id ≥ t.idMax ∨ size < t.len id then (.invalidPara, size, [])
  else
    match v id with
    | none => (.unknown, t.len id, [])
    | some data => (.ok, t.len id, data)

variable {v : Nat → Option (List UInt8)} {s s' s'' : StState} {id : Nat} {data : List UInt8}

/-- The buffer and the flags hold the values. -/
structure Holds (t : StTable) (v : Nat → Option (List UInt8)) (s : StState) : Prop where
  flag : ∀ id, s.valid id = (v id).isSome
  value : ∀ id data, v id = some data →
    Settable t id data ∧ Flat.read s.buf (t.offset id) (t.len id) = data
  room : s.regtbl.length ≤ stMaxRegItemNum
  telling : ∀ n, s.notify = some n → ∃ data, v n.id = some data ∧ n.paraLen = data.length

theorem holds_initial : Holds t (fun _ => none) .initial :=
  ⟨fun _ => rfl, nofun, Nat.zero_le _, nofun⟩

theorem Holds.get (holds : Holds t v s) (id size : Nat) :
    stGet t s id size = valueGet t v id size := by
  unfold stGet valueGet
  by_cases out : id ≥ t.idMax
  · rw [if_pos out, if_pos (.inl out)]
  · rw [if_neg out]
    by_cases short : size < t.len id
    · rw [if_pos short, if_pos (.inr short)]
    · rw [if_neg short, if_neg (not_or.mpr ⟨out, short⟩), holds.flag]
      cases known : v id with
      | none => rfl
      | some data => rw [(holds.value id data known).2]; rfl

theorem take_paraOf (bytes : List UInt8) : (paraOf bytes).take bytes.length = bytes :=
  List.take_left' rfl

theorem take_paraOf_nil {n : Nat} (short : n ≤ stMaxStatusLen) :
    (paraOf []).take n = List.replicate n 0 := by
  rw [paraOf, List.nil_append, List.length_nil, Nat.sub_zero, List.take_replicate,
    Nat.min_eq_left short]

/-- The value before, zeros before the first one. -/
def before (t : StTable) (v : Nat → Option (List UInt8)) (id : Nat) : List UInt8 :=
  (v id).getD (List.replicate (t.len id) 0)

theorem Holds.old (holds : Holds t v s) (short : t.len id ≤ stMaxStatusLen) :
    (paraOf ((v id).getD [])).take (t.len id) = before t v id := by
  unfold before
  cases known : v id with
  | none => exact take_paraOf_nil short
  | some data =>
    rw [← (holds.value id data known).1.whole]
    exact take_paraOf data

theorem Holds.refused (holds : Holds t v s) (not : ¬ Settable t id data) :
    stSet t s id data = (.invalidPara, s) := by
  unfold stSet
  by_cases out : id ≥ t.idMax
  · rw [if_pos out]
  · rw [if_neg out, holds.get, valueGet]
    by_cases long : stMaxStatusLen < t.len id
    · rw [if_pos (.inr long)]
      rfl
    · rw [if_neg (not_or.mpr ⟨out, long⟩)]
      have differs : t.len id ≠ data.length := fun same =>
        not ⟨Nat.not_le.mp out, Nat.not_lt.mp long, same.symm⟩
      cases v id <;> exact if_pos (.inr differs)

/-- The store with a new value, of which nothing is told yet. -/
def StState.changed (t : StTable) (v : Nat → Option (List UInt8)) (id : Nat) (data : List UInt8)
    (s : StState) : StState :=
  { s with
    buf := Flat.write s.buf (t.offset id) data
    valid := Function.update s.valid id true
    notify := some ⟨id, paraOf ((v id).getD []), data.length, 0⟩ }

/-- A value that is set. -/
theorem Holds.set (holds : Holds t v s) (settable : Settable t id data) :
    stSet t s id data = if v id = some data then (.ok, s) else (.ok, s.changed t v id data) := by
  obtain ⟨item, short, whole⟩ := settable
  unfold stSet
  rw [if_neg (Nat.not_le.mpr item), holds.get, valueGet,
    if_neg (not_or.mpr ⟨Nat.not_le.mpr item, Nat.not_lt.mpr short⟩)]
  cases known : v id with
  | none =>
    dsimp only
    rw [if_neg (by simp [whole]), if_pos (.inl rfl), if_neg nofun, StState.changed, known]
    rfl
  | some old =>
    dsimp only
    have length := (holds.value id old known).1.whole
    have same : data ≠ (paraOf old).take data.length ↔ ¬ some old = some data := by
      rw [whole, ← length, take_paraOf, Option.some.injEq, ne_comm]
    rw [if_neg (by simp [whole])]
    by_cases eq : some old = some data
    · rw [if_neg fun changed => ?_, if_pos eq]
      rcases changed with ⟨⟨⟩⟩ | differs
      exact same.mp differs eq
    · rw [if_pos (.inr (same.mpr eq)), if_neg eq, StState.changed, known]
      rfl

/-- The loop of `st_notify_changed` never returns early. -/
theorem Holds.turn (holds : Holds t v s) {n : StNotify} (telling : s.notify = some n) :
    ∃ data, v n.id = some data ∧ n.paraLen = data.length ∧ stTurn t n s =
      match s.regtbl[n.j]? with
      | none => { s with notify := none }
      | some r => { s with
          calls := s.calls ++ ([r].filter fun r => r.id = n.id).map fun r =>
            ⟨r.onchanged, n.id, n.oldPara.take n.paraLen, data⟩
          notify := some { n with j := n.j + 1 } } := by
  obtain ⟨data, known, length⟩ := holds.telling n telling
  obtain ⟨⟨item, short, whole⟩, -⟩ := holds.value n.id data known
  refine ⟨data, known, length, ?_⟩
  unfold stTurn
  cases s.regtbl[n.j]? with
  | none => rfl
  | some r =>
    dsimp only
    by_cases registered : r.id = n.id
    · rw [if_pos registered, holds.get, valueGet,
        if_neg (not_or.mpr ⟨Nat.not_le.mpr item, Nat.not_lt.mpr short⟩), known]
      dsimp only
      rw [if_neg (by simp [length, whole]), length, take_paraOf]
      simp [registered]
    · rw [if_neg registered]
      simp [registered]

/-! ### Steps -/

theorem set_holds (fits : total t.items < 2 ^ 32) (holds : Holds t v s)
    (settable : Settable t id data) :
    Holds t (Function.update v id (some data)) (s.changed t v id data) := by
  have inside := item_inside fits settable.item
  refine ⟨fun other => ?_, fun other value known => ?_, holds.room, ?_⟩
  · by_cases same : other = id
    · simp [StState.changed, same]
    · simpa [StState.changed, same] using holds.flag other
  · by_cases same : other = id
    · subst same
      rw [Function.update_self] at known
      cases known
      refine ⟨settable, ?_⟩
      rw [StState.changed, ← settable.whole]
      exact Flat.read_write (by rw [settable.whole]; omega)
    · rw [Function.update_of_ne same] at known
      obtain ⟨otherSettable, value⟩ := holds.value other value known
      have otherInside := item_inside fits otherSettable.item
      refine ⟨otherSettable, (Flat.read_write_other ?_ ?_ ?_).trans value⟩
      · rw [settable.whole]
        omega
      · omega
      · rw [settable.whole]
        exact items_apart fits settable.item otherSettable.item (Ne.symm same)
  · rintro n ⟨⟩
    exact ⟨data, Function.update_self .., rfl⟩

theorem setValue_refused {v : Nat → Option (List UInt8)} (not : ¬ Settable t id data) :
    setValue t v (.set id data) = v := if_neg not

theorem setValue_set {v : Nat → Option (List UInt8)} (settable : Settable t id data) :
    setValue t v (.set id data) = Function.update v id (some data) := if_pos settable

theorem step_holds (fits : total t.items < 2 ^ 32) (holds : Holds t v s) {act : StAct}
    (step : stStep t s act = some s') : Holds t (setValue t v act) s' := by
  cases act with
  | register id onchanged =>
    cases step
    cases onchanged with
    | none => exact holds
    | some onchanged =>
      unfold stRegister
      dsimp only
      split
      · exact holds
      next room =>
        refine ⟨holds.flag, holds.value, ?_, holds.telling⟩
        rw [List.length_append, List.length_singleton]
        exact Nat.not_le.mp room
  | get id size =>
    cases step
    exact holds
  | set id data =>
    rw [stStep] at step
    split at step
    · cases step
    · cases step
      by_cases settable : Settable t id data
      · rw [setValue_set settable, holds.set settable]
        by_cases same : v id = some data
        · rw [if_pos same, ← same, Function.update_eq_self]
          exact holds
        · rw [if_neg same]
          exact set_holds fits holds settable
      · rw [setValue_refused settable, holds.refused settable]
        exact holds
  | turn =>
    obtain ⟨n, telling, rfl⟩ := Option.map_eq_some_iff.mp step
    obtain ⟨data, known, length, turn⟩ := holds.turn telling
    rw [turn]
    split
    · exact ⟨holds.flag, holds.value, holds.room, nofun⟩
    · refine ⟨holds.flag, holds.value, holds.room, ?_⟩
      rintro n' ⟨⟩
      exact ⟨data, known, length⟩

theorem run_holds (fits : total t.items < 2 ^ 32) {acts : List StAct} (holds : Holds t v s)
    (run : acts.foldlM (stStep t) s = some s') :
    Holds t (acts.foldl (setValue t) v) s' := by
  induction acts generalizing s v with
  | nil =>
    cases run
    exact holds
  | cons act rest ih =>
    rw [List.foldlM_cons] at run
    obtain ⟨u, step, run⟩ := Option.bind_eq_some_iff.mp run
    exact ih (step_holds fits holds step) run

/-! ### A change is told -/

/-- The calls to the callbacks of an item among the entries. -/
def callsOf (id : Nat) (old new : List UInt8) (regs : List StReg) : List StCall :=
  (regs.filter fun r => r.id = id).map fun r => ⟨r.onchanged, id, old, new⟩

theorem callsOf_append (id : Nat) (old new : List UInt8) (regs regs' : List StReg) :
    callsOf id old new (regs ++ regs') = callsOf id old new regs ++ callsOf id old new regs' := by
  rw [callsOf, callsOf, callsOf, List.filter_append, List.map_append]

/-- The loop has passed `k` entries since the calls `made`. -/
structure Passed (id : Nat) (oldpara data : List UInt8) (made : List StCall) (k : Nat)
    (s : StState) : Prop where
  telling : s.notify = some ⟨id, oldpara, data.length, k⟩
  calls : s.calls = made ++ callsOf id (oldpara.take data.length) data (s.regtbl.take k)
  within : k ≤ s.regtbl.length

variable {oldpara : List UInt8} {made : List StCall} {k : Nat}

theorem Passed.step (passed : Passed id oldpara data made k s) (holds : Holds t v s)
    (known : v id = some data) {act : StAct} (other : ∀ id data, act ≠ .set id data)
    (step : stStep t s act = some s') (telling : s'.notify.isSome) :
    Passed id oldpara data made (k + if act = .turn then 1 else 0) s' := by
  cases act with
  | register id onchanged =>
    cases step
    rw [if_neg nofun, Nat.add_zero]
    cases onchanged with
    | none => exact passed
    | some onchanged =>
      unfold stRegister
      dsimp only
      split
      · exact passed
      · refine ⟨passed.telling, ?_, ?_⟩
        · dsimp only
          rw [List.take_append_of_le_length passed.within]
          exact passed.calls
        · rw [List.length_append]
          exact Nat.le_add_right_of_le passed.within
  | get id size =>
    cases step
    exact passed
  | set id data => exact absurd rfl (other id data)
  | turn =>
    obtain ⟨n, at_, rfl⟩ := Option.map_eq_some_iff.mp step
    obtain ⟨data', known', -, turn⟩ := holds.turn at_
    cases passed.telling.symm.trans at_
    obtain rfl : data = data' := Option.some.inj (known.symm.trans known')
    rw [turn] at telling ⊢
    rw [if_pos rfl]
    cases entry : s.regtbl[k]? with
    | none =>
      rw [entry] at telling
      cases telling
    | some r =>
      have inside : k < s.regtbl.length := (List.getElem?_eq_some_iff.mp entry).1
      refine ⟨rfl, ?_, inside⟩
      -- the entry is the next one
      have next : s.regtbl.take (k + 1) = s.regtbl.take k ++ [r] := by
        rw [List.take_add_one, entry]
        rfl
      rw [next, callsOf_append, ← List.append_assoc, ← passed.calls]
      rfl

/-- Without another change there is nothing to tell. -/
theorem idle_run {acts : List StAct} (others : ∀ id data, StAct.set id data ∉ acts)
    (idle : s.notify = none) (run : acts.foldlM (stStep t) s = some s') : s'.notify = none := by
  induction acts generalizing s with
  | nil =>
    cases run
    exact idle
  | cons act rest ih =>
    rw [List.foldlM_cons] at run
    obtain ⟨u, step, run⟩ := Option.bind_eq_some_iff.mp run
    refine ih (fun i d mem => others i d (List.mem_cons_of_mem act mem)) ?_ run
    cases act with
    | register id onchanged =>
      cases step
      unfold stRegister
      split
      · exact idle
      · split <;> exact idle
    | get id size =>
      cases step
      exact idle
    | set id data => exact absurd List.mem_cons_self (others id data)
    | turn =>
      rw [stStep, idle] at step
      cases step

theorem Passed.run (fits : total t.items < 2 ^ 32) (passed : Passed id oldpara data made k s)
    (holds : Holds t v s) (known : v id = some data) {acts : List StAct}
    (others : ∀ id data, StAct.set id data ∉ acts) (run : acts.foldlM (stStep t) s = some s')
    (telling : s'.notify.isSome) :
    Passed id oldpara data made (k + acts.count .turn) s' := by
  induction acts generalizing s v k with
  | nil =>
    cases run
    exact passed
  | cons act rest ih =>
    rw [List.foldlM_cons] at run
    obtain ⟨u, step, run⟩ := Option.bind_eq_some_iff.mp run
    have other : ∀ id data, act ≠ .set id data := fun i d same =>
      others i d (same ▸ List.mem_cons_self)
    have behind : ∀ id data, StAct.set id data ∉ rest := fun i d mem =>
      others i d (List.mem_cons_of_mem act mem)
    have same : setValue t v act = v := by
      cases act with
      | set id data => exact absurd rfl (other id data)
      | register | get | turn => rfl
    have kept := step_holds fits holds step
    rw [same] at kept
    -- the loop is not over before the last act
    have busy : u.notify.isSome := by
      by_contra idle
      rw [Option.not_isSome_iff_eq_none] at idle
      rw [idle_run behind idle run] at telling
      cases telling
    have next := ih (passed.step holds known other step busy) kept known behind run
    have count : (act :: rest).count .turn =
        (if act = .turn then 1 else 0) + rest.count .turn := by
      rw [List.count_cons, Nat.add_comm]
      simp only [beq_iff_eq]
    rwa [count, ← Nat.add_assoc]

/-! ### The store as a whole -/

/-- While the lengths of the members do not add up to 2^32: `st_get` returns what was set last; data
that is refused, and a value that is there already, change nothing; and a value that is new is told
once to each callback of the item that is registered when the loop ends, after at most as many turns
as there are entries. -/
theorem status_served (t : StTable) (fits : total t.items < 2 ^ 32) (acts : List StAct)
    (s : StState) (run : acts.foldlM (stStep t) .initial = some s) :
    (∀ id size, stGet t s id size = valueGet t (lastValue t acts) id size) ∧
      (∀ id data, s.notify = none → ¬ Settable t id data ∨ lastValue t acts id = some data →
        stStep t s (.set id data) = some s) ∧
      ∀ id data, Settable t id data → lastValue t acts id ≠ some data →
        ∀ mid s' s'', (∀ id data, StAct.set id data ∉ mid) →
          (StAct.set id data :: mid).foldlM (stStep t) s = some s' → s'.notify.isSome →
            stStep t s' .turn = some s'' → s''.notify = none →
              s''.calls = s.calls ++ callsOf id (before t (lastValue t acts) id) data s''.regtbl ∧
                mid.count .turn ≤ stMaxRegItemNum := by
  have holds : Holds t (lastValue t acts) s := run_holds fits holds_initial run
  refine ⟨holds.get, fun id data idle same => ?_, ?_⟩
  · rw [stStep, idle, Option.isSome_none, if_neg nofun]
    by_cases settable : Settable t id data
    · rw [holds.set settable, if_pos (same.resolve_left (not_not.mpr settable))]
    · rw [holds.refused settable]
  · intro id data settable changed mid s' s'' others run telling step idle
    rw [List.foldlM_cons] at run
    obtain ⟨u, set, run⟩ := Option.bind_eq_some_iff.mp run
    have kept := step_holds fits holds set
    rw [setValue_set settable] at kept
    rw [stStep] at set
    split at set
    · cases set
    · rw [holds.set settable, if_neg changed] at set
      cases set
      have start : Passed id (paraOf ((lastValue t acts id).getD [])) data s.calls 0
          (s.changed t (lastValue t acts) id data) := ⟨rfl, (List.append_nil _).symm, Nat.zero_le _⟩
      have passed := start.run fits kept (Function.update_self ..) others run telling
      have calls := passed.calls
      rw [Nat.zero_add, settable.whole, holds.old settable.short] at calls
      have within := passed.within
      rw [Nat.zero_add] at within
      have last := run_holds fits kept run
      -- the turn that ends the loop finds no entry
      obtain ⟨n, at_, rfl⟩ := Option.map_eq_some_iff.mp step
      obtain ⟨data', -, -, turn⟩ := last.turn at_
      cases passed.telling.symm.trans at_
      rw [turn, Nat.zero_add] at idle ⊢
      refine ⟨?_, Nat.le_trans within last.room⟩
      cases entry : s'.regtbl[mid.count .turn]? with
      | none =>
        rw [calls, List.take_of_length_le (List.getElem?_eq_none_iff.mp entry)]
      | some r =>
        rw [entry] at idle
        cases idle

/-- `st_table` of `status_def.h`. -/
def stTableItems : List StItem :=
  [[⟨.ushort, 2⟩], [⟨.uchar, 1⟩], [⟨.uchar, 1⟩], [⟨.uchar, 1⟩], [⟨.uchar, 1⟩], [⟨.uchar, 1⟩],
    [⟨.uchar, 1⟩], [⟨.uchar, 1⟩], [⟨.uchar, 1⟩], [⟨.uchar, 1⟩], [⟨.uchar, 1⟩], [⟨.ushort, 2⟩],
    [⟨.uchar, 1⟩], [⟨.uchar, 1⟩], [⟨.uint, 4⟩], [⟨.uchar, 1⟩], [⟨.ushort, 2⟩], [⟨.int, 4⟩],
    [⟨.uint, 4⟩], [⟨.uchar, 1⟩], [⟨.uchar, 1⟩], [⟨.uchar, 1⟩], [⟨.uchar, 1⟩], [⟨.uchar, 1⟩],
    [⟨.uchar, 1⟩], [⟨.uchar, 1⟩]]

def stTable : StTable := ⟨stTableItems, (stInit stTableItems).getD [], rfl⟩

/-- `ST_ITEM_PM_MODE` is set and told. -/
theorem status_served_mode :
    ∃ s, [.register 12 (some 7), .set 12 [3], .turn, .turn].foldlM (stStep stTable) .initial =
      some s ∧ stGet stTable s 12 1 = (.ok, 1, [3]) := by
  refine ⟨_, rfl, ?_⟩
  exact ((status_served stTable (by decide)
    [.register 12 (some 7), .set 12 [3], .turn, .turn] _ rfl).1 12 1).trans (by decide)

/-- A string of 2^32 - 4 bytes: the item behind it lies at the place of the first one. -/
def wrappedTable : StTable :=
  ⟨[[⟨.string, 4⟩], [⟨.string, 0xFFFFFFFC⟩], [⟨.string, 4⟩]],
    [⟨4, 0⟩, ⟨0xFFFFFFFC, 4⟩, ⟨4, 0⟩], rfl⟩

theorem status_overlaps :
    ∃ s, [.set 0 [1, 2, 3, 4], .turn, .set 2 [5, 6, 7, 8], .turn].foldlM (stStep wrappedTable)
      .initial = some s ∧ stGet wrappedTable s 0 4 = (.ok, 4, [5, 6, 7, 8]) ∧
      valueGet wrappedTable (lastValue wrappedTable
        [.set 0 [1, 2, 3, 4], .turn, .set 2 [5, 6, 7, 8], .turn]) 0 4 = (.ok, 4, [1, 2, 3, 4]) := by
  refine ⟨_, rfl, ?_, ?_⟩ <;> decide

end Status
