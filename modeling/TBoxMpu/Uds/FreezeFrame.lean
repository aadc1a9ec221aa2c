import Mathlib.Algebra.Order.BigOperators.Group.List
import Mathlib.Algebra.Order.Group.Nat
import TBoxMpu.Uds.Diag

/-!
# What a freeze frame holds

Every identifier of a freeze frame is written to, and read from, the same place behind the
flag: the frame is right exactly if no two identifiers of an item both have data.
-/

namespace Uds

/-! ### Runs and records -/

inductive DiagEvent
  | round (round : DiagRound)
  | clear

def diagStep (c : DiagCfg) (slots : List DiagSlot) (s : DiagState) : DiagEvent → DiagState
  | .round round => udsDiagAllDevices c slots round s
  | .clear => udsDiagDtcClear

def DiagReach (c : DiagCfg) (slots : List DiagSlot) : DiagState → Prop :=
  Runs.Reach (· = .initial) fun s e s' => s' = diagStep c slots s e

/-- The record of what the sources hold. -/
def frozenRecord (c : DiagCfg) (item : DiagItem) (src : DidSource) : List UInt8 :=
  item.ids.flatMap fun id => idBytes id ++ (List.range (c.didLen id)).map (src id)

/-- Whenever a fault is confirmed, the record retrieved is of what the sources held when it was. -/
def FreezeFaithful (c : DiagCfg) (slots : List DiagSlot) : Prop :=
  ∀ s, DiagReach c slots s → ∀ (i : Nat) (item : DiagItem) (slot : DiagSlot) (src : DidSource),
    c.items[i]? = some item → slots[i]? = some slot → s.frozen i = some src →
      ∀ limit, (frozenRecord c item src).length ≤ limit →
        udsDiagGetFreeze c slot item s.buf limit =
          some ⟨frozenRecord c item src, (frozenRecord c item src).length, item.ids.length⟩

/-- No two identifiers of the item both have data. -/
def DiagItem.OneSource (c : DiagCfg) (item : DiagItem) : Prop :=
  ∀ a ∈ item.ids, ∀ b ∈ item.ids, a ≠ b → c.didLen a = 0 ∨ c.didLen b = 0

/-! ### The layout -/

variable {c : DiagCfg} {slots : List DiagSlot}

/-- An item's identifiers are in the table, and its slot has room for all their data. -/
structure Laid (c : DiagCfg) (item : DiagItem) (slot : DiagSlot) : Prop where
  known : ∀ id ∈ item.ids, ∃ did, c.did id = some did
  len : slot.len = (item.ids.map c.didLen).sum + 4

theorem diagSlots_laid {items : List DiagItem} {offset : Nat}
    (h : diagSlots c offset items = some slots) {i : Nat} {slot : DiagSlot}
    (there : slots[i]? = some slot) :
    offset ≤ slot.offset ∧ ∃ item, items[i]? = some item ∧ Laid c item slot := by
  induction items generalizing offset slots i with
  | nil =>
    cases h
    cases there
  | cons first rest ih =>
    unfold diagSlots at h
    split at h
    next known =>
      obtain ⟨more, laid, rfl⟩ := Option.map_eq_some_iff.mp h
      cases i with
      | zero =>
        cases there
        -- the slot of the first item; the others lie behind it
        refine ⟨Nat.le_refl _, first, rfl, fun id mem => ?_, rfl⟩
        exact Option.isSome_iff_exists.mp (List.all_eq_true.mp known id mem)
      | succ i =>
        obtain ⟨le, found⟩ := ih laid there
        exact ⟨by omega, found⟩
    next => cases h

theorem diagSlots_disjoint {items : List DiagItem} {offset : Nat}
    (h : diagSlots c offset items = some slots) {i j : Nat} (order : i < j) {a b : DiagSlot}
    (at_a : slots[i]? = some a) (at_b : slots[j]? = some b) : a.offset + a.len ≤ b.offset := by
  induction items generalizing offset slots i j with
  | nil =>
    cases h
    cases at_a
  | cons first rest ih =>
    unfold diagSlots at h
    split at h
    next known =>
      obtain ⟨more, laid, rfl⟩ := Option.map_eq_some_iff.mp h
      cases j with
      | zero => exact absurd order (Nat.not_lt_zero i)
      | succ j =>
        cases i with
        | zero =>
          cases at_a
          exact (diagSlots_laid laid at_b).1
        | succ i => exact ih laid (Nat.lt_of_succ_lt_succ order) at_a at_b
    next => cases h

/-- The slots of an accepted configuration. -/
theorem init_laid (init : udsDiagInit c = some slots) {i : Nat} {item : DiagItem} {slot : DiagSlot}
    (at_item : c.items[i]? = some item) (at_slot : slots[i]? = some slot) : Laid c item slot := by
  obtain ⟨laid, -⟩ := Option.filter_eq_some_iff.mp init
  obtain ⟨-, item', found, laid⟩ := diagSlots_laid laid at_slot
  obtain rfl := Option.some.inj (at_item.symm.trans found)
  exact laid

theorem init_disjoint (init : udsDiagInit c = some slots) {i j : Nat} (other : i ≠ j)
    {a b : DiagSlot} (at_a : slots[i]? = some a) (at_b : slots[j]? = some b) :
    a.offset + a.len ≤ b.offset ∨ b.offset + b.len ≤ a.offset := by
  obtain ⟨laid, -⟩ := Option.filter_eq_some_iff.mp init
  rcases Nat.lt_or_gt_of_ne other with less | more
  · exact .inl (diagSlots_disjoint laid less at_a at_b)
  · exact .inr (diagSlots_disjoint laid more at_b at_a)

/-- An identifier's data is within its item's slot. -/
theorem Laid.within {item : DiagItem} {slot : DiagSlot} (laid : Laid c item slot) {id : UInt16}
    (mem : id ∈ item.ids) : c.didLen id + 4 ≤ slot.len := by
  rw [laid.len]
  have le := List.le_sum_of_mem (List.mem_map_of_mem (f := c.didLen) mem)
  omega

/-! ### Retrieval -/

/-- The record of what is behind the flag. -/
def storedRecord (c : DiagCfg) (slot : DiagSlot) (buf : DiagBuf) (ids : List UInt16) : List UInt8 :=
  ids.flatMap fun id => idBytes id ++ buf.read (slot.offset + 4) (c.didLen id)

theorem freezeLoop_stored {ids : List UInt16} (known : ∀ id ∈ ids, ∃ did, c.did id = some did)
    (slot : DiagSlot) (buf : DiagBuf) {limit : Nat} {data : List UInt8}
    (fits : data.length + (storedRecord c slot buf ids).length ≤ limit) :
    freezeLoop c slot buf limit ids data = some (data ++ storedRecord c slot buf ids) := by
  induction ids generalizing data with
  | nil => simp [freezeLoop, storedRecord]
  | cons id rest ih =>
    obtain ⟨did, found⟩ := known id (by simp)
    have len : c.didLen id = did.len := by simp [DiagCfg.didLen, found]
    have size : (storedRecord c slot buf (id :: rest)).length =
        2 + did.len + (storedRecord c slot buf rest).length := by
      simp [storedRecord, idBytes, DiagBuf.read, len]
      omega
    rw [size] at fits
    -- the loop does not end for want of room
    have room : ¬ did.len + (data.length + 2) > limit := by omega
    simp only [freezeLoop, found]
    rw [if_neg room, ih (fun id mem => known id (by simp [mem]))]
    · simp [storedRecord, len]
    · simp [idBytes, DiagBuf.read]
      omega

theorem storedRecord_length (slot : DiagSlot) (buf : DiagBuf) (ids : List UInt16) :
    (storedRecord c slot buf ids).length = (ids.map c.didLen).sum + ids.length * 2 := by
  induction ids with
  | nil => rfl
  | cons id rest ih =>
    have first : storedRecord c slot buf (id :: rest) =
        idBytes id ++ buf.read (slot.offset + 4) (c.didLen id) ++
          storedRecord c slot buf rest := rfl
    rw [first, List.length_append, ih]
    simp [idBytes, DiagBuf.read]
    omega

theorem getFreeze_stored {item : DiagItem} {slot : DiagSlot} (laid : Laid c item slot)
    (buf : DiagBuf) {limit : Nat} (fits : (storedRecord c slot buf item.ids).length ≤ limit) :
    udsDiagGetFreeze c slot item buf limit = some ⟨storedRecord c slot buf item.ids,
      (storedRecord c slot buf item.ids).length, item.ids.length⟩ := by
  have length := storedRecord_length (c := c) slot buf item.ids
  unfold udsDiagGetFreeze
  split
  next none => simp [none, storedRecord]
  next =>
    rw [freezeLoop_stored laid.known slot buf (by simpa using fits), Option.map_some,
      List.nil_append, length, laid.len, Nat.add_sub_cancel]

/-- What is stored is a record of the sources if every identifier's data is. -/
theorem stored_eq_iff (slot : DiagSlot) (buf : DiagBuf) (src : DidSource) (ids : List UInt16) :
    storedRecord c slot buf ids =
      (ids.flatMap fun id => idBytes id ++ (List.range (c.didLen id)).map (src id)) ↔
    ∀ id ∈ ids, ∀ k < c.didLen id, buf (slot.offset + 4 + k) = src id k := by
  induction ids with
  | nil => simp [storedRecord]
  | cons id rest ih =>
    have first : storedRecord c slot buf (id :: rest) =
        idBytes id ++ buf.read (slot.offset + 4) (c.didLen id) ++
          storedRecord c slot buf rest := rfl
    have blocks : buf.read (slot.offset + 4) (c.didLen id) =
        (List.range (c.didLen id)).map (src id) ↔
        ∀ k < c.didLen id, buf (slot.offset + 4 + k) = src id k := by
      simp [DiagBuf.read]
    rw [first, List.flatMap_cons, List.forall_mem_cons, ← blocks, ← ih]
    constructor
    · intro same
      -- the blocks have the lengths of the table, so that they agree one by one
      obtain ⟨block, more⟩ := List.append_inj same (by simp [DiagBuf.read])
      exact ⟨List.append_cancel_left block, more⟩
    · rintro ⟨block, more⟩
      rw [block, more]

/-! ### Capture -/

theorem write_within (buf : DiagBuf) {offset len p : Nat} (data : Nat → UInt8) (low : offset ≤ p)
    (high : p < offset + len) : buf.write offset len data p = data (p - offset) :=
  if_pos ⟨low, high⟩

theorem write_outside (buf : DiagBuf) {offset len p : Nat} (data : Nat → UInt8)
    (out : p < offset ∨ offset + len ≤ p) : buf.write offset len data p = buf p :=
  if_neg (by omega)

theorem genFreeze_cons (slot : DiagSlot) (src : DidSource) (id : UInt16) (rest : List UInt16)
    (buf : DiagBuf) : udsDiagGenFreeze c slot src (id :: rest) buf =
      udsDiagGenFreeze c slot src rest (buf.write (slot.offset + 4) (c.didLen id) (src id)) := by
  refine congrArg (udsDiagGenFreeze c slot src rest) ?_
  dsimp only
  cases found : c.did id with
  | some did => simp [DiagCfg.didLen, found]
  | none =>
    -- an identifier without data writes nothing
    funext p
    rw [write_outside _ _ (by simp [DiagCfg.didLen, found]; omega)]

theorem genFreeze_outside {slot : DiagSlot} {ids : List UInt16} {size : Nat}
    (fits : ∀ id ∈ ids, c.didLen id ≤ size) (src : DidSource) (buf : DiagBuf) {p : Nat}
    (out : p < slot.offset + 4 ∨ slot.offset + 4 + size ≤ p) :
    udsDiagGenFreeze c slot src ids buf p = buf p := by
  induction ids generalizing buf with
  | nil => rfl
  | cons id rest ih =>
    have le := fits id (by simp)
    rw [genFreeze_cons, ih (fun id mem => fits id (by simp [mem])), write_outside _ _ (by omega)]

/-- A byte that only one identifier has data for is that identifier's. -/
theorem genFreeze_at {slot : DiagSlot} {ids : List UInt16} {id : UInt16} {k : Nat}
    (data : k < c.didLen id) (only : ∀ other ∈ ids, k < c.didLen other → other = id)
    (src : DidSource) (buf : DiagBuf) :
    udsDiagGenFreeze c slot src ids buf (slot.offset + 4 + k) =
      if id ∈ ids then src id k else buf (slot.offset + 4 + k) := by
  induction ids generalizing buf with
  | nil => rfl
  | cons first rest ih =>
    rw [genFreeze_cons, ih (fun other mem => only other (by simp [mem]))]
    by_cases same : first = id
    · subst same
      rw [write_within _ _ (by omega) (by omega), Nat.add_sub_cancel_left]
      simp
    · -- another identifier's data ends before this byte
      have short : c.didLen first ≤ k := by
        by_contra long
        exact same (only first (by simp) (by omega))
      rw [write_outside _ _ (by omega)]
      simp [Ne.symm same]

/-! ### One check -/

/-- A check leaves buffer and frozen sources, or it confirms the fault. -/
theorem oneDevice_cases (c : DiagCfg) (slots : List DiagSlot) (i : Nat) (fault : Bool)
    (src : DidSource) (s : DiagState) :
    (udsDiagOneDevice c slots i fault src s).buf = s.buf ∧
        (udsDiagOneDevice c slots i fault src s).frozen = s.frozen ∨
      ∃ item slot, c.items[i]? = some item ∧ slots[i]? = some slot ∧
        (udsDiagOneDevice c slots i fault src s).buf =
          udsDiagGenFreeze c slot src item.ids (s.buf.confirm slot) ∧
        (udsDiagOneDevice c slots i fault src s).frozen =
          fun j => if j = i then some src else s.frozen j := by
  unfold udsDiagOneDevice
  split
  next item slot at_item at_slot =>
    split
    · exact .inl ⟨rfl, rfl⟩
    · split
      · exact .inl ⟨rfl, rfl⟩
      · split
        · exact .inl ⟨rfl, rfl⟩
        · exact .inr ⟨item, slot, at_item, at_slot, rfl, rfl⟩
  next => exact .inl ⟨rfl, rfl⟩

/-- Behind the flag of every confirmed fault is what its sources held. -/
def HoldsFrozen (c : DiagCfg) (slots : List DiagSlot) (s : DiagState) : Prop :=
  ∀ (i : Nat) (item : DiagItem) (slot : DiagSlot) (src : DidSource),
    c.items[i]? = some item → slots[i]? = some slot → s.frozen i = some src →
      ∀ id ∈ item.ids, ∀ k < c.didLen id, s.buf (slot.offset + 4 + k) = src id k

/-- What a confirmation writes is within the slot. -/
theorem confirmed_outside {item : DiagItem} {slot : DiagSlot} (laid : Laid c item slot)
    (src : DidSource) (buf : DiagBuf) {p : Nat}
    (out : p < slot.offset ∨ slot.offset + slot.len ≤ p) :
    udsDiagGenFreeze c slot src item.ids (buf.confirm slot) p = buf p := by
  have len := laid.len
  have fits : ∀ id ∈ item.ids, c.didLen id ≤ slot.len - 4 := fun id mem => by
    have within := laid.within mem
    omega
  rw [genFreeze_outside fits src _ (by omega)]
  exact write_outside _ _ (by omega)

theorem oneDevice_holds (init : udsDiagInit c = some slots)
    (one : ∀ item ∈ c.items, item.OneSource c) {s : DiagState} (holds : HoldsFrozen c slots s)
    (i : Nat) (fault : Bool) (src : DidSource) :
    HoldsFrozen c slots (udsDiagOneDevice c slots i fault src s) := by
  intro j item slot frozen at_item at_slot was id mem k data
  rcases oneDevice_cases c slots i fault src s with
    ⟨buf, kept⟩ | ⟨item', slot', at_item', at_slot', buf, kept⟩
  · rw [buf]
    exact holds j item slot frozen at_item at_slot (kept ▸ was) id mem k data
  · rw [buf]
    rw [kept] at was
    by_cases same : j = i
    · -- the fault just confirmed: the only identifier with data is written as it is read
      subst same
      obtain rfl := Option.some.inj (at_item.symm.trans at_item')
      obtain rfl := Option.some.inj (at_slot.symm.trans at_slot')
      obtain rfl := Option.some.inj ((if_pos rfl).symm.trans was)
      have only : ∀ other ∈ item.ids, k < c.didLen other → other = id := by
        intro other mem' data'
        by_contra ne
        have := one item (List.mem_of_getElem? at_item) other mem' id mem ne
        omega
      rw [genFreeze_at data only, if_pos mem]
    · -- another fault's slot is elsewhere
      have was : s.frozen j = some frozen := (if_neg same).symm.trans was
      have within := (init_laid init at_item at_slot).within mem
      have apart := init_disjoint init same at_slot at_slot'
      rw [confirmed_outside (init_laid init at_item' at_slot') src s.buf (by omega)]
      exact holds j item slot frozen at_item at_slot was id mem k data

theorem diagStep_holds (init : udsDiagInit c = some slots)
    (one : ∀ item ∈ c.items, item.OneSource c) {s : DiagState} (holds : HoldsFrozen c slots s)
    (e : DiagEvent) : HoldsFrozen c slots (diagStep c slots s e) := by
  cases e with
  | clear =>
    intro i item slot src _ _ was
    cases was
  | round round =>
    simp only [diagStep, udsDiagAllDevices]
    split
    · induction List.range c.items.length generalizing s with
      | nil => exact holds
      | cons i rest ih =>
        exact ih (oneDevice_holds init one holds i (round.fault i) (round.src i))
    · exact holds

theorem reach_holds (init : udsDiagInit c = some slots)
    (one : ∀ item ∈ c.items, item.OneSource c) {s : DiagState} (h : DiagReach c slots s) :
    HoldsFrozen c slots s := by
  refine Runs.Reach.invariant (fun s start => ?_) (fun s e t holds step => ?_) h
  · subst start
    intro i item slot src _ _ was
    cases was
  · subst step
    exact diagStep_holds init one holds e

/-! ### Confirming a fault -/

/-- Two states with the same buffer and the same check of item `i`. -/
structure Alike (i : Nat) (s t : DiagState) : Prop where
  buf : s.buf = t.buf
  counter : s.counter i = t.counter i
  frozen : s.frozen = t.frozen

theorem alike_refl (i : Nat) (s : DiagState) : Alike i s s := ⟨rfl, rfl, rfl⟩

theorem Alike.oneDevice {i : Nat} {s t : DiagState} (alike : Alike i s t) (fault : Bool)
    (src : DidSource) :
    Alike i (udsDiagOneDevice c slots i fault src s) (udsDiagOneDevice c slots i fault src t) := by
  obtain ⟨buf, counter, frozen⟩ := alike
  unfold udsDiagOneDevice
  rw [buf, counter, frozen]
  split
  -- the three tests of a check read what is alike
  next => split_ifs <;> constructor <;> simp_all
  next => exact ⟨buf, counter, frozen⟩

theorem Alike.other {i j : Nat} {s t : DiagState} (alike : Alike i s t) (other : j ≠ i)
    (src : DidSource) : Alike i (udsDiagOneDevice c slots j false src s) t := by
  obtain ⟨buf, counter, frozen⟩ := alike
  unfold udsDiagOneDevice
  split
  next => exact ⟨buf, by simpa [Ne.symm other] using counter, frozen⟩
  next => exact ⟨buf, counter, frozen⟩

/-- A round that finds only item `i` faulty checks that item alone. -/
theorem onlyFault_alike (i : Nat) (src : DidSource) (s : DiagState) (n : Nat) :
    Alike i
      ((List.range n).foldl (fun s j => udsDiagOneDevice c slots j (decide (j = i)) src s) s)
      (if i < n then udsDiagOneDevice c slots i true src s else s) := by
  induction n with
  | zero => exact alike_refl i s
  | succ n ih =>
    rw [List.range_succ, List.foldl_append]
    by_cases same : n = i
    · subst same
      rw [if_neg (Nat.lt_irrefl n)] at ih
      simpa using ih.oneDevice true src
    · have lt : (i < n + 1) = (i < n) := by
        have : i ≠ n := Ne.symm same
        exact propext ⟨fun h => by omega, fun h => by omega⟩
      simpa [same, lt] using ih.other same src

/-- Only item `i` is found faulty. -/
def onlyFault (i : Nat) (src : DidSource) : DiagRound :=
  ⟨true, fun j => decide (j = i), fun _ => src⟩

theorem diagSlots_length {items : List DiagItem} {offset : Nat}
    (h : diagSlots c offset items = some slots) : slots.length = items.length := by
  induction items generalizing offset slots with
  | nil =>
    cases h
    rfl
  | cons first rest ih =>
    unfold diagSlots at h
    split at h
    next known =>
      obtain ⟨more, laid, rfl⟩ := Option.map_eq_some_iff.mp h
      simp [ih laid]
    next => cases h

/-- Every fault can be confirmed with any sources. -/
theorem frozen_reachable {i : Nat} {item : DiagItem} {slot : DiagSlot}
    (at_item : c.items[i]? = some item) (at_slot : slots[i]? = some slot) (src : DidSource) :
    ∃ s, DiagReach c slots s ∧ s.frozen i = some src := by
  obtain ⟨less, -⟩ := List.getElem?_eq_some_iff.mp at_item
  have round : ∀ s, Alike i (diagStep c slots s (.round (onlyFault i src)))
      (udsDiagOneDevice c slots i true src s) := by
    intro s
    have alike := @onlyFault_alike c slots i src s c.items.length
    rwa [if_pos less] at alike
  -- the counter is raised to the threshold
  have raised : ∀ n ≤ item.thsd, ∃ s, DiagReach c slots s ∧ s.buf = DiagState.initial.buf ∧
      s.counter i = n := by
    intro n le
    induction n with
    | zero => exact ⟨.initial, .start rfl, rfl, rfl⟩
    | succ n ih =>
      obtain ⟨s, reach, buf, counter⟩ := ih (by omega)
      refine ⟨_, .next (.round (onlyFault i src)) reach rfl, ?_, ?_⟩
      · rw [(round s).buf]
        simp [udsDiagOneDevice, at_item, at_slot, counter, Nat.lt_of_succ_le le, buf]
      · rw [(round s).counter]
        simp [udsDiagOneDevice, at_item, at_slot, counter, Nat.lt_of_succ_le le]
  obtain ⟨s, reach, buf, counter⟩ := raised item.thsd (Nat.le_refl _)
  refine ⟨_, .next (.round (onlyFault i src)) reach rfl, ?_⟩
  -- and nothing was confirmed on the way
  have unconfirmed : s.buf.confirmed slot = false := by
    simp [buf, DiagState.initial, DiagBuf.confirmed, DiagBuf.read]
  rw [(round s).frozen]
  simp [udsDiagOneDevice, at_item, at_slot, counter, unconfirmed]

/-! ### Fidelity -/

theorem faithful_of_oneSource (init : udsDiagInit c = some slots)
    (one : ∀ item ∈ c.items, item.OneSource c) : FreezeFaithful c slots := by
  intro s reach i item slot src at_item at_slot was limit fits
  have laid := init_laid init at_item at_slot
  have stored : storedRecord c slot s.buf item.ids = frozenRecord c item src :=
    (stored_eq_iff slot s.buf src item.ids).mpr
      (reach_holds init one reach i item slot src at_item at_slot was)
  rw [getFreeze_stored laid s.buf (stored ▸ fits), stored]

theorem oneSource_of_faithful (init : udsDiagInit c = some slots)
    (faithful : FreezeFaithful c slots) : ∀ item ∈ c.items, item.OneSource c := by
  intro item item_mem a mem_a b mem_b ne
  by_contra both
  obtain ⟨some_a, some_b⟩ : 0 < c.didLen a ∧ 0 < c.didLen b := by omega
  obtain ⟨i, at_item⟩ := List.getElem?_of_mem item_mem
  obtain ⟨less, -⟩ := List.getElem?_eq_some_iff.mp at_item
  obtain ⟨laid, -⟩ := Option.filter_eq_some_iff.mp init
  obtain ⟨slot, at_slot⟩ : ∃ slot, slots[i]? = some slot :=
    ⟨_, List.getElem?_eq_getElem (diagSlots_length laid ▸ less)⟩
  -- the two identifiers' sources differ in the first byte
  let src : DidSource := fun id _ => if id = a then 0 else 1
  obtain ⟨s, reach, was⟩ := frozen_reachable at_item at_slot src
  have laid := init_laid init at_item at_slot
  have retrieved := faithful s reach i item slot src at_item at_slot was
    ((frozenRecord c item src).length + (storedRecord c slot s.buf item.ids).length) (by omega)
  rw [getFreeze_stored laid s.buf (by omega)] at retrieved
  have stored := (stored_eq_iff slot s.buf src item.ids).mp
    (congrArg FreezeRecord.data (Option.some.inj retrieved))
  -- the first byte behind the flag would be both
  have first := stored a mem_a 0 some_a
  have second := stored b mem_b 0 some_b
  rw [first] at second
  simp [src, Ne.symm ne] at second

/-- For every accepted configuration: all its freeze frames are faithful in all histories exactly
if no item lists two different identifiers with data. -/
theorem freeze_faithful_iff (init : udsDiagInit c = some slots) :
    FreezeFaithful c slots ↔ ∀ item ∈ c.items, item.OneSource c :=
  ⟨oneSource_of_faithful init, faithful_of_oneSource init⟩

/-- An odometer of two bytes, alone and with a voltage. -/
def odometerOnly : DiagCfg :=
  ⟨[⟨"900100".toList, 1, [0xB100, didInvalid]⟩], [⟨0xB100, 2⟩, ⟨0xB101, 1⟩]⟩

def withVoltage : DiagCfg :=
  ⟨[⟨"900100".toList, 1, [0xB100, 0xB101, didInvalid]⟩], [⟨0xB100, 2⟩, ⟨0xB101, 1⟩]⟩

theorem odometer_faithful : udsDiagInit odometerOnly = some [⟨0, 6⟩] ∧
    FreezeFaithful odometerOnly [⟨0, 6⟩] := by
  have init : udsDiagInit odometerOnly = some [⟨0, 6⟩] := by decide
  refine ⟨init, (freeze_faithful_iff init).mpr ?_⟩
  simp [odometerOnly, DiagItem.OneSource, DiagItem.ids, diagMaxDidCnt, didInvalid]

/-- The voltage is written over the odometer's first byte, and read back as both. -/
theorem voltage_overwrites : udsDiagInit withVoltage = some [⟨0, 7⟩] ∧
    ¬ FreezeFaithful withVoltage [⟨0, 7⟩] := by
  refine ⟨by decide, fun faithful => ?_⟩
  let src : DidSource := fun id _ => if id = 0xB100 then 0xAA else 0xBB
  -- the threshold is one: the second round confirms the fault
  let round := DiagEvent.round ⟨true, fun _ => true, fun _ => src⟩
  let step := diagStep withVoltage [⟨0, 7⟩]
  have reach : DiagReach withVoltage [⟨0, 7⟩] (step (step .initial round) round) :=
    .next round (.next round (.start rfl) rfl) rfl
  have retrieved := faithful _ reach 0 _ ⟨0, 7⟩ src rfl rfl rfl 200 (by decide)
  have stored : udsDiagGetFreeze withVoltage ⟨0, 7⟩
      ⟨"900100".toList, 1, [0xB100, 0xB101, didInvalid]⟩
      (step (step .initial round) round).buf 200 =
        some ⟨[0xB1, 0x00, 0xBB, 0xAA, 0xB1, 0x01, 0xBB], 7, 2⟩ := by
    decide
  exact absurd (stored.symm.trans retrieved) (by decide)

end Uds
