import Mathlib.Data.UInt
import TBoxMpu.Lib.Alternation
import TBoxMpu.Lib.Machines
import TBoxMpu.Uds.J1939

/-!
# The table of faults and its listeners

`J1939_dm1_pro` and `J1939_vehi_fault_scan`, without the times of start and end and the saving
of the table. A fault is told to the listeners when it starts and when it ends. The loop over
the listeners ignores their answers in `J1939_dm1_pro`; in the scan it stops at the first error,
and the end of the fault is lost for the listeners behind (`notified_iff`).
-/

open Alternation Machines

namespace Uds

/-! ### The table -/

/-- `VF_ST` -/
inductive VfSt where
  | null
  | start
  | end_
  deriving DecidableEq, Repr

/-- `VEHI_FAULT_DATA_T` -/
structure VehiFaultData where
  status : VfSt
  updateTime : UInt64
  dtc : Dtc

def vehiFaultTableNum : Nat := 256

def dtcTimeout : UInt64 := 60 * 1000

/-- `dtc_table` -/
abbrev DtcTable := Fin vehiFaultTableNum → VehiFaultData

def DtcTable.put (table : DtcTable) (i : Fin vehiFaultTableNum) (e : VehiFaultData) : DtcTable :=
  fun k => if k = i then e else table k

/-- What each listener was told: the entry that it was called with. -/
abbrev Told := Nat → List VehiFaultData

def Told.call (told : Told) (e : VehiFaultData) (listener : Nat) : Told :=
  fun k => if k = listener then told k ++ [e] else told k

structure FaultRun where
  table : DtcTable
  told : Told

def FaultRun.initial : FaultRun :=
  ⟨fun _ => ⟨.null, 0, ⟨0, 0, 0, 0, 0, 0⟩⟩, fun _ => []⟩

/-- `J1939_vehi_fault_start` -/
def j1939VehiFaultStart (table : DtcTable) (dtc : Dtc) (index : Fin vehiFaultTableNum)
    (now : UInt64) : DtcTable :=
  table.put index { status := .start, updateTime := now, dtc }

def VehiFaultData.ended (e : VehiFaultData) : VehiFaultData := { e with status := .end_ }

theorem VehiFaultData.ended_status (e : VehiFaultData) : e.ended.status ≠ .start := by
  unfold ended
  nofun

/-- `J1939_vehi_fault_end` -/
def j1939VehiFaultEnd (table : DtcTable) (index : Fin vehiFaultTableNum) : DtcTable :=
  table.put index (table index).ended

/-! ### The listeners -/

/-- The loop over the listeners in `J1939_dm1_pro`. -/
def tellAll (told : Told) (e : VehiFaultData) (used : Nat) : Told :=
  (List.range used).foldl (fun told j => told.call e j) told

/-- The loop over the listeners in the scan. -/
def tellUntil (told : Told) (e : VehiFaultData) (ret : Nat → Int) : List Nat → Told
  | [] => told
  | j :: rest => if ret j ≠ 0 then told.call e j else tellUntil (told.call e j) e ret rest

variable (used : Nat)

/-! ### DM1 and the scan -/

/-- The entry is started and its fault has this SPN. -/
def matchesSpn (table : DtcTable) (dtc : Dtc) (j : Fin vehiFaultTableNum) : Bool :=
  (table j).dtc.spn = dtc.spn ∧ (table j).status = .start

/-- The fault of an entry ends, and all listeners are told. -/
def FaultRun.endFault (r : FaultRun) (j : Fin vehiFaultTableNum) : FaultRun :=
  let table := j1939VehiFaultEnd r.table j
  ⟨table, tellAll r.told (table j) used⟩

/-- A fault starts in an entry, and all listeners are told. -/
def FaultRun.startFault (r : FaultRun) (dtc : Dtc) (j : Fin vehiFaultTableNum) (now : UInt64) :
    FaultRun :=
  let table := j1939VehiFaultStart r.table dtc j now
  ⟨table, tellAll r.told (table j) used⟩

/-- A trouble code in `J1939_dm1_pro`, and the time that is read for it. -/
def FaultRun.dm1Code (r : FaultRun) (code : Dtc × UInt64) : FaultRun :=
  let (dtc, now) := code
  match (List.finRange vehiFaultTableNum).find? (matchesSpn r.table dtc) with
  | some j =>
    -- a new FMI ends the fault, and another one starts in its entry
    if (r.table j).dtc.fmi ≠ dtc.fmi then (r.endFault used j).startFault used dtc j now
    else { r with table := r.table.put j { r.table j with updateTime := now } }
  | none =>
    match (List.finRange vehiFaultTableNum).find? fun k => (r.table k).status ≠ .start with
    | some k => r.startFault used dtc k now
    | none => r

/-- `J1939_dm1_pro` -/
def FaultRun.j1939Dm1Pro (r : FaultRun) (codes : List (Dtc × UInt64)) : FaultRun :=
  codes.foldl (FaultRun.dm1Code used) r

/-- The fault was not reported for a minute. -/
def VehiFaultData.Expired (e : VehiFaultData) (now : UInt64) : Prop :=
  e.status = .start ∧ now - e.updateTime > dtcTimeout

instance (e : VehiFaultData) (now : UInt64) : Decidable (e.Expired now) :=
  inferInstanceAs (Decidable (_ ∧ _))

/-- The times that a scan reads and what the listeners return, for each entry. -/
structure ScanInput where
  now : Fin vehiFaultTableNum → UInt64
  ret : Fin vehiFaultTableNum → Nat → Int

/-- A round of the scan. -/
def FaultRun.scanEntry (input : ScanInput) (r : FaultRun) (i : Fin vehiFaultTableNum) : FaultRun :=
  if (r.table i).Expired (input.now i) then
    let table := j1939VehiFaultEnd r.table i
    ⟨table, tellUntil r.told (table i) (input.ret i) (List.range used)⟩
  else r

/-- `J1939_vehi_fault_scan` -/
def FaultRun.j1939VehiFaultScan (r : FaultRun) (input : ScanInput) : FaultRun :=
  (List.finRange vehiFaultTableNum).foldl (FaultRun.scanEntry used input) r

inductive FaultEvent where
  | dm1 (codes : List (Dtc × UInt64))
  | scan (input : ScanInput)

def FaultRun.step (r : FaultRun) : FaultEvent → Unit × FaultRun
  | .dm1 codes => ((), r.j1939Dm1Pro used codes)
  | .scan input => ((), r.j1939VehiFaultScan used input)

/-! ### What is wanted -/

/-- A trouble code: SPN and FMI. -/
def Dtc.code (dtc : Dtc) : UInt32 × UInt8 := (dtc.spn, dtc.fmi)

/-- A fault with this trouble code is started. -/
def DtcTable.Active (table : DtcTable) (code : UInt32 × UInt8) : Prop :=
  ∃ i, (table i).status = .start ∧ (table i).dtc.code = code

/-- What a listener heard of a trouble code. -/
def heard (history : List VehiFaultData) (code : UInt32 × UInt8) : List VfSt :=
  (history.filter fun e => e.dtc.code = code).map (·.status)

/-- Each listener heard of each trouble code in turns of its start and its end, up to the state
that the table has. -/
def FaultRun.Tells (r : FaultRun) : Prop :=
  ∀ l < used, ∀ code, Follows .start .end_ (r.table.Active code) (heard (r.told l) code)

structure FaultRun.Sound (r : FaultRun) : Prop where
  single : ∀ i j, (r.table i).status = .start → (r.table j).status = .start →
    (r.table i).dtc.code = (r.table j).dtc.code → i = j
  tells : r.Tells used

/-- Where a fault ends in a scan, no listener but the last one reports an error. -/
def FaultRun.Heeded (r : FaultRun) : FaultEvent → Prop
  | .dm1 _ => True
  | .scan input => ∀ i, (r.table i).Expired (input.now i) → ∀ l, l + 1 < used → input.ret i l = 0

/-- At most one fault is started for each SPN, from whatever source. -/
def DtcTable.OneSpn (table : DtcTable) : Prop :=
  ∀ i j, (table i).status = .start → (table j).status = .start →
    (table i).dtc.spn = (table j).dtc.spn → i = j

theorem DtcTable.OneSpn.single {table : DtcTable} (one : table.OneSpn)
    {i j : Fin vehiFaultTableNum} (hi : (table i).status = .start) (hj : (table j).status = .start)
    (same : (table i).dtc.code = (table j).dtc.code) : i = j :=
  one i j hi hj (Prod.mk.inj same).1

variable {used}

/-! ### Telling the listeners -/

theorem heard_append (history more : List VehiFaultData) (code : UInt32 × UInt8) :
    heard (history ++ more) code = heard history code ++ heard more code := by
  unfold heard
  rw [List.filter_append, List.map_append]

theorem heard_own {e : VehiFaultData} {code : UInt32 × UInt8} (own : e.dtc.code = code) :
    heard [e] code = [e.status] := by
  simp [heard, own]

theorem heard_other {e : VehiFaultData} {code : UInt32 × UInt8} (other : e.dtc.code ≠ code) :
    heard [e] code = [] := by
  simp [heard, other]

theorem tellAll_apply (told : Told) (e : VehiFaultData) {l : Nat} (listens : l < used) :
    tellAll told e used l = told l ++ [e] := by
  have any : ∀ n k, tellAll told e n k = if k < n then told k ++ [e] else told k := by
    intro n k
    induction n with
    | zero => rfl
    | succ n ih =>
      unfold tellAll at ih ⊢
      rw [List.range_succ, List.foldl_append, List.foldl_cons, List.foldl_nil, Told.call, ih]
      by_cases last : k = n
      · rw [if_pos last, if_neg (by omega), if_pos (by omega)]
      · rw [if_neg last]
        by_cases before : k < n
        · rw [if_pos before, if_pos (by omega)]
        · rw [if_neg before, if_neg (by omega)]
  rw [any, if_pos listens]

/-- No listener before this one reports an error. -/
def Reached (ret : Nat → Int) (l : Nat) : Prop := ∀ j < l, ret j = 0

instance (ret : Nat → Int) (l : Nat) : Decidable (Reached ret l) :=
  inferInstanceAs (Decidable (∀ j < l, ret j = 0))

/-- The loop tells every listener that it reaches, once. -/
theorem tellUntil_apply (told : Told) (e : VehiFaultData) (ret : Nat → Int) {l : Nat}
    (listens : l < used) : tellUntil told e ret (List.range used) l =
      told l ++ if Reached ret l then [e] else [] := by
  -- from any listener on, for the induction
  have any : ∀ n k (told : Told), tellUntil told e ret (List.range' k n) l =
      told l ++ if k ≤ l ∧ l < k + n ∧ ∀ j < l, k ≤ j → ret j = 0 then [e] else [] := by
    intro n
    induction n with
    | zero =>
      intro k told
      rw [if_neg (by omega), List.append_nil]
      rfl
    | succ n ih =>
      intro k told
      rw [List.range'_succ, tellUntil]
      by_cases own : l = k
      · have called : told.call e k l = told l ++ [e] := if_pos own
        rw [if_pos (⟨by omega, by omega, fun j before after => by omega⟩ : _ ∧ _ ∧ _)]
        split
        · exact called
        · rw [ih, called, if_neg (by omega), List.append_nil]
      · have called : told.call e k l = told l := if_neg own
        split
        next error =>
          rw [called, if_neg, List.append_nil]
          rintro ⟨after, _, quiet⟩
          exact error (quiet k (by omega) (Nat.le_refl k))
        next quiet =>
          rw [ih, called]
          congr 1
          refine ite_congr (propext ⟨?_, ?_⟩) (fun _ => rfl) (fun _ => rfl)
          · rintro ⟨after, before, rest⟩
            refine ⟨by omega, by omega, fun j below above => ?_⟩
            by_cases first : j = k
            · rw [first]
              exact Decidable.not_not.mp quiet
            · exact rest j below (by omega)
          · rintro ⟨after, before, rest⟩
            exact ⟨by omega, by omega, fun j below above => rest j below (by omega)⟩
  rw [List.range_eq_range', any]
  congr 1
  refine ite_congr (propext ⟨?_, ?_⟩) (fun _ => rfl) (fun _ => rfl)
  · rintro ⟨_, _, quiet⟩ j below
    exact quiet j below (Nat.zero_le j)
  · intro reached
    exact ⟨Nat.zero_le l, by omega, fun j below _ => reached j below⟩

/-! ### DM1 -/

section Dm1

variable {r : FaultRun} {table : DtcTable} {e : VehiFaultData} {j : Fin vehiFaultTableNum}
  {code : UInt32 × UInt8}

theorem DtcTable.put_same : table.put j e j = e := if_pos rfl

theorem DtcTable.put_other {i : Fin vehiFaultTableNum} (other : i ≠ j) :
    table.put j e i = table i :=
  if_neg other

/-- What the entry keeps, the table keeps. -/
theorem DtcTable.put_field {β : Type} (field : VehiFaultData → β)
    (same : field e = field (table j)) (i : Fin vehiFaultTableNum) :
    field (table.put j e i) = field (table i) := by
  by_cases own : i = j
  · rw [own, DtcTable.put_same, same]
  · rw [DtcTable.put_other own]

/-- The other trouble codes stay as they are when the entry has none of them, before and after. -/
theorem active_put (before : (table j).status = .start → (table j).dtc.code ≠ code)
    (after : e.status = .start → e.dtc.code ≠ code) :
    (table.put j e).Active code ↔ table.Active code := by
  constructor
  · rintro ⟨i, started, own⟩
    by_cases same : i = j
    · rw [same, DtcTable.put_same] at started own
      exact absurd own (after started)
    · rw [DtcTable.put_other same] at started own
      exact ⟨i, started, own⟩
  · rintro ⟨i, started, own⟩
    have other : i ≠ j := by
      rintro rfl
      exact before started own
    refine ⟨i, ?_, ?_⟩
    · rw [DtcTable.put_other other]
      exact started
    · rw [DtcTable.put_other other]
      exact own

/-- An entry may be started whose SPN no other one has. -/
theorem oneSpn_put (one : table.OneSpn)
    (alone : e.status = .start →
      ∀ i, i ≠ j → (table i).status = .start → (table i).dtc.spn ≠ e.dtc.spn) :
    (table.put j e).OneSpn := by
  intro i k hi hk same
  unfold DtcTable.put at hi hk same
  by_cases own : i = j
  · by_cases own' : k = j
    · rw [own, own']
    · rw [if_pos own, if_neg own'] at same
      rw [if_pos own] at hi
      rw [if_neg own'] at hk
      exact absurd same.symm (alone hi k own' hk)
  · by_cases own' : k = j
    · rw [if_neg own, if_pos own'] at same
      rw [if_neg own] at hi
      rw [if_pos own'] at hk
      exact absurd same (alone hk i own hi)
    · rw [if_neg own, if_neg own'] at same
      rw [if_neg own] at hi
      rw [if_neg own'] at hk
      exact one i k hi hk same

/-- Only one fault is started for each SPN afterwards, and listeners that knew the faults know
them still. -/
structure FaultRun.Keeps (used : Nat) (r r' : FaultRun) : Prop where
  one : r'.table.OneSpn
  tells : r.Tells used → r'.Tells used

theorem FaultRun.Keeps.trans {r₁ r₂ r₃ : FaultRun} (first : r₁.Keeps used r₂)
    (second : r₂.Keeps used r₃) : r₁.Keeps used r₃ :=
  ⟨second.one, fun tells => second.tells (first.tells tells)⟩

/-- A fault starts in a free entry. -/
theorem startFault_keeps (one : r.table.OneSpn) (dtc : Dtc) (now : UInt64)
    (free : (r.table j).status ≠ .start)
    (absent : ∀ i, (r.table i).status = .start → (r.table i).dtc.spn ≠ dtc.spn) :
    r.Keeps used (r.startFault used dtc j now) := by
  refine ⟨oneSpn_put one fun _ i _ => absent i, ?_⟩
  intro tells l listens code
  have follows := tells l listens code
  unfold FaultRun.startFault j1939VehiFaultStart
  dsimp only
  rw [tellAll_apply _ _ listens, heard_append, DtcTable.put_same]
  -- of its own code the listener hears the start, of another one nothing
  by_cases own : dtc.code = code
  · rw [heard_own own]
    refine follows.turned_on ?_ ⟨j, ?_, ?_⟩
    · rintro ⟨i, started, same⟩
      exact absent i started (Prod.mk.inj (same.trans own.symm)).1
    · rw [DtcTable.put_same]
    · rw [DtcTable.put_same]
      exact own
  · rw [heard_other own, List.append_nil]
    exact follows.congr (active_put (fun started => absurd started free) fun _ => own).symm

/-- A fault ends, and no other one has its SPN. -/
theorem endFault_keeps (one : r.table.OneSpn) (started : (r.table j).status = .start) :
    r.Keeps used (r.endFault used j) := by
  refine ⟨oneSpn_put one nofun, ?_⟩
  intro tells l listens code
  have follows := tells l listens code
  unfold FaultRun.endFault j1939VehiFaultEnd
  dsimp only
  rw [tellAll_apply _ _ listens, heard_append, DtcTable.put_same]
  by_cases own : (r.table j).dtc.code = code
  · rw [heard_own (e := (r.table j).ended) own]
    refine follows.turned_off ⟨j, started, own⟩ ?_
    rintro ⟨i, started', same⟩
    by_cases entry : i = j
    · rw [entry, DtcTable.put_same] at started'
      cases started'
    · rw [DtcTable.put_other entry] at started' same
      exact entry (one.single started' started (same.trans own.symm))
  · rw [heard_other (e := (r.table j).ended) own, List.append_nil]
    have same := active_put (fun _ => own) fun running _ => (r.table j).ended_status running
    exact follows.congr same.symm

/-- A fault that is reported again is refreshed. -/
theorem refreshed_keeps (one : r.table.OneSpn) (now : UInt64) :
    r.Keeps used { r with table := r.table.put j { r.table j with updateTime := now } } := by
  have status : ∀ i, (r.table.put j { r.table j with updateTime := now } i).status =
      (r.table i).status := DtcTable.put_field (·.status) rfl
  have dtc : ∀ i, (r.table.put j { r.table j with updateTime := now } i).dtc = (r.table i).dtc :=
    DtcTable.put_field (·.dtc) rfl
  constructor
  · intro i k
    dsimp only
    rw [status, status, dtc, dtc]
    exact one i k
  · intro tells l listens code
    refine (tells l listens code).congr (exists_congr fun i => ?_)
    rw [status, dtc]

theorem dm1Code_keeps (one : r.table.OneSpn) (read : Dtc × UInt64) :
    r.Keeps used (r.dm1Code used read) := by
  obtain ⟨dtc, now⟩ := read
  unfold FaultRun.dm1Code
  dsimp only
  split
  next j found =>
    have is_match := List.find?_some found
    unfold matchesSpn at is_match
    obtain ⟨spn, started⟩ := of_decide_eq_true is_match
    split
    next changed =>
      -- after the end of the old fault the entry is free and no other one has the SPN
      have ended : r.Keeps used (r.endFault used j) := endFault_keeps one started
      refine ended.trans (startFault_keeps ended.one dtc now ?_ ?_)
      · unfold FaultRun.endFault j1939VehiFaultEnd
        dsimp only
        rw [DtcTable.put_same]
        nofun
      · intro i started' same
        unfold FaultRun.endFault j1939VehiFaultEnd at started' same
        dsimp only at started' same
        by_cases entry : i = j
        · rw [entry, DtcTable.put_same] at started'
          cases started'
        · rw [DtcTable.put_other entry] at started' same
          exact entry (one i j started' started (same.trans spn.symm))
    next => exact refreshed_keeps one now
  next none =>
    have absent : ∀ i, (r.table i).status = .start → (r.table i).dtc.spn ≠ dtc.spn := by
      intro i started spn
      have no_match := List.find?_eq_none.mp none i (List.mem_finRange i)
      exact no_match (decide_eq_true ⟨spn, started⟩)
    split
    next k found =>
      have free := List.find?_some found
      exact startFault_keeps one dtc now (of_decide_eq_true free) absent
    next => exact ⟨one, id⟩

theorem dm1Pro_keeps (one : r.table.OneSpn) (codes : List (Dtc × UInt64)) :
    r.Keeps used (r.j1939Dm1Pro used codes) := by
  unfold FaultRun.j1939Dm1Pro
  induction codes generalizing r with
  | nil => exact ⟨one, id⟩
  | cons code rest ih =>
    have first : r.Keeps used (r.dm1Code used code) := dm1Code_keeps one code
    exact first.trans (ih first.one)

end Dm1

/-! ### The scan -/

section Scan

variable {r : FaultRun} {input : ScanInput} {code : UInt32 × UInt8}

/-- What a listener is told of an entry in a scan. -/
def scanTold (input : ScanInput) (table : DtcTable) (l : Nat) (i : Fin vehiFaultTableNum) :
    List VehiFaultData :=
  if (table i).Expired (input.now i) then if Reached (input.ret i) l then [(table i).ended] else []
  else []

/-- The entry after a scan. -/
def scanned (input : ScanInput) (table : DtcTable) (i : Fin vehiFaultTableNum) : VehiFaultData :=
  if (table i).Expired (input.now i) then (table i).ended else table i

theorem scanEntry_table (r : FaultRun) (i : Fin vehiFaultTableNum) :
    (r.scanEntry used input i).table = r.table.put i (scanned input r.table i) := by
  unfold FaultRun.scanEntry scanned
  split
  · rfl
  · funext k
    exact (DtcTable.put_field id rfl k).symm

theorem scanEntry_told {l : Nat} (listens : l < used) (r : FaultRun) (i : Fin vehiFaultTableNum) :
    (r.scanEntry used input i).told l = r.told l ++ scanTold input r.table l i := by
  unfold FaultRun.scanEntry scanTold
  split
  · dsimp only
    rw [tellUntil_apply _ _ _ listens, j1939VehiFaultEnd, DtcTable.put_same]
  · exact (List.append_nil _).symm

/-- A round of the scan leaves the other entries alone. -/
theorem scanEntry_other {r : FaultRun} {i k : Fin vehiFaultTableNum} (other : k ≠ i) :
    (r.scanEntry used input i).table k = r.table k := by
  rw [scanEntry_table, DtcTable.put_other other]

theorem scanRounds_table {entries : List (Fin vehiFaultTableNum)} (nodup : entries.Nodup)
    (r : FaultRun) (i : Fin vehiFaultTableNum) :
    (entries.foldl (FaultRun.scanEntry used input) r).table i =
      if i ∈ entries then scanned input r.table i else r.table i := by
  induction entries generalizing r with
  | nil => rfl
  | cons entry rest ih =>
    obtain ⟨fresh, nodup⟩ := List.nodup_cons.mp nodup
    rw [List.foldl_cons, ih nodup]
    by_cases own : i = entry
    · rw [own, if_neg fresh, if_pos (List.mem_cons_self ..), scanEntry_table, DtcTable.put_same]
    · unfold scanned
      rw [scanEntry_other own]
      simp only [List.mem_cons, own, false_or]

theorem scanRounds_told {l : Nat} (listens : l < used) {entries : List (Fin vehiFaultTableNum)}
    (nodup : entries.Nodup) (r : FaultRun) :
    (entries.foldl (FaultRun.scanEntry used input) r).told l =
      r.told l ++ entries.flatMap (scanTold input r.table l) := by
  induction entries generalizing r with
  | nil => exact (List.append_nil _).symm
  | cons entry rest ih =>
    obtain ⟨fresh, nodup⟩ := List.nodup_cons.mp nodup
    -- the rounds before leave the later entries as they were
    have later : rest.map (scanTold input (r.scanEntry used input entry).table l) =
        rest.map (scanTold input r.table l) := by
      refine List.map_congr_left fun i mem => ?_
      unfold scanTold
      rw [scanEntry_other (ne_of_mem_of_not_mem mem fresh)]
    rw [List.foldl_cons, ih nodup, scanEntry_told listens, List.append_assoc, List.flatMap_cons,
      List.flatMap_def, later, ← List.flatMap_def]

theorem scan_table (r : FaultRun) (i : Fin vehiFaultTableNum) :
    (r.j1939VehiFaultScan used input).table i = scanned input r.table i := by
  unfold FaultRun.j1939VehiFaultScan
  rw [scanRounds_table (List.nodup_finRange _), if_pos (List.mem_finRange i)]

theorem scan_told {l : Nat} (listens : l < used) (r : FaultRun) :
    (r.j1939VehiFaultScan used input).told l =
      r.told l ++ (List.finRange vehiFaultTableNum).flatMap (scanTold input r.table l) := by
  unfold FaultRun.j1939VehiFaultScan
  exact scanRounds_told listens (List.nodup_finRange _) r

theorem scanned_status {table : DtcTable} {i : Fin vehiFaultTableNum}
    (started : (scanned input table i).status = .start) :
    scanned input table i = table i ∧ ¬ (table i).Expired (input.now i) := by
  unfold scanned at started ⊢
  split at started
  next => cases started
  next running => exact ⟨if_neg running, running⟩

theorem scan_oneSpn (one : r.table.OneSpn) : (r.j1939VehiFaultScan used input).table.OneSpn := by
  intro i j hi hj same
  rw [scan_table] at hi
  rw [scan_table] at hj
  rw [scan_table, scan_table, (scanned_status hi).1, (scanned_status hj).1] at same
  rw [(scanned_status hi).1] at hi
  rw [(scanned_status hj).1] at hj
  exact one i j hi hj same

/-- The trouble code of a fault that ends is not started any more. -/
theorem scan_ended (one : r.table.OneSpn) {i : Fin vehiFaultTableNum}
    (expired : (r.table i).Expired (input.now i)) :
    ¬ (r.j1939VehiFaultScan used input).table.Active (r.table i).dtc.code := by
  rintro ⟨k, started, same⟩
  rw [scan_table] at started same
  obtain ⟨kept, running⟩ := scanned_status started
  rw [kept] at started same
  have entry := one.single started expired.1 same
  exact running (entry ▸ expired)

theorem heard_flatMap {α : Type} (l : List α) (g : α → List VehiFaultData) :
    heard (l.flatMap g) code = l.flatMap fun a => heard (g a) code := by
  unfold heard
  rw [List.filter_flatMap, List.map_flatMap]

theorem flatMap_single {α β : Type} {l : List α} {g : α → List β} {a : α} (nodup : l.Nodup)
    (mem : a ∈ l) (others : ∀ b ∈ l, b ≠ a → g b = []) : l.flatMap g = g a := by
  induction l with
  | nil => cases mem
  | cons b rest ih =>
    obtain ⟨fresh, nodup⟩ := List.nodup_cons.mp nodup
    rw [List.flatMap_cons]
    rcases List.mem_cons.mp mem with rfl | mem
    · have none : rest.flatMap g = [] := List.flatMap_eq_nil_iff.mpr fun c later =>
        others c (List.mem_cons_of_mem _ later) (ne_of_mem_of_not_mem later fresh)
      rw [none, List.append_nil]
    · rw [others b (List.mem_cons_self ..) (ne_of_mem_of_not_mem mem fresh).symm, List.nil_append]
      exact ih nodup mem fun c later => others c (List.mem_cons_of_mem _ later)

/-- Of an entry that does not end with this trouble code, nothing is heard of it. -/
theorem heard_scanTold {table : DtcTable} {l : Nat} {i : Fin vehiFaultTableNum}
    (other : (table i).Expired (input.now i) → (table i).dtc.code ≠ code) :
    heard (scanTold input table l i) code = [] := by
  unfold scanTold
  split
  next expired =>
    split
    · exact heard_other (e := (table i).ended) (other expired)
    · rfl
  next => rfl

/-- Of a fault that ends, a listener hears exactly if it is reached. -/
theorem heard_ended (one : r.table.OneSpn) {i : Fin vehiFaultTableNum}
    (expired : (r.table i).Expired (input.now i)) {l : Nat} (listens : l < used) :
    heard ((r.j1939VehiFaultScan used input).told l) (r.table i).dtc.code =
      heard (r.told l) (r.table i).dtc.code ++ if Reached (input.ret i) l then [.end_] else [] := by
  have others : ∀ k ∈ List.finRange vehiFaultTableNum, k ≠ i →
      heard (scanTold input r.table l k) (r.table i).dtc.code = [] := by
    intro k _ other
    exact heard_scanTold fun expired' same => other (one.single expired'.1 expired.1 same)
  rw [scan_told listens, heard_append, heard_flatMap,
    flatMap_single (List.nodup_finRange _) (List.mem_finRange i) others]
  -- only the round of this entry tells of the code
  unfold scanTold
  rw [if_pos expired]
  split
  · exact congrArg _ (heard_own (e := (r.table i).ended) rfl)
  · rfl

/-- Of the other trouble codes nothing is heard, and they stay as they are. -/
theorem scan_quiet (other : ∀ i, (r.table i).Expired (input.now i) → (r.table i).dtc.code ≠ code)
    {l : Nat} (listens : l < used) :
    heard ((r.j1939VehiFaultScan used input).told l) code = heard (r.told l) code ∧
      ((r.j1939VehiFaultScan used input).table.Active code ↔ r.table.Active code) := by
  constructor
  · rw [scan_told listens, heard_append, heard_flatMap,
      List.flatMap_eq_nil_iff.mpr fun i _ => heard_scanTold (other i), List.append_nil]
  · constructor
    · rintro ⟨i, started, own⟩
      rw [scan_table] at started own
      have same := (scanned_status started).1
      rw [same] at started own
      exact ⟨i, started, own⟩
    · rintro ⟨i, started, own⟩
      have same : scanned input r.table i = r.table i := if_neg fun expired => other i expired own
      refine ⟨i, ?_, ?_⟩
      · rw [scan_table, same]
        exact started
      · rw [scan_table, same]
        exact own

/-- The listeners follow a scan exactly if no error keeps one of them from an end. -/
theorem scan_tells_iff (one : r.table.OneSpn) (tells : r.Tells used) :
    (r.j1939VehiFaultScan used input).Tells used ↔ r.Heeded used (.scan input) := by
  constructor
  · intro tells' i expired l more
    -- the last listener was told of the end, so none before it reported an error
    have last : used - 1 < used := by omega
    have follows := tells (used - 1) last (r.table i).dtc.code
    have follows' := tells' (used - 1) last (r.table i).dtc.code
    rw [heard_ended one expired last] at follows'
    by_cases reached : Reached (input.ret i) (used - 1)
    · exact reached l (by omega)
    · rw [if_neg reached, List.append_nil] at follows'
      have still := (follows.iff follows').mp ⟨i, expired.1, rfl⟩
      exact absurd still (scan_ended one expired)
  · intro heeded l listens code
    have follows := tells l listens code
    -- at most one entry has the code, so at most one end is told of it
    by_cases own : ∃ i, (r.table i).Expired (input.now i) ∧ (r.table i).dtc.code = code
    · obtain ⟨i, expired, rfl⟩ := own
      have reached : Reached (input.ret i) l := fun j before => heeded i expired j (by omega)
      rw [heard_ended one expired listens, if_pos reached]
      exact follows.turned_off ⟨i, expired.1, rfl⟩ (scan_ended one expired)
    · obtain ⟨quiet, same⟩ := scan_quiet (fun i expired code => own ⟨i, expired, code⟩) listens
      rw [quiet]
      exact follows.congr same.symm

end Scan

/-! ### Runs -/

theorem step_scan (r : FaultRun) (input : ScanInput) :
    (r.step used (.scan input)).2 = r.j1939VehiFaultScan used input := by
  simp only [FaultRun.step]

theorem step_oneSpn (r : FaultRun) (event : FaultEvent) (one : r.table.OneSpn) :
    (r.step used event).2.table.OneSpn := by
  cases event with
  | dm1 codes =>
    have keeps : r.Keeps used (r.j1939Dm1Pro used codes) := dm1Pro_keeps one codes
    exact keeps.one
  | scan input =>
    rw [step_scan]
    exact scan_oneSpn one

theorem step_sound_iff (r : FaultRun) (event : FaultEvent) (one : r.table.OneSpn)
    (sound : r.Sound used) : (r.step used event).2.Sound used ↔ r.Heeded used event := by
  cases event with
  | dm1 codes =>
    have keeps : r.Keeps used (r.j1939Dm1Pro used codes) := dm1Pro_keeps one codes
    exact iff_of_true ⟨fun _ _ => keeps.one.single, keeps.tells sound.tells⟩ trivial
  | scan input =>
    rw [step_scan, ← scan_tells_iff one sound.tells]
    exact ⟨fun sound' => sound'.tells, fun tells => ⟨fun _ _ => (scan_oneSpn one).single, tells⟩⟩

theorem initial_oneSpn : FaultRun.initial.table.OneSpn := by
  intro i j started
  cases started

theorem initial_sound : FaultRun.initial.Sound used := by
  refine ⟨fun _ _ => initial_oneSpn.single, fun l _ code => follows_nil ?_⟩
  rintro ⟨i, started, _⟩
  cases started

variable (used)

/-- Over every run of messages and scans: the table and the listeners agree after each of them
exactly if in each scan no listener but the last one reports an error for a fault that ends. -/
theorem notified_iff (events : List FaultEvent) :
    (∀ n, (after (FaultRun.step used) .initial (events.take n)).Sound used) ↔
      Along (FaultRun.step used) (FaultRun.Heeded used) .initial events :=
  holds_iff step_oneSpn step_sound_iff initial_oneSpn initial_sound events

/-- A fault is reported and then no more; the first of two listeners fails when it ends. -/
def failedListener : List FaultEvent :=
  [.dm1 [(⟨110, 3, 0, 1, 0, 1⟩, 0)],
    .scan { now := fun _ => 120000, ret := fun _ l => if l = 0 then -1 else 0 }]

/-- The second listener is not told of the end. -/
theorem end_not_told :
    ¬ ∀ n, (after (FaultRun.step 2) .initial (failedListener.take n)).Sound 2 := by
  intro sound
  obtain ⟨n, told, state⟩ := (sound 2).tells 1 (by decide) (110, 3)
  have heard_start :
      heard ((after (FaultRun.step 2) .initial (failedListener.take 2)).told 1) (110, 3) =
        [.start] := by
    decide +kernel
  have length := congrArg List.length (heard_start.symm.trans told)
  rw [length_alternating] at length
  obtain ⟨i, started, _⟩ := state.mpr (by rw [← length]; rfl)
  have stopped : ∀ i, ((after (FaultRun.step 2) .initial (failedListener.take 2)).table i).status ≠
      .start := by decide +kernel
  exact stopped i started

end Uds
