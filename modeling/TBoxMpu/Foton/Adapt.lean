import Mathlib.Data.Finset.Card
import Mathlib.Data.Finset.Range
import TBoxMpu.Lib.Runs

/-!
# The adaptive counts of cells and temperatures

The part of `foton_data.c` that counts the battery's cells and temperatures: the suffixes of a
DBC file, the values restored from RDS and those of the adaptation signals.

## Main result

`ft_adapt_within`: in every run in which no load restores a count above that of its DBC, the
active counts stay within the DBC, and a step keeps them there exactly if it is no such load.

## Proof strategy

While a file is read, each place that is filled adds one to the count and to `def_val`
(`Reading`). A file passes the check at its end if there are no gaps, and from then on the counts
and the confirmed values are bounded by `def_val` (`Right`), which is what
`ft_adapt_value_check` compares with and `ft_adapt_init` does not.
-/

namespace Foton

inductive FtAdaptFlg
  | confused
  | overflow
  | timeout
  | initial
  | valid
  | changed
  deriving DecidableEq

structure FtAdapt where
  flg : FtAdaptFlg
  sig : Nat
  defVal : Nat
  curVal : Nat
  cfgVal : Nat
  chgCnt : Nat
  tick : Nat

/-- The cells or the temperatures of the battery: the ids of their signals, their count and
their adapter. -/
structure FtPart where
  ids : Nat → Nat
  cnt : Nat
  adapter : FtAdapt

structure FtInfo where
  cells : FtPart
  temps : FtPart

def ftMaxPack : Nat := 800
def ftAdaptTimeout : Nat := 10000

def ftBlankPart : FtPart := ⟨fun _ => 0, 0, ⟨.initial, 0, 0, 0, 0, 0, 0⟩⟩
def ftBlankInfo : FtInfo := ⟨ftBlankPart, ftBlankPart⟩

/-- The id of a cell or temperature; a place that is filled stays as it is. -/
def FtPart.fill (p : FtPart) (place sigid : Nat) : FtPart :=
  if p.ids place = 0 then
    { p with
      ids := Function.update p.ids place sigid
      cnt := p.cnt + 1
      adapter := { p.adapter with defVal := p.adapter.defVal + 1 } }
  else p

def FtPart.setSig (p : FtPart) (sigid : Nat) : FtPart :=
  { p with adapter := { p.adapter with sig := sigid } }

/-- `ft_data_parse_surfix` for the suffix `G<gbtype><gbindex>`, as far as it fills the cells, the
temperatures and the adapters. -/
def ftParseSurfix (inf : FtInfo) (sigid gbtype gbindex : Nat) : FtInfo :=
  if gbtype = 0x08 then
    if 1 ≤ gbindex / 1024 ∨ gbindex % 1024 = 0x3fe ∨ gbindex % 1024 = 0x3ff ∨
      ftMaxPack ≤ gbindex % 1024 then inf
    else { inf with cells := inf.cells.fill (gbindex % 1024) sigid }
  else if gbtype = 0x09 then
    if 1 ≤ gbindex / 256 ∨ ftMaxPack ≤ gbindex % 256 then inf
    else { inf with temps := inf.temps.fill (gbindex % 256) sigid }
  else if gbtype = 0x0f then
    if gbindex = 0x000 then { inf with cells := inf.cells.setSig sigid }
    else if gbindex = 0x001 then { inf with temps := inf.temps.setSig sigid }
    else inf
  else inf

/-- `ft_adapt_init` for the value that RDS holds. -/
def FtPart.adaptInit (p : FtPart) (value now : Nat) : FtPart :=
  if value ≠ 0 then
    { p with
      cnt := value
      adapter := { p.adapter with flg := .valid, curVal := value, cfgVal := value, tick := now } }
  else { p with adapter := { p.adapter with flg := .initial } }

/-- `ft_adapt_value_check` for a new value of the signal `sigid`; returned too is whether the
values are saved. -/
def FtPart.valueCheck (p : FtPart) (sigid value now : Nat) : FtPart × Bool :=
  let a := p.adapter
  if a.sig = 0 ∨ sigid ≠ a.sig then (p, false)
  else if value = 0 then
    ({ p with adapter := { a with flg := .confused, curVal := value } }, false)
  else if a.defVal < value then
    ({ p with adapter := { a with flg := .overflow, curVal := value } }, false)
  else if a.flg = .initial then
    ({ p with
       cnt := value
       adapter := { a with flg := .valid, tick := now, cfgVal := value, curVal := value } }, true)
  else if value ≠ a.curVal then
    ({ p with
       adapter := { a with flg := .changed, tick := now, chgCnt := a.chgCnt + 1,
                           curVal := value } }, false)
  else (p, false)

/-- `ft_adapt_timeout_check`. -/
def FtPart.timeoutCheck (p : FtPart) (now : Nat) : FtPart × Bool :=
  let a := p.adapter
  if a.flg = .changed ∧ ftAdaptTimeout < now - a.tick then
    ({ p with
       cnt := a.curVal
       adapter := { a with flg := .valid, tick := now, cfgVal := a.curVal } }, true)
  else (p, false)

/-- The check at the end of a file: the counted places come first. -/
def FtPart.gapless (p : FtPart) : Bool :=
  decide (∀ i < p.cnt, p.ids i ≠ 0)

/-- The active information `ft_inf`, the one being read `ft_rld`, and the values in RDS, if they
can be read. -/
structure FtAdaptState where
  inf : Option FtInfo
  rld : Option FtInfo
  rds : Option (Nat × Nat)

/-- `saved` tells whether `rds_update_once` succeeds. -/
def FtAdaptState.save (st : FtAdaptState) (values : Nat × Nat) (saved : Bool) : FtAdaptState :=
  if saved then { st with rds := some values } else st

def FtInfo.cfgVals (inf : FtInfo) : Nat × Nat :=
  (inf.cells.adapter.cfgVal, inf.temps.adapter.cfgVal)

inductive FtAdaptEvent
  | reload
  | surfix (sigid : {n : Nat // 0 < n}) (gbtype gbindex : Nat)
  | finished (failed readable : Bool) (now : Nat) (saved : Bool)
  | update (sigid value now : Nat) (saved : Bool)
  | periodic (now : Nat) (saved : Bool)
  | restart

/-- The values that `ft_adapt_init` reads from RDS, if it can. -/
def FtAdaptState.restored (st : FtAdaptState) (readable : Bool) : Nat × Nat :=
  if readable then st.rds.getD (0, 0) else (0, 0)

def ftDbcFinished (st : FtAdaptState) (failed readable : Bool) (now : Nat) (saved : Bool) :
    FtAdaptState :=
  match st.rld with
  | some rld =>
    if failed then { st with rld := none }
    -- the `break` of a file with gaps leaves `ft_rld` set
    else if !rld.cells.gapless || !rld.temps.gapless then st
    else
      let value := st.restored readable
      let st := if !readable || st.rds.isNone then st.save (0, 0) saved else st
      let inf := ⟨rld.cells.adaptInit value.1 now, rld.temps.adaptInit value.2 now⟩
      { st with inf := some inf, rld := none }
  | none => st

def ftAdaptStep (st : FtAdaptState) : FtAdaptEvent → FtAdaptState
  | .reload => { st with rld := some ftBlankInfo }
  | .surfix sigid gbtype gbindex =>
    { st with rld := st.rld.map fun rld => ftParseSurfix rld sigid gbtype gbindex }
  | .finished failed readable now saved => ftDbcFinished st failed readable now saved
  | .update sigid value now saved =>
    match st.inf with
    | none => st
    | some inf =>
      let cells := inf.cells.valueCheck sigid value now
      let temps := inf.temps.valueCheck sigid value now
      let inf : FtInfo := ⟨cells.1, temps.1⟩
      let st := { st with inf := some inf }
      if cells.2 || temps.2 then st.save inf.cfgVals saved else st
  | .periodic now saved =>
    match st.inf with
    | none => st
    | some inf =>
      let cells := inf.cells.timeoutCheck now
      let temps := inf.temps.timeoutCheck now
      let inf : FtInfo := ⟨cells.1, temps.1⟩
      let st := { st with inf := some inf }
      if cells.2 || temps.2 then st.save inf.cfgVals saved else st
  | .restart => { st with inf := none, rld := none }

/-- Before the first load; RDS holds what an earlier program left. -/
def FtAdaptStart (st : FtAdaptState) : Prop :=
  st.inf = none ∧ st.rld = none

/-! ### Counting places -/

/-- The number of places that have an id. -/
def defined (ids : Nat → Nat) : Nat :=
  ((Finset.range ftMaxPack).filter fun i => ids i ≠ 0).card

theorem defined_blank : defined (fun _ => 0) = 0 := by
  simp [defined]

theorem defined_fill {ids : Nat → Nat} {place sigid : Nat} (free : ids place = 0)
    (inside : place < ftMaxPack) (positive : 0 < sigid) :
    defined (Function.update ids place sigid) = defined ids + 1 := by
  have grown : (Finset.range ftMaxPack).filter (fun i => Function.update ids place sigid i ≠ 0) =
      insert place ((Finset.range ftMaxPack).filter fun i => ids i ≠ 0) := by
    ext i
    simp only [Finset.mem_filter, Finset.mem_range, Finset.mem_insert, Function.update_apply]
    by_cases same : i = place
    · subst same
      simp [inside, Nat.ne_of_gt positive]
    · simp [same]
  rw [defined, grown, Finset.card_insert_of_notMem (by simp [free])]
  rfl

/-! ### What holds of the parts -/

/-- A part of the information being read. -/
structure Reading (p : FtPart) : Prop where
  counted : p.cnt = defined p.ids
  defVal : p.adapter.defVal = defined p.ids

/-- A part of the active information. -/
structure Right (p : FtPart) : Prop where
  defVal : p.adapter.defVal = defined p.ids
  gapless : ∀ i < defined p.ids, p.ids i ≠ 0
  within : p.cnt ≤ defined p.ids
  pending : p.adapter.flg = .changed → p.adapter.curVal ≤ p.adapter.defVal

theorem Reading.blank : Reading ftBlankPart :=
  ⟨defined_blank.symm, defined_blank.symm⟩

theorem Reading.fill {p : FtPart} (reading : Reading p) {place sigid : Nat}
    (inside : place < ftMaxPack) (positive : 0 < sigid) : Reading (p.fill place sigid) := by
  unfold FtPart.fill
  split_ifs with free
  · have grown := defined_fill free inside positive
    exact ⟨by simp [grown, reading.counted], by simp [grown, reading.defVal]⟩
  · exact reading

theorem Right.adaptInit {p : FtPart} (reading : Reading p) (gapless : p.gapless = true)
    {value now : Nat} (bounded : value ≤ defined p.ids) : Right (p.adaptInit value now) := by
  have first : ∀ i < defined p.ids, p.ids i ≠ 0 := by
    rw [← reading.counted]
    exact of_decide_eq_true gapless
  unfold FtPart.adaptInit
  split_ifs
  · exact ⟨reading.defVal, first, bounded, nofun⟩
  · exact ⟨reading.defVal, first, reading.counted.le, nofun⟩

theorem Right.valueCheck {p : FtPart} (right : Right p) (sigid value now : Nat) :
    Right (p.valueCheck sigid value now).1 := by
  simp only [FtPart.valueCheck]
  split_ifs with unused zero above init new
  · exact right
  · exact ⟨right.defVal, right.gapless, right.within, nofun⟩
  · exact ⟨right.defVal, right.gapless, right.within, nofun⟩
  · exact ⟨right.defVal, right.gapless, right.defVal ▸ Nat.not_lt.mp above, nofun⟩
  · exact ⟨right.defVal, right.gapless, right.within, fun _ => Nat.not_lt.mp above⟩
  · exact right

theorem Right.timeoutCheck {p : FtPart} (right : Right p) (now : Nat) :
    Right (p.timeoutCheck now).1 := by
  simp only [FtPart.timeoutCheck]
  split_ifs with due
  · exact ⟨right.defVal, right.gapless, right.defVal ▸ right.pending due.1, nofun⟩
  · exact right

/-! ### Runs -/

/-- The count of a part is within its DBC, and the places counted have ids. -/
def FtPart.Within (p : FtPart) : Prop :=
  p.cnt ≤ defined p.ids ∧ ∀ i < p.cnt, p.ids i ≠ 0

def FtAdaptState.Within (st : FtAdaptState) : Prop :=
  ∀ inf, st.inf = some inf → inf.cells.Within ∧ inf.temps.Within

/-- A load that passes its check restores no count above that of its DBC. -/
def FtAdaptOk (st : FtAdaptState) : FtAdaptEvent → Prop
  | .finished failed readable _ _ => failed = false → ∀ rld, st.rld = some rld →
      rld.cells.gapless = true → rld.temps.gapless = true →
      (st.restored readable).1 ≤ defined rld.cells.ids ∧
        (st.restored readable).2 ≤ defined rld.temps.ids
  | _ => True

structure Adapted (st : FtAdaptState) : Prop where
  active : ∀ inf, st.inf = some inf → Right inf.cells ∧ Right inf.temps
  reading : ∀ rld, st.rld = some rld → Reading rld.cells ∧ Reading rld.temps

theorem Right.isWithin {p : FtPart} (right : Right p) : p.Within :=
  ⟨right.within, fun i below => right.gapless i (Nat.lt_of_lt_of_le below right.within)⟩

theorem Adapted.within {st : FtAdaptState} (adapted : Adapted st) : st.Within := by
  intro inf active
  obtain ⟨cells, temps⟩ := adapted.active inf active
  exact ⟨cells.isWithin, temps.isWithin⟩

@[simp] theorem save_inf (st : FtAdaptState) (values : Nat × Nat) (saved : Bool) :
    (st.save values saved).inf = st.inf := by
  cases saved <;> rfl

@[simp] theorem save_rld (st : FtAdaptState) (values : Nat × Nat) (saved : Bool) :
    (st.save values saved).rld = st.rld := by
  cases saved <;> rfl

theorem parse_reading {inf : FtInfo} (cells : Reading inf.cells) (temps : Reading inf.temps)
    {sigid : Nat} (positive : 0 < sigid) (gbtype gbindex : Nat) :
    Reading (ftParseSurfix inf sigid gbtype gbindex).cells ∧
      Reading (ftParseSurfix inf sigid gbtype gbindex).temps := by
  unfold ftParseSurfix
  split_ifs with cell outside temp outside' adapt
  · exact ⟨cells, temps⟩
  · exact ⟨cells.fill (by omega) positive, temps⟩
  · exact ⟨cells, temps⟩
  · exact ⟨cells, temps.fill (by omega) positive⟩
  · exact ⟨⟨cells.counted, cells.defVal⟩, temps⟩
  · exact ⟨cells, ⟨temps.counted, temps.defVal⟩⟩
  · exact ⟨cells, temps⟩
  · exact ⟨cells, temps⟩

/-- A restored count is within the DBC exactly if it is at most the number of its places. -/
theorem adaptInit_within_iff {p : FtPart} (reading : Reading p) (gapless : p.gapless = true)
    {value now : Nat} : (p.adaptInit value now).Within ↔ value ≤ defined p.ids := by
  refine ⟨fun within => ?_, fun bounded => (Right.adaptInit reading gapless bounded).isWithin⟩
  unfold FtPart.adaptInit at within
  split_ifs at within with kept
  · exact within.1
  · rw [not_not.mp kept]
    exact Nat.zero_le _

/-- The information that a load makes active. -/
def FtInfo.adaptInit (inf : FtInfo) (value : Nat × Nat) (now : Nat) : FtInfo :=
  ⟨inf.cells.adaptInit value.1 now, inf.temps.adaptInit value.2 now⟩

/-- A load either leaves the active information, and nothing new is being read, or it makes the
information read active. -/
theorem ftDbcFinished_cases (st : FtAdaptState) (failed readable : Bool) (now : Nat)
    (saved : Bool) :
    ((ftDbcFinished st failed readable now saved).inf = st.inf ∧
      ((ftDbcFinished st failed readable now saved).rld = none ∨
        (ftDbcFinished st failed readable now saved).rld = st.rld) ∧
      ¬ (failed = false ∧ ∃ rld, st.rld = some rld ∧ rld.cells.gapless = true ∧
        rld.temps.gapless = true)) ∨
    ∃ rld, failed = false ∧ st.rld = some rld ∧ rld.cells.gapless = true ∧
      rld.temps.gapless = true ∧ (ftDbcFinished st failed readable now saved).rld = none ∧
      (ftDbcFinished st failed readable now saved).inf =
        some (rld.adaptInit (st.restored readable) now) := by
  unfold ftDbcFinished
  cases reading : st.rld with
  | none => exact .inl ⟨rfl, .inr reading, by simp⟩
  | some rld =>
    simp only
    by_cases bad : failed = true
    · rw [if_pos bad]
      exact .inl ⟨rfl, .inl rfl, by simp [bad]⟩
    · rw [if_neg bad]
      by_cases gaps : (!rld.cells.gapless || !rld.temps.gapless) = true
      · rw [if_pos gaps]
        refine .inl ⟨rfl, .inr reading, ?_⟩
        rintro ⟨-, _, same, cells, temps⟩
        obtain rfl := Option.some.inj same
        simp [cells, temps] at gaps
      · rw [if_neg gaps]
        simp only [Bool.or_eq_true, Bool.not_eq_true', not_or, Bool.not_eq_false] at gaps
        exact .inr ⟨rld, by simpa using bad, rfl, gaps.1, gaps.2, rfl, rfl⟩

/-- Saving in RDS changes neither information. -/
theorem Adapted.save {st : FtAdaptState} (adapted : Adapted st) (values : Nat × Nat)
    (saved : Bool) : Adapted (st.save values saved) :=
  ⟨by rw [save_inf]; exact adapted.active, by rw [save_rld]; exact adapted.reading⟩

/-- What a check leaves of both parts becomes active, and may be saved. -/
theorem Adapted.become {st : FtAdaptState} (adapted : Adapted st) {inf : FtInfo}
    (cells : Right inf.cells) (temps : Right inf.temps) (changed saved : Bool) :
    Adapted (if changed then { st with inf := some inf }.save inf.cfgVals saved
      else { st with inf := some inf }) := by
  have right : Adapted { st with inf := some inf } :=
    ⟨fun _ active => Option.some.inj active ▸ ⟨cells, temps⟩, adapted.reading⟩
  split
  · exact right.save _ _
  · exact right

theorem Adapted.step {st : FtAdaptState} (adapted : Adapted st) {ev : FtAdaptEvent}
    (ok : FtAdaptOk st ev) : Adapted (ftAdaptStep st ev) := by
  cases ev with
  | reload =>
    refine ⟨adapted.active, fun rld fresh => ?_⟩
    obtain rfl := Option.some.inj fresh
    exact ⟨.blank, .blank⟩
  | surfix sigid gbtype gbindex =>
    refine ⟨adapted.active, fun rld parsed => ?_⟩
    obtain ⟨before, reading, rfl⟩ := Option.map_eq_some_iff.mp parsed
    obtain ⟨cells, temps⟩ := adapted.reading before reading
    exact parse_reading cells temps sigid.2 gbtype gbindex
  | finished failed readable now saved =>
    simp only [ftAdaptStep]
    rcases ftDbcFinished_cases st failed readable now saved with
      ⟨kept, left, -⟩ | ⟨rld, passed, reading, cells, temps, done, made⟩
    · refine ⟨by rw [kept]; exact adapted.active, fun rld still => ?_⟩
      rcases left with gone | same
      · exact nomatch gone.symm.trans still
      · exact adapted.reading rld (same.symm.trans still)
    · obtain ⟨below, below'⟩ := ok passed rld reading cells temps
      obtain ⟨read, read'⟩ := adapted.reading rld reading
      refine ⟨fun inf active => ?_, fun rld still => nomatch done.symm.trans still⟩
      obtain rfl := Option.some.inj (made.symm.trans active)
      exact ⟨.adaptInit read cells below, .adaptInit read' temps below'⟩
  | update sigid value now saved =>
    simp only [ftAdaptStep]
    cases active : st.inf with
    | none => exact adapted
    | some inf =>
      obtain ⟨cells, temps⟩ := adapted.active inf active
      exact adapted.become (cells.valueCheck sigid value now) (temps.valueCheck sigid value now)
        _ saved
  | periodic now saved =>
    simp only [ftAdaptStep]
    cases active : st.inf with
    | none => exact adapted
    | some inf =>
      obtain ⟨cells, temps⟩ := adapted.active inf active
      exact adapted.become (cells.timeoutCheck now) (temps.timeoutCheck now) _ saved
  | restart => exact ⟨nofun, nofun⟩

/-- A step keeps the counts within the DBC exactly if it is no load that restores more. -/
theorem Adapted.within_iff {st : FtAdaptState} (adapted : Adapted st) (ev : FtAdaptEvent) :
    (ftAdaptStep st ev).Within ↔ FtAdaptOk st ev := by
  refine ⟨fun within => ?_, fun ok => (adapted.step ok).within⟩
  cases ev with
  | finished failed readable now saved =>
    intro passed rld reading cells temps
    simp only [ftAdaptStep] at within
    rcases ftDbcFinished_cases st failed readable now saved with
      ⟨-, -, refused⟩ | ⟨other, -, same, -, -, -, made⟩
    · exact absurd ⟨passed, rld, reading, cells, temps⟩ refused
    · obtain rfl := Option.some.inj (reading.symm.trans same)
      obtain ⟨read, read'⟩ := adapted.reading rld reading
      obtain ⟨cells', temps'⟩ := within _ made
      exact ⟨(adaptInit_within_iff read cells).mp cells',
        (adaptInit_within_iff read' temps).mp temps'⟩
  | _ => trivial

/-- **Adaptive counts.** -/
theorem ft_adapt_within {st : FtAdaptState}
    (reach : Runs.Reach FtAdaptStart
      (Runs.Guarded FtAdaptOk fun st ev st' => ftAdaptStep st ev = st') st) :
    st.Within ∧ ∀ ev, (ftAdaptStep st ev).Within ↔ FtAdaptOk st ev := by
  have adapted : Adapted st := by
    refine Runs.Reach.invariant ?_ ?_ reach
    · rintro st ⟨idle, unread⟩
      exact ⟨by simp [idle], by simp [unread]⟩
    · rintro st ev _ adapted ⟨ok, rfl⟩
      exact adapted.step ok
  exact ⟨adapted.within, adapted.within_iff⟩

/-- A file with the cell 0, whose signal is 5, is being read; RDS holds a count of 1. -/
def ftReadingOne : FtAdaptState :=
  ⟨none, some (ftParseSurfix ftBlankInfo 5 0x08 0), some (1, 0)⟩

theorem ft_adapt_within_one :
    (ftAdaptStep ftReadingOne (.finished false true 0 true)).Within := by
  have loading : Runs.Reach FtAdaptStart
      (Runs.Guarded FtAdaptOk fun st ev st' => ftAdaptStep st ev = st') ftReadingOne :=
    .next (.surfix ⟨5, by decide⟩ 0x08 0)
      (.next .reload (.start (show FtAdaptStart ⟨none, none, some (1, 0)⟩ from ⟨rfl, rfl⟩))
        ⟨trivial, rfl⟩) ⟨trivial, rfl⟩
  refine ((ft_adapt_within loading).2 (.finished false true 0 true)).mpr ?_
  intro _ rld reading _ _
  obtain rfl := Option.some.inj reading
  exact ⟨((@Reading.fill _ Reading.blank 0 5 (by decide) (by decide)).counted).le,
    Nat.zero_le _⟩

/-- A DBC of two cells, an adaptation signal of 2, and after a restart a DBC of one cell. -/
def ftTwoThenOne : List FtAdaptEvent :=
  [.reload, .surfix ⟨5, by decide⟩ 0x08 0, .surfix ⟨6, by decide⟩ 0x08 1,
    .surfix ⟨7, by decide⟩ 0x0f 0, .finished false true 0 true, .update 7 2 0 true, .restart,
    .reload, .surfix ⟨5, by decide⟩ 0x08 0, .finished false true 0 true]

/-- The second DBC has no signal for the second cell. -/
theorem restored_beyond_dbc : ¬ ∀ st, Runs.Reach FtAdaptStart
    (fun st ev st' => ftAdaptStep st ev = st') st → st.Within := by
  intro claim
  have reach := @Runs.Reach.foldl _ _ _ ftAdaptStep _
    (.start (show FtAdaptStart ⟨none, none, none⟩ from ⟨rfl, rfl⟩)) ftTwoThenOne
  exact absurd ((claim _ reach _ rfl).1.2 1 (by decide)) (by decide)

end Foton
