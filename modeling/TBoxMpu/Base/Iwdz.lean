import Mathlib.Logic.Function.Basic
import TBoxMpu.Lib.Runs

/-!
# The two buffers of the IWDZ recording

`dsu_iwdzfile.c`: records are appended to the current buffer while the writer hands the other one
to the file, and the two change places once the other one is empty. Room is looked for on one path
only, and without the header that goes before a GNSS sentence.

## Main result

`iwdz_bound_iff`: nothing is written behind a buffer exactly if no GNSS sentence comes that would
fit but for its header while the other buffer waits for the writer.

## Proof strategy

1. `iwdzSave` fails where a record does not fit; `iwdzFileAppend_fails_iff` says when it is called so
2. A run of labels exists exactly if none of them fails where the others lead
-/

namespace Iwdz

open Runs

def iwdzTmpDataSize : Nat := 1024 * 640

def iwdzTmpDataRsvSize : Nat := 1024 * 64

def iwdzTmpTimeout : UInt64 := 2000

/-- `FILE_ST_*` -/
inductive FileSt
  | none | creating | opened
  deriving DecidableEq, Repr

/-- `IWDZ_DATA_*` -/
inductive IwdzData
  | can | gnss | ending
  deriving DecidableEq, Repr

/-- `iwdz_tmp`, the state of the file, and the static variables of `iwdz_file_append`; `stamp` is
the time in `gnss_header`. `handed` are the buffers given to `dsu_write_fb`, `accepted` the records
that were saved. -/
structure IwdzTmp where
  data : Bool → List UInt8
  curIdx : Bool
  syncIdx : Bool
  stat : FileSt
  enable : Bool
  time : UInt64
  stamp : List UInt8
  handed : List (List UInt8)
  accepted : List (List UInt8)

/-- `iwdz_file_init` -/
def IwdzTmp.initial : IwdzTmp :=
  ⟨fun _ => [], false, true, .none, false, 0, List.replicate 8 0, [], []⟩

def IwdzTmp.cur (s : IwdzTmp) : List UInt8 := s.data s.curIdx

def IwdzTmp.sync (s : IwdzTmp) : List UInt8 := s.data s.syncIdx

/-- `iwdz_file_append` at the end of the recording. -/
def iwdzStop (s : IwdzTmp) : IwdzTmp :=
  let s :=
    if s.cur ≠ [] then
      { s with
        syncIdx := s.curIdx
        curIdx := !s.curIdx
        data := Function.update s.data (!s.curIdx) [] }
    else s
  -- an open file is asked to be closed
  if s.stat = .opened then s
  else { s with data := Function.update (Function.update s.data s.curIdx []) s.syncIdx [] }

/-- The first record of a file asks for it. -/
def iwdzBegin (type : IwdzData) (now : UInt64) (s : IwdzTmp) : IwdzTmp :=
  if s.stat = .none ∧ type = .can then { s with stat := .creating, time := now } else s

/-- The buffers change places, if it is time and the writer is ready; `false` is an overflow. -/
def iwdzSwap (now : UInt64) (len : Nat) (s : IwdzTmp) : Bool × IwdzTmp :=
  if s.cur.length > iwdzTmpDataRsvSize ∨ now - s.time > iwdzTmpTimeout then
    let s := { s with time := now }
    if s.sync = [] then (true, { s with syncIdx := s.curIdx, curIdx := !s.curIdx })
    else (decide ¬ s.cur.length + len > iwdzTmpDataSize, s)
  else (true, s)

/-- The bytes of a record, with `gnss_header` before a sentence. -/
def IwdzTmp.record (s : IwdzTmp) (type : IwdzData) (data : List UInt8) : List UInt8 :=
  if type = .can then data else s.stamp ++ 0x47 :: .ofNat data.length :: data

/-- A record is saved, unless it is written behind the buffer. -/
def iwdzSave (type : IwdzData) (data : List UInt8) (s : IwdzTmp) : Option IwdzTmp :=
  let record := s.record type data
  if s.cur.length + record.length ≤ iwdzTmpDataSize then
    some { s with
      stamp := if type = .can then data.take 8 ++ s.stamp.drop data.length else s.stamp
      data := Function.update s.data s.curIdx (s.cur ++ record)
      accepted := s.accepted ++ [record] }
  else none

/-- `iwdz_file_append` at a time. -/
def iwdzFileAppend (type : IwdzData) (data : List UInt8) (now : UInt64) (s : IwdzTmp) :
    Option IwdzTmp :=
  if s.enable = false ∨ type = .ending then some (iwdzStop s)
  else
    match iwdzSwap now data.length (iwdzBegin type now s) with
    | (true, s) => iwdzSave type data s
    | (false, s) => some s

/-- `iwdz_file_write` -/
def iwdzFileWrite (s : IwdzTmp) : IwdzTmp :=
  if s.sync ≠ [] then
    { s with handed := s.handed ++ [s.sync], data := Function.update s.data s.syncIdx [] }
  else s

/-- `iwdz_file_close` -/
def iwdzFileClose (s : IwdzTmp) : IwdzTmp := { iwdzFileWrite s with stat := .none }

inductive IwdzAct
  | append (type : IwdzData) (data : List UInt8) (now : UInt64)
  | write | close
  | create (done : Bool)
  | diskErr
  | setEnable (enable : Bool)
  deriving DecidableEq

/-- A record, or what the writer does; it leaves a file alone that is not open. -/
def iwdzStep (s : IwdzTmp) : IwdzAct → Option IwdzTmp
  | .append type data now => iwdzFileAppend type data now s
  | .write => some (if s.stat = .opened then iwdzFileWrite s else s)
  | .close => some (if s.stat = .opened then iwdzFileClose s else s)
  | .create done => some { s with stat := if done then .opened else .none }
  | .diskErr => some { (if s.stat = .opened then iwdzFileClose s else s) with stat := .none }
  | .setEnable enable => some { s with enable }

/-! ### The bound -/

/-- Records of the length of the callers' buffers at most. -/
def Sized : IwdzAct → Prop
  | .append _ data _ => data.length ≤ 1024 * 64
  | _ => True

/-- A sentence that fits but for its header, while the other buffer waits for the writer. -/
structure Tight (s : IwdzTmp) (data : List UInt8) : Prop where
  enable : s.enable = true
  waits : s.sync ≠ []
  fits : s.cur.length + data.length ≤ iwdzTmpDataSize
  header : iwdzTmpDataSize < s.cur.length + data.length + 10

/-- What holds of the buffers in every run. -/
structure Shape (s : IwdzTmp) : Prop where
  other : s.syncIdx = !s.curIdx
  stamp : s.stamp.length = 8
  bound : ∀ i, (s.data i).length ≤ iwdzTmpDataSize

theorem shape_initial : Shape .initial := ⟨rfl, rfl, fun _ => Nat.zero_le _⟩

variable {s s' : IwdzTmp} {type : IwdzData} {data : List UInt8} {now : UInt64}

theorem update_bound {f : Bool → List UInt8} (bound : ∀ i, (f i).length ≤ iwdzTmpDataSize)
    {i : Bool} {l : List UInt8} (fits : l.length ≤ iwdzTmpDataSize) :
    ∀ j, (Function.update f i l j).length ≤ iwdzTmpDataSize := by
  intro j
  by_cases same : j = i
  · rw [same, Function.update_self]
    exact fits
  · rw [Function.update_of_ne same]
    exact bound j

theorem clear_bound {f : Bool → List UInt8} (bound : ∀ i, (f i).length ≤ iwdzTmpDataSize)
    (i : Bool) : ∀ j, (Function.update f i [] j).length ≤ iwdzTmpDataSize :=
  update_bound bound (Nat.zero_le _)

theorem Shape.stop (shape : Shape s) : Shape (iwdzStop s) := by
  unfold iwdzStop
  by_cases left : s.cur ≠ []
  · rw [if_pos left]
    dsimp only
    split
    · exact ⟨(Bool.not_not _).symm, shape.stamp, clear_bound shape.bound _⟩
    · exact ⟨(Bool.not_not _).symm, shape.stamp,
        clear_bound (clear_bound (clear_bound shape.bound _) _) _⟩
  · rw [if_neg left]
    dsimp only
    split
    · exact shape
    · exact ⟨shape.other, shape.stamp, clear_bound (clear_bound shape.bound _) _⟩

/-- The file may be asked for. -/
theorem iwdzBegin_eq (type : IwdzData) (now : UInt64) (s : IwdzTmp) :
    ∃ stat time, iwdzBegin type now s = { s with stat, time } := by
  unfold iwdzBegin
  split
  · exact ⟨_, _, rfl⟩
  · exact ⟨s.stat, s.time, rfl⟩

theorem Shape.apart (shape : Shape s) : s.syncIdx ≠ s.curIdx := by
  rw [shape.other]
  cases s.curIdx <;> decide

theorem cur_retime (s : IwdzTmp) (stat : FileSt) (time : UInt64) :
    ({ s with stat, time } : IwdzTmp).cur = s.cur := rfl

theorem Shape.retime (shape : Shape s) (stat : FileSt) (time : UInt64) :
    Shape { s with stat, time } := ⟨shape.other, shape.stamp, shape.bound⟩

theorem Shape.swap (shape : Shape s) (now : UInt64) (len : Nat) :
    Shape (iwdzSwap now len s).2 := by
  unfold iwdzSwap
  split
  · dsimp only
    split
    · exact ⟨(Bool.not_not _).symm, shape.stamp, shape.bound⟩
    · exact ⟨shape.other, shape.stamp, shape.bound⟩
  · exact shape

theorem Shape.save (shape : Shape s) (saved : iwdzSave type data s = some s') : Shape s' := by
  unfold iwdzSave at saved
  dsimp only at saved
  split at saved
  next fits =>
    cases saved
    refine ⟨shape.other, ?_, update_bound shape.bound (by rwa [List.length_append])⟩
    dsimp only
    split
    · have eight := shape.stamp
      rw [List.length_append, List.length_take, List.length_drop, eight]
      omega
    · exact shape.stamp
  next => cases saved

theorem Shape.write (shape : Shape s) : Shape (iwdzFileWrite s) := by
  unfold iwdzFileWrite
  split
  · exact ⟨shape.other, shape.stamp, clear_bound shape.bound _⟩
  · exact shape

theorem Shape.restat (shape : Shape s) (stat : FileSt) : Shape { s with stat } :=
  ⟨shape.other, shape.stamp, shape.bound⟩

theorem Shape.step (shape : Shape s) {act : IwdzAct} (step : iwdzStep s act = some s') :
    Shape s' := by
  cases act with
  | append type data now =>
    rw [iwdzStep, iwdzFileAppend] at step
    split at step
    · cases step
      exact shape.stop
    · obtain ⟨stat, time, begin⟩ := iwdzBegin_eq type now s
      have swapped := (shape.retime stat time).swap now data.length
      rw [begin] at step
      split at step
      next s₁ swap =>
        rw [swap] at swapped
        exact swapped.save step
      next s₁ swap =>
        rw [swap] at swapped
        cases step
        exact swapped
  | write =>
    cases step
    split
    · exact shape.write
    · exact shape
  | close =>
    cases step
    split
    · exact shape.write.restat _
    · exact shape
  | create done =>
    cases step
    exact shape.restat _
  | diskErr =>
    cases step
    split
    · exact (shape.write.restat _).restat _
    · exact shape.restat _
  | setEnable enable =>
    cases step
    exact ⟨shape.other, shape.stamp, shape.bound⟩

theorem Shape.run (shape : Shape s) {acts : List IwdzAct}
    (run : acts.foldlM iwdzStep s = some s') : Shape s' := by
  induction acts generalizing s with
  | nil =>
    cases run
    exact shape
  | cons act rest ih =>
    rw [List.foldlM_cons] at run
    obtain ⟨u, step, run⟩ := Option.bind_eq_some_iff.mp run
    exact ih (shape.step step) run

theorem record_length (shape : Shape s) (type : IwdzData) (data : List UInt8) :
    (s.record type data).length = data.length + if type = .can then 0 else 10 := by
  have eight := shape.stamp
  unfold IwdzTmp.record
  split
  · rfl
  · rw [List.length_append, eight, List.length_cons, List.length_cons]
    omega

theorem iwdzSave_fails_iff : iwdzSave type data s = none ↔
    iwdzTmpDataSize < s.cur.length + (s.record type data).length := by
  unfold iwdzSave
  dsimp only
  split
  next fits => exact iff_of_false nofun (Nat.not_lt.mpr fits)
  next full => exact iff_of_true rfl (Nat.not_le.mp full)

/-- A record is saved behind those that are there. -/
theorem save_buffers (shape : Shape s) (step : iwdzSave type data s = some s') :
    s'.handed = s.handed ∧ s'.sync = s.sync ∧ s'.cur = s.cur ++ s.record type data ∧
      s'.accepted = s.accepted ++ [s.record type data] ∧ s'.enable = s.enable := by
  unfold iwdzSave at step
  dsimp only at step
  split at step
  · cases step
    exact ⟨rfl, Function.update_of_ne shape.apart .., Function.update_self .., rfl, rfl⟩
  · cases step

/-- With room for its header a record is saved. -/
theorem iwdzSave_room (shape : Shape s)
    (room : s.cur.length + data.length + 10 ≤ iwdzTmpDataSize) : iwdzSave type data s ≠ none := by
  have most : (if type = .can then 0 else 10) ≤ 10 := by split <;> decide
  rw [Ne, iwdzSave_fails_iff, record_length shape]
  omega

/-- Where the data fits, only the header of a sentence does not. -/
theorem iwdzSave_fits_fails_iff (shape : Shape s) (going : type ≠ .ending)
    (fits : s.cur.length + data.length ≤ iwdzTmpDataSize) : iwdzSave type data s = none ↔
      type = .gnss ∧ iwdzTmpDataSize < s.cur.length + data.length + 10 := by
  rw [iwdzSave_fails_iff, record_length shape]
  cases type with
  | can =>
    rw [if_pos rfl]
    exact iff_of_false (by omega) nofun
  | gnss => rw [if_neg nofun, and_iff_right rfl, Nat.add_assoc]
  | ending => exact absurd rfl going

/-- The buffers stay as they are, change places, or both are in use. -/
theorem iwdzSwap_cases (now : UInt64) (len : Nat) (s : IwdzTmp) :
    (s.cur.length ≤ iwdzTmpDataRsvSize ∧ iwdzSwap now len s = (true, s)) ∨
      (s.sync = [] ∧ iwdzSwap now len s =
        (true, { s with time := now, syncIdx := s.curIdx, curIdx := !s.curIdx })) ∨
      (s.sync ≠ [] ∧ iwdzSwap now len s =
        (decide (s.cur.length + len ≤ iwdzTmpDataSize), { s with time := now })) := by
  have same : ({ s with time := now } : IwdzTmp).sync = s.sync := rfl
  unfold iwdzSwap
  by_cases due : s.cur.length > iwdzTmpDataRsvSize ∨ now - s.time > iwdzTmpTimeout
  · rw [if_pos due]
    dsimp only
    rw [same]
    by_cases empty : s.sync = []
    · rw [if_pos empty]
      exact .inr (.inl ⟨empty, rfl⟩)
    · rw [if_neg empty]
      refine .inr (.inr ⟨empty, ?_⟩)
      rw [decide_eq_decide.mpr Nat.not_lt]
      rfl
  · rw [if_neg due]
    exact .inl ⟨Nat.not_lt.mp (not_or.mp due).1, rfl⟩

/-- Only a GNSS sentence is written behind the buffer, where it fits but for its header. -/
theorem iwdzFileAppend_fails_iff (shape : Shape s) (sized : data.length ≤ 1024 * 64) :
    iwdzFileAppend type data now s = none ↔ type = .gnss ∧ Tight s data := by
  unfold iwdzFileAppend
  by_cases off : s.enable = false ∨ type = .ending
  · rw [if_pos off]
    refine iff_of_false nofun ?_
    rintro ⟨rfl, tight⟩
    rcases off with off | ⟨⟨⟩⟩
    exact absurd (off.symm.trans tight.enable) nofun
  · rw [if_neg off]
    obtain ⟨on, going⟩ := not_or.mp off
    obtain ⟨stat, time, begin⟩ := iwdzBegin_eq type now s
    have shape₁ := shape.retime stat time
    rw [begin]
    have rsv : iwdzTmpDataRsvSize = 65536 := rfl
    have size : iwdzTmpDataSize = 655360 := rfl
    rcases iwdzSwap_cases now data.length { s with stat, time } with
      ⟨few, swap⟩ | ⟨empty, swap⟩ | ⟨waits, swap⟩
    · -- far from the end
      have few : s.cur.length ≤ iwdzTmpDataRsvSize := few
      have room : s.cur.length + data.length + 10 ≤ iwdzTmpDataSize := by omega
      rw [swap]
      refine iff_of_false (iwdzSave_room shape₁ room) fun ⟨_, tight⟩ => ?_
      exact absurd tight.header (Nat.not_lt.mpr room)
    · -- the buffer that was written takes the record
      have shape₂ := shape₁.swap now data.length
      have empty : s.sync = [] := empty
      rw [swap] at shape₂ ⊢
      refine iff_of_false (iwdzSave_room shape₂ ?_) fun ⟨_, tight⟩ => tight.waits empty
      have new : s.data (!s.curIdx) = [] := shape.other ▸ empty
      rw [IwdzTmp.cur, new, List.length_nil]
      omega
    · rw [swap, cur_retime]
      by_cases fits : s.cur.length + data.length ≤ iwdzTmpDataSize
      · rw [decide_eq_true fits]
        have enable : s.enable = true := by simpa using on
        refine (iwdzSave_fits_fails_iff (shape.retime stat now) going fits).trans
          (and_congr_right fun _ => ⟨fun past => ⟨enable, waits, fits, past⟩, Tight.header⟩)
      · rw [decide_eq_false fits]
        exact iff_of_false nofun fun ⟨_, tight⟩ => fits tight.fits

/-- Nothing is ever written behind a buffer exactly if no GNSS sentence comes that fits but for its
header while the other buffer waits for the writer. -/
theorem iwdz_bound_iff (acts : List IwdzAct) (sized : ∀ act ∈ acts, Sized act) :
    (∃ s, acts.foldlM iwdzStep .initial = some s ∧ ∀ i, (s.data i).length ≤ iwdzTmpDataSize) ↔
      ∀ pre data now s, pre ++ [.append .gnss data now] <+: acts →
        pre.foldlM iwdzStep .initial = some s → ¬ Tight s data := by
  have fails : ∀ pre act s, pre ++ [act] <+: acts → pre.foldlM iwdzStep .initial = some s →
      (iwdzStep s act = none ↔ ∃ data now, act = .append .gnss data now ∧ Tight s data) := by
    intro pre act s short run
    have shape := shape_initial.run run
    have size := sized act (short.subset (by simp))
    cases act with
    | append type data now =>
      refine (iwdzFileAppend_fails_iff shape size).trans ⟨?_, ?_⟩
      · rintro ⟨rfl, tight⟩
        exact ⟨data, now, rfl, tight⟩
      · rintro ⟨_, _, ⟨⟩, tight⟩
        exact ⟨rfl, tight⟩
    | write | close | create | diskErr | setEnable => exact iff_of_false nofun nofun
  have bound : (∃ s, acts.foldlM iwdzStep .initial = some s ∧
      ∀ i, (s.data i).length ≤ iwdzTmpDataSize) ↔
      ∃ s, acts.foldlM iwdzStep .initial = some s :=
    ⟨fun ⟨s, run, _⟩ => ⟨s, run⟩, fun ⟨s, run⟩ => ⟨s, run, (shape_initial.run run).bound⟩⟩
  rw [bound, run_exists_iff]
  constructor
  · intro steps pre data now s short run tight
    exact steps pre _ s short run ((fails pre _ s short run).mpr ⟨data, now, rfl, tight⟩)
  · intro loose pre act s short run failed
    obtain ⟨data, now, rfl, tight⟩ := (fails pre act s short run).mp failed
    exact loose pre data now s short run tight

/-- A sentence behind a first record. -/
def firstActs : List IwdzAct :=
  [.setEnable true, .append .can (List.replicate 8 1) 0, .create true, .append .gnss [2, 3] 10]

theorem iwdz_bound_first :
    (firstActs.foldlM iwdzStep .initial).isSome ∧
      ∀ pre data now s, pre ++ [.append .gnss data now] <+: firstActs →
        pre.foldlM iwdzStep .initial = some s → ¬ Tight s data :=
  ⟨rfl, (iwdz_bound_iff firstActs (by simp [Sized, firstActs])).mp ⟨_, rfl, by decide⟩⟩

/-! ### A sentence that is too long by its header -/

/-- CAN records are saved behind each other while the other buffer waits. -/
theorem can_saved (shape : Shape s) (enable : s.enable = true) (waits : s.sync ≠ [])
    (fits : s.cur.length + data.length ≤ iwdzTmpDataSize) (now : UInt64) :
    ∃ s', iwdzFileAppend .can data now s = some s' ∧ Shape s' ∧ s'.enable = true ∧
      s'.sync = s.sync ∧ s'.cur = s.cur ++ data := by
  have save : ∀ stat time, ∃ s', iwdzSave .can data { s with stat, time } = some s' ∧
      Shape s' ∧ s'.enable = true ∧ s'.sync = s.sync ∧ s'.cur = s.cur ++ data := by
    intro stat time
    have shape₁ := shape.retime stat time
    have going : IwdzData.can ≠ .ending := nofun
    have saves : iwdzSave .can data { s with stat, time } ≠ none := fun failed =>
      nomatch ((iwdzSave_fits_fails_iff shape₁ going fits).mp failed).1
    obtain ⟨s', eq⟩ := Option.ne_none_iff_exists'.mp saves
    obtain ⟨-, sync, cur, -, on⟩ := save_buffers shape₁ eq
    exact ⟨s', eq, shape₁.save eq, on.trans enable, sync, cur⟩
  obtain ⟨stat, time, begin⟩ := iwdzBegin_eq .can now s
  rw [iwdzFileAppend, if_neg (by simp [enable]), begin]
  rcases iwdzSwap_cases now data.length { s with stat, time } with
    ⟨-, swap⟩ | ⟨empty, -⟩ | ⟨-, swap⟩
  · rw [swap]
    exact save stat time
  · exact absurd empty waits
  · rw [swap, cur_retime, decide_eq_true fits]
    exact save stat now

theorem cans_saved (n : Nat) (shape : Shape s) (enable : s.enable = true) (waits : s.sync ≠ [])
    (fits : s.cur.length + n * data.length ≤ iwdzTmpDataSize) (now : UInt64) :
    ∃ s', (List.replicate n (.append .can data now)).foldlM iwdzStep s = some s' ∧ Shape s' ∧
      s'.enable = true ∧ s'.sync = s.sync ∧ s'.cur.length = s.cur.length + n * data.length := by
  induction n generalizing s with
  | zero => exact ⟨s, rfl, shape, enable, rfl, by rw [Nat.zero_mul, Nat.add_zero]⟩
  | succ n ih =>
    rw [Nat.succ_mul] at fits ⊢
    have one : s.cur.length + data.length ≤ iwdzTmpDataSize := by omega
    obtain ⟨u, step, shape', enable', sync, cur⟩ := can_saved shape enable waits one now
    have length := congrArg List.length cur
    rw [List.length_append] at length
    obtain ⟨s', run, rest, on, same, total⟩ := ih shape' enable' (sync ▸ waits) (by omega)
    exact ⟨s', run_cons step run, rest, on, same.trans sync, by omega⟩

/-- Two short records, one in each buffer then, ten long ones, and a sentence. -/
def tightActs : List IwdzAct :=
  [.setEnable true, .create true, .append .can (List.replicate 8 1) 3000,
      .append .can (List.replicate 8 2) 6000] ++
    List.replicate 9 (.append .can (List.replicate 65536 3) 6000) ++
    [.append .can (List.replicate 65423 4) 6000] ++ [.append .gnss (List.replicate 100 5) 6000]

theorem sized_replicate (type : IwdzData) (now : UInt64) {n : Nat} (b : UInt8)
    (most : n ≤ 1024 * 64) : Sized (.append type (List.replicate n b) now) := by
  rw [Sized, List.length_replicate]
  exact most

theorem tightActs_sized : ∀ act ∈ tightActs, Sized act := by
  intro act mem
  rcases List.mem_append.mp mem with mem | mem
  · rcases List.mem_append.mp mem with mem | mem
    · rcases List.mem_append.mp mem with mem | mem
      · rcases mem with _ | ⟨_, _ | ⟨_, _ | ⟨_, _ | ⟨_, ⟨⟩⟩⟩⟩⟩
        · trivial
        · trivial
        · exact sized_replicate _ _ _ (by decide)
        · exact sized_replicate _ _ _ (by decide)
      · rw [List.eq_of_mem_replicate mem]
        exact sized_replicate _ _ _ (by decide)
    · rw [List.mem_singleton.mp mem]
      exact sized_replicate _ _ _ (by decide)
  · rw [List.mem_singleton.mp mem]
    exact sized_replicate _ _ _ (by decide)

/-- The records before the sentence fill the buffer to 105 bytes, and the other one waits. -/
theorem tightActs_fill : ∃ pre s, tightActs = pre ++ [.append .gnss (List.replicate 100 5) 6000] ∧
    pre.foldlM iwdzStep .initial = some s ∧ Shape s ∧ Tight s (List.replicate 100 5) := by
  have size : iwdzTmpDataSize = 655360 := rfl
  obtain ⟨s₁, first, enable₁, sync₁, cur₁⟩ : ∃ s₁, [IwdzAct.setEnable true, .create true,
      .append .can (List.replicate 8 1) 3000, .append .can (List.replicate 8 2) 6000].foldlM
        iwdzStep .initial = some s₁ ∧ s₁.enable = true ∧ s₁.sync ≠ [] ∧ s₁.cur.length = 8 :=
    ⟨_, rfl, rfl, by decide, rfl⟩
  have nine : s₁.cur.length + 9 * (List.replicate 65536 (3 : UInt8)).length ≤ iwdzTmpDataSize := by
    rw [List.length_replicate]
    omega
  obtain ⟨s₂, second, shape₂, enable₂, sync₂, cur₂⟩ :=
    cans_saved 9 (shape_initial.run first) enable₁ sync₁ nine 6000
  rw [List.length_replicate] at cur₂
  have last : s₂.cur.length + (List.replicate 65423 (4 : UInt8)).length ≤ iwdzTmpDataSize := by
    rw [List.length_replicate]
    omega
  obtain ⟨s₃, third, shape₃, enable₃, sync₃, cur₃⟩ :=
    can_saved shape₂ enable₂ (sync₂ ▸ sync₁) last 6000
  have fill := congrArg List.length cur₃
  rw [List.length_append, List.length_replicate] at fill
  have hundred : (List.replicate 100 (5 : UInt8)).length = 100 := List.length_replicate
  have before : [IwdzAct.append .can (List.replicate 65423 4) 6000].foldlM iwdzStep s₂ =
      some s₃ := by
    rw [List.foldlM_cons, iwdzStep, third]
    rfl
  exact ⟨_, s₃, rfl, run_append (run_append first second) before, shape₃, enable₃,
    sync₃ ▸ sync₂ ▸ sync₁, by omega, by omega⟩

theorem iwdz_overflows :
    (∀ act ∈ tightActs, Sized act) ∧ tightActs.foldlM iwdzStep .initial = none := by
  refine ⟨tightActs_sized, ?_⟩
  obtain ⟨pre, s, acts, run, shape, tight⟩ := tightActs_fill
  have fails : iwdzFileAppend .gnss (List.replicate 100 5) 6000 s = none :=
    (iwdzFileAppend_fails_iff shape (by rw [List.length_replicate]; decide)).mpr ⟨rfl, tight⟩
  rw [acts, List.foldlM_append, run]
  exact congrArg (· >>= some) fails

end Iwdz
