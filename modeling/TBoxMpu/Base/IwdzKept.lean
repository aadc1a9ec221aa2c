import TBoxMpu.Base.Iwdz

/-!
# Nothing of the recording is lost

The records saved, against the buffers given to `dsu_write_fb`. A stop puts the current buffer in
the place of the other one and empties that one, also while the writer has not come to it.

## Main result

`iwdz_loses_nothing`: while every stop comes to an open file with one of the buffers empty, the
records saved are those handed over and those of the two buffers, in order, and the close behind a
stop hands over all that was saved before it.

## Proof strategy

1. `Kept` is what holds between any two steps; where the buffers change places, one is empty
2. From a stop on, what was saved before it is handed over or waits in the other buffer
-/

namespace Iwdz

open Runs

/-- A call of `iwdz_file_append` that ends the recording. -/
def Stops (s : IwdzTmp) : IwdzAct → Prop
  | .append type _ _ => s.enable = false ∨ type = .ending
  | _ => False

/-- A stop finds the file open, and one of the buffers empty. -/
def StopsWell (s : IwdzTmp) (act : IwdzAct) : Prop :=
  Stops s act → s.stat = .opened ∧ (s.sync = [] ∨ s.cur = [])

instance (s : IwdzTmp) : ∀ act, Decidable (Stops s act)
  | .append type _ _ => inferInstanceAs (Decidable (s.enable = false ∨ type = .ending))
  | .write | .close | .create _ | .diskErr | .setEnable _ => inferInstanceAs (Decidable False)

instance (s : IwdzTmp) (act : IwdzAct) : Decidable (StopsWell s act) :=
  inferInstanceAs (Decidable (Stops s act → s.stat = .opened ∧ (s.sync = [] ∨ s.cur = [])))

/-- The steps of the recording, its stops as they should be. -/
def iwdzRun : IwdzTmp → IwdzAct → IwdzTmp → Prop :=
  Guarded StopsWell fun s act s' => iwdzStep s act = some s'

/-- What is handed over, and behind it what is in the buffers, is what was saved. -/
structure Kept (s : IwdzTmp) : Prop where
  shape : Shape s
  order : s.handed.flatten ++ s.sync ++ s.cur = s.accepted.flatten

/-- What was saved up to some time is handed over, or waits in the other buffer. -/
structure Waits (saved : List UInt8) (s : IwdzTmp) : Prop where
  shape : Shape s
  order : saved <+: s.handed.flatten ++ s.sync

variable {s s' : IwdzTmp} {type : IwdzData} {data : List UInt8} {now : UInt64} {saved : List UInt8}

theorem kept_initial : Kept .initial := ⟨shape_initial, rfl⟩

/-! ### The buffers in a step -/

theorem write_buffers (shape : Shape s) :
    (iwdzFileWrite s).handed.flatten = s.handed.flatten ++ s.sync ∧ (iwdzFileWrite s).sync = [] ∧
      (iwdzFileWrite s).cur = s.cur ∧ (iwdzFileWrite s).accepted = s.accepted := by
  unfold iwdzFileWrite
  by_cases empty : s.sync = []
  · rw [if_neg (not_not.mpr empty), empty, List.append_nil]
    exact ⟨rfl, rfl, rfl, rfl⟩
  · rw [if_pos empty]
    refine ⟨?_, Function.update_self .., ?_, rfl⟩
    · rw [List.flatten_append, List.flatten_singleton]
    · unfold IwdzTmp.cur
      dsimp only
      rw [Function.update_of_ne shape.apart.symm]

/-- A stop that is as it should be empties the current buffer and loses nothing. -/
theorem stop_buffers (opened : s.stat = .opened) (one : s.sync = [] ∨ s.cur = []) :
    (iwdzStop s).handed = s.handed ∧ (iwdzStop s).sync = s.sync ++ s.cur ∧
      (iwdzStop s).cur = [] ∧ (iwdzStop s).accepted = s.accepted := by
  unfold iwdzStop
  by_cases left : s.cur = []
  · rw [if_neg (not_not.mpr left)]
    dsimp only
    rw [if_pos opened, left, List.append_nil]
    exact ⟨rfl, rfl, rfl, rfl⟩
  · rw [if_pos left]
    dsimp only
    rw [if_pos opened, one.resolve_right left, List.nil_append]
    refine ⟨rfl, ?_, Function.update_self .., rfl⟩
    unfold IwdzTmp.sync
    dsimp only
    rw [Function.update_of_ne (by cases s.curIdx <;> decide)]
    rfl

/-- Before a record is saved the buffers stay, or change places while one is empty. -/
theorem room_buffers (shape : Shape s) (type : IwdzData) (now : UInt64) (len : Nat) :
    ∃ go s', iwdzSwap now len (iwdzBegin type now s) = (go, s') ∧ Shape s' ∧
      s'.handed = s.handed ∧ s'.accepted = s.accepted ∧
        (s'.sync = s.sync ∧ s'.cur = s.cur ∨ s.sync = [] ∧ s'.sync = s.cur ∧ s'.cur = []) := by
  obtain ⟨stat, time, begin⟩ := iwdzBegin_eq type now s
  have shape₁ := (shape.retime stat time).swap now len
  rw [begin]
  rcases iwdzSwap_cases now len { s with stat, time } with
    ⟨-, swap⟩ | ⟨empty, swap⟩ | ⟨-, swap⟩
  · rw [swap] at shape₁ ⊢
    exact ⟨_, _, rfl, shape₁, rfl, rfl, .inl ⟨rfl, rfl⟩⟩
  · rw [swap] at shape₁ ⊢
    refine ⟨_, _, rfl, shape₁, rfl, rfl, .inr ⟨empty, rfl, ?_⟩⟩
    rw [IwdzTmp.cur, ← shape.other]
    exact empty
  · rw [swap] at shape₁ ⊢
    exact ⟨_, _, rfl, shape₁, rfl, rfl, .inl ⟨rfl, rfl⟩⟩

/-! ### Steps -/

/-- What an append does to the buffers, in terms of all that a record may be kept in. -/
theorem append_buffers (shape : Shape s) (well : StopsWell s (.append type data now))
    (step : iwdzFileAppend type data now s = some s') :
    ∃ records, s'.handed = s.handed ∧ s'.accepted = s.accepted ++ records ∧
      s'.sync ++ s'.cur = s.sync ++ s.cur ++ records.flatten ∧ s.sync <+: s'.sync := by
  unfold iwdzFileAppend at step
  by_cases stops : s.enable = false ∨ type = .ending
  · rw [if_pos stops] at step
    cases step
    obtain ⟨opened, one⟩ := well stops
    obtain ⟨handed, sync, cur, accepted⟩ := stop_buffers opened one
    refine ⟨[], handed, accepted.trans (List.append_nil _).symm, ?_, ?_⟩
    · rw [sync, cur]
      rfl
    · rw [sync]
      exact List.prefix_append ..
  · rw [if_neg stops] at step
    obtain ⟨go, s₁, swap, shape₁, handed, accepted, places⟩ :=
      room_buffers shape type now data.length
    rw [swap] at step
    have both : s₁.sync ++ s₁.cur = s.sync ++ s.cur := by
      rcases places with ⟨sync, cur⟩ | ⟨empty, sync, cur⟩
      · rw [sync, cur]
      · rw [sync, cur, empty, List.append_nil, List.nil_append]
    have waiting : s.sync <+: s₁.sync := by
      rcases places with ⟨sync, -⟩ | ⟨empty, -, -⟩
      · exact sync ▸ List.prefix_refl _
      · rw [empty]
        exact List.nil_prefix
    cases go with
    | true =>
      obtain ⟨handed', sync, cur, accepted', -⟩ := save_buffers shape₁ step
      refine ⟨[s₁.record type data], handed'.trans handed, accepted' ▸ accepted ▸ rfl, ?_,
        sync ▸ waiting⟩
      rw [sync, cur, ← List.append_assoc, both, List.flatten_singleton]
    | false =>
      cases step
      refine ⟨[], handed, accepted.trans (List.append_nil _).symm, ?_, waiting⟩
      rw [both]
      exact (List.append_nil _).symm

/-- A step of the writer. -/
theorem writer_buffers (shape : Shape s) {act : IwdzAct}
    (writer : ∀ type data now, act ≠ .append type data now) (step : iwdzStep s act = some s') :
    s'.handed.flatten ++ s'.sync = s.handed.flatten ++ s.sync ∧ s'.cur = s.cur ∧
      s'.accepted = s.accepted := by
  obtain ⟨handed, sync, cur, accepted⟩ := write_buffers shape
  have written : (iwdzFileWrite s).handed.flatten ++ (iwdzFileWrite s).sync =
      s.handed.flatten ++ s.sync := by
    rw [handed, sync, List.append_nil]
  cases act with
  | append type data now => exact absurd rfl (writer type data now)
  | write =>
    cases step
    split
    · exact ⟨written, cur, accepted⟩
    · exact ⟨rfl, rfl, rfl⟩
  | close =>
    cases step
    split
    · exact ⟨written, cur, accepted⟩
    · exact ⟨rfl, rfl, rfl⟩
  | create done =>
    cases step
    exact ⟨rfl, rfl, rfl⟩
  | diskErr =>
    cases step
    split
    · exact ⟨written, cur, accepted⟩
    · exact ⟨rfl, rfl, rfl⟩
  | setEnable enable =>
    cases step
    exact ⟨rfl, rfl, rfl⟩

theorem Kept.step (kept : Kept s) {act : IwdzAct} (step : iwdzRun s act s') : Kept s' := by
  obtain ⟨well, step⟩ := step
  refine ⟨kept.shape.step step, ?_⟩
  have order := kept.order
  by_cases append : ∃ type data now, act = .append type data now
  · obtain ⟨type, data, now, rfl⟩ := append
    obtain ⟨records, handed, accepted, both, -⟩ := append_buffers kept.shape well step
    rw [handed, accepted, List.append_assoc, both, List.flatten_append, ← order]
    simp only [List.append_assoc]
  · obtain ⟨handed, cur, accepted⟩ := writer_buffers kept.shape
      (fun type data now same => append ⟨type, data, now, same⟩) step
    rw [handed, cur, accepted]
    exact order

theorem Waits.step (waits : Waits saved s) {act : IwdzAct} (step : iwdzRun s act s') :
    Waits saved s' := by
  obtain ⟨well, step⟩ := step
  refine ⟨waits.shape.step step, ?_⟩
  by_cases append : ∃ type data now, act = .append type data now
  · obtain ⟨type, data, now, rfl⟩ := append
    obtain ⟨records, handed, -, -, longer⟩ := append_buffers waits.shape well step
    rw [handed]
    exact waits.order.trans ((List.prefix_append_right_inj _).mpr longer)
  · obtain ⟨handed, -, -⟩ := writer_buffers waits.shape
      (fun type data now same => append ⟨type, data, now, same⟩) step
    rw [handed]
    exact waits.order

/-- Behind a stop everything saved before it waits in the other buffer. -/
theorem Kept.stop (kept : Kept s) {act : IwdzAct} (stops : Stops s act)
    (step : iwdzRun s act s') : Waits s.accepted.flatten s' := by
  obtain ⟨well, step⟩ := step
  refine ⟨kept.shape.step step, ?_⟩
  cases act with
  | append type data now =>
    have off : s.enable = false ∨ type = .ending := stops
    rw [iwdzStep, iwdzFileAppend, if_pos off] at step
    cases step
    obtain ⟨opened, one⟩ := well stops
    obtain ⟨handed, sync, -, -⟩ := stop_buffers opened one
    exact ⟨[], by rw [List.append_nil, handed, sync, ← List.append_assoc, kept.order]⟩
  | write | close | create | diskErr | setEnable => exact absurd stops id

/-- While each stop comes to an open file with one of the buffers empty, nothing is lost. -/
theorem iwdz_loses_nothing (reach : Reach (· = .initial) iwdzRun s) :
    s.handed.flatten ++ s.sync ++ s.cur = s.accepted.flatten ∧
      ∀ act s', Stops s act → iwdzRun s act s' → ∀ s'', Reach (· = s') iwdzRun s'' →
        s''.stat = .opened → ∀ closed, iwdzStep s'' .close = some closed →
          s.accepted.flatten <+: closed.handed.flatten := by
  have kept : Kept s := reach.invariant (fun _ start => start ▸ kept_initial)
    fun _ _ _ kept step => kept.step step
  refine ⟨kept.order, fun act s' stops step s'' later opened closed close => ?_⟩
  have waits : Waits s.accepted.flatten s'' := later.invariant
    (fun _ start => start ▸ kept.stop stops step) fun _ _ _ waits step => waits.step step
  rw [iwdzStep, if_pos opened] at close
  cases close
  exact (write_buffers waits.shape).1 ▸ waits.order

/-- The writer comes to the first buffer before the stop. -/
def writtenActs : List IwdzAct :=
  [.setEnable true, .append .can (List.replicate 8 1) 0, .create true,
    .append .can (List.replicate 8 2) 3000, .write, .append .ending [] 3001, .close]

theorem iwdz_loses_nothing_written :
    ∃ s, writtenActs.foldlM iwdzStep .initial = some s ∧
      s.handed.flatten ++ s.sync ++ s.cur = List.replicate 8 1 ++ List.replicate 8 2 := by
  have start : Reach (· = .initial) iwdzRun .initial := .start rfl
  exact ⟨_, rfl, (iwdz_loses_nothing (start.run_checked writtenActs rfl)).1⟩

/-- It does not: the record in that buffer is lost. -/
def unwrittenActs : List IwdzAct :=
  [.setEnable true, .append .can (List.replicate 8 1) 0, .create true,
    .append .can (List.replicate 8 2) 3000, .append .ending [] 3001, .close]

theorem iwdz_loses :
    ∃ s, unwrittenActs.foldlM iwdzStep .initial = some s ∧ s.handed = [List.replicate 8 2] ∧
      s.sync = [] ∧ s.cur = [] ∧ s.accepted = [List.replicate 8 1, List.replicate 8 2] :=
  ⟨_, rfl, rfl, rfl, rfl, rfl⟩

end Iwdz
