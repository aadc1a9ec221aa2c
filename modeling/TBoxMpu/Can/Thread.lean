import TBoxMpu.Can.DataIn

/-!
# The thread of the CAN bus

`can_main`: messages of the power manager and of the bus timer, and a read of the controller behind
each message. The abstract model is a bus that is asleep, quiet or active, and that forwards frames
one by one; the baud rates and the DBC file are left out.
-/

namespace Can

/-! ### The thread -/

/-- What the messages to the thread amount to: `PM_MSG_SLEEP`, `PM_MSG_EMERGENCY` and `PM_MSG_OFF`
are one, and so are those that leave the state alone. -/
inductive ThreadMsg
  | timeout
  | sleep
  | running
  | stop
  | run
  | other
  deriving DecidableEq

/-- `can_stat_t` with `sleep` and `canfd >= 0`, and `can_sleep`. -/
structure CanThread where
  stat : CanStat
  sleep : Bool
  canfd : Bool
  canSleep : Bool

/-- A turn of the loop: the message, if it was received, whether `open` succeeds where it is called,
and the messages that `read` brings. -/
structure Turn where
  msg : Option ThreadMsg
  opened : Bool
  got : List CanMsg
  now : UInt32

def zeroMsg : CanMsg := ⟨0, 0, 0, 0, fun _ => 0⟩

/-- `memset(state->rawmsg, 0, sizeof(state->rawmsg))` -/
def clearRaw (state : CanStat) : CanStat :=
  { state with rawmsg := state.rawmsg.map fun port => port.map fun _ => zeroMsg }

def canDoTimeout (t : CanThread) : CanThread :=
  let state := if t.stat.active then clearRaw { t.stat with active := false } else t.stat
  { t with stat := if t.sleep then state else canDoCallback state (.timeout state.uptime) }

def canDoSleep (t : CanThread) : CanThread :=
  if t.sleep then t
  else
    let state := if t.stat.active then clearRaw { t.stat with active := false, tm := none }
      else t.stat
    { stat := canDoCallback state .sleep, sleep := true, canfd := false, canSleep := true }

def canDoWakeup (t : CanThread) : CanThread :=
  if t.sleep then { t with stat := canDoCallback t.stat .wakeup, sleep := false, canSleep := false }
  else t

def canDoReceive (t : CanThread) (turn : Turn) : CanThread :=
  if t.canfd then { t with stat := canDoDatain turn.now t.stat turn.got }
  else if turn.opened then
    { t with
      canfd := true
      stat := canDoDatain turn.now { t.stat with tm := some canBusTimeout } turn.got }
  else t

def canDoMsg (t : CanThread) : Option ThreadMsg → CanThread
  | some .timeout => canDoTimeout t
  | some .sleep => canDoSleep t
  | some .running => canDoWakeup t
  | some .stop => { t with stat := { t.stat with stop := true } }
  | some .run => { t with stat := { t.stat with stop := false } }
  | some .other | none => t

/-- A turn of `can_main`. -/
def canMain (t : CanThread) (turn : Turn) : CanThread :=
  let t := canDoMsg t turn.msg
  if t.sleep then t else canDoReceive t turn

/-- `state` is all 0, with `canfd` -1. -/
def CanThread.start (registered : Nat) : CanThread where
  stat := ⟨false, false, List.replicate canMaxPort 0,
    List.replicate canMaxPort (List.replicate canMaxRawsize zeroMsg), none, 0,
    List.replicate canMaxPort 0, 0xffffffff, 0, registered, []⟩
  sleep := false
  canfd := false
  canSleep := false

/-! ### The bus -/

inductive Phase
  | asleep
  | quiet
  | active
  deriving DecidableEq

/-- The order in which a receiver may be called back. -/
def Phase.next : Phase → CanEvent → Option Phase
  | .asleep, .wakeup => some .quiet
  | .quiet, .active => some .active
  | .quiet, .timeout _ | .active, .timeout _ => some .quiet
  | .quiet, .sleep | .active, .sleep => some .asleep
  | .quiet, .datain _ => some .quiet
  | .active, .datain _ => some .active
  | _, _ => none

/-- The bus as its users see it. -/
structure Bus where
  phase : Phase
  opened : Bool
  stop : Bool
  uptime : UInt32

/-- A frame from one of the ports. -/
def CanMsg.isBus (m : CanMsg) : Bool :=
  decide (m.type = 0x43 ∧ ¬ (m.port < 1 ∨ m.port.toNat > canMaxPort))

/-- While forwarding is stopped only ticks are forwarded. -/
def Bus.forwards (b : Bus) (got : List CanMsg) : List CanMsg :=
  if b.stop then got.filter CanMsg.isTick else got

/-- Frames make a quiet bus active, and what is forwarded is told one by one. -/
def Bus.receive (b : Bus) (got : List CanMsg) : List CanEvent × Bus :=
  let wakes := b.stop = false ∧ got.any CanMsg.isBus = true
  ((if wakes ∧ b.phase = .quiet then [CanEvent.active] else []) ++
      (b.forwards got).map fun m => .datain [m],
    { b with
      phase := if wakes then .active else b.phase
      uptime := (b.forwards got).getLast?.elim b.uptime CanMsg.uptime })

def Bus.message (b : Bus) : Option ThreadMsg → List CanEvent × Bus
  | some .timeout =>
    if b.phase = .asleep then ([], b) else ([.timeout b.uptime], { b with phase := .quiet })
  | some .sleep =>
    if b.phase = .asleep then ([], b)
    else ([.sleep], { b with phase := .asleep, opened := false })
  | some .running =>
    if b.phase = .asleep then ([.wakeup], { b with phase := .quiet }) else ([], b)
  | some .stop => ([], { b with stop := true })
  | some .run => ([], { b with stop := false })
  | some .other | none => ([], b)

/-- A turn: a bus that is asleep, or that does not open, receives nothing. -/
def Bus.turn (b : Bus) (turn : Turn) : List CanEvent × Bus :=
  let (told, b) := b.message turn.msg
  if b.phase = .asleep then (told, b)
  else if b.opened || turn.opened then
    let (more, b) := { b with opened := true }.receive turn.got
    (told ++ more, b)
  else (told, b)

def Bus.run : Bus → List Turn → List CanEvent × Bus
  | b, [] => ([], b)
  | b, turn :: turns =>
    let (told, b) := b.turn turn
    let (more, b) := b.run turns
    (told ++ more, b)

def Bus.start : Bus := ⟨.quiet, false, false, 0⟩

/-- An event frame by frame. -/
def spell : CanEvent → List CanEvent
  | .datain msgs => msgs.map fun m => .datain [m]
  | event => [event]

/-- The bus that a thread stands for. -/
def CanThread.bus (t : CanThread) : Bus where
  phase := if t.sleep then .asleep else if t.stat.active then .active else .quiet
  opened := t.canfd
  stop := t.stat.stop
  uptime := t.stat.uptime

/-! ### Reading -/

variable {state : CanStat}

/-- What the bus sees of a receiver. -/
structure Seen (state : CanStat) (active : Bool) (uptime : UInt32) : Prop where
  active : state.active = active
  uptime : state.uptime = uptime

theorem seen_putraw (now : UInt32) (rawcnt : Nat) (state : CanStat) (msglst : List CanMsg) :
    (canPutraw now rawcnt state msglst).1 = rawcnt + msglst.countP CanMsg.isBus ∧
      Seen (canPutraw now rawcnt state msglst).2 state.active state.uptime := by
  induction msglst generalizing rawcnt state with
  | nil => exact ⟨rfl, rfl, rfl⟩
  | cons m rest ih =>
    have one : (canPutrawMsg now state m).1 = m.isBus ∧
        Seen (canPutrawMsg now state m).2 state.active state.uptime := by
      unfold canPutrawMsg CanMsg.isBus
      split
      next frame =>
        split
        next outside => exact ⟨(decide_eq_false fun both => both.2 outside).symm, rfl, rfl⟩
        next inside => exact ⟨(decide_eq_true ⟨frame, inside⟩).symm, rfl, rfl⟩
      next other => exact ⟨(decide_eq_false fun both => other both.1).symm, rfl, rfl⟩
    obtain ⟨counted, active, uptime⟩ := one
    obtain ⟨count, last⟩ := ih
      (if (canPutrawMsg now state m).1 then rawcnt + 1 else rawcnt) (canPutrawMsg now state m).2
    refine ⟨?_, active ▸ uptime ▸ last⟩
    refine count.trans ?_
    rw [counted, List.countP_cons]
    split <;> omega

/-- The first frames make the bus active. -/
theorem raw_told (now : UInt32) (running : state.stop = false) (msglst : List CanMsg) :
    Handed state (if msglst.any CanMsg.isBus = true ∧ state.active = false then [.active] else [])
        (datainRaw now state msglst) ∧
      Seen (datainRaw now state msglst) (state.active || msglst.any CanMsg.isBus)
        state.uptime := by
  have put := handed_putraw now 0 state msglst
  obtain ⟨count, active, uptime⟩ := seen_putraw now 0 state msglst
  have going : ¬ state.stop = true := by rw [running]; decide
  unfold datainRaw
  simp only [if_neg going]
  generalize canPutraw now 0 state msglst = result at put count active uptime ⊢
  obtain ⟨rawcnt, state'⟩ := result
  dsimp only at put count active uptime ⊢
  rw [Nat.zero_add] at count
  have woken : Handed state [] { state' with tm := some canBusTimeout, active := true } :=
    ⟨put.calls, put.stop, put.registered⟩
  have frames : 0 < rawcnt ↔ msglst.any CanMsg.isBus = true := by
    rw [count, List.countP_pos_iff, List.any_eq_true]
  by_cases some : 0 < rawcnt
  · simp only [if_pos some, active, frames.mp some, Bool.or_true, true_and]
    cases before : state.active with
    | true => exact ⟨woken, rfl, uptime⟩
    | false => exact ⟨woken.trans (handed_callback _ _), rfl, uptime⟩
  · have none' : msglst.any CanMsg.isBus = false := by
      rw [← Bool.not_eq_true, ← frames]
      exact some
    simp only [if_neg some, none', Bool.or_false, Bool.false_eq_true, false_and, if_false]
    exact ⟨put, active, uptime⟩

variable {msglst : List CanMsg}

/-- The loop moves the time to the last tick. -/
theorem seen_loop (state : CanStat) (msglst rest : List CanMsg) (msg first : Nat) :
    Seen (datainLoop msglst rest msg first state).2 state.active
      ((rest.filter CanMsg.isTick).getLast?.elim state.uptime CanMsg.uptime) := by
  induction rest generalizing state msg first with
  | nil => exact ⟨rfl, rfl⟩
  | cons m rest ih =>
    unfold datainLoop
    by_cases tick : m.isTick = true
    · rw [if_pos tick, List.filter_cons_of_pos tick, List.getLast?_cons]
      refine ⟨(ih _ _ _).active, (ih _ _ _).uptime.trans ?_⟩
      cases (rest.filter CanMsg.isTick).getLast? <;> rfl
    · rw [if_neg tick, List.filter_cons_of_neg tick]
      exact ih state _ _

theorem last_filter {p : CanMsg → Bool} {m : CanMsg} (last : msglst.getLast? = some m)
    (kept : p m = true) : (msglst.filter p).getLast? = some m := by
  obtain ⟨front, rfl⟩ := List.getLast?_eq_some_iff.mp last
  rw [List.filter_append, List.filter_singleton, kept]
  exact List.getLast?_concat

/-- Batches that end with ticks end with the last tick. -/
theorem last_batch {batches : List (List CanMsg)} (whole : batches.flatten = msglst)
    (ends : ∀ b ∈ batches, ∃ m, b.getLast? = some m ∧ m.isTick) :
    (msglst.filter CanMsg.isTick).getLast? = msglst.getLast? := by
  rcases List.eq_nil_or_concat batches with rfl | ⟨front, b, rfl⟩
  · rw [← whole]
    rfl
  · obtain ⟨m, last, tick⟩ := ends b (by simp)
    obtain ⟨start, rfl⟩ := List.getLast?_eq_some_iff.mp last
    have same : msglst.getLast? = some m := by
      rw [← whole, List.concat_eq_append, List.flatten_append, List.flatten_singleton,
        ← List.append_assoc, List.getLast?_concat]
    rw [last_filter same tick, same]

/-- What is read goes out in batches, behind the notice that the bus is active. -/
theorem datain_told (now : UInt32) (state : CanStat) (msglst : List CanMsg) :
    ∃ batches : List (List CanMsg), Handed state
        ((if state.stop = false ∧ msglst.any CanMsg.isBus = true ∧ state.active = false
          then [.active] else []) ++ batches.map .datain) (canDoDatain now state msglst) ∧
      batches.flatten = (if state.stop then msglst.filter CanMsg.isTick else msglst) ∧
      Seen (canDoDatain now state msglst)
        (state.active || (!state.stop && msglst.any CanMsg.isBus))
        ((if state.stop then msglst.filter CanMsg.isTick else msglst).getLast?.elim state.uptime
          CanMsg.uptime) := by
  cases stop : state.stop with
  | true =>
    refine ⟨(msglst.filter CanMsg.isTick).map fun m => [m], ?_, ?_, ?_⟩
    · have handed := datain_stopped now stop msglst
      simp only [Bool.true_eq_false, false_and, if_false, List.nil_append, List.map_map]
      exact handed
    · rw [← List.flatMap_def, if_pos rfl]
      exact List.flatMap_singleton' _
    · have raw : datainRaw now state msglst = state := if_pos stop
      have seen := seen_loop state msglst msglst 0 0
      have loop := datainLoop_stopped stop msglst msglst 0 0
      unfold canDoDatain
      rw [raw]
      generalize datainLoop msglst msglst 0 0 state = result at seen loop ⊢
      obtain ⟨first, last⟩ := result
      dsimp only at seen loop ⊢
      rw [if_neg fun both => Bool.false_ne_true (both.1.symm.trans (loop.stop.trans stop))]
      simpa using seen
  | false =>
    obtain ⟨raw, active, uptime⟩ := raw_told now stop msglst
    simp only [Bool.false_eq_true, if_false, Bool.not_false, Bool.true_and, true_and]
    generalize (if msglst.any CanMsg.isBus = true ∧ state.active = false then
      [CanEvent.active] else []) = early at raw ⊢
    unfold canDoDatain
    generalize datainRaw now state msglst = begun at raw active uptime ⊢
    obtain ⟨batches, handed, flat, inside, ends⟩ :=
      datainLoop_running (raw.stop.trans stop) (show msglst.drop 0 = msglst from rfl)
        (Nat.le_refl 0) (Nat.zero_le _)
    have seen := seen_loop begun msglst msglst 0 0
    have loop := raw.trans handed
    generalize datainLoop msglst msglst 0 0 begun = result at loop flat inside seen ⊢
    obtain ⟨first, last⟩ := result
    dsimp only at loop flat inside seen ⊢
    rw [List.drop_zero] at flat
    by_cases tail : first = msglst.length
    · rw [if_neg fun both => both.2 tail]
      rw [tail, List.drop_length, List.append_nil] at flat
      refine ⟨batches, loop, flat, seen.active.trans active, seen.uptime.trans ?_⟩
      rw [last_batch flat ends, uptime]
    · have some : msglst.drop first ≠ [] := fun nil =>
        tail (Nat.le_antisymm inside (List.drop_eq_nil_iff.mp nil))
      have rest : (msglst.drop first).take (msglst.length - first) = msglst.drop first := by
        rw [← List.length_drop, List.take_length]
      have timed : Handed last []
          { last with uptime := msglst.getLast?.elim last.uptime CanMsg.uptime } :=
        ⟨(List.append_nil _).symm, rfl, rfl⟩
      have final := loop.trans (timed.trans
        (handed_callback { last with uptime := msglst.getLast?.elim last.uptime CanMsg.uptime }
          (.datain (msglst.drop first))))
      rw [if_pos ⟨loop.stop.trans stop, tail⟩, rest]
      refine ⟨batches ++ [msglst.drop first], ?_, ?_, seen.active.trans active, ?_⟩
      · rw [List.map_append, ← List.append_assoc]
        exact final
      · rw [List.flatten_append, List.flatten_singleton, flat]
      · have nonempty : msglst ≠ [] := by
          rintro rfl
          exact some List.drop_nil
        show msglst.getLast?.elim last.uptime CanMsg.uptime = _
        rw [List.getLast?_eq_some_getLast nonempty]
        rfl

/-! ### The thread is the bus -/

variable {t t' t'' : CanThread} {evts evts' : List CanEvent} {turn : Turn}

/-- A thread that is asleep is not active, and answers the power manager so. -/
structure CanThread.Good (t : CanThread) : Prop where
  idle : t.sleep = true → t.stat.active = false
  answer : t.canSleep = t.sleep

/-- What the thread did: every receiver was called back with the events, in an order that is
allowed; frame by frame they are what the bus tells. -/
structure Acts (t : CanThread) (evts : List CanEvent) (result : List CanEvent × Bus)
    (t' : CanThread) : Prop where
  calls : t'.stat.calls =
    t.stat.calls ++ evts.flatMap fun evt => t.stat.receivers.map (·, evt)
  registered : t'.stat.registered = t.stat.registered
  spelled : evts.flatMap spell = result.1
  bus : t'.bus = result.2
  order : evts.foldlM Phase.next t.bus.phase = some t'.bus.phase
  good : t'.Good

theorem Acts.trans {told more : List CanEvent} {b b' : Bus} (first : Acts t evts (told, b) t')
    (second : Acts t' evts' (more, b') t'') : Acts t (evts ++ evts') (told ++ more, b') t'' := by
  have receivers : t'.stat.receivers = t.stat.receivers := by
    unfold CanStat.receivers
    rw [first.registered]
  refine ⟨?_, second.registered.trans first.registered, ?_, second.bus, ?_, second.good⟩
  · rw [second.calls, first.calls, receivers, List.flatMap_append, List.append_assoc]
  · rw [List.flatMap_append, first.spelled, second.spelled]
  · rw [List.foldlM_append, first.order]
    exact second.order

theorem acts_nothing (good : t.Good) : Acts t [] ([], t.bus) t :=
  ⟨(List.append_nil _).symm, rfl, rfl, rfl, rfl, good⟩

/-- One call back. -/
theorem acts_callback {evt : CanEvent} {b : Bus}
    (calls : t'.stat.calls = t.stat.calls ++ t.stat.receivers.map (·, evt))
    (registered : t'.stat.registered = t.stat.registered) (plain : spell evt = [evt])
    (bus : t'.bus = b) (order : t.bus.phase.next evt = some t'.bus.phase) (good : t'.Good) :
    Acts t [evt] ([evt], b) t' := by
  refine ⟨?_, registered, ?_, bus, ?_, good⟩
  · rw [calls, List.flatMap_singleton]
  · rw [List.flatMap_singleton, plain]
  · rw [List.foldlM_cons, order]
    rfl

theorem bus_asleep (asleep : t.sleep = true) : t.bus.phase = .asleep := by
  simp only [CanThread.bus, asleep, if_true]

theorem bus_awake (awake : t.sleep = false) :
    t.bus.phase = if t.stat.active then .active else .quiet := by
  simp only [CanThread.bus, awake, Bool.false_eq_true, if_false]

theorem bus_awake_ne (awake : t.sleep = false) : t.bus.phase ≠ .asleep := by
  rw [bus_awake awake]
  split <;> decide

/-- A bus that is awake may be told of a time-out, and may be put to sleep. -/
theorem next_awake {p : Phase} (awake : p ≠ .asleep) (uptime : UInt32) :
    p.next (.timeout uptime) = some .quiet ∧ p.next .sleep = some .asleep := by
  cases p with
  | asleep => exact absurd rfl awake
  | quiet | active => exact ⟨rfl, rfl⟩

theorem acts_timeout (good : t.Good) :
    ∃ evts, Acts t evts (t.bus.message (some .timeout)) (canDoTimeout t) := by
  cases asleep : t.sleep with
  | true =>
    have same : canDoTimeout t = t := by
      have idle : ¬ t.stat.active = true := by simp [good.idle asleep]
      simp only [canDoTimeout, if_neg idle, if_pos asleep]
    rw [same, Bus.message, if_pos (bus_asleep asleep)]
    exact ⟨[], acts_nothing good⟩
  | false =>
    rw [Bus.message, if_neg (bus_awake_ne asleep)]
    have next := (next_awake (bus_awake_ne asleep) t.bus.uptime).1
    refine ⟨[.timeout t.bus.uptime], ?_⟩
    unfold canDoTimeout
    cases active : t.stat.active <;>
      simp only [asleep, Bool.false_eq_true, if_false, if_true]
    · refine acts_callback rfl rfl rfl ?_ ?_ ⟨fun _ => active, good.answer.trans asleep⟩
      · simp [CanThread.bus, canDoCallback, active]
      · rw [next]
        simp [CanThread.bus, canDoCallback, active]
    · refine acts_callback rfl rfl rfl ?_ ?_ ⟨fun _ => rfl, good.answer.trans asleep⟩
      · simp [CanThread.bus, canDoCallback, clearRaw]
      · rw [next]
        simp [CanThread.bus, canDoCallback, clearRaw]

theorem acts_sleep (good : t.Good) :
    ∃ evts, Acts t evts (t.bus.message (some .sleep)) (canDoSleep t) := by
  cases asleep : t.sleep with
  | true =>
    rw [canDoSleep, if_pos asleep, Bus.message, if_pos (bus_asleep asleep)]
    exact ⟨[], acts_nothing good⟩
  | false =>
    rw [Bus.message, if_neg (bus_awake_ne asleep)]
    have next := (next_awake (bus_awake_ne asleep) 0).2
    refine ⟨[.sleep], ?_⟩
    unfold canDoSleep
    cases active : t.stat.active <;>
      simp only [asleep, Bool.false_eq_true, if_false, if_true]
    · exact acts_callback rfl rfl rfl rfl next ⟨fun _ => active, rfl⟩
    · exact acts_callback rfl rfl rfl rfl next ⟨fun _ => rfl, rfl⟩

theorem acts_running (good : t.Good) :
    ∃ evts, Acts t evts (t.bus.message (some .running)) (canDoWakeup t) := by
  cases asleep : t.sleep with
  | true =>
    rw [canDoWakeup, if_pos asleep, Bus.message, if_pos (bus_asleep asleep)]
    have quiet := good.idle asleep
    refine ⟨[.wakeup], acts_callback rfl rfl rfl ?_ ?_ ⟨fun _ => quiet, rfl⟩⟩
    · simp [CanThread.bus, canDoCallback, quiet]
    · rw [bus_asleep asleep]
      simp [CanThread.bus, canDoCallback, quiet, Phase.next]
  | false =>
    rw [canDoWakeup, if_neg (by simp [asleep]), Bus.message, if_neg (bus_awake_ne asleep)]
    exact ⟨[], acts_nothing good⟩

theorem acts_msg (good : t.Good) (msg : Option ThreadMsg) :
    ∃ evts, Acts t evts (t.bus.message msg) (canDoMsg t msg) := by
  cases msg with
  | none => exact ⟨[], acts_nothing good⟩
  | some msg =>
    cases msg with
    | timeout => exact acts_timeout good
    | sleep => exact acts_sleep good
    | running => exact acts_running good
    | stop | run =>
      exact ⟨[], (List.append_nil _).symm, rfl, rfl, rfl, rfl, good.idle, good.answer⟩
    | other => exact ⟨[], acts_nothing good⟩

/-- Batches leave the phase as it is. -/
theorem order_batches {p : Phase} (awake : p ≠ .asleep) (batches : List (List CanMsg)) :
    (batches.map CanEvent.datain).foldlM Phase.next p = some p := by
  induction batches with
  | nil => rfl
  | cons b batches ih =>
    have same : p.next (.datain b) = some p := by
      cases p with
      | asleep => exact absurd rfl awake
      | quiet | active => rfl
    rw [List.map_cons, List.foldlM_cons, same]
    exact ih

theorem spell_batches (batches : List (List CanMsg)) :
    (batches.map CanEvent.datain).flatMap spell =
      batches.flatten.map fun m => CanEvent.datain [m] := by
  rw [List.flatMap_map, List.map_flatten, List.flatMap_def]
  rfl

/-- The thread reads frames exactly where the bus becomes active. -/
theorem quiet_iff (awake : t.sleep = false) : t.bus.phase = .quiet ↔ t.stat.active = false := by
  rw [bus_awake awake]
  cases t.stat.active <;> simp

/-- A read of an open controller. -/
theorem acts_read (good : t.Good) (awake : t.sleep = false) (now : UInt32) (got : List CanMsg) :
    ∃ evts, Acts t evts (t.bus.receive got) { t with stat := canDoDatain now t.stat got } := by
  obtain ⟨batches, handed, whole, active, uptime⟩ := datain_told now t.stat got
  have stop : t.bus.stop = t.stat.stop := rfl
  have early : (if t.stat.stop = false ∧ got.any CanMsg.isBus = true ∧ t.stat.active = false
      then [CanEvent.active] else []) =
      if (t.bus.stop = false ∧ got.any CanMsg.isBus = true) ∧ t.bus.phase = .quiet
      then [CanEvent.active] else [] := by
    simp only [stop, quiet_iff awake, and_assoc]
  have phase : ({ t with stat := canDoDatain now t.stat got } : CanThread).bus.phase =
      if t.bus.stop = false ∧ got.any CanMsg.isBus = true then .active else t.bus.phase := by
    have after : ({ t with stat := canDoDatain now t.stat got } : CanThread).bus.phase =
        if (canDoDatain now t.stat got).active then .active else .quiet :=
      @bus_awake { t with stat := canDoDatain now t.stat got } awake
    rw [after, bus_awake awake, stop, active]
    cases t.stat.stop <;> cases got.any CanMsg.isBus <;> simp
  rw [early] at handed
  refine ⟨_, handed.calls, handed.registered, ?_, ?_, ?_, ⟨?_, good.answer⟩⟩
  · rw [List.flatMap_append, spell_batches, whole]
    refine congrArg (· ++ _) ?_
    split <;> rfl
  · have same : ∀ b b' : Bus, b.phase = b'.phase → b.opened = b'.opened → b.stop = b'.stop →
        b.uptime = b'.uptime → b = b' := by
      rintro ⟨_, _, _, _⟩ ⟨_, _, _, _⟩ rfl rfl rfl rfl
      rfl
    exact same _ _ phase rfl handed.stop uptime
  · rw [List.foldlM_append, phase]
    by_cases wakes : t.bus.stop = false ∧ got.any CanMsg.isBus = true
    · rw [if_pos wakes]
      by_cases quiet : t.bus.phase = .quiet
      · rw [if_pos ⟨wakes, quiet⟩, quiet]
        exact order_batches (by decide) batches
      · have busy : t.bus.phase = .active := by
          have awake := bus_awake_ne awake
          cases phase : t.bus.phase with
          | asleep => exact absurd phase awake
          | quiet => exact absurd phase quiet
          | active => rfl
        rw [if_neg fun both => quiet both.2, busy]
        exact order_batches (by decide) batches
    · rw [if_neg wakes, if_neg fun both => wakes both.1]
      exact order_batches (bus_awake_ne awake) batches
  · intro asleep
    exact absurd (awake.symm.trans asleep) (by decide)

theorem acts_turn (good : t.Good) (turn : Turn) :
    ∃ evts, Acts t evts (t.bus.turn turn) (canMain t turn) := by
  obtain ⟨evts, first⟩ := acts_msg good turn.msg
  rcases told : t.bus.message turn.msg with ⟨events, b⟩
  rw [told] at first
  unfold Bus.turn canMain
  rw [told]
  have bus : (canDoMsg t turn.msg).bus = b := first.bus
  generalize canDoMsg t turn.msg = t' at first bus ⊢
  subst bus
  dsimp only
  cases asleep : t'.sleep with
  | true =>
    rw [if_pos (bus_asleep asleep)]
    exact ⟨evts, first⟩
  | false =>
    have opened : t'.bus.opened = t'.canfd := rfl
    rw [if_neg (bus_awake_ne asleep), opened]
    simp only [Bool.false_eq_true, if_false]
    unfold canDoReceive
    cases fd : t'.canfd with
    | true =>
      obtain ⟨more, second⟩ := acts_read first.good asleep turn.now turn.got
      have same : { t'.bus with opened := true } = t'.bus := by
        rw [← fd, ← opened]
      rw [Bool.true_or, if_pos rfl, if_pos rfl, same]
      rw [fd] at second
      exact ⟨evts ++ more, first.trans second⟩
    | false =>
      simp only [Bool.false_or, Bool.false_eq_true, if_false]
      cases turn.opened with
      | false => exact ⟨evts, first⟩
      | true =>
        let open' : CanThread :=
          { t' with canfd := true, stat := { t'.stat with tm := some canBusTimeout } }
        have start : Acts t' [] ([], { t'.bus with opened := true }) open' :=
          ⟨(List.append_nil _).symm, rfl, rfl, rfl, rfl, first.good.idle, first.good.answer⟩
        obtain ⟨more, second⟩ := @acts_read open' start.good asleep turn.now turn.got
        have whole := (first.trans start).trans second
        rw [List.append_nil, List.append_nil] at whole
        exact ⟨evts ++ more, whole⟩

theorem acts_run (good : t.Good) (turns : List Turn) :
    ∃ evts, Acts t evts (t.bus.run turns) (turns.foldl canMain t) := by
  induction turns generalizing t with
  | nil => exact ⟨[], acts_nothing good⟩
  | cons turn turns ih =>
    obtain ⟨evts, first⟩ := acts_turn good turn
    obtain ⟨more, second⟩ := ih first.good
    rcases told : t.bus.turn turn with ⟨events, b⟩
    rw [told] at first
    have bus : (canMain t turn).bus = b := first.bus
    rw [bus] at second
    refine ⟨evts ++ more, ?_⟩
    rw [List.foldl_cons, Bus.run, told]
    exact first.trans second

theorem Acts.given {result : List CanEvent × Bus} (acts : Acts t evts result t') {r : Receiver}
    (mem : r ∈ t.stat.receivers) :
    given r t'.stat.calls = given r t.stat.calls ++ evts := by
  have handed : Handed t.stat evts { t'.stat with stop := t.stat.stop } :=
    ⟨acts.calls, rfl, acts.registered⟩
  exact handed.given mem

/-- The table takes an event as it takes the frames in it. -/
theorem fold_spell {F : Type} (f : Doubles F) (clients : List Client) (s : DbcState F)
    (evts : List CanEvent) : (evts.flatMap spell).foldl (dbcCanCallback f clients) s =
      evts.foldl (dbcCanCallback f clients) s := by
  induction evts generalizing s with
  | nil => rfl
  | cons evt evts ih =>
    have one : (spell evt).foldl (dbcCanCallback f clients) s = dbcCanCallback f clients s evt := by
      cases evt with
      | datain msgs =>
        rw [spell, List.foldl_map]
        rfl
      | timeout uptime | active | sleep | wakeup => rfl
    rw [List.flatMap_cons, List.foldl_append, one, ih, List.foldl_cons]

/-- Over any turns of the thread every receiver is called back with the same events. They come in an
order that the bus allows, up to the phase that the thread is in; frame by frame, they are what the
bus tells; and the table of the DBC file is what these frames and notices make of it. -/
theorem thread_tells (registered : Nat) (turns : List Turn) :
    ∃ evts, (∀ r ∈ (turns.foldl canMain (.start registered)).stat.receivers,
        given r (turns.foldl canMain (.start registered)).stat.calls = evts) ∧
      evts.foldlM Phase.next .quiet =
        some (turns.foldl canMain (.start registered)).bus.phase ∧
      evts.flatMap spell = (Bus.start.run turns).1 ∧
      (turns.foldl canMain (.start registered)).bus = (Bus.start.run turns).2 ∧
      (turns.foldl canMain (.start registered)).canSleep =
        decide ((Bus.start.run turns).2.phase = .asleep) ∧
      ∀ {F : Type} (f : Doubles F) (clients : List Client) (s : DbcState F),
        evts.foldl (dbcCanCallback f clients) s =
          (Bus.start.run turns).1.foldl (dbcCanCallback f clients) s := by
  have start : (CanThread.start registered).Good := ⟨nofun, rfl⟩
  obtain ⟨evts, acts⟩ := acts_run start turns
  have bus : (CanThread.start registered).bus = Bus.start := rfl
  rw [bus] at acts
  generalize turns.foldl canMain (.start registered) = last at acts ⊢
  refine ⟨evts, fun r mem => ?_, ?_, acts.spelled, acts.bus, ?_, ?_⟩
  · have known : r ∈ (CanThread.start registered).stat.receivers := by
      unfold CanStat.receivers at mem ⊢
      rwa [← acts.registered]
    exact acts.given known
  · exact acts.order
  · rw [acts.good.answer, ← acts.bus]
    cases asleep : last.sleep with
    | true => exact (decide_eq_true (bus_asleep asleep)).symm
    | false => exact (decide_eq_false (bus_awake_ne asleep)).symm
  · intro F f clients s
    rw [← acts.spelled, fold_spell]

end Can
