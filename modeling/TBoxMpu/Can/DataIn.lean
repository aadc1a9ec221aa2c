import Mathlib.Data.List.TakeDrop
import TBoxMpu.Can.Decode

/-!
# Batches of received frames

`can_do_datain` cuts what was read from the controller behind its time ticks and hands the pieces to
the callbacks; while forwarding is stopped they get the ticks alone.

`datain_delivers`: to every callback the pieces are the whole list, in its order, each of them up to
a tick or to the end.
-/

namespace Can

/-! ### The receiver -/

def canBusTimeout : UInt32 := 120000

def canMaxRawsize : Nat := 10

def canMaxCallback : Nat := 16

/-- Who is called back: the DBC layer, then the registered callbacks by their places. -/
inductive Receiver
  | dbc
  | place (n : Nat)
  deriving DecidableEq, Repr

/-- `can_stat_t`, what of it the receiver uses, and the variables of the file: `tm` is the time the
timer was started with, `registered` the number of callbacks. -/
structure CanStat where
  active : Bool
  stop : Bool
  rawpos : List Nat
  rawmsg : List (List CanMsg)
  tm : Option UInt32
  uptime : UInt32
  canUptime : List UInt32
  canBasetime : UInt32
  canSum : UInt32
  registered : Nat
  calls : List (Receiver × CanEvent)

/-- `data32[0]` -/
def CanMsg.firstWord (m : CanMsg) : UInt32 :=
  UInt32.ofNat (Bits.leNat ((List.ofFn m.data).take 4))

def CanMsg.isTick (m : CanMsg) : Bool := m.type = 0x54  -- 'T'

def CanStat.receivers (state : CanStat) : List Receiver :=
  .dbc :: (List.range (min state.registered canMaxCallback)).map .place

def canDoCallback (state : CanStat) (event : CanEvent) : CanStat :=
  { state with calls := state.calls ++ state.receivers.map (·, event) }

/-- `can_putraw` for one message, and whether it was counted. -/
def canPutrawMsg (now : UInt32) (state : CanStat) (m : CanMsg) : Bool × CanStat :=
  if m.type = 0x43 then  -- 'C'
    if m.port < 1 ∨ m.port.toNat > canMaxPort then (false, state)
    else
      let port := (rport m.port).toNat
      let pos := state.rawpos.getD port 0
      (true, { state with
        rawmsg := state.rawmsg.modify port (·.set pos m)
        rawpos := state.rawpos.set port ((pos + 1) % canMaxRawsize)
        canSum := state.canSum + 1
        canUptime := state.canUptime.set port now })
  else (false, state)

def canPutraw (now : UInt32) : Nat → CanStat → List CanMsg → Nat × CanStat
  | rawcnt, state, [] => (rawcnt, state)
  | rawcnt, state, m :: rest =>
    let (counted, state) := canPutrawMsg now state m
    canPutraw now (if counted then rawcnt + 1 else rawcnt) state rest

/-- The loop of `can_do_datain` at the place `msg` of `msglst`, before `rest`; the next batch begins
at the place `first`. -/
def datainLoop (msglst : List CanMsg) :
    List CanMsg → Nat → Nat → CanStat → Nat × CanStat
  | [], _, first, state => (first, state)
  | m :: rest, msg, first, state =>
    if m.isTick then
      let state := { state with canBasetime := m.firstWord, uptime := m.uptime }
      let batch := if state.stop then [m] else (msglst.drop first).take (msg - first + 1)
      datainLoop msglst rest (msg + 1) (msg + 1) (canDoCallback state (.datain batch))
    else datainLoop msglst rest (msg + 1) first state

/-- The raw messages are kept, and the bus becomes active with the first of them. -/
def datainRaw (now : UInt32) (state : CanStat) (msglst : List CanMsg) : CanStat :=
  if state.stop then state
  else
    let (rawcnt, state) := canPutraw now 0 state msglst
    if rawcnt > 0 then
      let state := { state with tm := some canBusTimeout }
      if state.active then state else canDoCallback { state with active := true } .active
    else state

def canDoDatain (now : UInt32) (state : CanStat) (msglst : List CanMsg) : CanStat :=
  let (first, state) := datainLoop msglst msglst 0 0 (datainRaw now state msglst)
  -- behind the last tick
  if state.stop = false ∧ first ≠ msglst.length then
    canDoCallback
      { state with uptime := msglst.getLast?.elim state.uptime CanMsg.uptime }
      (.datain ((msglst.drop first).take (msglst.length - first)))
  else state

/-! ### What a receiver gets -/

/-- The events that a receiver was called back with, in their order. -/
def given (r : Receiver) (calls : List (Receiver × CanEvent)) : List CanEvent :=
  calls.filterMap fun c => if c.1 = r then some c.2 else none

/-- The batches among the events. -/
def dataBatches (evts : List CanEvent) : List (List CanMsg) :=
  evts.filterMap fun
    | .datain msgs => some msgs
    | _ => none

/-- The batches are the list cut into pieces, none of them empty; each one ends with a tick or is
the last one. -/
structure Batches (msglst : List CanMsg) (batches : List (List CanMsg)) : Prop where
  whole : batches.flatten = msglst
  some : ∀ b ∈ batches, b ≠ []
  ends : ∀ pre b post, batches = pre ++ b :: post →
    (∃ m, b.getLast? = .some m ∧ m.isTick = true) ∨ post = []

/-! ### Events -/

variable {state state' state'' : CanStat} {evts evts' : List CanEvent}

/-- Every receiver was called back with the events. -/
structure Handed (state : CanStat) (evts : List CanEvent) (state' : CanStat) : Prop where
  calls : state'.calls =
    state.calls ++ evts.flatMap fun evt => state.receivers.map (·, evt)
  stop : state'.stop = state.stop
  registered : state'.registered = state.registered

theorem Handed.receivers (handed : Handed state evts state') :
    state'.receivers = state.receivers := by
  unfold CanStat.receivers
  rw [handed.registered]

theorem Handed.nothing (state : CanStat) : Handed state [] state :=
  ⟨(List.append_nil _).symm, rfl, rfl⟩

theorem Handed.trans (first : Handed state evts state') (second : Handed state' evts' state'') :
    Handed state (evts ++ evts') state'' := by
  refine ⟨?_, second.stop.trans first.stop, second.registered.trans first.registered⟩
  rw [second.calls, first.calls, first.receivers, List.flatMap_append, List.append_assoc]

theorem handed_callback (state : CanStat) (evt : CanEvent) :
    Handed state [evt] (canDoCallback state evt) := by
  refine ⟨?_, rfl, rfl⟩
  rw [List.flatMap_singleton]
  rfl

/-- A receiver has its place in the list once. -/
theorem given_receivers {r : Receiver} (mem : r ∈ state.receivers) (evt : CanEvent) :
    given r (state.receivers.map (·, evt)) = [evt] := by
  have once : state.receivers.Nodup := by
    refine List.nodup_cons.mpr ⟨?_, ?_⟩
    · simp
    · exact List.nodup_range.map fun _ _ => Receiver.place.inj
  have own : ∀ rs : List Receiver, given r (rs.map (·, evt)) =
      (rs.filter (· = r)).map fun _ => evt := by
    intro rs
    induction rs with
    | nil => rfl
    | cons r' rest ih =>
      unfold given at ih ⊢
      rw [List.map_cons, List.filterMap_cons, List.filter_cons]
      by_cases here : r' = r
      · simp only [here, if_true, decide_true, List.map_cons, ih]
      · simp only [here, if_false, decide_false, Bool.false_eq_true, ih]
  rw [own, List.filter_eq, List.count_eq_one_of_mem once mem]
  rfl

theorem Handed.given (handed : Handed state evts state') {r : Receiver}
    (mem : r ∈ state.receivers) :
    given r state'.calls = given r state.calls ++ evts := by
  have each : ∀ evts : List CanEvent,
      Can.given r (evts.flatMap fun evt => state.receivers.map (·, evt)) = evts := by
    intro evts
    induction evts with
    | nil => rfl
    | cons evt rest ih =>
      have one := given_receivers mem evt
      unfold Can.given at one ih ⊢
      rw [List.flatMap_cons, List.filterMap_append, one, ih]
      rfl
  rw [handed.calls]
  unfold Can.given
  rw [List.filterMap_append]
  exact congrArg _ (each evts)

/-! ### The raw messages -/

theorem handed_putraw (now : UInt32) (rawcnt : Nat) (state : CanStat) (msglst : List CanMsg) :
    Handed state [] (canPutraw now rawcnt state msglst).2 := by
  induction msglst generalizing rawcnt state with
  | nil => exact .nothing state
  | cons m rest ih =>
    have one : Handed state [] (canPutrawMsg now state m).2 := by
      unfold canPutrawMsg
      split
      · split
        · exact .nothing state
        · exact ⟨(List.append_nil _).symm, rfl, rfl⟩
      · exact .nothing state
    exact one.trans (ih _ _)

theorem handed_raw (now : UInt32) (state : CanStat) (msglst : List CanMsg) :
    ∃ evts, Handed state evts (datainRaw now state msglst) ∧ (∀ evt ∈ evts, evt = .active) ∧
      (state.stop = true → evts = []) := by
  unfold datainRaw
  split
  · exact ⟨[], .nothing state, nofun, fun _ => rfl⟩
  next stop =>
    have put := handed_putraw now 0 state msglst
    have stopped : state.stop = true → False := fun is => stop is
    generalize canPutraw now 0 state msglst = result at put ⊢
    obtain ⟨rawcnt, state'⟩ := result
    dsimp only at put ⊢
    have timer : Handed state [] { state' with tm := some canBusTimeout } :=
      ⟨put.calls, put.stop, put.registered⟩
    split
    · split
      · exact ⟨[], timer, nofun, fun _ => rfl⟩
      · refine ⟨[.active], ?_, fun evt => List.mem_singleton.mp, fun is => (stopped is).elim⟩
        have active : Handed state [] { state' with tm := some canBusTimeout, active := true } :=
          ⟨put.calls, put.stop, put.registered⟩
        exact active.trans (handed_callback _ _)
    · exact ⟨[], put, nofun, fun _ => rfl⟩

/-! ### The loop -/

variable {msglst rest : List CanMsg} {msg first : Nat}

/-- A tick sets the times. -/
theorem handed_tick (state : CanStat) (m : CanMsg) (evt : CanEvent) :
    Handed state [evt] (canDoCallback
      { state with canBasetime := m.firstWord, uptime := m.uptime } evt) := by
  have timed : Handed state [] { state with canBasetime := m.firstWord, uptime := m.uptime } :=
    ⟨(List.append_nil _).symm, rfl, rfl⟩
  exact timed.trans (handed_callback _ evt)

/-- While forwarding is stopped the ticks go out one by one. -/
theorem datainLoop_stopped (stopped : state.stop = true) (msglst rest : List CanMsg)
    (msg first : Nat) :
    Handed state ((rest.filter CanMsg.isTick).map fun m => .datain [m])
      (datainLoop msglst rest msg first state).2 := by
  induction rest generalizing msg first state with
  | nil => exact .nothing state
  | cons m rest ih =>
    unfold datainLoop
    by_cases tick : m.isTick = true
    · rw [if_pos tick, List.filter_cons_of_pos tick, List.map_cons]
      dsimp only
      rw [if_pos stopped]
      exact (handed_tick state m _).trans (ih (by exact stopped) _ _)
    · rw [if_neg tick, List.filter_cons_of_neg tick]
      exact ih stopped _ _

/-- What the loop does while forwarding runs: the batches are the messages from `first` on up to
where the next one would begin, and each ends with a tick. -/
theorem datainLoop_running (running : state.stop = false) (here : msglst.drop msg = rest)
    (begun : first ≤ msg) (inside : first ≤ msglst.length) :
    ∃ batches : List (List CanMsg),
      Handed state (batches.map .datain) (datainLoop msglst rest msg first state).2 ∧
      batches.flatten ++ msglst.drop (datainLoop msglst rest msg first state).1 =
        msglst.drop first ∧
      (datainLoop msglst rest msg first state).1 ≤ msglst.length ∧
      ∀ b ∈ batches, ∃ m, b.getLast? = some m ∧ m.isTick := by
  induction rest generalizing msg first state with
  | nil => exact ⟨[], .nothing state, rfl, inside, nofun⟩
  | cons m rest ih =>
    have below : msg < msglst.length := by
      have length := congrArg List.length here
      rw [List.length_drop, List.length_cons] at length
      omega
    have next : msglst.drop (msg + 1) = rest := by
      rw [← List.drop_drop, here]
      rfl
    unfold datainLoop
    by_cases tick : m.isTick = true
    · rw [if_pos tick]
      dsimp only
      rw [if_neg (running ▸ Bool.false_ne_true)]
      generalize batch_eq : (msglst.drop first).take (msg - first + 1) = batch
      obtain ⟨batches, handed, flat, last, ends⟩ :=
        @ih (canDoCallback { state with canBasetime := m.firstWord, uptime := m.uptime }
          (.datain batch)) (msg + 1) (msg + 1) running next (Nat.le_refl _) below
      refine ⟨batch :: batches, (handed_tick state m _).trans handed, ?_, last, ?_⟩
      -- the batch goes up to the tick
      · rw [List.flatten_cons, List.append_assoc, flat, ← batch_eq]
        have behind : msglst.drop (msg + 1) = (msglst.drop first).drop (msg - first + 1) := by
          rw [List.drop_drop]
          congr 1
          omega
        rw [behind, List.take_append_drop]
      · refine List.forall_mem_cons.mpr ⟨⟨m, ?_, tick⟩, ends⟩
        have at_ : msglst[msg]? = some m := by
          rw [← List.head?_drop, here]
          rfl
        have length : batch.length = msg - first + 1 := by
          rw [← batch_eq, List.length_take, List.length_drop]
          omega
        rw [List.getLast?_eq_getElem?, length, ← batch_eq, List.getElem?_take_of_lt (by omega),
          List.getElem?_drop, ← at_]
        congr 1
        omega
    · rw [if_neg tick]
      exact ih running next (by omega) inside

/-! ### Delivery -/

theorem dataBatches_datain (batches : List (List CanMsg)) :
    dataBatches (batches.map .datain) = batches := by
  unfold dataBatches
  rw [List.filterMap_map]
  exact List.filterMap_some

theorem dataBatches_append (evts evts' : List CanEvent) :
    dataBatches (evts ++ evts') = dataBatches evts ++ dataBatches evts' :=
  List.filterMap_append

/-- Batches that end with ticks, and behind them a last one. -/
theorem batches_of_ticks {batches : List (List CanMsg)} {tail : List CanMsg}
    (whole : batches.flatten ++ tail = msglst)
    (ends : ∀ b ∈ batches, ∃ m, b.getLast? = some m ∧ m.isTick = true) :
    Batches msglst (batches ++ if tail = [] then [] else [tail]) := by
  by_cases ended : tail = []
  · rw [if_pos ended, List.append_nil]
    rw [ended, List.append_nil] at whole
    refine ⟨whole, fun b mem => ?_, fun pre b post is => .inl (ends b ?_)⟩
    · obtain ⟨m, last, -⟩ := ends b mem
      rintro rfl
      cases last
    · rw [is]
      exact List.mem_append_right _ List.mem_cons_self
  · rw [if_neg ended]
    refine ⟨?_, ?_, fun pre b post is => ?_⟩
    · rw [List.flatten_append, List.flatten_singleton]
      exact whole
    · rw [List.forall_mem_append, List.forall_mem_singleton]
      refine ⟨fun b mem => ?_, ended⟩
      obtain ⟨m, last, -⟩ := ends b mem
      rintro rfl
      cases last
    · rcases List.eq_nil_or_concat post with none | ⟨post, last, rfl⟩
      · exact .inr none
      -- in front of the last one
      · left
        rw [List.concat_eq_append, ← List.cons_append, ← List.append_assoc] at is
        obtain ⟨front, -⟩ := List.append_inj' is rfl
        refine ends b ?_
        rw [front]
        exact List.mem_append_right _ List.mem_cons_self

theorem datain_stopped (now : UInt32) (stop : state.stop = true) (msglst : List CanMsg) :
    Handed state ((msglst.filter CanMsg.isTick).map fun m => .datain [m])
      (canDoDatain now state msglst) := by
  obtain ⟨early, raw, -, silent⟩ := handed_raw now state msglst
  rw [silent stop] at raw
  unfold canDoDatain
  generalize datainRaw now state msglst = begun at raw ⊢
  have loop := raw.trans (datainLoop_stopped (raw.stop.trans stop) msglst msglst 0 0)
  generalize datainLoop msglst msglst 0 0 begun = result at loop ⊢
  obtain ⟨first, last⟩ := result
  dsimp only at loop ⊢
  rwa [if_neg fun both => Bool.false_ne_true (both.1.symm.trans (loop.stop.trans stop))]

theorem datain_running (now : UInt32) (stop : state.stop = false) (msglst : List CanMsg) :
    ∃ early batches, Handed state (early ++ batches.map .datain) (canDoDatain now state msglst) ∧
      (∀ evt ∈ early, evt = .active) ∧ Batches msglst batches := by
  obtain ⟨early, raw, active, -⟩ := handed_raw now state msglst
  unfold canDoDatain
  generalize datainRaw now state msglst = begun at raw ⊢
  obtain ⟨batches, handed, flat, inside, ends⟩ :=
    datainLoop_running (raw.stop.trans stop) (show msglst.drop 0 = msglst from rfl) (Nat.le_refl 0)
      (Nat.zero_le _)
  have loop := raw.trans handed
  generalize datainLoop msglst msglst 0 0 begun = result at loop flat inside ⊢
  obtain ⟨first, last⟩ := result
  dsimp only at loop flat inside ⊢
  have cut := batches_of_ticks (flat.trans List.drop_zero) ends
  by_cases tail : first = msglst.length
  · rw [if_neg fun both => both.2 tail]
    rw [if_pos (by rw [tail, List.drop_length]), List.append_nil] at cut
    exact ⟨early, batches, loop, active, cut⟩
  · have some : msglst.drop first ≠ [] := fun nil =>
      tail (Nat.le_antisymm inside (List.drop_eq_nil_iff.mp nil))
    have whole : (msglst.drop first).take (msglst.length - first) = msglst.drop first := by
      rw [← List.length_drop, List.take_length]
    rw [if_pos ⟨loop.stop.trans stop, tail⟩, whole]
    have timed : Handed last []
        { last with uptime := msglst.getLast?.elim last.uptime CanMsg.uptime } :=
      ⟨(List.append_nil _).symm, rfl, rfl⟩
    rw [if_neg some] at cut
    refine ⟨early, batches ++ [msglst.drop first], ?_, active, cut⟩
    rw [List.map_append, ← List.append_assoc]
    exact loop.trans (timed.trans (handed_callback _ _))

/-- For every list of messages there are events that every receiver is called back with, in this
order; while forwarding runs their batches are the list, cut behind ticks, and while it is stopped
they are the ticks. -/
theorem datain_delivers (now : UInt32) (state : CanStat) (msglst : List CanMsg) :
    ∃ evts, (∀ r ∈ state.receivers,
        given r (canDoDatain now state msglst).calls = given r state.calls ++ evts) ∧
      (state.stop = false → Batches msglst (dataBatches evts)) ∧
      (state.stop = true →
        evts = (msglst.filter CanMsg.isTick).map fun m => .datain [m]) := by
  cases stop : state.stop with
  | true =>
    have handed := datain_stopped now stop msglst
    exact ⟨_, fun r mem => handed.given mem, nofun, fun _ => rfl⟩
  | false =>
    obtain ⟨early, batches, handed, active, cut⟩ := datain_running now stop msglst
    refine ⟨_, fun r mem => handed.given mem, fun _ => ?_, nofun⟩
    have none : dataBatches early = [] :=
      List.filterMap_eq_nil_iff.mpr fun evt mem => by rw [active evt mem]
    rw [dataBatches_append, none, dataBatches_datain]
    exact cut

/-- While forwarding runs, the table is in the end as if the frames had come one by one: the cuts
are of no effect on it. -/
theorem datain_decodes {F : Type} (f : Doubles F) (clients : List Client) (s : DbcState F)
    (now : UInt32) (stop : state.stop = false) (msglst : List CanMsg) :
    ∃ evts, given .dbc (canDoDatain now state msglst).calls = given .dbc state.calls ++ evts ∧
      evts.foldl (dbcCanCallback f clients) s = msglst.foldl (dbcDecode f clients) s := by
  obtain ⟨early, batches, handed, active, cut⟩ := datain_running now stop msglst
  refine ⟨_, handed.given List.mem_cons_self, ?_⟩
  have quiet : early.foldl (dbcCanCallback f clients) s = s :=
    List.foldlRecOn early _ (motive := fun t => t = s) rfl fun t same evt mem => by
      rw [active evt mem]
      exact same
  rw [List.foldl_append, quiet, List.foldl_map, ← cut.whole, List.foldl_flatten]
  rfl

end Can
