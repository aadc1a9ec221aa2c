import Mathlib.Data.List.Perm.Basic
import TBoxMpu.Lib.Runs
import TBoxMpu.Uds.Proxy

/-!
# The UDS timers

`uds_timer_settime`, `uds_timer_notify`, `uds_set_timer` and `uds_timeout` for the eight timers.
A time-out is a message with the timer's number at its setting, which the UDS thread takes at
any later time; between its check of the number and the lock before the action, other threads
may set timers.
-/

namespace Uds

/-! ### The message of a time-out -/

/-- `tm->idx` -/
def UdsTimer.idx : UdsTimer → UInt16
  | .p2Server => 0
  | .p2Client => 1
  | .p2ExtServer => 2
  | .p2ExtClient => 3
  | .s3Server => 4
  | .s3Client => 5
  | .serverSet => 6
  | .clientSet => 7

/-- The timer of a message id below `TIMER_MAX`. -/
def timerOf (msgid : UInt16) : Option UdsTimer :=
  [.p2Server, .p2Client, .p2ExtServer, .p2ExtClient, .s3Server, .s3Client, .serverSet,
    .clientSet][msgid.toNat]?

/-- `sival_int`, as its bits. -/
def sivalInt (t : UdsTimer) (seq : UInt16) : UInt32 := t.idx.toUInt32 ||| seq.toUInt32 <<< 16

/-- `uds_timer_notify`: the id and the bytes of its message. -/
def udsTimerNotify (sival : UInt32) : UInt16 × List UInt8 :=
  let seq := (sival >>> 16).toUInt16
  ((sival &&& 0xffff).toUInt16, [seq.toUInt8, (seq >>> 8).toUInt8])

/-- The number that `uds_main` reads from the message. -/
def msgSeq (buf : List UInt8) : UInt16 :=
  (buf.getD 0 0).toUInt16 + (buf.getD 1 0).toUInt16 * 256

theorem sivalInt_toNat (t : UdsTimer) (seq : UInt16) :
    (sivalInt t seq).toNat = t.idx.toNat + seq.toNat * 65536 := by
  have small : t.idx.toNat < 2 ^ 16 := t.idx.toNat_lt
  have bound := seq.toNat_lt
  have shifted : (seq.toUInt32 <<< 16).toNat = seq.toNat <<< 16 := by
    rw [UInt32.toNat_shiftLeft]
    simp [Nat.shiftLeft_eq]
    omega
  unfold sivalInt
  -- the index has fewer than 16 bits: the two halves do not meet
  rw [UInt32.toNat_or, shifted, UInt16.toNat_toUInt32, Nat.or_comm,
    ← Nat.shiftLeft_add_eq_or_of_lt small, Nat.shiftLeft_eq]
  omega

theorem notify_sivalInt (t : UdsTimer) (seq : UInt16) :
    timerOf (udsTimerNotify (sivalInt t seq)).1 = some t ∧
      msgSeq (udsTimerNotify (sivalInt t seq)).2 = seq := by
  have bits := sivalInt_toNat t seq
  have small : t.idx.toNat < 8 := by cases t <;> decide
  have bound := seq.toNat_lt
  constructor
  · have id : (udsTimerNotify (sivalInt t seq)).1 = t.idx := by
      apply UInt16.toNat_inj.mp
      simp [udsTimerNotify, bits]
      rw [Nat.and_two_pow_sub_one_eq_mod _ 16]
      omega
    rw [id]
    cases t <;> rfl
  · have number : ((sivalInt t seq) >>> 16).toUInt16 = seq := by
      apply UInt16.toNat_inj.mp
      simp [bits, Nat.shiftRight_eq_div_pow]
      omega
    simp only [udsTimerNotify, number, msgSeq]
    apply UInt16.toNat_inj.mp
    simp [Nat.shiftRight_eq_div_pow]
    omega

/-! ### The timers -/

def UdsTimer.ofServer : UdsTimer → Bool
  | .p2Server | .p2ExtServer | .s3Server | .serverSet => true
  | .p2Client | .p2ExtClient | .s3Client | .clientSet => false

/-- A time-out on its way, and which setting of its timer it is of. -/
structure Expiry where
  timer : UdsTimer
  setting : Nat
  sival : UInt32
  deriving DecidableEq

/-- An action of `uds_timeout`: the time-out's timer and setting, and the timer's last setting at
that time with its switch. -/
structure TimeoutRun where
  timer : UdsTimer
  setting : Nat
  current : Nat
  switch : Bool
  deriving DecidableEq

/-- `running`: created and not expired. `settings` counts the calls of `uds_timer_settime`.
`passed`: the UDS thread is in `uds_timeout`, behind the check of the number. -/
structure UdsTimers where
  server : UdsT
  client : UdsT
  running : UdsTimer → Bool
  settings : UdsTimer → Nat
  callback : Bool
  flight : List Expiry
  passed : Option Expiry
  ran : List TimeoutRun

/-- `uds_proxy_init` -/
def UdsTimers.initial : UdsTimers :=
  ⟨{ UdsT.initial with canIdPhy := udsCanIdPhy, canIdFun := udsCanIdFun, canIdRes := udsCanIdRes },
    .initial, fun _ => false, fun _ => 0, false, [], none, []⟩

def UdsTimers.uds (s : UdsTimers) (t : UdsTimer) : UdsT := if t.ofServer then s.server else s.client

/-- `uds_set_timer`; `created`: `timer_create` and `timer_settime` succeed. -/
def UdsTimers.setTimer (s : UdsTimers) (t : UdsTimer) (on created : Bool) : UdsTimers :=
  { s with
    server := if t.ofServer then s.server.setTimer t on else s.server
    client := if t.ofServer then s.client else s.client.setTimer t on
    running := fun u => if u = t then on && created else s.running u
    settings := fun u => if u = t then s.settings u + 1 else s.settings u }

/-- The timer runs out, once. -/
def UdsTimers.expire (s : UdsTimers) (t : UdsTimer) (sent : Bool) : UdsTimers :=
  { s with
    running := fun u => if u = t then false else s.running u
    flight := if sent then ⟨t, s.settings t, sivalInt t ((s.uds t).seq t)⟩ :: s.flight
      else s.flight }

/-- `uds_timeout`, the check: a message of an older setting is ignored. -/
def UdsTimers.check (s : UdsTimers) (x : Expiry) : Option Expiry :=
  let (msgid, buf) := udsTimerNotify x.sival
  match timerOf msgid with
  | some t => if (s.uds t).seq t = msgSeq buf then some x else none
  | none => none

/-- `uds_timeout`, behind the lock. The three settings of the client call its callback, if there
is one; the server is set again. -/
def UdsTimers.act (s : UdsTimers) (x : Expiry) (created : Bool) : UdsTimers :=
  let ran := ⟨x.timer, x.setting, s.settings x.timer, (s.uds x.timer).timerSwitch x.timer⟩ :: s.ran
  match x.timer with
  | .clientSet | .p2Client | .p2ExtClient =>
    { s with passed := none, ran := if s.callback then ran else s.ran }
  -- the server is set again at each of its time-outs
  | .serverSet => { s with passed := none, ran }.setTimer .serverSet true created
  | .p2Server | .p2ExtServer | .s3Server | .s3Client => { s with passed := none, ran }

/-- Any thread sets a timer, or the callback with the lock free; a timer expires; the UDS thread
takes a message, and then goes on to the action. -/
inductive TimerEvent
  | set (t : UdsTimer) (on created : Bool)
  | callback (set : Bool)
  | expire (t : UdsTimer) (sent : Bool)
  | deliver (i : Nat)
  | act (created : Bool)

def timerStep (s : UdsTimers) : TimerEvent → Option UdsTimers
  | .set t on created => some (s.setTimer t on created)
  | .callback set => some { s with callback := set }
  | .expire t sent => if s.running t then some (s.expire t sent) else none
  | .deliver i =>
    match s.passed, s.flight[i]? with
    | none, some x => some { s with flight := s.flight.eraseIdx i, passed := s.check x }
    | _, _ => none
  | .act created =>
    match s.passed with
    | some x => some (s.act x created)
    | none => none

/-- Fewer than 65535 settings lie between a time-out and its check. -/
def Near (s : UdsTimers) : TimerEvent → Prop
  | .deliver i => ∀ x ∈ s.flight[i]?, s.settings x.timer < x.setting + 65535
  | .set _ _ _ | .callback _ | .expire _ _ | .act _ => True

/-- No timer is set while its time-out is between the check and the action. -/
def Unreplaced (s : UdsTimers) : TimerEvent → Prop
  | .set t _ _ => ∀ x ∈ s.passed, x.timer ≠ t
  | .deliver _ | .callback _ | .expire _ _ | .act _ => True

instance (s : UdsTimers) (e : TimerEvent) : Decidable (Near s e) := by
  cases e <;> unfold Near <;> infer_instance

instance (s : UdsTimers) (e : TimerEvent) : Decidable (Unreplaced s e) := by
  cases e <;> unfold Unreplaced <;> infer_instance

/-- The runs whose steps are all allowed. -/
def TimerReach (ok : UdsTimers → TimerEvent → Prop) : UdsTimers → Prop :=
  Runs.Reach (· = .initial) (Runs.Guarded ok fun s e s' => timerStep s e = some s')

/-- Every action is of its timer's last setting, which switched the timer on, and is the only one
of that setting. -/
structure TimersSound (s : UdsTimers) : Prop where
  current : ∀ x ∈ s.ran, x.setting = x.current ∧ x.switch = true
  once : (s.ran.map fun x => (x.timer, x.setting)).Nodup

/-! ### The numbers -/

/-- The number after so many settings. -/
def seqNumber : Nat → UInt16
  | 0 => 0
  | n + 1 => nextSeq (seqNumber n)

theorem nextSeq_toNat (seq : UInt16) : (nextSeq seq).toNat = seq.toNat % 65535 + 1 := by
  have bound := seq.toNat_lt
  have next : (seq + 1).toNat = (seq.toNat + 1) % 65536 := by simp
  unfold nextSeq
  split
  -- zero is skipped: the numbers return after 65535 settings
  next wraps =>
    rw [wraps] at next
    have : (0 : UInt16).toNat = 0 := rfl
    have : (1 : UInt16).toNat = 1 := rfl
    omega
  next other =>
    have nonzero : (seq + 1).toNat ≠ 0 := fun zero => other (UInt16.toNat_inj.mp zero)
    omega

theorem seqNumber_toNat (n : Nat) : (seqNumber (n + 1)).toNat = n % 65535 + 1 := by
  induction n with
  | zero => rfl
  | succ n ih =>
    rw [seqNumber, nextSeq_toNat, ih]
    omega

/-- The number tells a setting from the 65534 that follow it. -/
theorem seqNumber_inj {m n : Nat} (positive : 0 < m) (order : m ≤ n) (near : n < m + 65535)
    (same : seqNumber n = seqNumber m) : m = n := by
  obtain ⟨m, rfl⟩ := Nat.exists_eq_add_of_le' positive
  obtain ⟨n, rfl⟩ := Nat.exists_eq_add_of_le' (Nat.le_trans positive order)
  have same := congrArg UInt16.toNat same
  rw [seqNumber_toNat, seqNumber_toNat] at same
  omega

/-! ### The invariant -/

def Expiry.key (x : Expiry) : UdsTimer × Nat := (x.timer, x.setting)

def TimeoutRun.key (x : TimeoutRun) : UdsTimer × Nat := (x.timer, x.setting)

/-- The settings whose time-out has happened. -/
def UdsTimers.used (s : UdsTimers) : List (UdsTimer × Nat) :=
  s.passed.toList.map Expiry.key ++ s.flight.map Expiry.key ++ s.ran.map TimeoutRun.key

/-- A setting times out at most once and while it is the last one; what waits for its action is
of the last setting. -/
structure TimerInv (s : UdsTimers) : Prop where
  number : ∀ t, (s.uds t).seq t = seqNumber (s.settings t)
  runs : ∀ t, s.running t = true →
    (s.uds t).timerSwitch t = true ∧ 0 < s.settings t ∧ (t, s.settings t) ∉ s.used
  past : ∀ x ∈ s.used, 0 < x.2 ∧ x.2 ≤ s.settings x.1 ∧
    (x.2 = s.settings x.1 → (s.uds x.1).timerSwitch x.1 = true)
  once : s.used.Nodup
  message : ∀ x ∈ s.flight, x.sival = sivalInt x.timer (seqNumber x.setting)
  waits : ∀ x, s.passed = some x → x.setting = s.settings x.timer
  current : ∀ x ∈ s.ran, x.setting = x.current ∧ x.switch = true

theorem setTimer_seq (s : UdsTimers) (t : UdsTimer) (on created : Bool) (u : UdsTimer) :
    ((s.setTimer t on created).uds u).seq u =
      if u = t then nextSeq ((s.uds u).seq u) else (s.uds u).seq u := by
  cases t <;> cases u <;> rfl

theorem setTimer_switch (s : UdsTimers) (t : UdsTimer) (on created : Bool) (u : UdsTimer) :
    ((s.setTimer t on created).uds u).timerSwitch u =
      if u = t then on else (s.uds u).timerSwitch u := by
  cases t <;> cases u <;> rfl

theorem TimerInv.setTimer {s : UdsTimers} (inv : TimerInv s) (t : UdsTimer) (on created : Bool)
    (free : ∀ x, s.passed = some x → x.timer ≠ t) : TimerInv (s.setTimer t on created) := by
  have settings (u : UdsTimer) : (s.setTimer t on created).settings u =
    if u = t then s.settings u + 1 else s.settings u := rfl
  have used : (s.setTimer t on created).used = s.used := rfl
  refine ⟨fun u => ?_, fun u running => ?_, fun x mem => ?_, inv.once, inv.message,
    fun x waits => ?_, inv.current⟩
  · rw [setTimer_seq, settings, inv.number]
    split
    · rfl
    · rfl
  · rw [setTimer_switch, settings, used]
    -- the new setting has no time-out yet: all of them are of older ones
    by_cases same : u = t
    · subst same
      simp only [UdsTimers.setTimer, if_true, Bool.and_eq_true] at running
      simp only [if_true]
      refine ⟨running.1, Nat.succ_pos _, fun mem => ?_⟩
      exact absurd (inv.past _ mem).2.1 (Nat.not_succ_le_self _)
    · simp only [UdsTimers.setTimer, if_neg same] at running
      simp only [if_neg same]
      exact inv.runs u running
  · obtain ⟨positive, le, last⟩ := inv.past x mem
    rw [setTimer_switch, settings]
    split
    · -- an older time-out of this timer is no longer of the last setting
      exact ⟨positive, by omega, fun same => by omega⟩
    · exact ⟨positive, le, last⟩
  · rw [settings, if_neg (free x waits)]
    exact inv.waits x waits

theorem TimerInv.expire {s : UdsTimers} (inv : TimerInv s) (t : UdsTimer) (sent : Bool)
    (running : s.running t = true) : TimerInv (s.expire t sent) := by
  obtain ⟨switch, positive, fresh⟩ := inv.runs t running
  -- the time-out joins the used ones, if its message is sent
  have shape : (s.expire t sent).used.Perm
      (if sent then (t, s.settings t) :: s.used else s.used) := by
    cases sent with
    | false => exact .refl _
    | true =>
      simp only [UdsTimers.used, UdsTimers.expire, if_true, List.map_cons]
      exact (List.perm_middle.append_right _)
  have within : ∀ x ∈ (s.expire t sent).used, x = (t, s.settings t) ∨ x ∈ s.used := by
    intro x mem
    have mem := shape.mem_iff.mp mem
    split at mem
    · exact List.mem_cons.mp mem
    · exact .inr mem
  refine ⟨inv.number, fun u running' => ?_, fun x mem => ?_, ?_, ?_, inv.waits, inv.current⟩
  · simp only [UdsTimers.expire] at running'
    split at running'
    · cases running'
    next other =>
      obtain ⟨switch, positive, fresh⟩ := inv.runs u running'
      refine ⟨switch, positive, fun mem => ?_⟩
      rcases within _ mem with same | mem
      · exact other (congrArg Prod.fst same)
      · exact fresh mem
  · rcases within x mem with rfl | mem
    · exact ⟨positive, Nat.le_refl _, fun _ => switch⟩
    · exact inv.past x mem
  · rw [shape.nodup_iff]
    split
    · exact List.nodup_cons.mpr ⟨fresh, inv.once⟩
    · exact inv.once
  · intro x mem
    simp only [UdsTimers.expire] at mem
    split at mem
    · rcases List.mem_cons.mp mem with rfl | mem
      · exact congrArg (sivalInt t) (inv.number t)
      · exact inv.message x mem
    · exact inv.message x mem

/-- The check passes only a time-out of the timer's last setting. -/
theorem TimerInv.check {s : UdsTimers} (inv : TimerInv s) {x y : Expiry} (mem : x ∈ s.flight)
    (near : s.settings x.timer < x.setting + 65535) (passes : s.check x = some y) :
    y = x ∧ x.setting = s.settings x.timer := by
  unfold UdsTimers.check at passes
  -- the message carries the number of its own setting
  rw [inv.message x mem] at passes
  simp only [notify_sivalInt] at passes
  obtain ⟨same, passes⟩ := Option.ite_none_right_eq_some.mp passes
  cases passes
  have used : x.key ∈ s.used := by
    refine List.mem_append_left _ (List.mem_append_right _ ?_)
    exact List.mem_map_of_mem mem
  obtain ⟨positive, le, -⟩ := inv.past _ used
  rw [inv.number] at same
  exact ⟨rfl, seqNumber_inj positive le near same⟩

/-- A time-out that moves on or is dropped. -/
theorem TimerInv.moves {s : UdsTimers} (inv : TimerInv s) {flight : List Expiry}
    {passed : Option Expiry} {ran : List TimeoutRun}
    (fewer : (UdsTimers.used { s with flight, passed, ran }).Subperm s.used)
    (within : flight ⊆ s.flight) (waits : ∀ x, passed = some x → x.setting = s.settings x.timer)
    (current : ∀ x ∈ ran, x.setting = x.current ∧ x.switch = true) :
    TimerInv { s with flight, passed, ran } where
  number := inv.number
  runs t running :=
    have ⟨switch, positive, fresh⟩ := inv.runs t running
    ⟨switch, positive, fun mem => fresh (fewer.subset mem)⟩
  past x mem := inv.past x (fewer.subset mem)
  once := by
    obtain ⟨l, perm, sub⟩ := fewer
    exact perm.nodup_iff.mp (inv.once.sublist sub)
  message x mem := inv.message x (within mem)
  waits := waits
  current := current

/-- A message of the client's timers passes the check and calls the callback where `udsTimeout`,
which takes both as one step, says so. -/
theorem check_udsTimeout (s : UdsTimers) (t : UdsTimer) (client : t.ofServer = false)
    (setting : Nat) (seq : UInt16) :
    udsTimeout s.client t seq = some .timeout ↔
      (s.check ⟨t, setting, sivalInt t seq⟩).isSome ∧ t ∈ [.clientSet, .p2Client, .p2ExtClient] := by
  have uds : s.uds t = s.client := by simp [UdsTimers.uds, client]
  unfold udsTimeout UdsTimers.check
  simp only [notify_sivalInt, uds]
  by_cases same : s.client.seq t = seq
  · simp only [same, ne_eq, not_true_eq_false, if_false, if_true, Option.isSome_some, true_and]
    cases t <;> simp
  · simp [same]

theorem TimerInv.deliver {s : UdsTimers} (inv : TimerInv s) {i : Nat} {x : Expiry}
    (idle : s.passed = none) (taken : s.flight[i]? = some x)
    (near : s.settings x.timer < x.setting + 65535) :
    TimerInv { s with flight := s.flight.eraseIdx i, passed := s.check x } := by
  obtain ⟨bound, rfl⟩ := List.getElem?_eq_some_iff.mp taken
  have mem := List.getElem_mem bound
  have perm : s.used.Perm (s.flight[i].key :: ((s.flight.eraseIdx i).map Expiry.key ++
      s.ran.map TimeoutRun.key)) := by
    simp only [UdsTimers.used, idle, Option.toList_none, List.map_nil, List.nil_append]
    exact ((List.getElem_cons_eraseIdx_perm bound).symm.map Expiry.key).append_right _
  -- taken out of the messages, and behind the check or dropped
  refine inv.moves (perm.subperm_left.mpr ?_) (List.eraseIdx_subset ..) ?_ inv.current
  · cases passes : s.check s.flight[i] with
    | none =>
      simp only [UdsTimers.used, Option.toList_none, List.map_nil, List.nil_append]
      exact .cons_self
    | some y =>
      obtain ⟨rfl, -⟩ := inv.check mem near passes
      exact .refl _
  · intro y passes
    obtain ⟨rfl, last⟩ := inv.check mem near passes
    exact last

theorem TimerInv.act {s : UdsTimers} (inv : TimerInv s) {x : Expiry} (created : Bool)
    (waits : s.passed = some x) : TimerInv (s.act x created) := by
  have used : s.used = x.key :: (s.flight.map Expiry.key ++ s.ran.map TimeoutRun.key) := by
    simp [UdsTimers.used, waits]
  have last := inv.waits x waits
  have switch := (inv.past x.key (used ▸ List.mem_cons_self)).2.2 last
  -- with the action, and without it where the callback is gone
  have done : TimerInv { s with
      passed := none
      ran := ⟨x.timer, x.setting, s.settings x.timer, (s.uds x.timer).timerSwitch x.timer⟩ :: s.ran } := by
    refine inv.moves ?_ (fun _ mem => mem) nofun ?_
    · rw [used]
      exact List.perm_middle.subperm
    · rintro y (_ | ⟨_, mem⟩)
      · exact ⟨last, switch⟩
      · exact inv.current y mem
  have dropped : TimerInv { s with passed := none } := by
    refine inv.moves ?_ (fun _ mem => mem) nofun inv.current
    rw [used]
    exact .cons_self
  unfold UdsTimers.act
  obtain ⟨timer, setting, sival⟩ := x
  cases timer with
  -- the thread is behind its time-out, so that the setting replaces none
  | serverSet => exact done.setTimer .serverSet true created nofun
  | p2Server | p2ExtServer | s3Server | s3Client => exact done
  | clientSet | p2Client | p2ExtClient =>
    dsimp only
    split
    · exact done
    · exact dropped

theorem timerInv_reach {s : UdsTimers}
    (reach : TimerReach (fun s e => Near s e ∧ Unreplaced s e) s) : TimerInv s := by
  have starts : ∀ s, s = .initial → TimerInv s := by
    rintro _ rfl
    refine ⟨fun t => ?_, nofun, nofun, List.nodup_nil, nofun, nofun, nofun⟩
    cases t <;> rfl
  have kept : ∀ s e s', TimerInv s →
      Runs.Guarded (fun s e => Near s e ∧ Unreplaced s e)
        (fun s e s' => timerStep s e = some s') s e s' → TimerInv s' := by
    rintro s e s' inv ⟨⟨near, free⟩, step⟩
    cases e with
    | set t on created =>
      cases step
      -- the one step that the condition on the runs is for
      exact inv.setTimer t on created free
    | callback set =>
      cases step
      exact ⟨inv.number, inv.runs, inv.past, inv.once, inv.message, inv.waits, inv.current⟩
    | expire t sent =>
      obtain ⟨running, step⟩ := Option.ite_none_right_eq_some.mp step
      cases step
      exact inv.expire t sent running
    | deliver i =>
      simp only [timerStep] at step
      split at step
      next idle taken =>
        cases step
        exact inv.deliver idle taken (near _ taken)
      · cases step
    | act created =>
      simp only [timerStep] at step
      split at step
      next waits =>
        cases step
        exact inv.act created waits
      · cases step
  exact Runs.Reach.invariant starts kept reach

/-- If no thread sets a timer between the check of its time-out and the action, the action runs
only for the timer's current setting and at most once for it. -/
theorem timeout_current {s : UdsTimers}
    (reach : TimerReach (fun s e => Near s e ∧ Unreplaced s e) s) : TimersSound s := by
  have inv := timerInv_reach reach
  refine ⟨inv.current, ?_⟩
  -- the actions are among the used settings, each of which is used once
  exact (List.nodup_append.mp inv.once).2.1

/-- The client is set, the timer expires, and its message is taken. -/
def timedOut : List TimerEvent :=
  [.callback true, .set .clientSet true true, .expire .clientSet true, .deliver 0]

theorem client_set_times_out :
    ∃ s, s.ran = [⟨.clientSet, 1, 1, true⟩] ∧ TimersSound s := by
  have start : TimerReach (fun s e => Near s e ∧ Unreplaced s e) .initial := .start rfl
  exact ⟨_, rfl, timeout_current (start.run_checked (timedOut ++ [.act true]) rfl)⟩

/-- Behind the check, the client is cleared and set again: the old time-out ends the new one. -/
theorem timeout_of_replaced :
    ∃ s, TimerReach Near s ∧ s.ran = [⟨.clientSet, 1, 3, true⟩] ∧ ¬ TimersSound s := by
  have start : TimerReach Near .initial := .start rfl
  refine ⟨_, start.run_checked (timedOut ++ [.set .clientSet false true, .callback false,
    .callback true, .set .clientSet true true, .act true]) rfl, rfl, ?_⟩
  rintro ⟨current, -⟩
  -- the action of the first setting runs while the third is current
  exact absurd (current _ (.head _)).1 (by decide)

end Uds
