import Mathlib.Data.UInt
import TBoxMpu.Uds.ServerAnswers
import TBoxMpu.Uds.Timers

/-!
# Runs of the diagnostic server

The UDS thread takes indications, time-outs and rounds of checks one after another, while its
timers expire and other threads set theirs: who may write, what every request is answered, and
how long a session lasts.
-/

namespace Uds

variable {σ : Type} {c : UdsServices σ} {env : UdsEnv} {r : UdsRequest} {note : Option UdsTrace}

/-! ### Runs -/

/-- The UDS module: the server, the timers, and what has happened to the security access, the
latest first. -/
structure UdsTask (σ : Type) where
  server : UdsServer σ
  timers : UdsTimers
  trace : List UdsTrace

/-- The variables as they are initialised. -/
def UdsServer.initial (did : σ) : UdsServer σ :=
  ⟨.default, .initial, true, true, true, false, false, .initial, did, []⟩

def UdsTask.initial (did : σ) : UdsTask σ := ⟨.initial did, .initial, []⟩

/-- An indication for the server; a timer's event; a round of checks; and whatever changes what
the identifiers read and write. -/
inductive UdsEvent (σ : Type)
  | indication (env : UdsEnv) (r : UdsRequest) (created : Bool)
  | timer (e : TimerEvent)
  | round (fault : Nat → Bool) (src : Nat → DidSource)
  | device (did : σ)

/-- The action of `S3SERVER`. -/
def endsSession (t : UdsTimers) : TimerEvent → Bool
  | .act _ => t.passed.any fun x => x.timer = .s3Server
  | .set _ _ _ | .callback _ | .expire _ _ | .deliver _ => false

/-- The UDS thread takes no message before it is through with the last one. -/
def udsTaskStep (c : UdsServices σ) (t : UdsTask σ) : UdsEvent σ → Option (UdsTask σ)
  | .indication env r created =>
    if t.timers.passed = none then
      (udsServerProc c env r { t.server with out := [] }).map fun server =>
        { server
          timers := (t.timers.setTimer .p2Server true created).setTimer .s3Server true created
          trace := (udsNote c env r t.server).toList ++ t.trace }
    else none
  -- only an indication sets this timer
  | .timer (.set .s3Server _ _) => none
  | .timer e =>
    (timerStep t.timers e).map fun timers =>
      if endsSession t.timers e then
        { server := t.server.sessionDefault, timers, trace := .ended :: t.trace }
      else { t with timers }
  | .round fault src =>
    if t.timers.passed = none then
      let diag := udsDiagAllDevices c.cfg c.slots ⟨t.server.dtcSwitch, fault, src⟩
        t.server.dtc.diag
      some { t with server := { t.server with dtc := { t.server.dtc with
        diag
        numbered := t.server.dtc.numbered && sameFlags c.cfg c.slots t.server.dtc.diag diag } } }
    else none
  | .device did => some { t with server := { t.server with did } }

/-- Timers are created and their messages sent, and fewer than 65535 settings lie between a
time-out and its check. -/
def TimersWork (t : UdsTask σ) : UdsEvent σ → Prop
  | .indication _ _ created => created = true
  | .timer (.expire _ sent) => sent = true
  | .timer e => Near t.timers e
  | .round _ _ | .device _ => True

/-- The runs from some content of the device. -/
def UdsReach (c : UdsServices σ) : UdsTask σ → Prop :=
  Runs.Reach (fun t => ∃ did, t = .initial did) fun t e t' => udsTaskStep c t e = some t'

def UdsTimedReach (c : UdsServices σ) : UdsTask σ → Prop :=
  Runs.Reach (fun t => ∃ did, t = .initial did)
    (Runs.Guarded TimersWork fun t e t' => udsTaskStep c t e = some t')

/-! ### Who may write -/

def UdsTrace.exchange? : UdsTrace → Option Exchange
  | .exchange x => some x
  | .ended => none

def exchanges (trace : List UdsTrace) : List Exchange := trace.filterMap UdsTrace.exchange?

/-- Since the session last ended, the plain key for level 1 has answered the seed last issued. -/
def Granted : List UdsTrace → Prop
  | [] => False
  | .ended :: _ => False
  | .exchange x :: earlier =>
    (x.pdu.length = 6 ∧ x.pdu.getD 1 0 = 0x02 ∧
      ∃ seed, pendingSeed [0x01, 0x03] (exchanges earlier) = some seed ∧
        wordOf x.pdu = saGetKey seed 0x02) ∨ Granted earlier

/-- The security access of the server, by itself. -/
def UdsTask.secRun (t : UdsTask σ) : SecRun := ⟨t.server.sec, exchanges t.trace⟩

structure UdsInv (c : UdsServices σ) (t : UdsTask σ) : Prop where
  clear : t.server.suppress = false
  sec : SecReach c.rand t.secRun
  granted : t.server.sec.level ≠ .level0 → Granted t.trace
  session : t.server.session = .default →
    t.server.sec.level = .level0 ∧ t.server.dtcSwitch = true

theorem UdsInv.low {t : UdsTask σ} (inv : UdsInv c t) : t.server.sec.level ≠ .level2 :=
  (secInv_reach inv.sec).low

/-- Only a key raises the level. -/
theorem granted_exchange {t : UdsTask σ} (inv : UdsInv c t) (now : UInt64) (pdu : List UInt8)
    (raised : (udsSrvSecrityAcess c.rand now pdu t.server.sec).1.level ≠ .level0) :
    Granted (.exchange ⟨pdu, (udsSrvSecrityAcess c.rand now pdu t.server.sec).2⟩ :: t.trace) := by
  have served := udsSrvSecrityAcess_served c.rand now pdu t.server.sec
  have before := secInv_reach inv.sec
  generalize udsSrvSecrityAcess c.rand now pdu t.server.sec = result at served raised
  obtain ⟨sec, answer⟩ := result
  cases served with
  | refused _ _ _ _ level => exact .inr (inv.granted (level ▸ raised))
  | exceeded _ level => exact .inr (inv.granted (level ▸ raised))
  | seed _ _ _ _ _ level => exact .inr (inv.granted (level ▸ raised))
  | key L _ _ _ sub six asked right _ level =>
    dsimp only at level raised
    rw [level] at raised
    split at raised
    next byte =>
      cases L with
      | level0 => contradiction
      | level1 => exact .inl ⟨six, byte, _, before.pending asked, right⟩
      | level2 =>
        -- the sub-function of level two is not the byte that grants it
        rw [subFunction, byte] at sub
        exact absurd sub (by decide)
    · exact .inr (inv.granted raised)

theorem udsInv_ended {t : UdsTask σ} (inv : UdsInv c t) (timers : UdsTimers) (out : List UdsOut) :
    UdsInv c ⟨{ t.server.sessionDefault with out }, timers, .ended :: t.trace⟩ where
  clear := inv.clear
  sec := .next .sessionDefault inv.sec rfl
  granted raised := absurd rfl raised
  session _ := ⟨rfl, rfl⟩

/-- A step that leaves the security access as it is. -/
theorem udsInv_frame {t t' : UdsTask σ} (inv : UdsInv c t) (clear : t'.server.suppress = false)
    (sec : t'.server.sec = t.server.sec) (trace : t'.trace = t.trace)
    (session : t'.server.session = .default →
      t.server.session = .default ∧ t'.server.dtcSwitch = t.server.dtcSwitch) : UdsInv c t' where
  clear := clear
  sec := by
    rw [UdsTask.secRun, sec, trace]
    exact inv.sec
  granted raised := by
    rw [trace]
    exact inv.granted (sec ▸ raised)
  session default := by
    obtain ⟨before, same⟩ := session default
    rw [sec, same]
    exact inv.session before

theorem udsInv_indication {t : UdsTask σ} (inv : UdsInv c t) {server : UdsServer σ}
    (done : UdsDone c env r { t.server with out := [] } server note) (timers : UdsTimers) :
    UdsInv c ⟨server, timers, note.toList ++ t.trace⟩ := by
  obtain ⟨core, out, effect, -, rfl⟩ := done
  cases effect with
  | none => exact udsInv_frame inv rfl rfl rfl fun default => ⟨default, rfl⟩
  | sessionDefault =>
    have ended := udsInv_ended inv timers ([] ++ out)
    exact { ended with clear := rfl }
  | session now other => exact udsInv_frame inv rfl rfl rfl fun default => absurd default other
  | security session =>
    refine ⟨rfl, .next (.request env.now r.pdu) inv.sec rfl, granted_exchange inv env.now r.pdu,
      fun default => absurd default session⟩
  | comm tx rx session =>
    exact udsInv_frame inv rfl rfl rfl fun default => absurd default session
  | dtcSetting on session =>
    refine udsInv_frame inv rfl rfl rfl fun default => ?_
    cases default.symm.trans session
  | faults dtc => exact udsInv_frame inv rfl rfl rfl fun default => ⟨default, rfl⟩
  | memory => exact udsInv_frame inv rfl rfl rfl fun default => ⟨default, rfl⟩
  | write did => exact udsInv_frame inv rfl rfl rfl fun default => ⟨default, rfl⟩

theorem indication_done {t t' : UdsTask σ} {created : Bool} (inv : UdsInv c t)
    (step : udsTaskStep c t (.indication env r created) = some t') :
    UdsDone c env r { t.server with out := [] } t'.server (udsNote c env r t.server) ∧
      t'.trace = (udsNote c env r t.server).toList ++ t.trace ∧
      t'.timers = (t.timers.setTimer .p2Server true created).setTimer .s3Server true created ∧
      t.timers.passed = none := by
  obtain ⟨idle, step⟩ := Option.ite_none_right_eq_some.mp step
  obtain ⟨server, served, rfl⟩ := Option.map_eq_some_iff.mp step
  exact ⟨udsServerProc_done inv.clear inv.low served, rfl, rfl, idle⟩

/-- What a timer's event makes of the rest. -/
theorem timer_done {t t' : UdsTask σ} {e : TimerEvent}
    (step : udsTaskStep c t (.timer e) = some t') :
    (∀ on created, e ≠ .set .s3Server on created) ∧ timerStep t.timers e = some t'.timers ∧
      if endsSession t.timers e then
        t'.server = t.server.sessionDefault ∧ t'.trace = .ended :: t.trace
      else t'.server = t.server ∧ t'.trace = t.trace := by
  have other : ∀ on created, e ≠ .set .s3Server on created := by
    rintro on created rfl
    cases step
  refine ⟨other, ?_⟩
  have mapped : (timerStep t.timers e).map (fun timers =>
      if endsSession t.timers e then
        { server := t.server.sessionDefault, timers, trace := .ended :: t.trace }
      else { t with timers }) = some t' := by
    cases e with
    | set u on created =>
      cases u with
      | s3Server => exact absurd rfl (other on created)
      | _ => exact step
    | _ => exact step
  obtain ⟨timers, next, rfl⟩ := Option.map_eq_some_iff.mp mapped
  rw [next]
  split
  · exact ⟨rfl, rfl, rfl⟩
  · exact ⟨rfl, rfl, rfl⟩

theorem udsInv_step {t t' : UdsTask σ} (inv : UdsInv c t) {e : UdsEvent σ}
    (step : udsTaskStep c t e = some t') : UdsInv c t' := by
  cases e with
  | indication env r created =>
    obtain ⟨done, trace, -, -⟩ := indication_done inv step
    have next := udsInv_indication inv done t'.timers
    rw [← trace] at next
    exact next
  | timer e =>
    obtain ⟨-, -, rest⟩ := timer_done step
    split at rest
    · have ended := udsInv_ended inv t'.timers t.server.out
      rw [show t' = ⟨t.server.sessionDefault, t'.timers, .ended :: t.trace⟩ by
        rw [← rest.1, ← rest.2]]
      exact ended
    · obtain ⟨server, trace⟩ := rest
      exact udsInv_frame inv (server ▸ inv.clear) (by rw [server]) trace fun default => by
        rw [server] at default ⊢
        exact ⟨default, rfl⟩
  | round fault src =>
    obtain ⟨-, step⟩ := Option.ite_none_right_eq_some.mp step
    cases step
    exact udsInv_frame inv inv.clear rfl rfl fun default => ⟨default, rfl⟩
  | device did =>
    cases step
    exact udsInv_frame inv inv.clear rfl rfl fun default => ⟨default, rfl⟩

theorem udsInv_reach {t : UdsTask σ} (reach : UdsReach c t) : UdsInv c t := by
  refine (Runs.Reach.invariant ?_ ?_ reach : UdsInv c t)
  · rintro _ ⟨did, rfl⟩
    exact ⟨rfl, .start rfl, fun raised => absurd rfl raised, fun _ => ⟨rfl, rfl⟩⟩
  · intro t e t' inv step
    exact udsInv_step inv step

/-- One identifier of two bytes, and no faults. -/
def smallDevice : UdsServices (List UInt8) where
  table := [⟨0xF190, .string, 2, fun did _ => (0, did), some fun value _ => (0, value)⟩]
  cfg := ⟨[], []⟩
  slots := []
  rand := sampleRand
  old := List.replicate 1997 0
  room := List.length_replicate ..

def secondOne : UdsEnv := ⟨1000, 0, 0, 0⟩

/-- A physical request. -/
def physical (sid : UInt8) (rest : List UInt8) : UdsEvent (List UInt8) :=
  .indication secondOne ⟨udsCanIdPhy, sid :: rest, nofun⟩ true

/-- The extended session, a seed, and the key for level 1. -/
def unlock : List (UdsEvent (List UInt8)) :=
  [physical 0x10 [0x03], physical 0x27 [0x01],
    physical 0x27 (0x02 :: wordBytes (saGetKey 1804289383 2))]

theorem unlock_runs : (unlock.foldlM (udsTaskStep smallDevice) (.initial [7, 7])).isSome := by
  decide

def unlocked : UdsTask (List UInt8) := Option.get _ unlock_runs

theorem unlocked_reach : UdsReach smallDevice unlocked := by
  have start : UdsReach smallDevice (.initial [7, 7]) := .start ⟨_, rfl⟩
  exact start.follow unlock (Option.some_get unlock_runs).symm

theorem write_runs :
    (udsTaskStep smallDevice unlocked (physical 0x2E [0xF1, 0x90, 1, 2])).isSome := by
  decide

def downloadRefusals : List UInt8 :=
  [nrcConditionsNotCorrect, nrcServiceNotSupportedInActiveSession, nrcSecurityAccessDenied]

theorem download_error (canId : UInt32) (session : DiagSession) {level : SecLevel} {sid : UInt8}
    (download : sid ∈ [0x34, 0x36, 0x37]) (low : level ≠ .level2) :
    ∃ nrc ∈ downloadRefusals, udsServiceOf canId session level sid = .error nrc := by
  have services : sid = 0x34 ∨ sid = 0x36 ∨ sid = 0x37 := by simpa using download
  -- the first check that fails, with the level's always failing
  have denied : serverSupperTable.getD (udsGetTableIndex sid) 0 &&& level.mask = 0 := by
    cases level with
    | level0 => rcases services with rfl | rfl | rfl <;> decide
    | level1 => rcases services with rfl | rfl | rfl <;> decide
    | level2 => contradiction
  have index : udsIndexMask.getD (udsGetTableIndex sid) 0 ≠ 0 := by
    rcases services with rfl | rfl | rfl <;> decide
  unfold udsServiceOf
  dsimp only
  rw [if_neg index, if_pos denied]
  split
  · exact ⟨_, by decide, rfl⟩
  · split
    · exact ⟨_, by decide, rfl⟩
    · exact ⟨_, by decide, rfl⟩

/-- No request ever gets to the services of a download: level 2 is never granted. -/
theorem download_refused (c : UdsServices σ) {t t' : UdsTask σ} (reach : UdsReach c t)
    {env : UdsEnv} {r : UdsRequest} {created : Bool}
    (step : udsTaskStep c t (.indication env r created) = some t')
    (download : r.sid ∈ [0x34, 0x36, 0x37]) :
    ∃ nrc ∈ downloadRefusals, t'.trace = t.trace ∧
      t'.server = { t.server with out := [.response [sidNegativeResponse, r.sid, nrc]] } := by
  have inv := udsInv_reach reach
  obtain ⟨nrc, known, which⟩ := download_error r.canId t.server.session download inv.low
  obtain ⟨-, trace, -, -⟩ := indication_done inv step
  have note : udsNote c env r t.server = none := by
    unfold udsNote
    rw [which]
  refine ⟨nrc, known, by rw [trace, note]; rfl, ?_⟩
  obtain ⟨-, step⟩ := Option.ite_none_right_eq_some.mp step
  obtain ⟨server, served, rfl⟩ := Option.map_eq_some_iff.mp step
  unfold udsServerProc at served
  dsimp only at served ⊢
  rw [which] at served
  cases served
  rw [udsNegativeResponse_eq, ← inv.clear]
  rfl

theorem download_runs :
    (udsTaskStep smallDevice unlocked (physical 0x34 [0])).isSome := by
  decide

theorem unlocked_download_refused : ∃ nrc ∈ downloadRefusals,
    (Option.get _ download_runs).trace = unlocked.trace ∧
      (Option.get _ download_runs).server =
        { unlocked.server with out := [.response [sidNegativeResponse, 0x34, nrc]] } :=
  download_refused smallDevice unlocked_reach (Option.some_get download_runs).symm (by decide)

/-! ### How long a session lasts -/

/-- The numbers of the messages are those of their settings. -/
structure Numbered (s : UdsTimers) : Prop where
  number : ∀ u, (s.uds u).seq u = seqNumber (s.settings u)
  runs : ∀ u, s.running u = true → 0 < s.settings u
  message : ∀ x ∈ s.flight, x.sival = sivalInt x.timer (seqNumber x.setting) ∧
    0 < x.setting ∧ x.setting ≤ s.settings x.timer

theorem Numbered.setTimer {s : UdsTimers} (inv : Numbered s) (u : UdsTimer) (on created : Bool) :
    Numbered (s.setTimer u on created) := by
  have settings (v : UdsTimer) : (s.setTimer u on created).settings v =
    if v = u then s.settings v + 1 else s.settings v := rfl
  refine ⟨fun v => ?_, fun v running => ?_, fun x mem => ?_⟩
  · rw [setTimer_seq, settings, inv.number]
    split
    · rfl
    · rfl
  · rw [settings]
    simp only [UdsTimers.setTimer] at running
    split
    · omega
    next other =>
      rw [if_neg other] at running
      exact inv.runs v running
  · obtain ⟨sival, positive, le⟩ := inv.message x mem
    refine ⟨sival, positive, ?_⟩
    rw [settings]
    split
    · omega
    · exact le

/-- The time-out of the last setting passes the check. -/
theorem Numbered.passes {s : UdsTimers} (inv : Numbered s) {x : Expiry} (mem : x ∈ s.flight)
    (current : x.setting = s.settings x.timer) : s.check x = some x := by
  unfold UdsTimers.check
  rw [(inv.message x mem).1]
  simp only [notify_sivalInt, inv.number, current, if_true]

theorem Numbered.check {s : UdsTimers} (inv : Numbered s) {x y : Expiry} (mem : x ∈ s.flight)
    (near : s.settings x.timer < x.setting + 65535) (passes : s.check x = some y) :
    y = x ∧ x.setting = s.settings x.timer := by
  obtain ⟨sival, positive, le⟩ := inv.message x mem
  unfold UdsTimers.check at passes
  rw [sival] at passes
  simp only [notify_sivalInt] at passes
  obtain ⟨same, passes⟩ := Option.ite_none_right_eq_some.mp passes
  cases passes
  rw [inv.number] at same
  exact ⟨rfl, seqNumber_inj positive le near same⟩

theorem numbered_step {s s' : UdsTimers} (inv : Numbered s) {e : TimerEvent}
    (step : timerStep s e = some s') : Numbered s' := by
  cases e with
  | set u on created =>
    cases step
    exact inv.setTimer u on created
  | callback set =>
    cases step
    exact ⟨inv.number, inv.runs, inv.message⟩
  | expire u sent =>
    obtain ⟨running, step⟩ := Option.ite_none_right_eq_some.mp step
    cases step
    refine ⟨inv.number, fun v running' => ?_, fun x mem => ?_⟩
    · simp only [UdsTimers.expire] at running'
      split at running'
      · cases running'
      · exact inv.runs v running'
    · simp only [UdsTimers.expire] at mem
      split at mem
      · rcases List.mem_cons.mp mem with rfl | mem
        · exact ⟨congrArg (sivalInt u) (inv.number u), inv.runs u running, Nat.le_refl _⟩
        · exact inv.message x mem
      · exact inv.message x mem
  | deliver i =>
    simp only [timerStep] at step
    split at step
    · cases step
      exact ⟨inv.number, inv.runs, fun x mem => inv.message x (List.eraseIdx_subset mem)⟩
    · cases step
  | act created =>
    simp only [timerStep] at step
    split at step
    next x _ =>
      cases step
      have same (s₁ : UdsTimers) (seq : s₁.uds = s.uds) (running : s₁.running = s.running)
          (settings : s₁.settings = s.settings) (flight : s₁.flight = s.flight) :
          Numbered s₁ := by
        refine ⟨?_, ?_, ?_⟩
        · rw [seq, settings]
          exact inv.number
        · rw [running, settings]
          exact inv.runs
        · rw [flight, settings]
          exact inv.message
      unfold UdsTimers.act
      dsimp only
      split
      · exact same _ rfl rfl rfl rfl
      · exact same _ rfl rfl rfl rfl
      · exact same _ rfl rfl rfl rfl
      · refine Numbered.setTimer ?_ .serverSet true created
        exact same _ rfl rfl rfl rfl
      all_goals exact same _ rfl rfl rfl rfl
    · cases step

/-- The timer runs, or its time-out is on its way to the action. -/
def SessionAlive (s : UdsTimers) : Prop :=
  s.running .s3Server = true ∨
    (∃ x ∈ s.flight, x.timer = .s3Server ∧ x.setting = s.settings .s3Server) ∨
    ∃ x, s.passed = some x ∧ x.timer = .s3Server

/-- What is acted upon for the session's timer is of its last setting. -/
def SessionCurrent (s : UdsTimers) : Prop :=
  ∀ x, s.passed = some x → x.timer = .s3Server → x.setting = s.settings .s3Server

structure TimedInv (t : UdsTask σ) : Prop where
  numbered : Numbered t.timers
  current : SessionCurrent t.timers
  alive : t.server.session ≠ .default → SessionAlive t.timers

/-- A setting of another timer, and what leaves the three places as they are. -/
theorem SessionAlive.congr {s s' : UdsTimers} (alive : SessionAlive s)
    (running : s'.running .s3Server = s.running .s3Server)
    (settings : s'.settings .s3Server = s.settings .s3Server)
    (flight : s.flight ⊆ s'.flight) (passed : s'.passed = s.passed) : SessionAlive s' := by
  rcases alive with runs | ⟨x, mem, timer, setting⟩ | ⟨x, waits, timer⟩
  · exact .inl (running.trans runs)
  · exact .inr (.inl ⟨x, flight mem, timer, setting.trans settings.symm⟩)
  · exact .inr (.inr ⟨x, passed.trans waits, timer⟩)

theorem mem_flight_cases {s : UdsTimers} {i : Nat} {x y : Expiry} (taken : s.flight[i]? = some x)
    (mem : y ∈ s.flight) : y = x ∨ y ∈ s.flight.eraseIdx i := by
  obtain ⟨bound, rfl⟩ := List.getElem?_eq_some_iff.mp taken
  exact List.mem_cons.mp ((List.getElem_cons_eraseIdx_perm bound).mem_iff.mpr mem)

theorem act_session (s : UdsTimers) (x : Expiry) (created : Bool) :
    (s.act x created).passed = none ∧ (s.act x created).flight = s.flight ∧
      (s.act x created).running .s3Server = s.running .s3Server ∧
      (s.act x created).settings .s3Server = s.settings .s3Server := by
  obtain ⟨timer, setting, sival⟩ := x
  cases timer <;> exact ⟨rfl, rfl, rfl, rfl⟩

/-- A timer's event, the action of the session's timer apart. -/
theorem session_timer_step {s s' : UdsTimers} {e : TimerEvent} (numbered : Numbered s)
    (near : Near s e) (sends : ∀ u sent, e = .expire u sent → sent = true)
    (other : ∀ on created, e ≠ .set .s3Server on created) (step : timerStep s e = some s')
    (goes : endsSession s e = false) :
    (SessionCurrent s → SessionCurrent s') ∧ (SessionAlive s → SessionAlive s') := by
  cases e with
  | set u on created =>
    cases step
    have differs : UdsTimer.s3Server ≠ u := by
      rintro rfl
      exact other on created rfl
    have settings : (s.setTimer u on created).settings .s3Server = s.settings .s3Server :=
      if_neg differs
    refine ⟨fun current x waits timer => ?_, fun alive => ?_⟩
    · exact (current x waits timer).trans settings.symm
    · exact alive.congr (if_neg differs) settings (fun _ mem => mem) rfl
  | callback set =>
    cases step
    exact ⟨id, id⟩
  | expire u sent =>
    obtain ⟨-, step⟩ := Option.ite_none_right_eq_some.mp step
    cases step
    obtain rfl := sends u sent rfl
    refine ⟨id, fun alive => ?_⟩
    by_cases own : u = .s3Server
    · -- its message is on its way now
      subst own
      exact .inr (.inl ⟨_, List.mem_cons_self .., rfl, rfl⟩)
    · exact alive.congr (if_neg (Ne.symm own)) rfl (List.subset_cons_self ..) rfl
  | deliver i =>
    simp only [timerStep] at step
    split at step
    next x idle taken =>
      cases step
      have mem : x ∈ s.flight := List.mem_of_getElem? taken
      constructor
      · intro _ y passes timer
        obtain ⟨rfl, last⟩ := numbered.check mem (near x taken) passes
        rw [timer] at last
        exact last
      · rintro (runs | ⟨y, inside, timer, setting⟩ | ⟨y, waits, -⟩)
        · exact .inl runs
        · rcases mem_flight_cases taken inside with rfl | rest
          · refine .inr (.inr ⟨y, numbered.passes mem ?_, timer⟩)
            rw [timer]
            exact setting
          · exact .inr (.inl ⟨y, rest, timer, setting⟩)
        · cases idle.symm.trans waits
    · cases step
  | act created =>
    simp only [timerStep] at step
    split at step
    next x waits =>
      cases step
      simp only [endsSession, waits, Option.any_some, decide_eq_false_iff_not] at goes
      obtain ⟨passed, flight, running, settings⟩ := act_session s x created
      constructor
      · intro _ y again
        cases passed.symm.trans again
      · rintro (runs | ⟨y, inside, timer, setting⟩ | ⟨y, acts, timer⟩)
        · exact .inl (running.trans runs)
        · exact .inr (.inl ⟨y, flight ▸ inside, timer, setting.trans settings.symm⟩)
        · cases waits.symm.trans acts
          exact absurd timer goes
    · cases step

theorem timedInv_step {t t' : UdsTask σ} (task : UdsInv c t) (inv : TimedInv t) {e : UdsEvent σ}
    (works : TimersWork t e) (step : udsTaskStep c t e = some t') : TimedInv t' := by
  cases e with
  | indication env r created =>
    obtain ⟨-, -, timers, idle⟩ := indication_done task step
    have numbered : Numbered t'.timers := by
      rw [timers]
      exact (inv.numbered.setTimer ..).setTimer ..
    refine ⟨numbered, fun x waits => ?_, fun _ => .inl ?_⟩
    · rw [timers] at waits
      cases idle.symm.trans waits
    · -- the request has set the timer again
      rw [timers, show created = true from works]
      rfl
  | timer e =>
    obtain ⟨other, timers, rest⟩ := timer_done step
    have near : Near t.timers e := by
      cases e with
      | expire => trivial
      | _ => exact works
    have sends : ∀ u sent, e = .expire u sent → sent = true := by
      rintro u sent rfl
      exact works
    have numbered := numbered_step inv.numbered timers
    cases ends : endsSession t.timers e with
    | true =>
      rw [if_pos ends] at rest
      -- an action leaves no message behind the check
      have idle : t'.timers.passed = none := by
        cases e with
        | act created =>
          simp only [timerStep] at timers
          split at timers
          · rw [← Option.some.inj timers]
            exact (act_session ..).1
          · cases timers
        | _ => cases ends
      refine ⟨numbered, fun x waits => ?_, fun session => ?_⟩
      · cases idle.symm.trans waits
      · rw [rest.1] at session
        exact absurd rfl session
    | false =>
      rw [if_neg (by simp [ends])] at rest
      obtain ⟨current, alive⟩ := session_timer_step inv.numbered near sends other timers ends
      refine ⟨numbered, current inv.current, fun session => alive (inv.alive ?_)⟩
      rw [← rest.1]
      exact session
  | round fault src =>
    obtain ⟨-, step⟩ := Option.ite_none_right_eq_some.mp step
    cases step
    exact ⟨inv.numbered, inv.current, inv.alive⟩
  | device did =>
    cases step
    exact ⟨inv.numbered, inv.current, inv.alive⟩

theorem UdsTimedReach.reach {t : UdsTask σ} (h : UdsTimedReach c t) : UdsReach c t := by
  induction h with
  | start start => exact .start start
  | next e _ step ih => exact .next e ih step.2

theorem timedInv_reach {t : UdsTask σ} (h : UdsTimedReach c t) : TimedInv t := by
  induction h with
  | start start =>
    obtain ⟨did, rfl⟩ := start
    refine ⟨⟨fun u => ?_, nofun, nofun⟩, nofun, fun session => absurd rfl session⟩
    cases u <;> rfl
  | next e reach step ih =>
    exact timedInv_step (udsInv_reach (UdsTimedReach.reach reach)) ih step.1 step.2

/-- A time-out, its message taken, or its action. -/
def TimesOut (c : UdsServices σ) (t t' : UdsTask σ) : Prop :=
  ∃ e, TimersWork t (.timer e) ∧ udsTaskStep c t (.timer e) = some t' ∧
    match e with
    | .expire _ _ | .deliver _ | .act _ => True
    | .set _ _ _ | .callback _ => False

/-- Time-outs alone lead to the default session. -/
abbrev MayEnd (c : UdsServices σ) (t : UdsTask σ) : Prop :=
  ∃ t', Relation.ReflTransGen (TimesOut c) t t' ∧ t'.server.session = .default

theorem ends_by_action {t : UdsTask σ} {x : Expiry} (waits : t.timers.passed = some x)
    (timer : x.timer = .s3Server) : MayEnd c t := by
  refine ⟨⟨t.server.sessionDefault, t.timers.act x true, .ended :: t.trace⟩,
    .single ⟨.act true, trivial, ?_, trivial⟩, rfl⟩
  simp [udsTaskStep, timerStep, waits, endsSession, timer]

theorem ends_by_message {t : UdsTask σ} (inv : TimedInv t) (idle : t.timers.passed = none)
    {x : Expiry} (mem : x ∈ t.timers.flight) (timer : x.timer = .s3Server)
    (setting : x.setting = t.timers.settings .s3Server) : MayEnd c t := by
  obtain ⟨i, bound, taken⟩ := List.getElem_of_mem mem
  have taken : t.timers.flight[i]? = some x := List.getElem?_eq_some_iff.mpr ⟨bound, taken⟩
  have current : x.setting = t.timers.settings x.timer := by
    rw [timer]
    exact setting
  have passes := inv.numbered.passes mem current
  obtain ⟨t', steps, default⟩ := ends_by_action (c := c) (x := x) (t :=
    { t with timers := { t.timers with
        flight := t.timers.flight.eraseIdx i
        passed := some x } }) rfl timer
  refine ⟨t', .head ⟨.deliver i, ?_, ?_, trivial⟩ steps, default⟩
  · intro y other
    cases taken.symm.trans other
    omega
  · simp [udsTaskStep, timerStep, idle, taken, passes, endsSession]

theorem ends_by_expiry {t : UdsTask σ} (inv : TimedInv t) (idle : t.timers.passed = none)
    (runs : t.timers.running .s3Server = true) : MayEnd c t := by
  have step : timerStep t.timers (.expire .s3Server true) =
      some (t.timers.expire .s3Server true) := if_pos runs
  have next : TimedInv { t with timers := t.timers.expire .s3Server true } :=
    ⟨numbered_step inv.numbered step, fun x waits => inv.current x waits, fun _ =>
      .inr (.inl ⟨_, List.mem_cons_self .., rfl, rfl⟩)⟩
  obtain ⟨t', steps, default⟩ :=
    ends_by_message (c := c) next idle (List.mem_cons_self ..) rfl rfl
  refine ⟨t', .head ⟨.expire .s3Server true, rfl, ?_, trivial⟩ steps, default⟩
  simp [udsTaskStep, step, endsSession]

theorem ends_when_idle {t : UdsTask σ} (inv : TimedInv t) (idle : t.timers.passed = none)
    (session : t.server.session ≠ .default) : MayEnd c t := by
  rcases inv.alive session with runs | ⟨x, mem, timer, setting⟩ | ⟨x, waits, -⟩
  · exact ends_by_expiry inv idle runs
  · exact ends_by_message inv idle mem timer setting
  · cases idle.symm.trans waits

end Uds
