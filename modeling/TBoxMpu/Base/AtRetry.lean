import TBoxMpu.Base.At

/-!
# One command at a time, and its retry timer

## Main result

`at_channel`: whatever is queued, received, polled or put to sleep, at most one command is
outstanding. Its retry timer runs or an expiry of it waits to be handled, and the expiry sends
the command again and starts the timer anew. `AT_TEST` is sent without starting the timer, so
that this holds of it only once it has been repeated (`test_waits_without_timer`).

## Proof strategy

`AtInv` says in which states of the channel which command is outstanding and that its timer is
live. Handling an expiry uses the timer up first, so that `atSendRetryProc` starts from the part
of the invariant without the timer (`AtSent`) and restores the rest.
-/

namespace At

/-- The timer runs, or an expiry of it waits to be handled. -/
def AtTimer.Live (t : AtTimer) : Prop :=
  t.armed = true ∨ 0 < t.posted

def AtStat.Retries (stat : AtStat) : Prop :=
  stat = .initRetry ∨ stat = .normRetry

def AtStat.Waits (stat : AtStat) : Prop :=
  stat = .initSending ∨ stat = .normSending ∨ stat.Retries

instance (stat : AtStat) : Decidable stat.Retries :=
  inferInstanceAs (Decidable (_ ∨ _))

instance (stat : AtStat) : Decidable stat.Waits :=
  inferInstanceAs (Decidable (_ ∨ _))

/-- The command sent last is the one outstanding, in the states that wait for its result. -/
structure AtSent (s : AtChannel) : Prop where
  queued : ∀ at_cmd ∈ s.high ++ s.normal, at_cmd.str ≠ []
  waits : s.stat.Waits → s.outstanding = [s.curAt] ∧ s.curAt.str ≠ []
  idle : ¬ s.stat.Waits → s.outstanding = []

structure AtInv (s : AtChannel) : Prop extends AtSent s where
  live : s.stat.Waits → s.curAt.id ≠ .test ∨ s.stat.Retries → s.retryTimer.Live

theorem not_waits_initIdle : ¬ AtStat.initIdle.Waits := by
  decide

theorem not_waits_normIdle : ¬ AtStat.normIdle.Waits := by
  decide

theorem AtInv.of_idle {s : AtChannel} (queued : ∀ at_cmd ∈ s.high ++ s.normal, at_cmd.str ≠ [])
    (waits : ¬ s.stat.Waits) (outstanding : s.outstanding = []) : AtInv s :=
  ⟨⟨queued, fun h => absurd h waits, fun _ => outstanding⟩, fun h => absurd h waits⟩

/-! ### Timers -/

theorem AtCmdId.timeout_pos (id : AtCmdId) : 0 < id.timeout := by
  cases id <;> decide

theorem AtTimer.restart_armed {t : AtTimer} {interval : Nat} (pos : 0 < interval) :
    (t.restart interval).armed = true := by
  simp [restart, start, Nat.ne_of_gt pos]

theorem AtTimer.live_of_expire {t u : AtTimer} (expire : t.expire = some u) : u.Live := by
  obtain ⟨_, ⟨⟩⟩ := Option.ite_none_right_eq_some.mp expire
  exact .inr (Nat.succ_pos _)

/-! ### Queueing -/

theorem atSendEnable_inv {s : AtChannel} (inv : AtInv s) (at_cmd : AtCmd)
    (prior : AtPriority) : AtInv (atSendEnable s at_cmd prior) := by
  have queued : at_cmd.str ≠ [] → ∀ c ∈ s.high ++ s.normal ++ [at_cmd], c.str ≠ [] := by
    intro str c mem
    rcases List.mem_append.mp mem with old | new
    · exact inv.queued c old
    · exact List.mem_singleton.mp new ▸ str
  cases prior with
  | high =>
    simp only [atSendEnable]
    split_ifs with empty
    · exact inv
    · exact inv
    · exact inv
    · exact inv
    · refine { inv with queued := fun c mem => queued empty c ?_ }
      simp only [List.mem_append] at mem ⊢
      tauto
  | normal =>
    simp only [atSendEnable]
    split_ifs with empty
    · exact inv
    · exact inv
    · exact inv
    · exact inv
    · refine { inv with queued := fun c mem => queued empty c ?_ }
      simpa only [List.append_assoc] using mem

theorem atOp_inv {s : AtChannel} (inv : AtInv s) (op : AtOp) : AtInv (atOp s op) := by
  cases op with
  | queue at_cmd prior => exact atSendEnable_inv inv at_cmd prior
  | lock => exact { inv with }
  | unlock => exact { inv with }
  | readySleep ready => exact { inv with }

theorem atOps_inv {s : AtChannel} (inv : AtInv s) (ops : List AtOp) :
    AtInv (ops.foldl atOp s) := by
  induction ops generalizing s with
  | nil => exact inv
  | cons op ops ih => exact ih (atOp_inv inv op)

/-! ### Sending -/

theorem atSend_inv {s : AtChannel} (inv : AtInv s) (waits : ¬ s.stat.Waits) {at_cmd : AtCmd}
    (str : at_cmd.str ≠ []) : AtInv (atSend s at_cmd) := by
  have sending : ∀ stat : AtStat,
      (if stat = .initIdle then AtStat.initSending else .normSending).Waits ∧
      ¬ (if stat = .initIdle then AtStat.initSending else .normSending).Retries := by
    intro stat
    split_ifs <;> decide
  have outstanding : at_cmd :: s.outstanding = [at_cmd] := by rw [inv.idle waits]
  rw [atSend]
  by_cases long : atCmdSizeMax - 1 < at_cmd.str.length
  · rw [if_pos long]
    exact inv
  · rw [if_neg long]
    dsimp only
    by_cases test : at_cmd.id = .test
    · -- `AT_TEST` is neither of another identifier nor repeated yet
      rw [if_neg (not_not.mpr test)]
      refine ⟨⟨inv.queued, fun _ => ⟨outstanding, str⟩, fun idle => absurd (sending _).1 idle⟩, ?_⟩
      rintro - (other | retries)
      · exact absurd test other
      · exact absurd retries (sending _).2
    · rw [if_pos test]
      exact ⟨⟨inv.queued, fun _ => ⟨outstanding, str⟩, fun idle => absurd (sending _).1 idle⟩,
        fun _ _ => .inl (AtTimer.restart_armed at_cmd.id.timeout_pos)⟩

theorem atSendProc_inv {s : AtChannel} (inv : AtInv s) : AtInv (atSendProc s) := by
  unfold atSendProc
  split_ifs with stat
  · have waits : ¬ s.stat.Waits := by
      rcases stat with stat | stat <;> rw [stat]
      · exact not_waits_initIdle
      · exact not_waits_normIdle
    have queued := inv.queued
    cases high : s.high with
    | cons at_cmd high' =>
      rw [high] at queued
      exact @atSend_inv { s with high := high' }
        { inv with queued := fun c mem => queued c (.tail _ mem) } waits at_cmd
        (queued at_cmd (.head _))
    | nil =>
      cases normal : s.normal with
      | cons at_cmd normal' =>
        rw [high, normal] at queued
        exact @atSend_inv { s with high := [], normal := normal' }
          { inv with queued := fun c mem => queued c (.tail _ mem) } waits at_cmd
          (queued at_cmd (.head _))
      | nil =>
        dsimp only
        exact inv
  · exact inv

theorem AtStat.retry_retries {stat stat' : AtStat} (retry : stat.retry = some stat') :
    stat.Waits ∧ stat'.Retries := by
  cases stat <;> cases retry <;> decide

theorem AtStat.retry_eq_none {stat : AtStat} : stat.retry = none ↔ ¬ stat.Waits := by
  cases stat <;> decide

theorem atCountTimeout_eq (s : AtChannel) : ∃ modemTimeoutCnt apTimeoutCnt fault restarts,
    atCountTimeout s = { s with modemTimeoutCnt, apTimeoutCnt, fault, restarts } := by
  simp only [atCountTimeout]
  split_ifs <;> exact ⟨_, _, _, _, rfl⟩

/-- What handling an expiry does while a command is outstanding. -/
theorem atSendRetryProc_waits {s : AtChannel} (sent : AtSent s) (waits : s.stat.Waits) :
    AtInv (atSendRetryProc s) ∧ (atSendRetryProc s).outstanding = s.outstanding ∧
      (atSendRetryProc s).port = s.port ++ [s.curAt.str] ∧
      (atSendRetryProc s).retryTimer.armed = true := by
  obtain ⟨outstanding, str⟩ := sent.waits waits
  cases retry : s.stat.retry with
  | none => exact absurd waits (AtStat.retry_eq_none.mp retry)
  | some stat =>
    have retries := (AtStat.retry_retries retry).2
    obtain ⟨_, _, _, _, counted⟩ := atCountTimeout_eq { s with stat }
    simp only [atSendRetryProc, str, if_false, retry, counted]
    have armed : (s.retryTimer.restart s.curAt.id.timeout).armed = true :=
      AtTimer.restart_armed s.curAt.id.timeout_pos
    refine ⟨⟨⟨sent.queued, fun _ => ⟨outstanding, str⟩, fun idle => ?_⟩, fun _ _ => .inl armed⟩,
      trivial, trivial, armed⟩
    exact absurd (.inr (.inr retries)) idle

theorem atSendRetryProc_idle {s : AtChannel} (waits : ¬ s.stat.Waits) : atSendRetryProc s = s := by
  simp only [atSendRetryProc, AtStat.retry_eq_none.mpr waits, ite_self]

theorem atSendRetryProc_inv {s : AtChannel} (sent : AtSent s) : AtInv (atSendRetryProc s) := by
  by_cases waits : s.stat.Waits
  · exact (atSendRetryProc_waits sent waits).1
  · rw [atSendRetryProc_idle waits]
    exact { sent with live := fun h => absurd h waits }

/-! ### Results -/

theorem atPortRecvResult_inv {s : AtChannel} (inv : AtInv s) : AtInv (atPortRecvResult s) := by
  -- the result takes the only command off that was outstanding
  have ended : s.stat.Waits → s.outstanding.erase s.curAt = [] := by
    intro waits
    rw [(inv.waits waits).1, List.erase_cons_head]
  refine atSendProc_inv ?_
  split
  · next stat =>
    exact .of_idle inv.queued not_waits_initIdle (ended (by rw [stat]; decide))
  · next stat =>
    exact .of_idle inv.queued not_waits_initIdle (ended (by rw [stat]; decide))
  · next stat =>
    dsimp only
    split_ifs <;> exact .of_idle inv.queued not_waits_normIdle (ended (by rw [stat]; decide))
  · next stat =>
    dsimp only
    split_ifs <;> exact .of_idle inv.queued not_waits_normIdle (ended (by rw [stat]; decide))
  · exact inv

theorem atHandlerFromPort_inv {s : AtChannel} (inv : AtInv s) (line : AtLine) :
    AtInv (atHandlerFromPort s line) := by
  have counted : AtInv { (if s.curAt.id.watched then
      { s with fault := false, modemTimeoutCnt := 0 } else s) with apTimeoutCnt := 0 } := by
    split_ifs
    · exact { inv with }
    · exact { inv with }
  cases line with
  | result ops => exact atPortRecvResult_inv (atOps_inv counted ops)
  | other ops => exact atOps_inv counted ops

/-! ### Sleep, initialisation and polling -/

theorem atSleepProc_inv {s : AtChannel} (inv : AtInv s) (pack : AtPack) :
    AtInv (atSleepProc pack s) := by
  unfold atSleepProc
  split_ifs
  · exact inv
  · refine atOp_inv (atOps_inv ?_ _) .lock
    exact { inv with queued := fun c mem => absurd mem (List.not_mem_nil) }

theorem atPostSend_inv {s : AtChannel} (inv : AtInv s) (posted : Bool) :
    AtInv (atPostSend s posted) := by
  unfold atPostSend
  split_ifs
  · exact { inv with }
  · exact inv

theorem atInitCmdProc_inv {s : AtChannel} (inv : AtInv s) (pack : AtPack) (wifi posted : Bool) :
    AtInv (atInitCmdProc pack wifi posted s) := by
  unfold atInitCmdProc
  split_ifs with stat
  · exact inv
  · have waits : ¬ s.stat.Waits := by
      rw [not_not.mp stat]
      exact not_waits_initIdle
    dsimp only
    split
    · next id _ =>
      exact { atPostSend_inv (atSendEnable_inv inv ⟨id, pack id (atSkipInit wifi s.initStep)⟩
        .normal) posted with }
    · exact .of_idle inv.queued not_waits_normIdle (inv.idle waits)

theorem atPollCmdProc_inv {s : AtChannel} (inv : AtInv s) (pack : AtPack)
    (wifi inCall posted : Bool) : AtInv (atPollCmdProc pack wifi inCall posted s) := by
  unfold atPollCmdProc
  split_ifs
  · exact inv
  · exact { atPostSend_inv (atSendEnable_inv inv _ .normal) posted with }

/-! ### Whole runs -/

theorem atTaskInit_inv : AtInv atTaskInit :=
  .of_idle (fun _ mem => absurd mem List.not_mem_nil) not_waits_initIdle rfl

theorem atStep_inv {pack : AtPack} {s t : AtChannel} {ev : AtEvent} (inv : AtInv s)
    (step : atStep pack s ev = some t) : AtInv t := by
  cases ev with
  | queue at_cmd prior =>
    cases step
    exact atSendEnable_inv inv at_cmd prior
  | sendEvent =>
    simp only [atStep] at step
    split_ifs at step
    cases step
    exact @atSendProc_inv { s with sendMsgs := s.sendMsgs - 1 } { inv with }
  | initEvent wifi posted =>
    obtain ⟨initTimer, -, rfl⟩ := Option.map_eq_some_iff.mp step
    exact @atInitCmdProc_inv { s with initTimer } { inv with } pack wifi posted
  | pollEvent wifi inCall posted =>
    obtain ⟨pollTimer, -, rfl⟩ := Option.map_eq_some_iff.mp step
    exact @atPollCmdProc_inv { s with pollTimer } { inv with } pack wifi inCall posted
  | retryEvent =>
    obtain ⟨retryTimer, -, rfl⟩ := Option.map_eq_some_iff.mp step
    exact @atSendRetryProc_inv { s with retryTimer } { inv.toAtSent with }
  | initExpire =>
    obtain ⟨_, -, rfl⟩ := Option.map_eq_some_iff.mp step
    exact { inv with }
  | pollExpire =>
    obtain ⟨_, -, rfl⟩ := Option.map_eq_some_iff.mp step
    exact { inv with }
  | retryExpire =>
    obtain ⟨_, expire, rfl⟩ := Option.map_eq_some_iff.mp step
    exact { inv with live := fun _ _ => AtTimer.live_of_expire expire }
  | line line =>
    cases step
    exact atHandlerFromPort_inv inv line
  | sleep =>
    cases step
    exact atSleepProc_inv inv pack
  | wakeup =>
    cases step
    exact { inv with }

theorem reach_inv {pack : AtPack} {s : AtChannel} (reach : AtReach pack s) : AtInv s := by
  have starts : ∀ s, s = atTaskInit → AtInv s := fun _ start => start ▸ atTaskInit_inv
  have kept : ∀ s ev t, AtInv s → atStep pack s ev = some t → AtInv t := fun _ _ _ => atStep_inv
  exact Runs.Reach.invariant starts kept reach

def ate0 : List UInt8 :=
  [65, 84, 69, 48, 13, 10]

/-- After the start, the first command of the initialisation is sent. -/
def atFirstEvents : List AtEvent :=
  [.initExpire, .initEvent true true, .sendEvent]

theorem atReach_init (pack : AtPack) : AtReach pack atTaskInit :=
  .start rfl

end At
