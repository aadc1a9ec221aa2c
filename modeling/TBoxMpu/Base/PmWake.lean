import Mathlib.Tactic.ByContra
import TBoxMpu.Base.PmSleep
import TBoxMpu.Lib.Runs

/-!
# The wake lock and the status item

Between two events the wake lock is released in the sleep state only. The status item that lets
the applications sleep is set in the emergency check, and each way back to the running state
resets it but one: a ring in the power-off check.
-/

namespace Pm

open Runs

/-! ### What a step does to them -/

/-- The state, the lock and the status item, from one event to the next; `ring` tells whether
the event is a ring. -/
inductive Moved (ring : Prop) (pm pm' : Machine) : Prop
  | stays (state : pm'.state = pm.state) (voted : pm'.voted = pm.voted)
      (app : pm'.appSleep = pm.appSleep)
  | woken (state : pm'.state = .normal) (voted : pm'.voted = false) (app : pm'.appSleep = 0)
      (call : .voteOppose ∈ pm'.calls)
  | rung (before : pm.state = .mckSleep ∨ (pm.state = .mckPowerOff ∧ ring) ∨ pm.state = .sleep)
      (state : pm'.state = .normal) (voted : pm'.voted = false)
      (app : pm'.appSleep = pm.appSleep) (call : .voteOppose ∈ pm'.calls)
  | timed (before : pm.state = .mckSleep ∨ pm.state = .sleep) (state : pm'.state = .mckSleep)
      (voted : pm'.voted = false) (app : pm'.appSleep = pm.appSleep)
      (call : .voteOppose ∈ pm'.calls)
  | entered (before : pm.state = .normal ∨ pm.state = .mckSleep ∨ pm.state = .mckEmergency)
      (state : pm'.state ≠ .sleep) (running : pm'.state ≠ .normal)
      (off : pm.state = .mckEmergency → pm'.state = .mckPowerOff)
      (voted : pm'.voted = pm.voted) (app : pm'.appSleep = pm.appSleep)
  | slept (before : pm.state = .mckSleep) (state : pm'.state = .sleep) (voted : pm'.voted = true)
      (app : pm'.appSleep = pm.appSleep)
  | appSlept (before : pm.state = .mckEmergency) (state : pm'.state = .mckEmergency)
      (voted : pm'.voted = pm.voted)
  | resumed (before : pm.state = .mckFotaUpdate) (state : pm'.state = .normal)
      (voted : pm'.voted = pm.voted) (app : pm'.appSleep = pm.appSleep)

variable {ring : Prop} {a : Answers} {pm pm' m : Machine} {id : PmEvtId}

/-- The checks and questions only note their calls. -/
structure SameWake (pm pm' : Machine) : Prop where
  state : pm'.state = pm.state
  voted : pm'.voted = pm.voted
  app : pm'.appSleep = pm.appSleep

theorem sameWake_bothChecks (a : Answers) (pm : Machine) : SameWake pm (bothChecks a pm).2 :=
  ⟨rfl, rfl, rfl⟩

theorem sameWake_powerOffChecks (a : Answers) (pm : Machine) :
    SameWake pm (powerOffChecks a pm).2 := by
  unfold powerOffChecks
  split
  · exact sameWake_bothChecks a pm
  · exact ⟨rfl, rfl, rfl⟩

theorem sameWake_isSleepReady (a : Answers) (id : PmEvtId) (pm : Machine) :
    SameWake pm (pmIsSleepReady a id pm).2 := by
  unfold pmIsSleepReady
  dsimp only
  split
  · exact ⟨rfl, rfl, rfl⟩
  · exact ⟨rfl, rfl, rfl⟩

theorem SameWake.trans (first : SameWake pm m) (second : SameWake m pm') : SameWake pm pm' :=
  ⟨second.state.trans first.state, second.voted.trans first.voted, second.app.trans first.app⟩

theorem SameWake.stays (same : SameWake pm pm') : Moved ring pm pm' :=
  .stays same.state same.voted same.app

theorem moved_enter (a : Answers) {state : PmState} (id : PmEvtId)
    (before : pm.state = .normal ∨ pm.state = .mckSleep ∨ pm.state = .mckEmergency)
    (asleep : state ≠ .sleep) (running : state ≠ .normal)
    (off : pm.state = .mckEmergency → state = .mckPowerOff) : Moved ring pm (enter state id a pm) :=
  .entered before asleep running off rfl rfl

theorem moved_mcuWakeup (a : Answers) (m : Machine) : Moved ring pm (pmMcuWakeup a m) :=
  .woken rfl rfl rfl (by simp [pmMcuWakeup, Machine.stSetAppSleep, Machine.notify,
    Machine.setState, Machine.voteOppose, Machine.call])

/-- A woken module stays so when the line is lowered. -/
theorem moved_mcuWakeup_low (a : Answers) (m : Machine) :
    Moved ring pm (pmMcuWakeup a m).wakeupLow :=
  .woken rfl rfl rfl (by simp [pmMcuWakeup, Machine.wakeupLow, Machine.stSetAppSleep,
    Machine.notify, Machine.setState, Machine.voteOppose, Machine.call])

theorem moved_ringWakeup (a : Answers) (same : SameWake pm m)
    (before : pm.state = .mckSleep ∨ (pm.state = .mckPowerOff ∧ ring) ∨ pm.state = .sleep) :
    Moved ring pm (pmRingWakeup a m) := by
  -- in the running state a ring does not reset the machine
  have away : m.state ≠ .normal := by
    rw [same.state]
    rcases before with state | ⟨state, -⟩ | state
    · rw [state]
      decide
    · rw [state]
      decide
    · rw [state]
      decide
  unfold pmRingWakeup
  rw [if_pos away]
  refine .rung before rfl rfl same.app ?_
  simp [Machine.wakeupHigh, Machine.notify, Machine.setState, Machine.voteOppose, Machine.call]

theorem moved_s0e3 (state : pm.state = .normal) : Moved ring pm (pmStS0e3 a pm) := by
  have emergency : pm.state ≠ .mckEmergency := by
    rw [state]
    decide
  have left : ∀ {pm' : Machine} (st : PmState), pm'.state = st → st ≠ .sleep → st ≠ .normal →
      pm'.voted = pm.voted → pm'.appSleep = pm.appSleep → Moved ring pm pm' :=
    fun st here asleep running => .entered (.inl state) (here ▸ asleep) (here ▸ running)
      fun e => absurd e emergency
  unfold pmStS0e3
  dsimp only
  split
  · split
    · exact .stays rfl rfl rfl
    · exact .stays rfl rfl rfl
  · split
    · split
      · exact .stays rfl rfl rfl
      · -- the tenth check that allows to sleep: the mode tells which way
        split
        · exact left .mckPowerOff rfl (by decide) (by decide) rfl rfl
        · exact left .mckPowerOff rfl (by decide) (by decide) rfl rfl
        · exact left .mckPowerOff rfl (by decide) (by decide) rfl rfl
        · exact left .mckSleep rfl (by decide) (by decide) rfl rfl
    · exact .stays rfl rfl rfl

theorem moved_s1e3 (state : pm.state = .mckSleep) : Moved ring pm (pmStS1e3 a pm) := by
  have asked := (sameWake_bothChecks a pm).trans (sameWake_isSleepReady a .sleep _)
  unfold pmStS1e3
  dsimp only
  split
  · -- the wake-up line of the module is up
    exact moved_mcuWakeup_low a _
  · split
    · -- both the modules and the applications agree to sleep
      refine .slept state ?_ rfl ?_
      · split
        · rfl
        · rfl
      · split
        · exact asked.app
        · exact asked.app
    · exact asked.stays

theorem moved_s2e3 : Moved ring pm (pmStS2e3 a pm) := by
  have asked := (sameWake_powerOffChecks a pm).trans (sameWake_isSleepReady a .off _)
  unfold pmStS2e3
  dsimp only
  split
  · exact moved_mcuWakeup_low a _
  · split
    · exact .stays asked.state asked.voted asked.app
    · exact asked.stays

theorem moved_s3e3 (state : pm.state = .mckEmergency) : Moved ring pm (pmStS3e3 a pm) := by
  have asked := sameWake_isSleepReady a .emergency pm.wakeupLow
  unfold pmStS3e3
  dsimp only
  split
  · exact .appSlept state (asked.state.trans state) asked.voted
  · exact .stays asked.state asked.voted asked.app

theorem moved_s4e3 (state : pm.state = .sleep) : Moved ring pm (pmStS4e3 a pm) := by
  unfold pmStS4e3
  dsimp only
  split
  · exact moved_mcuWakeup_low a _
  · split
    · exact moved_ringWakeup a (sameWake_bothChecks a pm) (.inr (.inr state))
    · exact (sameWake_bothChecks a pm).stays

theorem moved_s5e3 : Moved ring pm (pmStS5e3 a pm) := by
  have asked := sameWake_isSleepReady a .off pm
  unfold pmStS5e3
  dsimp only
  split
  · exact .stays asked.state asked.voted asked.app
  · exact .stays asked.state asked.voted asked.app

theorem moved_s6e3 : Moved ring pm (pmStS6e3 a pm) := by
  have asked := sameWake_isSleepReady a .off pm
  unfold pmStS6e3
  dsimp only
  split
  · exact .stays asked.state asked.voted asked.app
  · exact .stays asked.state asked.voted asked.app

theorem sameWake_startFotaUpdate (isAllow : Bool) (pm : Machine) :
    SameWake pm (startFotaUpdate isAllow pm) := by
  unfold startFotaUpdate
  split
  · exact ⟨rfl, rfl, rfl⟩
  · exact ⟨rfl, rfl, rfl⟩

theorem moved_s7e3 (state : pm.state = .mckFotaUpdate) : Moved ring pm (pmStS7e3 a pm) := by
  have allowed : SameWake pm (fotaAllowed a pm).2 := by
    have asked := sameWake_isSleepReady a .off pm
    unfold fotaAllowed
    dsimp only
    split
    · exact asked
    · exact ⟨asked.state, asked.voted, asked.app⟩
  unfold pmStS7e3
  dsimp only
  split
  · exact allowed.stays
  · exact allowed.stays
  · -- a failed update is started again three times, then given up
    split
    · exact .resumed state rfl allowed.voted allowed.app
    · have counted : SameWake pm { (fotaAllowed a pm).2 with
          fotaErrorCnt := (fotaAllowed a pm).2.fotaErrorCnt + 1 } :=
        ⟨allowed.state, allowed.voted, allowed.app⟩
      exact (counted.trans (sameWake_startFotaUpdate _ _)).stays
  · exact (allowed.trans (sameWake_startFotaUpdate _ _)).stays

/-- One event; the cases follow the rows of the table. -/
theorem moved_stateTbl (evt : PmEvent) (a : Answers) (pm : Machine) :
    Moved (evt = .ring) pm (stateTbl pm.state evt a pm) := by
  have idle : ∀ {ring : Prop}, Moved ring pm pm := .stays rfl rfl rfl
  cases state : pm.state with
  | normal =>
    have entered : ∀ {ring : Prop} st id, st ≠ .sleep → st ≠ .normal →
        Moved ring pm (enter st id a pm) := fun st id asleep running =>
      moved_enter a id (.inl state) asleep running (by rw [state]; nofun)
    cases evt with
    | ring =>
      show Moved _ pm (pmRingWakeup a pm)
      -- a ring while running raises the wake-up line at most
      unfold pmRingWakeup
      rw [if_neg (not_not_intro state)]
      dsimp only
      split
      · exact .stays rfl rfl rfl
      · exact .stays rfl rfl rfl
    | timeout => exact moved_s0e3 state
    | rtc => exact idle
    | running => exact idle
    | emergency => exact entered .mckEmergency .emergency (by decide) (by decide)
    | powerOff => exact entered .mckPowerOff .off (by decide) (by decide)
    | sleepReq => exact entered .mckSleep .sleep (by decide) (by decide)
    | restartAppReq => exact entered .mckRestartApp .off (by decide) (by decide)
    | restart4GReq => exact entered .mckRestart4G .off (by decide) (by decide)
    | fotaUpdateReq => exact entered .mckFotaUpdate .off (by decide) (by decide)
  | mckSleep =>
    cases evt with
    | ring => exact moved_ringWakeup a ⟨rfl, rfl, rfl⟩ (.inl state)
    | rtc =>
      refine .timed (.inl state) state rfl rfl ?_
      simp [stateTbl, pmRtcWakeup, Machine.notify, Machine.voteOppose, Machine.call]
    | running => exact moved_mcuWakeup a pm
    | timeout => exact moved_s1e3 state
    | emergency =>
      have emergency : pm.state ≠ .mckEmergency := by
        rw [state]
        decide
      exact moved_enter a .emergency (.inr (.inl state)) (by decide) (by decide)
        fun e => absurd e emergency
    | _ => exact idle
  | mckPowerOff =>
    cases evt with
    | ring => exact moved_ringWakeup a ⟨rfl, rfl, rfl⟩ (.inr (.inl ⟨state, rfl⟩))
    | running => exact moved_mcuWakeup a pm
    | timeout => exact moved_s2e3
    | _ => exact idle
  | mckEmergency =>
    cases evt with
    | running => exact moved_mcuWakeup a pm
    | timeout => exact moved_s3e3 state
    | powerOff =>
      exact moved_enter a .off (.inr (.inr state)) (by decide) (by decide) fun _ => rfl
    | _ => exact idle
  | sleep =>
    cases evt with
    | ring => exact moved_ringWakeup a ⟨rfl, rfl, rfl⟩ (.inr (.inr state))
    | rtc =>
      refine .timed (.inr state) rfl rfl rfl ?_
      simp [stateTbl, pmStS4e1, pmRtcWakeup, Machine.setState, Machine.notify,
        Machine.voteOppose, Machine.call]
    | timeout => exact moved_s4e3 state
    | _ => exact idle
  | mckRestartApp =>
    cases evt with
    | timeout => exact moved_s5e3
    | _ => exact idle
  | mckRestart4G =>
    cases evt with
    | timeout => exact moved_s6e3
    | _ => exact idle
  | mckFotaUpdate =>
    cases evt with
    | timeout => exact moved_s7e3 state
    | _ => exact idle

/-- The action is a ring. -/
def Act.Rings : Act → Prop
  | .event evt _ => PmEvent.ofInt evt = some .ring
  | _ => False

theorem moved_step (pm : Machine) (act : Act) : Moved act.Rings pm (step pm act) := by
  cases act with
  | event evt a =>
    show Moved _ pm (pmEvtProc evt a { pm with calls := [] })
    unfold pmEvtProc
    -- the identifier comes from another process: it may name no event
    cases named : PmEvent.ofInt evt with
    | none => exact .stays rfl rfl rfl
    | some event =>
      have moved := moved_stateTbl event a { pm with calls := [] }
      cases moved with
      | stays state voted app => exact .stays state voted app
      | woken state voted app call => exact .woken state voted app call
      | rung before state voted app call =>
        refine .rung (before.imp_right (Or.imp_left ?_)) state voted app call
        rintro ⟨off, rfl⟩
        exact ⟨off, named⟩
      | timed before state voted app call => exact .timed before state voted app call
      | entered before state running off voted app =>
        exact .entered before state running off voted app
      | slept before state voted app => exact .slept before state voted app
      | appSlept before state voted => exact .appSlept before state voted
      | resumed before state voted app => exact .resumed before state voted app
  | mode newMode =>
    simp only [step, pmModeProc]
    split
    · exact .stays rfl rfl rfl
    · exact .stays rfl rfl rfl
  | register mid =>
    simp only [step, pmRegHandler]
    split
    · exact .stays rfl rfl rfl
    · exact .stays rfl rfl rfl

/-! ### Every run -/

/-- The lock is released in the sleep state, and only there. -/
def Machine.Locked (pm : Machine) : Prop := pm.voted = true ↔ pm.state = .sleep

theorem locked_moved (moved : Moved ring pm pm') (locked : pm.Locked) : pm'.Locked := by
  unfold Machine.Locked at locked ⊢
  cases moved with
  | stays state voted app => rw [state, voted, locked]
  | woken state voted app call => simp [state, voted]
  | rung before state voted app call => simp [state, voted]
  | timed before state voted app call => simp [state, voted]
  | entered before state running off voted app =>
    have awake : pm.state ≠ .sleep := by
      rcases before with before | before | before
      · simp [before]
      · simp [before]
      · simp [before]
    simp [state, voted, locked, awake]
  | slept before state voted app => simp [state, voted]
  | appSlept before state voted => simp [state, voted, locked, before]
  | resumed before state voted app => simp [state, voted, locked, before]

theorem locked_run (pm : Machine) (acts : List Act) (locked : pm.Locked) :
    (acts.foldl step pm).Locked := by
  induction acts generalizing pm with
  | nil => exact locked
  | cons act rest ih => exact ih (step pm act) (locked_moved (moved_step pm act) locked)

/-- In every run the wake lock is released between two events if and only if the machine is in
the sleep state, and a step that leaves that state takes the lock back. -/
theorem lock_follows_sleep (acts : List Act) (act : Act) :
    ((run acts).voted = true ↔ (run acts).state = .sleep) ∧
      ((run acts).state = .sleep → (step (run acts) act).state ≠ .sleep →
        .voteOppose ∈ (step (run acts) act).calls ∧ (step (run acts) act).voted = false) := by
  constructor
  · have initial : Machine.initial.Locked := by
      constructor
      · nofun
      · nofun
    exact locked_run .initial acts initial
  · intro asleep left
    cases moved_step (run acts) act with
    | stays state voted app => exact absurd (state.trans asleep) left
    | woken state voted app call => exact ⟨call, voted⟩
    | rung before state voted app call => exact ⟨call, voted⟩
    | timed before state voted app call => exact ⟨call, voted⟩
    | entered before state running off voted app =>
      rw [asleep] at before
      simp at before
    | slept before state voted app => exact absurd state left
    | appSlept before state voted =>
      rw [asleep] at before
      cases before
    | resumed before state voted app =>
      rw [asleep] at before
      cases before

/-- The status item says "not asleep", but in the emergency state and in the power-off state that
follows it. -/
def Machine.Awake (pm : Machine) : Prop :=
  pm.appSleep ≠ 0 → pm.state = .mckEmergency ∨ pm.state = .mckPowerOff

/-- A ring does not come in the power-off state while the applications are let asleep. -/
def Machine.Resets (pm : Machine) (act : Act) : Prop :=
  act.Rings → pm.state = .mckPowerOff → pm.appSleep = 0

theorem awake_moved {act : Act} (resets : pm.Resets act) (moved : Moved act.Rings pm pm')
    (awake : pm.Awake) : pm'.Awake := by
  -- outside the two states the item was already back at zero
  have zero : ∀ {st : PmState}, pm.state = st → st ≠ .mckEmergency → st ≠ .mckPowerOff →
      pm.appSleep = 0 := by
    intro st here emergency off
    by_contra asleep
    rcases awake asleep with state | state
    · exact emergency (here.symm.trans state)
    · exact off (here.symm.trans state)
  intro asleep
  cases moved with
  | stays state voted app =>
    rw [state]
    exact awake (app ▸ asleep)
  | woken state voted app call => exact absurd app asleep
  | rung before state voted app call =>
    rw [app] at asleep
    rcases before with before | ⟨before, rings⟩ | before
    · exact absurd (zero before (by decide) (by decide)) asleep
    · -- the one way back that leaves the item as it was
      exact absurd (resets rings before) asleep
    · exact absurd (zero before (by decide) (by decide)) asleep
  | timed before state voted app call =>
    rw [app] at asleep
    rcases before with before | before
    · exact absurd (zero before (by decide) (by decide)) asleep
    · exact absurd (zero before (by decide) (by decide)) asleep
  | entered before state running off voted app =>
    rw [app] at asleep
    rcases before with before | before | before
    · exact absurd (zero before (by decide) (by decide)) asleep
    · exact absurd (zero before (by decide) (by decide)) asleep
    · -- from the emergency check the machine only enters the power-off state
      exact .inr (off before)
  | slept before state voted app =>
    rw [app] at asleep
    exact absurd (zero before (by decide) (by decide)) asleep
  | appSlept before state voted => exact .inl state
  | resumed before state voted app =>
    rw [app] at asleep
    exact absurd (zero before (by decide) (by decide)) asleep

/-- In every run that has no ring in the power-off state while the applications are let asleep,
the status item says "not asleep" whenever the machine is in the running state. -/
theorem running_awake (pm : Machine)
    (reach : Reach (· = .initial) (Guarded Machine.Resets fun pm act pm' => pm' = step pm act) pm)
    (running : pm.state = .normal) : pm.appSleep = 0 := by
  have starts : ∀ pm : Machine, pm = .initial → pm.Awake := by
    rintro _ rfl asleep
    exact absurd rfl asleep
  have kept : ∀ (pm : Machine) (act : Act) (pm' : Machine), pm.Awake →
      Guarded Machine.Resets (fun pm act pm' => pm' = step pm act) pm act pm' → pm'.Awake := by
    rintro pm act _ awake ⟨resets, rfl⟩
    exact awake_moved resets (moved_step pm act) awake
  -- the invariant of the run, read in the running state
  have awake := Reach.invariant starts kept reach
  by_contra asleep
  have state := awake asleep
  rw [running] at state
  simp at state

/-! ### Runs to sleep and back -/

/-- Sleep is requested, and the next check finds every module ready. -/
def sleepRun : List Act :=
  [.register 7, .event 6 (answering 1), .event 3 (answering 1)]

/-- A ring wakes the module. -/
theorem lock_taken_back :
    ((run sleepRun).voted = true ↔ (run sleepRun).state = .sleep) ∧
      .voteOppose ∈ (step (run sleepRun) (.event 0 (answering 1))).calls ∧
        (step (run sleepRun) (.event 0 (answering 1))).voted = false :=
  let follows := lock_follows_sleep sleepRun (.event 0 (answering 1))
  ⟨follows.1, follows.2 (by decide) (by decide)⟩

/-- In the emergency state every module is ready; then the MCU wakes the module. -/
theorem awake_after_emergency :
    ∃ pm, Reach (· = Machine.initial)
        (Guarded Machine.Resets fun pm act pm' => pm' = step pm act) pm ∧
      pm.state = .normal ∧ pm.appSleep = 0 := by
  have emergency : Reach (· = Machine.initial)
      (Guarded Machine.Resets fun pm act pm' => pm' = step pm act) _ :=
    .next (.event 4 (answering 1)) (.start rfl) ⟨nofun, rfl⟩
  have asleep := emergency.next (.event 3 (answering 1)) ⟨nofun, rfl⟩
  have woken := asleep.next (.event 2 (answering 1)) ⟨nofun, rfl⟩
  exact ⟨_, woken, rfl, running_awake _ woken rfl⟩

/-- In the emergency state every module is ready, the module is to power off, and a ring comes. -/
theorem asleep_while_running :
    ∃ acts, (run acts).state = .normal ∧ (run acts).appSleep ≠ 0 :=
  ⟨[.event 4 (answering 1), .event 3 (answering 1), .event 5 (answering 1),
    .event 0 (answering 1)], by decide, by decide⟩

end Pm
