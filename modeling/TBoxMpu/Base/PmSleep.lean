import TBoxMpu.Base.Pm

/-!
# When the module agrees to sleep

The module answers that it may sleep by releasing the wake lock or by the status item, and
it powers itself down. For each of these the modules are asked first, a pending ring
forbids it, and both checks are read, except in the restart of the 4G module, which a
module that is not ready holds up for six checks at most.
-/

namespace Pm

/-! ### What a step agrees to -/

/-- What the modules must be ready for when the call is made. -/
def Call.needs : Call → Option PmEvtId
  | .voteAgree => some .sleep
  | .stSetAppSleep status => if status = 0 then none else some .emergency
  | .powerdown => some .off
  | _ => none

/-- Every registered module was asked in this step, and reported ready. -/
def Machine.Ready (pm : Machine) (id : PmEvtId) : Prop :=
  ∃ answers, .asked id answers ∈ pm.calls ∧ answers.length = pm.regtbl.length ∧
    ∀ r ∈ answers, r = 1

/-- The results of the checks made in this step. -/
def Machine.Checked (pm : Machine) (res : Int32) : Prop :=
  .usbCheck res ∈ pm.calls ∨ .mcuCheck res ∈ pm.calls

/-- Sleep is safe in this step. -/
structure Machine.Permitted (pm : Machine) (id : PmEvtId) : Prop where
  ready : pm.Ready id
  noRing : pm.ringStatus = false
  checks : ∀ res, pm.Checked res → res = 0

/-- Unless a check failed, every check that was made allows to sleep. -/
def Machine.ChecksAllow (pm : Machine) : Prop :=
  (∀ res, pm.Checked res → res ≠ -1) → ∀ res, pm.Checked res → res = 0

/-- What the code makes sure of. -/
structure Machine.Granted (pm : Machine) (id : PmEvtId) : Prop where
  ready : pm.Ready id
  noRing : pm.ringStatus = false
  checks : pm.ChecksAllow

/-! ### The checks and the modules -/

theorem wakeupCheck_cases (read : Int32 × UInt8) :
    wakeupCheck read = -1 ∨ wakeupCheck read = 0 ∨ wakeupCheck read = 1 := by
  unfold wakeupCheck
  split
  · exact .inl rfl
  · split
    · exact .inr (.inl rfl)
    · split
      · exact .inr (.inr rfl)
      · exact .inl rfl

/-- The joined result lets the module sleep when both checks do, and when one of them failed,
whatever the other one said. -/
theorem both_allow_iff (usb mcu : Int32 × UInt8) :
    ¬ (0 : Int32) ||| wakeupCheck usb ||| wakeupCheck mcu <<< 1 ≥ 1 ↔
      (wakeupCheck usb = 0 ∧ wakeupCheck mcu = 0) ∨ wakeupCheck usb = -1 ∨
        wakeupCheck mcu = -1 := by
  rcases wakeupCheck_cases usb with u | u | u <;> rcases wakeupCheck_cases mcu with m | m | m <;>
    rw [u, m] <;> decide

theorem mcu_allow_iff (mcu : Int32 × UInt8) :
    ¬ (0 : Int32) ||| wakeupCheck mcu <<< 1 ≥ 1 ↔ wakeupCheck mcu = 0 ∨ wakeupCheck mcu = -1 := by
  rcases wakeupCheck_cases mcu with m | m | m <;> rw [m] <;> decide

variable (a : Answers) (pm : Machine) (id : PmEvtId)

theorem pmIsSleepReady_machine :
    (pmIsSleepReady a id pm).2 =
      pm.call (.asked id ((List.range pm.regtbl.length).map (a.ready id))) := by
  unfold pmIsSleepReady
  dsimp only
  split <;> rfl

theorem pmIsSleepReady_regtbl : (pmIsSleepReady a id pm).2.regtbl = pm.regtbl := by
  rw [pmIsSleepReady_machine]
  rfl

theorem pmIsSleepReady_iff :
    (pmIsSleepReady a id pm).1 = 1 ↔ ∀ i < pm.regtbl.length, a.ready id i = 1 := by
  have all := List.countP_eq_length (p := fun r : Int32 => decide (r = 1))
    (l := (List.range pm.regtbl.length).map (a.ready id))
  rw [List.length_map, List.length_range] at all
  unfold pmIsSleepReady
  dsimp only
  split
  next counted => simpa using all.mp counted
  next counted =>
    refine ⟨fun zero => ?_, fun every => (counted (all.mpr ?_)).elim⟩
    · exact absurd (show (0 : Int32) = 1 from zero) (by decide)
    · simpa using every

/-- The modules' answers, when all are ready. -/
theorem ready_of_asked {pm' : Machine} (ready : (pmIsSleepReady a id pm).1 = 1)
    (asked : .asked id ((List.range pm.regtbl.length).map (a.ready id)) ∈ pm'.calls)
    (same : pm'.regtbl = pm.regtbl) : pm'.Ready id := by
  refine ⟨_, asked, by simp [same], ?_⟩
  intro r mem
  obtain ⟨i, range, rfl⟩ := List.mem_map.mp mem
  exact (pmIsSleepReady_iff a pm id).mp ready i (List.mem_range.mp range)

variable {a pm id} {c : Call} {res : Int32}

theorem bothChecks_checked (fresh : pm.calls = []) :
    (bothChecks a pm).2.Checked res ↔ res = wakeupCheck a.usb ∨ res = wakeupCheck a.mcu := by
  simp [Machine.Checked, bothChecks, pmUsbWakeupCheck, pmMcuWakeupCheck, Machine.call, fresh]

theorem bothChecks_allow (fresh : pm.calls = []) (allowed : ¬ (bothChecks a pm).1 ≥ 1) :
    (bothChecks a pm).2.ChecksAllow := by
  intro answered res checked
  have usb := answered _ ((bothChecks_checked fresh).mpr (.inl rfl))
  have mcu := answered _ ((bothChecks_checked fresh).mpr (.inr rfl))
  -- both allow it, or one of them could not be read
  rcases (both_allow_iff a.usb a.mcu).mp allowed with ⟨usb, mcu⟩ | failed | failed
  · rcases (bothChecks_checked fresh).mp checked with rfl | rfl
    · exact usb
    · exact mcu
  · exact absurd failed usb
  · exact absurd failed mcu

theorem powerOffChecks_allow (fresh : pm.calls = []) (allowed : ¬ (powerOffChecks a pm).1 ≥ 1) :
    (powerOffChecks a pm).2.ChecksAllow := by
  unfold powerOffChecks at allowed ⊢
  split at allowed
  next consulted =>
    rw [if_pos consulted]
    exact bothChecks_allow fresh allowed
  -- only the MCU was asked
  next skipped =>
    rw [if_neg skipped]
    have only : ∀ res, (pmMcuWakeupCheck a pm).2.Checked res ↔ res = wakeupCheck a.mcu := by
      simp [Machine.Checked, pmMcuWakeupCheck, Machine.call, fresh]
    intro answered res checked
    rw [(only res).mp checked]
    rcases (mcu_allow_iff a.mcu).mp allowed with allows | failed
    · exact allows
    · exact absurd failed (answered _ ((only _).mpr rfl))

/-! ### Steps without agreement -/

/-- A fact about the restart counter and the calls. -/
def Machine.Noted (Q : Int → List Call → Prop) (pm : Machine) : Prop :=
  Q pm.restart4GCnt pm.calls

/-- The timeouts that may agree; only the last one changes the counter. -/
def mayAgree (state : PmState) (evt : PmEvent) : Prop :=
  evt = .timeout ∧
    (state = .mckSleep ∨ state = .mckPowerOff ∨ state = .mckEmergency ∨ state = .mckRestart4G)

section
variable {Q : Int → List Call → Prop}
  (grow : ∀ {n : Int} {calls : List Call} {c : Call}, Q n calls → c.needs = none →
    Q n (calls ++ [c]))
include grow

theorem noted_mcuWakeup (noted : pm.Noted Q) : (pmMcuWakeup a pm).Noted Q :=
  grow (grow (grow noted rfl) rfl) rfl

theorem noted_bothChecks (noted : pm.Noted Q) : (bothChecks a pm).2.Noted Q :=
  grow (grow noted rfl) rfl

theorem noted_powerOffChecks (noted : pm.Noted Q) : (powerOffChecks a pm).2.Noted Q := by
  unfold powerOffChecks
  split
  · exact noted_bothChecks grow noted
  · exact grow noted rfl

theorem noted_isSleepReady (noted : pm.Noted Q) (id : PmEvtId) :
    (pmIsSleepReady a id pm).2.Noted Q := by
  rw [pmIsSleepReady_machine]
  exact grow noted rfl

theorem noted_ringWakeup (noted : pm.Noted Q) : (pmRingWakeup a pm).Noted Q := by
  unfold pmRingWakeup
  split
  · exact grow (grow noted rfl) rfl
  · dsimp only
    split
    all_goals exact grow noted rfl

theorem noted_s0e3 (noted : pm.Noted Q) : (pmStS0e3 a pm).Noted Q := by
  have checked := noted_bothChecks grow (a := a) noted
  unfold pmStS0e3
  dsimp only
  split
  · split
    all_goals exact checked
  · split
    · split
      · exact checked
      · split
        all_goals exact grow checked rfl
    · exact checked

theorem noted_s4e3 (noted : pm.Noted Q) : (pmStS4e3 a pm).Noted Q := by
  have checked := noted_bothChecks grow (a := a) noted
  unfold pmStS4e3
  dsimp only
  split
  · exact noted_mcuWakeup grow (a := a) checked
  · split
    · exact noted_ringWakeup grow checked
    · exact checked

theorem noted_s5e3 (noted : pm.Noted Q) : (pmStS5e3 a pm).Noted Q := by
  have asked := noted_isSleepReady grow (a := a) noted .off
  unfold pmStS5e3
  dsimp only
  split
  · exact grow asked rfl
  · exact asked

theorem noted_startFotaUpdate (noted : pm.Noted Q) (isAllow : Bool) :
    (startFotaUpdate isAllow pm).Noted Q := by
  unfold startFotaUpdate
  split
  · exact grow (grow noted rfl) rfl
  · exact noted

theorem noted_s7e3 (noted : pm.Noted Q) : (pmStS7e3 a pm).Noted Q := by
  have allowed : (fotaAllowed a pm).2.Noted Q := by
    unfold fotaAllowed
    dsimp only
    split
    all_goals exact noted_isSleepReady grow noted .off
  unfold pmStS7e3
  dsimp only
  split
  · exact allowed
  · exact allowed
  · split
    · exact grow (grow (grow allowed rfl) rfl) rfl
    · refine noted_startFotaUpdate grow ?_ _
      exact allowed
  · exact noted_startFotaUpdate grow allowed _

/-- Every entry of the table but four: the case split follows its rows. -/
theorem noted_stateTbl (noted : pm.Noted Q) {state : PmState} {evt : PmEvent}
    (other : ¬ mayAgree state evt) : (stateTbl state evt a pm).Noted Q := by
  have entered : ∀ state id, (enter state id a pm).Noted Q := fun _ _ => grow noted rfl
  have rtc : (pmRtcWakeup a pm).Noted Q := grow (grow noted rfl) rfl
  -- the rows of the table; the four that may agree are excluded
  cases state
  case normal =>
    cases evt
    case ring => exact noted_ringWakeup grow noted
    case timeout => exact noted_s0e3 grow noted
    case rtc => exact noted
    case running => exact noted
    all_goals exact entered _ _
  case mckSleep =>
    cases evt
    case ring => exact noted_ringWakeup grow noted
    case rtc => exact rtc
    case running => exact noted_mcuWakeup grow (a := a) noted
    case timeout => exact (other (by simp [mayAgree])).elim
    case emergency => exact entered _ _
    all_goals exact noted
  case mckPowerOff =>
    cases evt
    case ring => exact noted_ringWakeup grow noted
    case running => exact noted_mcuWakeup grow (a := a) noted
    case timeout => exact (other (by simp [mayAgree])).elim
    all_goals exact noted
  case mckEmergency =>
    cases evt
    case running => exact noted_mcuWakeup grow (a := a) noted
    case timeout => exact (other (by simp [mayAgree])).elim
    case powerOff => exact entered _ _
    all_goals exact noted
  case sleep =>
    cases evt
    case ring => exact noted_ringWakeup grow noted
    case rtc => exact rtc
    case timeout => exact noted_s4e3 grow noted
    all_goals exact noted
  case mckRestartApp =>
    cases evt
    case timeout => exact noted_s5e3 grow noted
    all_goals exact noted
  case mckRestart4G =>
    cases evt
    case timeout => exact (other (by simp [mayAgree])).elim
    all_goals exact noted
  case mckFotaUpdate =>
    cases evt
    case timeout => exact noted_s7e3 grow noted
    all_goals exact noted

end

/-- The step called for nothing that needs the modules to be ready. -/
def quietly (_ : Int) (calls : List Call) : Prop :=
  ∀ c ∈ calls, c.needs = none

theorem quietly_grow {n : Int} {calls : List Call} {c : Call} (quiet : quietly n calls)
    (without : c.needs = none) : quietly n (calls ++ [c]) := by
  intro d mem
  rcases List.mem_append.mp mem with mem | mem
  · exact quiet d mem
  · rw [List.mem_singleton.mp mem]
    exact without

theorem quietly_fresh (fresh : pm.calls = []) : pm.Noted quietly := by
  simp [Machine.Noted, quietly, fresh]

/-! ### Steps with agreement -/

/-- The only call of `pm.call d` that needs readiness is `d`. -/
theorem needs_of_last (quiet : pm.Noted quietly) {d : Call} (made : c ∈ (pm.call d).calls)
    (needs : c.needs = some id) : d.needs = some id := by
  rcases List.mem_append.mp made with made | made
  · rw [quiet c made] at needs
    cases needs
  · rw [← List.mem_singleton.mp made]
    exact needs

/-- What is called after the modules reported ready, and is no check, is granted. -/
theorem granted_of_ready {m : Machine} {rest : List Call} (allow : pm.ChecksAllow)
    (ready : (pmIsSleepReady a id pm).1 = 1)
    (calls : m.calls = (pmIsSleepReady a id pm).2.calls ++ rest)
    (unchecked : ∀ res, .usbCheck res ∉ rest ∧ .mcuCheck res ∉ rest)
    (regtbl : m.regtbl = pm.regtbl) (noRing : m.ringStatus = false) : m.Granted id := by
  rw [pmIsSleepReady_machine] at calls
  have same : ∀ res, m.Checked res ↔ pm.Checked res := by
    intro res
    simp [Machine.Checked, calls, Machine.call, unchecked]
  refine ⟨ready_of_asked a pm id ready ?_ regtbl, noRing, ?_⟩
  · simp [calls, Machine.call]
  · intro answered res checked
    exact allow (fun r before => answered r ((same r).mpr before)) res ((same res).mp checked)

theorem pmStS1e3_granted (fresh : pm.calls = []) (made : c ∈ (pmStS1e3 a pm).calls)
    (needs : c.needs = some id) : (pmStS1e3 a pm).Granted id := by
  have quiet := noted_bothChecks quietly_grow (a := a) (quietly_fresh fresh)
  revert made
  unfold pmStS1e3
  dsimp only
  split
  · intro made
    rw [noted_mcuWakeup quietly_grow (a := a) quiet c made] at needs
    cases needs
  next allowed =>
    have asked := noted_isSleepReady quietly_grow (a := a) quiet .sleep
    have allow := bothChecks_allow fresh allowed
    split
    next both =>
      obtain ⟨ready, noRing⟩ := both
      -- the wake-up timer is started when a time is configured
      split
      · intro made
        have timer : ((pmIsSleepReady a .sleep (bothChecks a pm).2).2.call
            (.rtcStart (a.rtcTime * 1000))).Noted quietly := quietly_grow asked rfl
        have agreed := needs_of_last timer made needs
        cases agreed
        exact granted_of_ready allow ready (List.append_assoc _ _ _) (by simp)
          (pmIsSleepReady_regtbl a _ _) noRing
      · intro made
        have agreed := needs_of_last asked made needs
        cases agreed
        exact granted_of_ready allow ready rfl (by simp) (pmIsSleepReady_regtbl a _ _)
          noRing
    · intro made
      rw [asked c made] at needs
      cases needs

theorem pmStS2e3_granted (fresh : pm.calls = []) (made : c ∈ (pmStS2e3 a pm).calls)
    (needs : c.needs = some id) : (pmStS2e3 a pm).Granted id := by
  have quiet := noted_powerOffChecks quietly_grow (a := a) (quietly_fresh fresh)
  revert made
  unfold pmStS2e3
  dsimp only
  split
  · intro made
    rw [noted_mcuWakeup quietly_grow (a := a) quiet c made] at needs
    cases needs
  next allowed =>
    have asked := noted_isSleepReady quietly_grow (a := a) quiet .off
    have allow := powerOffChecks_allow fresh allowed
    split
    next both =>
      obtain ⟨ready, noRing⟩ := both
      intro made
      have agreed := needs_of_last asked made needs
      cases agreed
      exact granted_of_ready allow ready rfl (by simp) (pmIsSleepReady_regtbl a _ _) noRing
    · intro made
      rw [asked c made] at needs
      cases needs

theorem pmStS3e3_granted (fresh : pm.calls = []) (made : c ∈ (pmStS3e3 a pm).calls)
    (needs : c.needs = some id) : (pmStS3e3 a pm).Granted id := by
  have lowered : pm.wakeupLow.Noted quietly := quietly_fresh fresh
  have asked := noted_isSleepReady quietly_grow (a := a) lowered .emergency
  have allow : pm.wakeupLow.ChecksAllow := by
    intro _ res checked
    simp [Machine.Checked, Machine.wakeupLow, fresh] at checked
  revert made
  unfold pmStS3e3
  dsimp only
  split
  next ready =>
    intro made
    have agreed := needs_of_last asked made needs
    cases agreed
    exact granted_of_ready allow ready rfl (by simp) (pmIsSleepReady_regtbl a _ _)
      (by rw [pmIsSleepReady_machine]; rfl)
  · intro made
    rw [asked c made] at needs
    cases needs

/-! ### The restart of the 4G module -/

/-- A check in the restart state that finds a module not ready. -/
def heldUp (pm : Machine) : Act → Bool
  | .event evt a =>
    decide (pm.state = .mckRestart4G) && decide (PmEvent.ofInt evt = some .timeout) &&
      (List.range pm.regtbl.length).any (fun i => decide (a.ready .off i ≠ 1))
  | _ => false

/-- How many checks of a run that continues at `pm` are held up. -/
def heldUps (pm : Machine) : List Act → Nat
  | [] => 0
  | act :: acts => (heldUp pm act).toNat + heldUps (step pm act) acts

theorem pmIsSleepReady_cnt :
    (pmIsSleepReady a id pm).2.restart4GCnt = pm.restart4GCnt := by
  rw [pmIsSleepReady_machine]
  rfl

theorem powerOffChecks_cnt : (powerOffChecks a pm).2.restart4GCnt = pm.restart4GCnt := by
  unfold powerOffChecks
  split <;> rfl

/-- Elsewhere the counter stays as it is. -/
theorem stateTbl_cnt {state : PmState} {evt : PmEvent}
    (other : ¬ (state = .mckRestart4G ∧ evt = .timeout)) :
    (stateTbl state evt a pm).restart4GCnt = pm.restart4GCnt := by
  by_cases agree : mayAgree state evt
  · obtain ⟨rfl, rfl | rfl | rfl | rfl⟩ := agree
    · simp only [stateTbl, pmStS1e3]
      repeat' split
      · rfl
      all_goals exact pmIsSleepReady_cnt
    · simp only [stateTbl, pmStS2e3]
      repeat' split
      · exact powerOffChecks_cnt
      all_goals exact pmIsSleepReady_cnt.trans powerOffChecks_cnt
    · simp only [stateTbl, pmStS3e3]
      split
      all_goals exact pmIsSleepReady_cnt
    · exact (other ⟨rfl, rfl⟩).elim
  · exact noted_stateTbl (Q := fun n _ => n = pm.restart4GCnt) (fun same _ => same) rfl agree

theorem pmStS6e3_cnt :
    (pmStS6e3 a pm).restart4GCnt ≤ pm.restart4GCnt +
      ((List.range pm.regtbl.length).any (fun i => decide (a.ready .off i ≠ 1))).toNat := by
  unfold pmStS6e3
  dsimp only
  split
  · rw [show (Machine.call _ _).restart4GCnt = _ from pmIsSleepReady_cnt]
    omega
  next waits =>
    have unready : ¬ ∀ i < pm.regtbl.length, a.ready .off i = 1 :=
      fun every => waits (.inl ((pmIsSleepReady_iff a pm .off).mpr every))
    have some : (List.range pm.regtbl.length).any (fun i => decide (a.ready .off i ≠ 1)) = true := by
      simpa using unready
    rw [some, show Machine.restart4GCnt _ = _ + 1 from congrArg (· + 1) pmIsSleepReady_cnt]
    exact Int.le_refl _

/-- The counter of the restart counts held-up checks only. -/
theorem step_cnt (pm : Machine) (act : Act) :
    (step pm act).restart4GCnt ≤ pm.restart4GCnt + (heldUp pm act).toNat := by
  cases act with
  | mode newMode =>
    have same : (step pm (.mode newMode)).restart4GCnt = pm.restart4GCnt := by
      simp only [step, pmModeProc]
      split <;> rfl
    simp [same, heldUp]
  | register mid =>
    have same : (step pm (.register mid)).restart4GCnt = pm.restart4GCnt := by
      simp only [step, pmRegHandler]
      split <;> rfl
    simp [same, heldUp]
  | event evt a =>
    simp only [step, pmEvtProc, heldUp]
    cases named : PmEvent.ofInt evt with
    | none => simp
    | some event =>
      dsimp only
      by_cases restart : pm.state = .mckRestart4G ∧ event = .timeout
      · obtain ⟨state, rfl⟩ := restart
        have counted := @pmStS6e3_cnt a { pm with calls := [] }
        simpa [state, stateTbl] using counted
      · rw [stateTbl_cnt restart]
        show pm.restart4GCnt ≤ _
        omega

/-- Over a run. -/
theorem run_cnt (pm : Machine) (acts : List Act) :
    (acts.foldl step pm).restart4GCnt ≤ pm.restart4GCnt + heldUps pm acts := by
  induction acts generalizing pm with
  | nil => exact Int.le_of_eq (Int.add_zero _).symm
  | cons act acts ih =>
    have one := step_cnt pm act
    have rest := ih (step pm act)
    rw [List.foldl_cons, heldUps]
    omega

theorem pmStS6e3_ready (fresh : pm.calls = []) (made : c ∈ (pmStS6e3 a pm).calls)
    (needs : c.needs = some id) :
    id = .off ∧ ((pmStS6e3 a pm).Ready .off ∨ 5 < pm.restart4GCnt) := by
  have asked := noted_isSleepReady quietly_grow (a := a) (quietly_fresh fresh) .off
  revert made
  unfold pmStS6e3
  dsimp only
  split
  next down =>
    intro made
    have agreed := needs_of_last asked made needs
    cases agreed
    refine ⟨rfl, down.imp (fun ready => ?_) fun waited => ?_⟩
    · refine ready_of_asked a pm .off ready ?_ (pmIsSleepReady_regtbl a pm .off)
      simp [pmIsSleepReady_machine, Machine.call]
    · rwa [pmIsSleepReady_cnt] at waited
  · intro made
    rw [asked c made] at needs
    cases needs

/-- What a step agrees to is granted; the restart is not checked for rings and wake-ups, and
may be forced. -/
theorem step_granted {act : Act} (made : c ∈ (step pm act).calls) (needs : c.needs = some id) :
    (pm.state ≠ .mckRestart4G ∧ (step pm act).Granted id) ∨
      (pm.state = .mckRestart4G ∧ id = .off ∧
        ((step pm act).Ready .off ∨ 5 < pm.restart4GCnt)) := by
  cases act with
  | mode newMode =>
    have none : (step pm (.mode newMode)).calls = [] := by
      simp only [step, pmModeProc]
      split <;> rfl
    simp [none] at made
  | register mid =>
    have none : (step pm (.register mid)).calls = [] := by
      simp only [step, pmRegHandler]
      split <;> rfl
    simp [none] at made
  | event evt a =>
    simp only [step, pmEvtProc] at made ⊢
    cases named : PmEvent.ofInt evt with
    | none => simp [named] at made
    | some event =>
      simp only [named] at made ⊢
      by_cases agree : mayAgree pm.state event
      · obtain ⟨rfl, state | state | state | state⟩ := agree <;> rw [state] at made ⊢
        · exact .inl ⟨nofun, pmStS1e3_granted rfl made needs⟩
        · exact .inl ⟨nofun, pmStS2e3_granted rfl made needs⟩
        · exact .inl ⟨nofun, pmStS3e3_granted rfl made needs⟩
        · exact .inr ⟨rfl, pmStS6e3_ready rfl made needs⟩
      · have fresh : Machine.Noted quietly { pm with calls := [] } := quietly_fresh rfl
        rw [noted_stateTbl quietly_grow (a := a) fresh agree c made] at needs
        cases needs

/-! ### Every run -/

/-- In every run, the module agrees to sleep or to power off, or powers itself down, only in
a step in which every registered module reported ready, no ring is pending and, unless a
check failed, every check made allows it. The restart of the 4G module makes no check; it
powers down when every module is ready or after six checks that were held up. -/
theorem sleeps_when_granted (acts : List Act) (act : Act) (c : Call) (id : PmEvtId)
    (made : c ∈ (step (run acts) act).calls) (needs : c.needs = some id) :
    ((run acts).state ≠ .mckRestart4G ∧ (step (run acts) act).Granted id) ∨
      ((run acts).state = .mckRestart4G ∧ id = .off ∧
        ((step (run acts) act).Ready .off ∨ 5 < heldUps .initial acts)) := by
  rcases step_granted made needs with granted | ⟨state, off, ready | waited⟩
  · exact .inl granted
  · exact .inr ⟨state, off, .inl ready⟩
  · refine .inr ⟨state, off, .inr ?_⟩
    have counted := run_cnt .initial acts
    have zero : Machine.initial.restart4GCnt = 0 := rfl
    unfold run at waited
    omega

/-- Both checks allow to sleep, and every module reports `ready`. -/
def answering (ready : Int32) : Answers :=
  ⟨(0, 0x31), (0, 0x31), fun _ _ => ready, (0, 0), 0, -1, .other⟩

/-- A module is registered, sleep is requested, and the next check finds it ready. -/
theorem asleep_after_request :
    ∃ acts act, (step (run acts) act).state = .sleep ∧
      (((run acts).state ≠ .mckRestart4G ∧ (step (run acts) act).Granted .sleep) ∨
        ((run acts).state = .mckRestart4G ∧ PmEvtId.sleep = .off ∧
          ((step (run acts) act).Ready .off ∨ 5 < heldUps .initial acts))) :=
  ⟨[.register 7, .event 6 (answering 1)], .event 3 (answering 1), by decide,
    sleeps_when_granted _ _ .voteAgree .sleep (by decide) rfl⟩

/-- A restart is requested, and six checks find the module not ready. -/
def unreadyRestart : List Act :=
  [.register 7, .event 8 (answering 0)] ++ List.replicate 6 (.event 3 (answering 0))

/-- The next check powers down all the same. -/
theorem restart_forced :
    ∃ acts act, .powerdown ∈ (step (run acts) act).calls ∧
      ¬ (step (run acts) act).Permitted .off := by
  have calls : (step (run unreadyRestart) (.event 3 (answering 0))).calls =
      [.asked .off [0], .powerdown] := by decide
  refine ⟨unreadyRestart, .event 3 (answering 0), by simp [calls], fun permitted => ?_⟩
  obtain ⟨answers, asked, -, every⟩ := permitted.ready
  rw [calls] at asked
  obtain rfl : answers = [0] := by simpa using asked
  exact absurd (every 0 (by simp)) (by decide)

end Pm
