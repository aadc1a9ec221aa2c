import TBoxMpu.Gb32960.LoopMoves

/-!
# The sleep permission

`gb_allow_sleep` is given with a bus-off message while offline, and at the ends of a logout; a
bus-on message takes it back.

`permission_sound`: in runs whose bus-off messages find no login awaited, the permission means
that the session is over and stays so until the bus is on again.
-/

namespace Gb32960

open Sock Runs

/-! ### The permission is sound -/

/-- The permission means that no session is there and none is asked for. -/
def SleepInv (c : GbCtl) : Prop := c.allowSleep = true → c.online = false ∧ c.wait = 0

/-- No bus-off message comes while the answer to a login is awaited. -/
def NoLoginAtBusOff (s : GbLoop) (e : GbLoopEvent) : Prop :=
  e.sign = .busOff → s.prot.stat.wait ≠ protLogin

section Sound

variable {c c' : GbCtl} {p p' : GbPlace} {gives : Prop} {sign : GbSign}

theorem sleepInv_move (inv : SleepInv c) (ctl : CtlInv c p) (move : GbMove c gives p sign c' p')
    (off : sign = .busOff → c.wait ≠ protLogin) : SleepInv c' := by
  cases move with
  | still | handled | refused | received | idle | waiting | online | notDue | onward => exact inv
  | connected | opening | ready | retry => exact inv
  | config | reset | resetSend | failed | ended => exact fun _ => ⟨rfl, rfl⟩
  | canOn => exact nofun
  | canOff =>
    intro allowed
    have offline : c.online = false := by simpa using allowed
    refine ⟨offline, ?_⟩
    rcases ctl.waits with none | ⟨login, -⟩ | ⟨-, online⟩
    · exact none
    · exact absurd login (off rfl)
    · rw [offline] at online
      cases online
  | answered => exact fun allowed => ⟨(inv allowed).1, rfl⟩
  | accepted | logout => exact fun allowed => absurd ⟨nofun, nofun⟩ (ctl.sleep allowed)
  | unsent time _ _ =>
    obtain ⟨-, -, -, sleep, -⟩ := regday_fields c time
    intro allowed
    rw [sleep] at allowed
    exact absurd ⟨nofun, nofun⟩ (ctl.sleep allowed)
  | login time msg _ _ _ =>
    obtain ⟨-, -, -, sleep, -⟩ := regday_fields c time
    intro allowed
    change (c.regday time).allowSleep = true at allowed
    rw [sleep] at allowed
    exact absurd ⟨nofun, nofun⟩ (ctl.sleep allowed)

/-- While the permission is given, only a bus-on message takes it back, and nothing is sent. -/
theorem allowed_move (allowed : c.allowSleep = true) (ctl : CtlInv c p)
    (move : GbMove c gives p sign c' p') (on : sign ≠ .busOn) (offline : c.online = false) :
    c'.allowSleep = true ∧ c'.log = c.log := by
  have far := ctl.sleep allowed
  cases move with
  | still | handled | refused | received | idle | waiting | online | notDue | onward =>
    exact ⟨allowed, rfl⟩
  | connected | config | reset | resetSend | answered => exact ⟨allowed, rfl⟩
  | canOn => exact absurd rfl on
  | canOff => exact ⟨by simp [offline], rfl⟩
  | opening stat _ noSleep _ =>
    rw [allowed] at noSleep
    cases noSleep
  | ready _ noSleep =>
    rw [allowed] at noSleep
    cases noSleep
  | ended => exact ⟨rfl, rfl⟩
  | accepted | retry | unsent | failed | login | logout => exact absurd ⟨nofun, nofun⟩ far

end Sound

theorem sleepInv_reach {s : GbLoop} (reach : GbLoopReach NoLoginAtBusOff s) :
    SleepInv s.prot.ctl := by
  have starts : ∀ s, GbLoopStart s → SleepInv s.prot.ctl ∧ CtlInv s.prot.ctl s.place := by
    intro s start
    refine ⟨fun _ => ?_, ctlInv_start start⟩
    change s.prot.stat.online = false ∧ s.prot.stat.wait = 0
    rw [start.stat]
    exact ⟨rfl, rfl⟩
  have kept : ∀ s e s', SleepInv s.prot.ctl ∧ CtlInv s.prot.ctl s.place →
      Guarded (fun s e => e.Fits ∧ NoLoginAtBusOff s e) (fun s e s' => gbLoopStep s e = some s')
        s e s' → SleepInv s'.prot.ctl ∧ CtlInv s'.prot.ctl s'.place := by
    rintro s e s' ⟨sleep, ctl⟩ ⟨⟨fits, off⟩, step⟩
    have move := gbLoopStep_move fits step
    exact ⟨sleepInv_move sleep ctl move off, ctlInv_move ctl move⟩
  exact (Reach.invariant starts kept reach).1

/-- In a run whose bus-off messages come while no login is awaited, the permission implies that
the session is offline with no answer awaited; then nothing but a bus-on message takes it back,
and until then no control message is sent. -/
theorem permission_sound {s : GbLoop} (reach : GbLoopReach NoLoginAtBusOff s) :
    (s.prot.vars.allowSleep = true → s.prot.stat.online = false ∧ s.prot.stat.wait = 0) ∧
    (s.prot.vars.allowSleep = true → ∀ e s', e.Fits → e.sign ≠ .busOn →
      gbLoopStep s e = some s' →
        s'.prot.vars.allowSleep = true ∧ s'.prot.sock.log = s.prot.sock.log) := by
  have inv := sleepInv_reach reach
  refine ⟨inv, ?_⟩
  intro allowed e s' fits on step
  exact allowed_move allowed (ctlInv_reach reach) (gbLoopStep_move fits step) on (inv allowed).1

instance (s : GbLoop) (e : GbLoopEvent) : Decidable (NoLoginAtBusOff s e) := by
  unfold NoLoginAtBusOff
  infer_instance

/-- After a session that was ended, the unit may sleep. -/
def logoutAck : List UInt8 := gbPackUnit (gbPackHead gbVarsInit protLogout 0x01) []

def toSleep : List GbLoopEvent :=
  toLogout ++ [.message fastEnv none, .call fastEnv newYear, .receive fastEnv logoutAck]

theorem sleep_after_logout :
    ∃ s, GbLoopReach NoLoginAtBusOff s ∧ s.prot.vars.allowSleep = true ∧
      s.prot.stat.online = false ∧ s.prot.stat.wait = 0 := by
  obtain ⟨s, reach, allowed⟩ := loopRun NoLoginAtBusOff (f := fun s => s.prot.vars.allowSleep)
    (a := true) toSleep (by decide +kernel)
  exact ⟨s, reach, allowed, (permission_sound reach).1 allowed⟩

/-- The bus goes off while the answer to the login is awaited. -/
theorem sleep_while_login :
    ∃ s, GbLoopReach (fun _ _ => True) s ∧ s.prot.vars.allowSleep = true ∧
      s.prot.stat.wait = protLogin := by
  obtain ⟨s, reach, seen⟩ := loopRun (fun _ _ => True)
    (f := fun s => (s.prot.vars.allowSleep, s.prot.stat.wait)) (a := (true, protLogin))
    (toLogin ++ [.message fastEnv (some (.can false))]) (by decide +kernel)
  obtain ⟨allowed, waits⟩ := Prod.mk.inj seen
  exact ⟨s, reach, allowed, waits⟩

end Gb32960
