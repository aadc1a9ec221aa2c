import TBoxMpu.Gb32960.LoopMoves

/-!
# The numbers of the sessions

The login number is reset when a login is built on a new day, counted when the login is accepted,
and taken back by one when a logout is built. `session_numbers`: a logout carries the number of the
login that was last accepted, and an accepted login leaves the next one of 1 to 65531.

A login is built offline only and a logout online only, so that nothing touches the number from
the login that is accepted to the logout of its session.
-/

namespace Gb32960

open Sock Runs

/-- The last login packet sent. -/
def lastLogin : List GbLog → Option (List UInt8)
  | [] => none
  | .sent msg :: before => if msgType msg = protLogin then some msg else lastLogin before
  | .accepted :: before => lastLogin before

/-- The last login packet that was accepted. -/
def lastAccepted : List GbLog → Option (List UInt8)
  | [] => none
  | .sent _ :: before => lastAccepted before
  | .accepted :: before => lastLogin before

/-- Each logout sent after an accepted login carries the number of the last one. -/
def LogoutsCarry (log : List GbLog) : Prop :=
  ∀ later msg before, log = later ++ .sent msg :: before → msgType msg = protLogout →
    ∀ login, lastAccepted before = some login → seqOf msg = seqOf login

def ValidSeq (seq : UInt16) : Prop := 1 ≤ seq ∧ seq ≤ 65531

theorem LogoutsCarry.accepted {log : List GbLog} (carry : LogoutsCarry log) :
    LogoutsCarry (.accepted :: log) := by
  intro later msg before split type login last
  cases later with
  | nil => cases split
  | cons entry later =>
    obtain ⟨-, split⟩ := List.cons.inj split
    exact carry later msg before split type login last

theorem LogoutsCarry.sent {log : List GbLog} (carry : LogoutsCarry log) {msg : List UInt8}
    (right : msgType msg = protLogout → ∀ login, lastAccepted log = some login →
      seqOf msg = seqOf login) : LogoutsCarry (.sent msg :: log) := by
  intro later msg' before split type login last
  cases later with
  -- the packet just sent, or one before it
  | nil =>
    obtain ⟨same, rfl⟩ := List.cons.inj split
    cases same
    exact right type login last
  | cons entry later =>
    obtain ⟨-, split⟩ := List.cons.inj split
    exact carry later msg' before split type login last

/-! ### The numbers -/

theorem ValidSeq.toNat {seq : UInt16} (valid : ValidSeq seq) :
    1 ≤ seq.toNat ∧ seq.toNat ≤ 65531 ∧ (seq + 1).toNat = seq.toNat + 1 := by
  obtain ⟨low, high⟩ := valid
  rw [UInt16.le_iff_toNat_le] at low high
  simp only [UInt16.reduceToNat] at low high
  refine ⟨low, high, ?_⟩
  rw [UInt16.toNat_add]
  simp only [UInt16.reduceToNat]
  omega

theorem nextSeq_eq {seq : UInt16} (valid : ValidSeq seq) :
    nextSeq seq = if seq = 65531 then 1 else seq + 1 := by
  obtain ⟨low, high, succ⟩ := valid.toNat
  have last : seq + 1 > 65531 ↔ seq = 65531 := by
    rw [gt_iff_lt, UInt16.lt_iff_toNat_lt, succ, ← UInt16.toNat_inj]
    simp only [UInt16.reduceToNat]
    omega
  unfold nextSeq
  simp only [last]

theorem nextSeq_valid {seq : UInt16} (valid : ValidSeq seq) : ValidSeq (nextSeq seq) := by
  obtain ⟨low, high, succ⟩ := valid.toNat
  rw [nextSeq_eq valid]
  unfold ValidSeq
  split
  · decide
  next notLast =>
    rw [← UInt16.toNat_inj] at notLast
    rw [UInt16.le_iff_toNat_le, UInt16.le_iff_toNat_le, succ]
    simp only [UInt16.reduceToNat] at *
    omega

/-- The number taken back for a logout is that of the login, also around the end. -/
theorem logoutSeq_nextSeq {seq : UInt16} (valid : ValidSeq seq) :
    logoutSeq (nextSeq seq) = seq := by
  obtain ⟨low, high, succ⟩ := valid.toNat
  rw [nextSeq_eq valid]
  split
  next last =>
    rw [last]
    rfl
  · unfold logoutSeq
    have ne : seq + 1 ≠ 1 := by
      intro same
      have same := congrArg UInt16.toNat same
      rw [succ] at same
      simp only [UInt16.reduceToNat] at same
      omega
    rw [if_neg ne]
    simp

/-- A day of the calendar is not the date that the default configuration has. -/
theorem regdateOf_ne_zero {time : RtcTime} (dated : time.Dated) : regdateOf time ≠ 0 := by
  obtain ⟨mon, mon', day, day'⟩ := dated
  rw [UInt8.le_iff_toNat_le] at mon mon' day day'
  simp only [UInt8.reduceToNat] at mon mon' day day'
  intro zero
  have zero := congrArg UInt16.toNat zero
  have small : time.mon.toNat * 100 + time.mday.toNat < 2 ^ 16 := by omega
  rw [regdateOf, UInt16.toNat_ofNat', Nat.mod_eq_of_lt small] at zero
  simp only [UInt16.reduceToNat] at zero
  omega

/-! ### What the session keeps -/

/-- The number is in order once a login was built; an awaited login carries it, and an online
session has the one behind its login. -/
structure SeqInv (c : GbCtl) : Prop where
  vin : c.vin.length = 17
  seq : c.regdate = 0 ∨ ValidSeq c.regseq
  awaited : c.wait = protLogin →
    ValidSeq c.regseq ∧ ∃ login, lastLogin c.log = some login ∧ seqOf login = c.regseq
  online : c.online = true →
    ∃ login, lastAccepted c.log = some login ∧ logoutSeq c.regseq = seqOf login
  logouts : LogoutsCarry c.log

section SeqInv

variable {c c' : GbCtl} {p p' : GbPlace} {gives : Prop} {sign : GbSign}

/-- Nothing is awaited or online: the number is free. -/
theorem SeqInv.over (inv : SeqInv c) (vin : c'.vin.length = 17)
    (seq : c'.regdate = 0 ∨ ValidSeq c'.regseq) (offline : c'.online = false)
    (idle : c'.wait ≠ protLogin) (log : c'.log = c.log) : SeqInv c' where
  vin := vin
  seq := seq
  awaited awaited := absurd awaited idle
  online online := by
    rw [offline] at online
    cases online
  logouts := log ▸ inv.logouts

theorem regday_seq (time : RtcTime) (dated : time.Dated) (inv : SeqInv c) :
    ValidSeq (c.regday time).regseq := by
  unfold GbCtl.regday
  split
  · exact (by decide : (1 : UInt16) ≤ 1 ∧ (1 : UInt16) ≤ 65531)
  -- the date is the old one, so it is not the default
  next same =>
    have same := Decidable.not_not.mp same
    refine inv.seq.resolve_left fun zero => ?_
    exact regdateOf_ne_zero dated (same.symm.trans zero)

theorem SeqInv.logout (inv : SeqInv c) (online : c.online = true) {msg : List UInt8}
    (packet : Carries c.vin protLogout (logoutSeq c.regseq) msg) :
    LogoutsCarry (.sent msg :: c.log) ∧
    ∃ login, lastAccepted (.sent msg :: c.log) = some login ∧
      logoutSeq c.regseq = seqOf login := by
  obtain ⟨login, last, seq⟩ := inv.online online
  have carried := packet.2 inv.vin
  constructor
  · apply inv.logouts.sent
    intro _ login' last'
    rw [last] at last'
    rw [carried, seq, Option.some.inj last']
  · exact ⟨login, last, seq⟩

theorem seqInv_move (inv : SeqInv c) (ctl : CtlInv c p) (move : GbMove c gives p sign c' p') :
    SeqInv c' := by
  have idle : (0 : UInt8) ≠ protLogin := by decide
  cases move with
  | still | handled | refused | received | idle | waiting | online | notDue | onward => exact inv
  | connected | canOn | canOff | opening | ready =>
    exact ⟨inv.vin, inv.seq, inv.awaited, inv.online, inv.logouts⟩
  | config vin length _ =>
    refine inv.over ?_ inv.seq rfl idle rfl
    rcases length with length | same
    · exact length
    · exact same ▸ inv.vin
  | reset | resetSend | ended => exact inv.over inv.vin inv.seq rfl idle rfl
  | answered _ =>
    exact ⟨inv.vin, inv.seq, fun awaited => absurd awaited idle, inv.online, inv.logouts⟩
  -- the login that was awaited becomes the accepted one
  | accepted awaited =>
    obtain ⟨valid, login, last, seq⟩ := inv.awaited awaited
    refine ⟨inv.vin, .inr (nextSeq_valid valid), fun awaited => absurd awaited idle, fun _ => ?_,
      inv.logouts.accepted⟩
    refine ⟨login, last, ?_⟩
    rw [seq]
    exact logoutSeq_nextSeq valid
  | retry msg awaited packet =>
    -- a logout is awaited in the session it ends
    have online : c.online = true := by
      rcases ctl.waits with none | ⟨login, -⟩ | ⟨-, online⟩
      · rw [none] at awaited
        exact absurd awaited (by decide)
      · rw [login] at awaited
        exact absurd awaited (by decide)
      · exact online
    obtain ⟨logouts, last⟩ := inv.logout online packet
    refine ⟨inv.vin, inv.seq, fun login => ?_, fun _ => last, logouts⟩
    rw [show c.wait = protLogout from awaited] at login
    exact absurd login (by decide)
  -- the number may have been restarted, but no packet went out
  | unsent time dated offline =>
    obtain ⟨online, wait, -, -, vin, log⟩ := regday_fields c time
    have valid := regday_seq time dated inv
    refine inv.over (by rw [vin]; exact inv.vin) (.inr valid) (online.trans offline) ?_ log
    rw [wait, ctl.login rfl]
    exact idle
  | failed time dated _ _ =>
    obtain ⟨-, -, -, -, vin, log⟩ := regday_fields c time
    have valid := regday_seq time dated inv
    exact inv.over (by change (c.regday time).vin.length = 17; rw [vin]; exact inv.vin)
      (.inr valid) rfl idle log
  -- the packet carries the number as the new day leaves it
  | login time msg dated offline packet =>
    obtain ⟨online, -, -, -, vin, -⟩ := regday_fields c time
    have valid := regday_seq time dated inv
    refine ⟨by change (c.regday time).vin.length = 17; rw [vin]; exact inv.vin, .inr valid,
      fun _ => ⟨valid, msg, if_pos packet.1, packet.2 inv.vin⟩, fun inside => ?_, ?_⟩
    · rw [show (c.regday time).online = true from inside] at online
      rw [offline] at online
      cases online
    · apply inv.logouts.sent
      intro type
      rw [packet.1] at type
      exact absurd type (by decide)
  | logout msg packet =>
    obtain ⟨logouts, last⟩ := inv.logout (ctl.session trivial) packet
    exact ⟨inv.vin, inv.seq, fun login => absurd login (by decide : protLogout ≠ protLogin),
      fun _ => last, logouts⟩

end SeqInv

theorem seqInv_start {s : GbLoop} (start : GbLoopStart s) : SeqInv s.prot.ctl := by
  have wait : s.prot.stat.wait = 0 := by
    rw [start.stat]
    rfl
  have online : s.prot.stat.online = false := by
    rw [start.stat]
    rfl
  refine ⟨start.vin, start.seq, fun awaited => ?_, fun inside => ?_, ?_⟩
  · rw [show s.prot.stat.wait = protLogin from awaited] at wait
    exact absurd wait (by decide)
  · rw [show s.prot.stat.online = true from inside] at online
    cases online
  · intro later msg before split
    have log : s.prot.ctl.log = [] := start.log
    rw [log] at split
    cases later <;> cases split

theorem seqInv_reach {ok : GbLoop → GbLoopEvent → Prop} {s : GbLoop} (reach : GbLoopReach ok s) :
    SeqInv s.prot.ctl := by
  have starts : ∀ s, GbLoopStart s → SeqInv s.prot.ctl ∧ CtlInv s.prot.ctl s.place := by
    intro s start
    exact ⟨seqInv_start start, ctlInv_start start⟩
  have kept : ∀ s e s', SeqInv s.prot.ctl ∧ CtlInv s.prot.ctl s.place →
      Guarded (fun s e => e.Fits ∧ ok s e) (fun s e s' => gbLoopStep s e = some s') s e s' →
      SeqInv s'.prot.ctl ∧ CtlInv s'.prot.ctl s'.place := by
    rintro s e s' ⟨seq, ctl⟩ ⟨⟨fits, -⟩, step⟩
    have move := gbLoopStep_move fits step
    exact ⟨seqInv_move seq ctl move, ctlInv_move ctl move⟩
  exact (Reach.invariant starts kept reach).1

/-- Whatever happened since the start: a logout packet sent after an accepted login carries the
number of the login last accepted, and each accepted login leaves the number behind its own,
which is one of 1 to 65531. -/
theorem session_numbers {s : GbLoop} (reach : GbLoopReach (fun _ _ => True) s) :
    (∀ later msg before, s.prot.sock.log = later ++ .sent msg :: before →
      msgType msg = protLogout → ∀ login, lastAccepted before = some login →
        seqOf msg = seqOf login) ∧
    (∀ env pack s', AcceptsLogin s.prot.stat pack →
      gbLoopStep s (.receive env pack) = some s' →
        ∃ login, lastAccepted s'.prot.sock.log = some login ∧
          s'.prot.vars.regseq = (if seqOf login = 65531 then 1 else seqOf login + 1) ∧
          1 ≤ s'.prot.vars.regseq ∧ s'.prot.vars.regseq ≤ 65531) := by
  have inv := seqInv_reach reach
  refine ⟨inv.logouts, ?_⟩
  intro env pack s' accepts step
  -- the number before the packet is that of the awaited login
  obtain ⟨valid, login, last, seq⟩ := inv.awaited accepts.2.2.1
  obtain ⟨-, step⟩ := Option.ite_none_right_eq_some.mp step
  cases step
  obtain ⟨-, ctl⟩ := gbNoted_accepts env accepts
  have log := congrArg GbCtl.log ctl
  have regseq := congrArg GbCtl.regseq ctl
  change (gbNoted _ _ _).2.sock.log = .accepted :: s.prot.sock.log at log
  change (gbNoted _ _ _).2.vars.regseq = nextSeq s.prot.vars.regseq at regseq
  refine ⟨login, ?_, ?_, ?_⟩
  · change lastAccepted (gbNoted _ _ _).2.sock.log = some login
    rw [log]
    exact last
  · change (gbNoted _ _ _).2.vars.regseq = _
    rw [regseq, seq]
    exact nextSeq_eq valid
  · change 1 ≤ (gbNoted _ _ _).2.vars.regseq ∧ (gbNoted _ _ _).2.vars.regseq ≤ 65531
    rw [regseq]
    exact nextSeq_valid valid

/-- The logout of the first session. -/
theorem first_logout_number :
    ∃ s msg login, GbLoopReach (fun _ _ => True) s ∧ msgType msg = protLogout ∧
      s.prot.sock.log = [.sent msg, .accepted, .sent login] ∧ seqOf msg = seqOf login := by
  obtain ⟨s, reach, log⟩ := loopRun (fun _ _ => True) (f := fun s => s.prot.sock.log)
    (a := [.sent (gbPackLogout { gbVarsInit with regseq := 2 } newYear), .accepted,
      .sent (gbPackLogin { gbVarsInit with regseq := 1 } newYear)]) toLogout (by decide +kernel)
  refine ⟨s, _, _, reach, ?_, log, ?_⟩
  · rfl
  · exact (session_numbers reach).1 [] _ _ log rfl _ rfl

end Gb32960
