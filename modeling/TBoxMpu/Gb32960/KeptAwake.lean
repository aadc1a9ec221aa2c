import TBoxMpu.Gb32960.Homes
import TBoxMpu.Gb32960.LoopStores
import TBoxMpu.Gb32960.SleepPermission

/-!
# Kept awake for nothing

`Stranded`: the bus is off, the session offline, no answer awaited, no report is left and the
socket is closed, but the permission to sleep is withheld. Nothing of the loop leaves this state:
without reports the socket is not opened again.

`never_stranded`: in a run that gives up no connection with the bus off, the permission withheld
and no report left, this state is not reached.
-/

namespace Gb32960

open Sock Runs

/-! ### Reports -/

/-- Nothing is on the report lists, nor on its way to one. -/
def NoReports (s : GbStore) : Prop :=
  s.lists .realtm = [] ∧ s.lists .delay = [] ∧ s.lists .trans = [] ∧ s.lists .tmplst = []

instance (s : GbStore) : Decidable (NoReports s) := by
  unfold NoReports
  infer_instance

/-! ### When the unit is kept awake -/

/-- The bus is off, and the permission to sleep is withheld. -/
def Withheld (s : GbLoop) : Prop :=
  s.prot.stat.can = false ∧ s.prot.vars.allowSleep = false

structure Stranded (s : GbLoop) : Prop where
  withheld : Withheld s
  offline : s.prot.stat.online = false
  idle : s.prot.stat.wait = 0
  closed : s.prot.sock.sock.stat = .closed
  reports : NoReports s.prot.store

/-- The step takes away the last thing the unit is awake for: the reports of a session that is
not there, the connection being made, or the connection that is there. -/
def TakesLast (s : GbLoop) : GbLoopEvent → Prop
  | .loadDbc => s.prot.stat.online = false ∧ s.prot.stat.wait = 0 ∧
      s.prot.sock.sock.stat = .closed
  | .connected ok => ok = false ∧ NoReports s.prot.store
  | e => GivesUp s e ∧ NoReports s.prot.store ∧ s.prot.sock.sock.stat ≠ .inprog

/-- With the bus off and the permission withheld, no step takes away the last thing. -/
def KeepsLast (s : GbLoop) (e : GbLoopEvent) : Prop := Withheld s → ¬ TakesLast s e

/-! ### Homes in the loop -/

/-- The packs on the lists have a home, and so has the one that is sent. -/
structure HomesInv (s : GbLoop) : Prop where
  homed : Homed s.prot.store
  sending : ∀ rpt, s.place = .send rpt → GbHome (s.prot.store.pack rpt).list

theorem HomesInv.keeps {s t : GbLoop} (inv : HomesInv s)
    (keeps : KeepsHomes s.prot.store t.prot.store)
    (place : ∀ rpt, t.place = .send rpt → s.place = .send rpt) : HomesInv t where
  homed := inv.homed.keeps keeps
  sending rpt here := keeps.pack rpt (inv.sending rpt (place rpt here))

theorem keepsHomes_of_eq {s t : GbStore} (same : t = s) : KeepsHomes s t := by
  rw [same]
  exact keepsHomes_refl s

/-- After a function of the loop the thread sends no pack, unless it goes on to sending. -/
theorem advance_place {s : GbLoop} {next : GbPlace} {r : Int × GbProt Wire} {rpt : GbNode}
    (notSend : ∀ rpt, next ≠ .send rpt) : (s.advance next r).place ≠ .send rpt := by
  unfold GbLoop.advance
  dsimp only
  split
  · exact notSend rpt
  · exact nofun

theorem homesInv_call {s s' : GbLoop} {env : SockEnv} {time : RtcTime} (inv : HomesInv s)
    (step : gbCall env time s = some s') : HomesInv s' := by
  have elsewhere : ∀ {next : GbPlace} {r : Int × GbProt Wire}, (∀ rpt, next ≠ .send rpt) →
      KeepsHomes s.prot.store r.2.store → HomesInv (s.advance next r) := by
    intro next r notSend keeps
    exact inv.keeps keeps fun rpt here => absurd here (advance_place notSend)
  unfold gbCall at step
  split at step
  · cases step
    refine elsewhere nofun ?_
    rcases gbDoChecksock_store env s.prot with same | ⟨acked, -⟩
    · exact keepsHomes_of_eq same
    · rw [acked]
      exact keepsHomes_ackPack _
  · cases step
    exact elsewhere nofun (keepsHomes_of_eq (gbDoWait_store env time s.prot))
  · cases step
    exact elsewhere nofun (keepsHomes_of_eq (gbDoLogin_store env time s.prot))
  · cases step
    exact elsewhere nofun (keepsHomes_of_eq (gbDoSuspend_store env s.prot))
  · split at step
    · cases step
      exact inv.keeps (keepsHomes_refl _) nofun
    next rpt store got =>
      cases step
      obtain ⟨keeps, l, listed, mem⟩ := keepsHomes_getPack got
      refine ⟨inv.homed.keeps keeps, ?_⟩
      rintro n here
      cases here
      exact keeps.pack rpt (inv.homed rpt l listed mem)
  next rpt place =>
    cases step
    refine elsewhere nofun ?_
    have home := inv.sending rpt place
    rcases gbSendReport_store env rpt s.prot with back | ⟨-, same | sent⟩
    · rw [back]
      exact keepsHomes_putBack home
    · exact keepsHomes_of_eq same
    · rw [sent]
      exact keepsHomes_putSend home
  · cases step
    exact elsewhere nofun (keepsHomes_of_eq (gbDoLogout_store env time s.prot))
  · cases step
  · cases step

theorem homesInv_step {s s' : GbLoop} {e : GbLoopEvent} (inv : HomesInv s)
    (step : gbLoopStep s e = some s') : HomesInv s' := by
  -- a step on the lists alone moves the loop nowhere
  have onLists : ∀ {store : GbStore}, KeepsHomes s.prot.store store → HomesInv (s.setStore store) :=
    fun keeps => inv.keeps keeps fun _ here => here
  cases e with
  | saveRealtm groups =>
    obtain ⟨store, saved, rfl⟩ := Option.map_eq_some_iff.mp step
    exact onLists (keepsHomes_saveFrom 0 groups saved)
  | flushBegin =>
    obtain ⟨-, step⟩ := Option.ite_none_right_eq_some.mp step
    cases step
    exact inv.keeps (keepsHomes_refl _) fun _ here => here
  | flushTake err =>
    obtain ⟨n, -, step⟩ := Option.bind_eq_some_iff.mp step
    obtain ⟨store, taken, rfl⟩ := Option.map_eq_some_iff.mp step
    exact inv.keeps (keepsHomes_flushErrorTake taken) fun _ here => here
  | flushEnd =>
    obtain ⟨n, -, rfl⟩ := Option.map_eq_some_iff.mp step
    exact inv.keeps (keepsHomes_flushErrorEnd _) fun _ here => here
  | flushRealtm =>
    cases step
    exact onLists (keepsHomes_flushRealtm _)
  | loadDbc =>
    cases step
    exact onLists (keepsHomes_clearReport _)
  | connected ok =>
    obtain ⟨-, step⟩ := Option.ite_none_right_eq_some.mp step
    cases step
    exact inv.keeps (keepsHomes_refl _) fun _ here => here
  | acknowledged upto =>
    obtain ⟨-, step⟩ := Option.ite_none_right_eq_some.mp step
    cases step
    exact inv.keeps (keepsHomes_refl _) fun _ here => here
  | message env msg =>
    obtain ⟨-, step⟩ := Option.ite_none_right_eq_some.mp step
    cases msg with
    | none =>
      cases step
      exact inv.keeps (keepsHomes_refl _) nofun
    | some msg =>
      cases step
      obtain ⟨lists, pack⟩ := gbHandleMsg_store env msg s.prot
      have keeps : KeepsHomes s.prot.store (gbHandleMsg (wireApi env) msg s.prot).store := by
        apply KeepsHomes.of_pack pack
        intro n l listed mem
        rw [lists] at mem
        exact .inr ⟨l, listed, mem⟩
      exact inv.keeps keeps nofun
  | receive env pack =>
    obtain ⟨-, step⟩ := Option.ite_none_right_eq_some.mp step
    cases step
    refine inv.keeps ?_ fun rpt here => absurd here (advance_place nofun)
    obtain ⟨noted, -⟩ := gbNoted_store s.prot pack (gbHandlePack (wireApi env) pack s.prot)
    change KeepsHomes s.prot.store
      (gbNoted s.prot pack (gbHandlePack (wireApi env) pack s.prot)).2.store
    rw [noted]
    -- only an accepted login moves reports
    rcases gbHandlePack_store env s.prot pack with same | ⟨-, delayed | ⟨-, cleared⟩⟩
    · exact keepsHomes_of_eq same
    · rw [delayed]
      exact (keepsHomes_flushSending _).trans (keepsHomes_flushRealtm _)
    · rw [cleared]
      exact keepsHomes_clearReport _
  | received env ok =>
    obtain ⟨-, step⟩ := Option.ite_none_right_eq_some.mp step
    cases step
    cases ok with
    | true => exact inv.keeps (keepsHomes_refl _) nofun
    | false => exact inv.keeps (keepsHomes_refl _) nofun
  | call env time => exact homesInv_call inv step

theorem homesInv_start {s : GbLoop} (start : GbLoopStart s) : HomesInv s where
  homed n l listed mem := by
    rw [start.lists, if_neg listed] at mem
    cases mem
  sending rpt here := nomatch start.place.symm.trans here

/-! ### Reports that are gone were gone before -/

theorem noReports_saveFrom {s t : GbStore} (i : Nat) (groups : List (List UInt8))
    (saved : gbSaveFrom s i groups = some t) (gone : NoReports t) : NoReports s := by
  refine gbSaveFrom_kept (R := fun s t => NoReports t → NoReports s) (fun _ gone => gone)
    (fun first more gone => first (more gone)) ?_ saved gone
  intro s t i data one gone
  obtain ⟨⟨n, v⟩, -, rfl⟩ := Option.map_eq_some_iff.mp one
  have realtm := gone.1
  simp at realtm

/-- A function of the loop that goes back to the messages leaves reports that were there, and a
pack that was sent is among them. -/
theorem noReports_call {s s' : GbLoop} {env : SockEnv} {time : RtcTime} (inv : HomesInv s)
    (step : gbCall env time s = some s') (far : ¬ s'.place.connected)
    (closed : s'.prot.sock.sock.stat = .closed) (gone : NoReports s'.prot.store) :
    NoReports s.prot.store ∧ ∀ rpt, s.place ≠ .send rpt := by
  unfold gbCall at step
  split at step
  next place =>
    cases step
    refine ⟨?_, fun rpt here => nomatch place.symm.trans here⟩
    -- an acknowledged report leaves its list on an open socket only
    rcases gbDoChecksock_store env s.prot with same | ⟨-, opened⟩
    · rwa [← same]
    · exact nomatch closed.symm.trans opened
  next place =>
    cases step
    have same := gbDoWait_store env time s.prot
    exact ⟨same ▸ gone, fun rpt here => nomatch place.symm.trans here⟩
  next place =>
    cases step
    have same := gbDoLogin_store env time s.prot
    exact ⟨same ▸ gone, fun rpt here => nomatch place.symm.trans here⟩
  next place =>
    cases step
    have same := gbDoSuspend_store env s.prot
    exact ⟨same ▸ gone, fun rpt here => nomatch place.symm.trans here⟩
  · split at step
    · cases step
      exact absurd ⟨nofun, nofun⟩ far
    · cases step
      exact absurd ⟨nofun, nofun⟩ far
  next rpt place =>
    cases step
    rcases gbSendReport_store env rpt s.prot with back | ⟨onward, -⟩
    · -- the pack is back on its home list
      have listed : rpt ∈ (gbDataPutBack s.prot.store rpt).lists (s.prot.store.pack rpt).list := by
        simp [gbDataPutBack]
      change NoReports (gbSendReport (wireApi env) rpt s.prot).2.store at gone
      rw [back] at gone
      obtain ⟨realtm, delay, -, -⟩ := gone
      rcases inv.sending rpt place with home | home
      · rw [home, realtm] at listed
        cases listed
      · rw [home, delay] at listed
        cases listed
    · apply absurd ⟨?_, ?_⟩ far
      · unfold GbLoop.advance
        rw [onward]
        exact nofun
      · unfold GbLoop.advance
        rw [onward]
        exact nofun
  next place =>
    cases step
    have same := gbDoLogout_store env time s.prot
    exact ⟨same ▸ gone, fun rpt here => nomatch place.symm.trans here⟩
  · cases step
  · cases step

/-! ### What a step does -/

/-- `Stranded`, as far as the session says it. -/
structure GbCtl.Parked (c : GbCtl) : Prop where
  can : c.can = false
  sleep : c.allowSleep = false
  offline : c.online = false
  idle : c.wait = 0
  closed : c.sock = .closed

theorem stranded_iff {s : GbLoop} : Stranded s ↔ s.prot.ctl.Parked ∧ NoReports s.prot.store := by
  constructor
  · intro stranded
    exact ⟨⟨stranded.withheld.1, stranded.withheld.2, stranded.offline, stranded.idle,
      stranded.closed⟩, stranded.reports⟩
  · rintro ⟨parked, reports⟩
    exact ⟨⟨parked.can, parked.sleep⟩, parked.offline, parked.idle, parked.closed, reports⟩

theorem regday_can (c : GbCtl) (time : RtcTime) : (c.regday time).can = c.can := by
  unfold GbCtl.regday
  split
  · rfl
  · rfl

theorem reset_parked {c : GbCtl} (parked : c.reset.Parked) : c.sock ≠ .inprog := by
  intro inprog
  have closed := parked.closed
  unfold GbCtl.reset at closed
  rw [inprog] at closed
  cases closed

/-- A session is parked that was so, or that was given up. -/
theorem parked_move {c c' : GbCtl} {p p' : GbPlace} {gives : Prop} {sign : GbSign}
    (move : GbMove c gives p sign c' p') (moved : p ≠ p') (far : ¬ p'.connected)
    (notSend : ∀ rpt, p ≠ .send rpt) (parked : c'.Parked) :
    c.Parked ∨ c.can = false ∧ c.allowSleep = false ∧ gives ∧ c.sock ≠ .inprog := by
  cases move with
  | still | connected => exact absurd rfl moved
  | handled | refused | idle | waiting | online | notDue | onward => exact .inl parked
  | config vin _ gives =>
    have reset : c.reset.Parked :=
      ⟨parked.can, parked.sleep, parked.offline, parked.idle, parked.closed⟩
    exact .inr ⟨parked.can, parked.sleep, gives, reset_parked reset⟩
  | canOn => exact nomatch parked.can
  | canOff =>
    have allowed : (!c.online) = false := parked.sleep
    have offline : c.online = false := parked.offline
    rw [offline] at allowed
    cases allowed
  | opening stat closed _ _ =>
    exact .inl ⟨parked.can, parked.sleep, parked.offline, parked.idle, closed⟩
  | ready | answered | accepted | received => exact absurd ⟨nofun, nofun⟩ far
  | reset _ gives => exact .inr ⟨parked.can, parked.sleep, gives, reset_parked parked⟩
  | resetSend => exact absurd rfl (notSend _)
  | ended => exact nomatch parked.sleep
  | retry =>
    exact .inl ⟨parked.can, parked.sleep, parked.offline, parked.idle, parked.closed⟩
  | unsent time _ _ =>
    obtain ⟨online, wait, sock, sleep, -⟩ := regday_fields c time
    exact .inl ⟨(regday_can c time) ▸ parked.can, sleep ▸ parked.sleep, online ▸ parked.offline,
      wait ▸ parked.idle, sock ▸ parked.closed⟩
  | failed time _ _ gives =>
    obtain ⟨-, -, sock, sleep, -⟩ := regday_fields c time
    have inprog := reset_parked parked
    rw [sock] at inprog
    exact .inr ⟨(regday_can c time) ▸ parked.can, sleep ▸ parked.sleep, gives, inprog⟩
  | login => exact nomatch parked.idle
  | logout => exact nomatch parked.idle

theorem call_moved {s s' : GbLoop} {env : SockEnv} {time : RtcTime}
    (step : gbCall env time s = some s') (far : ¬ s'.place.connected) : s.place ≠ s'.place := by
  intro same
  rw [← same] at far
  have place : s.place = .message ∨ s.place = .checksock := by
    by_contra other
    exact far (not_or.mp other)
  unfold gbCall at step
  rcases place with place | place
  · rw [place] at step
    cases step
  · rw [place] at step
    cases step
    rw [place] at same
    unfold GbLoop.advance at same
    dsimp only at same
    split at same
    · cases same
    · cases same

/-- A stranded session was stranded before, or the step took away the last thing. -/
theorem stranded_step {s s' : GbLoop} {e : GbLoopEvent} (homes : HomesInv s)
    (ctl : CtlInv s'.prot.ctl s'.place) (fits : e.Fits) (step : gbLoopStep s e = some s')
    (stranded : Stranded s') : Stranded s ∨ Withheld s ∧ TakesLast s e := by
  have move := gbLoopStep_move fits step
  obtain ⟨parked, gone⟩ := stranded_iff.mp stranded
  have far : ¬ s'.place.connected := by
    intro here
    cases parked.closed.symm.trans (ctl.place here)
  -- a step beside the loop leaves the session as it is
  have beside : s'.prot.ctl = s.prot.ctl → NoReports s.prot.store → Stranded s := by
    intro same reports
    rw [same] at parked
    exact stranded_iff.mpr ⟨parked, reports⟩
  have given : ∀ {sign}, GbMove s.prot.ctl (GivesUp s e) s.place sign s'.prot.ctl s'.place →
      s.place ≠ s'.place → (∀ rpt, s.place ≠ .send rpt) → NoReports s.prot.store →
      Stranded s ∨ Withheld s ∧ GivesUp s e ∧ NoReports s.prot.store ∧
        s.prot.sock.sock.stat ≠ .inprog := by
    intro sign move moved notSend reports
    rcases parked_move move moved far notSend parked with before | ⟨can, sleep, gives, inprog⟩
    · exact .inl (stranded_iff.mpr ⟨before, reports⟩)
    · exact .inr ⟨⟨can, sleep⟩, gives, reports, inprog⟩
  cases e with
  | saveRealtm groups =>
    obtain ⟨store, saved, rfl⟩ := Option.map_eq_some_iff.mp step
    exact .inl (beside rfl (noReports_saveFrom 0 groups saved gone))
  | flushBegin =>
    obtain ⟨-, step⟩ := Option.ite_none_right_eq_some.mp step
    cases step
    exact .inl (beside rfl gone)
  | flushTake err =>
    obtain ⟨n, -, step⟩ := Option.bind_eq_some_iff.mp step
    obtain ⟨store, taken, rfl⟩ := Option.map_eq_some_iff.mp step
    obtain ⟨⟨node, t⟩, -, rfl⟩ := Option.map_eq_some_iff.mp taken
    -- the report taken is on the temporary list
    have tmplst : ((t.setPack node err.delayed).insertAfter .tmplst node).lists .tmplst = [] :=
      gone.2.2.2
    simp at tmplst
  | flushEnd =>
    obtain ⟨n, -, rfl⟩ := Option.map_eq_some_iff.mp step
    refine .inl (beside rfl ?_)
    have gone : NoReports (gbFlushErrorEnd s.prot.store) := gone
    simpa [NoReports, gbFlushErrorEnd, and_assoc, and_comm, and_left_comm] using gone
  | flushRealtm =>
    cases step
    refine .inl (beside rfl ?_)
    have gone : NoReports (gbDataFlushRealtm s.prot.store) := gone
    unfold NoReports at gone
    simp only [gbDataFlushRealtm_lists] at gone
    -- the delay list has both afterwards
    obtain ⟨-, both, trans, tmplst⟩ := gone
    obtain ⟨delay, realtm⟩ := List.append_eq_nil_iff.mp both
    exact ⟨realtm, delay, trans, tmplst⟩
  | loadDbc =>
    cases step
    exact .inr ⟨⟨parked.can, parked.sleep⟩, parked.offline, parked.idle, parked.closed⟩
  | connected ok =>
    obtain ⟨-, step⟩ := Option.ite_none_right_eq_some.mp step
    cases step
    cases ok with
    | true => cases parked.closed
    | false => exact .inr ⟨⟨parked.can, parked.sleep⟩, rfl, gone⟩
  | acknowledged upto =>
    obtain ⟨-, step⟩ := Option.ite_none_right_eq_some.mp step
    cases step
    exact .inl (beside rfl gone)
  | message env msg =>
    obtain ⟨place, step⟩ := Option.ite_none_right_eq_some.mp step
    cases msg with
    | none =>
      cases step
      exact .inl (beside rfl gone)
    | some msg =>
      cases step
      have reports : NoReports s.prot.store := by
        obtain ⟨lists, -⟩ := gbHandleMsg_store env msg s.prot
        unfold NoReports at gone ⊢
        rwa [← lists]
      have moved : s.place ≠ .checksock := by
        rw [place]
        rintro ⟨⟩
      exact given move moved (fun rpt here => by cases place.symm.trans here) reports
  | receive env pack =>
    obtain ⟨place, step⟩ := Option.ite_none_right_eq_some.mp step
    cases step
    have noted := gbNoted_store s.prot pack (gbHandlePack (wireApi env) pack s.prot)
    have reports : NoReports s.prot.store := by
      have gone : NoReports (gbNoted s.prot pack
        (gbHandlePack (wireApi env) pack s.prot)).2.store := gone
      rw [noted.1] at gone
      rcases gbHandlePack_store env s.prot pack with same | ⟨accepts, -⟩
      · rwa [same] at gone
      · -- an accepted login is no end of a session
        obtain ⟨ret, -⟩ := gbNoted_accepts env accepts
        have here : (s.advance .receive (gbNoted s.prot pack
            (gbHandlePack (wireApi env) pack s.prot))).place = .receive := by
          unfold GbLoop.advance
          rw [ret]
          rfl
        rw [here] at far
        exact absurd ⟨by rintro ⟨⟩, by rintro ⟨⟩⟩ far
    have moved : s.place ≠ (s.advance .receive (gbNoted s.prot pack
        (gbHandlePack (wireApi env) pack s.prot))).place := by
      intro same
      rw [← same, place] at far
      exact far ⟨by rintro ⟨⟩, by rintro ⟨⟩⟩
    exact given move moved (fun rpt here => by cases place.symm.trans here) reports
  | received env ok =>
    obtain ⟨place, step⟩ := Option.ite_none_right_eq_some.mp step
    cases step
    cases ok with
    | true => exact absurd ⟨by rintro ⟨⟩, by rintro ⟨⟩⟩ far
    | false =>
      have moved : s.place ≠ .message := by
        rw [place]
        rintro ⟨⟩
      exact given move moved (fun rpt here => by cases place.symm.trans here) gone
  | call env time =>
    obtain ⟨reports, notSend⟩ := noReports_call homes step far parked.closed gone
    exact given move (call_moved step far) notSend reports

/-! ### Runs -/

/-- In a run that takes away no last thing with the bus off and the permission withheld, the unit
is never kept awake for nothing. -/
theorem never_stranded {s : GbLoop} (reach : GbLoopReach KeepsLast s) : ¬ Stranded s := by
  have starts : ∀ s, GbLoopStart s →
      CtlInv s.prot.ctl s.place ∧ HomesInv s ∧ ¬ Stranded s := by
    intro s start
    refine ⟨ctlInv_start start, homesInv_start start, fun stranded => ?_⟩
    exact nomatch start.sleep.symm.trans stranded.withheld.2
  have kept : ∀ s e s', CtlInv s.prot.ctl s.place ∧ HomesInv s ∧ ¬ Stranded s →
      Guarded (fun s e => e.Fits ∧ KeepsLast s e) (fun s e s' => gbLoopStep s e = some s')
        s e s' → CtlInv s'.prot.ctl s'.place ∧ HomesInv s' ∧ ¬ Stranded s' := by
    rintro s e s' ⟨ctl, homes, awake⟩ ⟨⟨fits, keeps⟩, step⟩
    have ctl' := ctlInv_move ctl (gbLoopStep_move fits step)
    refine ⟨ctl', homesInv_step homes step, fun stranded => ?_⟩
    rcases stranded_step homes ctl' fits step stranded with before | ⟨withheld, takes⟩
    · exact awake before
    · exact keeps withheld takes
  exact (Reach.invariant starts kept reach).2.2

instance (s : GbLoop) : Decidable (Withheld s) := by
  unfold Withheld
  infer_instance

instance (env : SockEnv) (s : GbLoop) (msg : List UInt8) : Decidable (SendFails env s msg) := by
  unfold SendFails
  infer_instance

instance (env : SockEnv) (st : GbProt Wire) : Decidable (Overdue env st) := by
  unfold Overdue
  infer_instance

instance (s : GbLoop) (e : GbLoopEvent) : Decidable (GivesUp s e) := by
  unfold GivesUp
  split
  · infer_instance
  · infer_instance
  · infer_instance
  · infer_instance
  · dsimp only
    split
    all_goals infer_instance
  · infer_instance

instance (s : GbLoop) (e : GbLoopEvent) : Decidable (TakesLast s e) := by
  unfold TakesLast
  split
  all_goals infer_instance

instance (s : GbLoop) (e : GbLoopEvent) : Decidable (KeepsLast s e) := by
  unfold KeepsLast
  infer_instance

/-- The session ended with a logout leaves the unit free to sleep. -/
theorem toSleep_not_stranded : ∃ s, GbLoopReach KeepsLast s ∧ s.prot.stat.can = false ∧
    s.prot.stat.online = false ∧ ¬ Stranded s := by
  obtain ⟨s, reach, seen⟩ := loopRun KeepsLast
    (f := fun s => (s.prot.stat.can, s.prot.stat.online)) (a := (false, false)) toSleep
    (by decide +kernel)
  obtain ⟨can, online⟩ := Prod.mk.inj seen
  exact ⟨s, reach, can, online, never_stranded reach⟩

/-- The socket fails. -/
def errEnv : SockEnv := { fastEnv with error := true }

instance (s : GbLoop) : Decidable (s.prot.ctl.Parked) :=
  decidable_of_iff (s.prot.stat.can = false ∧ s.prot.vars.allowSleep = false ∧
      s.prot.stat.online = false ∧ s.prot.stat.wait = 0 ∧ s.prot.sock.sock.stat = .closed)
    ⟨fun ⟨can, sleep, offline, idle, closed⟩ => ⟨can, sleep, offline, idle, closed⟩,
      fun parked => ⟨parked.can, parked.sleep, parked.offline, parked.idle, parked.closed⟩⟩

instance (s : GbLoop) : Decidable (Stranded s) := decidable_of_iff _ stranded_iff.symm

/-- The bus goes off in a session, and the connection fails before the logout. -/
theorem stranded_by_error : ∃ s, GbLoopReach (fun _ _ => True) s ∧ Stranded s := by
  obtain ⟨s, reach, stranded⟩ := loopRun (fun _ _ => True)
    (f := fun s => decide (Stranded s)) (a := true)
    (toSession ++ [.message fastEnv (some (.can false)), .call errEnv newYear])
    (by decide +kernel)
  exact ⟨s, reach, of_decide_eq_true stranded⟩

end Gb32960
