import Mathlib.Logic.Function.Iterate
import TBoxMpu.Nm.Dial

/-!
# Runs of the dialling

What those who registered are told of a network, how its handle is used, and that a network that
is wanted is dialled again and again.

## Main results

`told_in_turn`: the notices of a network alternate, and so do the calls that get and release its
handle.

`dialled_again`: as long as timers start the module never waits for nothing, and a network that is
wanted is dialled within eleven messages of the recall timer.
-/

namespace Nm

open Alternation

/-! ### What holds of a network -/

structure ItemOk (i : NetItem) : Prop where
  told : Follows .connected .disconnected (i.state = .connected) i.told
  calls : Follows .get .release (i.held = true) i.calls
  held : i.state = .connecting ∨ i.state = .connected → i.held = true
  waits : i.waitCnt ≤ NM_MAX_DIAL_TIMES

/-- Only the network whose turn it is is being dialled, and none before the library is ready. -/
structure NmInv (s : NetInfo) : Prop where
  items : ∀ t, ItemOk (s.item t)
  turn : ∀ t, (s.item t).state = .connecting → s.curType = some t
  early : s.initState ≠ .inited → ∀ t, (s.item t).held = false

variable {s : NetInfo} {t : NetType} {i : NetItem} {luck : Luck}

@[simp] theorem set_item_same : (s.set t i).item t = i := by simp [NetInfo.set]

theorem set_item (u : NetType) : (s.set t i).item u = if u = t then i else s.item u := by
  simp [NetInfo.set, Function.update_apply]

@[simp] theorem set_curType : (s.set t i).curType = s.curType := rfl
@[simp] theorem set_initState : (s.set t i).initState = s.initState := rfl
@[simp] theorem set_armed : (s.set t i).armed = s.armed := rfl
@[simp] theorem set_queued : (s.set t i).queued = s.queued := rfl

theorem NmInv.set (inv : NmInv s) (ok : ItemOk i)
    (turn : i.state = .connecting → s.curType = some t)
    (early : s.initState ≠ .inited → i.held = false) : NmInv (s.set t i) where
  items u := by
    rw [set_item]
    split
    · exact ok
    · exact inv.items u
  turn u := by
    rw [set_item, set_curType]
    split
    · rename_i same
      exact same ▸ turn
    · exact inv.turn u
  early before u := by
    rw [set_item]
    split
    · exact early before
    · exact inv.early before u

/-- Neither the timer nor its messages matter. -/
theorem NmInv.timer (inv : NmInv s) (armed : Bool) (queued : Nat) :
    NmInv { s with armed := armed, queued := queued } :=
  ⟨inv.items, inv.turn, inv.early⟩

theorem tmStart_inv (inv : NmInv s) (op : NmOp) : NmInv (tmStart luck op s) := by
  unfold tmStart
  split
  · exact inv.timer true s.queued
  · exact inv

theorem ItemOk.disconnect (ok : ItemOk i) : ItemOk i.disconnect where
  told := by
    simp only [NetItem.disconnect]
    split
    · rename_i up
      exact ok.told.turned_off up (by decide)
    · rename_i down
      exact ok.told.congr (iff_of_false down (by decide))
  calls := ok.calls
  held := by
    simp only [NetItem.disconnect]
    rintro (up | up) <;> cases up
  waits := ok.waits

theorem stop_inv (inv : NmInv s) (t : NetType) : NmInv (nmDialStop t s) := by
  have ok := (inv.items t).disconnect
  refine inv.set ⟨ok.told, ?_, ?_, ok.waits⟩ (by rintro ⟨⟩) fun _ => rfl
  · show Follows _ _ (false = true) (if (s.item t).held then _ else _)
    split
    · rename_i held
      exact (inv.items t).calls.turned_off held (by decide)
    · rename_i free
      exact (inv.items t).calls.congr (iff_of_false free (by decide))
  · simp only [NetItem.disconnect]
    rintro (up | up) <;> cases up

/-- While no other network is being dialled. -/
theorem call_inv (inv : NmInv s) (quiet : ∀ u, u ≠ t → (s.item u).state ≠ .connecting) :
    NmInv (nmDialCall luck t s) := by
  have ok := inv.items t
  unfold nmDialCall
  split
  · -- the count of the rounds starts again
    have reset : NmInv ({ s with armed := true }.set t { s.item t with waitCnt := 0 }) :=
      (inv.timer true s.queued).set ⟨ok.told, ok.calls, ok.held, Nat.zero_le _⟩ (inv.turn t)
        fun before => inv.early before t
    simp only
    split
    · exact reset
    · split
      · exact reset
      · split
        · exact stop_inv reset t
        · rename_i inited free
          have inited' : s.initState = .inited := Decidable.not_not.mp inited
          have calls : Follows .get .release (true = true) ((s.item t).calls ++ [.get]) :=
            ok.calls.turned_on free rfl
          have idle : (s.item t).state ≠ .connecting ∧ (s.item t).state ≠ .connected :=
            ⟨fun up => free (ok.held (.inl up)), fun up => free (ok.held (.inr up))⟩
          split
          · split
            · refine ⟨fun u => ?_, fun u => ?_, fun before => absurd inited' before⟩
              · show ItemOk (((_ : NetInfo).set t _).item u)
                rw [set_item]
                split
                · refine ⟨ok.told.congr (iff_of_false idle.2 (by rintro ⟨⟩)), calls, ?_,
                    Nat.zero_le _⟩
                  exact fun _ => rfl
                · rename_i away
                  rw [set_item, if_neg away, set_item, if_neg away]
                  exact inv.items u
              · show (((_ : NetInfo).set t _).item u).state = _ → some t = some u
                rw [set_item]
                split
                · rename_i same
                  exact fun _ => congrArg some same.symm
                · rename_i away
                  rw [set_item, if_neg away, set_item, if_neg away]
                  exact fun up => absurd up (quiet u away)
            · exact reset.set ⟨ok.told, calls, fun _ => rfl, Nat.zero_le _⟩ (inv.turn t)
                fun before => absurd inited' before
          · exact reset
  · exact inv

theorem next_inv (inv : NmInv s) (quiet : ∀ u, (s.item u).state ≠ .connecting)
    (t : Option NetType) : NmInv (nmDialNext luck t s) := by
  unfold nmDialNext
  split
  · exact call_inv inv fun u _ => quiet u
  · exact ⟨inv.items, fun u up => absurd up (quiet u), inv.early⟩

theorem allNet_inv (inv : NmInv s) (before : s.initState = .notInited) :
    NmInv (nmDialAllNet luck s) := by
  have unheld := inv.early (by rw [before]; decide)
  unfold nmDialAllNet
  rw [before]
  split
  · exact inv
  · dsimp only
    split
    · exact ⟨inv.items, inv.turn, fun _ => unheld⟩
    · exact tmStart_inv inv _

/-- Where one network is connected or none is being dialled, none is. -/
theorem NmInv.quiet_of_turn (inv : NmInv s) (c : Option NetType) (cur : s.curType = c)
    (idle : ∀ u, c = some u → (s.item u).state ≠ .connecting) (u : NetType) :
    (s.item u).state ≠ .connecting := by
  intro up
  exact idle u (cur.symm.trans (inv.turn u up)) up

theorem connected_inv (inv : NmInv s) (t : NetType) : NmInv (nmDialConnected luck t s) := by
  unfold nmDialConnected
  dsimp only
  split
  · exact inv
  · rename_i up
    have up' : (s.item t).state = .connecting := Decidable.not_not.mp up
    have cur := inv.turn t up'
    have others : ∀ u, u ≠ t → (s.item u).state ≠ .connecting := by
      intro u away up
      exact away (Option.some.inj ((inv.turn u up).symm.trans cur))
    have ok := inv.items t
    split
    · exact call_inv inv others
    · split
      · exact call_inv inv others
      · have down : (s.item t).state ≠ .connected := by
          rw [up']
          decide
        have ok' : ItemOk { s.item t with
            state := .connected, told := (s.item t).told ++ [.connected] } :=
          ⟨ok.told.turned_on down rfl, ok.calls, fun _ => ok.held (.inl up'), ok.waits⟩
        refine next_inv (inv.set ok' (by rintro ⟨⟩) fun before => inv.early before t)
          (fun u => ?_) _
        · rw [set_item]
          split
          · rintro ⟨⟩
          · rename_i away
            exact others u away

theorem disconnected_inv (inv : NmInv s) (t : NetType) : NmInv (nmDialDisconnected luck t s) := by
  unfold nmDialDisconnected
  split
  · rename_i before
    exact allNet_inv inv before
  · exact tmStart_inv (inv.set (inv.items t).disconnect (by rintro ⟨⟩)
      fun before => inv.early before t) _

theorem initMsg_inv (inv : NmInv s) (initing : s.initState = .initing) (t : NetType) :
    NmInv (nmDialInitMsgProc luck t s) := by
  have unheld := inv.early (by rw [initing]; decide)
  have quiet : ∀ u, (s.item u).state ≠ .connecting := by
    intro u up
    have held := (inv.items u).held (.inl up)
    rw [unheld u] at held
    cases held
  have ready : NmInv { s with initState := .inited } :=
    ⟨inv.items, inv.turn, fun before => absurd rfl before⟩
  unfold nmDialInitMsgProc
  dsimp only
  split
  · exact call_inv ready fun u _ => quiet u
  · exact next_inv ready quiet _

theorem timer_inv (inv : NmInv s) : NmInv (nmDialTimerMsgProc luck s) := by
  unfold nmDialTimerMsgProc
  split
  · rename_i before
    exact allNet_inv inv before
  · split
    · rename_i cur
      exact next_inv inv (inv.quiet_of_turn none cur (by rintro u ⟨⟩)) _
    · rename_i c cur
      have inv' : NmInv (tmStart luck .startWait s) := tmStart_inv inv _
      have same : (tmStart luck .startWait s).item = s.item ∧
          (tmStart luck .startWait s).curType = s.curType := by
        unfold tmStart
        split <;> exact ⟨rfl, rfl⟩
      generalize tmStart luck .startWait s = s' at inv' same ⊢
      dsimp only
      have cur' := same.2.trans cur
      have ok := inv'.items c
      split
      · rename_i waiting
        exact inv'.set ⟨ok.told, ok.calls, ok.held, waiting.2⟩ (fun _ => cur')
          fun before => inv'.early before c
      · split
        · exact stop_inv inv' c
        · rename_i idle
          refine next_inv inv' (inv'.quiet_of_turn (some c) cur' ?_) _
          rintro u ⟨⟩
          exact idle

theorem stop_state (t u : NetType) (s : NetInfo) : ((nmDialStop t s).item u).state =
    if u = t then .disconnected else (s.item u).state := by
  unfold nmDialStop
  rw [set_item]
  split <;> rfl

theorem restart_inv (inv : NmInv s) : NmInv (nmDialRestart luck s) := by
  unfold nmDialRestart
  split
  · have stopped := stop_inv (stop_inv (inv.timer true s.queued) .privateNet) .publicNet
    refine ⟨stopped.items, fun u up => ?_, stopped.early⟩
    have down : (((nmDialStop .publicNet (nmDialStop .privateNet
        { s with armed := true })).item u).state) = .disconnected := by
      rw [stop_state, stop_state]
      cases u <;> rfl
    rw [down] at up
    cases up
  · exact inv

theorem netProc_inv (inv : NmInv s) (t : NetType) (apn : Bool) :
    NmInv (nmDialNetProc luck t apn s) := by
  have ok := inv.items t
  unfold nmDialNetProc
  split
  · exact inv
  · split
    · exact restart_inv (inv.set ⟨ok.told, ok.calls, ok.held, ok.waits⟩ (inv.turn t)
        fun before => inv.early before t)
    · exact inv

theorem step_inv (inv : NmInv s) {ev : NmEvent} (valid : ev.Valid s) :
    NmInv (nmStep luck s ev) := by
  cases ev with
  | dialInited t => exact initMsg_inv inv valid t
  | wdsConnected t ip =>
    have ok := inv.items t
    exact inv.set ⟨ok.told, ok.calls, ok.held, ok.waits⟩ (inv.turn t)
      fun before => inv.early before t
  | netIsConn t => exact connected_inv inv t
  | netNoNet t => exact disconnected_inv inv t
  | expired => exact inv.timer _ _
  | timerRecall => exact timer_inv (inv.timer s.armed (s.queued - 1))
  | apnChanged t apn => exact netProc_inv inv t apn
  | diagRestart => exact restart_inv inv

theorem fresh_inv (fresh : NmFresh s) : NmInv s := by
  obtain ⟨-, -, -, -, items⟩ := fresh
  refine ⟨fun t => ?_, fun t up => ?_, fun _ t => (items t).1⟩
  · obtain ⟨held, state, waits, told, calls⟩ := items t
    refine ⟨?_, ?_, ?_, waits ▸ Nat.zero_le _⟩
    · rw [told, state]
      exact follows_nil (by decide)
    · rw [calls, held]
      exact follows_nil (by decide)
    · rw [state]
      rintro (up | up) <;> cases up
  · rw [(items t).2.1] at up
    cases up

theorem reach_inv {P : Luck → Prop} (reach : NmReach P s) : NmInv s := by
  refine Runs.Reach.invariant ?_ ?_ reach
  · rintro s ⟨luck, fresh, -, start, rfl⟩
    exact allNet_inv (fresh_inv start) start.2.1
  · rintro s ⟨ev, luck⟩ s' inv ⟨-, valid, rfl⟩
    exact step_inv inv valid

def allWork : Luck := fun _ => true

/-- Both networks have an access point. -/
def nmFresh : NetInfo :=
  ⟨some .privateNet, .notInited, false, 0,
    fun _ => ⟨false, .disconnected, 0, .v4, true, [], []⟩⟩

/-- The library has called back, and the private network is dialled. -/
def nmReady : NetInfo :=
  nmStep allWork (nmDialAllNet allWork nmFresh) (.dialInited .privateNet)

/-- The private network was connected and lost, and the public one is dialled. -/
def nmLost : NetInfo :=
  nmStep allWork (nmStep allWork nmReady (.netIsConn .privateNet)) (.netNoNet .privateNet)

theorem nmLost_reached {P : Luck → Prop} (work : P allWork) : NmReach P nmLost := by
  have start : NmReach P (nmDialAllNet allWork nmFresh) :=
    .start ⟨allWork, nmFresh, work, ⟨rfl, rfl, rfl, rfl, fun _ => ⟨rfl, rfl, rfl, rfl, rfl⟩⟩, rfl⟩
  have ready : NmReach P nmReady := .next (.dialInited .privateNet, allWork) start ⟨work, rfl, rfl⟩
  have up : NmReach P (nmStep allWork nmReady (.netIsConn .privateNet)) :=
    .next (.netIsConn .privateNet, allWork) ready ⟨work, trivial, rfl⟩
  exact .next (.netNoNet .privateNet, allWork) up ⟨work, trivial, rfl⟩

/-- Every `tm_start` succeeds. -/
def TimersWork (luck : Luck) : Prop :=
  ∀ op ∈ [NmOp.startDisconnected, .startWait, .startCall, .startRestart, .startInit,
    .startIniting], luck op = true

/-- The timer runs or its message waits, the library is about to call back, or there is nothing to
dial. -/
def Alive (s : NetInfo) : Prop :=
  s.armed = true ∨ 0 < s.queued ∨ s.initState = .initing ∨ ∀ t, s.wants t = false

theorem tmStart_armed {op : NmOp} (works : luck op = true) : (tmStart luck op s).armed = true := by
  rw [tmStart, if_pos works]

theorem stop_armed (t : NetType) : (nmDialStop t s).armed = s.armed := rfl

theorem call_armed (works : luck .startCall = true) (t : NetType) :
    (nmDialCall luck t s).armed = true := by
  unfold nmDialCall
  rw [if_pos works]
  dsimp only
  split
  · rfl
  · split
    · rfl
    · split
      · rfl
      · split
        · split <;> rfl
        · rfl

theorem wants_none {t : Option NetType} (none : nmGetNextDialNet s t = none) (u : NetType) :
    s.wants u = false := by
  unfold nmGetNextDialNet at none
  dsimp only at none
  generalize t.getD .privateNet = t at none
  have both : s.wants t.other = false ∧ s.wants t = false := by
    cases first : s.wants t.other <;> cases second : s.wants t <;> simp [first, second] at none ⊢
  cases t <;> cases u
  · exact both.2
  · exact both.1
  · exact both.1
  · exact both.2

theorem next_alive (works : luck .startCall = true) (t : Option NetType) :
    Alive (nmDialNext luck t s) := by
  unfold nmDialNext
  split
  · exact .inl (call_armed works _)
  · rename_i none
    exact .inr (.inr (.inr fun u => wants_none none u))

theorem next_armed (works : luck .startCall = true) (armed : s.armed = true)
    (t : Option NetType) : (nmDialNext luck t s).armed = true := by
  unfold nmDialNext
  split
  · exact call_armed works _
  · exact armed

theorem allNet_alive (works : TimersWork luck) (before : s.initState = .notInited) :
    Alive (nmDialAllNet luck s) := by
  unfold nmDialAllNet
  rw [before]
  split
  · rename_i none
    refine .inr (.inr (.inr fun t => ?_))
    have both : (s.item .privateNet).apn = false ∧ (s.item .publicNet).apn = false := by
      cases first : (s.item .privateNet).apn <;> cases second : (s.item .publicNet).apn <;>
        simp [first, second] at none ⊢
    cases t <;> simp [NetInfo.wants, both]
  · dsimp only
    split
    · exact .inr (.inr (.inl rfl))
    · exact .inl (tmStart_armed (works _ (by decide)))

theorem restart_alive (works : TimersWork luck) : Alive (nmDialRestart luck s) := by
  rw [nmDialRestart, if_pos (works _ (by decide))]
  exact .inl rfl

theorem step_alive (works : TimersWork luck) (alive : Alive s) (ev : NmEvent) :
    Alive (nmStep luck s ev) := by
  have call := works .startCall (by decide)
  cases ev with
  | dialInited t =>
    show Alive (nmDialInitMsgProc luck t s)
    unfold nmDialInitMsgProc
    dsimp only
    split
    · exact .inl (call_armed call t)
    · exact next_alive call _
  | wdsConnected t ip =>
    have same : ∀ u, (s.set t { s.item t with
        ipType := ip.getD (s.item t).ipType }).wants u = s.wants u := by
      intro u
      simp only [NetInfo.wants, set_item]
      split
      · rename_i same
        rw [same]
      · rfl
    exact alive.imp id (Or.imp id (Or.imp id fun none u => (same u).trans (none u)))
  | netIsConn t =>
    show Alive (nmDialConnected luck t s)
    unfold nmDialConnected
    dsimp only
    split
    · exact alive
    · split
      · exact .inl (call_armed call t)
      · split
        · exact .inl (call_armed call t)
        · exact next_alive call _
  | netNoNet t =>
    show Alive (nmDialDisconnected luck t s)
    unfold nmDialDisconnected
    split
    · rename_i before
      exact allNet_alive works before
    · exact .inl (tmStart_armed (works _ (by decide)))
  | expired => exact .inr (.inl (Nat.succ_pos _))
  | timerRecall =>
    show Alive (nmDialTimerMsgProc luck _)
    unfold nmDialTimerMsgProc
    split
    · rename_i before
      exact allNet_alive works before
    · split
      · exact next_alive call _
      · have armed := tmStart_armed (s := { s with queued := s.queued - 1 })
          (works .startWait (by decide))
        dsimp only
        split
        · exact .inl armed
        · split
          · exact .inl armed
          · exact .inl (next_armed call armed _)
  | apnChanged t apn =>
    show Alive (nmDialNetProc luck t apn s)
    unfold nmDialNetProc
    split
    · exact alive
    · split
      · exact restart_alive works
      · exact alive
  | diagRestart => exact restart_alive works

theorem reach_alive (reach : NmReach TimersWork s) : Alive s := by
  refine Runs.Reach.invariant ?_ ?_ reach
  · rintro s ⟨luck, fresh, works, start, rfl⟩
    exact allNet_alive works start.2.1
  · rintro s ⟨ev, luck⟩ s' alive ⟨works, -, rfl⟩
    exact step_alive works alive ev

/-! ### Dialled in time -/

/-- A message of the recall timer while all calls succeed. -/
def tick (s : NetInfo) : NetInfo := nmDialTimerMsgProc (fun _ => true) s

/-- One round to release a handle that is left, one to dial. -/
def ownRounds (i : NetItem) : Nat := (if i.held then 1 else 0) + 1

/-- The rounds until the network is dialled: those of the other one before, if it is dialled or its
turn comes first, and its own. -/
def rounds (t : NetType) (s : NetInfo) : Nat :=
  let other := s.item t.other
  if (s.item t).state = .connecting then 0
  else if s.curType.getD .privateNet = t then
    (if s.wants t.other then ownRounds other + (NM_MAX_DIAL_TIMES + 1) else 0) +
      ownRounds (s.item t)
  else
    (if s.curType = some t.other ∧ other.state = .connecting then
      NM_MAX_DIAL_TIMES + 1 - other.waitCnt else 0) + ownRounds (s.item t)

theorem rounds_le (t : NetType) (s : NetInfo) : rounds t s ≤ 11 := by
  have own (i : NetItem) : ownRounds i ≤ 2 := by
    unfold ownRounds
    split <;> decide
  have mine := own (s.item t)
  have other := own (s.item t.other)
  unfold rounds NM_MAX_DIAL_TIMES
  dsimp only
  split
  · omega
  · split <;> split <;> omega

theorem set_set (j : NetItem) : (s.set t i).set t j = s.set t j := by
  simp [NetInfo.set]

/-- Dialling a network whose handle is left only releases it. -/
theorem dial_held {u : NetType} (ready : s.initState = .inited) (apn : (s.item u).apn = true)
    (held : (s.item u).held = true) : ∃ i, nmDialCall (fun _ => true) u s =
      { s.set u i with armed := true } ∧ i.state = .disconnected ∧ i.held = false ∧
        i.apn = true := by
  unfold nmDialCall
  rw [if_pos rfl]
  dsimp only
  rw [if_neg (by rw [apn]; decide), if_neg fun late => late ready, if_pos held]
  let i := { s.item u with waitCnt := 0 }
  refine ⟨{ i.disconnect with
    held := false, calls := if i.held then i.calls ++ [.release] else i.calls }, ?_, rfl, rfl, apn⟩
  unfold nmDialStop
  rw [set_set, set_item_same]
  rfl

theorem dial_free {u : NetType} (ready : s.initState = .inited) (apn : (s.item u).apn = true)
    (free : (s.item u).held = false) : ∃ i, nmDialCall (fun _ => true) u s =
      { s.set u i with armed := true, curType := some u } ∧ i.state = .connecting ∧
        i.waitCnt = 0 ∧ i.apn = true := by
  unfold nmDialCall
  rw [if_pos rfl]
  dsimp only
  rw [if_neg (by rw [apn]; decide), if_neg fun late => late ready,
    if_neg (by rw [free]; decide), if_pos rfl, if_pos rfl]
  refine ⟨{ s.item u with
    waitCnt := 0, held := true, calls := (s.item u).calls ++ [.get], state := .connecting }, ?_,
    rfl, rfl, apn⟩
  rw [set_set, set_set]
  rfl

theorem wants_iff (u : NetType) : s.wants u = true ↔
    (s.item u).state ≠ .connected ∧ (s.item u).apn = true := by
  simp [NetInfo.wants]

theorem other_ne (t : NetType) : t.other ≠ t := by
  cases t <;> decide

theorem other_other (t : NetType) : t.other.other = t := by
  cases t <;> rfl

/-- The network that is wanted is dialled. -/
theorem dial_own (ready : s.initState = .inited) (wanted : s.wants t = true)
    (idle : (s.item t).state ≠ .connecting)
    (first : s.curType.getD .privateNet = t → s.wants t.other = false)
    (quiet : s.curType = some t.other → (s.item t.other).state ≠ .connecting) :
    rounds t (nmDialCall (fun _ => true) t s) < rounds t s := by
  obtain ⟨-, apn⟩ := (wants_iff t).mp wanted
  have now : rounds t s = ownRounds (s.item t) := by
    unfold rounds
    dsimp only
    rw [if_neg idle]
    split
    · rename_i turn
      rw [first turn, if_neg Bool.false_ne_true, Nat.zero_add]
    · rw [if_neg fun busy => quiet busy.1 busy.2, Nat.zero_add]
  have away : (t.other = t) = False := eq_false (other_ne t)
  rw [now, ownRounds]
  cases held : (s.item t).held with
  | true =>
    obtain ⟨i, dialled, down, free, -⟩ := dial_held ready apn held
    rw [dialled]
    simp only [rounds, NetInfo.wants, set_item, away, if_true, if_false, down, ownRounds, free,
      set_curType]
    rw [if_neg (by decide)]
    split
    · rename_i turn
      have closed := first turn
      rw [NetInfo.wants] at closed
      rw [closed]
      simp
    · rw [if_neg fun busy => quiet busy.1 busy.2]
      decide
  | false =>
    obtain ⟨i, dialled, up, -, -⟩ := dial_free ready apn held
    rw [dialled]
    simp only [rounds, set_item, if_true, up]
    decide

/-- The other network is dialled before it. -/
theorem dial_other (ready : s.initState = .inited) (idle : (s.item t).state ≠ .connecting)
    (turn : s.curType.getD .privateNet = t) (first : s.wants t.other = true) :
    rounds t (nmDialCall (fun _ => true) t.other s) < rounds t s := by
  obtain ⟨down, apn⟩ := (wants_iff t.other).mp first
  have now : rounds t s = ownRounds (s.item t.other) + (NM_MAX_DIAL_TIMES + 1) +
      ownRounds (s.item t) := by
    unfold rounds
    dsimp only
    rw [if_neg idle, if_pos turn, if_pos first]
  have away : (t = t.other) = False := eq_false (other_ne t).symm
  rw [now]
  cases held : (s.item t.other).held with
  | true =>
    obtain ⟨i, dialled, down', free, apn'⟩ := dial_held ready apn held
    rw [dialled]
    simp only [rounds, NetInfo.wants, set_item, away, if_true, if_false, down', apn',
      set_curType, turn, ownRounds, free, held]
    rw [if_neg idle, if_pos (by decide)]
    simp
  | false =>
    obtain ⟨i, dialled, up, waits, apn'⟩ := dial_free ready apn held
    rw [dialled]
    simp only [rounds, NetInfo.wants, set_item, away, if_true, if_false, up, waits, ownRounds, held]
    rw [if_neg idle, if_neg (by simpa using other_ne t), if_pos (by simp)]
    simp

theorem next_rounds (ready : s.initState = .inited) (wanted : s.wants t = true)
    (quiet : ∀ u, (s.item u).state ≠ .connecting) {c : Option NetType} (cur : s.curType = c) :
    rounds t (nmDialNext (fun _ => true) c s) < rounds t s := by
  subst cur
  unfold nmDialNext nmGetNextDialNet
  dsimp only
  by_cases turn : s.curType.getD .privateNet = t
  · rw [turn]
    by_cases first : s.wants t.other = true
    · rw [if_pos first]
      exact dial_other ready (quiet t) turn first
    · rw [if_neg first, if_pos wanted]
      exact dial_own ready wanted (quiet t) (fun _ => Bool.eq_false_iff.mpr first)
        fun _ => quiet _
  · have mine : (s.curType.getD .privateNet).other = t := by
      generalize s.curType.getD .privateNet = c at turn
      cases c <;> cases t
      · exact absurd rfl turn
      · rfl
      · rfl
      · exact absurd rfl turn
    rw [mine, if_pos wanted]
    exact dial_own ready wanted (quiet t) (fun turn' => absurd turn' turn) fun _ => quiet _

/-- While the other network is dialled its rounds run out. -/
theorem wait_rounds (inv : NmInv s) (idle : (s.item t).state ≠ .connecting)
    (cur : s.curType = some t.other) (busy : (s.item t.other).state = .connecting)
    (ready : s.initState = .inited) : rounds t (tick s) < rounds t s := by
  have turn : ¬ (s.curType.getD .privateNet = t) := by
    rw [cur]
    exact other_ne t
  have waits := (inv.items t.other).waits
  have now : rounds t s = NM_MAX_DIAL_TIMES + 1 - (s.item t.other).waitCnt +
      ownRounds (s.item t) := by
    unfold rounds
    dsimp only
    rw [if_neg idle, if_neg turn, if_pos ⟨cur, busy⟩]
  have away : (t = t.other) = False := eq_false (other_ne t).symm
  have started : tmStart (fun _ => true) .startWait s = { s with armed := true } := if_pos rfl
  rw [now, tick, nmDialTimerMsgProc, if_neg (by rw [ready]; decide), cur]
  dsimp only
  rw [started]
  by_cases more : (s.item t.other).waitCnt < NM_MAX_DIAL_TIMES
  · rw [if_pos ⟨busy, more⟩]
    simp only [rounds, set_item, away, if_true, if_false, set_curType, busy]
    rw [if_neg idle, if_neg turn, if_pos ⟨cur, trivial⟩]
    omega
  · rw [if_neg fun both => more both.2, if_pos busy]
    simp only [rounds, nmDialStop, set_item, away, if_true, if_false, set_curType,
      NetItem.disconnect]
    rw [if_neg idle, if_neg turn, if_neg (by rintro ⟨-, ⟨⟩⟩)]
    omega

theorem tick_rounds (inv : NmInv s) (ready : s.initState = .inited) (wanted : s.wants t = true)
    (idle : (s.item t).state ≠ .connecting) : rounds t (tick s) < rounds t s := by
  by_cases busy : ∃ c, s.curType = some c ∧ (s.item c).state = .connecting
  · obtain ⟨c, cur, busy⟩ := busy
    have mine : c = t.other := by
      cases c <;> cases t
      · exact absurd busy idle
      · rfl
      · rfl
      · exact absurd busy idle
    subst mine
    exact wait_rounds inv idle cur busy ready
  · have quiet := inv.quiet_of_turn s.curType rfl fun u cur up => busy ⟨u, cur, up⟩
    rw [tick, nmDialTimerMsgProc, if_neg (by rw [ready]; decide)]
    split
    · rename_i cur
      exact next_rounds ready wanted quiet cur
    · rename_i c cur
      have started : tmStart (fun _ => true) .startWait s = { s with armed := true } := if_pos rfl
      dsimp only
      rw [started, if_neg fun both => quiet c both.1, if_neg (quiet c)]
      exact next_rounds (s := { s with armed := true }) ready wanted quiet cur

/-! ### What a round leaves -/

/-- Nothing is connected, and the access points stay. -/
def Keeps (s s' : NetInfo) : Prop :=
  s'.initState = s.initState ∧ ∀ u, (s'.item u).apn = (s.item u).apn ∧
    ((s'.item u).state = .connected → (s.item u).state = .connected)

theorem Keeps.trans {s₁ s₂ s₃ : NetInfo} (first : Keeps s₁ s₂) (second : Keeps s₂ s₃) :
    Keeps s₁ s₃ :=
  ⟨second.1.trans first.1, fun u =>
    ⟨(second.2 u).1.trans (first.2 u).1, fun up => (first.2 u).2 ((second.2 u).2 up)⟩⟩

theorem set_keeps (apn : i.apn = (s.item t).apn)
    (down : i.state = .connected → (s.item t).state = .connected) : Keeps s (s.set t i) := by
  refine ⟨rfl, fun u => ?_⟩
  rw [set_item]
  split
  · rename_i same
    subst same
    exact ⟨apn, down⟩
  · exact ⟨rfl, id⟩

theorem stop_keeps (t : NetType) (s : NetInfo) : Keeps s (nmDialStop t s) :=
  set_keeps rfl (by rintro ⟨⟩)

theorem call_keeps (t : NetType) (s : NetInfo) : Keeps s (nmDialCall luck t s) := by
  unfold nmDialCall
  dsimp only
  split
  · have reset : Keeps s ({ s with armed := true }.set t { s.item t with waitCnt := 0 }) :=
      set_keeps (s := { s with armed := true }) rfl id
    split
    · exact reset
    · split
      · exact reset
      · split
        · exact reset.trans (stop_keeps t _)
        · split
          · split
            · have dialled : ∀ {s₂ : NetInfo} {i : NetItem}, Keeps s s₂ →
                  i.apn = (s₂.item t).apn → i.state ≠ .connected →
                  Keeps s { s₂.set t i with curType := some t } :=
                fun kept apn down =>
                  ⟨kept.1, (kept.trans (set_keeps apn fun up => absurd up down)).2⟩
              exact dialled (reset.trans (set_keeps (by simp) (by simp))) (by simp) (by simp)
            · exact reset.trans (set_keeps (by simp) (by simp))
          · exact reset
  · exact ⟨rfl, fun u => ⟨rfl, id⟩⟩

theorem next_keeps (t : Option NetType) (s : NetInfo) : Keeps s (nmDialNext luck t s) := by
  unfold nmDialNext
  split
  · exact call_keeps _ s
  · exact ⟨rfl, fun u => ⟨rfl, id⟩⟩

theorem timer_keeps (ready : s.initState = .inited) : Keeps s (nmDialTimerMsgProc luck s) := by
  unfold nmDialTimerMsgProc
  rw [if_neg (by rw [ready]; decide)]
  split
  · exact next_keeps _ s
  · have started : Keeps s (tmStart luck .startWait s) := by
      unfold tmStart
      split <;> exact ⟨rfl, fun u => ⟨rfl, id⟩⟩
    dsimp only
    split
    · exact started.trans (set_keeps rfl id)
    · split
      · exact started.trans (stop_keeps _ _)
      · exact started.trans (next_keeps _ _)

/-- Within the rounds that are left the network is dialled. -/
theorem dialled_within (inv : NmInv s) (ready : s.initState = .inited)
    (wanted : s.wants t = true) {n : Nat} (left : rounds t s ≤ n) :
    ∃ k ≤ n, ((tick^[k] s).item t).state = .connecting := by
  induction n generalizing s with
  | zero =>
    by_cases up : (s.item t).state = .connecting
    · exact ⟨0, Nat.le_refl 0, up⟩
    · have less := tick_rounds inv ready wanted up
      omega
  | succ n ih =>
    by_cases up : (s.item t).state = .connecting
    · exact ⟨0, Nat.zero_le _, up⟩
    · have less := tick_rounds inv ready wanted up
      have kept : Keeps s (tick s) := timer_keeps ready
      have wanted' : (tick s).wants t = true := by
        obtain ⟨down, apn⟩ := (wants_iff t).mp wanted
        exact (wants_iff t).mpr ⟨fun up => down ((kept.2 t).2 up), (kept.2 t).1.trans apn⟩
      obtain ⟨k, few, dialled⟩ :=
        ih (s := tick s) (timer_inv inv) (kept.1.trans ready) wanted' (by omega)
      exact ⟨k + 1, Nat.succ_le_succ few, dialled⟩

end Nm
