import TBoxMpu.Foton.CacheFailed
import TBoxMpu.Lib.Runs
import Mathlib.Data.Multiset.AddSub

/-!
# Runs of the FOTON report lists

The CAN thread saves reports and flushes errors, the protocol thread takes a pack, hands it
to the socket or puts it back, and the socket acknowledges. Every order of these steps is a
run. A step keeps account of the reports that were saved, acknowledged and dropped.
-/

namespace Foton

structure FtRun where
  store : FtStore
  /-- The pack that `ft_do_report` has taken and not passed on. -/
  hand : Option FtPack
  saved : Multiset FtReport
  acked : Multiset FtReport
  lost : Multiset FtReport

inductive FtAct
  | saveRealtm (groups : List (FileOps × List UInt8))
  | flushErrorTake (err : FtPack)
  | flushErrorEnd
  | flushRealtm
  | emergence (set : Bool)
  | ack
  | getPack (ops : FileOps)
  /-- The socket buffer has no room for the pack that was taken. -/
  | noRoom
  /-- `sock_send` returned an error or found its list full. -/
  | notSent
  | sent
  | flushSending
  | powerOff (ops : FileOps)

/-- The lists that hold reports. -/
def ftReportLists : Finset FtList := {.delay, .realtm, .trans, .tmplst}

/-- The reports on the lists and in the cache. -/
def ftHeld (s : FtStore) : Multiset FtReport :=
  Heads.total ftReportLists FtPack.report s.lists + ↑((ftPending s).map FtPack.report)

def handed (hand : Option FtPack) : Multiset FtReport :=
  hand.elim 0 fun rpt => {rpt.report}

def FtRun.holds (s : FtRun) : Multiset FtReport :=
  ftHeld s.store + handed s.hand

/-- The step to `store` and `hand` in which `saved` came in and `acked` was acknowledged;
what is nowhere any more was lost. -/
def FtRun.become (s : FtRun) (store : FtStore) (hand : Option FtPack)
    (saved acked : Multiset FtReport) : FtRun where
  store := store
  hand := hand
  saved := s.saved + saved
  acked := s.acked + acked
  lost := s.lost + (s.holds + saved - (ftHeld store + handed hand + acked))

/-- The reports that `ft_data_save_realtm` makes of the groups from number `i` on. -/
def ftGroupReports (i : Nat) : List (FileOps × List UInt8) → Multiset FtReport
  | [] => 0
  | (_, data) :: rest => {(data, i + 1)} + ftGroupReports (i + 1) rest

/-- The report that an acknowledgement is for: the oldest one with the socket. -/
def ftAcked (s : FtStore) : Multiset FtReport :=
  ↑(((s.lists .trans).take 1).map FtPack.report)

def ftStep (s : FtRun) : FtAct → Option FtRun
  | .saveRealtm groups =>
    (ftDataSaveRealtm s.store groups).map fun t => s.become t s.hand (ftGroupReports 0 groups) 0
  | .flushErrorTake err =>
    (ftFlushErrorTake s.store err).map fun t => s.become t s.hand {err.report} 0
  | .flushErrorEnd => some (s.become (ftFlushErrorEnd s.store) s.hand 0 0)
  | .flushRealtm => some (s.become (ftDataFlushRealtm s.store) s.hand 0 0)
  | .emergence set => some (s.become (ftDataEmergence s.store set) s.hand 0 0)
  | .ack => some (s.become (ftDataAckPack s.store) s.hand 0 (ftAcked s.store))
  | .getPack ops =>
    match s.hand with
    | some _ => none
    | none => (ftDataGetPack ops s.store).map fun (rpt, t) => s.become t rpt 0 0
  | .noRoom => s.hand.map fun _ => s.become s.store none 0 0
  | .notSent => s.hand.map fun rpt => s.become (ftDataPutBack s.store rpt) none 0 0
  | .sent => s.hand.map fun rpt => s.become (ftDataPutSend s.store rpt) none 0 0
  | .flushSending =>
    match s.hand with
    | some _ => none
    | none => some (s.become (ftDataFlushSending s.store) none 0 0)
  | .powerOff ops =>
    match s.hand with
    | some _ => none
    | none => some (s.become (ftCacheSaveAll ops (ftDataEmergence s.store false)).2 none 0 0)

/-! Steps that need an empty hand. -/

theorem hand_empty {hand : Option FtPack} {next : Option FtRun} {t : FtRun}
    (step : (match hand with | some _ => none | none => next) = some t) :
    hand = none ∧ next = some t := by
  cases hand with
  | some rpt => cases step
  | none => exact ⟨rfl, step⟩

theorem ftStep_getPack {s t : FtRun} {ops : FileOps} (step : ftStep s (.getPack ops) = some t) :
    s.hand = none ∧
      ∃ rpt m, ftDataGetPack ops s.store = some (rpt, m) ∧ t = s.become m rpt 0 0 := by
  obtain ⟨empty, taken⟩ := hand_empty step
  obtain ⟨⟨rpt, m⟩, run, rfl⟩ := Option.map_eq_some_iff.mp taken
  exact ⟨empty, rpt, m, run, rfl⟩

theorem ftStep_flushSending {s t : FtRun} (step : ftStep s .flushSending = some t) :
    s.hand = none ∧ t = s.become (ftDataFlushSending s.store) none 0 0 := by
  obtain ⟨empty, flushed⟩ := hand_empty step
  exact ⟨empty, (Option.some.inj flushed).symm⟩

theorem ftStep_powerOff {s t : FtRun} {ops : FileOps} (step : ftStep s (.powerOff ops) = some t) :
    s.hand = none ∧
      t = s.become (ftCacheSaveAll ops (ftDataEmergence s.store false)).2 none 0 0 := by
  obtain ⟨empty, saved⟩ := hand_empty step
  exact ⟨empty, (Option.some.inj saved).symm⟩

/-- A start with any files: the reports that `cache_info` tells of count as saved. -/
def FtStart (s : FtRun) : Prop :=
  ∃ files : FtStore, (ftDataInit files).InRing ∧
    s = ⟨ftDataInit files, none, ftHeld (ftDataInit files), 0, 0⟩

/-- All file operations of the step succeed. -/
def FtAct.Succeed : FtAct → Prop
  | saveRealtm groups => ∀ group ∈ groups, group.1.Succeed
  | getPack ops => ops.Succeed
  | powerOff ops => ops.Succeed
  | _ => True

end Foton
