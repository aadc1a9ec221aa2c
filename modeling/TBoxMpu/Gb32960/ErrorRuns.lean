import Mathlib.Data.List.DropRight
import TBoxMpu.Gb32960.CellTiles
import TBoxMpu.Gb32960.ErrorFlush
import TBoxMpu.Gb32960.PacketBounds

/-!
# The error ring between loads

What the ring of `gb_errmem` holds after any saves, flushes and clears under one DBC.

`flush_empties_iff`: a flush returns and appends what was saved since the last flush or clear, the
newest that the ring holds of it, in order. It leaves every node of the ring empty unless nothing
was saved or cleared since the load and the first node, which the load does not reset, still held a
pack of an earlier DBC.
-/

namespace Gb32960

open Runs

/-! ### The content of the ring -/

/-- What the ring holds, the oldest first. -/
def GbErrors.content (errs : GbErrors) : List (List UInt8 × Nat) := errs.ring.map errs.entry

/-- A saved packet replaces the oldest. -/
theorem saveErrorOne_some {errs : GbErrors} {n : GbErrNode} {ns : List GbErrNode}
    (ring : errs.ring = n :: ns) (i : Nat) (data : List UInt8) :
    ∃ errs', gbSaveErrorOne errs i data = some errs' ∧ errs'.ring = ns ++ [n] ∧
      errs'.mem = Function.update errs.mem n { errs.mem n with data, seq := i + 1 } := by
  unfold gbSaveErrorOne
  split
  next none => rw [ring] at none; cases none
  next m ms content =>
    obtain ⟨rfl, rfl⟩ := List.cons.inj (ring.symm.trans content)
    exact ⟨_, rfl, rfl, rfl⟩

theorem saveErrorOne_content {errs : GbErrors} {n : GbErrNode} {ns : List GbErrNode}
    (ring : errs.ring = n :: ns) (i : Nat) (data : List UInt8) :
    ∃ errs', gbSaveErrorOne errs i data = some errs' ∧
      errs'.content = ns.map errs.entry ++ [(data, i + 1)] := by
  have apart : n ∉ ns := by
    have once := errs.nodup
    rw [ring] at once
    exact (List.nodup_cons.mp once).1
  obtain ⟨errs', saved, ring', mem'⟩ := saveErrorOne_some ring i data
  refine ⟨errs', saved, ?_⟩
  unfold GbErrors.content
  rw [ring', List.map_append, List.map_singleton]
  congr 1
  · refine List.map_congr_left fun m mem => ?_
    unfold GbErrors.entry
    rw [mem', Function.update_of_ne]
    rintro rfl
    exact apart mem
  · simp [GbErrors.entry, mem']

/-- The packets of a call push out as many of the oldest. -/
theorem saveErrorFrom_content {errs : GbErrors} (i : Nat) (groups : List (List UInt8))
    (room : groups.length ≤ errs.content.length) :
    ∃ errs', gbSaveErrorFrom errs i groups = some errs' ∧
      errs'.content = (errs.content ++ groups.zipIdx (i + 1)).drop groups.length := by
  induction groups generalizing errs i with
  | nil => exact ⟨errs, rfl, by simp⟩
  | cons data rest ih =>
    obtain ⟨n, ns, ring⟩ : ∃ n ns, errs.ring = n :: ns := by
      refine List.exists_cons_of_ne_nil fun none => ?_
      unfold GbErrors.content at room
      rw [none] at room
      exact absurd room (by simp)
    obtain ⟨errs₁, one, content⟩ := saveErrorOne_content ring i data
    have all : errs.content = errs.entry n :: ns.map errs.entry := by
      unfold GbErrors.content
      rw [ring]
      rfl
    have room₁ : rest.length ≤ errs₁.content.length := by
      rw [all] at room
      rw [content]
      simpa using Nat.le_succ_of_le (Nat.le_of_succ_le_succ room)
    obtain ⟨errs', run, content'⟩ := ih (i + 1) room₁
    refine ⟨errs', ?_, ?_⟩
    · unfold gbSaveErrorFrom
      rw [one]
      exact run
    · rw [content', content, all, List.zipIdx_cons]
      simp

theorem content_clear (errs : GbErrors) :
    (gbDataClearError errs).content.length = errs.content.length ∧
    ∀ p ∈ (gbDataClearError errs).content, p.1 = [] := by
  unfold GbErrors.content
  refine ⟨by simp [gbDataClearError], fun p mem => ?_⟩
  obtain ⟨n, on, rfl⟩ := List.mem_map.mp mem
  have on : n ∈ errs.ring := on
  simp [GbErrors.entry, gbDataClearError, on]

/-- The length of the ring of this DBC. -/
def ringSize (inf : GbInf) : Nat := (groupSize inf).toNat * 30

theorem ringSize_le (inf : GbInf) : ringSize inf ≤ gbMaxError := by
  have groups := groupSize_toNat inf
  have cells := cellCnt_le inf.batt
  have size : gbMaxPackCell = 800 := rfl
  have errors : gbMaxError = 120 := rfl
  unfold ringSize
  omega

/-- The first node of `gb_errmem`. -/
def firstNode : GbErrNode := ⟨0, by decide⟩

/-- The nodes of the ring behind the first are reset by a load. -/
theorem content_init (errs : GbErrors) (inf : GbInf) :
    let init := gbErrorInit errs (groupSize inf).toNat
    (ringSize inf = 0 ∧ init.ring = []) ∨
    ∃ ns, init.ring = firstNode :: ns ∧ (firstNode :: ns).length = ringSize inf ∧
      init.mem firstNode = errs.mem firstNode ∧ ns ≠ [] ∧ ∀ n ∈ ns, (init.mem n).data = [] := by
  have size := ringSize_le inf
  cases groups : (groupSize inf).toNat with
  | zero =>
    left
    simp [ringSize, groups, gbErrorInit]
  | succ k =>
    right
    obtain ⟨rest, nodes⟩ : ∃ rest, List.finRange gbMaxError = firstNode :: rest :=
      ⟨_, List.finRange_succ⟩
    have ring : (gbErrorInit errs (k + 1)).ring =
        firstNode :: rest.take (k * 30 + 29) := by
      change (List.finRange gbMaxError).take ((k + 1) * 30) = _
      rw [nodes, show (k + 1) * 30 = k * 30 + 29 + 1 by omega, List.take_succ_cons]
    have length : (gbErrorInit errs (k + 1)).ring.length = ringSize inf := by
      unfold ringSize at size
      simpa [gbErrorInit, ringSize, groups] using groups ▸ size
    rw [ring] at length
    refine ⟨rest.take (k * 30 + 29), ring, length, ?_, ?_, fun n mem => ?_⟩
    · simp [gbErrorInit, firstNode]
    · intro none
      rw [none] at length
      simp [ringSize, groups] at length
      omega
    · have once := (gbErrorInit errs (k + 1)).nodup
      rw [ring] at once
      have behind : 0 < n.val := by
        refine Nat.pos_of_ne_zero fun zero => ?_
        have first : n = firstNode := Fin.ext zero
        exact (List.nodup_cons.mp once).1 (first ▸ mem)
      have inside : n.val < (k + 1) * 30 := by
        have on : n ∈ (gbErrorInit errs (k + 1)).ring := by
          rw [ring]
          exact List.mem_cons_of_mem firstNode mem
        obtain ⟨i, lt, rfl⟩ := List.mem_take_iff_getElem.mp on
        simpa using (lt_min_iff.mp lt).1
      simp [gbErrorInit, behind, inside]

/-! ### Any saves, flushes and clears -/

/-- The packets of one call of `gb_data_save_error`, one for each group. -/
structure GbPackets (inf : GbInf) where
  data : List (List UInt8)
  length : data.length = (groupSize inf).toNat
  filled : ∀ d ∈ data, d ≠ []

/-- What `gb_data_save_all` makes for the groups of a call is such a list. -/
theorem saveGroups_filled {F : Type} {fl : Packet.Floating F} {w : Words} {base : Int}
    {readings : Nat → Packet.GbReading F} {st st' : Packet.GbStatics} {i count : Nat}
    {packets : List (List UInt8)}
    (saved : Packet.saveGroups fl w base readings st i count = .ok (packets, st')) :
    packets.length = count ∧ ∀ d ∈ packets, d ≠ [] := by
  induction count generalizing st i packets with
  | zero =>
    cases saved
    exact ⟨rfl, nofun⟩
  | succ count ih =>
    obtain ⟨⟨packet, next⟩, one, saved⟩ := Checked.bind_ok_iff.mp saved
    obtain ⟨⟨rest, after⟩, others, saved⟩ := Checked.bind_ok_iff.mp saved
    cases saved
    obtain ⟨length, filled⟩ := ih others
    refine ⟨congrArg (· + 1) length, List.forall_mem_cons.mpr ⟨?_, filled⟩⟩
    -- a packet begins with its time
    obtain ⟨vehi, -, one⟩ := Checked.bind_ok_iff.mp one
    obtain ⟨battery, -, one⟩ := Checked.bind_ok_iff.mp one
    obtain ⟨engin, -, one⟩ := Checked.bind_ok_iff.mp one
    cases one
    exact nofun

/-- The report lists and the error ring. -/
structure GbReports where
  store : GbStore
  errs : GbErrors

/-- The calls on the error ring under one DBC. In between others work on the report lists, and
leave enough buffers there. -/
inductive GbErrorEvent (inf : GbInf)
  | save (packets : GbPackets inf)
  | flush
  | clear
  | others (store : GbStore) (ready : Ready store)

variable {inf : GbInf}

def gbErrorStep (r : GbReports) : GbErrorEvent inf → Option GbReports
  | .save packets => (gbDataSaveError r.errs packets.data).map fun errs => { r with errs }
  | .flush => (gbDataFlushError r.store r.errs).map fun (store, errs) => ⟨store, errs⟩
  | .clear => some { r with errs := gbDataClearError r.errs }
  | .others store _ => some { r with store }

theorem step_save {r : GbReports} {packets : GbPackets inf} {errs : GbErrors}
    (saved : gbDataSaveError r.errs packets.data = some errs) :
    gbErrorStep r (.save packets) = some { r with errs } := by
  change (gbDataSaveError r.errs packets.data).map _ = _
  rw [saved]
  rfl

theorem step_flush {r : GbReports} {store : GbStore} {errs : GbErrors}
    (flushed : gbDataFlushError r.store r.errs = some (store, errs)) :
    gbErrorStep r (.flush : GbErrorEvent inf) = some ⟨store, errs⟩ := by
  change (gbDataFlushError r.store r.errs).map _ = _
  rw [flushed]
  rfl

/-- The end of the load of a DBC. -/
def GbReports.loaded (inf : GbInf) (r : GbReports) : GbReports where
  store := gbDataClearReport r.store
  errs := gbErrorInit r.errs (groupSize inf).toNat

/-- The packets saved since the last flush or clear, with their numbers. -/
def savedSince (saved : List (List UInt8 × Nat)) : GbErrorEvent inf → List (List UInt8 × Nat)
  | .save packets => saved ++ packets.data.zipIdx 1
  | .flush | .clear => []
  | .others _ _ => saved

def savedBy (events : List (GbErrorEvent inf)) : List (List UInt8 × Nat) :=
  events.foldl savedSince []

/-- The calls that write or empty the first node. -/
def GbErrorEvent.resets : GbErrorEvent inf → Bool
  | .save _ | .clear => true
  | .flush | .others _ _ => false

/-- The first node may still hold what was in it before the load. -/
def Stale (events : List (GbErrorEvent inf)) : Prop := events.any GbErrorEvent.resets = false

/-- What holds after the calls `events` that follow a load in `r`. -/
structure ErrorInv (r : GbReports) (events : List (GbErrorEvent inf)) (s : GbReports) : Prop where
  ready : Ready s.store
  filled : ∀ p ∈ savedBy events, p.1 ≠ []
  ring : (Stale events ∧ savedBy events = [] ∧ s.errs = (r.loaded inf).errs) ∨
    (¬ Stale events ∧ ∃ old, old.length = ringSize inf ∧ (∀ p ∈ old, p.1 = []) ∧
      s.errs.content = (old ++ savedBy events).drop (savedBy events).length)

variable {r s : GbReports} {events : List (GbErrorEvent inf)}

@[simp] theorem savedBy_concat (events : List (GbErrorEvent inf)) (e : GbErrorEvent inf) :
    savedBy (events ++ [e]) = savedSince (savedBy events) e := by
  unfold savedBy
  rw [List.foldl_append]
  rfl

@[simp] theorem stale_concat (events : List (GbErrorEvent inf)) (e : GbErrorEvent inf) :
    Stale (events ++ [e]) ↔ Stale events ∧ e.resets = false := by
  simp [Stale]

theorem clearReport_ready (s : GbStore) : Ready (gbDataClearReport s) := by
  have pool : (gbDataClearReport s).pool = List.finRange gbMaxReport := by
    unfold GbStore.pool
    rw [gbDataClearReport_lists, gbDataClearReport_lists, gbDataClearReport_lists, if_pos rfl,
      if_neg nofun, if_neg nofun, if_neg nofun, if_neg nofun, List.append_nil, List.append_nil]
  have size : gbMaxError ≤ gbMaxReport := by decide
  constructor
  · rw [pool]
    exact List.nodup_finRange gbMaxReport
  · rw [pool, List.length_finRange]
    exact size

theorem errorInv_loaded (inf : GbInf) (r : GbReports) :
    ErrorInv r ([] : List (GbErrorEvent inf)) (r.loaded inf) where
  ready := clearReport_ready r.store
  filled := nofun
  ring := .inl ⟨rfl, rfl, rfl⟩

theorem loaded_length (inf : GbInf) (r : GbReports) :
    (r.loaded inf).errs.content.length = ringSize inf := by
  unfold GbErrors.content GbReports.loaded
  rw [List.length_map]
  rcases content_init r.errs inf with ⟨zero, ring⟩ | ⟨ns, ring, length, -⟩
  · dsimp only
    rw [ring, zero]
    rfl
  · dsimp only
    rw [ring, length]

theorem ErrorInv.length (inv : ErrorInv r events s) : s.errs.content.length = ringSize inf := by
  rcases inv.ring with ⟨-, -, errs⟩ | ⟨-, old, length, -, content⟩
  · rw [errs]
    exact loaded_length inf r
  · rw [content, List.length_drop, List.length_append, length]
    omega

/-- The ring is an empty part, but perhaps for its first node, and the newest of the packets
saved. -/
theorem ErrorInv.parts (inv : ErrorInv r events s) :
    ∃ e f, s.errs.ring = e ++ f ∧ s.errs.Ends e ∧
      f.map s.errs.entry = (savedBy events).rtake (ringSize inf) ∧
      ((∀ n ∈ e, (s.errs.mem n).data = []) ↔
        ringSize inf = 0 ∨ (r.errs.mem firstNode).data = [] ∨ ¬ Stale events) := by
  rcases inv.ring with ⟨stale, nothing, errs⟩ | ⟨reset, old, length, empty, content⟩
  · refine ⟨s.errs.ring, [], (List.append_nil _).symm, ?_, by simp [nothing, List.rtake], ?_⟩
    · intro n last
      rw [errs] at last ⊢
      rcases content_init r.errs inf with ⟨-, ring⟩ | ⟨ns, ring, -, -, more, reset⟩
      · unfold GbReports.loaded at last
        rw [ring] at last
        cases last
      · refine reset n ?_
        change (gbErrorInit r.errs (groupSize inf).toNat).ring.getLast? = some n at last
        obtain ⟨m, ms, rfl⟩ := List.exists_cons_of_ne_nil more
        rw [ring, List.getLast?_cons_cons] at last
        exact List.mem_of_getLast? last
    · rw [errs]
      rcases content_init r.errs inf with ⟨zero, ring⟩ | ⟨ns, ring, length, first, more, reset⟩
      · refine iff_of_true ?_ (.inl zero)
        change ∀ n ∈ (gbErrorInit r.errs (groupSize inf).toNat).ring, _
        rw [ring]
        exact nofun
      · have some : ringSize inf ≠ 0 := by
          rw [← length]
          exact Nat.succ_ne_zero _
        change (∀ n ∈ (gbErrorInit r.errs (groupSize inf).toNat).ring,
          ((gbErrorInit r.errs (groupSize inf).toNat).mem n).data = []) ↔ _
        rw [ring, List.forall_mem_cons, first, and_iff_left reset]
        simp [some, stale]
  · rw [List.drop_append, length] at content
    obtain ⟨e, f, ring, before, behind⟩ := List.map_eq_append_iff.mp content
    have emptied : ∀ n ∈ e, (s.errs.mem n).data = [] := by
      intro n mem
      refine empty (s.errs.entry n) (List.mem_of_mem_drop (i := (savedBy events).length) ?_)
      rw [← before]
      exact List.mem_map_of_mem mem
    exact ⟨e, f, ring, fun n last => emptied n (List.mem_of_getLast? last), behind,
      iff_of_true emptied (.inr (.inr reset))⟩

/-- The next save makes up for the first node. -/
theorem ErrorInv.content (inv : ErrorInv r events s) {k : Nat}
    (some : ringSize inf ≠ 0 → k ≠ 0) (few : k ≤ ringSize inf) :
    ∃ old, old.length = ringSize inf ∧ (∀ p ∈ old, p.1 = []) ∧
      ∀ new : List (List UInt8 × Nat), new.length = k → (s.errs.content ++ new).drop k =
        (old ++ (savedBy events ++ new)).drop (savedBy events ++ new).length := by
  rcases inv.ring with ⟨stale, nothing, errs⟩ | ⟨-, old, length, empty, content⟩
  · have loaded : s.errs.content = (gbErrorInit r.errs (groupSize inf).toNat).ring.map
        s.errs.entry := by
      unfold GbErrors.content
      rw [errs]
      rfl
    rw [nothing]
    rcases content_init r.errs inf with ⟨zero, ring⟩ | ⟨ns, ring, length, -, -, reset⟩
    · refine ⟨[], zero.symm, nofun, fun new size => ?_⟩
      rw [loaded, ring, List.nil_append, ← size]
      rfl
    · refine ⟨([], 0) :: ns.map s.errs.entry, by simpa using length, ?_, fun new size => ?_⟩
      · rw [List.forall_mem_cons]
        refine ⟨rfl, fun p mem => ?_⟩
        obtain ⟨n, on, rfl⟩ := List.mem_map.mp mem
        unfold GbErrors.entry
        rw [errs]
        exact reset n on
      · obtain ⟨j, rfl⟩ := Nat.exists_eq_succ_of_ne_zero (some (by rw [← length]; exact nofun))
        rw [loaded, ring, List.nil_append, size]
        rfl
  · refine ⟨old, length, empty, fun new size => ?_⟩
    have inside : (savedBy events).length ≤ (old ++ savedBy events).length := by simp
    rw [content, ← List.drop_append_of_le_length inside, List.drop_drop, List.append_assoc,
      List.length_append, size]

theorem errors_eq {errs errs' : GbErrors} (mem : errs.mem = errs'.mem)
    (ring : errs.ring = errs'.ring) : errs = errs' := by
  cases errs
  cases errs'
  cases mem
  cases ring
  rfl

/-- A flush appends the packets saved, the newest that the ring holds, and changes nothing when
there are none. -/
theorem ErrorInv.flush (inv : ErrorInv r events s) :
    ∃ store errs', gbDataFlushError s.store s.errs = some (store, errs') ∧
      Appends s.store store (((savedBy events).rtake (ringSize inf)).map delayedReport) ∧
      errs'.ring.Perm s.errs.ring ∧ (savedBy events = [] → errs' = s.errs) ∧
      ((∀ n ∈ errs'.ring, (errs'.mem n).data = []) ↔
        ringSize inf = 0 ∨ (r.errs.mem firstNode).data = [] ∨ ¬ Stale events) := by
  obtain ⟨e, f, ring, ends, newest, empty⟩ := inv.parts
  have holds : ∀ n ∈ f, (s.errs.mem n).data ≠ [] := by
    intro n mem
    have saved : s.errs.entry n ∈ (savedBy events).rtake (ringSize inf) := by
      rw [← newest]
      exact List.mem_map_of_mem mem
    exact inv.filled (s.errs.entry n) (List.mem_of_mem_drop saved)
  obtain ⟨store, errs', flushed, appends, ring', mem'⟩ :=
    dataFlushError_spec ring ends holds inv.ready
  rw [newest] at appends
  refine ⟨store, errs', flushed, appends, ?_, fun nothing => ?_, ?_⟩
  · rw [ring', ring]
    exact List.perm_append_comm
  · obtain rfl : f = [] := by
      rw [nothing, List.rtake_nil, List.map_eq_nil_iff] at newest
      exact newest
    refine errors_eq (funext fun n => by rw [mem' n, if_neg List.not_mem_nil]) ?_
    rw [ring', ring, List.append_nil]
    rfl
  · rw [← empty, ring', List.forall_mem_append]
    have apart : ∀ n ∈ e, n ∉ f := by
      have once := s.errs.nodup
      rw [ring] at once
      exact fun n here there => (List.nodup_append.mp once).2.2 n here n there rfl
    have taken : ∀ n ∈ f, (errs'.mem n).data = [] := by
      intro n mem
      rw [mem' n, if_pos mem]
    rw [and_iff_right taken]
    refine forall₂_congr fun n mem => ?_
    rw [mem' n, if_neg (apart n mem)]

/-- No call fails, and the invariant goes on. -/
theorem errorInv_step (inv : ErrorInv r events s) (e : GbErrorEvent inf) :
    ∃ t, gbErrorStep s e = some t ∧ ErrorInv r (events ++ [e]) t := by
  cases e with
  | save packets =>
    have groups : packets.data.length ≤ s.errs.content.length := by
      rw [inv.length, packets.length, ringSize]
      omega
    obtain ⟨errs', saved, content⟩ := saveErrorFrom_content 0 packets.data groups
    have some : ringSize inf ≠ 0 → packets.data.length ≠ 0 := by
      rw [packets.length, ringSize]
      omega
    obtain ⟨old, length, empty, all⟩ := inv.content some (inv.length ▸ groups)
    refine ⟨{ s with errs := errs' }, step_save saved, inv.ready, ?_,
      .inr ⟨by simp [GbErrorEvent.resets], old, length, empty, ?_⟩⟩
    · rw [savedBy_concat]
      intro p mem
      rcases List.mem_append.mp mem with old | new
      · exact inv.filled p old
      · exact packets.filled p.1 (List.fst_mem_of_mem_zipIdx new)
    · rw [savedBy_concat]
      exact content.trans (all _ List.length_zipIdx)
  | flush =>
    obtain ⟨store, errs', flushed, appends, perm, same, empty⟩ := inv.flush
    refine ⟨⟨store, errs'⟩, step_flush flushed, appends.ready inv.ready, by simp [savedSince], ?_⟩
    rcases inv.ring with ⟨stale, nothing, errs⟩ | ⟨reset, -⟩
    · exact .inl ⟨by simp [stale, GbErrorEvent.resets], by simp [savedSince],
        (same nothing).trans errs⟩
    · refine .inr ⟨by simp [reset], errs'.content, ?_, fun p mem => ?_, by simp [savedSince]⟩
      · have size := inv.length
        unfold GbErrors.content at size ⊢
        rw [List.length_map] at size ⊢
        exact perm.length_eq.trans size
      · obtain ⟨n, on, rfl⟩ := List.mem_map.mp mem
        exact empty.mpr (.inr (.inr reset)) n on
  | clear =>
    obtain ⟨length, empty⟩ := content_clear s.errs
    refine ⟨{ s with errs := gbDataClearError s.errs }, rfl, inv.ready, by simp [savedSince],
      .inr ⟨by simp [GbErrorEvent.resets], (gbDataClearError s.errs).content, ?_, empty,
        by simp [savedSince]⟩⟩
    rw [length, inv.length]
  | others store ready =>
    refine ⟨{ s with store }, rfl, ready, by simpa [savedSince] using inv.filled, ?_⟩
    simpa [savedSince, GbErrorEvent.resets] using inv.ring

theorem errorInv_run (r : GbReports) (events : List (GbErrorEvent inf)) :
    ∃ s, events.foldlM gbErrorStep (r.loaded inf) = some s ∧ ErrorInv r events s := by
  induction events using List.reverseRecOn with
  | nil => exact ⟨r.loaded inf, rfl, errorInv_loaded inf r⟩
  | append_singleton events e ih =>
    obtain ⟨s, run, inv⟩ := ih
    obtain ⟨t, step, next⟩ := errorInv_step inv e
    exact ⟨t, run_append run (run_cons step rfl), next⟩

/-- The flush of a DBC. -/
def flushEvent (inf : GbInf) : GbErrorEvent inf := .flush

/-- After any calls under one DBC a flush returns, and appends the packets saved since the last
flush or clear, the newest 30 groups of them, in order and as delayed reports; it leaves nothing
that another would take. Every node of the ring is empty then if and only if the DBC has no groups,
or the first node held nothing when it was loaded, or there was a save or a clear since. -/
theorem flush_empties_iff (r : GbReports) (events : List (GbErrorEvent inf)) :
    ∃ s t, events.foldlM gbErrorStep (r.loaded inf) = some s ∧
      gbErrorStep s (flushEvent inf) = some t ∧
      Appends s.store t.store (((savedBy events).rtake (ringSize inf)).map delayedReport) ∧
      gbErrorTake t.errs = none ∧
      ((∀ n ∈ t.errs.ring, (t.errs.mem n).data = []) ↔
        groupSize inf = 0 ∨ (r.errs.mem firstNode).data = [] ∨
          ∃ e ∈ events, e.resets = true) := by
  obtain ⟨s, run, inv⟩ := errorInv_run r events
  obtain ⟨store, errs', flushed, appends, -, -, empty⟩ := inv.flush
  refine ⟨s, ⟨store, errs'⟩, run, step_flush flushed, appends, dataFlushError_ends flushed,
    empty.trans ?_⟩
  have groups : ringSize inf = 0 ↔ groupSize inf = 0 := by
    rw [ringSize, Nat.mul_eq_zero, or_iff_left (by decide), ← UInt32.toNat_inj]
    rfl
  have reset : ¬ Stale events ↔ ∃ e ∈ events, e.resets = true := by
    simp [Stale]
  rw [groups, reset]

/-! ### A ring that is not empty -/

/-- A vehicle with one cell. -/
def oneCell : GbInf := ⟨gbVehitypeElect, cellsOnly ⟨1, by decide⟩⟩

def onePacket : GbPackets oneCell where
  data := [(gbDataSaveAll oneCell bareSample ⟨0, 0⟩).1]
  length := by decide
  filled := by
    intro d mem
    rw [List.mem_singleton.mp mem]
    decide

/-- No DBC was loaded, and the memory is zero. -/
def freshReports : GbReports where
  store := ⟨fun _ => [], fun _ => ⟨[], 0, 0, .free⟩, false⟩
  errs := ⟨fun _ => ⟨[], 0, 0, .free⟩, [], List.nodup_nil⟩

/-- A DBC is loaded, a packet is saved, the DBC is loaded again and the ring is flushed: its first
node still holds the packet. -/
theorem flush_keeps_first : ∃ s t,
    gbErrorStep (freshReports.loaded oneCell) (.save onePacket) = some s ∧
    gbErrorStep (s.loaded oneCell) (flushEvent oneCell) = some t ∧
    firstNode ∈ t.errs.ring ∧ (t.errs.mem firstNode).data ≠ [] := by
  have groups : ringSize oneCell ≠ 0 := by decide
  rcases content_init freshReports.errs oneCell with ⟨zero, -⟩ | ⟨ns, ring, -⟩
  · exact absurd zero groups
  obtain ⟨errs, one, -, mem⟩ := saveErrorOne_some ring 0 (gbDataSaveAll oneCell bareSample ⟨0, 0⟩).1
  have held : (errs.mem firstNode).data ≠ [] := by
    rw [mem, Function.update_self]
    decide
  have saved : gbDataSaveError (freshReports.loaded oneCell).errs onePacket.data = some errs := by
    change gbSaveErrorFrom _ 0 [_] = _
    unfold gbSaveErrorFrom
    exact Option.bind_eq_some_iff.mpr ⟨errs, one, rfl⟩
  have inv := errorInv_loaded oneCell { freshReports.loaded oneCell with errs }
  obtain ⟨store, errs', flushed, -, -, same, -⟩ := inv.flush
  refine ⟨_, ⟨store, errs'⟩, step_save saved, step_flush flushed, ?_⟩
  rw [same rfl]
  rcases content_init errs oneCell with ⟨zero, -⟩ | ⟨ns, ring, -, first, -⟩
  · exact absurd zero groups
  · constructor
    · change firstNode ∈ (gbErrorInit errs (groupSize oneCell).toNat).ring
      rw [ring]
      exact List.mem_cons_self
    · change ((gbErrorInit errs (groupSize oneCell).toNat).mem firstNode).data ≠ []
      rw [first]
      exact held

end Gb32960
