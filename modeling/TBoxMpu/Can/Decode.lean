import Mathlib.Data.List.Nodup
import TBoxMpu.Can.Signal
import TBoxMpu.Can.TableShape

/-!
# Frames and multiplexed signals

`dbc_can_callback` goes through the signals of a frame's message in the order of the file. A signal
with match conditions is taken from the frame if the multiplexors have the values it asks for, as
they stand in the table when the loop comes to it.

`multiplexed_iff`: in a run, every frame takes just the signals that its own bytes select if and
only if before each frame a multiplexor that the loop has not yet decoded holds a value that
decides as the frame's own does.
-/

namespace Can

/-! ### The callback -/

/-- What the program uses of `double`, and what a machine gives for a shift that is not defined.
A value that compares equal to another one compares with a third as that one does. -/
structure Doubles (F : Type) where
  ofInt : Int64 → F
  mul : F → F → F
  add : F → F → F
  lt : F → F → Bool
  ne : F → F → Bool
  undef : UInt8 → UInt8 → Int32 → Int32 → FrameData → Int64
  ne_congr : ∀ a b c, ne a b = false → ne c a = ne c b

/-- `CAN_MSG`, without its length and its second time. -/
structure CanMsg where
  uptime : UInt32
  type : UInt8
  port : UInt8
  msgID : UInt32
  data : FrameData

/-- `DBC_EVENT_TYPE`, what of it frames give to the clients. -/
inductive DbcUpdate
  | update (id : Nat) (uptime : UInt32)
  | reset (uptime : UInt32)
  deriving DecidableEq, Repr

/-- The table and the calls made to the clients. `taken` is not in the program: the places of the
signals that the last frame was decoded for. -/
structure DbcState (F : Type) where
  dbc : DbcData F
  calls : List (Client × DbcUpdate)
  taken : List Nat

variable {F : Type}

def rport (port : UInt8) : UInt32 := port.toUInt32 - 1

/-- The match conditions of a signal: the id of a multiplexor and the value it must have. -/
def DbcSig.conds (sig : DbcSig F) : List (UInt32 × F) :=
  ((sig.mi.zip sig.mv).take 4).takeWhile (·.1 ≠ 0)

def dbcMatchSig (f : Doubles F) (siglst : List (DbcSig F)) (sig : DbcSig F) : Bool :=
  sig.conds.all fun c => (siglst[c.1.toNat - 1]?).any fun m => !f.ne c.2 m.value

/-- `value` of a signal in a frame; one outside the range becomes the initial value. -/
def dbcValue (f : Doubles F) (sig : DbcSig F) (data : FrameData) : F :=
  let rawval := (dbcRawval sig.order sig.sign sig.start sig.size data).getD
    (f.undef sig.order sig.sign sig.start sig.size data)
  let value := f.add (f.mul (f.ofInt rawval) sig.factor) sig.offset
  if f.lt sig.min sig.max ∧ (f.lt value sig.min ∨ f.lt sig.max value) then sig.init else value

/-- One turn of the loop over a message's signals, for the signal at place `k`. -/
def dbcDecodeSig (f : Doubles F) (clients : List Client) (canmsg : CanMsg) (s : DbcState F)
    (k : Nat) : DbcState F :=
  match s.dbc.siglst[k]? with
  | none => s
  | some sig =>
    if sig.port ≠ rport canmsg.port ∨ dbcMatchSig f s.dbc.siglst sig = false then s
    else
      let value := dbcValue f sig canmsg.data
      let s := { s with taken := s.taken ++ [k] }
      if f.ne value sig.value then
        { s with
          dbc := { s.dbc with
            siglst := s.dbc.siglst.set k { sig with lastv := sig.value, value } }
          calls := s.calls ++
            (clients.take dbcMaxCallback).map (·, .update (k + 1) canmsg.uptime) }
      else s

/-- The signals of the message that a frame belongs to. -/
def dbcFrameSigs (dbc : DbcData F) (canmsg : CanMsg) : List Nat :=
  if canmsg.type ≠ 0x43 then []  -- 'C'
  else ((dbcFindMsg dbc canmsg.msgID).bind fun m => dbc.msglst[m]?).elim [] DbcMsg.siglst

/-- One frame of `CAN_EVENT_DATAIN`. -/
def dbcDecode (f : Doubles F) (clients : List Client) (s : DbcState F) (canmsg : CanMsg) :
    DbcState F :=
  (dbcFrameSigs s.dbc canmsg).foldl (dbcDecodeSig f clients canmsg) { s with taken := [] }

/-- `CAN_EVENT_TYPE`, with its parameters. -/
inductive CanEvent
  | datain (msgs : List CanMsg)
  | timeout (uptime : UInt32)
  | active
  | sleep
  | wakeup

/-- `dbc_can_callback`, with a table loaded. -/
def dbcCanCallback (f : Doubles F) (clients : List Client) (s : DbcState F) :
    CanEvent → DbcState F
  | .datain msgs => msgs.foldl (dbcDecode f clients) s
  | .timeout uptime => reset uptime
  | .sleep => reset 0
  | .active => s
  | .wakeup => s
where
  reset (uptime : UInt32) : DbcState F :=
    { s with
      dbc := dbcResetSignal s.dbc
      calls := s.calls ++ (clients.take dbcMaxCallback).map (·, .reset uptime) }

/-! ### What a frame selects -/

/-- The frame's own bytes give the multiplexor the value that the condition asks for. -/
def carried (f : Doubles F) (siglst : List (DbcSig F)) (data : FrameData) (c : UInt32 × F) :
    Bool :=
  (siglst[c.1.toNat - 1]?).any fun m => !f.ne c.2 (dbcValue f m data)

/-- The frame's own bytes meet all conditions of the signal. -/
def selected (f : Doubles F) (siglst : List (DbcSig F)) (data : FrameData) (sig : DbcSig F) :
    Bool :=
  sig.conds.all (carried f siglst data)

/-- Of the signals on its port, the frame takes those that it selects. -/
def FrameRight (f : Doubles F) (clients : List Client) (s : DbcState F) (canmsg : CanMsg) :
    Prop :=
  ∀ k ∈ dbcFrameSigs s.dbc canmsg, ∀ sig, s.dbc.siglst[k]? = some sig →
    sig.port = rport canmsg.port →
    (k ∈ (dbcDecode f clients s canmsg).taken ↔
      selected f s.dbc.siglst canmsg.data sig = true)

/-- A condition with the frame's value for a multiplexor that is listed in `before`, is on the port
and is selected by the frame, and with the value in the table for another one. -/
def seen (f : Doubles F) (siglst : List (DbcSig F)) (canmsg : CanMsg) (before : List Nat)
    (c : UInt32 × F) : Bool :=
  (siglst[c.1.toNat - 1]?).any fun m =>
    !f.ne c.2 (if c.1.toNat - 1 ∈ before ∧ m.port = rport canmsg.port ∧
      selected f siglst canmsg.data m = true then dbcValue f m canmsg.data else m.value)

/-- At the signal at place `k`, behind those in `before`, the values there decide as the frame's
own do. -/
def SeesAt (f : Doubles F) (siglst : List (DbcSig F)) (canmsg : CanMsg) (before : List Nat)
    (k : Nat) : Prop :=
  ∀ sig, siglst[k]? = some sig → sig.port = rport canmsg.port →
    sig.conds.all (seen f siglst canmsg before) = selected f siglst canmsg.data sig

def Sees (f : Doubles F) (siglst : List (DbcSig F)) (canmsg : CanMsg) :
    List Nat → List Nat → Prop
  | _, [] => True
  | before, k :: rest =>
    SeesAt f siglst canmsg before k ∧ Sees f siglst canmsg (before ++ [k]) rest

/-- For each signal of the frame's message, the values in the table before the frame and the
frame's values of the multiplexors listed before it decide as the frame's own values do. -/
def FrameSees (f : Doubles F) (s : DbcState F) (canmsg : CanMsg) : Prop :=
  Sees f s.dbc.siglst canmsg [] (dbcFrameSigs s.dbc canmsg)

/-! ### One frame -/

variable {f : Doubles F} {clients : List Client} {canmsg : CanMsg} {start s : DbcState F}
  {pre : List Nat} {k : Nat}

/-- Where the loop is, of a frame that found the table of `start`, when it is behind the signals in
`pre`. The value of a signal that was taken compares as the frame's own one; the others are as they
were. -/
structure Passed (f : Doubles F) (canmsg : CanMsg) (start : DbcState F) (pre : List Nat)
    (s : DbcState F) : Prop where
  msglst : s.dbc.msglst = start.dbc.msglst
  length : s.dbc.siglst.length = start.dbc.siglst.length
  listed : ∀ k ∈ s.taken, k ∈ pre
  left : ∀ k, k ∉ s.taken → s.dbc.siglst[k]? = start.dbc.siglst[k]?
  taken : ∀ k ∈ s.taken, ∃ sig lastv value, start.dbc.siglst[k]? = some sig ∧
    sig.port = rport canmsg.port ∧ s.dbc.siglst[k]? = some { sig with lastv, value } ∧
    ∀ a, f.ne a value = f.ne a (dbcValue f sig canmsg.data)

theorem passed_start : Passed f canmsg start [] { start with taken := [] } :=
  ⟨rfl, rfl, nofun, fun _ _ => rfl, nofun⟩

/-- A condition with the frame's value for a multiplexor in `taken`, and with the value in the table
for another one. -/
def met (f : Doubles F) (siglst : List (DbcSig F)) (data : FrameData) (taken : List Nat)
    (c : UInt32 × F) : Bool :=
  (siglst[c.1.toNat - 1]?).any fun m =>
    !f.ne c.2 (if c.1.toNat - 1 ∈ taken then dbcValue f m data else m.value)

theorem Passed.match_eq (passed : Passed f canmsg start pre s) (sig : DbcSig F) :
    dbcMatchSig f s.dbc.siglst sig =
      sig.conds.all (met f start.dbc.siglst canmsg.data s.taken) := by
  unfold dbcMatchSig
  congr 1
  funext c
  unfold met
  by_cases mem : c.1.toNat - 1 ∈ s.taken
  · obtain ⟨m, lastv, value, was, -, now, compares⟩ := passed.taken _ mem
    rw [now, was, Option.any_some, Option.any_some, if_pos mem, compares]
  · rw [passed.left _ mem]
    simp only [if_neg mem]

/-- A signal that is decoded keeps its definition; the value it then has compares as the frame's. -/
theorem dbcDecodeSig_taken {sig : DbcSig F} (clients : List Client)
    (found : s.dbc.siglst[k]? = some sig) (port : sig.port = rport canmsg.port)
    (ok : dbcMatchSig f s.dbc.siglst sig = true) :
    (dbcDecodeSig f clients canmsg s k).taken = s.taken ++ [k] ∧
      ∃ lastv value, (dbcDecodeSig f clients canmsg s k).dbc =
          { s.dbc with siglst := s.dbc.siglst.set k { sig with lastv, value } } ∧
        ∀ a, f.ne a value = f.ne a (dbcValue f sig canmsg.data) := by
  have decoded : ¬ (sig.port ≠ rport canmsg.port ∨ dbcMatchSig f s.dbc.siglst sig = false) := by
    rw [ok]
    exact not_or.mpr ⟨not_not.mpr port, nofun⟩
  unfold dbcDecodeSig
  rw [found]
  dsimp only
  rw [if_neg decoded]
  by_cases differs : f.ne (dbcValue f sig canmsg.data) sig.value = true
  · rw [if_pos differs]
    exact ⟨rfl, sig.value, _, rfl, fun _ => rfl⟩
  -- the old value stays; it is equal to the new one
  · rw [if_neg differs]
    refine ⟨rfl, sig.lastv, sig.value, ?_, fun a => ?_⟩
    · obtain ⟨inside, is⟩ := List.getElem?_eq_some_iff.mp found
      have same : s.dbc.siglst.set k sig = s.dbc.siglst := by
        rw [← is, List.set_getElem_self]
      dsimp only
      rw [same]
    · exact (f.ne_congr _ _ a (Bool.eq_false_iff.mpr differs)).symm

theorem dbcDecodeSig_skipped (clients : List Client)
    (skipped : ∀ sig, s.dbc.siglst[k]? = some sig →
      sig.port ≠ rport canmsg.port ∨ dbcMatchSig f s.dbc.siglst sig = false) :
    dbcDecodeSig f clients canmsg s k = s := by
  unfold dbcDecodeSig
  cases found : s.dbc.siglst[k]? with
  | none => rfl
  | some sig => exact if_pos (skipped sig found)

/-- The signal at place `k` is on the port and its conditions are met. -/
def Takes (f : Doubles F) (siglst : List (DbcSig F)) (canmsg : CanMsg) (taken : List Nat)
    (k : Nat) : Prop :=
  ∃ sig, siglst[k]? = some sig ∧ sig.port = rport canmsg.port ∧
    sig.conds.all (met f siglst canmsg.data taken) = true

/-- One turn of the loop takes its own signal or leaves everything as it is. -/
theorem Passed.next (passed : Passed f canmsg start pre s) (clients : List Client)
    (fresh : k ∉ pre) :
    Passed f canmsg start (pre ++ [k]) (dbcDecodeSig f clients canmsg s k) ∧
      ∀ j, j ∈ (dbcDecodeSig f clients canmsg s k).taken ↔
        j ∈ s.taken ∨ (j = k ∧ Takes f start.dbc.siglst canmsg s.taken k) := by
  have listed : ∀ j ∈ s.taken, j ∈ pre ++ [k] := fun j mem =>
    List.mem_append_left _ (passed.listed j mem)
  have left : s.dbc.siglst[k]? = start.dbc.siglst[k]? :=
    passed.left k fun mem => fresh (passed.listed k mem)
  by_cases takes : Takes f start.dbc.siglst canmsg s.taken k
  · obtain ⟨sig, was, port, all⟩ := takes
    have found := left.trans was
    obtain ⟨inside, -⟩ := List.getElem?_eq_some_iff.mp found
    obtain ⟨taken, lastv, value, table, compares⟩ :=
      dbcDecodeSig_taken clients found port ((passed.match_eq sig).trans all)
    have members : ∀ j, j ∈ s.taken ++ [k] ↔ j ∈ s.taken ∨ j = k := fun j => by
      rw [List.mem_append, List.mem_singleton]
    constructor
    · constructor
      · rw [table]
        exact passed.msglst
      · rw [table]
        exact List.length_set.trans passed.length
      · intro j mem
        rw [taken, members] at mem
        rcases mem with mem | rfl
        · exact listed j mem
        · exact List.mem_append_right _ (List.mem_singleton_self j)
      · intro j out
        rw [taken, members, not_or] at out
        rw [table, List.getElem?_set_ne (Ne.symm out.2)]
        exact passed.left j out.1
      · intro j mem
        rw [taken, members] at mem
        rw [table]
        dsimp only
        by_cases here : j = k
        · subst here
          exact ⟨sig, lastv, value, was, port, List.getElem?_set_self inside, compares⟩
        · rw [List.getElem?_set_ne (Ne.symm here)]
          exact passed.taken j (mem.resolve_right here)
    · intro j
      rw [taken, members]
      exact or_congr_right (and_iff_left ⟨sig, was, port, all⟩).symm
  · -- the signal is another port's, or one of its conditions is not met
    have same : dbcDecodeSig f clients canmsg s k = s := by
      refine dbcDecodeSig_skipped clients fun sig found => ?_
      rw [passed.match_eq sig]
      by_contra both
      obtain ⟨port, met⟩ := not_or.mp both
      exact takes ⟨sig, left.symm.trans found, not_not.mp port, Bool.not_eq_false _ ▸ met⟩
    rw [same]
    refine ⟨{ passed with listed }, fun j => ?_⟩
    exact (or_iff_left fun both => takes both.2).symm

/-! ### The frame's signals -/

/-- Of the signals in `pre` on the port, those in `taken` are the ones that the frame selects. -/
def Right (f : Doubles F) (siglst : List (DbcSig F)) (canmsg : CanMsg) (pre taken : List Nat) :
    Prop :=
  ∀ k ∈ pre, ∀ sig, siglst[k]? = some sig → sig.port = rport canmsg.port →
    (k ∈ taken ↔ selected f siglst canmsg.data sig = true)

/-- Where the right signals were taken, the values the loop meets are the ones that `SeesAt` is
about. -/
theorem Passed.met_eq_seen (passed : Passed f canmsg start pre s)
    (right : Right f start.dbc.siglst canmsg pre s.taken) :
    met f start.dbc.siglst canmsg.data s.taken = seen f start.dbc.siglst canmsg pre := by
  funext c
  unfold met seen
  cases found : start.dbc.siglst[c.1.toNat - 1]? with
  | none => rfl
  | some m =>
    have same : c.1.toNat - 1 ∈ s.taken ↔ c.1.toNat - 1 ∈ pre ∧ m.port = rport canmsg.port ∧
        selected f start.dbc.siglst canmsg.data m = true := by
      constructor
      · intro mem
        obtain ⟨sig, -, -, was, port, -⟩ := passed.taken _ mem
        cases found.symm.trans was
        have listed := passed.listed _ mem
        exact ⟨listed, port, (right _ listed m found port).mp mem⟩
      · rintro ⟨listed, port, selects⟩
        exact (right _ listed m found port).mpr selects
    simp only [Option.any_some, same]

/-- One turn keeps the right signals taken exactly if the loop sees what the frame carries. -/
theorem Passed.right_next (passed : Passed f canmsg start pre s) (clients : List Client)
    (fresh : k ∉ pre) :
    Right f start.dbc.siglst canmsg (pre ++ [k]) (dbcDecodeSig f clients canmsg s k).taken ↔
      Right f start.dbc.siglst canmsg pre s.taken ∧ SeesAt f start.dbc.siglst canmsg pre k := by
  obtain ⟨-, members⟩ := passed.next clients fresh
  have before : ∀ j ∈ pre, (j ∈ (dbcDecodeSig f clients canmsg s k).taken ↔ j ∈ s.taken) := by
    intro j mem
    rw [members j]
    exact or_iff_left fun both => fresh (both.1 ▸ mem)
  have here : k ∈ (dbcDecodeSig f clients canmsg s k).taken ↔
      Takes f start.dbc.siglst canmsg s.taken k := by
    rw [members k]
    exact (or_iff_right fun mem => fresh (passed.listed k mem)).trans (and_iff_right rfl)
  have split : Right f start.dbc.siglst canmsg (pre ++ [k])
      (dbcDecodeSig f clients canmsg s k).taken ↔
      Right f start.dbc.siglst canmsg pre s.taken ∧ ∀ sig, start.dbc.siglst[k]? = some sig →
        sig.port = rport canmsg.port → (Takes f start.dbc.siglst canmsg s.taken k ↔
          selected f start.dbc.siglst canmsg.data sig = true) := by
    unfold Right
    rw [List.forall_mem_append, List.forall_mem_singleton, here]
    refine and_congr_left' (forall₂_congr fun j mem => ?_)
    rw [before j mem]
  rw [split]
  refine and_congr_right fun right => forall₃_congr fun sig found port => ?_
  have takes : Takes f start.dbc.siglst canmsg s.taken k ↔
      sig.conds.all (seen f start.dbc.siglst canmsg pre) = true := by
    rw [← passed.met_eq_seen right]
    refine ⟨?_, fun all => ⟨sig, found, port, all⟩⟩
    rintro ⟨sig', was, -, all⟩
    cases found.symm.trans was
    exact all
  rw [takes]
  exact Bool.eq_iff_iff.symm

theorem Passed.right_rest (passed : Passed f canmsg start pre s) (clients : List Client)
    (rest : List Nat) (once : (pre ++ rest).Nodup) :
    Right f start.dbc.siglst canmsg (pre ++ rest)
        (rest.foldl (dbcDecodeSig f clients canmsg) s).taken ↔
      Right f start.dbc.siglst canmsg pre s.taken ∧
        Sees f start.dbc.siglst canmsg pre rest := by
  induction rest generalizing pre s with
  | nil =>
    rw [List.append_nil]
    exact (and_iff_left trivial).symm
  | cons k rest ih =>
    have fresh : k ∉ pre := fun mem =>
      List.disjoint_of_nodup_append once mem List.mem_cons_self
    obtain ⟨passed', -⟩ := passed.next clients fresh
    rw [List.append_cons] at once ⊢
    rw [List.foldl_cons, ih passed' once, passed.right_next clients fresh, and_assoc]
    rfl

theorem frameRight_iff (clients : List Client) (once : (dbcFrameSigs s.dbc canmsg).Nodup) :
    FrameRight f clients s canmsg ↔ FrameSees f s canmsg :=
  (passed_start.right_rest clients (dbcFrameSigs s.dbc canmsg) once).trans
    (and_iff_right (fun _ mem => nomatch mem))

theorem Passed.rest (passed : Passed f canmsg start pre s) (clients : List Client)
    (rest : List Nat) (once : (pre ++ rest).Nodup) :
    Passed f canmsg start (pre ++ rest) (rest.foldl (dbcDecodeSig f clients canmsg) s) := by
  induction rest generalizing pre s with
  | nil => rwa [List.append_nil]
  | cons k rest ih =>
    have fresh : k ∉ pre := fun mem =>
      List.disjoint_of_nodup_append once mem List.mem_cons_self
    rw [List.append_cons] at once ⊢
    exact ih (passed.next clients fresh).1 once

/-- What a frame does to the table: a signal that is taken has a value that compares as the one the
frame gives it; every other signal stays. -/
theorem dbcDecode_passed (clients : List Client) (once : (dbcFrameSigs s.dbc canmsg).Nodup) :
    Passed f canmsg s (dbcFrameSigs s.dbc canmsg) (dbcDecode f clients s canmsg) :=
  passed_start.rest clients _ once

/-! ### Runs -/

/-- Nothing but values, calls and what was taken last is different. -/
structure SameDefs (s t : DbcState F) : Prop where
  msglst : t.dbc.msglst = s.dbc.msglst
  siglst : t.dbc.siglst.map (fun sig => (sig.port, sig.conds)) =
    s.dbc.siglst.map fun sig => (sig.port, sig.conds)

variable {t u : DbcState F}

theorem SameDefs.refl (s : DbcState F) : SameDefs s s := ⟨rfl, rfl⟩

theorem SameDefs.trans (first : SameDefs s t) (second : SameDefs t u) : SameDefs s u :=
  ⟨second.msglst.trans first.msglst, second.siglst.trans first.siglst⟩

theorem SameDefs.foldl {A : Type} {step : DbcState F → A → DbcState F}
    (kept : ∀ s a, SameDefs s (step s a)) (labels : List A) (s : DbcState F) :
    SameDefs s (labels.foldl step s) :=
  List.foldlRecOn labels step (SameDefs.refl s) fun t same a _ => same.trans (kept t a)

/-- A signal is where it was, with the same port and conditions. -/
theorem SameDefs.sig (same : SameDefs s t) {sig : DbcSig F} (found : t.dbc.siglst[k]? = some sig) :
    ∃ old, s.dbc.siglst[k]? = some old ∧ old.port = sig.port ∧ old.conds = sig.conds := by
  have entry : (s.dbc.siglst.map fun sig => (sig.port, sig.conds))[k]? =
      some (sig.port, sig.conds) := by
    rw [← same.siglst, List.getElem?_map, found]
    rfl
  rw [List.getElem?_map, Option.map_eq_some_iff] at entry
  obtain ⟨old, was, defs⟩ := entry
  exact ⟨old, was, congrArg Prod.fst defs, congrArg Prod.snd defs⟩

theorem sameDefs_sig (clients : List Client) (canmsg : CanMsg) (s : DbcState F) (k : Nat) :
    SameDefs s (dbcDecodeSig f clients canmsg s k) := by
  by_cases skipped : ∀ sig, s.dbc.siglst[k]? = some sig →
      sig.port ≠ rport canmsg.port ∨ dbcMatchSig f s.dbc.siglst sig = false
  · rw [dbcDecodeSig_skipped clients skipped]
    exact SameDefs.refl s
  · obtain ⟨sig, rest⟩ := not_forall.mp skipped
    obtain ⟨found, both⟩ := Classical.not_imp.mp rest
    obtain ⟨port, match_⟩ := not_or.mp both
    obtain ⟨-, lastv, value, table, -⟩ :=
      dbcDecodeSig_taken clients found (not_not.mp port) (Bool.not_eq_false _ ▸ match_)
    obtain ⟨inside, is⟩ := List.getElem?_eq_some_iff.mp found
    refine ⟨by rw [table], ?_⟩
    rw [table, List.map_set]
    have within : k < (s.dbc.siglst.map fun sig => (sig.port, sig.conds)).length := by
      rwa [List.length_map]
    have entry : (sig.port, sig.conds) =
        (s.dbc.siglst.map fun sig => (sig.port, sig.conds))[k] := by
      rw [List.getElem_map, is]
    exact (congrArg (List.set _ k) entry).trans (List.set_getElem_self _)

theorem sameDefs_frame (clients : List Client) (s : DbcState F) (canmsg : CanMsg) :
    SameDefs s (dbcDecode f clients s canmsg) :=
  (⟨rfl, rfl⟩ : SameDefs s { s with taken := [] }).trans
    (.foldl (sameDefs_sig clients canmsg) _ _)

theorem sameDefs_callback (clients : List Client) (s : DbcState F) (evt : CanEvent) :
    SameDefs s (dbcCanCallback f clients s evt) := by
  have reset : ∀ uptime, SameDefs s (dbcCanCallback.reset clients s uptime) := fun uptime =>
    ⟨rfl, List.map_map⟩
  cases evt with
  | datain msgs => exact .foldl (sameDefs_frame clients) msgs s
  | timeout uptime => exact reset uptime
  | active => exact .refl s
  | sleep => exact reset 0
  | wakeup => exact .refl s

/-- Each message has a signal once in its list. -/
def DbcData.Once (dbc : DbcData F) : Prop := ∀ msg ∈ dbc.msglst, msg.siglst.Nodup

/-- The list of a frame's message is one of the table's, or empty. -/
theorem frameSigs_cases (dbc : DbcData F) (canmsg : CanMsg) :
    dbcFrameSigs dbc canmsg = [] ∨ ∃ msg ∈ dbc.msglst, dbcFrameSigs dbc canmsg = msg.siglst := by
  unfold dbcFrameSigs
  split
  · exact .inl rfl
  · cases found : (dbcFindMsg dbc canmsg.msgID).bind fun m => dbc.msglst[m]? with
    | none => exact .inl rfl
    | some msg =>
      obtain ⟨m, -, at_⟩ := Option.bind_eq_some_iff.mp found
      exact .inr ⟨msg, List.mem_of_getElem? at_, rfl⟩

theorem DbcData.Once.frame {dbc : DbcData F} (once : dbc.Once) (canmsg : CanMsg) :
    (dbcFrameSigs dbc canmsg).Nodup := by
  obtain none | ⟨msg, mem, is⟩ := frameSigs_cases dbc canmsg
  · rw [none]
    exact List.nodup_nil
  · rw [is]
    exact once msg mem

/-- Of the run of `evts` from `s`, `t` is the state before the frame. -/
def BeforeFrame (f : Doubles F) (clients : List Client) (s : DbcState F) (evts : List CanEvent)
    (t : DbcState F) (canmsg : CanMsg) : Prop :=
  ∃ pre msgs later, pre ++ [.datain (msgs ++ canmsg :: later)] <+: evts ∧
    t = msgs.foldl (dbcDecode f clients) (pre.foldl (dbcCanCallback f clients) s)

theorem BeforeFrame.same {evts : List CanEvent}
    (before : BeforeFrame f clients s evts t canmsg) : SameDefs s t := by
  obtain ⟨pre, msgs, later, -, rfl⟩ := before
  exact (SameDefs.foldl (sameDefs_callback clients) pre s).trans
    (.foldl (sameDefs_frame clients) msgs _)

theorem BeforeFrame.once {evts : List CanEvent}
    (before : BeforeFrame f clients s evts t canmsg) (once : s.dbc.Once) : t.dbc.Once := by
  unfold DbcData.Once
  rw [before.same.msglst]
  exact once

/-! ### Loaded tables -/

variable {scan : Scan F} {answers : Answers} {l : Loading F}

/-- A message's list holds places in the table, each of them once. -/
def DbcMsg.Once (n : Nat) (msg : DbcMsg) : Prop :=
  msg.siglst.Nodup ∧ ∀ k ∈ msg.siglst, k < n

def Loading.Once (l : Loading F) : Prop :=
  ∀ msg ∈ l.dbc.msglst, msg.Once l.dbc.siglst.length

theorem forall_mem_modify {α : Type} {P Q : α → Prop} {g : α → α} {xs : List α}
    (all : ∀ x ∈ xs, P x) (i : Nat) (same : ∀ x, P x → Q x) (changed : ∀ x, P x → Q (g x)) :
    ∀ x ∈ xs.modify i g, Q x := by
  intro x mem
  obtain ⟨j, at_⟩ := List.mem_iff_getElem?.mp mem
  rw [List.getElem?_modify, Option.map_eq_map, Option.map_eq_some_iff] at at_
  obtain ⟨y, at_, rfl⟩ := at_
  split
  · exact changed y (all y (List.mem_of_getElem? at_))
  · exact same y (all y (List.mem_of_getElem? at_))

theorem DbcMsg.Once.more {n n' : Nat} {msg : DbcMsg} (once : msg.Once n) (more : n ≤ n') :
    msg.Once n' :=
  ⟨once.1, fun k mem => Nat.lt_of_lt_of_le (once.2 k mem) more⟩

theorem dbcParseMsg_once (line : Bytes) (once : l.Once) : (dbcParseMsg scan line l).2.Once := by
  unfold dbcParseMsg
  split
  · exact once
  · split
    · exact once
    · split
      -- the identifier changes, the list does not
      · refine forall_mem_modify once _ (fun _ holds => holds) fun msg holds => ?_
        split
        · exact holds
        · exact holds
      · split
        · refine List.forall_mem_append.mpr ⟨once, ?_⟩
          rw [List.forall_mem_singleton]
          exact ⟨List.nodup_nil, nofun⟩
        · exact once

theorem dbcParseSig_once (line stack : Bytes) (m : Nat) (once : l.Once) :
    (dbcParseSig scan clients answers line stack m l).2.Once := by
  have longer : ∀ (sig : DbcSig F) (msg : DbcMsg), msg.Once l.dbc.siglst.length →
      msg.Once (l.dbc.siglst ++ [sig]).length := by
    intro sig msg holds
    rw [List.length_append]
    exact holds.more (Nat.le_add_right _ _)
  unfold dbcParseSig
  split
  · exact once
  · split
    · exact once
    · dsimp only
      split
      · exact once
      · split
        · split
          · refine forall_mem_modify once m (longer _) fun msg holds => ?_
            -- the new place is behind all the others
            have fresh : l.dbc.siglst.length ∉ msg.siglst := fun mem =>
              absurd (holds.2 _ mem) (Nat.lt_irrefl _)
            refine ⟨List.nodup_append.mpr ⟨holds.1, List.nodup_singleton _, ?_⟩, ?_⟩
            · rintro a mem b new rfl
              exact fresh (List.mem_singleton.mp new ▸ mem)
            · rw [List.forall_mem_append, List.forall_mem_singleton]
              refine ⟨(longer _ msg holds).2, ?_⟩
              rw [List.length_append]
              exact Nat.lt_succ_self _
          · exact fun msg mem => longer _ msg (once msg mem)
        · exact once

theorem dbcParseDef_once (line : Bytes) (once : l.Once) :
    (dbcParseDef scan clients line l).Once := by
  unfold dbcParseDef
  split
  · exact once
  · split
    · exact once
    · split
      · split
        · intro msg mem
          rw [List.length_modify]
          exact once msg mem
        · exact once
      · exact once

theorem lineStep_once (first : Bool) (line : FileLine) (once : l.Once) :
    (lineStep scan clients answers first line l).2.Once := by
  unfold lineStep
  split
  · exact once
  · split
    · exact once
    · split
      · exact dbcParseMsg_once _ once
      · split
        · split
          · exact once
          · exact dbcParseSig_once _ _ _ once
        · split
          · exact dbcParseDef_once _ once
          · exact once

theorem lineLoop_once (first : Bool) (lines : List FileLine) (once : l.Once) :
    (lineLoop scan clients answers first lines l).2.Once := by
  induction lines generalizing first l with
  | nil => exact once
  | cons line rest ih =>
    have step : (lineStep scan clients answers first line l).2.Once := lineStep_once first line once
    unfold lineLoop
    cases turn : lineStep scan clients answers first line l with
    | mk ok l' =>
      rw [turn] at step
      cases ok with
      | false => exact step
      | true => exact ih false step

theorem dbcRead_once (file : DbcFile) (once : l.Once) :
    (dbcRead scan clients answers file l).2.dbc.Once := by
  have lines : (lineLoop scan clients answers true file.lines l).2.dbc.Once := fun msg mem =>
    (lineLoop_once true file.lines once msg mem).1
  unfold dbcRead
  dsimp only
  split
  · exact lines
  · split
    · exact lines
    · split
      · exact lines
      · split
        · exact lines
        · exact lines

/-- After a load that succeeds each message has a signal once in its list. -/
theorem loaded_table_once (defs : Gb32960.DefineScan) (file : DbcFile) (w w' : World F)
    (load : canDoChangeDbc scan defs answers file w = some (0, w')) :
    ∃ t, w'.dbcData = some t ∧ (w'.dbcMem t).Once := by
  obtain ⟨found, done⟩ := found_of_zero load
  obtain ⟨-, data, table⟩ := canDoChangeDbc_done found done load
  refine ⟨_, data, ?_⟩
  rw [table]
  unfold DbcData.Once
  rw [(sameShape_markWarnings w.gbWarnflag w.gb w'.gb _).msglst]
  exact dbcRead_once file nofun

/-! ### Multiplexors before their signals -/

/-- In the order of the list: a condition asks for a signal before this one, on the same port, that
has no condition of its own. -/
def Ordered (siglst : List (DbcSig F)) : List Nat → List Nat → Prop
  | _, [] => True
  | before, k :: rest =>
    (∀ sig, siglst[k]? = some sig → ∀ c ∈ sig.conds, c.1.toNat - 1 ∈ before ∧
      ∀ m, siglst[c.1.toNat - 1]? = some m → m.port = sig.port ∧ m.conds = []) ∧
    Ordered siglst (before ++ [k]) rest

def DbcData.Ordered (dbc : DbcData F) : Prop :=
  ∀ msg ∈ dbc.msglst, Can.Ordered dbc.siglst [] msg.siglst

theorem SameDefs.ordered_list (same : SameDefs s t) {before rest : List Nat}
    (ordered : Ordered s.dbc.siglst before rest) : Ordered t.dbc.siglst before rest := by
  induction rest generalizing before with
  | nil => trivial
  | cons k rest ih =>
    obtain ⟨here, later⟩ := ordered
    refine ⟨fun sig found c mem => ?_, ih later⟩
    obtain ⟨old, was, port, conds⟩ := same.sig found
    obtain ⟨listed, alone⟩ := here old was c (conds ▸ mem)
    refine ⟨listed, fun m found => ?_⟩
    obtain ⟨old', was', port', conds'⟩ := same.sig found
    obtain ⟨ports, free⟩ := alone old' was'
    exact ⟨port'.symm.trans (ports.trans port), conds'.symm.trans free⟩

/-- Where the multiplexors come first, the loop sees what the frame carries. -/
theorem sees_of_ordered {siglst : List (DbcSig F)} (f : Doubles F) (canmsg : CanMsg)
    {before rest : List Nat} (ordered : Ordered siglst before rest) :
    Sees f siglst canmsg before rest := by
  induction rest generalizing before with
  | nil => trivial
  | cons k rest ih =>
    obtain ⟨here, later⟩ := ordered
    refine ⟨fun sig found port => ?_, ih later⟩
    have same : ∀ c ∈ sig.conds, seen f siglst canmsg before c =
        carried f siglst canmsg.data c := by
      intro c mem
      obtain ⟨listed, alone⟩ := here sig found c mem
      unfold seen carried
      cases found : siglst[c.1.toNat - 1]? with
      | none => rfl
      | some m =>
        obtain ⟨ports, free⟩ := alone m found
        have selects : selected f siglst canmsg.data m = true := by
          unfold selected
          rw [free]
          rfl
        rw [Option.any_some, Option.any_some, if_pos ⟨listed, ports.trans port, selects⟩]
    unfold selected
    rw [Bool.eq_iff_iff, List.all_eq_true, List.all_eq_true]
    exact forall₂_congr fun c mem => by rw [same c mem]

theorem BeforeFrame.sees {evts : List CanEvent} (before : BeforeFrame f clients s evts t canmsg)
    (ordered : s.dbc.Ordered) : FrameSees f t canmsg := by
  unfold FrameSees
  obtain none | ⟨msg, mem, is⟩ := frameSigs_cases t.dbc canmsg
  · rw [none]
    trivial
  · rw [is]
    refine sees_of_ordered f canmsg (before.same.ordered_list ?_)
    exact ordered msg (before.same.msglst ▸ mem)

/-- Where the multiplexors come first in the lists, in every run each frame takes what it
selects. -/
theorem ordered_right (f : Doubles F) (clients : List Client) (s : DbcState F)
    (evts : List CanEvent) (once : s.dbc.Once) (ordered : s.dbc.Ordered) (t : DbcState F)
    (canmsg : CanMsg) (before : BeforeFrame f clients s evts t canmsg) :
    FrameRight f clients t canmsg := by
  exact (frameRight_iff clients ((before.once once).frame canmsg)).mpr (before.sees ordered)

/-! ### Runs of frames -/

/-- For every table, every state of its values and every run: each frame takes those of its
message's signals on its port that its own bytes select, if and only if before each frame the values
in the table and the frame's values of the multiplexors listed earlier decide as the frame's own
values do. -/
theorem multiplexed_iff (f : Doubles F) (clients : List Client) (s : DbcState F)
    (evts : List CanEvent) (once : s.dbc.Once) :
    (∀ t canmsg, BeforeFrame f clients s evts t canmsg → FrameRight f clients t canmsg) ↔
      ∀ t canmsg, BeforeFrame f clients s evts t canmsg → FrameSees f t canmsg :=
  forall₃_congr fun _ canmsg before =>
    frameRight_iff clients ((before.once once).frame canmsg)

/-! ### Two tables -/

/-- Whole numbers in place of doubles. -/
def wholeNumbers : Doubles Int where
  ofInt := Int64.toInt
  mul := (· * ·)
  add := (· + ·)
  lt a b := decide (a < b)
  ne a b := decide (a ≠ b)
  undef _ _ _ _ _ := 0
  ne_congr a b c equal := by
    have : a = b := by simpa using equal
    rw [this]

/-- A byte of a frame. -/
def byteSignal (name : Bytes) (start : Int32) : DbcSig Int :=
  { DbcSig.cleared (0 : Int) with
    name, start, size := 8, order := 0x31, sign := 0x2B, factor := 1, min := 0, max := 255 }

/-- Of the two signals `S_M1I1` and `X_I1` the first one stands for its byte where the multiplexor
`X` has the value 1. -/
def muxLast : DbcState Int :=
  ⟨⟨[], [⟨291, [], [0, 1]⟩],
    [{ byteSignal (text "S") 8 with mi := [2, 0, 0, 0], mv := [1, 0, 0, 0] },
      byteSignal (text "X") 0], []⟩, [], []⟩

/-- The same message with the two lines the other way around. -/
def muxFirst : DbcState Int :=
  ⟨⟨[], [⟨291, [], [0, 1]⟩],
    [byteSignal (text "X") 0,
      { byteSignal (text "S") 8 with mi := [1, 0, 0, 0], mv := [1, 0, 0, 0] }], []⟩, [], []⟩

/-- A frame of the message; its first byte is the multiplexor's. -/
def muxFrame (x value : UInt8) : CanMsg :=
  ⟨0, 0x43, 1, 291, fun i => if i.val = 0 then x else if i.val = 1 then value else 0⟩

theorem muxFirst_once : muxFirst.dbc.Once := by
  unfold DbcData.Once
  decide

theorem muxFirst_ordered : muxFirst.dbc.Ordered := by
  intro msg mem
  cases List.mem_singleton.mp mem
  refine ⟨fun sig found c mem => ?_, fun sig found c mem => ?_, trivial⟩
  · cases found
    cases mem
  · cases found
    cases List.mem_singleton.mp mem
    refine ⟨by decide, fun m found => ?_⟩
    cases found
    exact ⟨rfl, rfl⟩

/-- The frame with multiplexor value 1 is right, and so is the next one with 2. -/
theorem multiplexed_first : FrameRight wholeNumbers [] muxFirst (muxFrame 1 7) ∧
    FrameRight wholeNumbers [] (dbcDecode wholeNumbers [] muxFirst (muxFrame 1 7))
      (muxFrame 2 8) := by
  have right := (multiplexed_iff wholeNumbers [] muxFirst
    [.datain [muxFrame 1 7, muxFrame 2 8]] muxFirst_once).mpr fun _ _ before =>
      before.sees muxFirst_ordered
  exact ⟨right _ _ ⟨[], [], [muxFrame 2 8], List.prefix_rfl, rfl⟩,
    right _ _ ⟨[], [muxFrame 1 7], [], List.prefix_rfl, rfl⟩⟩

/-- A frame with multiplexor value 1 leaves the signal; the next one, with 2, changes it. -/
theorem multiplexed_stale :
    (dbcDecode wholeNumbers [] muxLast (muxFrame 1 7)).taken = [1] ∧
      ((dbcDecode wholeNumbers [] (dbcDecode wholeNumbers [] muxLast (muxFrame 1 7))
        (muxFrame 2 8)).dbc.siglst.map DbcSig.value) = [8, 2] ∧
      ¬ ∀ t canmsg, BeforeFrame wholeNumbers [] muxLast
          [.datain [muxFrame 1 7, muxFrame 2 8]] t canmsg →
        FrameRight wholeNumbers [] t canmsg := by
  refine ⟨by decide, by decide, fun all => ?_⟩
  have right := all muxLast (muxFrame 1 7) ⟨[], [], _, List.prefix_rfl, rfl⟩
  have selects : selected wholeNumbers muxLast.dbc.siglst (muxFrame 1 7).data
      (muxLast.dbc.siglst.head nofun) = true := by
    decide
  have taken := (right 0 (by decide) _ rfl (by decide)).mpr selects
  revert taken
  decide

end Can
