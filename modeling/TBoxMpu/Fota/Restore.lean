import TBoxMpu.Fota.Workload

/-!
# The ports and the UDS client after a run

`Keeps` is what almost every step does: a port whose former rate is not negative ends at
it. The exception (`Leaves`) is a step whose version match or resolving fails, which leaves
its port at the rate of the bus.
-/

namespace Fota

open Effects

variable {σ : Type}

/-! ### What is recorded of the ports -/

/-- The rate of the port was set. -/
def SetOn (port : Int) (tr : List FotaEvent) : Prop := ∃ i baud, .setBaud i port baud 0 ∈ tr

/-- The CAN thread's message queue refused no rate. -/
def Accepted (tr : List FotaEvent) : Prop := ∀ i port baud, .setBaud i port baud (-2) ∉ tr

theorem setOn_append {port : Int} {tr tr' : List FotaEvent} :
    SetOn port (tr ++ tr') ↔ SetOn port tr ∨ SetOn port tr' := by
  simp only [SetOn, List.mem_append, exists_or]

theorem accepted_append {tr tr' : List FotaEvent} :
    Accepted (tr ++ tr') ↔ Accepted tr ∧ Accepted tr' := by
  simp only [Accepted, List.mem_append, not_or, forall_and]

/-- Neither a port nor a check is in question. -/
def FotaEvent.Plain : FotaEvent → Prop
  | setBaud .. | checkFail _ => False
  | _ => True

theorem not_setOn_of_plain {tr : List FotaEvent} (plain : ∀ e ∈ tr, e.Plain) (port : Int) :
    ¬SetOn port tr :=
  fun ⟨_, _, mem⟩ => plain _ mem

/-! ### Steps that keep the rates -/

/-- The rates after the events `ext`: a rate that was negative is lost when it is set. -/
structure Rates (canBaud canBaud' : Int → Int16) (ext : List FotaEvent) : Prop where
  lost : ∀ port, canBaud port < 0 → SetOn port ext → 0 ≤ canBaud' port
  same : ∀ port, ¬(canBaud port < 0 ∧ SetOn port ext) → canBaud' port = canBaud port

theorem Rates.nonneg {r s : Int → Int16} {ext : List FotaEvent} (rates : Rates r s ext)
    {port : Int} (h : 0 ≤ r port) : s port = r port := by
  apply rates.same
  rintro ⟨neg, _⟩
  exact absurd h (Int16.not_le.mpr neg)

theorem Rates.trans {r s t : Int → Int16} {ext ext' : List FotaEvent} (first : Rates r s ext)
    (second : Rates s t ext') : Rates r t (ext ++ ext') := by
  constructor
  · intro port neg set
    -- lost in the first part, or only in the second
    by_cases here : SetOn port ext
    · have := first.lost port neg here
      rw [second.nonneg this]
      exact this
    · have same := first.same port (fun h => here h.2)
      apply second.lost port (same ▸ neg)
      exact (setOn_append.mp set).resolve_left here
  · intro port h
    -- only a negative rate can be lost at all
    by_cases neg : r port < 0
    · have none : ¬SetOn port (ext ++ ext') := fun set => h ⟨neg, set⟩
      have none := not_or.mp (fun set => none (setOn_append.mpr set))
      rw [second.same port (fun h => none.2 h.2), first.same port (fun h => none.1 h.2)]
    · have same := first.same port (fun h => neg h.1)
      rw [second.nonneg (same ▸ Int16.not_lt.mp neg), same]

theorem Rates.restored_iff {r s : Int → Int16} {ext : List FotaEvent} (rates : Rates r s ext) :
    s = r ↔ ∀ port, SetOn port ext → 0 ≤ r port := by
  constructor
  · rintro rfl port set
    apply Int16.not_lt.mp
    exact fun neg => absurd (rates.lost port neg set) (Int16.not_le.mpr neg)
  · intro h
    funext port
    apply rates.same
    exact fun ⟨neg, set⟩ => absurd (h port set) (Int16.not_le.mpr neg)

theorem Rates.of_plain (r : Int → Int16) {ext : List FotaEvent} (plain : ∀ e ∈ ext, e.Plain) :
    Rates r r ext :=
  ⟨fun port _ set => absurd set (not_setOn_of_plain plain port), fun _ _ => rfl⟩

structure Keeps (w w' : World σ) : Prop where
  trace : ∃ ext, w'.trace = w.trace ++ ext ∧ (∀ i, .checkFail i ∉ ext) ∧
    (Accepted ext → Rates w.canBaud w'.canBaud ext)
  udsOpen : w'.udsOpen = w.udsOpen

theorem Keeps.trans {u v w : World σ} (first : Keeps u v) (second : Keeps v w) : Keeps u w := by
  obtain ⟨ext, trace, checks, rates⟩ := first.trace
  obtain ⟨ext', trace', checks', rates'⟩ := second.trace
  refine ⟨⟨ext ++ ext', by rw [trace', trace, List.append_assoc], ?_, ?_⟩,
    second.udsOpen.trans first.udsOpen⟩
  · intro i mem
    exact (List.mem_append.mp mem).elim (checks i) (checks' i)
  · intro accepted
    obtain ⟨here, there⟩ := accepted_append.mp accepted
    exact (rates here).trans (rates' there)

/-- A step that records plain events and leaves the ports and the UDS client alone. -/
theorem Keeps.of_plain {w w' : World σ} (ext : List FotaEvent) (trace : w'.trace = w.trace ++ ext)
    (plain : ∀ e ∈ ext, e.Plain) (canBaud : w'.canBaud = w.canBaud)
    (udsOpen : w'.udsOpen = w.udsOpen) : Keeps w w' :=
  ⟨⟨ext, trace, fun _ mem => plain _ mem, fun _ => canBaud ▸ Rates.of_plain _ plain⟩, udsOpen⟩

theorem Keeps.of_quiet {w w' : World σ} (quiet : Quiet w w') : Keeps w w' :=
  .of_plain [] (by simp [quiet.trace]) (by simp) quiet.canBaud quiet.udsOpen

theorem plain_of {i : Nat} {vers : FotaVer → Prop} {e : FotaEvent} (of : e.Of i vers) :
    e.Plain := by
  cases e <;> trivial

/-! ### Setting a rate and setting it back -/

def withRate (r : Int → Int16) (port : Int) (baud : Int16) : Int → Int16 :=
  fun p => if p = port then baud else r p

/-- What `can_set_baud` records and makes of the rates. -/
inductive SetTo (i : Nat) (port : Int) (baud : Int16) (r : Int → Int16) :
    List FotaEvent → (Int → Int16) → Prop
  | invalid (out : port < 0 ∨ port ≥ canMaxPort ∨ baud < 0) :
      SetTo i port baud r [.setBaud i port baud (-1)] r
  | refused : SetTo i port baud r [.setBaud i port baud (-2)] r
  | set (inside : ¬(port < 0 ∨ port ≥ canMaxPort ∨ baud < 0)) :
      SetTo i port baud r [.setBaud i port baud 0] (withRate r port baud)

/-- The port of the bus has its rate, by itself or because it was set. -/
inductive Entered (i : Nat) (bus : BusInf) (w : World σ) :
    List FotaEvent → (Int → Int16) → Prop
  | already (same : (w.baud (bus.port - 1)).toInt = bus.baud) : Entered i bus w [] w.canBaud
  | set (inside : ¬(bus.port - 1 < 0 ∨ bus.port - 1 ≥ canMaxPort ∨ Int16.ofInt bus.baud < 0)) :
      Entered i bus w [.setBaud i (bus.port - 1) (.ofInt bus.baud) 0]
        (withRate w.canBaud (bus.port - 1) (.ofInt bus.baud))

theorem setOn_singleton {i : Nat} {port p : Int} {baud : Int16} {res : Int} :
    SetOn p [.setBaud i port baud res] ↔ p = port ∧ res = 0 := by
  constructor
  · rintro ⟨j, b, mem⟩
    cases List.mem_singleton.mp mem
    exact ⟨rfl, rfl⟩
  · rintro ⟨rfl, rfl⟩
    exact ⟨i, baud, by simp⟩

theorem not_setOn_nil (port : Int) : ¬SetOn port [] :=
  fun ⟨_, _, mem⟩ => nomatch mem

theorem World.baud_inside {w : World σ} {port : Int} {baud : Int16}
    (inside : ¬(port < 0 ∨ port ≥ canMaxPort ∨ baud < 0)) : w.baud port = w.canBaud port := by
  unfold World.baud
  rw [if_neg fun out => inside (out.imp_right .inl)]

theorem Entered.setOn {i : Nat} {bus : BusInf} {w : World σ} {ext : List FotaEvent}
    {r : Int → Int16} (entered : Entered i bus w ext r) {port : Int} (set : SetOn port ext) :
    port = bus.port - 1 := by
  cases entered with
  | already => exact absurd set (not_setOn_nil port)
  | set => exact (setOn_singleton.mp set).1

theorem Entered.not_check {i : Nat} {bus : BusInf} {w : World σ} {ext : List FotaEvent}
    {r : Int → Int16} (entered : Entered i bus w ext r) (j : Nat) : .checkFail j ∉ ext := by
  intro mem
  cases entered with
  | already => cases mem
  | set => cases List.mem_singleton.mp mem

theorem SetTo.not_check {i : Nat} {port : Int} {baud : Int16} {r r' : Int → Int16}
    {ext : List FotaEvent} (set : SetTo i port baud r ext r') (j : Nat) : .checkFail j ∉ ext := by
  intro mem
  cases set <;> cases List.mem_singleton.mp mem

theorem SetTo.entered {i : Nat} {bus : BusInf} {w : World σ} {r : Int → Int16}
    {ext : List FotaEvent} (set : SetTo i (bus.port - 1) (.ofInt bus.baud) w.canBaud ext r)
    (success : ext = [.setBaud i (bus.port - 1) (.ofInt bus.baud) 0]) : Entered i bus w ext r := by
  cases set with
  | invalid | refused => cases success
  | set inside => exact .set inside

theorem SetTo.failed {i : Nat} {port : Int} {baud : Int16} {r r' : Int → Int16}
    {ext : List FotaEvent} (set : SetTo i port baud r ext r')
    (failed : ext ≠ [.setBaud i port baud 0]) (accepted : Accepted ext) : Rates r r' ext := by
  cases set with
  | invalid => exact ⟨fun _ _ set => absurd (setOn_singleton.mp set).2 (by decide), fun _ _ => rfl⟩
  -- a refused message is not among the accepted ones
  | refused => exact absurd (List.mem_singleton.mpr rfl) (accepted i port baud)
  | set => exact absurd rfl failed

/-- A rate that is set back is kept unless it was negative. -/
theorem Entered.restored {i : Nat} {bus : BusInf} {w : World σ} {ext work back : List FotaEvent}
    {r r' : Int → Int16} (entered : Entered i bus w ext r) (plain : ∀ e ∈ work, e.Plain)
    (set : SetTo i (bus.port - 1) (w.baud (bus.port - 1)) r back r') (accepted : Accepted back) :
    Rates w.canBaud r' (ext ++ work ++ back) := by
  have quiet := not_setOn_of_plain plain
  cases set with
  | refused => exact absurd (List.mem_singleton.mpr rfl) (accepted i _ _)
  | invalid out =>
    cases entered with
    | already =>
      constructor
      · intro port _ set
        rw [setOn_append, setOn_append, setOn_singleton] at set
        simp [quiet, not_setOn_nil] at set
      · exact fun _ _ => rfl
    -- set back: whatever it was entered with is overwritten
    | set inside =>
      -- The former rate is negative, as the port is a port.
      have neg : w.canBaud (bus.port - 1) < 0 := by
        rw [← World.baud_inside inside]
        rcases out with low | high | neg
        · exact absurd (.inl low) inside
        · exact absurd (.inr (.inl high)) inside
        · exact neg
      have set : ∀ port, SetOn port ([.setBaud i (bus.port - 1) (.ofInt bus.baud) 0] ++ work ++
          [.setBaud i (bus.port - 1) (w.baud (bus.port - 1)) (-1)]) ↔ port = bus.port - 1 := by
        intro port
        rw [setOn_append, setOn_append, setOn_singleton, setOn_singleton]
        simp [quiet]
      constructor
      · intro port _ h
        rw [(set port).mp h]
        simp only [withRate, if_pos]
        exact Int16.not_lt.mp fun h => inside (.inr (.inr h))
      · intro port h
        have other : port ≠ bus.port - 1 := fun eq => h ⟨eq ▸ neg, (set port).mpr eq⟩
        simp [withRate, other]
  | set inside =>
    have rate := World.baud_inside inside (w := w)
    have nonneg : 0 ≤ w.canBaud (bus.port - 1) :=
      rate ▸ Int16.not_lt.mp fun h => inside (.inr (.inr h))
    have same : withRate r (bus.port - 1) (w.baud (bus.port - 1)) = w.canBaud := by
      funext port
      by_cases h : port = bus.port - 1
      · simp [withRate, h, rate]
      · cases entered <;> simp [withRate, h]
    constructor
    · intro port neg set
      have here : port = bus.port - 1 := by
        rw [setOn_append, setOn_append, setOn_singleton] at set
        exact set.elim (Or.rec entered.setOn fun set => absurd set (quiet port)) And.left
      rw [here] at neg
      exact absurd nonneg (Int16.not_le.mpr neg)
    · exact fun port _ => congrFun same port

/-! ### One ECU -/

/-- Between opening and closing: the port has the bus's rate, the rest is work. -/
structure Session (i : Nat) (bus : BusInf) (w w' : World σ) : Prop where
  trace : ∃ ext work, w'.trace = w.trace ++ (ext ++ work) ∧ Entered i bus w ext w'.canBaud ∧
    ∀ e ∈ work, e.Plain
  closed : w.udsOpen = false

theorem Session.works {i : Nat} {bus : BusInf} {vers : FotaVer → Prop} {w v w' : World σ}
    (session : Session i bus w v) (works : Works (FotaEvent.Of i vers) v w') :
    Session i bus w w' := by
  obtain ⟨ext, work, trace, entered, plain⟩ := session.trace
  obtain ⟨more, trace', own, _⟩ := works.trace
  refine ⟨⟨ext, work ++ more, ?_, works.canBaud ▸ entered, ?_⟩, session.closed⟩
  · rw [trace', trace]
    simp only [List.append_assoc]
  · intro e mem
    exact (List.mem_append.mp mem).elim (plain e) fun mem => plain_of (own e mem)

/-- The step ends at a failed check: the UDS client is closed, the port is not set back. -/
structure Leaves (i : Nat) (bus : BusInf) (w w' : World σ) : Prop where
  trace : ∃ ext work, w'.trace = w.trace ++ (ext ++ work ++ [.checkFail i]) ∧
    Entered i bus w ext w'.canBaud ∧ ∀ e ∈ work, e.Plain
  udsOpen : w'.udsOpen = w.udsOpen

section

variable {env : Env σ} {f : Package} {i : Nat} {bus : BusInf} {info : EcuInf}

theorem canSetBaud_spec (port : Int) (baud : Int16) (w : World σ) :
    wp (canSetBaud env i port baud)
      (fun res w' => (∃ ext, w'.trace = w.trace ++ ext ∧
        SetTo i port baud w.canBaud ext w'.canBaud ∧
        (res = 0 ↔ ext = [.setBaud i port baud 0])) ∧ w'.udsOpen = w.udsOpen)
      (fun _ => False) w := by
  unfold canSetBaud
  apply wp_ite
  · exact fun out => ⟨⟨_, rfl, .invalid out, by simp⟩, rfl⟩
  · intro inside
    rw [wp_bind]
    apply wp_ite
    · exact fun _ => ⟨⟨_, rfl, .refused, by simp⟩, rfl⟩
    · exact fun _ => ⟨⟨_, rfl, .set inside, by simp⟩, rfl⟩

theorem fotaUdsOpen_spec (port fid rid pid : Int) (w : World σ) :
    wp (fotaUdsOpen env port fid rid pid)
      (fun res w' => (w'.trace = w.trace ∧ w'.canBaud = w.canBaud) ∧
        (res = 0 → w.udsOpen = false) ∧ (res ≠ 0 → w'.udsOpen = w.udsOpen))
      (fun _ => False) w := by
  unfold fotaUdsOpen
  rw [wp_bind, wp_get]
  apply wp_ite
  · exact fun _ => ⟨⟨rfl, rfl⟩, by simp, by simp⟩
  · intro closed
    replace closed : w.udsOpen = false := by simpa using closed
    have called : wp (call (env.udsOpen port fid rid pid))
        (fun _ w' => w'.trace = w.trace ∧ w'.canBaud = w.canBaud ∧ w'.udsOpen = w.udsOpen)
        (fun _ => False) w := ⟨rfl, rfl, rfl⟩
    refine wp_seq called ?_ (fun _ stopped => stopped)
    rintro res w' ⟨trace, canBaud, udsOpen⟩
    cases res with
    | failed => exact ⟨⟨trace, canBaud⟩, by simp, fun _ => udsOpen⟩
    | opened => exact ⟨⟨trace, canBaud⟩, fun _ => closed, by simp⟩
    | expired => exact ⟨⟨trace, canBaud⟩, fun _ => closed, by simp⟩

/-- After the client is closed, or could not be opened, the rate is set back. -/
theorem setBack (w w' : World σ) (ext work : List FotaEvent)
    (trace : w'.trace = w.trace ++ (ext ++ work)) (entered : Entered i bus w ext w'.canBaud)
    (plain : ∀ e ∈ work, e.Plain) (udsOpen : w'.udsOpen = w.udsOpen) :
    wp (canSetBaud env i (bus.port - 1) (w.baud (bus.port - 1)))
      (fun _ => Keeps w) (fun _ => False) w' := by
  apply wp_mono (canSetBaud_spec _ _ w') _ (fun _ stopped => stopped)
  rintro _ w'' ⟨⟨back, trace', set, _⟩, udsOpen'⟩
  refine ⟨⟨ext ++ work ++ back, by rw [trace', trace, List.append_assoc], ?_, ?_⟩,
    udsOpen'.trans udsOpen⟩
  · intro j mem
    rcases List.mem_append.mp mem with mem | mem
    · rcases List.mem_append.mp mem with mem | mem
      · exact entered.not_check j mem
      · exact plain _ mem
    · exact set.not_check j mem
  · intro accepted
    exact entered.restored plain set (accepted_append.mp accepted).2

theorem fotaEnter_spec (w : World σ) :
    wp (fotaEnter env i bus info)
      (fun res w' => match res with
        | none => Keeps w w'
        | some baud => baud = w.baud (bus.port - 1) ∧ Session i bus w w')
      (fun _ => False) w := by
  -- From the rate on; `ext` is what setting it recorded.
  have rest : ∀ (set : Int) (w' : World σ) (ext : List FotaEvent),
      w'.trace = w.trace ++ ext → w'.udsOpen = w.udsOpen →
      (set = 0 → Entered i bus w ext w'.canBaud) → (set ≠ 0 → Keeps w w') →
      wp (if set ≠ 0 then pure none
        else do
          if (← fotaUdsOpen env (bus.port - 1) bus.fid info.rid info.pid) ≠ 0 then
            let _ ← canSetBaud env i (bus.port - 1) (w.baud (bus.port - 1))
            pure none
          else pure (some (w.baud (bus.port - 1))) : Job σ (Option Int16))
        (fun res w' => match res with
          | none => Keeps w w'
          | some baud => baud = w.baud (bus.port - 1) ∧ Session i bus w w')
        (fun _ => False) w' := by
    intro set w' ext trace udsOpen entered failed
    apply wp_ite failed
    intro zero
    replace entered := entered (Decidable.not_not.mp zero)
    refine wp_seq (fotaUdsOpen_spec _ _ _ _ w') ?_ (fun _ stopped => stopped)
    rintro res w2 ⟨⟨trace2, canBaud2⟩, opened, refused⟩
    rw [← canBaud2] at entered
    apply wp_ite
    · intro h
      refine wp_seq (setBack w w2 ext [] ?_ entered (by simp) ?_) ?_
        (fun _ stopped => stopped)
      · rw [trace2, trace, List.append_nil]
      · exact (refused h).trans udsOpen
      · exact fun _ _ keeps => keeps
    · intro h
      refine ⟨rfl, ⟨ext, [], ?_, entered, by simp⟩, udsOpen ▸ opened (Decidable.not_not.mp h)⟩
      rw [trace2, trace, List.append_nil]
  unfold fotaEnter canGetBaud
  rw [wp_bind, wp_bind, wp_get, wp_pure]
  apply wp_ite
  · intro _
    refine wp_seq (canSetBaud_spec _ _ w) ?_ (fun _ stopped => stopped)
    rintro set w' ⟨⟨ext, trace, setTo, zero⟩, udsOpen⟩
    apply rest set w' ext trace udsOpen
    · intro h
      exact setTo.entered (zero.mp h)
    · intro h
      exact ⟨⟨ext, trace, setTo.not_check, setTo.failed (mt zero.mpr h)⟩, udsOpen⟩
  · intro same
    rw [wp_bind, wp_pure]
    apply rest 0 w [] (by simp) rfl
    · exact fun _ => .already (Decidable.not_not.mp same)
    · exact fun h => absurd rfl h

theorem fotaLeave_spec {w w' : World σ} (session : Session i bus w w') :
    wp (fotaLeave env i bus (w.baud (bus.port - 1))) (fun _ => Keeps w) (fun _ => False) w' := by
  obtain ⟨ext, work, trace, entered, plain⟩ := session.trace
  unfold fotaLeave fotaUdsClose
  rw [wp_bind, wp_modify]
  refine wp_seq (setBack w _ ext work trace entered plain session.closed.symm) ?_
    (fun _ stopped => stopped)
  exact fun _ _ keeps => keeps

/-- The end of the step when a check fails. -/
theorem checkFail_spec {w w' : World σ} (session : Session i bus w w') :
    wp (do
        emit (.checkFail i)
        fotaUdsClose
        pure 1 : Job σ Int)
      (fun res w' => res ≠ 0 ∧ Leaves i bus w w') (fun _ => True) w' := by
  obtain ⟨ext, work, trace, entered, plain⟩ := session.trace
  simp only [emit, fotaUdsClose]
  rw [wp_bind, wp_modify, wp_bind, wp_modify, wp_pure]
  refine ⟨by simp, ⟨ext, work, ?_, entered, plain⟩, session.closed.symm⟩
  change w'.trace ++ [.checkFail i] = _
  rw [trace]
  simp only [List.append_assoc]

theorem checkFail_rates {ecu : FotaEcu} (found : fotaFindEcuBus f ecu.name = some bus)
    {w w' : World σ} (session : Session i bus w w') :
    wp (do
        emit (.checkFail i)
        fotaUdsClose
        pure 1 : Job σ Int)
      (fun res w' => Keeps w w' ∨ res ≠ 0 ∧ ∃ bus, fotaFindEcuBus f ecu.name = some bus ∧
        Leaves i bus w w')
      (fun _ => True) w' := by
  apply wp_mono (checkFail_spec session) _ (fun _ _ => trivial)
  exact fun _ _ ⟨error, leaves⟩ => .inr ⟨error, bus, found, leaves⟩

theorem fotaExcuteEcu_rates (ecu : FotaEcu) (w : World σ) :
    wp (fotaExcuteEcu env f i ecu)
      (fun res w' => Keeps w w' ∨ res ≠ 0 ∧ ∃ bus, fotaFindEcuBus f ecu.name = some bus ∧
        Leaves i bus w w')
      (fun _ => True) w := by
  unfold fotaExcuteEcu
  split
  · rename_i bus info tar hbus _ _
    refine wp_seq (fotaEnter_spec _) ?_ (fun _ _ => trivial)
    intro baud w1 entered
    cases baud with
    | none => exact .inl entered
    | some baud =>
      obtain ⟨rfl, session⟩ := entered
      have matches_ : Acts i (fun _ => True) True (fotaEcuMatch env ecu) := fotaEcuMatch_acts ecu
      refine wp_seq (matches_ w1) ?_ (fun _ _ => trivial)
      intro res w2 works
      replace session := session.works works
      apply wp_ite
      · exact fun _ => checkFail_rates hbus session
      · intro _
        have resolves : Acts i (fun _ => True) True (fotaEcuResolve env f.root i ecu) :=
          fotaEcuResolve_acts f.root (fun _ _ => trivial) (fun _ _ _ => trivial)
        refine wp_seq (resolves w2) ?_ (fun _ _ => trivial)
        intro res w3 works
        replace session := session.works works
        apply wp_ite
        · exact fun _ => checkFail_rates hbus session
        · intro _
          have upgrades : Acts i (fun _ => True) True (fotaEcuUpgrade env f.root i ecu tar) :=
            fotaEcuUpgrade_acts f.root trivial (fun _ => trivial)
          refine wp_seq (upgrades w3) ?_ (fun _ _ => trivial)
          intro res w4 works
          refine wp_seq (fotaLeave_spec (session.works works)) ?_ (fun _ stopped => stopped.elim)
          exact fun _ _ keeps => .inl keeps
  · exact .inl (.of_plain [] (by simp) (by simp) rfl rfl)

theorem fotaRollbackEcu_rates (ecu : FotaEcu) (w : World σ) :
    wp (fotaRollbackEcu env f i ecu) (fun _ => Keeps w) (fun _ => True) w := by
  have begun : Keeps w { w with trace := w.trace ++ [.rollbackEcu i] } :=
    .of_plain [.rollbackEcu i] rfl (by simp [FotaEvent.Plain]) rfl rfl
  unfold fotaRollbackEcu
  simp only [emit]
  rw [wp_bind, wp_modify]
  split
  · refine wp_seq (fotaEnter_spec _) ?_ (fun _ _ => trivial)
    intro baud w1 entered
    cases baud with
    | none => exact begun.trans entered
    | some baud =>
      obtain ⟨rfl, session⟩ := entered
      have upgrades : Acts i (fun _ => True) True (fotaEcuUpgrade env f.root i ecu ecu.src) :=
        fotaEcuUpgrade_acts f.root trivial (fun _ => trivial)
      refine wp_seq (upgrades w1) ?_ (fun _ _ => trivial)
      intro res w2 works
      refine wp_seq (fotaLeave_spec (session.works works)) ?_ (fun _ stopped => stopped.elim)
      exact fun _ _ keeps => begun.trans keeps
  · trivial

/-! ### The loops -/

/-- At most the last step of the loop leaves its port. -/
theorem fotaExcuteLoop_rates (rest : List (FotaEcu × Nat)) (tbox : Option FotaEcu)
    (w : World σ) :
    wp (fotaExcuteLoop env f tbox rest)
      (fun _ w' => Keeps w w' ∨ ∃ ecu j bus v, (ecu, j) ∈ rest ∧
        fotaFindEcuBus f ecu.name = some bus ∧ Keeps w v ∧ Leaves j bus v w')
      (fun _ => True) w := by
  induction rest generalizing tbox w with
  | nil => exact .inl (.of_plain [] (by simp) (by simp) rfl rfl)
  | cons head rest ih =>
    obtain ⟨ecu, j⟩ := head
    unfold fotaExcuteLoop
    apply wp_ite
    · intro _
      apply wp_mono (ih (some ecu) w) _ (fun _ _ => trivial)
      rintro _ w' (keeps | ⟨ecu', j', bus, v, mem, rest⟩)
      · exact .inl keeps
      · exact .inr ⟨ecu', j', bus, v, by simp [mem], rest⟩
    · intro _
      refine wp_seq (fotaExcuteEcu_rates ecu w) ?_ (fun _ _ => trivial)
      intro error w1 step
      apply wp_ite
      · intro _
        rcases step with keeps | ⟨_, bus, found, leaves⟩
        · exact .inl keeps
        · exact .inr ⟨ecu, j, bus, w, by simp, found,
            .of_plain [] (by simp) (by simp) rfl rfl, leaves⟩
      · intro zero
        have keeps := step.resolve_right fun leaves => zero leaves.1
        apply wp_mono (ih tbox w1) _ (fun _ _ => trivial)
        rintro _ w' (keeps' | ⟨ecu', j', bus, v, mem, found, keeps', leaves⟩)
        · exact .inl (keeps.trans keeps')
        · exact .inr ⟨ecu', j', bus, v, by simp [mem], found, keeps.trans keeps', leaves⟩

theorem fotaRollbackLoop_rates (rest : List (FotaEcu × Nat)) (error : Int) (w : World σ) :
    wp (fotaRollbackLoop env f error rest) (fun _ => Keeps w) (fun _ => True) w := by
  induction rest generalizing error w with
  | nil => exact .of_plain [] (by simp) (by simp) rfl rfl
  | cons head rest ih =>
    unfold fotaRollbackLoop
    rw [wp_bind, wp_get]
    apply wp_ite
    · intro _
      refine wp_seq (fotaRollbackEcu_rates head.1 w) ?_ (fun _ _ => trivial)
      intro res w' keeps
      exact wp_mono (ih (error + res) w') (fun _ _ => keeps.trans) (fun _ _ => trivial)
    · exact fun _ => ih error w

theorem fotaRollback_rates (w : World σ) :
    wp (fotaRollback env f) (fun _ => Keeps w) (fun _ => True) w := by
  simp only [fotaRollback, emit]
  rw [wp_bind, wp_modify, wp_bind, wp_modify]
  have begun : Keeps w { w with trace := w.trace ++ [.rollback], callback := false } :=
    .of_plain [.rollback] rfl (by simp [FotaEvent.Plain]) rfl rfl
  refine wp_seq (fotaRollbackLoop_rates f.ecu.zipIdx 0 _) ?_ (fun _ _ => trivial)
  intro error w' keeps
  have ended : Keeps w' { w' with trace := w'.trace ++ [.rollbackResult error] } :=
    .of_plain [.rollbackResult error] rfl (by simp [FotaEvent.Plain]) rfl rfl
  exact (begun.trans keeps).trans ended

/-! ### The whole run -/

/-- A run of `fota_excute` that returns: it keeps the rates, or does so before and after one
step that leaves its port. -/
theorem fotaExcute_rates (cb : Bool) (w : World σ) :
    wp (fotaExcute env f cb)
      (fun _ w' => Keeps w w' ∨ ∃ ecu j bus u v, f.ecu[j]? = some ecu ∧
        fotaFindEcuBus f ecu.name = some bus ∧ Keeps w u ∧ Leaves j bus u v ∧ Keeps v w')
      (fun _ => True) w := by
  unfold fotaExcute
  refine wp_seq (fotaCalcWorkload_spec f w) ?_ (fun _ _ => trivial)
  rintro workload w1 ⟨quiet, _⟩
  have keeps1 := Keeps.of_quiet quiet
  apply wp_ite
  · exact fun _ => .inl keeps1
  · intro _
    rw [wp_bind, wp_modify]
    refine wp_seq (fotaExcuteLoop_rates f.ecu.zipIdx none _) ?_ (fun _ _ => trivial)
    rintro ⟨error, tbox⟩ w2 step
    refine wp_seq (fotaTboxLast_spec error tbox w2) ?_ (fun _ _ => trivial)
    rintro error w3 ⟨quiet3, _⟩
    have last : ∀ w4, Keeps w3 w4 → Keeps w w4 ∨ ∃ ecu j bus u v, f.ecu[j]? = some ecu ∧
        fotaFindEcuBus f ecu.name = some bus ∧ Keeps w u ∧ Leaves j bus u v ∧ Keeps v w4 := by
      intro w4 keeps4
      have keeps4 := (Keeps.of_quiet quiet3).trans keeps4
      have keeps1 : Keeps w { w1 with callback := cb } := ⟨keeps1.trace, keeps1.udsOpen⟩
      rcases step with keeps2 | ⟨ecu, j, bus, v, mem, found, keeps2, leaves⟩
      · exact .inl (keeps1.trans (keeps2.trans keeps4))
      · exact .inr ⟨ecu, j, bus, v, w2, List.mem_zipIdx_iff_getElem?.mp mem, found,
          keeps1.trans keeps2, leaves, keeps4⟩
    apply wp_ite
    · intro _
      refine wp_seq (fotaRollback_rates w3) ?_ (fun _ _ => trivial)
      exact fun _ w4 keeps4 => last w4 keeps4
    · exact fun _ => last w3 (.of_plain [] (by simp) (by simp) rfl rfl)

end

/-- The ports a run sets had a rate, and an ECU that fails a check had its port at the rate
of its bus before the run. -/
structure Restorable (f : Package) (w : World σ) (tr : List FotaEvent) : Prop where
  used : ∀ port, SetOn port tr → 0 ≤ w.canBaud port
  checked : ∀ i ecu bus, .checkFail i ∈ tr → f.ecu[i]? = some ecu →
    fotaFindEcuBus f ecu.name = some bus → w.baud (bus.port - 1) = .ofInt bus.baud

section

variable {f : Package} {i : Nat} {bus : BusInf}

/-- A port that is at a rate that is not negative stays so, and one that is set gets one. -/
theorem Entered.nonneg {w : World σ} {ext : List FotaEvent} {r : Int → Int16}
    (entered : Entered i bus w ext r) {port : Int} (h : 0 ≤ w.canBaud port ∨ SetOn port ext) :
    0 ≤ r port := by
  cases entered with
  | already => exact h.resolve_right (not_setOn_nil port)
  | set inside =>
    by_cases here : port = bus.port - 1
    · simp only [withRate, if_pos here]
      exact Int16.not_lt.mp fun h => inside (.inr (.inr h))
    · simp only [withRate, if_neg here]
      exact h.resolve_right fun set => here (setOn_singleton.mp set).1

theorem World.baud_congr {w w' : World σ} {port : Int} (h : w'.canBaud port = w.canBaud port) :
    w'.baud port = w.baud port := by
  simp only [World.baud, h]

/-- The rates that were set in a run with one step that leaves its port. -/
theorem setOn_leaving {port : Int} {ext1 ext work ext3 : List FotaEvent}
    (plain : ∀ e ∈ work, e.Plain) :
    SetOn port (ext1 ++ (ext ++ work ++ [.checkFail i]) ++ ext3) ↔
      (SetOn port ext1 ∨ SetOn port ext) ∨ SetOn port ext3 := by
  have quiet : ¬SetOn port (work ++ [.checkFail i]) := by
    rintro ⟨_, _, mem⟩
    rcases List.mem_append.mp mem with mem | mem
    · exact plain _ mem
    · cases List.mem_singleton.mp mem
  rw [List.append_assoc ext, setOn_append, setOn_append, setOn_append]
  simp [quiet]

/-- Its check is the only one that failed. -/
theorem checkFail_leaving {w : World σ} {r : Int → Int16} {ext1 ext work ext3 : List FotaEvent}
    (checks1 : ∀ j, .checkFail j ∉ ext1) (entered : Entered i bus w ext r)
    (plain : ∀ e ∈ work, e.Plain) (checks3 : ∀ j, .checkFail j ∉ ext3) {j : Nat}
    (mem : .checkFail j ∈ ext1 ++ (ext ++ work ++ [.checkFail i]) ++ ext3) : j = i := by
  simp only [List.mem_append, List.mem_singleton] at mem
  rcases mem with (mem | (mem | mem) | mem) | mem
  · exact absurd mem (checks1 j)
  · exact absurd mem (entered.not_check j)
  · exact absurd mem (fun mem => plain _ mem)
  · cases mem
    rfl
  · exact absurd mem (checks3 j)

/-- A negative rate that is set before, in or after the step is not back at the end. -/
theorem lost_leaving {w u v w' : World σ} {ext1 ext ext3 : List FotaEvent}
    (rates1 : Rates w.canBaud u.canBaud ext1) (entered : Entered i bus u ext v.canBaud)
    (rates3 : Rates v.canBaud w'.canBaud ext3) {port : Int} (neg : w.canBaud port < 0)
    (set : (SetOn port ext1 ∨ SetOn port ext) ∨ SetOn port ext3) : 0 ≤ w'.canBaud port := by
  have early : SetOn port ext1 ∨ SetOn port ext → 0 ≤ w'.canBaud port := by
    intro early
    have : 0 ≤ v.canBaud port := entered.nonneg (early.imp_left (rates1.lost port neg))
    rw [rates3.nonneg this]
    exact this
  rcases set with set | set
  · exact early set
  · by_cases h : v.canBaud port < 0
    · exact rates3.lost port h set
    · have := Int16.not_lt.mp h
      rw [rates3.nonneg this]
      exact this

/-- The run with one step that leaves its port: before, in and after it. -/
theorem restored_iff_of_leaves {ecu : FotaEcu} {w u v w' : World σ} (started : w.trace = [])
    (here : f.ecu[i]? = some ecu) (found : fotaFindEcuBus f ecu.name = some bus)
    (before : Keeps w u) (leaves : Leaves i bus u v) (after : Keeps v w')
    (accepted : Accepted w'.trace) : w'.canBaud = w.canBaud ↔ Restorable f w w'.trace := by
  obtain ⟨ext1, trace1, checks1, rates1⟩ := before.trace
  obtain ⟨ext, work, trace2, entered, plain⟩ := leaves.trace
  obtain ⟨ext3, trace3, checks3, rates3⟩ := after.trace
  have trace : w'.trace = ext1 ++ (ext ++ work ++ [.checkFail i]) ++ ext3 := by
    rw [trace3, trace2, trace1, started, List.nil_append]
  rw [trace] at accepted ⊢
  have rates1 := rates1 (accepted_append.mp (accepted_append.mp accepted).1).1
  have rates3 := rates3 (accepted_append.mp accepted).2
  have setOn : ∀ port, SetOn port (ext1 ++ (ext ++ work ++ [.checkFail i]) ++ ext3) ↔
      (SetOn port ext1 ∨ SetOn port ext) ∨ SetOn port ext3 := fun _ => setOn_leaving plain
  constructor
  · intro same
    -- A rate that was negative and set would not be back.
    have used : ∀ port, SetOn port (ext1 ++ (ext ++ work ++ [.checkFail i]) ++ ext3) →
        0 ≤ w.canBaud port := by
      intro port set
      apply Int16.not_lt.mp
      intro neg
      have lost := lost_leaving rates1 entered rates3 neg ((setOn port).mp set)
      rw [congrFun same port] at lost
      exact absurd lost (Int16.not_le.mpr neg)
    refine ⟨used, ?_⟩
    intro j ecu' bus' mem here' found'
    cases checkFail_leaving checks1 entered plain checks3 mem
    cases here.symm.trans here'
    cases found.symm.trans found'
    have first : u.canBaud = w.canBaud :=
      rates1.restored_iff.mpr fun port set => used port ((setOn port).mpr (.inl (.inl set)))
    generalize v.canBaud = r at entered rates3
    cases entered with
    | already rate =>
      rw [← rate, Int16.ofInt_toInt]
      exact (World.baud_congr (congrFun first _)).symm
    | set inside =>
      have nonneg : 0 ≤ Int16.ofInt bus.baud := Int16.not_lt.mp fun h => inside (.inr (.inr h))
      have last : w'.canBaud (bus.port - 1) = _ :=
        rates3.nonneg (by simpa only [withRate, if_pos] using nonneg)
      rw [World.baud_inside inside, ← congrFun same, last]
      simp [withRate]
  · rintro ⟨used, checked⟩
    have rate := checked i ecu bus (by simp) here found
    have first : u.canBaud = w.canBaud :=
      rates1.restored_iff.mpr fun port set => used port ((setOn port).mpr (.inl (.inl set)))
    have second : v.canBaud = w.canBaud := by
      generalize v.canBaud = r at entered
      cases entered with
      | already => exact first
      | set inside =>
        funext port
        by_cases h : port = bus.port - 1
        · rw [h, ← World.baud_inside inside, rate]
          simp [withRate]
        · simp [withRate, h, first]
    rw [rates3.restored_iff.mpr fun port set =>
      second ▸ used port ((setOn port).mpr (.inr set)), second]

/-- When no message to the CAN thread is refused, the ports are back at their rates exactly
if the run was `Restorable`; what it opened of the UDS client it has closed. -/
theorem environment_restored_iff (env : Env σ) (f : Package) (cb : Bool) {w w' : World σ}
    {res : Int} (started : w.trace = []) (run : fotaExcute env f cb w = .ok res w') :
    w'.udsOpen = w.udsOpen ∧
      (Accepted w'.trace → (w'.canBaud = w.canBaud ↔ Restorable f w w'.trace)) := by
  rcases wp_ok (fotaExcute_rates cb w) run with keeps | ⟨ecu, i, bus, u, v, here, found, rest⟩
  · refine ⟨keeps.udsOpen, fun accepted => ?_⟩
    obtain ⟨ext, trace, checks, rates⟩ := keeps.trace
    rw [started, List.nil_append] at trace
    rw [trace] at accepted ⊢
    rw [(rates accepted).restored_iff]
    constructor
    · exact fun used => ⟨used, fun i _ _ mem => absurd mem (checks i)⟩
    · exact fun restorable => restorable.used
  · obtain ⟨before, leaves, after⟩ := rest
    refine ⟨after.udsOpen.trans (leaves.udsOpen.trans before.udsOpen), fun accepted => ?_⟩
    exact restored_iff_of_leaves started here found before leaves after accepted

end

/-! ### An ECU that does not answer -/

def deafEnv : Env Unit where
  tcomSendMsg _ _ s := (0, s)
  udsOpen _ _ _ _ s := (.opened, s)
  udsRequest _ _ _ _ _ s := (-1, s)
  udsResult _ := none
  imgLoad _ _ _ s := (none, s)
  imgCalc _ _ s := (1, s)
  callback _ s := (0, s)
  fileCopy _ s := (0, s)
  pkgupgrade s := (0, s)

/-- One ECU on a bus with the rate `baud`. -/
def oneEcu (baud : Int) : Package :=
  ⟨[0x2f], [⟨1, baud, 0x7df, [⟨[0x41], 1, 2⟩]⟩],
    [⟨[0x41], [0x31], ⟨[0x31], [0x2f], some .hex, 0⟩, some ⟨[0x32], [0x2f], some .hex, 0⟩, [],
      none, [], 1⟩]⟩

/-- All ports at 500. -/
def portsWorld : World Unit :=
  ⟨(), fun _ => false, false, 0, 0, false, 0, fun _ => 500, false, []⟩

/-- The first port and the trace at the end. -/
def deafEnd (baud : Int) : Option (Int16 × List FotaEvent) :=
  match fotaExcute deafEnv (oneEcu baud) false portsWorld with
  | .ok _ w => some (w.canBaud 0, w.trace)
  | .error _ _ => none

theorem deafEnd_run {baud : Int} {rate : Int16} {tr : List FotaEvent}
    (h : deafEnd baud = some (rate, tr)) :
    ∃ res w, fotaExcute deafEnv (oneEcu baud) false portsWorld = .ok res w ∧
      w.canBaud 0 = rate ∧ w.trace = tr := by
  unfold deafEnd at h
  cases run : fotaExcute deafEnv (oneEcu baud) false portsWorld with
  | ok res w =>
    rw [run] at h
    cases h
    exact ⟨res, w, rfl, rfl, rfl⟩
  | error e w =>
    rw [run] at h
    cases h

theorem environment_restored_deaf :
    ∃ res w, fotaExcute deafEnv (oneEcu 500) false portsWorld = .ok res w ∧
      w.udsOpen = false ∧
      (Accepted w.trace → (w.canBaud = portsWorld.canBaud ↔
        Restorable (oneEcu 500) portsWorld w.trace)) := by
  obtain ⟨res, w, run, _⟩ := deafEnd_run
    (show deafEnd 500 = some (500, [.request false 0x22 0 [0xf1, 0x93], .checkFail 0, .rollback,
      .rollbackResult 0]) by decide)
  exact ⟨res, w, run, environment_restored_iff deafEnv (oneEcu 500) false rfl run⟩

/-- The version match fails on a port that was set from 500 to 250: it stays at 250. -/
theorem failed_match_leaves_port :
    ∃ res w, fotaExcute deafEnv (oneEcu 250) false portsWorld = .ok res w ∧
      Accepted w.trace ∧ w.canBaud ≠ portsWorld.canBaud := by
  obtain ⟨res, w, run, rate, trace⟩ := deafEnd_run
    (show deafEnd 250 = some (250, [.setBaud 0 0 250 0, .request false 0x22 0 [0xf1, 0x93],
      .checkFail 0, .rollback, .rollbackResult 0]) by decide)
  refine ⟨res, w, run, ?_, ?_⟩
  · rw [trace]
    simp [Accepted]
  · intro same
    rw [same] at rate
    exact absurd rate (by decide)

end Fota
