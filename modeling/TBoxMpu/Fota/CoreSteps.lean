import TBoxMpu.Fota.Frames

/-!
# What programming one ECU can do

`Acts i vers stop p`: every run of `p` records only requests, upgrades of the ECU `i` to a
version in `vers` and erasures of it, sets its `rback` exactly when it erases, and leaves
the ports and the UDS client alone. It stops short only when the workload is 0 or `stop`.
-/

namespace Fota

open Effects

variable {σ : Type}

/-! ### Moves of the world -/

/-- The world moved by events that are all `ok`, and `rback` by the erasures among them. -/
structure Moves (ok : FotaEvent → Prop) (w w' : World σ) : Prop where
  trace : ∃ ext, w'.trace = w.trace ++ ext ∧ (∀ e ∈ ext, ok e) ∧
    ∀ j, w'.rback j = (w.rback j || decide (.erase j ∈ ext))
  total : w'.total = w.total

theorem Moves.refl (ok : FotaEvent → Prop) (w : World σ) : Moves ok w w :=
  ⟨⟨[], by simp⟩, rfl⟩

theorem Moves.trans {ok : FotaEvent → Prop} {u v w : World σ} (first : Moves ok u v)
    (second : Moves ok v w) : Moves ok u w := by
  obtain ⟨ext, trace, allowed, rback⟩ := first.trace
  obtain ⟨ext', trace', allowed', rback'⟩ := second.trace
  constructor
  · refine ⟨ext ++ ext', by rw [trace', trace, List.append_assoc], ?_, ?_⟩
    · intro e mem
      rcases List.mem_append.mp mem with mem | mem
      · exact allowed e mem
      · exact allowed' e mem
    · intro j
      rw [rback', rback]
      simp [Bool.or_assoc]
  · rw [second.total, first.total]

theorem Moves.mono {ok ok' : FotaEvent → Prop} {w w' : World σ} (h : Moves ok w w')
    (weaker : ∀ e, ok e → ok' e) : Moves ok' w w' := by
  obtain ⟨ext, trace, allowed, rback⟩ := h.trace
  exact ⟨⟨ext, trace, fun e mem => weaker e (allowed e mem), rback⟩, h.total⟩

/-- A move that leaves the ports and the UDS client alone. -/
structure Works (ok : FotaEvent → Prop) (w w' : World σ) : Prop extends Moves ok w w' where
  canBaud : w'.canBaud = w.canBaud
  udsOpen : w'.udsOpen = w.udsOpen

theorem Works.refl (ok : FotaEvent → Prop) (w : World σ) : Works ok w w :=
  ⟨.refl ok w, rfl, rfl⟩

theorem Works.trans {ok : FotaEvent → Prop} {u v w : World σ} (first : Works ok u v)
    (second : Works ok v w) : Works ok u w :=
  ⟨first.toMoves.trans second.toMoves, second.canBaud.trans first.canBaud,
    second.udsOpen.trans first.udsOpen⟩

/-! ### Work on one ECU -/

/-- What programming the ECU `i` with versions in `vers` records. -/
def FotaEvent.Of (i : Nat) (vers : FotaVer → Prop) : FotaEvent → Prop
  | upgrade j ver => j = i ∧ vers ver
  | request .. => True
  | erase j => j = i
  | _ => False

def Acts {α : Type} (i : Nat) (vers : FotaVer → Prop) (stop : Prop) (p : Job σ α) : Prop :=
  Within (Works (FotaEvent.Of i vers))
    (fun w w' => Works (FotaEvent.Of i vers) w w' ∧ (w.total = 0 ∨ stop)) p

section

variable {α β : Type} {i : Nat} {vers : FotaVer → Prop} {stop : Prop} {env : Env σ}

theorem Acts.pure (a : α) : Acts i vers stop (pure a : Job σ α) :=
  Within.pure (Works.refl _) a

theorem Acts.bind {p : Job σ α} {f : α → Job σ β} (first : Acts i vers stop p)
    (rest : ∀ a, Acts i vers stop (f a)) : Acts i vers stop (p >>= f) :=
  Within.bind (R := Works _) (fun _ _ _ => Works.trans)
    (fun _ _ _ moved stopped => ⟨moved.trans stopped.1, moved.total ▸ stopped.2⟩) first rest

theorem Acts.ite {c : Prop} [Decidable c] {p q : Job σ α} (yes : c → Acts i vers stop p)
    (no : ¬c → Acts i vers stop q) : Acts i vers stop (if c then p else q) :=
  Within.ite yes no

theorem Acts.get : Acts i vers stop (get : Job σ (World σ)) :=
  fun w => Works.refl _ w

theorem Acts.throw (h : stop) (e : Crash) : Acts i vers stop (throw e : Job σ α) :=
  fun w => ⟨Works.refl _ w, .inr h⟩

theorem call_acts (f : σ → α × σ) : Acts i vers stop (call f) :=
  fun _ => ⟨⟨⟨[], by simp⟩, rfl⟩, rfl, rfl⟩

theorem emit_acts {e : FotaEvent} (ok : e.Of i vers) (other : ∀ j, e ≠ .erase j) :
    Acts i vers stop (emit e : Job σ Unit) :=
  fun _ => ⟨⟨⟨[e], rfl, by simpa using ok, by simp [fun j => (other j).symm]⟩, rfl⟩, rfl, rfl⟩

theorem modify_acts {f : World σ → World σ}
    (same : ∀ w, (f w).trace = w.trace ∧ (f w).rback = w.rback ∧ (f w).total = w.total ∧
      (f w).canBaud = w.canBaud ∧ (f w).udsOpen = w.udsOpen) :
    Acts i vers stop (modify f : Job σ PUnit) := by
  intro w
  obtain ⟨trace, rback, total, canBaud, udsOpen⟩ := same w
  exact ⟨⟨⟨[], by simp [trace, rback]⟩, total⟩, canBaud, udsOpen⟩

/-! ### The UDS client -/

theorem works_frame : UdsFrame env i (Works (FotaEvent.Of i vers)) where
  refl := Works.refl _
  trans := Works.trans
  request w bc sid sub data timeout :=
    ⟨⟨⟨[.request bc sid sub data], rfl, by simp [FotaEvent.Of], by simp⟩, rfl⟩, rfl, rfl⟩
  counter _ _ := ⟨⟨⟨[], by simp⟩, rfl⟩, rfl, rfl⟩
  erase := by
    intro w
    refine ⟨⟨⟨[.erase i], rfl, by simp [FotaEvent.Of], fun j => ?_⟩, rfl⟩, rfl, rfl⟩
    change (if j = i then true else w.rback j) = _
    -- the flag of this ECU follows its event, the others stay
    by_cases h : j = i <;> simp [h]

theorem Along.acts {p : Job σ α} (h : Along (Works (FotaEvent.Of i vers)) p) :
    Acts i vers stop p :=
  Within.mono h (fun _ _ moved => moved) (fun _ _ stopped => stopped.elim)

theorem fotaUdsRequest_acts {bc : Bool} {sid : Nat} {sub : Int} {data : List UInt8}
    {timeout : Nat} : Acts i vers stop (fotaUdsRequest env bc sid sub data timeout) :=
  (fotaUdsRequest_along works_frame).acts

theorem fotaUdsResult_acts {siz : Nat} : Acts i vers stop (fotaUdsResult env siz) :=
  (fotaUdsResult_along (i := i) works_frame).acts

theorem check_acts {id : UInt8 × UInt8} {par : List UInt8} {timeout : Nat} (r : Bool → Int) :
    Acts i vers stop (do pure (r (← fotonRoutine env id par timeout))) :=
  (routine_along works_frame r).acts

/-! ### Programming -/

theorem fotaTransfer_acts {data : List (List UInt8)} :
    Acts i vers stop (fotaTransfer env data) := by
  induction data with
  | nil => exact Acts.pure _
  | cons block rest ih =>
    apply Acts.bind (fotaUdsTransData_along works_frame).acts
    intro res
    apply Acts.ite (fun _ => Acts.pure _)
    intro _
    apply Acts.bind
    · exact modify_acts fun w => ⟨rfl, rfl, rfl, rfl, rfl⟩
    intro _ w
    -- The division stops the run only when the workload is 0.
    by_cases h : w.total = 0
    · rw [wp_bind]
      simpa [h] using Works.refl _ w
    · rw [wp_bind]
      simp only [wp_get, if_neg h]
      refine Acts.ite (fun _ => ?_) (fun _ => ih) w
      apply Acts.bind (call_acts _)
      exact fun _ => Acts.ite (fun _ => Acts.pure _) (fun _ => ih)

theorem fotaProgramSects_acts {img : FotaImg} {sects : List ImgSect} :
    Acts i vers stop (fotaProgramSects env img sects) := by
  induction sects with
  | nil => exact Acts.pure _
  | cons sect rest ih =>
    apply Acts.bind (fotaUdsReqDownload_along works_frame).acts
    intro plen
    apply Acts.ite (fun _ => Acts.pure _)
    intro _
    apply Acts.bind fotaTransfer_acts
    intro res
    apply Acts.ite (fun _ => Acts.pure _)
    intro _
    apply Acts.bind fotaUdsRequest_acts
    exact fun _ => Acts.ite (fun _ => Acts.pure _) (fun _ => ih)

theorem fotaEcuProgram_acts (root : CStr) {ver : FotaVer} (erase : Bool)
    (loader : ver.imgLoad = none → stop) :
    Acts i vers stop (fotaEcuProgram env root i ver erase) := by
  apply Acts.ite (fun _ => Acts.pure _)
  intro _
  cases h : ver.imgLoad with
  -- the code calls a null pointer here
  | none => exact Acts.throw (loader h) _
  | some img =>
    apply Acts.bind (call_acts _)
    intro img
    cases img with
    | none => exact Acts.pure _
    | some img =>
      apply Acts.bind (fotaErase_along works_frame _).acts
      intro _
      apply Acts.ite (fun _ => Acts.pure _)
      intro _
      apply Acts.bind fotaProgramSects_acts
      intro _
      apply Acts.ite (fun _ => Acts.pure _)
      intro _
      apply Acts.bind (check_acts fun ok => if ok then 0 else 1)
      intro _
      apply Acts.ite (fun _ => Acts.pure _)
      intro _
      apply Acts.bind (check_acts fun ok => if ok then 0 else 1)
      exact fun _ => Acts.ite (fun _ => Acts.pure _) (fun _ => Acts.pure _)

theorem fotaFlashDriver_acts (root : CStr) {ecu : FotaEcu}
    (loader : ∀ drv, ecu.drv = some drv → drv.imgLoad = none → stop) :
    Acts i vers stop (fotaFlashDriver env root i ecu) := by
  unfold fotaFlashDriver
  cases h : ecu.drv with
  | none => exact Acts.pure _
  | some drv => exact fotaEcuProgram_acts root false (loader drv h)

/-- A loader that an upgrade of `ecu` to `ver` calls is missing. -/
def missing (ecu : FotaEcu) (ver : FotaVer) : Prop :=
  ver.imgLoad = none ∨ ∃ drv, ecu.drv = some drv ∧ drv.imgLoad = none

theorem fotaUpgradeExcute_acts (root : CStr) {ecu : FotaEcu} {ver : FotaVer}
    (loader : missing ecu ver → stop) :
    Acts i vers stop (fotaUpgradeExcute env root i ecu ver) := by
  apply Acts.bind fotaUdsRequest_acts
  intro _
  apply Acts.ite (fun _ => Acts.pure _)
  intro _
  apply Acts.bind fotaUdsRequest_acts
  intro _
  apply Acts.ite (fun _ => Acts.pure _)
  intro _
  apply Acts.bind fotaUdsResult_acts
  intro seed
  split
  · exact Acts.pure _
  · exact Acts.pure _
  · apply Acts.bind fotaUdsRequest_acts
    intro _
    apply Acts.ite (fun _ => Acts.pure _)
    intro _
    apply Acts.bind (fotaFlashDriver_acts root fun drv h none => loader (.inr ⟨drv, h, none⟩))
    intro _
    apply Acts.ite (fun _ => Acts.pure _)
    intro _
    apply Acts.bind (fotaEcuProgram_acts root true fun none => loader (.inl none))
    exact fun _ => Acts.ite (fun _ => Acts.pure _) (fun _ => Acts.pure _)

theorem fotaEcuUpgrade_acts (root : CStr) {ecu : FotaEcu} {ver : FotaVer} (named : vers ver)
    (loader : missing ecu ver → stop) :
    Acts i vers stop (fotaEcuUpgrade env root i ecu ver) := by
  apply Acts.bind (emit_acts (e := .upgrade i ver) ⟨rfl, named⟩ nofun)
  intro _
  apply Acts.bind (fotaUpgradePrepare_along works_frame).acts
  intro _
  apply Acts.ite (fun _ => Acts.pure _)
  intro _
  apply Acts.bind (fotaUpgradeExcute_acts root loader)
  intro _
  apply Acts.ite (fun _ => Acts.pure _)
  intro _
  apply Acts.bind (fotaUpgradeFinish_along works_frame).acts
  exact fun _ => Acts.ite (fun _ => Acts.pure _) (fun _ => Acts.pure _)

/-! ### Matching and resolving -/

theorem fotaEcuMatch_acts (ecu : FotaEcu) : Acts i vers stop (fotaEcuMatch env ecu) :=
  (fotaEcuMatch_along works_frame ecu).acts

theorem fotaResolveRel_acts (root : CStr) {ecu : FotaEcu} (verstr : CStr) (rel : List FotaVer)
    (named : ∀ ver ∈ rel, vers ver) (loader : ∀ ver ∈ rel, missing ecu ver → stop) :
    Acts i vers stop (fotaResolveRel env root i ecu verstr rel) := by
  induction rel with
  | nil => exact Acts.pure _
  | cons relv rest ih =>
    have ih := ih (fun ver mem => named ver (by simp [mem]))
      (fun ver mem => loader ver (by simp [mem]))
    apply Acts.ite (fun _ => ih)
    intro _
    apply Acts.bind (fotaEcuUpgrade_acts root (named relv (by simp)) (loader relv (by simp)))
    exact fun _ => Acts.ite (fun _ => Acts.pure _) (fun _ => ih)

theorem fotaEcuResolve_acts (root : CStr) {ecu : FotaEcu} (named : ∀ ver ∈ ecu.rel, vers ver)
    (loader : ∀ ver ∈ ecu.rel, missing ecu ver → stop) :
    Acts i vers stop (fotaEcuResolve env root i ecu) := by
  apply Acts.bind (fotonReadId_along works_frame).acts
  intro ver
  split
  · exact Acts.pure _
  · exact Acts.pure _
  · exact fotaResolveRel_acts root _ _ named loader

end

/-! ### Ports -/

/-- As `Acts`, for any events and with the ports and the UDS client in use. -/
def Steps {α : Type} (ok : FotaEvent → Prop) (stop : Prop) (p : Job σ α) : Prop :=
  Within (Moves ok) (fun w w' => Moves ok w w' ∧ (w.total = 0 ∨ stop)) p

section

variable {α β : Type} {ok : FotaEvent → Prop} {i : Nat} {vers : FotaVer → Prop} {stop : Prop}
  {env : Env σ}

theorem Acts.steps {p : Job σ α} (h : Acts i vers stop p) (weaker : ∀ e, e.Of i vers → ok e) :
    Steps ok stop p :=
  Within.mono h (fun _ _ moved => moved.toMoves.mono weaker)
    (fun _ _ stopped => ⟨stopped.1.toMoves.mono weaker, stopped.2⟩)

theorem Steps.pure (a : α) : Steps ok stop (pure a : Job σ α) :=
  Within.pure (Moves.refl ok) a

theorem Steps.bind {p : Job σ α} {f : α → Job σ β} (first : Steps ok stop p)
    (rest : ∀ a, Steps ok stop (f a)) : Steps ok stop (p >>= f) :=
  Within.bind (R := Moves ok) (fun _ _ _ => Moves.trans)
    (fun _ _ _ moved stopped => ⟨moved.trans stopped.1, moved.total ▸ stopped.2⟩) first rest

theorem Steps.ite {c : Prop} [Decidable c] {p q : Job σ α} (yes : c → Steps ok stop p)
    (no : ¬c → Steps ok stop q) : Steps ok stop (if c then p else q) :=
  Within.ite yes no

theorem emit_steps {e : FotaEvent} (allowed : ok e) (other : ∀ j, e ≠ .erase j) :
    Steps ok stop (emit e : Job σ Unit) :=
  fun _ => ⟨⟨[e], rfl, by simpa using allowed, by simp [fun j => (other j).symm]⟩, rfl⟩

theorem modify_steps {f : World σ → World σ}
    (same : ∀ w, (f w).trace = w.trace ∧ (f w).rback = w.rback ∧ (f w).total = w.total) :
    Steps ok stop (modify f : Job σ PUnit) := by
  intro w
  obtain ⟨trace, rback, total⟩ := same w
  exact ⟨⟨[], by simp [trace, rback]⟩, total⟩

theorem moves_frame (allowed : ∀ port baud res, ok (.setBaud i port baud res)) :
    PortFrame env i (Moves ok) where
  refl := Moves.refl ok
  trans := Moves.trans
  told port baud res w :=
    ⟨⟨[.setBaud i port baud res], rfl, by simpa using allowed port baud res, by simp⟩, rfl⟩
  message _ _ _ := ⟨⟨[], by simp⟩, rfl⟩
  ask _ _ _ _ _ := ⟨⟨[], by simp⟩, rfl⟩
  rate _ _ := ⟨⟨[], by simp⟩, rfl⟩
  client _ _ := ⟨⟨[], by simp⟩, rfl⟩

theorem Along.steps {p : Job σ α} (h : Along (Moves ok) p) : Steps ok stop p :=
  Within.mono h (fun _ _ moved => moved) (fun _ _ stopped => stopped.elim)

theorem fotaUdsClose_steps : Steps ok stop (fotaUdsClose : Job σ Unit) :=
  modify_steps fun _ => ⟨rfl, rfl, rfl⟩

theorem fotaEnter_steps {bus : BusInf} {info : EcuInf}
    (allowed : ∀ port baud res, ok (.setBaud i port baud res)) :
    Steps ok stop (fotaEnter env i bus info) :=
  (fotaEnter_along (moves_frame allowed)).steps

theorem fotaLeave_steps {bus : BusInf} {baud : Int16}
    (allowed : ∀ port baud res, ok (.setBaud i port baud res)) :
    Steps ok stop (fotaLeave env i bus baud) :=
  (fotaLeave_along (moves_frame allowed)).steps

end

end Fota
