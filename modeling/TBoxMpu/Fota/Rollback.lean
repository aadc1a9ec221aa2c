import Mathlib.Data.List.TakeWhile
import TBoxMpu.Fota.Workload

/-!
# Rolling back the ECUs that were erased

What `fota_excute` did when it failed: every ECU that it began to erase was rolled back
once, to its source version, and no other ECU was programmed by the rollback.
-/

namespace Fota

open Effects

variable {σ : Type}

/-! ### The two parts of a run -/

def upgradePart (tr : List FotaEvent) : List FotaEvent := tr.takeWhile (· ≠ .rollback)

def rollbackPart (tr : List FotaEvent) : List FotaEvent := tr.dropWhile (· ≠ .rollback)

/-- The event belongs to programming or rolling back the ECU `i`. -/
def FotaEvent.Programs (i : Nat) : FotaEvent → Prop
  | upgrade j _ => j = i
  | erase j => j = i
  | rollbackEcu j => j = i
  | _ => False

/-- The trace of a run of `fota_excute` that returns an error or stops short. -/
inductive FailedRun (env : Env σ) (f : Package) (cb : Bool) (w : World σ) : List FotaEvent → Prop
  | fails {res : Int} {w' : World σ} (run : fotaExcute env f cb w = .ok res w')
      (error : res ≠ 0) : FailedRun env f cb w w'.trace
  | stops {e : Crash} {w' : World σ} (run : fotaExcute env f cb w = .error e w') :
      FailedRun env f cb w w'.trace

/-- Whether a run fails, and its trace. -/
def fotaOutcome (env : Env σ) (f : Package) (cb : Bool) (w : World σ) : Bool × List FotaEvent :=
  match fotaExcute env f cb w with
  | .ok res w' => (res ≠ 0, w'.trace)
  | .error _ w' => (true, w'.trace)

theorem FailedRun.of_outcome {env : Env σ} {f : Package} {cb : Bool} {w : World σ}
    (h : (fotaOutcome env f cb w).1 = true) :
    FailedRun env f cb w (fotaOutcome env f cb w).2 := by
  unfold fotaOutcome at h ⊢
  cases run : fotaExcute env f cb w with
  | ok res w' =>
    rw [run] at h
    exact .fails run (of_decide_eq_true h)
  | error e w' => exact .stops run

structure RolledBack (f : Package) (tr : List FotaEvent) : Prop where
  once : ∀ i ecu, f.ecu[i]? = some ecu → ecu.name ≠ tboxName → .erase i ∈ upgradePart tr →
    (rollbackPart tr).count (.rollbackEcu i) = 1
  source : ∀ i ecu ver, f.ecu[i]? = some ecu → .upgrade i ver ∈ rollbackPart tr → ver = ecu.src
  untouched : ∀ i, .erase i ∉ upgradePart tr → ∀ e ∈ rollbackPart tr, ¬e.Programs i

theorem RolledBack.of_quiet {f : Package} {tr : List FotaEvent} (erase : ∀ i, .erase i ∉ tr)
    (rollback : .rollback ∉ tr) : RolledBack f tr := by
  have whole : upgradePart tr = tr := by
    apply List.takeWhile_eq_self_iff.mpr
    intro e mem
    simpa using fun h : e = .rollback => rollback (h ▸ mem)
  have none : rollbackPart tr = [] := by
    apply List.dropWhile_eq_nil_iff.mpr
    intro e mem
    simpa using fun h : e = .rollback => rollback (h ▸ mem)
  constructor
  · intro i _ _ _ mem
    exact absurd (whole ▸ mem) (erase i)
  · simp [none]
  · simp [none]

/-! ### The loop of `fota_excute` -/

/-- What it takes for `fota_excute` to program an ECU. -/
structure Reachable (f : Package) (ecu : FotaEcu) : Prop where
  name : ecu.name ≠ tboxName
  bus : (fotaFindEcuBus f ecu.name).isSome
  info : (fotaFindEcuInfo f ecu.name).isSome
  tar : ecu.tar.isSome

/-- What the loop records. -/
def FotaEvent.Upgrading (f : Package) : FotaEvent → Prop
  | erase i => ∃ ecu, f.ecu[i]? = some ecu ∧ Reachable f ecu
  | rollback | rollbackEcu _ | rollbackResult _ => False
  | _ => True

/-- No loader of an ECU is missing. -/
structure Loads (ecu : FotaEcu) : Prop where
  src : ¬missing ecu ecu.src
  tar : ∀ ver, ecu.tar = some ver → ¬missing ecu ver
  rel : ∀ ver ∈ ecu.rel, ¬missing ecu ver

theorem Loads.of_sized {ecu : FotaEcu} (sized : Sized ecu) (src : ecu.src.imgLoad ≠ none)
    (rel : ∀ ver ∈ ecu.rel, ¬ecu.src.ver < ver.ver → ver.imgLoad ≠ none) : Loads ecu := by
  have drv : ¬∃ drv, ecu.drv = some drv ∧ drv.imgLoad = none :=
    fun ⟨drv, h, null⟩ => sized.drv drv h null
  constructor
  · exact not_or.mpr ⟨src, drv⟩
  · exact fun ver h => not_or.mpr ⟨sized.tar ver h, drv⟩
  · intro ver mem
    by_cases newer : ecu.src.ver < ver.ver
    · exact not_or.mpr ⟨sized.rel ver mem newer, drv⟩
    · exact not_or.mpr ⟨rel ver mem newer, drv⟩

section

variable {env : Env σ} {f : Package}

theorem checkFail_steps (i : Nat) : Steps (FotaEvent.Upgrading f) False (do
    emit (.checkFail i)
    fotaUdsClose
    pure 1 : Job σ Int) :=
  Steps.bind (emit_steps (e := .checkFail i) trivial nofun) fun _ =>
    Steps.bind fotaUdsClose_steps fun _ => Steps.pure _

theorem fotaExcuteEcu_steps {i : Nat} {ecu : FotaEcu} (h : f.ecu[i]? = some ecu)
    (name : ecu.name ≠ tboxName) (loads : Loads ecu) :
    Steps (FotaEvent.Upgrading f) False (fotaExcuteEcu env f i ecu) := by
  unfold fotaExcuteEcu
  split
  · rename_i bus info tar hbus hinfo htar
    have reachable : Reachable f ecu := ⟨name, by simp [hbus], by simp [hinfo], by simp [htar]⟩
    have weaker : ∀ e : FotaEvent, e.Of i (fun _ => True) → e.Upgrading f := by
      intro e of
      cases e with
      | erase j => exact ⟨ecu, (show j = i from of) ▸ h, reachable⟩
      | upgrade | request | checkFail | setBaud => trivial
      | rollback | rollbackEcu | rollbackResult => exact of
    apply Steps.bind (fotaEnter_steps fun _ _ _ => trivial)
    intro baud
    cases baud with
    | none => exact Steps.pure _
    | some baud =>
      apply Steps.bind ((fotaEcuMatch_acts ecu).steps weaker)
      intro res
      apply Steps.ite
      · exact fun _ => checkFail_steps i
      · intro _
        apply Steps.bind
        · exact (fotaEcuResolve_acts f.root (fun _ _ => trivial) loads.rel).steps weaker
        intro res
        apply Steps.ite
        · exact fun _ => checkFail_steps i
        · intro _
          apply Steps.bind
          · exact (fotaEcuUpgrade_acts f.root trivial (loads.tar tar htar)).steps weaker
          intro res
          apply Steps.bind (fotaLeave_steps fun _ _ _ => trivial)
          exact fun _ => Steps.pure _
  · exact Steps.pure _

theorem fotaExcuteEcu_spec {i : Nat} {ecu : FotaEcu} (h : f.ecu[i]? = some ecu)
    (name : ecu.name ≠ tboxName) (loads : Loads ecu) (w : World σ)
    (work : ecu.tar.isSome → w.total ≠ 0) :
    wp (fotaExcuteEcu env f i ecu) (fun _ => Moves (FotaEvent.Upgrading f) w) (fun _ => False)
      w := by
  cases tar : ecu.tar with
  | none =>
    have : fotaExcuteEcu env f i ecu = pure 1 := by
      unfold fotaExcuteEcu
      split
      · simp_all
      · rfl
    rw [this]
    exact Moves.refl _ w
  | some ver =>
    apply wp_mono (fotaExcuteEcu_steps h name loads w)
    · exact fun _ _ moved => moved
    · rintro w' ⟨_, none | none⟩
      · exact work (by simp [tar]) none
      · exact none

/-- The loop, from some place in the package on. -/
theorem fotaExcuteLoop_spec (rest : List (FotaEcu × Nat))
    (sub : ∀ ecu i, (ecu, i) ∈ rest → f.ecu[i]? = some ecu)
    (loads : ∀ ecu ∈ f.ecu, ecu.name ≠ tboxName → Loads ecu) (tbox : Option FotaEcu)
    (w : World σ)
    (work : ∀ ecu ∈ f.ecu, ecu.name ≠ tboxName → ecu.tar.isSome → w.total ≠ 0) :
    wp (fotaExcuteLoop env f tbox rest)
      (fun res w' => Moves (FotaEvent.Upgrading f) w w' ∧
        ∀ t, res.2 = some t → tbox = some t ∨ t ∈ f.ecu ∧ t.name = tboxName)
      (fun _ => False) w := by
  induction rest generalizing tbox w with
  | nil => exact ⟨Moves.refl _ w, fun t h => .inl h⟩
  | cons head rest ih =>
    obtain ⟨ecu, i⟩ := head
    have here : f.ecu[i]? = some ecu := sub ecu i (by simp)
    have mem : ecu ∈ f.ecu := List.mem_of_getElem? here
    have sub : ∀ ecu i, (ecu, i) ∈ rest → f.ecu[i]? = some ecu :=
      fun ecu i mem => sub ecu i (by simp [mem])
    unfold fotaExcuteLoop
    apply wp_ite
    · intro name
      apply wp_mono (ih sub (some ecu) w work) _ (fun _ stopped => stopped)
      rintro res w' ⟨moved, last⟩
      refine ⟨moved, fun t h => ?_⟩
      rcases last t h with same | passed
      · cases same
        exact .inr ⟨mem, name⟩
      · exact .inr passed
    · intro name
      apply wp_seq (fotaExcuteEcu_spec here name (loads ecu mem name) w (work ecu mem name)) _
        (fun _ stopped => stopped)
      intro error w' moved
      apply wp_ite
      · exact fun _ => ⟨moved, fun t h => .inl h⟩
      · intro _
        apply wp_mono (ih sub tbox w' (moved.total ▸ work)) _ (fun _ stopped => stopped)
        exact fun res w'' ⟨moved', last⟩ => ⟨moved.trans moved', last⟩

/-! ### The rollback -/

/-- What the rollback of the ECU `i` records after its first line. -/
def FotaEvent.Restoring (i : Nat) (ecu : FotaEcu) : FotaEvent → Prop
  | setBaud .. => True
  | e => e.Of i (Eq ecu.src)

theorem fotaRollbackEcu_spec {i : Nat} {ecu : FotaEcu} (reachable : Reachable f ecu)
    (loads : Loads ecu) (w : World σ) (work : w.total ≠ 0) :
    wp (fotaRollbackEcu env f i ecu)
      (fun _ w' => ∃ ext, w'.trace = w.trace ++ .rollbackEcu i :: ext ∧
        (∀ e ∈ ext, e.Restoring i ecu) ∧
        (∀ j, w'.rback j = (w.rback j || decide (.erase j ∈ ext))) ∧ w'.total = w.total)
      (fun _ => False) w := by
  obtain ⟨bus, hbus⟩ := Option.isSome_iff_exists.mp reachable.bus
  obtain ⟨info, hinfo⟩ := Option.isSome_iff_exists.mp reachable.info
  unfold fotaRollbackEcu
  rw [hbus, hinfo]
  have weaker : ∀ e : FotaEvent, e.Of i (Eq ecu.src) → e.Restoring i ecu := by
    intro e of
    cases e <;> first | exact of | trivial
  rw [wp_bind]
  simp only [emit, wp_modify]
  refine wp_mono ((show Steps (FotaEvent.Restoring i ecu) False _ from ?_) _) ?_ ?_
  · apply Steps.bind (fotaEnter_steps fun _ _ _ => trivial)
    intro baud
    cases baud with
    | none => exact Steps.pure _
    | some baud =>
      apply Steps.bind ((fotaEcuUpgrade_acts f.root rfl loads.src).steps weaker)
      intro res
      apply Steps.bind (fotaLeave_steps fun _ _ _ => trivial)
      exact fun _ => Steps.pure _
  · rintro _ w' ⟨⟨ext, trace, allowed, rback⟩, total⟩
    exact ⟨ext, by simpa using trace, allowed, rback, total⟩
  · rintro w' ⟨_, none | none⟩
    · exact work none
    · exact none

/-- The ECUs among `rest` that the loop of `fota_rollback` comes to. -/
def Due (rest : List (FotaEcu × Nat)) (rback : Nat → Bool) (i : Nat) : Prop :=
  ∃ ecu, (ecu, i) ∈ rest ∧ rback i = true ∧ ecu.name ≠ tboxName

/-- The loop rolls back the ECUs that are due, each once. -/
structure Rolls (rest : List (FotaEcu × Nat)) (rback : Nat → Bool) (ext : List FotaEvent) :
    Prop where
  once : ∀ i, Due rest rback i → ext.count (.rollbackEcu i) = 1
  source : ∀ ecu i ver, (ecu, i) ∈ rest → .upgrade i ver ∈ ext → ver = ecu.src
  only : ∀ i, ∀ e ∈ ext, e.Programs i → Due rest rback i

/-- One ECU that is due, before those in `rest`. -/
theorem Rolls.cons {ecu : FotaEcu} {i : Nat} {rest : List (FotaEcu × Nat)}
    {rback rback' : Nat → Bool} {ext ext' : List FotaEvent}
    (new : ∀ ecu', (ecu', i) ∉ rest) (due : rback i = true) (name : ecu.name ≠ tboxName)
    (own : ∀ e ∈ ext, e.Restoring i ecu)
    (flags : ∀ j, rback' j = (rback j || decide (.erase j ∈ ext)))
    (rolls : Rolls rest rback' ext') :
    Rolls ((ecu, i) :: rest) rback (.rollbackEcu i :: ext ++ ext') := by
  -- The work on `i` erases no other ECU, so the flags of `rest` are the former ones.
  have same : ∀ j, j ≠ i → rback' j = rback j := by
    intro j other
    rw [flags j]
    have : .erase j ∉ ext := fun mem => other (own _ mem)
    simp [this]
  have kept : ∀ j, Due rest rback' j → j ≠ i ∧ Due rest rback j := by
    rintro j ⟨ecu', mem, flag, name'⟩
    have other : j ≠ i := by
      rintro rfl
      exact new ecu' mem
    exact ⟨other, ecu', mem, same j other ▸ flag, name'⟩
  have none : ∀ j, ext.count (.rollbackEcu j) = 0 := by
    intro j
    apply List.count_eq_zero.mpr
    exact fun mem => own _ mem
  constructor
  · rintro j ⟨ecu', mem, flag, name'⟩
    rcases List.mem_cons.mp mem with eq | mem
    · cases eq
      have : ext'.count (.rollbackEcu i) = 0 := by
        apply List.count_eq_zero.mpr
        exact fun mem => (kept i (rolls.only i _ mem rfl)).1 rfl
      simp [none, this]
    · have other : j ≠ i := fun eq => new ecu' (eq ▸ mem)
      have := rolls.once j ⟨ecu', mem, (same j other).symm ▸ flag, name'⟩
      simp [none, this, other.symm]
  · intro ecu' j ver mem event
    simp only [List.cons_append, List.mem_cons, reduceCtorEq, false_or, List.mem_append] at event
    rcases List.mem_cons.mp mem with eq | mem
    · cases eq
      rcases event with event | event
      · exact (own _ event).2.symm
      · exact absurd rfl (kept i (rolls.only i _ event rfl)).1
    · rcases event with event | event
      · cases (own _ event).1
        exact absurd mem (new ecu')
      · exact rolls.source ecu' j ver mem event
  · intro j e mem programs
    simp only [List.cons_append, List.mem_cons, List.mem_append] at mem
    have here : Due ((ecu, i) :: rest) rback i := ⟨ecu, by simp, due, name⟩
    rcases mem with rfl | mem | mem
    · cases (show i = j from programs)
      exact here
    · have : j = i := by
        have own := own e mem
        cases e with
        | upgrade => exact (show _ = j from programs) ▸ own.1
        | erase => exact (show _ = j from programs) ▸ own
        | rollbackEcu => exact own.elim
        | request | checkFail | setBaud | rollback | rollbackResult => exact programs.elim
      exact this ▸ here
    · obtain ⟨_, ecu', mem, flag, name'⟩ := kept j (rolls.only j e mem programs)
      exact ⟨ecu', by simp [mem], flag, name'⟩

theorem Rolls.skip {ecu : FotaEcu} {i : Nat} {rest : List (FotaEcu × Nat)}
    {rback : Nat → Bool} {ext : List FotaEvent} (new : ∀ ecu', (ecu', i) ∉ rest)
    (skipped : ¬(rback i = true ∧ ecu.name ≠ tboxName)) (rolls : Rolls rest rback ext) :
    Rolls ((ecu, i) :: rest) rback ext := by
  have later : ∀ j, Due ((ecu, i) :: rest) rback j → Due rest rback j := by
    rintro j ⟨ecu', mem, flag, name⟩
    rcases List.mem_cons.mp mem with eq | mem
    · cases eq
      exact absurd ⟨flag, name⟩ skipped
    · exact ⟨ecu', mem, flag, name⟩
  constructor
  · exact fun j due => rolls.once j (later j due)
  · intro ecu' j ver mem event
    rcases List.mem_cons.mp mem with eq | mem
    · cases eq
      obtain ⟨ecu'', mem, _⟩ := rolls.only i _ event rfl
      exact absurd mem (new ecu'')
    · exact rolls.source ecu' j ver mem event
  · intro j e mem programs
    obtain ⟨ecu', mem, flag, name⟩ := rolls.only j e mem programs
    exact ⟨ecu', by simp [mem], flag, name⟩

theorem fotaRollbackLoop_spec (rest : List (FotaEcu × Nat)) (distinct : (rest.map (·.2)).Nodup)
    (error : Int) (w : World σ)
    (ready : ∀ ecu i, (ecu, i) ∈ rest → w.rback i = true → ecu.name ≠ tboxName →
      Reachable f ecu ∧ Loads ecu ∧ w.total ≠ 0) :
    wp (fotaRollbackLoop env f error rest)
      (fun _ w' => ∃ ext, w'.trace = w.trace ++ ext ∧ Rolls rest w.rback ext)
      (fun _ => False) w := by
  induction rest generalizing error w with
  | nil =>
    refine ⟨[], by simp, ?_, ?_, ?_⟩
    · rintro i ⟨_, mem, _⟩
      cases mem
    · exact fun _ _ _ mem => nomatch mem
    · exact fun _ _ mem => nomatch mem
  | cons head rest ih =>
    obtain ⟨ecu, i⟩ := head
    rw [List.map_cons] at distinct
    obtain ⟨fresh, distinct⟩ := List.nodup_cons.mp distinct
    have new : ∀ ecu', (ecu', i) ∉ rest :=
      fun ecu' mem => fresh (List.mem_map.mpr ⟨_, mem, rfl⟩)
    unfold fotaRollbackLoop
    rw [wp_bind, wp_get]
    apply wp_ite
    · rintro ⟨flag, name⟩
      obtain ⟨reachable, loads, work⟩ := ready ecu i (by simp) flag name
      apply wp_seq (fotaRollbackEcu_spec reachable loads w work) _ (fun _ stopped => stopped)
      rintro res w' ⟨ext, trace, own, flags, total⟩
      -- what was erased for this ECU sets no other one's flag
      have ready' : ∀ ecu' j, (ecu', j) ∈ rest → w'.rback j = true → ecu'.name ≠ tboxName →
          Reachable f ecu' ∧ Loads ecu' ∧ w'.total ≠ 0 := by
        intro ecu' j mem flag' name'
        have other : .erase j ∉ ext := by
          intro erased
          cases (show j = i from own _ erased)
          exact new ecu' mem
        rw [total]
        exact ready ecu' j (by simp [mem]) (by simpa [flags j, other] using flag') name'
      apply wp_mono (ih distinct (error + res) w' ready') _ (fun _ stopped => stopped)
      rintro _ w'' ⟨ext', trace', rolls⟩
      exact ⟨.rollbackEcu i :: ext ++ ext', by simp [trace', trace],
        Rolls.cons new flag name own flags rolls⟩
    · intro skipped
      apply wp_mono (ih distinct error w fun ecu' j mem => ready ecu' j (by simp [mem])) _
        (fun _ stopped => stopped)
      rintro _ w' ⟨ext, trace, rolls⟩
      exact ⟨ext, trace, Rolls.skip new skipped rolls⟩

end

/-! ### The whole run -/

/-- The package and its flags as `fota_load` leaves them, before anything is recorded. -/
structure FotaLoaded (f : Package) (w : World σ) : Prop where
  trace : w.trace = []
  rback : ∀ i, w.rback i = false
  tbox : ∀ ecu ∈ f.ecu, ecu.name = tboxName → ecu.tar.isSome

section

variable {env : Env σ} {f : Package}

/-- What the loop of `fota_rollback` does with the flags that the upgrade left. -/
theorem RolledBack.of_rolls {before ext : List FotaEvent} {rback : Nat → Bool} (error : Int)
    (upgrading : ∀ e ∈ before, e.Upgrading f)
    (flags : ∀ i, rback i = decide (.erase i ∈ before)) (rolls : Rolls f.ecu.zipIdx rback ext) :
    RolledBack f (before ++ .rollback :: (ext ++ [.rollbackResult error])) := by
  have clean : ∀ e ∈ before, decide (e ≠ .rollback) = true := by
    intro e mem
    simp only [decide_eq_true_eq]
    rintro rfl
    exact upgrading _ mem
  have first : upgradePart (before ++ .rollback :: (ext ++ [.rollbackResult error])) = before := by
    rw [upgradePart, List.takeWhile_append_of_pos clean]
    simp
  have second : rollbackPart (before ++ .rollback :: (ext ++ [.rollbackResult error])) =
      .rollback :: (ext ++ [.rollbackResult error]) := by
    rw [rollbackPart, List.dropWhile_append_of_pos clean]
    simp
  constructor
  · intro i ecu here name mem
    rw [first] at mem
    have due : Due f.ecu.zipIdx rback i :=
      ⟨ecu, List.mem_zipIdx_iff_getElem?.mpr here, by simpa [flags i] using mem, name⟩
    simp [second, rolls.once i due]
  · intro i ecu ver here mem
    rw [second] at mem
    simp only [List.mem_cons, reduceCtorEq, false_or, List.mem_append, List.not_mem_nil,
      or_false] at mem
    exact rolls.source ecu i ver (List.mem_zipIdx_iff_getElem?.mpr here) mem
  · intro i kept e mem programs
    rw [first] at kept
    rw [second] at mem
    simp only [List.mem_cons, List.mem_append, List.not_mem_nil, or_false] at mem
    rcases mem with rfl | mem | rfl
    · exact programs
    · obtain ⟨_, _, flag, _⟩ := rolls.only i e mem programs
      rw [flags i] at flag
      exact kept (of_decide_eq_true flag)
    · exact programs

theorem fotaExcute_rolledBack (cb : Bool) {w : World σ} (loaded : FotaLoaded f w)
    (formats : ∀ ecu ∈ f.ecu, ecu.name ≠ tboxName → ecu.src.imgLoad ≠ none ∧
      ∀ ver ∈ ecu.rel, ¬ecu.src.ver < ver.ver → ver.imgLoad ≠ none) :
    wp (fotaExcute env f cb) (fun res w' => res ≠ 0 → RolledBack f w'.trace)
      (fun w' => RolledBack f w'.trace) w := by
  have quiet : ∀ w', Quiet w w' → RolledBack f w'.trace := by
    intro w' h
    apply RolledBack.of_quiet <;> simp [h.trace, loaded.trace]
  apply wp_seq (fotaCalcWorkload_spec f w) _ quiet
  rintro workload w1 ⟨quiet1, counted⟩
  apply wp_ite
  · exact fun _ _ => quiet w1 quiet1
  · intro positive
    have counted := counted (by omega)
    have loads : ∀ ecu ∈ f.ecu, ecu.name ≠ tboxName → Loads ecu := by
      intro ecu mem name
      obtain ⟨src, rel⟩ := formats ecu mem name
      exact Loads.of_sized (counted ecu mem name).1 src rel
    have work : ∀ ecu ∈ f.ecu, ecu.name ≠ tboxName → ecu.tar.isSome → w1.total ≠ 0 := by
      intro ecu mem name tar
      have := (counted ecu mem name).2 tar
      omega
    rw [wp_bind, wp_modify]
    refine wp_seq (fotaExcuteLoop_spec f.ecu.zipIdx
      (fun ecu i mem => List.mem_zipIdx_iff_getElem?.mp mem) loads none _ work) ?_
      (fun _ stopped => stopped.elim)
    rintro ⟨error, tbox⟩ w2 ⟨⟨⟨before, trace, upgrading, rback⟩, total⟩, last⟩
    replace trace : w2.trace = before := by simpa [quiet1.trace, loaded.trace] using trace
    replace rback : ∀ i, w2.rback i = decide (.erase i ∈ before) := by
      simpa [quiet1.rback, loaded.rback] using rback
    have tar : ∀ t, tbox = some t → t.tar.isSome := by
      intro t h
      rcases last t h with none | ⟨mem, name⟩
      · cases none
      · exact loaded.tbox t mem name
    refine wp_seq (fotaTboxLast_spec error tbox w2) ?_ ?_
    rotate_left
    · rintro w' ⟨t, h, missing⟩
      simpa [missing] using tar t h
    rintro error w3 ⟨quiet3, total3⟩
    apply wp_ite
    · intro _
      -- The flags that are set belong to ECUs that the upgrade loop reached.
      have ready : ∀ ecu i, (ecu, i) ∈ f.ecu.zipIdx → w3.rback i = true →
          ecu.name ≠ tboxName → Reachable f ecu ∧ Loads ecu ∧ w3.total ≠ 0 := by
        intro ecu i mem flag name
        have here : f.ecu[i]? = some ecu := List.mem_zipIdx_iff_getElem?.mp mem
        rw [quiet3.rback, rback i] at flag
        obtain ⟨ecu', here', reachable⟩ := upgrading _ (of_decide_eq_true flag)
        cases here.symm.trans here'
        have mem := List.mem_of_getElem? here
        exact ⟨reachable, loads ecu mem name, by
          rw [total3, total]
          exact work ecu mem name reachable.tar⟩
      rw [wp_bind]
      simp only [fotaRollback, emit]
      rw [wp_bind, wp_modify, wp_bind, wp_modify]
      refine wp_seq (fotaRollbackLoop_spec f.ecu.zipIdx ?_ 0 _ ready) ?_
        (fun _ stopped => stopped.elim)
      · rw [List.zipIdx_map_snd]
        exact List.nodup_range'
      · rintro errors w4 ⟨ext, trace4, rolls⟩
        intro _
        have trace4 : w4.trace = before ++ .rollback :: ext := by
          simpa [quiet3.trace, trace] using trace4
        have := RolledBack.of_rolls errors upgrading rback (quiet3.rback ▸ rolls)
        simpa [trace4] using this
    · exact fun zero nonzero => absurd nonzero zero

/-- Whatever fails, every ECU but the T-Box that was being erased is rolled back once to its
source version, and nothing else is programmed. -/
theorem rollback_complete (cb : Bool) {w : World σ} (loaded : FotaLoaded f w)
    (formats : ∀ ecu ∈ f.ecu, ecu.name ≠ tboxName → ecu.src.imgLoad ≠ none ∧
      ∀ ver ∈ ecu.rel, ¬ecu.src.ver < ver.ver → ver.imgLoad ≠ none)
    {tr : List FotaEvent} (failed : FailedRun env f cb w tr) : RolledBack f tr := by
  have rolled := @fotaExcute_rolledBack _ env f cb w loaded formats
  cases failed with
  | fails run error => exact wp_ok rolled run error
  | stops run => exact (wp_error rolled run :)

end

/-! ### Two ECUs, the second of which refuses the first data -/

def twoEcusEnv : Env (List UInt8 × Nat) where
  tcomSendMsg _ _ s := (0, s)
  udsOpen _ _ _ _ s := (.opened, s)
  -- The state is the last answer and the number of downloads requested.
  udsRequest _ sid _ data _ s :=
    match sid with
    | 0x27 => (0, ([1, 2, 3, 4], s.2))
    | 0x31 => (0, (data.take 2 ++ [0], s.2))
    | 0x22 => (0, (data ++ [0x31], s.2))
    | 0x34 => (0, ([0x20, 0x01, 0x02], s.2 + 1))
    | 0x36 => (if s.2 = 2 then -1 else 0, s)
    | _ => (0, s)
  udsResult s := some s.1
  imgLoad _ _ _ s := (some ⟨[], ⟨0, 1, 0⟩, [7]⟩, s)
  imgCalc _ _ s := (1, s)
  callback _ s := (0, s)
  fileCopy _ s := (0, s)
  pkgupgrade s := (0, s)

/-- From version "1", whose image has the loader `src`, to version "2". -/
def twoEcus (src : Option ImgLoader) : Package :=
  let ecu := fun name : UInt8 =>
    (⟨[name], [0x31], ⟨[0x31], [0x2f], src, 0⟩, some ⟨[0x32], [0x2f], some .hex, 0⟩, [], none, [],
      1⟩ : FotaEcu)
  ⟨[0x2f], [⟨1, 500, 0x7df, [⟨[0x41], 1, 2⟩, ⟨[0x42], 3, 4⟩]⟩], [ecu 0x41, ecu 0x42]⟩

def twoEcusWorld : World (List UInt8 × Nat) :=
  ⟨([], 0), fun _ => false, false, 0, 0, false, 0, fun _ => 500, false, []⟩

def twoEcusOutcome (src : Option ImgLoader) : Bool × List FotaEvent :=
  fotaOutcome twoEcusEnv (twoEcus src) false twoEcusWorld

theorem rollback_complete_two_ecus :
    .erase 1 ∈ upgradePart (twoEcusOutcome (some .s19)).2 ∧
      RolledBack (twoEcus (some .s19)) (twoEcusOutcome (some .s19)).2 := by
  refine ⟨by decide +kernel, ?_⟩
  apply rollback_complete false (w := twoEcusWorld)
  · exact ⟨rfl, fun _ => rfl, by decide⟩
  · decide
  · exact FailedRun.of_outcome (by decide +kernel)

/-- A source version in the format `PKG` has no loader: the rollback stops at the first ECU
and the second, which was erased as well, gets no attempt. -/
theorem source_without_loader :
    ∃ tr, FailedRun twoEcusEnv (twoEcus none) false twoEcusWorld tr ∧
      FotaLoaded (twoEcus none) twoEcusWorld ∧ ¬RolledBack (twoEcus none) tr := by
  refine ⟨(twoEcusOutcome none).2, FailedRun.of_outcome (by decide +kernel),
    ⟨rfl, fun _ => rfl, by decide⟩, ?_⟩
  intro rolled
  have once := rolled.once 1 _ rfl (by decide) (by decide +kernel)
  revert once
  decide +kernel

end Fota
