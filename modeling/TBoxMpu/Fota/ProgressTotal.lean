import TBoxMpu.Fota.Progress

/-!
# Progress against the workload

`progress_iff`: the reports of a run are at most 100 and a successful run ends with
`fota->curr` equal to `fota->total` if the run starts with `fota->curr` at 0, the sizes are
estimated right, and no ECU has both a flash driver and a related version newer than its
source version: the driver is sent once for each version, but is counted once for the ECU.
-/

namespace Fota

open Effects

variable {σ α β : Type} {env : Env σ} {i : Nat} {load : ImgLoader → CStr → UInt32 → Nat}
  {count : ImgLoader → CStr → Int} {root : CStr}

/-! ### A rollback reports nothing -/

/-- Without a call-back nothing is reported, and none is set. -/
def Silent (w w' : World (σ × List Int)) : Prop :=
  w.callback = false → w'.callback = false ∧ Fair w w'

theorem silent_frame : Frame (σ := σ × List Int) Silent where
  refl _ none := ⟨none, fun _ mem => .inl mem⟩
  trans first second none :=
    ⟨(second (first none).1).1, (first none).2.trans (second (first none).1).2⟩

/-- Every run of `p` is silent, one that stops short too. -/
def Hushed (p : Job (σ × List Int) α) : Prop :=
  Within Silent Silent p

theorem Hushed.pure (a : α) : Hushed (pure a : Job (σ × List Int) α) :=
  Within.pure silent_frame.refl a

theorem Hushed.bind {p : Job (σ × List Int) α} {f : α → Job (σ × List Int) β} (first : Hushed p)
    (rest : ∀ a, Hushed (f a)) : Hushed (p >>= f) :=
  Within.bind (R := Silent) (S := Silent) (fun _ _ _ => silent_frame.trans)
    (fun _ _ _ => silent_frame.trans) first rest

theorem Sends.hushed {ok : α → Prop} {n : Nat} {p : Job (σ × List Int) α} (sends : Sends ok n p) :
    Hushed p := by
  have silent : ∀ w w' : World (σ × List Int), Counts n w w' → Silent w w' := by
    intro w w' counts none
    refine ⟨counts.callback.trans none, counts.fair fun told => ?_⟩
    rw [none] at told
    cases told
  intro w
  exact wp_mono (sends w) (fun _ w' h => silent w w' h.1) (fun w' => silent w w')

theorem fotaRollbackEcu_sends (files : ImageFiles env load count) (f : Package) (ecu : FotaEcu) :
    Sends (· = 0) (loadedOpt load f.root ecu.drv + ecu.src.loaded load f.root)
      (fotaRollbackEcu env.logged f i ecu) := by
  apply Sends.after (emit_still _)
  intro _
  split
  · apply Sends.after (fotaEnter_along still_ports)
    intro entered
    cases entered with
    | none => exact Sends.fail (by decide)
    | some baud =>
      apply Sends.closing (fotaEcuUpgrade_sends files ecu ecu.src) (fotaLeave_along still_ports)
      intro res closed
      apply Decidable.not_not.mp
      intro failed
      rw [if_pos failed] at closed
      exact absurd closed (by decide)
  · exact Sends.throw _

theorem fotaRollbackLoop_hushed (files : ImageFiles env load count) (f : Package) (error : Int)
    (ecus : List (FotaEcu × Nat)) : Hushed (fotaRollbackLoop env.logged f error ecus) := by
  induction ecus generalizing error with
  | nil => exact Hushed.pure _
  | cons entry rest ih =>
    obtain ⟨ecu, i⟩ := entry
    have looked : Hushed (get : Job (σ × List Int) (World (σ × List Int))) :=
      fun w => silent_frame.refl w
    apply Hushed.bind looked
    intro w
    apply Within.ite
    · exact fun _ => Hushed.bind (fotaRollbackEcu_sends files f ecu).hushed fun _ => ih _
    · exact fun _ => ih error

theorem fotaRollback_fair (files : ImageFiles env load count) (f : Package)
    (w : World (σ × List Int)) :
    wp (fotaRollback env.logged f) (fun _ => Fair w) (Fair w) w := by
  simp only [fotaRollback, emit]
  rw [wp_bind, wp_modify, wp_bind, wp_modify]
  -- the call-back is taken away before the first ECU
  apply wp_seq (fotaRollbackLoop_hushed files f 0 f.ecu.zipIdx _)
  · exact fun errors w' silent => (silent rfl).2
  · exact fun w' silent => (silent rfl).2

/-! ### The workload -/

def FotaVer.counted (count : ImgLoader → CStr → Int) (root : CStr) (ver : FotaVer) : Int :=
  match ver.imgLoad with
  | none => 0
  | some loader => count loader (root ++ ver.fpath)

def countedOpt (count : ImgLoader → CStr → Int) (root : CStr) : Option FotaVer → Int
  | none => 0
  | some ver => ver.counted count root

/-- What is counted for an ECU: its flash driver, its target and the newer related versions. -/
def FotaEcu.counted (count : ImgLoader → CStr → Int) (root : CStr) (ecu : FotaEcu) : Int :=
  countedOpt count root ecu.drv + countedOpt count root ecu.tar +
    ((newerThan ecu.src.ver ecu.rel).map (·.counted count root)).sum

def countedOf (count : ImgLoader → CStr → Int) (root : CStr) (ecus : List FotaEcu) : Int :=
  ((others ecus).map (·.counted count root)).sum

/-- Nothing is sent and nothing reported; only the total may change. -/
structure Tallies (w w' : World (σ × List Int)) : Prop where
  curr : w'.curr = w.curr
  reports : w'.reports = w.reports

theorem tallies_frame : HostFrame env.logged Tallies where
  refl _ := ⟨rfl, rfl⟩
  trans first second :=
    ⟨second.curr.trans first.curr, second.reports.trans first.reports⟩
  size _ _ _ := ⟨rfl, rfl⟩
  copy _ _ := ⟨rfl, rfl⟩
  upgrade _ := ⟨rfl, rfl⟩
  counting _ _ _ := ⟨rfl, rfl⟩

theorem Tallies.fair {w w' : World (σ × List Int)} (tallies : Tallies w w') : Fair w w' := by
  intro p mem
  rw [tallies.reports] at mem
  exact .inl mem

/-- Every driver has a size. -/
def DriversCount (count : ImgLoader → CStr → Int) (root : CStr) (ecus : List FotaEcu) : Prop :=
  ∀ ecu ∈ others ecus, ecu.drv ≠ none → 0 < countedOpt count root ecu.drv

/-- The size that is estimated. -/
abbrev Estimated (count : ImgLoader → CStr → Int) (root : CStr) (ver : FotaVer) (size : Int) :
    Prop :=
  size = ver.counted count root

theorem OptSize.counted {ver : Option FotaVer} {size : Int}
    (h : OptSize (Estimated count root) ver size) :
    size = countedOpt count root ver ∧ (ver ≠ none → 0 < size) := by
  cases ver with
  | none => exact ⟨h, fun some => absurd rfl some⟩
  | some ver => exact ⟨h.answer, fun _ => h.positive⟩

theorem rel_counted {rel : List FotaVer} {sizes : List Int}
    (each : List.Forall₂ (VerSize (Estimated count root)) rel sizes) :
    sizes = rel.map (·.counted count root) := by
  induction each with
  | nil => rfl
  | cons first _ ih => rw [List.map_cons, ← ih, first.answer]

theorem EcuSize.counted {ecu : FotaEcu} {size : Int}
    (h : EcuSize (Estimated count root) ecu size) :
    size = ecu.counted count root ∧ (ecu.drv ≠ none → 0 < countedOpt count root ecu.drv) := by
  obtain ⟨drv, tar, rel, drvSize, tarSize, relSizes, rfl⟩ := h
  obtain ⟨rfl, some⟩ := drvSize.counted
  rw [tarSize.counted.1, rel_counted relSizes]
  exact ⟨rfl, some⟩

theorem fotaCalcWorkload_counted (files : ImageFiles env load count) (f : Package)
    (w : World (σ × List Int)) :
    wp (fotaCalcWorkload env.logged f)
      (fun res w' => Tallies w w' ∧ (0 < res →
        w'.total = countedOf count f.root f.ecu ∧ DriversCount count f.root f.ecu))
      (Tallies w) w := by
  have answers : Answers env.logged f.root (Estimated count f.root) := by
    intro ver loader s h
    unfold Estimated FotaVer.counted
    rw [h]
    exact files.counts loader _ s.1
  apply wp_mono (fotaCalcWorkload_sizes tallies_frame answers w)
  · rintro res w' ⟨tallies, all⟩
    refine ⟨tallies, fun positive => ?_⟩
    obtain ⟨sizes, each, total⟩ := all positive
    unfold countedOf DriversCount
    rw [total]
    generalize others f.ecu = ecus at each
    clear total
    induction each with
    | nil => exact ⟨rfl, nofun⟩
    | cons first _ ih =>
      obtain ⟨sum, drivers⟩ := ih
      obtain ⟨rfl, some⟩ := first.counted
      rw [List.map_cons, List.sum_cons, List.sum_cons, sum]
      exact ⟨rfl, List.forall_mem_cons.mpr ⟨some, drivers⟩⟩
  · exact fun _ tallies => tallies

/-! ### A whole run -/

/-- The total has room for what the ECUs are sent. -/
def Room (load : ImgLoader → CStr → UInt32 → Nat) (count : ImgLoader → CStr → Int) (f : Package)
    (w : World (σ × List Int)) : Prop :=
  0 ≤ w.curr ∧ w.curr + workOf load f.root f.ecu ≤ countedOf count f.root f.ecu

theorem fotaExcute_progress (files : ImageFiles env load count) (same : SameVersion env)
    (f : Package) (cb : Bool) (w : World (σ × List Int)) :
    wp (fotaExcute env.logged f cb)
      (fun res w' => (Room load count f w → Fair w w') ∧ (res = 0 →
        w'.curr = w.curr + workOf load f.root f.ecu ∧ w'.total = countedOf count f.root f.ecu ∧
          DriversCount count f.root f.ecu))
      (fun w' => Room load count f w → Fair w w') w := by
  apply wp_seq (fotaCalcWorkload_counted files f w)
  · rintro size w1 ⟨tallies, counted⟩
    apply wp_ite
    · exact fun _ => ⟨fun _ => tallies.fair, fun zero => absurd zero (by decide)⟩
    intro positive
    obtain ⟨total, drivers⟩ := counted (by omega)
    rw [wp_bind, wp_modify]
    have run := fotaExcuteLoop_sends files same f none f.ecu.zipIdx { w1 with callback := cb }
    rw [List.zipIdx_map_fst] at run
    have fair : ∀ w2, Counts (workOf load f.root f.ecu) { w1 with callback := cb } w2 →
        Room load count f w → Fair w w2 := by
      intro w2 counts room
      apply tallies.fair.trans
      apply counts.fair
      intro _
      unfold Room at room
      rw [← tallies.curr, ← total] at room
      exact room
    apply wp_seq run
    · rintro ⟨error, tbox⟩ w2 ⟨counts, all⟩
      apply wp_seq (fotaTboxLast_moves tallies_frame error tbox w2)
      · rintro error' w3 ⟨⟨still, same⟩, zero⟩
        apply wp_ite
        · -- an upgrade that failed is rolled back
          intro failed
          apply wp_seq (fotaRollback_fair files f w3)
          · exact fun _ w4 last => ⟨fun room => (fair w2 counts room).trans (still.fair.trans last),
              fun done => absurd done failed⟩
          · exact fun w4 last room => (fair w2 counts room).trans (still.fair.trans last)
        · -- all blocks were sent
          intro _
          refine ⟨fun room => (fair w2 counts room).trans still.fair, fun done => ?_⟩
          refine ⟨?_, ?_, drivers⟩
          · rw [still.curr, all (zero done)]
            exact congrArg (· + _) tallies.curr
          · rw [same, counts.total]
            exact total
      · exact fun w3 ⟨still, _⟩ room => (fair w2 counts room).trans still.fair
    · exact fun w2 counts => fair w2 counts
  · exact fun w' tallies _ => tallies.fair

/-! ### What is sent and what is counted -/

/-- The sizes of the versions in use are estimated right. -/
def Measured (load : ImgLoader → CStr → UInt32 → Nat) (count : ImgLoader → CStr → Int)
    (f : Package) : Prop :=
  ∀ ecu ∈ others f.ecu,
    ∀ ver ∈ ecu.drv.toList ++ ecu.tar.toList ++ newerThan ecu.src.ver ecu.rel,
      ver.counted count f.root = ver.loaded load f.root

instance (f : Package) : Decidable (Measured load count f) :=
  inferInstanceAs (Decidable (∀ ecu ∈ others f.ecu,
    ∀ ver ∈ ecu.drv.toList ++ ecu.tar.toList ++ newerThan ecu.src.ver ecu.rel,
      ver.counted count f.root = ver.loaded load f.root))

/-- No ECU has both a flash driver and a related version newer than its source version. -/
def DriverOnce (f : Package) : Prop :=
  ∀ ecu ∈ others f.ecu, ecu.drv = none ∨ newerThan ecu.src.ver ecu.rel = []

instance (f : Package) : Decidable (DriverOnce f) :=
  inferInstanceAs (Decidable (∀ ecu ∈ others f.ecu,
    ecu.drv = none ∨ newerThan ecu.src.ver ecu.rel = []))

/-- What is sent beyond what is counted: the flash driver before each related version. -/
def FotaEcu.again (load : ImgLoader → CStr → UInt32 → Nat) (root : CStr) (ecu : FotaEcu) : Nat :=
  (newerThan ecu.src.ver ecu.rel).length * loadedOpt load root ecu.drv

theorem countedOpt_eq {ver : Option FotaVer}
    (measured : ∀ v ∈ ver.toList, v.counted count root = v.loaded load root) :
    countedOpt count root ver = loadedOpt load root ver := by
  cases ver with
  | none => rfl
  | some v => exact measured v (by simp)

theorem sum_with_driver (drv : Nat) {rel : List FotaVer}
    (measured : ∀ v ∈ rel, v.counted count root = v.loaded load root) :
    (((rel.map fun v => drv + v.loaded load root).sum : Nat) : Int) =
      (rel.map (·.counted count root)).sum + (rel.length * drv : Nat) := by
  induction rel with
  | nil => simp
  | cons v rest ih =>
    obtain ⟨first, later⟩ := List.forall_mem_cons.mp measured
    have ih := ih later
    simp only [List.map_cons, List.sum_cons, List.length_cons, Nat.add_mul, Nat.one_mul]
    omega

theorem FotaEcu.work_eq {ecu : FotaEcu}
    (measured : ∀ ver ∈ ecu.drv.toList ++ ecu.tar.toList ++ newerThan ecu.src.ver ecu.rel,
      ver.counted count root = ver.loaded load root) :
    (ecu.work load root : Int) = ecu.counted count root + ecu.again load root := by
  simp only [List.forall_mem_append] at measured
  obtain ⟨⟨drv, tar⟩, rel⟩ := measured
  have related := sum_with_driver (loadedOpt load root ecu.drv) rel
  have driver := countedOpt_eq drv
  have target := countedOpt_eq tar
  unfold FotaEcu.work FotaEcu.counted FotaEcu.again
  omega

theorem workOf_eq {f : Package} (measured : Measured load count f) :
    (workOf load f.root f.ecu : Int) = countedOf count f.root f.ecu +
      ((others f.ecu).map (·.again load f.root)).sum := by
  unfold Measured at measured
  unfold workOf countedOf
  generalize others f.ecu = ecus at measured ⊢
  induction ecus with
  | nil => rfl
  | cons ecu rest ih =>
    obtain ⟨first, later⟩ := List.forall_mem_cons.mp measured
    have first := FotaEcu.work_eq first
    have ih := ih later
    simp only [List.map_cons, List.sum_cons]
    omega

theorem DriverOnce.again {f : Package} (once : DriverOnce f) :
    ((others f.ecu).map (·.again load f.root)).sum = 0 := by
  rw [List.sum_eq_zero_iff_forall_eq_nat]
  intro n mem
  obtain ⟨ecu, here, rfl⟩ := List.mem_map.mp mem
  unfold FotaEcu.again
  rcases once ecu here with none | none
  · rw [none]
    exact Nat.mul_zero _
  · rw [none]
    exact Nat.zero_mul _

theorem DriverOnce.of_again {f : Package} (measured : Measured load count f)
    (drivers : DriversCount count f.root f.ecu)
    (none : ((others f.ecu).map (·.again load f.root)).sum = 0) : DriverOnce f := by
  intro ecu mem
  rw [List.sum_eq_zero_iff_forall_eq_nat] at none
  have zero : ecu.again load f.root = 0 := none _ (List.mem_map_of_mem mem)
  rcases Nat.mul_eq_zero.mp zero with empty | empty
  · exact .inr (List.length_eq_zero_iff.mp empty)
  · refine .inl (Decidable.not_not.mp fun some => ?_)
    -- its driver has a size, or the workload would not have been calculated
    have size := drivers ecu mem some
    rw [countedOpt_eq fun v drv => measured ecu mem v (by simp [drv])] at size
    omega

/-! ### The progress of a run -/

/-- How a run ends and what it has reported; no result if it stops short. -/
structure Progress where
  result : Option Int
  reports : List Int
  curr : Int
  total : Int
  deriving DecidableEq, Repr

def progressOf (env : Env σ) (f : Package) (cb : Bool) (w : World σ) : Progress :=
  match fotaExcute env.logged f cb w.watched with
  | .ok res w' => ⟨some res, w'.reports, w'.curr, w'.total⟩
  | .error _ w' => ⟨none, w'.reports, w'.curr, w'.total⟩

/-- No report above 100, and all that was counted is done in the end. -/
structure Progress.Right (p : Progress) : Prop where
  reports : ∀ percent ∈ p.reports, percent ≤ 100
  done : p.result = some 0 → p.curr = p.total

instance (p : Progress) : Decidable p.Right :=
  decidable_of_iff
    ((∀ percent ∈ p.reports, percent ≤ 100) ∧ (p.result = some 0 → p.curr = p.total))
    ⟨fun ⟨reports, done⟩ => ⟨reports, done⟩, fun right => ⟨right.reports, right.done⟩⟩

theorem progressOf_spec (files : ImageFiles env load count) (same : SameVersion env)
    (f : Package) (cb : Bool) (w : World σ) :
    (Room load count f w.watched → ∀ percent ∈ (progressOf env f cb w).reports, percent ≤ 100) ∧
    ((progressOf env f cb w).result = some 0 →
      (progressOf env f cb w).curr = w.curr + workOf load f.root f.ecu ∧
      (progressOf env f cb w).total = countedOf count f.root f.ecu ∧
      DriversCount count f.root f.ecu) := by
  have spec := fotaExcute_progress files same f cb w.watched
  have fromStart : ∀ w', Fair w.watched w' → ∀ percent ∈ w'.reports, percent ≤ 100 := by
    intro w' fair percent mem
    rcases fair percent mem with before | small
    · cases before
    · exact small
  unfold progressOf
  split
  next res w' run =>
    obtain ⟨fair, done⟩ := wp_ok spec run
    refine ⟨fun room => fromStart w' (fair room), fun zero => ?_⟩
    exact done (Option.some.inj zero)
  next run => exact ⟨fun room => fromStart _ (wp_error spec run room), nofun⟩

/-- The run starts with nothing done, the estimates are right, and no driver is sent twice. -/
structure Balanced (load : ImgLoader → CStr → UInt32 → Nat) (count : ImgLoader → CStr → Int)
    (f : Package) (w : World σ) : Prop where
  fresh : w.curr = 0
  measured : Measured load count f
  once : DriverOnce f

/-- In every run from such a state no report is above 100, and a successful one ends with all
the work done; with right estimates a successful run is so from no other state. -/
theorem progress_iff (files : ImageFiles env load count) (same : SameVersion env)
    (f : Package) (cb : Bool) (w : World σ) :
    (Balanced load count f w → (progressOf env f cb w).Right) ∧
    ((progressOf env f cb w).result = some 0 → Measured load count f → 0 ≤ w.curr →
      ((progressOf env f cb w).Right ↔ w.curr = 0 ∧ DriverOnce f)) := by
  obtain ⟨fair, done⟩ := progressOf_spec files same f cb w
  constructor
  · rintro ⟨fresh, measured, once⟩
    have work := workOf_eq measured
    rw [once.again] at work
    constructor
    · apply fair
      have room : 0 ≤ w.curr ∧ w.curr + workOf load f.root f.ecu ≤ countedOf count f.root f.ecu := by
        omega
      exact room
    · intro zero
      obtain ⟨curr, total, -⟩ := done zero
      omega
  · intro zero measured nonneg
    obtain ⟨curr, total, drivers⟩ := done zero
    have work := workOf_eq measured
    constructor
    · intro right
      have equal := right.done zero
      exact ⟨by omega, DriverOnce.of_again measured drivers (by omega)⟩
    · rintro ⟨fresh, once⟩
      rw [once.again] at work
      refine ⟨fair ⟨nonneg, ?_⟩, fun _ => by omega⟩
      change w.curr + _ ≤ _
      omega

/-! ### One ECU with a flash driver -/

/-- An ECU in version "1" that takes everything; all images are one byte long. The state is
its last answer. -/
def oneByteEnv : Env (List UInt8) where
  tcomSendMsg _ _ s := (0, s)
  udsOpen _ _ _ _ s := (.opened, s)
  udsRequest _ sid _ data _ s :=
    match sid with
    | 0x27 => (0, [1, 2, 3, 4])
    | 0x31 => (0, data.take 2 ++ [0])
    | 0x22 => (0, data ++ [0x31])
    | 0x34 => (0, [0x20, 0x01, 0x02])
    | _ => (0, s)
  udsResult s := some s
  imgLoad _ _ _ s := (some ⟨[], ⟨0, 1, 0⟩, [7]⟩, s)
  imgCalc _ _ s := (1, s)
  callback _ s := (0, s)
  fileCopy _ s := (0, s)
  pkgupgrade s := (0, s)

/-- From version "1" to version "3", by way of `rel`. -/
def withDriver (rel : List FotaVer) : Package where
  root := [0x2f]
  bus := [⟨1, 500, 0x7df, [⟨[0x41], 1, 2⟩]⟩]
  ecu := [⟨[0x41], [0x31], ⟨[0x31], [0x2f], some .hex, 0⟩, some ⟨[0x33], [0x2f], some .hex, 0⟩, rel,
    some ⟨[0x64], [0x2f], some .hex, 0⟩, [], 1⟩]

def atRest : World (List UInt8) :=
  ⟨[], fun _ => false, false, 0, 0, false, 0, fun _ => 500, false, []⟩

theorem oneByteEnv_files : ImageFiles oneByteEnv (fun _ _ _ => 1) (fun _ _ => 1) where
  loads loader path attr s img given := by
    cases given
    decide
  counts _ _ _ := rfl

theorem oneByteEnv_sameVersion : SameVersion oneByteEnv :=
  fun _ _ _ => rfl

theorem progress_without_related :
    progressOf oneByteEnv (withDriver []) true atRest = ⟨some 0, [50, 100], 2, 2⟩ ∧
    (progressOf oneByteEnv (withDriver []) true atRest).Right := by
  refine ⟨by decide +kernel, ?_⟩
  apply (progress_iff oneByteEnv_files oneByteEnv_sameVersion (withDriver []) true atRest).1
  exact ⟨rfl, by decide, by decide⟩

/-- On the way over version "2" the driver is sent twice and counted once. -/
theorem driver_sent_twice :
    progressOf oneByteEnv (withDriver [⟨[0x32], [0x2f], some .hex, 0⟩]) true atRest =
      ⟨some 0, [33, 66, 100, 133], 4, 3⟩ ∧
    ¬(progressOf oneByteEnv (withDriver [⟨[0x32], [0x2f], some .hex, 0⟩]) true atRest).Right := by
  decide +kernel

end Fota
