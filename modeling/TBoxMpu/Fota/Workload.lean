import TBoxMpu.Fota.CoreSteps
import TBoxMpu.Lib.Tables
import Mathlib.Algebra.Order.BigOperators.Group.List
import Mathlib.Algebra.Order.Group.Int

/-!
# The workload and the T-Box

What `fota_calc_workload` adds up, in terms of what `img_calc` can answer (`S`), and the
T-Box's own upgrade. Neither touches an ECU or a port.
-/

namespace Fota

open Effects Tables

variable {σ : Type}

/-! ### The sizes of an ECU -/

/-- The related versions newer than `src`. -/
def newerThan (src : CStr) (rel : List FotaVer) : List FotaVer :=
  rel.filter fun ver => src < ver.ver

/-- A size that is counted for a version. -/
structure VerSize (S : FotaVer → Int → Prop) (ver : FotaVer) (size : Int) : Prop where
  loader : ver.imgLoad ≠ none
  positive : 0 < size
  answer : S ver size

def OptSize (S : FotaVer → Int → Prop) : Option FotaVer → Int → Prop
  | none, size => size = 0
  | some ver, size => VerSize S ver size

/-- The size of an ECU is that of its driver, its target and its newer related versions. -/
def EcuSize (S : FotaVer → Int → Prop) (ecu : FotaEcu) (size : Int) : Prop :=
  ∃ drv tar rel, OptSize S ecu.drv drv ∧ OptSize S ecu.tar tar ∧
    List.Forall₂ (VerSize S) (newerThan ecu.src.ver ecu.rel) rel ∧ size = drv + tar + rel.sum

/-- The ECUs that are counted. -/
def others (ecus : List FotaEcu) : List FotaEcu := ecus.filter (·.name ≠ tboxName)

theorem mem_others {ecus : List FotaEcu} {ecu : FotaEcu} :
    ecu ∈ others ecus ↔ ecu ∈ ecus ∧ ecu.name ≠ tboxName := by
  simp [others]

section

variable {S : FotaVer → Int → Prop}

theorem OptSize.nonneg {ver : Option FotaVer} {size : Int} (h : OptSize S ver size) :
    0 ≤ size := by
  cases ver with
  | none => exact Int.le_of_eq h.symm
  | some ver => exact Int.le_of_lt h.positive

theorem rel_nonneg {rel : List FotaVer} {sizes : List Int}
    (each : List.Forall₂ (VerSize S) rel sizes) : 0 ≤ sizes.sum :=
  List.sum_nonneg (forall₂_right each fun _ _ size => Int.le_of_lt size.positive)

theorem EcuSize.nonneg {ecu : FotaEcu} {size : Int} (h : EcuSize S ecu size) : 0 ≤ size := by
  obtain ⟨drv, tar, rel, drvSize, tarSize, relSizes, rfl⟩ := h
  have one := drvSize.nonneg
  have two := tarSize.nonneg
  have three := rel_nonneg relSizes
  omega

end

/-! ### The calculation -/

/-- Looking at image files, upgrading the T-Box and counting move along `R`. -/
structure HostFrame (env : Env σ) (R : World σ → World σ → Prop) : Prop extends Frame R where
  size : ∀ loader path, Along R (call (env.imgCalc loader path))
  copy : ∀ path, Along R (call (env.fileCopy path))
  upgrade : Along R (call env.pkgupgrade)
  counting : ∀ (w : World σ) (total : Int) (tbox : Bool),
    R w { w with total := total, tboxSelfupgrade := tbox }

/-- `S` holds of what `img_calc` answers for a version. -/
def Answers (env : Env σ) (root : CStr) (S : FotaVer → Int → Prop) : Prop :=
  ∀ ver loader s, ver.imgLoad = some loader →
    S ver (env.imgCalc loader (root ++ ver.fpath) s).1

section

variable {env : Env σ} {root : CStr} {R : World σ → World σ → Prop}
  {S : FotaVer → Int → Prop}

theorem fotaVerSize_sizes (frame : HostFrame env R) (answers : Answers env root S) (ver : FotaVer)
    (w : World σ) :
    wp (fotaVerSize env root ver)
      (fun size w' => (R w w' ∧ w'.total = w.total) ∧ (0 < size → VerSize S ver size))
      (R w) w := by
  unfold fotaVerSize
  apply wp_ite
  · exact fun _ => ⟨⟨frame.refl w, rfl⟩, fun positive => absurd positive (by decide)⟩
  · intro _
    cases h : ver.imgLoad with
    | none => exact frame.refl w
    | some loader =>
      refine ⟨⟨frame.size loader _ w, rfl⟩, fun positive => ?_⟩
      exact ⟨by simp [h], positive, answers ver loader w.env h⟩

theorem fotaOptSize_sizes (frame : HostFrame env R) (answers : Answers env root S)
    (ver : Option FotaVer) (w : World σ) :
    wp (fotaOptSize env root ver)
      (fun res w' => (R w w' ∧ w'.total = w.total) ∧ ∀ size, res = some size → OptSize S ver size)
      (R w) w := by
  cases ver with
  | none =>
    refine ⟨⟨frame.refl w, rfl⟩, ?_⟩
    rintro size ⟨⟩
    rfl
  | some ver =>
    apply wp_seq (fotaVerSize_sizes frame answers ver w)
    · rintro size w' ⟨moved, counted⟩
      refine ⟨moved, fun size' h => ?_⟩
      split at h
      · cases h
      · cases h
        exact counted (by omega)
    · exact fun _ moved => moved

theorem fotaRelSize_sizes (frame : HostFrame env R) (answers : Answers env root S) (src : CStr)
    (rel : List FotaVer) (total : Int) (nonneg : 0 ≤ total) (w : World σ) :
    wp (fotaRelSize env root src total rel)
      (fun size w' => (R w w' ∧ w'.total = w.total) ∧ (0 ≤ size →
        ∃ sizes, List.Forall₂ (VerSize S) (newerThan src rel) sizes ∧ size = total + sizes.sum))
      (R w) w := by
  induction rel generalizing total w with
  | nil => exact ⟨⟨frame.refl w, rfl⟩, fun _ => ⟨[], .nil, (Int.add_zero total).symm⟩⟩
  | cons relv rest ih =>
    unfold fotaRelSize newerThan
    apply wp_ite
    · intro old
      rw [List.filter_cons_of_neg (by simpa using old)]
      exact ih total nonneg w
    · intro newer
      rw [List.filter_cons_of_pos (by simpa using newer)]
      apply wp_seq (fotaVerSize_sizes frame answers relv w)
      · rintro size v ⟨⟨moved, same⟩, counted⟩
        apply wp_ite
        · exact fun _ => ⟨⟨moved, same⟩, fun nonneg => absurd nonneg (by decide)⟩
        · intro positive
          apply wp_mono (ih (total + size) (by omega) v)
          · rintro sum w' ⟨⟨moved', same'⟩, all⟩
            refine ⟨⟨frame.trans moved moved', same'.trans same⟩, fun nonneg => ?_⟩
            obtain ⟨sizes, each, sum⟩ := all nonneg
            refine ⟨size :: sizes, .cons (counted (by omega)) each, ?_⟩
            rw [sum, List.sum_cons, Int.add_assoc]
          · exact fun w' moved' => frame.trans moved moved'
      · exact fun _ moved => moved

theorem fotaWorkloadLoop_sizes (frame : HostFrame env R) (answers : Answers env root S)
    (ecus : List FotaEcu) (tbox : Int) (w : World σ) :
    wp (fotaWorkloadLoop env root tbox ecus)
      (fun res w' => R w w' ∧ (res ≠ none →
        ∃ sizes, List.Forall₂ (EcuSize S) (others ecus) sizes ∧ w'.total = w.total + sizes.sum))
      (R w) w := by
  induction ecus generalizing tbox w with
  | nil => exact ⟨frame.refl w, fun _ => ⟨[], .nil, (Int.add_zero w.total).symm⟩⟩
  | cons ecu rest ih =>
    unfold fotaWorkloadLoop others
    apply wp_ite
    · intro name
      rw [List.filter_cons_of_neg (by simpa using name), wp_bind, wp_modify]
      have counting := frame.counting w w.total true
      -- the T-Box adds nothing here
      apply wp_mono (ih 1 _)
      · exact fun res w' ⟨moved, all⟩ => ⟨frame.trans counting moved, all⟩
      · exact fun w' moved => frame.trans counting moved
    · intro name
      rw [List.filter_cons_of_pos (by simpa using name)]
      have counting := fun (v : World σ) (total : Int) => frame.counting v total v.tboxSelfupgrade
      -- the driver, the target and the newer related versions in turn
      refine wp_seq (fotaOptSize_sizes frame answers ecu.drv w) ?_ (fun _ moved => moved)
      rintro res w1 ⟨⟨moved1, total1⟩, drv⟩
      cases res with
      | none => exact ⟨moved1, fun counted => absurd rfl counted⟩
      | some size1 =>
        simp only [addTotal]
        rw [wp_bind, wp_modify]
        have moved1 := frame.trans moved1 (counting w1 (w1.total + size1))
        refine wp_seq (fotaOptSize_sizes frame answers ecu.tar _) ?_
          (fun _ moved => frame.trans moved1 moved)
        rintro res w2 ⟨⟨moved2, total2⟩, tar⟩
        have moved2 := frame.trans moved1 moved2
        replace total2 : w2.total = w1.total + size1 := total2
        cases res with
        | none => exact ⟨moved2, fun counted => absurd rfl counted⟩
        | some size2 =>
          rw [wp_bind, wp_modify]
          have moved2 := frame.trans moved2 (counting w2 (w2.total + size2))
          refine wp_seq (fotaRelSize_sizes frame answers ecu.src.ver ecu.rel 0 (Int.le_refl 0) _) ?_
            (fun _ moved => frame.trans moved2 moved)
          rintro size3 w3 ⟨⟨moved3, total3⟩, rel⟩
          have moved3 := frame.trans moved2 moved3
          replace total3 : w3.total = w2.total + size2 := total3
          apply wp_ite
          · exact fun _ => ⟨moved3, fun counted => absurd rfl counted⟩
          · intro nonneg
            obtain ⟨rel, relSizes, sum⟩ := rel (by omega)
            rw [wp_bind, wp_modify]
            have moved3 := frame.trans moved3 (counting w3 (w3.total + size3))
            apply wp_mono (ih tbox _)
            · rintro res w4 ⟨moved4, all⟩
              refine ⟨frame.trans moved3 moved4, fun counted => ?_⟩
              obtain ⟨sizes, each, total4⟩ := all counted
              replace total4 : w4.total = w3.total + size3 + sizes.sum := total4
              refine ⟨(size1 + size2 + rel.sum) :: sizes, .cons ?_ each, ?_⟩
              · exact ⟨size1, size2, rel, drv size1 rfl, tar size2 rfl, relSizes, rfl⟩
              · rw [List.sum_cons]
                omega
            · exact fun w' moved => frame.trans moved3 moved

/-- The total is the sum of the sizes of the ECUs. -/
theorem fotaCalcWorkload_sizes {f : Package} (frame : HostFrame env R)
    (answers : Answers env f.root S) (w : World σ) :
    wp (fotaCalcWorkload env f)
      (fun res w' => R w w' ∧ (0 < res →
        ∃ sizes, List.Forall₂ (EcuSize S) (others f.ecu) sizes ∧ w'.total = sizes.sum))
      (R w) w := by
  have counting := frame.counting w 0 w.tboxSelfupgrade
  unfold fotaCalcWorkload
  rw [wp_bind, wp_modify]
  apply wp_seq (fotaWorkloadLoop_sizes frame answers f.ecu 0 _)
  · rintro res w' ⟨moved, all⟩
    cases res with
    | none => exact ⟨frame.trans counting moved, fun positive => absurd positive (by decide)⟩
    | some tbox =>
      refine ⟨frame.trans counting moved, fun _ => ?_⟩
      obtain ⟨sizes, each, total⟩ := all (Option.some_ne_none tbox)
      exact ⟨sizes, each, total.trans (Int.zero_add _)⟩
  · exact fun w' moved => frame.trans counting moved

theorem fotaTboxLast_moves (frame : HostFrame env R) (error : Int) (tbox : Option FotaEcu)
    (w : World σ) :
    wp (fotaTboxLast env root error tbox)
      (fun error' w' => (R w w' ∧ w'.total = w.total) ∧ (error' = 0 → error = 0))
      (fun w' => R w w' ∧ ∃ t, tbox = some t ∧ t.tar = none) w := by
  cases tbox with
  | none => exact ⟨⟨frame.refl w, rfl⟩, fun zero => zero⟩
  | some tbox =>
    apply wp_ite
    · intro zero
      unfold fotaTboxUpgrade
      split
      · exact ⟨frame.refl w, tbox, rfl, ‹_›⟩
      · apply wp_ite
        · exact fun _ => ⟨⟨frame.refl w, rfl⟩, fun _ => zero⟩
        · intro _
          rw [wp_bind]
          apply wp_ite
          · exact fun _ => ⟨⟨frame.copy _ w, rfl⟩, fun _ => zero⟩
          · exact fun _ => ⟨⟨frame.trans (frame.copy _ w) (frame.upgrade _), rfl⟩, fun _ => zero⟩
    · exact fun _ => ⟨⟨frame.refl w, rfl⟩, fun zero => zero⟩

end

/-! ### Nothing is recorded -/

/-- A run that records nothing and leaves `rback`, the ports and the UDS client alone. -/
structure Quiet (w w' : World σ) : Prop where
  trace : w'.trace = w.trace
  rback : w'.rback = w.rback
  canBaud : w'.canBaud = w.canBaud
  udsOpen : w'.udsOpen = w.udsOpen

theorem Quiet.trans {u v w : World σ} (first : Quiet u v) (second : Quiet v w) : Quiet u w :=
  ⟨second.trace.trans first.trace, second.rback.trans first.rback,
    second.canBaud.trans first.canBaud, second.udsOpen.trans first.udsOpen⟩

/-- The loaders that `fota_calc_workload` calls for an ECU are there. -/
structure Sized (ecu : FotaEcu) : Prop where
  drv : ∀ ver, ecu.drv = some ver → ver.imgLoad ≠ none
  tar : ∀ ver, ecu.tar = some ver → ver.imgLoad ≠ none
  rel : ∀ ver ∈ ecu.rel, ecu.src.ver < ver.ver → ver.imgLoad ≠ none

section

variable {env : Env σ} {root : CStr} {S : FotaVer → Int → Prop}

theorem quiet_frame : HostFrame env Quiet where
  refl _ := ⟨rfl, rfl, rfl, rfl⟩
  trans := Quiet.trans
  size _ _ _ := ⟨rfl, rfl, rfl, rfl⟩
  copy _ _ := ⟨rfl, rfl, rfl, rfl⟩
  upgrade _ := ⟨rfl, rfl, rfl, rfl⟩
  counting _ _ _ := ⟨rfl, rfl, rfl, rfl⟩

theorem OptSize.loader {ver : Option FotaVer} {size : Int} (h : OptSize S ver size) :
    ∀ v, ver = some v → v.imgLoad ≠ none := by
  rintro v rfl
  exact VerSize.loader h

theorem EcuSize.sized {ecu : FotaEcu} {size : Int} (h : EcuSize S ecu size) :
    Sized ecu ∧ (ecu.tar.isSome → 0 < size) := by
  obtain ⟨drv, tar, rel, drvSize, tarSize, relSizes, rfl⟩ := h
  refine ⟨⟨drvSize.loader, tarSize.loader, fun ver mem newer => ?_⟩, fun target => ?_⟩
  · have mem : ver ∈ newerThan ecu.src.ver ecu.rel := by simp [newerThan, mem, newer]
    obtain ⟨size, -, counted⟩ := forall₂_left relSizes mem
    exact counted.loader
  · obtain ⟨ver, target⟩ := Option.isSome_iff_exists.mp target
    rw [target] at tarSize
    have one := drvSize.nonneg
    have two : 0 < tar := tarSize.positive
    have three := rel_nonneg relSizes
    omega

theorem fotaCalcWorkload_spec (f : Package) (w : World σ) :
    wp (fotaCalcWorkload env f)
      (fun res w' => Quiet w w' ∧ (0 < res → ∀ ecu ∈ f.ecu, ecu.name ≠ tboxName →
        Sized ecu ∧ (ecu.tar.isSome → 0 < w'.total)))
      (Quiet w) w := by
  have answers : Answers env f.root fun _ _ => True := fun _ _ _ _ => trivial
  apply wp_mono (fotaCalcWorkload_sizes quiet_frame answers w)
  · rintro res w' ⟨quiet, counted⟩
    refine ⟨quiet, fun positive ecu mem name => ?_⟩
    obtain ⟨sizes, each, total⟩ := counted positive
    obtain ⟨size, here, counted⟩ := forall₂_left each (mem_others.mpr ⟨mem, name⟩)
    obtain ⟨sized, more⟩ := counted.sized
    refine ⟨sized, fun target => ?_⟩
    have some := more target
    have part := List.single_le_sum (forall₂_right each fun _ _ => EcuSize.nonneg) size here
    omega
  · exact fun _ quiet => quiet

/-! ### The T-Box -/

theorem fotaTboxLast_spec (error : Int) (tbox : Option FotaEcu) (w : World σ) :
    wp (fotaTboxLast env root error tbox)
      (fun _ w' => Quiet w w' ∧ w'.total = w.total)
      (fun _ => ∃ t, tbox = some t ∧ t.tar = none) w :=
  wp_mono (fotaTboxLast_moves quiet_frame error tbox w) (fun _ _ done => done.1)
    fun _ stopped => stopped.2

end

end Fota
