import TBoxMpu.Fota.Blocks
import TBoxMpu.Fota.Workload

/-!
# What an upgrade reports as done

`Sends ok n p`: `p` adds at most `n` bytes to `fota->curr`, exactly `n` when it returns
something `ok`, and what it reports on the way is at most 100 if the workload has room for
`n` bytes more. Each function that programs is given its `n`; the flash driver is in it once
for every version that is programmed.
-/

namespace Fota

open Effects

variable {σ α β : Type}

/-! ### Reports written down -/

def keepLog (f : σ → α × σ) (s : σ × List Int) : α × (σ × List Int) :=
  ((f s.1).1, ((f s.1).2, s.2))

/-- The environment with a call-back that writes down what it is told. -/
def Env.logged (env : Env σ) : Env (σ × List Int) where
  tcomSendMsg port baud := keepLog (env.tcomSendMsg port baud)
  udsOpen port fid rid pid := keepLog (env.udsOpen port fid rid pid)
  udsRequest bc sid sub data timeout := keepLog (env.udsRequest bc sid sub data timeout)
  udsResult s := env.udsResult s.1
  imgLoad loader path attr := keepLog (env.imgLoad loader path attr)
  imgCalc loader path := keepLog (env.imgCalc loader path)
  callback percent s :=
    ((env.callback percent s.1).1, ((env.callback percent s.1).2, s.2 ++ [percent]))
  fileCopy path := keepLog (env.fileCopy path)
  pkgupgrade := keepLog env.pkgupgrade

def World.watched (w : World σ) : World (σ × List Int) :=
  { w with env := (w.env, []) }

def World.reports (w : World (σ × List Int)) : List Int := w.env.2

/-! ### RunsVersion that count -/

/-- Nothing that the progress depends on was changed, nothing was reported. -/
structure Still (w w' : World (σ × List Int)) : Prop where
  curr : w'.curr = w.curr
  total : w'.total = w.total
  callback : w'.callback = w.callback
  reports : w'.reports = w.reports

theorem Still.refl (w : World (σ × List Int)) : Still w w :=
  ⟨rfl, rfl, rfl, rfl⟩

theorem Still.trans {u v w : World (σ × List Int)} (first : Still u v) (second : Still v w) :
    Still u w :=
  ⟨second.curr.trans first.curr, second.total.trans first.total,
    second.callback.trans first.callback, second.reports.trans first.reports⟩

/-- What was reported since is at most 100. -/
def Fair (w w' : World (σ × List Int)) : Prop :=
  ∀ p ∈ w'.reports, p ∈ w.reports ∨ p ≤ 100

theorem Fair.trans {u v w : World (σ × List Int)} (first : Fair u v) (second : Fair v w) :
    Fair u w := by
  intro p mem
  rcases second p mem with mem | small
  · exact first p mem
  · exact .inr small

theorem Still.fair {w w' : World (σ × List Int)} (still : Still w w') : Fair w w' := by
  intro p mem
  rw [still.reports] at mem
  exact .inl mem

/-- At most `n` bytes were counted, and reported fairly if the workload has room for them. -/
structure Counts (n : Nat) (w w' : World (σ × List Int)) : Prop where
  total : w'.total = w.total
  callback : w'.callback = w.callback
  least : w.curr ≤ w'.curr
  most : w'.curr ≤ w.curr + n
  fair : (w.callback = true → 0 ≤ w.curr ∧ w.curr + n ≤ w.total) → Fair w w'

theorem Still.counts {w w' : World (σ × List Int)} (still : Still w w') (n : Nat) :
    Counts n w w' := by
  have same := still.curr
  exact ⟨still.total, still.callback, by omega, by omega, fun _ => still.fair⟩

theorem Counts.weaken {n m : Nat} {w w' : World (σ × List Int)} (counts : Counts n w w')
    (le : n ≤ m) : Counts m w w' := by
  have most := counts.most
  refine ⟨counts.total, counts.callback, counts.least, by omega, fun room => counts.fair ?_⟩
  intro told
  have room := room told
  omega

theorem Counts.trans {n m : Nat} {u v w : World (σ × List Int)} (first : Counts n u v)
    (all : v.curr = u.curr + n) (second : Counts m v w) : Counts (n + m) u w := by
  have least := second.least
  have most := second.most
  refine ⟨second.total.trans first.total, second.callback.trans first.callback, by omega,
    by omega, fun room => ?_⟩
  have fair : Fair u v := by
    apply first.fair
    intro told
    have room := room told
    omega
  apply fair.trans
  apply second.fair
  intro told
  rw [first.callback] at told
  have room := room told
  have total := first.total
  omega

theorem Counts.still {n : Nat} {u v w : World (σ × List Int)} (counts : Counts n u v)
    (still : Still v w) : Counts n u w := by
  have same := still.curr
  have least := counts.least
  have most := counts.most
  exact ⟨still.total.trans counts.total, still.callback.trans counts.callback, by omega,
    by omega, fun room => (counts.fair room).trans still.fair⟩

/-- What `p` adds from `w` on, counted from `u`. -/
def SendsFrom (ok : α → Prop) (n : Nat) (u : World (σ × List Int)) (p : Job (σ × List Int) α)
    (w : World (σ × List Int)) : Prop :=
  wp p (fun a w' => Counts n u w' ∧ (ok a → w'.curr = u.curr + n)) (Counts n u) w

def Sends (ok : α → Prop) (n : Nat) (p : Job (σ × List Int) α) : Prop :=
  ∀ w, SendsFrom ok n w p w

/-- Nothing is sent, and what is returned is not `ok`. -/
def Fails (ok : α → Prop) (p : Job (σ × List Int) α) : Prop :=
  ∀ w, wp p (fun a w' => Still w w' ∧ ¬ok a) (fun _ => False) w

section

variable {ok : α → Prop} {n m : Nat}

theorem Fails.pure {a : α} (no : ¬ok a) : Fails ok (pure a : Job (σ × List Int) α) :=
  fun w => ⟨Still.refl w, no⟩

theorem Fails.after {p : Job (σ × List Int) β} {f : β → Job (σ × List Int) α}
    (still : Along Still p) (rest : ∀ b, Fails ok (f b)) : Fails ok (p >>= f) := by
  intro w
  apply wp_seq (still w)
  · intro b u moved
    apply wp_mono (rest b u)
    · exact fun a w' ⟨last, no⟩ => ⟨moved.trans last, no⟩
    · exact fun _ stopped => stopped
  · exact fun _ stopped => stopped.elim

theorem Fails.sends {p : Job (σ × List Int) α} (fails : Fails ok p) : Sends ok n p := by
  intro w
  apply wp_mono (fails w)
  · exact fun a w' ⟨still, no⟩ => ⟨still.counts n, fun yes => absurd yes no⟩
  · exact fun _ stopped => stopped.elim

theorem Sends.fail {a : α} (no : ¬ok a) : Sends ok n (Pure.pure a : Job (σ × List Int) α) :=
  (Fails.pure no).sends

theorem Sends.pure (a : α) : Sends ok 0 (Pure.pure a : Job (σ × List Int) α) :=
  fun w => ⟨(Still.refl w).counts 0, fun _ => (Int.add_zero w.curr).symm⟩

theorem Sends.throw (e : Crash) : Sends ok n (throw e : Job (σ × List Int) α) :=
  fun w => (Still.refl w).counts n

theorem Sends.ite {c : Prop} [Decidable c] {p q : Job (σ × List Int) α} (yes : c → Sends ok n p)
    (no : ¬c → Sends ok n q) : Sends ok n (if c then p else q) :=
  fun _ => wp_ite (fun h => yes h _) (fun h => no h _)

/-- Going on when `n` bytes are counted. -/
theorem SendsFrom.counted {p : Job (σ × List Int) α} {u v : World (σ × List Int)}
    (counts : Counts n u v) (all : v.curr = u.curr + n) (sends : SendsFrom ok m v p v) :
    SendsFrom ok (n + m) u p v := by
  apply wp_mono sends
  · intro a w' ⟨later, every⟩
    refine ⟨counts.trans all later, fun yes => ?_⟩
    have every := every yes
    omega
  · exact fun w' later => counts.trans all later

theorem SendsFrom.of_still {p : Job (σ × List Int) α} {u v : World (σ × List Int)}
    (still : Still u v) (sends : SendsFrom ok n v p v) : SendsFrom ok n u p v := by
  rw [← Nat.zero_add n]
  apply SendsFrom.counted (still.counts 0) _ sends
  rw [still.curr]
  exact (Int.add_zero u.curr).symm

theorem Sends.afterThat {p : Job (σ × List Int) β} {f : β → Job (σ × List Int) α}
    {P : β → World (σ × List Int) → Prop}
    (first : ∀ w, wp p (fun b w' => Still w w' ∧ P b w') (fun _ => False) w)
    (rest : ∀ b v, P b v → SendsFrom ok n v (f b) v) : Sends ok n (p >>= f) := by
  intro w
  apply wp_seq (first w)
  · exact fun b v ⟨still, known⟩ => SendsFrom.of_still still (rest b v known)
  · exact fun _ stopped => stopped.elim

theorem Sends.after {p : Job (σ × List Int) β} {f : β → Job (σ × List Int) α}
    (still : Along Still p) (rest : ∀ b, Sends ok n (f b)) : Sends ok n (p >>= f) := by
  intro w
  apply wp_seq (still w)
  · exact fun b v moved => SendsFrom.of_still moved (rest b v)
  · exact fun _ stopped => stopped.elim

/-- The common step: what follows is done only if `p` has returned 0. -/
theorem SendsFrom.orFail {p : Job (σ × List Int) Int} {e q : Int → Job (σ × List Int) α}
    {w : World (σ × List Int)} (first : SendsFrom (· = 0) n w p w)
    (fails : ∀ r, r ≠ 0 → Fails ok (e r)) (rest : ∀ r, Sends ok m (q r)) :
    SendsFrom ok (n + m) w (p >>= fun r => if r ≠ 0 then e r else q r) w := by
  apply wp_seq first
  · intro r v ⟨counts, all⟩
    apply wp_ite
    · intro failed
      apply wp_mono (fails r failed v)
      · intro a w' ⟨still, no⟩
        exact ⟨(counts.still still).weaken (by omega), fun yes => absurd yes no⟩
      · exact fun _ stopped => stopped.elim
    · exact fun zero => SendsFrom.counted counts (all (Decidable.not_not.mp zero)) (rest r v)
  · exact fun w' counts => counts.weaken (by omega)

theorem Sends.orFail {p : Job (σ × List Int) Int} {e q : Int → Job (σ × List Int) α}
    (first : Sends (· = 0) n p) (fails : ∀ r, r ≠ 0 → Fails ok (e r))
    (rest : ∀ r, Sends ok m (q r)) :
    Sends ok (n + m) (p >>= fun r => if r ≠ 0 then e r else q r) :=
  fun w => SendsFrom.orFail (first w) fails rest

/-- What comes behind `p` changes nothing but the result. -/
theorem Sends.closing {ok' : β → Prop} {p : Job (σ × List Int) α} {q : Job (σ × List Int) Unit}
    {g : α → β} (first : Sends ok n p) (still : Along Still q) (back : ∀ a, ok' (g a) → ok a) :
    Sends ok' n (do let a ← p; q; Pure.pure (g a)) := by
  intro w
  apply wp_seq (first w)
  · intro a v ⟨counts, all⟩
    apply wp_seq (still v)
    · intro _ w' moved
      refine ⟨counts.still moved, fun yes => ?_⟩
      rw [moved.curr, all (back a yes)]
    · exact fun _ stopped => stopped.elim
  · exact fun _ counts => counts

end

/-! ### One image -/

section

variable {env : Env σ} {i : Nat}

theorem still_frame : UdsFrame env.logged i Still where
  refl := Still.refl
  trans := Still.trans
  request _ _ _ _ _ _ := ⟨rfl, rfl, rfl, rfl⟩
  counter _ _ := ⟨rfl, rfl, rfl, rfl⟩
  erase _ := ⟨rfl, rfl, rfl, rfl⟩

theorem still_ports : PortFrame env.logged i Still where
  refl := Still.refl
  trans := Still.trans
  told _ _ _ _ := ⟨rfl, rfl, rfl, rfl⟩
  message _ _ _ := ⟨rfl, rfl, rfl, rfl⟩
  ask _ _ _ _ _ := ⟨rfl, rfl, rfl, rfl⟩
  rate _ _ := ⟨rfl, rfl, rfl, rfl⟩
  client _ _ := ⟨rfl, rfl, rfl, rfl⟩

theorem check_still {id : UInt8 × UInt8} {par : List UInt8} {timeout : Nat} (r : Bool → Int) :
    Along Still (do pure (r (← fotonRoutine env.logged id par timeout))) :=
  routine_along (i := 0) still_frame r

theorem emit_still (e : FotaEvent) : Along Still (emit e : Job (σ × List Int) Unit) :=
  fun _ => ⟨rfl, rfl, rfl, rfl⟩

/-- The product of the percentage is an `int`: it may wrap, but never upwards. -/
theorem percent_le {curr total : Int} (nonneg : 0 ≤ curr) (le : curr ≤ total) (some : total ≠ 0) :
    (Int32.ofInt (curr * 100)).toInt.tdiv total ≤ 100 := by
  have wraps : (Int32.ofInt (curr * 100)).toInt ≤ curr * 100 := by
    rw [Int32.toInt_ofInt, Int.bmod_def]
    have size : ((Int32.size : Nat) : Int) = 4294967296 := rfl
    rw [size]
    omega
  calc (Int32.ofInt (curr * 100)).toInt.tdiv total
      ≤ (100 * total).tdiv total := Int.tdiv_le_tdiv (by omega) (by omega)
    _ = 100 := Int.mul_tdiv_cancel 100 some

theorem capped_le {percent : Int} {cap : Prop} [Decidable cap] (le : percent ≤ 100) :
    (if cap then 90 else percent) ≤ 100 := by
  split <;> omega

theorem counts_sent (w : World (σ × List Int)) (n : Nat) :
    Counts n w { w with curr := w.curr + n } :=
  ⟨rfl, rfl, Int.le_add_of_nonneg_right (Int.natCast_nonneg n), Int.le_refl _,
    fun _ _ mem => .inl mem⟩

/-- The call-back was told how much is done. -/
theorem counts_told (env : Env σ) (w : World (σ × List Int)) (n : Nat) {percent : Int}
    (le : 0 ≤ w.curr ∧ w.curr + n ≤ w.total → percent ≤ 100) (told : w.callback = true) :
    Counts n w { w with
      curr := w.curr + n
      env := (env.logged.callback percent w.env).2 } := by
  refine { counts_sent w n with fair := fun room p mem => ?_ }
  rcases List.mem_append.mp mem with before | now
  · exact .inl before
  · rw [List.mem_singleton.mp now]
    exact .inr (le (room told))

theorem fotaTransfer_sends (pieces : List (List UInt8)) :
    Sends (· = 0) (pieces.map List.length).sum (fotaTransfer env.logged pieces) := by
  induction pieces with
  | nil => exact Sends.pure 0
  | cons block rest ih =>
    rw [List.map_cons, List.sum_cons]
    apply Sends.after (fotaUdsTransData_along (i := 0) still_frame)
    intro res
    apply Sends.ite (fun _ => Sends.fail (by decide))
    intro _ w
    unfold SendsFrom
    rw [wp_bind, wp_modify, wp_bind, wp_get]
    apply wp_ite
    · exact fun _ => (counts_sent w block.length).weaken (by omega)
    intro some
    apply wp_ite
    · intro told
      let percent := (Int32.ofInt ((w.curr + block.length) * 100)).toInt.tdiv w.total
      have small : 0 ≤ w.curr ∧ w.curr + block.length ≤ w.total →
          (if w.tboxSelfupgrade = true ∧ percent ≥ 90 then 90 else percent) ≤ 100 :=
        fun room => capped_le (percent_le (by omega) room.2 some)
      have counts := counts_told env w block.length small told
      rw [wp_bind]
      apply wp_ite
      · exact fun _ => ⟨counts.weaken (by omega), fun zero => absurd zero (by decide)⟩
      · exact fun _ => SendsFrom.counted counts rfl (ih _)
    · exact fun _ => SendsFrom.counted (counts_sent w block.length) rfl (ih _)

/-- The bytes of all sections. -/
def FotaImg.length (img : FotaImg) : Nat := (img.sects.map fun sect => (img.bytes sect).length).sum

theorem fotaProgramSects_sends (img : FotaImg) (sects : List ImgSect) :
    Sends (· = 0) (sects.map fun sect => (img.bytes sect).length).sum
      (fotaProgramSects env.logged img sects) := by
  induction sects with
  | nil => exact Sends.pure 0
  | cons sect rest ih =>
    rw [List.map_cons, List.sum_cons]
    apply Sends.after (fotaUdsReqDownload_along (i := 0) still_frame)
    intro plen
    apply Sends.ite (fun _ => Sends.fail (by decide))
    intro some
    -- whatever length the ECU chooses, the blocks are the whole section
    have room : 0 < plen.toNat := by omega
    have whole := blocks_flatten room (img.bytes sect).length (img.bytes sect) (Nat.le_refl _)
    rw [← whole, List.length_flatten, whole]
    apply Sends.orFail (fotaTransfer_sends _)
    · exact fun _ _ => Fails.pure (by decide)
    intro _
    apply Sends.after (fotaUdsRequest_along (i := 0) still_frame)
    exact fun _ => Sends.ite (fun _ => Sends.fail (by decide)) (fun _ => ih)

/-! ### The images of a package -/

/-- The image files stay as they are during a run: loading one gives `load` bytes whenever it
succeeds, and its estimate is `count`. -/
structure ImageFiles (env : Env σ) (load : ImgLoader → CStr → UInt32 → Nat)
    (count : ImgLoader → CStr → Int) : Prop where
  loads : ∀ loader path attr s img, (env.imgLoad loader path attr s).1 = some img →
    img.length = load loader path attr
  counts : ∀ loader path s, (env.imgCalc loader path s).1 = count loader path

variable {load : ImgLoader → CStr → UInt32 → Nat} {count : ImgLoader → CStr → Int} {root : CStr}

def FotaVer.loaded (load : ImgLoader → CStr → UInt32 → Nat) (root : CStr) (ver : FotaVer) : Nat :=
  match ver.imgLoad with
  | none => 0
  | some loader => load loader (root ++ ver.fpath) ver.imgAttr

def loadedOpt (load : ImgLoader → CStr → UInt32 → Nat) (root : CStr) : Option FotaVer → Nat
  | none => 0
  | some ver => ver.loaded load root

theorem fotaEcuProgram_sends (files : ImageFiles env load count) (ver : FotaVer) (erase : Bool) :
    Sends (· = 0) (ver.loaded load root) (fotaEcuProgram env.logged root i ver erase) := by
  apply Sends.ite (fun _ => Sends.fail (by decide))
  intro _
  unfold FotaVer.loaded
  cases ver.imgLoad with
  | none => exact Sends.throw _
  | some loader =>
    apply Sends.afterThat (P := fun img _ => ∀ i, img = some i →
      i.length = load loader (root ++ ver.fpath) ver.imgAttr)
    · exact fun w => ⟨⟨rfl, rfl, rfl, rfl⟩, files.loads loader _ _ w.env.1⟩
    intro img v known
    cases img with
    | none => exact Sends.fail (by decide) v
    | some img =>
      change SendsFrom _ (load loader (root ++ ver.fpath) ver.imgAttr) v _ v
      rw [← known img rfl, ← Nat.add_zero img.length]
      refine (?_ : Sends _ _ _) v
      apply Sends.after (fotaErase_along still_frame _)
      intro _
      apply Sends.ite (fun _ => Sends.fail (by decide))
      intro _
      apply Sends.orFail (fotaProgramSects_sends img img.sects)
      · exact fun _ _ => Fails.pure (by decide)
      intro _
      apply Sends.after (check_still fun ok => if ok then 0 else 1)
      intro _
      apply Sends.ite (fun _ => Sends.fail (by decide))
      intro _
      apply Sends.after (check_still fun ok => if ok then 0 else 1)
      exact fun _ => Sends.ite (fun _ => Sends.fail (by decide)) (fun _ => Sends.pure 0)

theorem fotaFlashDriver_sends (files : ImageFiles env load count) (ecu : FotaEcu) :
    Sends (· = 0) (loadedOpt load root ecu.drv) (fotaFlashDriver env.logged root i ecu) := by
  unfold fotaFlashDriver
  cases ecu.drv with
  | none => exact Sends.pure 0
  | some drv => exact fotaEcuProgram_sends files drv false

theorem fotaUpgradeExcute_sends (files : ImageFiles env load count) (ecu : FotaEcu)
    (ver : FotaVer) :
    Sends (· = 0) (loadedOpt load root ecu.drv + ver.loaded load root)
      (fotaUpgradeExcute env.logged root i ecu ver) := by
  apply Sends.after (fotaUdsRequest_along (i := i) still_frame)
  intro _
  apply Sends.ite (fun _ => Sends.fail (by decide))
  intro _
  apply Sends.after (fotaUdsRequest_along (i := i) still_frame)
  intro _
  apply Sends.ite (fun _ => Sends.fail (by decide))
  intro _
  apply Sends.after (fotaUdsResult_along (i := i) still_frame)
  intro seed
  split
  · exact Sends.fail (by decide)
  · exact Sends.fail (by decide)
  · apply Sends.after (fotaUdsRequest_along (i := i) still_frame)
    intro _
    apply Sends.ite (fun _ => Sends.fail (by decide))
    intro _
    -- the driver goes first, each time
    apply Sends.orFail (fotaFlashDriver_sends files ecu)
    · exact fun _ _ => Fails.pure (by decide)
    intro _
    rw [← Nat.add_zero (ver.loaded load root)]
    apply Sends.orFail (fotaEcuProgram_sends files ver true)
    · exact fun _ _ => Fails.pure (by decide)
    · exact fun _ => Sends.pure 0

theorem fotaEcuUpgrade_sends (files : ImageFiles env load count) (ecu : FotaEcu) (ver : FotaVer) :
    Sends (· = 0) (loadedOpt load root ecu.drv + ver.loaded load root)
      (fotaEcuUpgrade env.logged root i ecu ver) := by
  apply Sends.after (emit_still _)
  intro _
  apply Sends.after (fotaUpgradePrepare_along (i := i) still_frame)
  intro _
  apply Sends.ite (fun _ => Sends.fail (by decide))
  intro _
  rw [← Nat.add_zero (_ + _)]
  apply Sends.orFail (fotaUpgradeExcute_sends files ecu ver)
  · exact fun _ _ => Fails.pure (by decide)
  intro _
  apply Sends.after (fotaUpgradeFinish_along (i := i) still_frame)
  exact fun _ => Sends.ite (fun _ => Sends.fail (by decide)) (fun _ => Sends.pure 0)

/-! ### The versions of an ECU -/

theorem fotaResolveRel_sends (files : ImageFiles env load count) (ecu : FotaEcu) (verstr : CStr)
    (rel : List FotaVer) :
    Sends (· = 0) ((newerThan verstr rel).map fun ver =>
        loadedOpt load root ecu.drv + ver.loaded load root).sum
      (fotaResolveRel env.logged root i ecu verstr rel) := by
  induction rel with
  | nil => exact Sends.pure 0
  | cons relv rest ih =>
    unfold fotaResolveRel newerThan
    apply Sends.ite
    · intro old
      rw [List.filter_cons_of_neg (by simpa using old)]
      exact ih
    · intro newer
      rw [List.filter_cons_of_pos (by simpa using newer), List.map_cons, List.sum_cons]
      apply Sends.orFail (fotaEcuUpgrade_sends files ecu relv)
      · exact fun _ _ => Fails.pure (by decide)
      · exact fun _ => ih

/-- The request for the software version. -/
def Env.readSwver (env : Env σ) : σ → Int × σ :=
  env.udsRequest false 0x22 0 [0xf1, 0x95] 5

/-- An ECU that is asked for its version twice gives the same answer twice. -/
def SameVersion (env : Env σ) : Prop :=
  ∀ s, (env.readSwver s).1 = 0 → (env.readSwver (env.readSwver s).2).1 = 0 →
    env.udsResult (env.readSwver (env.readSwver s).2).2 = env.udsResult (env.readSwver s).2

/-- The ECU runs `ver`: it answers nothing else when it is asked next. -/
def RunsVersion (env : Env σ) (ver : CStr) (s : σ) : Prop :=
  (env.readSwver s).1 = 0 → ∀ data,
    env.udsResult (env.readSwver s).2 = some (0xf1 :: 0x95 :: data) → fotonVerstr data = ver

theorem readSwver_still (w : World (σ × List Int)) :
    wp (fotaUdsRequest env.logged false 0x22 0 [0xf1, 0x95] 5) (fun r w' => Still w w' ∧
      (r = 0 → (env.readSwver w.env.1).1 = 0 ∧ w'.env.1 = (env.readSwver w.env.1).2))
      (fun _ => False) w := by
  unfold fotaUdsRequest
  rw [wp_bind, wp_get]
  apply wp_ite
  · exact fun _ => ⟨Still.refl w, fun zero => absurd zero (by decide)⟩
  · intro _
    rw [if_neg (by decide)]
    exact ⟨⟨rfl, rfl, rfl, rfl⟩, fun taken => ⟨taken, rfl⟩⟩

theorem fotonSwver_still (w : World (σ × List Int)) :
    wp (fotonSwver env.logged 128) (fun r w' => Still w w' ∧ ∀ ver, r = some ver →
      (env.readSwver w.env.1).1 = 0 ∧ w'.env.1 = (env.readSwver w.env.1).2 ∧
        env.udsResult w'.env.1 = some (0xf1 :: 0x95 :: ver)) (fun _ => False) w := by
  apply wp_seq (readSwver_still w)
  · intro res u ⟨still, asked⟩
    apply wp_ite
    · exact fun _ => ⟨still, nofun⟩
    intro zero
    obtain ⟨taken, now⟩ := asked (Decidable.not_not.mp zero)
    unfold fotaUdsResult
    rw [bind_assoc, wp_bind, wp_get, pure_bind]
    split
    next hi lo ver given =>
      obtain ⟨given, -⟩ := Option.filter_eq_some_iff.mp given
      refine ⟨still, fun ver' eq => ?_⟩
      split at eq
      next same =>
        cases eq
        obtain ⟨rfl, rfl⟩ := Prod.mk.inj same
        exact ⟨taken, now, given⟩
      · cases eq
    · exact ⟨still, nofun⟩
  · exact fun _ stopped => stopped

/-- Behind a match the ECU runs the source version. -/
theorem fotaEcuMatch_runs (same : SameVersion env) (ecu : FotaEcu) (w : World (σ × List Int)) :
    wp (fotaEcuMatch env.logged ecu)
      (fun r w' => Still w w' ∧ (r = 0 → RunsVersion env ecu.src.ver w'.env.1))
      (fun _ => False) w := by
  have failed : ¬(-1 : Int) = 0 := by decide
  apply wp_seq (fotonReadId_along (i := 0) still_frame w)
  · intro hw u still
    split
    · exact ⟨still, fun zero => absurd zero failed⟩
    · exact ⟨still, fun zero => absurd zero failed⟩
    apply wp_ite
    · exact fun _ => ⟨still, fun zero => absurd zero failed⟩
    intro _
    apply wp_seq (fotonSwver_still u)
    · intro sw v ⟨still', read⟩
      have still := still.trans still'
      split
      · exact ⟨still, fun zero => absurd zero failed⟩
      · exact ⟨still, fun zero => absurd zero failed⟩
      next ver _ =>
        refine ⟨still, fun zero => ?_⟩
        have ver_eq : ecu.src.ver = fotonVerstr ver := by
          apply Decidable.not_not.mp
          intro differs
          rw [if_pos differs] at zero
          exact failed zero
        obtain ⟨taken, now, given⟩ := read ver rfl
        intro again data answer
        rw [now] at again answer given
        rw [same u.env.1 taken again, given] at answer
        cases answer
        exact ver_eq.symm
    · exact fun _ stopped => stopped
  · exact fun _ stopped => stopped

theorem fotaEcuResolve_sends (files : ImageFiles env load count) (ecu : FotaEcu)
    {w : World (σ × List Int)} (runs : RunsVersion env ecu.src.ver w.env.1) :
    SendsFrom (· = 0) ((newerThan ecu.src.ver ecu.rel).map fun ver =>
        loadedOpt load root ecu.drv + ver.loaded load root).sum w
      (fotaEcuResolve env.logged root i ecu) w := by
  apply wp_seq (fotonSwver_still w)
  · intro r u ⟨still, read⟩
    apply SendsFrom.of_still still
    split
    · exact Sends.fail (by decide) u
    · exact Sends.fail (by decide) u
    next ver _ =>
      obtain ⟨taken, now, given⟩ := read ver rfl
      rw [runs taken ver (now ▸ given)]
      exact fotaResolveRel_sends files ecu ecu.src.ver ecu.rel u
  · exact fun _ stopped => stopped.elim

/-! ### The runs over all ECUs -/

/-- What an upgrade of the ECU sends: the newer related versions and the target, each with the
flash driver in front. -/
def FotaEcu.work (load : ImgLoader → CStr → UInt32 → Nat) (root : CStr) (ecu : FotaEcu) : Nat :=
  ((newerThan ecu.src.ver ecu.rel).map fun ver =>
    loadedOpt load root ecu.drv + ver.loaded load root).sum +
  (loadedOpt load root ecu.drv + loadedOpt load root ecu.tar)

theorem fotaExcuteEcu_sends (files : ImageFiles env load count) (same : SameVersion env)
    (f : Package) (ecu : FotaEcu) :
    Sends (· = 0) (ecu.work load f.root) (fotaExcuteEcu env.logged f i ecu) := by
  unfold fotaExcuteEcu
  split
  next bus info tar _ _ found =>
    unfold FotaEcu.work
    rw [found]
    apply Sends.after (fotaEnter_along still_ports)
    intro entered
    cases entered with
    | none => exact Sends.fail (by decide)
    | some baud =>
      have checkFail : Fails (· = 0) (do
          emit (.checkFail i)
          fotaUdsClose
          pure (1 : Int) : Job (σ × List Int) Int) :=
        Fails.after (emit_still _) fun _ =>
          Fails.after (fotaUdsClose_along (@still_ports _ env i)) fun _ =>
            Fails.pure (by decide)
      apply Sends.afterThat (fotaEcuMatch_runs same ecu)
      intro matched v runs
      apply wp_ite
      · exact fun _ => checkFail.sends v
      intro zero
      apply SendsFrom.orFail (fotaEcuResolve_sends files ecu (runs (Decidable.not_not.mp zero)))
      · exact fun _ _ => checkFail
      intro _
      apply Sends.closing (fotaEcuUpgrade_sends files ecu tar) (fotaLeave_along still_ports)
      intro res closed
      apply Decidable.not_not.mp
      intro failed
      rw [if_pos failed] at closed
      exact absurd closed (by decide)
  · exact Sends.fail (by decide)

def workOf (load : ImgLoader → CStr → UInt32 → Nat) (root : CStr) (ecus : List FotaEcu) : Nat :=
  ((others ecus).map (·.work load root)).sum

theorem fotaExcuteLoop_sends (files : ImageFiles env load count) (same : SameVersion env)
    (f : Package) (tbox : Option FotaEcu) (ecus : List (FotaEcu × Nat)) :
    Sends (·.1 = 0) (workOf load f.root (ecus.map Prod.fst))
      (fotaExcuteLoop env.logged f tbox ecus) := by
  induction ecus generalizing tbox with
  | nil => exact Sends.pure (0, tbox)
  | cons entry rest ih =>
    obtain ⟨ecu, i⟩ := entry
    unfold fotaExcuteLoop workOf others
    rw [List.map_cons]
    apply Sends.ite
    · intro name
      rw [List.filter_cons_of_neg (by simpa using name)]
      exact ih (some ecu)
    · intro name
      rw [List.filter_cons_of_pos (by simpa using name), List.map_cons, List.sum_cons]
      apply Sends.orFail (fotaExcuteEcu_sends files same f ecu)
      · exact fun error nonzero => Fails.pure nonzero
      · exact fun _ => ih tbox

end

end Fota
