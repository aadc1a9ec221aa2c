import TBoxMpu.Base.FwSave

/-!
# A firmware image that cannot be unpacked

## Main result

`fwsave_cleans`: wherever `upg_ctl_fwsave` gives up, the firmware file is closed and no part of
an image is left, exactly if no lump that the loop gets to has a seek, a read or an unpacking
that fails, and no write that fails is followed by a deletion that does.

## Proof strategy

Before the file is opened every exit leaves things as they are (`Within SameFd`); in the loop the
descriptor is open (`saveLump_opened`), so an exit cleans up only where its branch does
(`saveLump_cleans_iff`).
-/

namespace PkgFile

open Checked Stops Effects Dir

/-- The firmware file is not open, and if it was, nothing is left of it. -/
structure Cleaned (u : World) : Prop where
  closed : u.fwFd ≠ .opened
  gone : u.fwFd = .closed → u.fw = none

/-- An exit with a code cleans up; the failure of the last `close` is none of a read, an
unpacking or a write. -/
def Cleans (stop : Stop) (u : World) : Prop :=
  ∀ code, stop = .ret code → code ≠ .closeFailed → Cleaned u

/-- A seek is not refused, or its -1 is taken for the offset. -/
def seekOk (p : Nat) : Prop :=
  p < offMax ∨ p = 2 ^ 32 - 1

/-- The world after a seek. -/
def World.seeked (u : World) (p : Nat) : World :=
  if p < offMax then { u with pos := p } else u

/-- `dev_read` returns an error. -/
def ReadFails (pkg : Pkg) (env : Env) (n : Nat) (u : World) : Prop :=
  ∃ got u', devRead pkg env n u = .ok (got, false) u'

/-- The data of a lump, `length` bytes at `q`, is read and unpacked, and where the write fails the
deletion does not. -/
structure DataSafe (pkg : Pkg) (env : Env) (attr : Nat) (v : LumpVars) (q length : Nat)
    (m : World) : Prop where
  seek : seekOk q
  read : ¬ ReadFails pkg env length (m.seeked q)
  unpacks : ∀ m', readFileData pkg env length (m.seeked q) = .ok () m' → attr ≠ 0 →
    (uncompress pkg.zlib (stretch m'.upgFileData 0 length) v.uncompressLen).isSome
  deleted : ∀ m', readFileData pkg env length (m.seeked q) = .ok () m' →
    ∀ n m₁, unpackLump pkg attr length v.uncompressLen m' = .ok n m₁ →
      ∀ m₂, writeRaw env v.wPos n m₁ = .ok false m₂ → env.luck m₂.clock = none

/-- What must hold of the lump that `m` is the world before. -/
structure LumpSafe (pkg : Pkg) (env : Env) (attr : Nat) (v : LumpVars) (m : World) : Prop where
  seek : seekOk (u32 (v.rPos + v.length))
  read : ¬ ReadFails pkg env 4 (m.seeked (u32 (v.rPos + v.length)))
  data : ∀ length m', readWord pkg env (m.seeked (u32 (v.rPos + v.length))) = .ok length m' →
    DataSafe pkg env attr v (u32 (u32 (v.rPos + v.length) + 4)) length m'

/-! ### What leaves the firmware file there and open -/

structure Kept (u v : World) : Prop where
  fd : v.fwFd = u.fwFd
  there : v.fw.isSome = u.fw.isSome

theorem Kept.refl (u : World) : Kept u u :=
  ⟨rfl, rfl⟩

theorem Kept.trans {u v w : World} (first : Kept u v) (next : Kept v w) : Kept u w :=
  ⟨next.fd.trans first.fd, next.there.trans first.there⟩

/-- The file is as it was wherever the run ends. -/
abbrev Keeps {α : Type} (p : M α) : Prop :=
  Within Kept Kept p

/-- The file is as it was if the run does not stop short. -/
abbrev KeepsOnReturn {α : Type} (p : M α) : Prop :=
  Within Kept (fun _ _ => True) p

section

variable {pkg : Pkg} {env : Env} {α β : Type}

theorem Keeps.bind {p : M α} {f : α → M β} (first : Keeps p) (rest : ∀ a, Keeps (f a)) :
    Keeps (p >>= f) :=
  @Within.bind _ _ _ _ Kept Kept (fun _ _ _ => Kept.trans) (fun _ _ _ => Kept.trans) p f first rest

theorem KeepsOnReturn.bind {p : M α} {f : α → M β} (first : KeepsOnReturn p)
    (rest : ∀ a, KeepsOnReturn (f a)) : KeepsOnReturn (p >>= f) :=
  @Within.bind _ _ _ _ Kept _ (fun _ _ _ => Kept.trans) (fun _ _ _ _ _ => trivial) p f first rest

theorem Keeps.onReturn {p : M α} (keeps : Keeps p) : KeepsOnReturn p :=
  Within.mono keeps (fun _ _ kept => kept) (fun _ _ _ => trivial)

theorem keeps_pure (a : α) : Keeps (pure a : M α) :=
  fun u => Kept.refl u

theorem keeps_throw (stop : Stop) : Keeps (throw stop : M α) :=
  fun u => Kept.refl u

theorem keeps_ite {c : Prop} [Decidable c] {stop : Stop} (a : α) :
    Keeps (if c then pure a else throw stop : M α) :=
  Within.ite (fun _ => keeps_pure a) (fun _ => keeps_throw stop)

theorem keeps_op (err : ErrCode) : Keeps (op env err) := by
  have ticks : Keeps (tick env) := fun _ => ⟨rfl, rfl⟩
  exact ticks.bind fun _ => Within.ite (fun _ => keeps_throw _) (fun _ => keeps_pure _)

theorem keeps_seekTo (p : Nat) : Keeps (seekTo p) := by
  refine Keeps.bind (fun u => ?_) fun _ => keeps_ite ()
  simp only [lseek, wp]
  split_ifs <;> exact ⟨rfl, rfl⟩

theorem keeps_devRead (n : Nat) : Keeps (devRead pkg env n) := by
  intro u
  simp only [devRead, wp]
  split_ifs <;> exact ⟨rfl, rfl⟩

theorem keeps_readWord : Keeps (readWord pkg env) :=
  (keeps_devRead 4).bind fun _ => keeps_ite _

theorem keeps_readWordAt (p : Nat) : Keeps (readWordAt pkg env p) :=
  (keeps_seekTo p).bind fun _ => keeps_readWord

theorem keeps_readFileData (n : Nat) : Keeps (readFileData pkg env n) :=
  (keeps_devRead n).bind fun _ => Keeps.bind (fun _ => ⟨rfl, rfl⟩) fun _ => keeps_ite ()

theorem keeps_readFwHead (offset : Nat) : Keeps (readFwHead pkg env offset) :=
  (keeps_readWordAt _).bind fun _ => (keeps_readWordAt _).bind fun _ =>
    (keeps_readWordAt _).bind fun _ => (keeps_readWordAt _).bind fun _ =>
      (keeps_readWordAt _).bind fun _ => keeps_pure _

theorem keeps_storeRaw (bytes : List UInt8) : Keeps (storeRaw bytes) :=
  Within.ite (fun _ => keeps_throw _) (fun _ _ => ⟨rfl, rfl⟩)

theorem keeps_writeRaw (wPos n : Nat) : Keeps (writeRaw env wPos n) := by
  refine Keeps.bind (fun u => ?_) fun _ => Keeps.bind (fun u => Kept.refl u) fun _ =>
    Within.ite (fun _ => keeps_throw _) (fun _ _ => ⟨rfl, Option.isSome_map⟩)
  simp only [lseekFw, wp_modify]
  split_ifs <;> exact ⟨rfl, rfl⟩

theorem unpackLump_keeps (attr length room : Nat) :
    KeepsOnReturn (unpackLump pkg attr length room) := by
  refine KeepsOnReturn.bind (fun u => Kept.refl u) fun w =>
    Within.ite (fun _ => (keeps_throw _).onReturn) fun _ => Within.ite (fun _ => ?_) fun _ => ?_
  · split
    · exact fun _ => trivial
    · exact (keeps_storeRaw _).onReturn.bind fun _ => (keeps_pure _).onReturn
  · exact (keeps_storeRaw _).onReturn.bind fun _ => (keeps_pure _).onReturn

theorem writeLump_keeps (wPos n : Nat) : KeepsOnReturn (writeLump env wPos n) :=
  (keeps_writeRaw wPos n).onReturn.bind fun _ =>
    Within.ite (fun _ => (keeps_pure _).onReturn) (fun _ _ => trivial)

theorem saveLump_keeps (attr k : Nat) (v : LumpVars) :
    KeepsOnReturn (saveLump pkg env attr k v) :=
  (keeps_readWordAt _).onReturn.bind fun _ => (keeps_seekTo _).onReturn.bind fun _ =>
    (keeps_readFileData _).onReturn.bind fun _ => (unpackLump_keeps _ _ _).bind fun _ =>
      (writeLump_keeps _ _).bind fun _ => (keeps_pure _).onReturn

/-! ### Exits -/

/-- Before the firmware file is opened an exit leaves it as it was. -/
theorem Keeps.cleans {p : M α} (keeps : Keeps p) {u : World} (unset : u.fwFd = .unset) :
    StopsIn Cleans p u := by
  intro stop v run code _ _
  have same : v.fwFd = .unset := (keeps.error run).fd.trans unset
  exact ⟨by simp [same], fun closed => by simp [same] at closed⟩

/-- A part of an image is there, and open. -/
structure Begun (u : World) : Prop where
  opened : u.fwFd = .opened
  there : u.fw.isSome

theorem Begun.kept {u v : World} (begun : Begun u) (kept : Kept u v) : Begun v :=
  ⟨kept.fd.trans begun.opened, kept.there.trans begun.there⟩

theorem Begun.not_cleans {u : World} (begun : Begun u) : ¬ Cleans (.ret .devFileReadFailed) u :=
  fun cleans => (cleans .devFileReadFailed rfl (by decide)).closed begun.opened

section

variable {u : World} (begun : Begun u)
include begun

theorem seekTo_cleans_iff {p : Nat} {f : Unit → M α} :
    StopsIn Cleans (seekTo p >>= f) u ↔ seekOk p ∧ StopsIn Cleans (f ()) (u.seeked p) := by
  by_cases ok : seekOk p
  · have run : seekTo p u = .ok () (u.seeked p) := by
      rw [seekTo, bind_run, lseek, World.seeked]
      split_ifs with low
      · rfl
      · simp [ok.resolve_left low]
    rw [stopsIn_bind_ok run, and_iff_right ok]
  · obtain ⟨high, other⟩ := not_or.mp ok
    have run : seekTo p u = .error (.ret .devFileReadFailed) u := by
      rw [seekTo, bind_run, lseek, if_neg high]
      dsimp only
      rw [decide_eq_false other]
      rfl
    have stop : (seekTo p >>= f) u = .error (.ret .devFileReadFailed) u := by
      rw [bind_run, run]
    rw [stopsIn_of_error_iff stop]
    exact ⟨fun cleans => absurd cleans begun.not_cleans, fun h => absurd h.1 ok⟩

/-- What was read is kept in memory, and used after a check of the result. -/
theorem devRead_cleans_iff {n : Nat} {f : List UInt8 → M α} {g : List UInt8 → World → World}
    (uses : ∀ got v, StopsIn Cleans (f got) v) (kept : ∀ got v, Kept v (g got v)) :
    StopsIn Cleans (devRead pkg env n >>= fun r => do
      modify (g r.1)
      if r.2 then f r.1 else throw (.ret .devFileReadFailed)) u ↔ ¬ ReadFails pkg env n u := by
  rw [stopsIn_bind_iff]
  constructor
  · rintro ⟨-, rest⟩ ⟨got, v, run⟩
    have still := begun.kept (((keeps_devRead n).ok run).trans (kept got v))
    exact still.not_cleans (rest (got, false) v run _ _ rfl)
  · intro reads
    refine ⟨fun stop v run => ?_, fun r v run => ?_⟩
    · -- `dev_read` itself stops at the end of the file, or beyond the buffer
      intro code is_ret
      subst is_ret
      simp only [devRead] at run
      split_ifs at run <;> cases run
    · obtain ⟨got, done⟩ := r
      cases done with
      | false => exact absurd ⟨got, v, run⟩ reads
      | true => exact uses got (g got v)

theorem readWord_cleans_iff : StopsIn Cleans (readWord pkg env) u ↔ ¬ ReadFails pkg env 4 u :=
  @devRead_cleans_iff pkg env _ u begun 4 (fun got => pure (le32 got)) (fun _ v => v)
    (fun _ _ => stopsIn_pure _) (fun _ v => Kept.refl v)

theorem readFileData_cleans_iff {n : Nat} :
    StopsIn Cleans (readFileData pkg env n) u ↔ ¬ ReadFails pkg env n u :=
  @devRead_cleans_iff pkg env _ u begun n (fun _ => pure ())
    (fun got v => { v with upgFileData := store v.upgFileData got })
    (fun _ _ => stopsIn_pure _) (fun _ _ => ⟨rfl, rfl⟩)

omit begun in
theorem storeRaw_cleans {bytes : List UInt8} {a : α} :
    StopsIn Cleans (do storeRaw bytes; pure a) u := by
  have stores : StopsIn Cleans (storeRaw bytes) u := by
    rw [storeRaw, stopsIn_ite_iff, stopsIn_throw_iff]
    exact ⟨fun _ _ is_ret => (by cases is_ret), fun _ => stopsIn_of_ok rfl⟩
  exact stopsIn_bind_iff.mpr ⟨stores, fun _ _ _ => stopsIn_pure _⟩

theorem unpackLump_cleans_iff {attr length room : Nat} (inside : length ≤ fileDataSize) :
    StopsIn Cleans (unpackLump pkg attr length room) u ↔
      (attr ≠ 0 → (uncompress pkg.zlib (stretch u.upgFileData 0 length) room).isSome) := by
  have start : StopsIn Cleans (unpackLump pkg attr length room) u ↔ _ :=
    stopsIn_bind_ok (show (get : M World) u = .ok u u from rfl)
  rw [start, if_neg (Nat.not_lt.mpr inside), stopsIn_ite_iff]
  constructor
  · intro cleans packed
    have branch := cleans.1 packed
    cases out : uncompress pkg.zlib (stretch u.upgFileData 0 length) room with
    | some bytes => rfl
    | none =>
      -- the file is closed, and still there
      rw [out] at branch
      have gone : u.fw = none := (branch _ _ rfl _ rfl (by decide)).gone rfl
      simpa [gone] using begun.there
  · intro unpacks
    refine ⟨fun packed => ?_, fun _ => storeRaw_cleans⟩
    obtain ⟨bytes, out⟩ := Option.isSome_iff_exists.mp (unpacks packed)
    rw [out]
    exact storeRaw_cleans

omit begun in
/-- The write returns, but for a size beyond `rawData`. -/
theorem writeRaw_returns (wPos n : Nat) :
    (∃ done v, writeRaw env wPos n u = .ok done v) ∨
      ∃ v, writeRaw env wPos n u = .error (.fault .rawData) v := by
  rw [writeRaw, lseekFw, modify_bind_run, get_bind_run]
  by_cases beyond : rawDataSize < n
  · rw [if_pos beyond]
    exact .inr ⟨_, rfl⟩
  · rw [if_neg beyond]
    exact .inl ⟨_, _, rfl⟩

theorem writeLump_cleans_iff {wPos n : Nat} :
    StopsIn Cleans (writeLump env wPos n) u ↔
      ∀ m, writeRaw env wPos n u = .ok false m → env.luck m.clock = none := by
  obtain ⟨done, v, run⟩ | ⟨v, run⟩ := @writeRaw_returns env u wPos n
  rotate_left
  · have stop : writeLump env wPos n u = .error (.fault .rawData) v := by
      rw [writeLump, bind_run, run]
    rw [stopsIn_of_error_iff stop, run]
    exact iff_of_true (fun _ is_ret => by cases is_ret) (fun _ returns => by cases returns)
  have kept : Kept u v := (keeps_writeRaw wPos n).ok run
  have there := (begun.kept kept).there
  rw [writeLump, stopsIn_bind_ok run, run]
  cases done with
  | true => simp
  | false =>
    rw [if_neg (by decide)]
    have only : (∀ m, EStateM.Result.ok false v = (.ok false m : EStateM.Result Stop World Bool) →
        env.luck m.clock = none) ↔ env.luck v.clock = none :=
      ⟨fun all => all v rfl, by rintro none m ⟨⟩; exact none⟩
    rw [only]
    have stop : (do closeFw; deleteFw env; throw (.ret .writeFailed) : M Unit) v =
        .error (.ret .writeFailed) { v with
          fwFd := .closed
          fw := if (env.luck v.clock).isNone then none else v.fw
          clock := v.clock + 1 } := by
      rw [closeFw, modify_bind_run, bind_run, deleteFw_run]
      rfl
    rw [stopsIn_of_error_iff stop]
    constructor
    · intro cleans
      have gone := (cleans _ rfl (by decide)).gone rfl
      by_contra fails
      simp only [Option.isNone_iff_eq_none, if_neg fails] at gone
      simp [gone] at there
    · intro deleted _ _ _
      exact ⟨by simp, fun _ => by simp [deleted]⟩

end

theorem World.seeked_kept (u : World) (p : Nat) : Kept u (u.seeked p) := by
  unfold World.seeked
  split_ifs <;> exact ⟨rfl, rfl⟩

theorem seekTo_run_ok {p : Nat} (ok : seekOk p) (u : World) :
    seekTo p u = .ok () (u.seeked p) := by
  rw [seekTo, bind_run, lseek, World.seeked]
  split_ifs with low
  · rfl
  · simp [ok.resolve_left low]

/-- What is done with the data of a lump once it is there. -/
theorem unpacked_cleans_iff {attr length : Nat} {v : LumpVars} {r : Nat → LumpVars} {u : World}
    (begun : Begun u) (inside : length ≤ fileDataSize) :
    StopsIn Cleans (do
        let n ← unpackLump pkg attr length v.uncompressLen
        writeLump env v.wPos n
        pure (r n)) u ↔
      (attr ≠ 0 → (uncompress pkg.zlib (stretch u.upgFileData 0 length) v.uncompressLen).isSome) ∧
        ∀ n m₁, unpackLump pkg attr length v.uncompressLen u = .ok n m₁ →
          ∀ m₂, writeRaw env v.wPos n m₁ = .ok false m₂ → env.luck m₂.clock = none := by
  rw [stopsIn_bind_iff, unpackLump_cleans_iff begun inside]
  refine and_congr_right fun _ => forall_congr' fun n => forall_congr' fun m₁ =>
    forall_congr' fun run => ?_
  have begun' := begun.kept ((unpackLump_keeps attr length v.uncompressLen).ok run)
  rw [stopsIn_bind_iff, writeLump_cleans_iff begun']
  simp

theorem data_cleans_iff {attr q length : Nat} {v : LumpVars} {r : Nat → LumpVars} {u : World}
    (begun : Begun u) :
    StopsIn Cleans (do
        seekTo q
        readFileData pkg env length
        let n ← unpackLump pkg attr length v.uncompressLen
        writeLump env v.wPos n
        pure (r n)) u ↔ DataSafe pkg env attr v q length u := by
  have sought := begun.kept (u.seeked_kept q)
  have rest : ∀ m', readFileData pkg env length (u.seeked q) = .ok () m' →
      Begun m' ∧ length ≤ fileDataSize := fun m' run =>
    ⟨sought.kept ((keeps_readFileData length).ok run), readFileData_inside run⟩
  rw [seekTo_cleans_iff begun, stopsIn_bind_iff, readFileData_cleans_iff sought]
  constructor
  · rintro ⟨seek, read, each⟩
    exact {
      seek := seek
      read := read
      unpacks := fun m' run =>
        ((unpacked_cleans_iff (rest m' run).1 (rest m' run).2).mp (each () m' run)).1
      deleted := fun m' run =>
        ((unpacked_cleans_iff (rest m' run).1 (rest m' run).2).mp (each () m' run)).2 }
  · intro safe
    refine ⟨safe.seek, safe.read, fun _ m' run => ?_⟩
    obtain ⟨begun', inside⟩ := rest m' run
    exact (unpacked_cleans_iff begun' inside).mpr ⟨safe.unpacks m' run, safe.deleted m' run⟩

theorem saveLump_cleans_iff {attr k : Nat} {v : LumpVars} {m : World} (begun : Begun m) :
    StopsIn Cleans (saveLump pkg env attr k v) m ↔ LumpSafe pkg env attr v m := by
  have sought := begun.kept (m.seeked_kept (u32 (v.rPos + v.length)))
  rw [saveLump, stopsIn_bind_iff, readWordAt, seekTo_cleans_iff begun,
    readWord_cleans_iff sought]
  have rest : ∀ length m', readWord pkg env (m.seeked (u32 (v.rPos + v.length))) =
      .ok length m' → Begun m' := fun length m' run => sought.kept (keeps_readWord.ok run)
  constructor
  · rintro ⟨⟨seek, read⟩, each⟩
    refine ⟨seek, read, fun length m' run => ?_⟩
    have stops := each length m' (by rw [bind_run, seekTo_run_ok seek]; exact run)
    exact (data_cleans_iff (rest length m' run)).mp stops
  · intro safe
    refine ⟨⟨safe.seek, safe.read⟩, fun length m' run => ?_⟩
    rw [bind_run, seekTo_run_ok safe.seek] at run
    exact (data_cleans_iff (rest length m' run)).mpr (safe.data length m' run)

/-- The image is opened, or nothing was touched but the former image. -/
theorem startFw_cleans {u : World} (unset : u.fwFd = .unset) :
    StopsIn Cleans (startFw env) u ∧ ∀ v, startFw env u = .ok () v → Begun v := by
  obtain ⟨u₁, run₁, same₁⟩ : ∃ u₁, clearFw env u = .ok () u₁ ∧ u₁.fwFd = .unset := by
    rw [clearFw, get_bind_run]
    split_ifs
    · exact ⟨_, deleteFw_run u, unset⟩
    · exact ⟨u, rfl, unset⟩
  have ticked : tick env u₁ = .ok (env.luck u₁.clock) { u₁ with clock := u₁.clock + 1 } := rfl
  have opens : ∀ v, StopsIn Cleans (openFw env) v ↔ StopsIn Cleans (op env .devFileOpenFailed) v := by
    intro v
    rw [openFw, stopsIn_bind_iff]
    exact and_iff_left fun _ m _ => stopsIn_of_ok rfl
  constructor
  · rw [startFw, stopsIn_bind_ok run₁, stopsIn_bind_ok ticked, stopsIn_bind_iff]
    refine ⟨(keeps_op _).cleans same₁, fun _ v run => ?_⟩
    rw [opens]
    exact (keeps_op _).cleans (((keeps_op _).ok run).fd.trans same₁)
  · intro v run
    rw [startFw, bind_run, run₁] at run
    simp only [bind_run, ticked] at run
    split at run
    · rw [openFw] at run
      obtain ⟨_, m, -, opened⟩ := bind_ok_iff.mp run
      cases opened
      exact ⟨rfl, rfl⟩
    · cases run

/-- Wherever `upg_ctl_fwsave` gives up, the firmware file is closed and nothing is left of a part
of an image, exactly if each lump that the loop gets to is read and unpacked, and a write that
fails is followed by a deletion that does not. -/
theorem fwsave_cleans (pkg : Pkg) (env : Env) (offset : Nat) (w : World) :
    StopsIn Cleans (upgCtlFwsave pkg env offset) w ↔
      ∀ attr lumpCnt rPos w₁ w₂,
        readFwHead pkg env offset { w with fwFd := .unset } = .ok (attr, lumpCnt, rPos) w₁ →
        startFw env w₁ = .ok () w₂ → ∀ k < lumpCnt, ∀ v m,
          rounds (saveLump pkg env attr) 0 k ⟨rPos, 0, 0, rawDataSize⟩ w₂ = .ok v m →
          LumpSafe pkg env attr v m := by
  -- what follows the loop fails in the last `close` only
  have closing : ∀ m, StopsIn Cleans (do closeFw; op env .closeFailed : M Unit) m := by
    intro m stop u run code is_ret other
    subst is_ret
    simp only [closeFw, modify_run, op, bind_run, tick] at run
    split_ifs at run
    · cases run
      exact absurd rfl other
    · cases run
  have loop : ∀ attr n p w₂, Begun w₂ →
      (StopsIn Cleans (do
        let _ ← rounds (saveLump pkg env attr) 0 n ⟨p, 0, 0, rawDataSize⟩
        closeFw
        op env .closeFailed) w₂ ↔
      ∀ k < n, ∀ v m, rounds (saveLump pkg env attr) 0 k ⟨p, 0, 0, rawDataSize⟩ w₂ = .ok v m →
        LumpSafe pkg env attr v m) := by
    intro attr n p w₂ begun
    rw [stopsIn_bind_iff, and_iff_left fun _ m _ => closing m, stopsIn_rounds_iff]
    refine forall_congr' fun k => forall_congr' fun _ => forall_congr' fun v =>
      forall_congr' fun m => forall_congr' fun run => saveLump_cleans_iff ?_
    exact @rounds_invariant _ _ _ (saveLump pkg env attr) (fun _ _ u => Begun u) 0 k
      (fun j v₁ v₂ u₁ u₂ begun ran => begun.kept ((saveLump_keeps attr j v₁).ok ran))
      _ _ _ _ begun run
  have declared : (modify fun w => { w with fwFd := .unset } : M Unit) w =
      .ok () { w with fwFd := .unset } := rfl
  rw [upgCtlFwsave, stopsIn_bind_ok declared, stopsIn_bind_iff]
  constructor
  · rintro ⟨-, each⟩ attr n p w₁ w₂ head start
    have unset₁ : w₁.fwFd = .unset := ((keeps_readFwHead offset).ok head).fd
    have stops := each (attr, n, p) w₁ head
    rw [stopsIn_bind_iff] at stops
    exact (loop attr n p w₂ ((startFw_cleans unset₁).2 w₂ start)).mp (stops.2 () w₂ start)
  · intro safe
    refine ⟨(keeps_readFwHead offset).cleans rfl, ?_⟩
    rintro ⟨attr, n, p⟩ w₁ head
    have unset₁ : w₁.fwFd = .unset := ((keeps_readFwHead offset).ok head).fd
    rw [stopsIn_bind_iff]
    refine ⟨(startFw_cleans unset₁).1, fun _ w₂ start => ?_⟩
    exact (loop attr n p w₂ ((startFw_cleans unset₁).2 w₂ start)).mpr
      (safe attr n p w₁ w₂ head start)

end

/-- One lump that is not compressed. -/
def plain : FwSection :=
  { falling with attr := 0, lumps := [[0x61]], attr_lt := by decide }

/-- The read of the data of the first lump fails. -/
def badRead : Env :=
  { fine with luck := fun k => if k = 9 then some 0 else none }

/-- How a run that stops short leaves the firmware file. -/
def exit : EStateM.Result Stop World Unit → Option (Stop × FwFd × Option (List UInt8))
  | .ok _ _ => none
  | .error stop u => some (stop, u.fwFd, u.fw)

theorem exit_eq {r : EStateM.Result Stop World Unit} {stop : Stop} {fd : FwFd}
    {fw : Option (List UInt8)} (eq : exit r = some (stop, fd, fw)) :
    ∃ u, r = .error stop u ∧ u.fwFd = fd ∧ u.fw = fw := by
  cases r with
  | ok a u => cases eq
  | error e u =>
    cases eq
    exact ⟨u, rfl, rfl, rfl⟩

/-- A read that fails leaves the file open, and an unpacking that fails leaves the first byte. -/
theorem fwsave_leaves :
    ¬ StopsIn Cleans (upgCtlFwsave (sectionPkg plain (by decide)) badRead 0) World.fresh ∧
      ¬ StopsIn Cleans (upgCtlFwsave (sectionPkg growing (by decide)) fine 0) World.fresh := by
  constructor
  · have left : exit (upgCtlFwsave (sectionPkg plain (by decide)) badRead 0 World.fresh) =
        some (.ret .devFileReadFailed, .opened, some []) := by decide +kernel
    obtain ⟨u, run, opened, -⟩ := exit_eq left
    exact fun cleans => (cleans _ u run _ rfl (by decide)).closed opened
  · have left : exit (upgCtlFwsave (sectionPkg growing (by decide)) fine 0 World.fresh) =
        some (.ret .devUncompressFailed, .closed, some [0x61]) := by decide +kernel
    obtain ⟨u, run, closed, image⟩ := exit_eq left
    intro cleans
    have gone := (cleans _ u run _ rfl (by decide)).gone closed
    rw [image] at gone
    cases gone

end PkgFile
