import TBoxMpu.Lib.Crash

/-!
# File steps that may fail

A step of a program over files succeeds, fails, or is not reached. A program returns a value,
returns early with an error, or stops where the power fails; `fwpe` says what holds of the files
in each case, the same for an error as for a crash.
-/

namespace Faults

open Crash

variable {F R α β : Type}

abbrev Fio (F R : Type) := ExceptT R (Io F)

/-- Which steps succeed, by the steps that the power still lasts. -/
abbrev Luck := Nat → Bool

/-- One elementary step, and whether it succeeded. -/
def attempt (luck : Luck) (change : Files F → Files F) : Fio F R Bool := ExceptT.mk fun d =>
  if d.life = 0 then .error .power d
  else if luck d.life then .ok (.ok true) ⟨change d.files, d.life - 1⟩
  else .ok (.ok false) ⟨d.files, d.life - 1⟩

/-- A step without which there is nothing more to do. -/
def must (luck : Luck) (err : R) (change : Files F → Files F) : Fio F R Unit := do
  let done ← attempt luck change
  if done then pure () else throw err

/-- What the files hold. -/
def look : Fio F R (Files F) := ExceptT.mk fun d => .ok (.ok d.files) d

def fwpe (p : Fio F R α) (Q : α → Files F → Prop) (E : Files F → Prop) (files : Files F) : Prop :=
  fwp (p.run : Io F (Except R α))
    (fun r files => match r with
      | .ok a => Q a files
      | .error _ => E files) E files

section

variable {luck : Luck} {err : R} {Q : α → Files F → Prop} {E : Files F → Prop}
  {files : Files F}

theorem fwpe_pure {a : α} (h : Q a files) : fwpe (pure a : Fio F R α) Q E files :=
  fun _ => h

theorem fwpe_throw (h : E files) : fwpe (throw err : Fio F R α) Q E files :=
  fun _ => h

theorem fwpe_look {Q : Files F → Files F → Prop} (h : Q files files) :
    fwpe (look : Fio F R (Files F)) Q E files :=
  fun _ => h

theorem fwpe_bind {Q' : β → Files F → Prop} {p : Fio F R α} {f : α → Fio F R β}
    (h : fwpe p Q E files) (next : ∀ a files', Q a files' → fwpe (f a) Q' E files') :
    fwpe (p >>= f) Q' E files := by
  refine fwp_bind h fun r files' post => ?_
  cases r with
  | ok a => exact next a files' post
  | error e => exact fwp_pure post

theorem fwpe_mono {Q' : α → Files F → Prop} {E' : Files F → Prop} {p : Fio F R α}
    (h : fwpe p Q E files) (value : ∀ a files', Q a files' → Q' a files')
    (stop : ∀ files', E files' → E' files') : fwpe p Q' E' files := by
  refine fwp_mono h (fun r files' post => ?_) stop
  cases r with
  | ok a => exact value a files' post
  | error e => exact stop files' post

theorem fwpe_ite {c : Prop} [Decidable c] {p q : Fio F R α} (yes : c → fwpe p Q E files)
    (no : ¬c → fwpe q Q E files) : fwpe (if c then p else q) Q E files := by
  split
  · exact yes ‹_›
  · exact no ‹_›

theorem fwpe_attempt {Q : Bool → Files F → Prop} {change : Files F → Files F} (crash : E files)
    (done : Q true (change files)) (failed : Q false files) :
    fwpe (attempt luck change : Fio F R Bool) Q E files := by
  intro life
  unfold attempt Effects.wp
  -- the three ends of a step: a crash, success, failure
  by_cases dead : life = 0
  · simpa [ExceptT.run, ExceptT.mk, dead] using crash
  · by_cases lucky : luck life
    · simpa [ExceptT.run, ExceptT.mk, dead, lucky] using done
    · simpa [ExceptT.run, ExceptT.mk, dead, lucky] using failed

theorem fwpe_must {Q : Unit → Files F → Prop} {change : Files F → Files F} (stop : E files)
    (done : Q () (change files)) :
    fwpe (must luck err change : Fio F R Unit) Q E files := by
  refine fwpe_bind (Q := fun ok files' => if ok then files' = change files else files' = files)
    (fwpe_attempt stop rfl rfl) ?_
  rintro (_ | _) files' rfl
  · exact fwpe_throw stop
  · exact fwpe_pure done

/-- A step that changes nothing, or that is followed by more of the program. -/
theorem fwpe_must_bind {change : Files F → Files F} {f : Unit → Fio F R α} (stop : E files)
    (next : fwpe (f ()) Q E (change files)) : fwpe (must luck err change >>= f) Q E files :=
  fwpe_bind (Q := fun _ files' => files' = change files) (fwpe_must stop rfl)
    (by rintro ⟨⟩ _ rfl; exact next)

theorem fwpe_attempt_bind {change : Files F → Files F} {f : Bool → Fio F R α} (crash : E files)
    (done : fwpe (f true) Q E (change files)) (failed : fwpe (f false) Q E files) :
    fwpe (attempt luck change >>= f) Q E files := by
  refine fwpe_bind (Q := fun ok files' => if ok then files' = change files else files' = files)
    (fwpe_attempt crash rfl rfl) ?_
  rintro (_ | _) files' rfl
  · exact failed
  · exact done

theorem fwpe_look_bind {f : Files F → Fio F R α} (next : fwpe (f files) Q E files) :
    fwpe (look >>= f) Q E files :=
  fwpe_bind (Q := fun read files' => read = files ∧ files' = files) (fwpe_look ⟨rfl, rfl⟩)
    (by rintro _ _ ⟨rfl, rfl⟩; exact next)

end

/-! ### Writing -/

section

variable [DecidableEq F]

/-- Bytes are written to the end of a file until a step fails. -/
def writeAll (luck : Luck) (f : F) : List UInt8 → Fio F R Bool
  | [] => pure true
  | b :: rest => do
    let done ← attempt luck fun files => files.set f ((files f).map (· ++ [b]))
    if done then writeAll luck f rest else pure false

/-- Only the file is changed, and it has all the bytes if no step failed. -/
theorem fwpe_writeAll {luck : Luck} {f : F} {bytes : List UInt8} {start files : Files F}
    {content : List UInt8} {E : Files F → Prop} (has : files = start.set f (some content))
    (stop : ∀ c, E (start.set f c)) :
    fwpe (writeAll luck f bytes : Fio F R Bool)
      (fun done files' => (∃ c, files' = start.set f c) ∧
        (done = true → files' = start.set f (some (content ++ bytes)))) E files := by
  induction bytes generalizing content files with
  | nil =>
    refine fwpe_pure ⟨⟨_, has⟩, fun _ => ?_⟩
    rw [has, List.append_nil]
  | cons b rest ih =>
    unfold writeAll
    -- wherever the loop stops, the file has some content, and no other file differs
    refine fwpe_attempt_bind (has ▸ stop _) ?_ ?_
    · have longer : files.set f ((files f).map (· ++ [b])) =
          start.set f (some (content ++ [b])) := by
        rw [has, set_same, set_set, Option.map_some]
      refine fwpe_mono (ih longer) ?_ (fun _ => id)
      rintro done files' ⟨only, all⟩
      refine ⟨only, fun ok => ?_⟩
      rw [all ok, List.append_assoc, List.singleton_append]
    · exact fwpe_pure ⟨⟨_, has⟩, nofun⟩

end

end Faults
