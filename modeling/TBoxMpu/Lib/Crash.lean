import TBoxMpu.Lib.Effects

/-!
# Programs over files, with crashes

A program changes files one elementary step at a time, and stops where the power fails: after
`life` steps. What holds at a crash is the second postcondition of `Effects.wp`.
-/

namespace Crash

open Effects

variable {F : Type}

/-- What the files hold; `none` for a file that is not there. -/
abbrev Files (F : Type) := F → Option (List UInt8)

structure Disk (F : Type) where
  files : Files F
  life : Nat

/-- The power failed. -/
inductive Failed
  | power
  deriving DecidableEq, Repr

abbrev Io (F : Type) := EStateM Failed (Disk F)

def read : Io F (Files F) :=
  fun d => .ok d.files d

/-- One elementary step, if the power lasts. -/
def step (change : Files F → Files F) : Io F Unit :=
  fun d => if d.life = 0 then .error .power d else .ok () ⟨change d.files, d.life - 1⟩

/-- A step that the files do not show: a directory, an owner, a flush. -/
def quiet : Io F Unit :=
  step id

/-- `Q` holds of the files if `p` returns, `E` if the power fails. -/
def fwp {α : Type} (p : Io F α) (Q : α → Files F → Prop) (E : Files F → Prop)
    (files : Files F) : Prop :=
  ∀ life, wp p (fun a d => Q a d.files) (fun d => E d.files) ⟨files, life⟩

section

variable {α β : Type} {Q : α → Files F → Prop} {E : Files F → Prop} {files : Files F}

theorem fwp_pure {a : α} (h : Q a files) : fwp (pure a : Io F α) Q E files :=
  fun _ => h

theorem fwp_read {Q : Files F → Files F → Prop} (h : Q files files) : fwp read Q E files :=
  fun _ => h

theorem fwp_step {Q : Unit → Files F → Prop} {change : Files F → Files F} (crash : E files)
    (h : Q () (change files)) : fwp (step change) Q E files := by
  intro life
  unfold wp step
  by_cases dead : life = 0
  · simpa [dead] using crash
  · simpa [dead] using h

theorem fwp_bind {Q' : β → Files F → Prop} {p : Io F α} {f : α → Io F β}
    (h : fwp p Q E files) (next : ∀ a files', Q a files' → fwp (f a) Q' E files') :
    fwp (p >>= f) Q' E files := by
  intro life
  apply wp_seq (h life)
  · exact fun a d post => next a d.files post d.life
  · exact fun _ crash => crash

theorem fwp_read_bind {f : Files F → Io F α} (next : fwp (f files) Q E files) :
    fwp (read >>= f) Q E files :=
  fwp_bind (fwp_read (Q := fun read files' => read = files ∧ files' = files) ⟨rfl, rfl⟩)
    (by rintro _ _ ⟨rfl, rfl⟩; exact next)

/-- A crash at the step finds the files as they were before it. -/
theorem fwp_step_bind {change : Files F → Files F} {f : Unit → Io F α} (crash : E files)
    (next : fwp (f ()) Q E (change files)) : fwp (step change >>= f) Q E files :=
  fwp_bind (fwp_step (Q := fun _ files' => files' = change files) crash rfl)
    (by rintro ⟨⟩ _ rfl; exact next)

theorem fwp_mono {Q' : α → Files F → Prop} {E' : Files F → Prop} {p : Io F α}
    (h : fwp p Q E files) (value : ∀ a files', Q a files' → Q' a files')
    (crash : ∀ files', E files' → E' files') : fwp p Q' E' files :=
  fun life => wp_mono (h life) (fun a d => value a d.files) (fun d => crash d.files)

theorem fwp_ite {c : Prop} [Decidable c] {p q : Io F α} (yes : c → fwp p Q E files)
    (no : ¬c → fwp q Q E files) : fwp (if c then p else q) Q E files := by
  split
  · exact yes ‹_›
  · exact no ‹_›

theorem fwp_ok {p : Io F α} (h : fwp p Q E files) {life : Nat} {a : α} {d : Disk F}
    (run : p ⟨files, life⟩ = .ok a d) : Q a d.files := by
  have post := h life
  unfold wp at post
  rwa [run] at post

theorem fwp_error {p : Io F α} (h : fwp p Q E files) {life : Nat} {e : Failed} {d : Disk F}
    (run : p ⟨files, life⟩ = .error e d) : E d.files := by
  have post := h life
  unfold wp at post
  rwa [run] at post

end

/-! ### Reading and writing -/

section

variable [DecidableEq F]

def Files.set (files : Files F) (f : F) (content : Option (List UInt8)) : Files F :=
  fun g => if g = f then content else files g

@[simp]
theorem set_same (files : Files F) (f : F) (c : Option (List UInt8)) : files.set f c f = c :=
  if_pos rfl

theorem set_other (files : Files F) {f g : F} (c : Option (List UInt8)) (h : g ≠ f) :
    files.set f c g = files g :=
  if_neg h

theorem set_set (files : Files F) (f : F) (c c' : Option (List UInt8)) :
    (files.set f c).set f c' = files.set f c' := by
  funext g
  unfold Files.set
  split <;> rfl

/-- The file is made, or emptied. -/
def create (f : F) : Io F Unit :=
  step fun files => files.set f (some [])

def append (f : F) (b : UInt8) : Io F Unit :=
  step fun files => files.set f ((files f).map (· ++ [b]))

def rename (f g : F) : Io F Unit :=
  step fun files => if (files f).isSome then (files.set g (files f)).set f none else files

def write (f : F) : List UInt8 → Io F Unit
  | [] => pure ()
  | b :: rest => do
    append f b
    write f rest

/-- A crash leaves a prefix of what is to be written. -/
theorem fwp_write {f : F} {content bytes : List UInt8} {files : Files F}
    (has : files f = some content) :
    fwp (write f bytes) (fun _ files' => files' = files.set f (some (content ++ bytes)))
      (fun files' => ∃ p, p <+: bytes ∧ files' = files.set f (some (content ++ p))) files := by
  have same : files = files.set f (some (content ++ [])) := by
    funext g
    unfold Files.set
    split
    next h => rw [h, has, List.append_nil]
    · rfl
  induction bytes generalizing content files with
  | nil => exact fwp_pure same
  | cons b rest ih =>
    unfold write append
    apply fwp_step_bind ⟨[], List.nil_prefix, same⟩
    rw [has, Option.map_some]
    refine fwp_mono (ih (set_same _ _ _) ?_) ?_ ?_
    · rw [set_set, List.append_nil]
    · rintro _ _ rfl
      rw [set_set, List.append_assoc, List.singleton_append]
    · rintro _ ⟨p, prefixed, rfl⟩
      refine ⟨b :: p, List.cons_prefix_cons.mpr ⟨rfl, prefixed⟩, ?_⟩
      rw [set_set, List.append_assoc, List.singleton_append]

end

end Crash
