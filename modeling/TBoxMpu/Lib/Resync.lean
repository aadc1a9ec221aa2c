import TBoxMpu.Lib.Framing

/-!
# Frames in a bounded buffer

A receiver of frames between markers keeps the bytes of an open frame in a buffer. When the buffer
is full, it throws them away but goes on as if a frame were open: the next byte stands where the
marker of that frame was.

`feeds_frames`: after any bytes the receiver delivers all frames that fit the buffer but the first.
-/

namespace Framing

variable {B P : Type} {size : Nat}

/-- What a receiver keeps: an open body or none, or nothing in place of an open body. -/
inductive Rx (B : Type)
  | kept (st : Option (List B))
  | blank

/-- A body and its marker fill the buffer. -/
def Rx.Full (size : Nat) (rx : Rx B) : Prop :=
  ∃ body, rx = .kept (some body) ∧ size ≤ body.length + 1

theorem not_full_none : ¬ (Rx.kept none : Rx B).Full size := by
  rintro ⟨body, same, -⟩
  cases same

theorem not_full_blank : ¬ (Rx.blank : Rx B).Full size := by
  rintro ⟨body, same, -⟩
  cases same

theorem not_full_some {body : List B} (room : body.length + 1 < size) :
    ¬ (Rx.kept (some body)).Full size := by
  rintro ⟨body', same, full⟩
  cases same
  omega

/-- From here the next frame is delivered: between frames, behind a single marker, or where the
buffer was thrown away. -/
inductive Rx.Synced : Rx B → Prop
  | closed : Synced (.kept none)
  | opened : Synced (.kept (some []))
  | blank : Synced .blank

theorem Rx.Synced.room {rx : Rx B} (synced : rx.Synced) (least : 2 ≤ size) : ¬ rx.Full size := by
  cases synced with
  | closed => exact not_full_none
  | opened => exact not_full_some least
  | blank => exact not_full_blank

variable [DecidableEq B]

/-- What a byte delivers, and what is kept after it. -/
def Rx.byte (marker : B) (check : List B → Option P) : Rx B → B → List P × Rx B
  | .kept st, c => ((scanByte marker check st c).1, .kept (scanByte marker check st c).2)
  | .blank, _ => ([], .kept (some []))

/-- Bytes are received; the buffer may be thrown away wherever it is full. -/
inductive Feeds (marker : B) (check : List B → Option P) (size : Nat) :
    Rx B → List B → List P → Rx B → Prop
  | done {rx : Rx B} : Feeds marker check size rx [] [] rx
  | byte {rx rx' : Rx B} {c : B} {rest : List B} {out : List P} :
      Feeds marker check size (rx.byte marker check c).2 rest out rx' →
      Feeds marker check size rx (c :: rest) ((rx.byte marker check c).1 ++ out) rx'
  | reset {rx rx' : Rx B} {bytes : List B} {out : List P} : rx.Full size →
      Feeds marker check size .blank bytes out rx' → Feeds marker check size rx bytes out rx'

variable {marker : B} {check : List B → Option P} {rx rx' rx'' : Rx B}
  {bytes bytes' : List B} {out out' : List P}

/-! ### Parts of a stream -/

theorem Feeds.append (first : Feeds marker check size rx bytes out rx')
    (second : Feeds marker check size rx' bytes' out' rx'') :
    Feeds marker check size rx (bytes ++ bytes') (out ++ out') rx'' := by
  induction first with
  | done => exact second
  | byte _ ih =>
    rw [List.append_assoc]
    exact .byte (ih second)
  | reset full _ ih => exact .reset full (ih second)

theorem Feeds.split (fed : Feeds marker check size rx (bytes ++ bytes') out rx'') :
    ∃ first second rx', out = first ++ second ∧ Feeds marker check size rx bytes first rx' ∧
      Feeds marker check size rx' bytes' second rx'' := by
  generalize whole : bytes ++ bytes' = all at fed
  induction fed generalizing bytes with
  | @done rx =>
    obtain ⟨rfl, rfl⟩ := List.append_eq_nil_iff.mp whole
    exact ⟨[], [], rx, rfl, .done, .done⟩
  | @byte rx last c rest out fed ih =>
    cases bytes with
    | nil =>
      rw [List.nil_append] at whole
      subst whole
      exact ⟨[], _, rx, rfl, .done, .byte fed⟩
    | cons b bytes =>
      obtain ⟨rfl, same⟩ := List.cons.inj whole
      obtain ⟨first, second, rx', rfl, before, behind⟩ := ih same
      exact ⟨_, second, rx', (List.append_assoc ..).symm, .byte before, behind⟩
  | reset full _ ih =>
    obtain ⟨first, second, rx', rfl, before, behind⟩ := ih whole
    exact ⟨first, second, rx', rfl, .reset full before, behind⟩

/-- A scan is a way to receive. -/
theorem feeds_scan (st : Option (List B)) (bytes : List B) :
    Feeds marker check size (.kept st) bytes (scan marker check st bytes).1
      (.kept (scan marker check st bytes).2) := by
  induction bytes generalizing st with
  | nil => exact .done
  | cons c rest ih => exact .byte (ih (scanByte marker check st c).2)

/-- Where the buffer is not full, the first byte is received as it is. -/
theorem Feeds.first {c : B} {now : List P} {next : Rx B} (room : ¬ rx.Full size)
    (byte : rx.byte marker check c = (now, next))
    (fed : Feeds marker check size rx (c :: bytes) out rx') :
    ∃ later, out = now ++ later ∧ Feeds marker check size next bytes later rx' := by
  cases fed with
  | byte fed =>
    rw [byte] at fed ⊢
    exact ⟨_, rfl, fed⟩
  | reset full => exact absurd full room

theorem Feeds.last (room : ¬ rx.Full size) (fed : Feeds marker check size rx [] out rx') :
    out = [] ∧ rx' = rx := by
  cases fed with
  | done => exact ⟨rfl, rfl⟩
  | reset full => exact absurd full room

theorem byte_kept {st next : Option (List B)} {c : B} {now : List P}
    (byte : scanByte marker check st c = (now, next)) :
    (Rx.kept st).byte marker check c = (now, .kept next) := by
  rw [Rx.byte, byte]

/-! ### One frame -/

/-- Outside of a frame, bytes that are no marker are passed over. -/
theorem feeds_outside (clean : marker ∉ bytes)
    (fed : Feeds marker check size (.kept none) (bytes ++ bytes') out rx') :
    Feeds marker check size (.kept none) bytes' out rx' := by
  induction bytes generalizing out with
  | nil => exact fed
  | cons c rest ih =>
    obtain ⟨other, clean⟩ := not_or.mp (List.mem_cons.not.mp clean)
    have byte : scanByte marker check none c = ([], none) := if_neg (Ne.symm other)
    obtain ⟨more, rfl, fed⟩ := fed.first not_full_none (byte_kept byte)
    exact ih clean fed

/-- The rest of a frame that is open and fits the buffer. -/
theorem feeds_rest {front rest : List B} {payload : P} (clean : marker ∉ rest)
    (accepted : check (front ++ rest) = some payload) (fits : (front ++ rest).length + 2 ≤ size)
    (fed : Feeds marker check size (.kept (some front)) (rest ++ [marker]) out rx') :
    out = [payload] ∧ rx' = .kept none := by
  rw [List.length_append] at fits
  induction rest generalizing front out with
  | nil =>
    rw [List.append_nil] at accepted
    have byte : scanByte marker check (some front) marker = ([payload], none) := by
      rw [scanByte, if_pos rfl, accepted]
    obtain ⟨more, rfl, later⟩ := fed.first (not_full_some (by omega)) (byte_kept byte)
    obtain ⟨rfl, rfl⟩ := later.last not_full_none
    exact ⟨rfl, rfl⟩
  | cons c rest ih =>
    obtain ⟨other, clean⟩ := not_or.mp (List.mem_cons.not.mp clean)
    have byte : scanByte marker check (some front) c = ([], some (front ++ [c])) :=
      if_neg (Ne.symm other)
    rw [List.length_cons] at fits
    rw [List.cons_append] at fed
    obtain ⟨more, rfl, fed⟩ := fed.first (not_full_some (by omega)) (byte_kept byte)
    refine ih clean ?_ ?_ fed
    · rwa [List.append_assoc]
    · rw [List.length_append, List.length_singleton]
      omega

/-- A marker opens a frame there. -/
theorem Rx.Synced.opens (synced : rx.Synced) (empty : check [] = none) :
    rx.byte marker check marker = ([], .kept (some [])) := by
  cases synced with
  | closed => rw [Rx.byte, scanByte, if_pos rfl]
  -- no frame is empty
  | opened => rw [Rx.byte, scanByte, if_pos rfl, empty]
  | blank => rfl

variable {body : List B} {payload : P}

theorem feeds_synced (empty : check [] = none) (clean : marker ∉ body)
    (accepted : check body = some payload) (fits : body.length + 2 ≤ size) (synced : rx.Synced)
    (fed : Feeds marker check size rx (marker :: body ++ [marker]) out rx') :
    out = [payload] ∧ rx' = .kept none := by
  rw [List.cons_append] at fed
  obtain ⟨more, rfl, fed⟩ := fed.first (synced.room (by omega)) (synced.opens empty)
  exact feeds_rest clean accepted fits fed

/-- Behind a frame the receiver is synced, wherever it was before: the frame's first marker may end
a body that is accepted, so that its last one opens the next. -/
theorem synced_after (empty : check [] = none) (clean : marker ∉ body)
    (accepted : check body = some payload) (fits : body.length + 2 ≤ size)
    (fed : Feeds marker check size rx (marker :: body ++ [marker]) out rx') : rx'.Synced := by
  have synced : ∀ {rx : Rx B} {out : List P}, rx.Synced →
      Feeds marker check size rx (marker :: body ++ [marker]) out rx' → rx'.Synced :=
    fun synced fed => (feeds_synced empty clean accepted fits synced fed).2 ▸ .closed
  rcases rx with (_ | before) | _
  · exact synced .closed fed
  · rw [List.cons_append] at fed
    cases fed with
    | reset _ fed => exact synced .blank fed
    | byte fed =>
      cases ends : check before with
      -- the frame is open, as behind a marker alone
      | none =>
        have byte : scanByte marker check (some before) marker = ([], some []) := by
          rw [scanByte, if_pos rfl, ends]
        rw [byte_kept byte] at fed
        obtain ⟨-, rfl⟩ := feeds_rest clean accepted fits fed
        exact .closed
      | some other =>
        have byte : scanByte marker check (some before) marker = ([other], none) := by
          rw [scanByte, if_pos rfl, ends]
        rw [byte_kept byte] at fed
        have opens : scanByte marker check none marker = ([], some []) := if_pos rfl
        obtain ⟨more, _, rest⟩ := (feeds_outside clean fed).first not_full_none (byte_kept opens)
        obtain ⟨-, rfl⟩ := rest.last (not_full_some (show 1 < size by omega))
        exact .opened
  · exact synced .blank fed

/-! ### Frames -/

theorem Feeds.nothing (fed : Feeds marker check size rx [] out rx') : out = [] := by
  generalize none : ([] : List B) = bytes at fed
  induction fed with
  | done => rfl
  | byte => cases none
  | reset _ _ ih => exact ih none

theorem feeds_all (empty : check [] = none) {frames : List (List B × P)}
    (good : ∀ f ∈ frames, marker ∉ f.1 ∧ check f.1 = some f.2 ∧ f.1.length + 2 ≤ size)
    (synced : rx.Synced)
    (fed : Feeds marker check size rx (frames.flatMap fun f => marker :: f.1 ++ [marker]) out rx') :
    out = frames.map Prod.snd := by
  induction frames generalizing rx out with
  | nil => exact fed.nothing
  | cons f rest ih =>
    obtain ⟨clean, accepted, fits⟩ := good f List.mem_cons_self
    rw [List.flatMap_cons] at fed
    obtain ⟨first, second, mid, rfl, before, behind⟩ := fed.split
    obtain ⟨rfl, rfl⟩ := feeds_synced empty clean accepted fits synced before
    rw [ih (fun f mem => good f (.tail _ mem)) .closed behind]
    rfl

/-- Whatever comes first, the frames behind it are delivered one after the other, but the first. -/
theorem feeds_frames (empty : check [] = none) {frames : List (List B × P)}
    (good : ∀ f ∈ frames, marker ∉ f.1 ∧ check f.1 = some f.2 ∧ f.1.length + 2 ≤ size)
    (fed : Feeds marker check size rx
      (bytes ++ frames.flatMap fun f => marker :: f.1 ++ [marker]) out rx') :
    ∃ early, out = early ++ (frames.map Prod.snd).drop 1 := by
  cases frames with
  | nil => exact ⟨out, (List.append_nil out).symm⟩
  | cons f rest =>
    obtain ⟨clean, accepted, fits⟩ := good f List.mem_cons_self
    rw [List.flatMap_cons, ← List.append_assoc] at fed
    obtain ⟨first, second, mid, rfl, before, behind⟩ := fed.split
    obtain ⟨early, late, start, rfl, -, frame⟩ := before.split
    have synced := synced_after empty clean accepted fits frame
    refine ⟨early ++ late, ?_⟩
    rw [feeds_all empty (fun f mem => good f (.tail _ mem)) synced behind]
    rfl

end Framing
