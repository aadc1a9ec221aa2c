import TBoxMpu.Gps.LocalTime

/-!
# Runs of the receiver

Over any sentences and time-outs: what the clock is set to, and when a receiver that lost its lock
is reset.
-/

namespace Gps

variable {scan : Scan} {s : GpsState}

/-! ### The clock -/

/-- An RMC sentence gives a time of this century, eight hours before whose end it was sent. -/
def Timely (scan : Scan) : Prop :=
  ∀ buf r, scan.rmc buf = some r → r.status = 65 →
    ∃ u : Utc, u.early ∧ r.date = ddmmyy u.date ∧ r.time = hhmmss u.hour u.min u.sec

/-- A time of the clock comes from a fix. -/
def FromFix (notes : List Note) (t : RtcTime) : Prop :=
  ∃ r now, Note.fixed r now ∈ notes ∧ ∃ u : Utc, r.date = ddmmyy u.date ∧
    r.time = hhmmss u.hour u.min u.sec ∧ t.Shows (u.total + 28800)

theorem FromFix.more {notes : List Note} {t : RtcTime} (from' : FromFix notes t)
    (more : List Note) : FromFix (notes ++ more) t := by
  obtain ⟨r, now, mem, shown⟩ := from'
  exact ⟨r, now, List.mem_append_left _ mem, shown⟩

theorem lostFix_notes (s : GpsState) (now : Nat) :
    (lostFix s now).synced = s.synced ∧
      ∃ reset, (lostFix s now).notes = s.notes ++ [.lost now reset] := by
  unfold lostFix
  dsimp only
  split
  · exact ⟨rfl, false, rfl⟩
  · split
    · exact ⟨rfl, true, rfl⟩
    · exact ⟨rfl, false, rfl⟩

theorem decoded_fromFix {now : Nat} {t : GpsState} (timely : Timely scan)
    (step : Decoded scan s now t) (old : ∀ time ∈ s.synced, FromFix s.notes time) :
    ∀ time ∈ t.synced, FromFix t.notes time := by
  cases step with
  | other kept synced => rwa [synced, kept.notes]
  | fixed buf r read valid notes llt synced =>
    obtain ⟨u, early, date, time⟩ := timely buf r read valid
    have before : ∀ time ∈ s.synced, FromFix t.notes time :=
      fun time mem => notes ▸ (old time mem).more _
    rcases synced with same | ⟨local', clock, moved, new⟩
    · rwa [same]
    · intro rtc mem
      rw [new] at mem
      rcases List.mem_append.mp mem with earlier | last
      · exact before rtc earlier
      · rw [List.mem_singleton.mp last]
        rw [date, time] at moved
        exact ⟨r, now, by rw [notes]; simp, u, date, time, rtcTime_shows early moved⟩
  | lost mid kept synced same =>
    obtain ⟨set, reset, notes⟩ := lostFix_notes mid now
    rw [same, set, synced, notes, kept.notes]
    exact fun time mem => (old time mem).more _

/-- `$GPRMC,A*58`, at 20:30:15 on the last day of 2023. -/
def newYear : Scan :=
  ⟨fun _ => some ⟨203015, 65, 0, 78, 0, 69, 0, 0, 311223⟩, fun _ => none⟩

/-- Neither a fix nor a reset because of a loss. -/
def Note.quiet : Note → Prop
  | .lost _ reset => reset = false
  | .silent _ => True
  | .fixed _ _ => False

/-- A sentence brought no fix at that time, and since then there was neither a fix nor a reset. -/
def Since (notes : List Note) (time : Nat) : Prop :=
  ∃ before after, notes = before ++ .lost time false :: after ∧ ∀ note ∈ after, note.quiet

/-- A loss that has lasted too long. -/
def Overdue (notes : List Note) (now : Nat) : Prop :=
  ∃ time, time ≠ 0 ∧ Since notes time ∧ time + lossLockTimeout < now

/-- A note of a longer list is its last one or one of those before. -/
theorem concat_parts {notes before after : List Note} {last note : Note}
    (same : notes ++ [last] = before ++ note :: after) :
    (notes = before ∧ last = note ∧ after = []) ∨
      ∃ inner, notes = before ++ note :: inner ∧ after = inner ++ [last] := by
  rcases List.eq_nil_or_concat after with rfl | ⟨inner, final, rfl⟩
  · obtain ⟨rfl, ends⟩ := List.append_inj' same rfl
    exact .inl ⟨rfl, (List.cons.inj ends).1, rfl⟩
  · rw [List.concat_eq_append, ← List.cons_append, ← List.append_assoc] at same
    obtain ⟨rfl, ends⟩ := List.append_inj' same rfl
    rw [List.concat_eq_append, (List.cons.inj ends).1]
    exact .inr ⟨inner, rfl, rfl⟩

theorem since_concat {notes : List Note} {note : Note} {time : Nat} :
    Since (notes ++ [note]) time ↔
      note = .lost time false ∨ note.quiet ∧ Since notes time := by
  constructor
  · rintro ⟨before, after, same, quiet⟩
    rcases concat_parts same with ⟨-, last, -⟩ | ⟨inner, rfl, rfl⟩
    · exact .inl last
    · exact .inr ⟨quiet note (by simp), before, inner, rfl,
        fun other mem => quiet other (List.mem_append_left _ mem)⟩
  · rintro (rfl | ⟨last, before, after, rfl, quiet⟩)
    · exact ⟨notes, [], rfl, fun note mem => absurd mem List.not_mem_nil⟩
    · refine ⟨before, after ++ [note], by simp, fun other mem => ?_⟩
      rcases List.mem_append.mp mem with inner | new
      · exact quiet other inner
      · rwa [List.mem_singleton.mp new]

/-- The resets stand where a loss has lasted too long. -/
def Right (notes : List Note) : Prop :=
  ∀ before now reset after, notes = before ++ .lost now reset :: after →
    (reset = true ↔ Overdue before now)

theorem Right.concat {notes : List Note} {note : Note} (right : Right notes)
    (timely : ∀ now reset, note = .lost now reset → (reset = true ↔ Overdue notes now)) :
    Right (notes ++ [note]) := by
  intro before now reset after same
  rcases concat_parts same with ⟨rfl, last, rfl⟩ | ⟨inner, rfl, rfl⟩
  · exact timely now reset last
  · exact right before now reset inner rfl

/-- `llt` is the first time of the loss that is going on. -/
structure Lost (s : GpsState) : Prop where
  first : s.llt ≠ 0 → Since s.notes s.llt
  least : ∀ time, Since s.notes time → time ≠ 0 → s.llt ≠ 0 ∧ s.llt ≤ time
  past : s.llt ≤ s.clock
  fits : s.clock < 2 ^ 64
  right : Right s.notes

/-- The comparison of `gps_decode`. -/
theorem Lost.overdue_iff (lost : Lost s) {now : Nat} (later : s.clock ≤ now)
    (fits : now < 2 ^ 64) (going : s.llt ≠ 0) :
    (now + 2 ^ 64 - s.llt) % 2 ^ 64 > lossLockTimeout ↔ Overdue s.notes now := by
  have past := lost.past
  have passed : (now + 2 ^ 64 - s.llt) % 2 ^ 64 = now - s.llt := by omega
  rw [passed]
  constructor
  · intro long
    exact ⟨s.llt, going, lost.first going, by omega⟩
  · rintro ⟨start, some, since, overdue⟩
    have least := (lost.least start since some).2
    omega

theorem lostFix_lost (lost : Lost s) {now : Nat} (later : s.clock ≤ now) (fits : now < 2 ^ 64) :
    Lost { lostFix s now with clock := now } := by
  have past := lost.past
  unfold lostFix
  dsimp only
  split
  next idle =>
    have none' : ∀ time, Since s.notes time → time = 0 := by
      intro time since
      by_contra some
      exact (lost.least time since some).1 idle
    refine ⟨fun _ => since_concat.mpr (.inl rfl), fun time since some => ?_, le_refl _, fits, ?_⟩
    · rcases since_concat.mp since with last | ⟨-, since⟩
      · cases last
        exact ⟨some, le_refl _⟩
      · exact absurd (none' time since) some
    · refine lost.right.concat fun time reset last => ?_
      cases last
      refine iff_of_false Bool.false_ne_true ?_
      rintro ⟨start, some, since, -⟩
      exact some (none' start since)
  next going =>
    have due := lost.overdue_iff later fits going
    split
    next long =>
      refine ⟨fun wrong => absurd rfl wrong, fun time since => ?_, Nat.zero_le _, fits, ?_⟩
      · rcases since_concat.mp since with last | ⟨quiet, -⟩
        · cases last
        · cases quiet
      · refine lost.right.concat fun time reset last => ?_
        cases last
        exact iff_of_true rfl (due.mp long)
    next short =>
      refine ⟨fun _ => since_concat.mpr (.inr ⟨rfl, lost.first going⟩),
        fun time since some => ?_, past.trans later, fits, ?_⟩
      · rcases since_concat.mp since with last | ⟨-, since⟩
        · cases last
          exact ⟨going, past.trans later⟩
        · exact lost.least time since some
      · refine lost.right.concat fun time reset last => ?_
        cases last
        exact iff_of_false Bool.false_ne_true fun overdue => short (due.mpr overdue)

/-- Only the notes, `llt` and the clock count. -/
theorem Lost.kept {t : GpsState} (lost : Lost s) (kept : Kept s t) : Lost t := by
  obtain ⟨notes, llt, clock⟩ := kept
  obtain ⟨first, least, past, fits, right⟩ := lost
  rw [← notes, ← llt] at first
  rw [← notes, ← llt] at least
  rw [← llt, ← clock] at past
  rw [← clock] at fits
  rw [← notes] at right
  exact ⟨first, least, past, fits, right⟩

theorem decoded_lost {now : Nat} {t : GpsState} (step : Decoded scan s now t) (lost : Lost s)
    (later : s.clock ≤ now) (fits : now < 2 ^ 64) : Lost { t with clock := now } := by
  cases step with
  | other kept synced =>
    obtain ⟨first, least, past, -, right⟩ := lost.kept kept
    exact ⟨first, least, past.trans (kept.clock ▸ later), fits, right⟩
  | fixed buf r read valid notes llt synced =>
    refine ⟨fun wrong => absurd llt wrong, fun time since => ?_, ?_, fits, ?_⟩
    · have since : Since t.notes time := since
      rw [notes] at since
      rcases since_concat.mp since with last | ⟨quiet, -⟩
      · cases last
      · exact quiet.elim
    · show t.llt ≤ now
      rw [llt]
      exact Nat.zero_le _
    · show Right t.notes
      rw [notes]
      refine lost.right.concat fun time reset last => ?_
      cases last
  | lost mid kept synced same =>
    rw [same]
    exact lostFix_lost (lost.kept kept) (kept.clock ▸ later) fits

theorem reach_lost (reach : Runs.Reach Start (Step scan) s) : Lost s := by
  induction reach with
  | start start =>
    obtain ⟨distance, rfl⟩ := start
    refine ⟨fun wrong => absurd rfl wrong, ?_, le_refl _, Nat.two_pow_pos 64, ?_⟩
    · rintro time ⟨before, after, same, -⟩
      cases before <;> cases same
    · intro before now reset after same
      cases before <;> cases same
  | next event reach step ih =>
    cases step with
    | sentence later fits => exact decoded_lost (gpsDecode_decoded scan _ _ _) ih later fits
    | dataTimer later fits =>
      refine ⟨fun going => since_concat.mpr (.inr ⟨trivial, ih.first going⟩),
        fun time since some => ?_, ih.past.trans later, fits,
        ih.right.concat fun time reset last => ?_⟩
      · rcases since_concat.mp since with last | ⟨-, since⟩
        · cases last
        · exact ih.least time since some
      · cases last

/-- A sentence that brings no fix resets the receiver exactly if another one brought none more than
five minutes before, with neither a fix nor such a reset in between. -/
theorem reset_overdue (reach : Runs.Reach Start (Step scan) s) {before after : List Note}
    {now : Nat} {reset : Bool} (lost : s.notes = before ++ .lost now reset :: after) :
    reset = true ↔ Overdue before now :=
  (reach_lost reach).right before now reset after lost

/-- A receiver without any position. -/
def indoors : Scan := ⟨fun _ => none, fun _ => none⟩

/-- Two sentences, a millisecond more than five minutes apart. -/
theorem reset_overdue_indoors : true = true ↔ Overdue [.lost 1 false] 300002 := by
  have start : Runs.Reach Start (Step indoors) (.init 0) := .start ⟨0, rfl⟩
  have first := start.next (.sentence (Scanf.chars "$GPRMC,V*31"), 1)
    (.sentence (by decide) (by decide))
  have second := first.next (.sentence (Scanf.chars "$GPRMC,V*31"), 300002)
    (.sentence (by decide) (by decide))
  exact reset_overdue second (show _ = [Note.lost 1 false] ++ .lost 300002 true :: [] from rfl)

end Gps
