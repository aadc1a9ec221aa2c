import Mathlib.Data.List.Basic

/-!
# Frames between markers

A frame is a body between two markers. A receiver that scans a stream keeps the body read
since the last marker that may open a frame; a marker closes the frame if `check` accepts
its body, else it opens the next one.
-/

namespace Framing

variable {B P : Type} [DecidableEq B] (marker : B) (check : List B → Option P)

/-- What a byte delivers, and what is open after it. -/
def scanByte (st : Option (List B)) (c : B) : List P × Option (List B) :=
  if c = marker then
    match st with
    | none => ([], some [])
    | some body =>
      match check body with
      | some payload => ([payload], none)
      | none => ([], some [])
  else ([], st.map (· ++ [c]))

def scan : Option (List B) → List B → List P × Option (List B)
  | st, [] => ([], st)
  | st, c :: rest =>
    ((scanByte marker check st c).1 ++ (scan (scanByte marker check st c).2 rest).1,
      (scan (scanByte marker check st c).2 rest).2)

variable {marker check}

theorem scan_append (st : Option (List B)) (first second : List B) :
    scan marker check st (first ++ second) =
      ((scan marker check st first).1 ++
        (scan marker check (scan marker check st first).2 second).1,
      (scan marker check (scan marker check st first).2 second).2) := by
  induction first generalizing st with
  | nil => rfl
  | cons c rest ih => simp only [List.cons_append, scan, ih, List.append_assoc]

/-- Bytes that are no marker only make the open body longer. -/
theorem scan_body (st : Option (List B)) {bytes : List B} (clean : marker ∉ bytes) :
    scan marker check st bytes = ([], st.map (· ++ bytes)) := by
  induction bytes generalizing st with
  | nil => cases st <;> simp [scan]
  | cons c rest ih =>
    obtain ⟨other, clean⟩ := not_or.mp (List.mem_cons.not.mp clean)
    have byte : scanByte marker check st c = ([], st.map (· ++ [c])) :=
      if_neg fun same => other same.symm
    rw [scan, byte, ih _ clean]
    cases st <;> simp

theorem scan_opens (rest : List B) :
    scan marker check none (marker :: rest) = scan marker check (some []) rest := by
  have opens : scanByte marker check none marker = ([], some []) := if_pos rfl
  rw [scan, opens]
  rfl

theorem scan_closes {body : List B} {payload : P} (accepted : check body = some payload)
    (rest : List B) : scan marker check (some body) (marker :: rest) =
      (payload :: (scan marker check none rest).1, (scan marker check none rest).2) := by
  have closes : scanByte marker check (some body) marker = ([payload], none) := by
    rw [scanByte, if_pos rfl, accepted]
  rw [scan, closes]
  rfl

theorem scan_reopens {body : List B} (refused : check body = none) (rest : List B) :
    scan marker check (some body) (marker :: rest) = scan marker check (some []) rest := by
  have reopens : scanByte marker check (some body) marker = ([], some []) := by
    rw [scanByte, if_pos rfl, refused]
  rw [scan, reopens]
  rfl

theorem scan_frame {body : List B} {payload : P} (clean : marker ∉ body)
    (accepted : check body = some payload) :
    scan marker check none (marker :: body ++ [marker]) = ([payload], none) := by
  have closes : scan marker check (some body) [marker] = ([payload], none) :=
    scan_closes accepted []
  rw [List.cons_append, scan_opens, scan_append, scan_body _ clean]
  simp only [Option.map_some, List.nil_append, closes]

/-- A stream of frames delivers their payloads. -/
theorem scan_frames {frames : List (List B × P)}
    (good : ∀ f ∈ frames, marker ∉ f.1 ∧ check f.1 = some f.2) :
    scan marker check none (frames.flatMap fun f => marker :: f.1 ++ [marker]) =
      (frames.map Prod.snd, none) := by
  induction frames with
  | nil => rfl
  | cons f rest ih =>
    obtain ⟨clean, accepted⟩ := good f (by simp)
    have ih := ih fun f mem => good f (List.mem_cons_of_mem _ mem)
    rw [List.flatMap_cons, scan_append, scan_frame clean accepted, ih]
    rfl

/-- What is open holds no marker and is a part of the stream. -/
theorem scan_open {st : Option (List B)} {bytes : List B} {body : List B}
    (clean : ∀ body, st = some body → marker ∉ body)
    (h : (scan marker check st bytes).2 = some body) : marker ∉ body := by
  induction bytes generalizing st with
  | nil => exact clean body h
  | cons c rest ih =>
    refine ih ?_ h
    intro body h
    unfold scanByte at h
    split at h
    · split at h
      · obtain rfl := Option.some.inj h
        exact List.not_mem_nil
      · split at h
        · cases h
        · obtain rfl := Option.some.inj h
          exact List.not_mem_nil
    next other =>
      obtain ⟨before, same, rfl⟩ := Option.map_eq_some_iff.mp h
      intro mem
      rcases List.mem_append.mp mem with old | new
      · exact clean before same old
      · exact other (List.mem_singleton.mp new).symm

/-- In the middle of a frame, what is open is the beginning of its body. -/
theorem scan_frame_open {frame bytes body : List B} {payload : P} (clean : marker ∉ frame)
    (accepted : check frame = some payload) (part : bytes <+: marker :: frame ++ [marker])
    (h : (scan marker check none bytes).2 = some body) : body <+: frame := by
  rcases List.prefix_concat_iff.mp part with whole | part
  · rw [whole, scan_frame clean accepted] at h
    cases h
  · rcases List.prefix_cons_iff.mp part with rfl | ⟨read, rfl, inside⟩
    · cases h
    · rw [scan_opens, scan_body _ fun mem => clean (inside.subset mem)] at h
      exact (Option.some.inj h) ▸ inside

/-- In the middle of a stream of frames, what is open is the beginning of one body. -/
theorem scan_frames_open {frames : List (List B × P)}
    (good : ∀ f ∈ frames, marker ∉ f.1 ∧ check f.1 = some f.2) {bytes body : List B}
    (part : bytes <+: frames.flatMap fun f => marker :: f.1 ++ [marker])
    (h : (scan marker check none bytes).2 = some body) : ∃ f ∈ frames, body <+: f.1 := by
  induction frames generalizing bytes with
  | nil =>
    obtain rfl := List.prefix_nil.mp part
    cases h
  | cons f rest ih =>
    obtain ⟨clean, accepted⟩ := good f (by simp)
    rw [List.flatMap_cons] at part
    rcases List.prefix_or_prefix_of_prefix part (List.prefix_append _ _) with inside | ⟨more, rfl⟩
    · exact ⟨f, by simp, scan_frame_open clean accepted inside h⟩
    · -- the first frame was read, and nothing is open behind it
      rw [scan_append, scan_frame clean accepted] at h
      obtain ⟨g, mem, inside⟩ := ih (fun f mem => good f (List.mem_cons_of_mem _ mem))
        ((List.prefix_append_right_inj _).mp part) h
      exact ⟨g, List.mem_cons_of_mem _ mem, inside⟩

end Framing
