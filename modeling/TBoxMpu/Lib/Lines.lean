import Mathlib.Data.List.Infix

/-!
# Lines of a stream

A line ends at two bytes, `cr` and `lf`, one right behind the other. Splitting is a scan that keeps
what was read since the last end of a line, so a stream may be split piece by piece.
-/

namespace Lines

variable {B : Type} [DecidableEq B] (cr lf : B)

/-- What a byte completes, and what is open after it. -/
def splitByte (body : List B) (b : B) : List (List B) × List B :=
  if body.getLast? = some cr ∧ b = lf then ([body.dropLast], []) else ([], body ++ [b])

def split : List B → List B → List (List B) × List B
  | body, [] => ([], body)
  | body, b :: bytes =>
    ((splitByte cr lf body b).1 ++ (split (splitByte cr lf body b).2 bytes).1,
      (split (splitByte cr lf body b).2 bytes).2)

/-- A stream of lines. -/
def joined (lines : List (List B)) : List B := lines.flatMap (· ++ [cr, lf])

variable {cr lf}

theorem split_append (body first second : List B) :
    split cr lf body (first ++ second) =
      ((split cr lf body first).1 ++ (split cr lf (split cr lf body first).2 second).1,
        (split cr lf (split cr lf body first).2 second).2) := by
  induction first generalizing body with
  | nil => rfl
  | cons b first ih => simp only [List.cons_append, split, ih, List.append_assoc]

/-- Bytes without an end of line are kept. -/
theorem split_open {body bytes : List B} (clean : ¬ [cr, lf] <:+: body ++ bytes) :
    split cr lf body bytes = ([], body ++ bytes) := by
  induction bytes generalizing body with
  | nil => rw [split, List.append_nil]
  | cons b bytes ih =>
    have kept : splitByte cr lf body b = ([], body ++ [b]) := by
      refine if_neg ?_
      rintro ⟨last, rfl⟩
      obtain ⟨front, rfl⟩ := List.getLast?_eq_some_iff.mp last
      exact clean ⟨front, bytes, by simp⟩
    have clean : ¬ [cr, lf] <:+: body ++ [b] ++ bytes := by
      rwa [List.append_assoc]
    rw [split, kept, ih clean, List.append_assoc]
    rfl

/-- What is open holds no end of line. -/
theorem split_clean {body : List B} (clean : ¬ [cr, lf] <:+: body) (bytes : List B) :
    ¬ [cr, lf] <:+: (split cr lf body bytes).2 := by
  induction bytes generalizing body with
  | nil => exact clean
  | cons b bytes ih =>
    refine ih ?_
    unfold splitByte
    split
    · exact fun inside => absurd (inside.length_le) (by simp)
    next other =>
      intro inside
      rcases List.infix_concat_iff.mp inside with atEnd | before
      · obtain ⟨front, same⟩ := atEnd
        have parts : front ++ [cr] ++ [lf] = body ++ [b] := by simpa using same
        obtain ⟨rfl, last⟩ := List.append_inj' parts rfl
        exact other ⟨by simp, (List.cons.inj last).1.symm⟩
      · exact clean before

/-- A line and its end, whatever follows. -/
theorem split_line {line : List B} (clean : ¬ [cr, lf] <:+: line ++ [cr]) (bytes : List B) :
    split cr lf [] (line ++ [cr, lf] ++ bytes) =
      (line :: (split cr lf [] bytes).1, (split cr lf [] bytes).2) := by
  have front : split cr lf [] (line ++ [cr]) = ([], line ++ [cr]) := split_open clean
  have ended : splitByte cr lf (line ++ [cr]) lf = ([line], []) := by
    rw [splitByte, if_pos ⟨List.getLast?_concat, rfl⟩, List.dropLast_concat]
  have parts : line ++ [cr, lf] ++ bytes = line ++ [cr] ++ lf :: bytes := by simp
  rw [parts, split_append, front, split, ended]
  rfl

/-- A stream of lines is split into them, and into what follows the last one. -/
theorem split_joined {lines : List (List B)} {rest : List B}
    (clean : ∀ line ∈ lines, ¬ [cr, lf] <:+: line ++ [cr]) (open' : ¬ [cr, lf] <:+: rest) :
    split cr lf [] (joined cr lf lines ++ rest) = (lines, rest) := by
  induction lines with
  | nil => exact split_open open'
  | cons line lines ih =>
    have parts : joined cr lf (line :: lines) ++ rest =
        line ++ [cr, lf] ++ (joined cr lf lines ++ rest) := by
      simp [joined]
    rw [parts, split_line (clean line List.mem_cons_self),
      ih fun line mem => clean line (List.mem_cons_of_mem _ mem)]

omit [DecidableEq B] in
theorem clean_concat {line : List B} (apart : cr ≠ lf) (clean : ¬ [cr, lf] <:+: line) :
    ¬ [cr, lf] <:+: line ++ [cr] := by
  intro inside
  rcases List.infix_concat_iff.mp inside with ⟨front, same⟩ | before
  · have parts : front ++ [cr] ++ [lf] = line ++ [cr] := by simpa using same
    exact apart (List.cons.inj (List.append_inj' parts rfl).2).1.symm
  · exact clean before

omit [DecidableEq B] in
/-- Two bytes stand in one of two pieces, or on either side of the cut. -/
theorem pair_infix_append {a b : B} {first second : List B}
    (inside : [a, b] <:+: first ++ second) :
    [a, b] <:+: first ∨ [a, b] <:+: second ∨
      first.getLast? = some a ∧ second.head? = some b := by
  induction first with
  | nil => exact .inr (.inl inside)
  | cons c first ih =>
    rcases List.infix_cons_iff.mp inside with start | later
    · obtain ⟨rfl, behind⟩ := List.cons_prefix_cons.mp start
      cases first with
      | nil =>
        obtain ⟨more, rfl⟩ := behind
        exact .inr (.inr ⟨rfl, rfl⟩)
      | cons d first =>
        obtain ⟨rfl, -⟩ := List.cons_prefix_cons.mp behind
        exact .inl ⟨[], first, rfl⟩
    · rcases ih later with front | back | ⟨last, next⟩
      · exact .inl (front.trans (List.suffix_cons c first).isInfix)
      · exact .inr (.inl back)
      · refine .inr (.inr ⟨?_, next⟩)
        rw [List.getLast?_cons, last]
        rfl

/-- What is open is the end of what was read. -/
theorem split_suffix (body bytes : List B) :
    (split cr lf body bytes).2 <:+ body ++ bytes := by
  induction bytes generalizing body with
  | nil => rw [List.append_nil]; exact List.suffix_rfl
  | cons b bytes ih =>
    refine (ih (splitByte cr lf body b).2).trans ?_
    unfold splitByte
    split
    · exact (List.suffix_cons b bytes).trans (List.suffix_append body (b :: bytes))
    · rw [List.append_assoc]
      exact List.suffix_rfl

/-- In a stream of lines, what is open is never longer than a line and its first end byte. -/
theorem split_short {lines : List (List B)} {rest front : List B} {n : Nat}
    (clean : ∀ line ∈ lines, ¬ [cr, lf] <:+: line ++ [cr]) (cleanRest : ¬ [cr, lf] <:+: rest)
    (short : ∀ line ∈ lines, line.length ≤ n) (shortRest : rest.length ≤ n + 1)
    (part : front <+: joined cr lf lines ++ rest) :
    (split cr lf [] front).2.length ≤ n + 1 := by
  induction lines generalizing front with
  | nil =>
    have part : front <+: rest := part
    have open' : split cr lf [] front = ([], front) :=
      split_open fun inside => cleanRest (inside.trans part.isInfix)
    rw [open']
    exact part.length_le.trans shortRest
  | cons line lines ih =>
    have first := clean line List.mem_cons_self
    have cleanMore : ∀ line ∈ lines, ¬ [cr, lf] <:+: line ++ [cr] :=
      fun line mem => clean line (List.mem_cons_of_mem _ mem)
    have shortMore : ∀ line ∈ lines, line.length ≤ n :=
      fun line mem => short line (List.mem_cons_of_mem _ mem)
    have parts : joined cr lf (line :: lines) ++ rest =
        line ++ [cr, lf] ++ (joined cr lf lines ++ rest) := by
      simp [joined]
    rw [parts] at part
    rcases List.prefix_or_prefix_of_prefix part (List.prefix_append _ _) with
      inside | ⟨later, rfl⟩
    · have inside : front <+: line ++ [cr] ++ [lf] := by simpa using inside
      rcases List.prefix_concat_iff.mp inside with rfl | inside
      · have whole := split_line first []
        rw [List.append_nil] at whole
        rw [List.append_assoc, List.singleton_append, whole]
        exact Nat.zero_le _
      · have open' : split cr lf [] front = ([], front) :=
          split_open fun inner => first (inner.trans inside.isInfix)
        rw [open']
        have bound := short line List.mem_cons_self
        have size := inside.length_le
        rw [List.length_append, List.length_singleton] at size
        show front.length ≤ n + 1
        omega
    · rw [split_line first]
      exact ih cleanMore shortMore ((List.prefix_append_right_inj _).mp part)

end Lines
