import TBoxMpu.Fota.Image
import TBoxMpu.Lib.Window

/-!
# Trimming a line in its buffer

`cutspace` of `fota_img.c` on the bytes of memory. `trims_iff`: it keeps to the line buffer and
leaves the line without its white space exactly if the line has a character that is none. On an
empty or blank line the loop from the end passes the start of the buffer: the byte in front of it
is read, and if that is white space as well, a zero is stored there and the line stays as it was.
-/

namespace Fota

open Checked Window

/-- `if (str != h && strlen(h) > 0) strcpy(str, h)`; the bytes of `mem` from `lo` on may be
touched. -/
def moveDown (lo : Nat) (mem : List UInt8) (str h : Nat) : Except LoadErr (List UInt8) :=
  if str ≠ h then do
    if (← strlen .fault lo mem h) > 0 then strcpy .fault lo mem.length mem str h else .ok mem
  else .ok mem

/-- `cutspace(str)`: the memory afterwards and the result. -/
def cutspaceMem (lo : Nat) (mem : List UInt8) (str : Nat) : Except LoadErr (List UInt8 × Nat) := do
  let t := str + (← strlen .fault lo mem str)
  let h ← forward .fault lo isspace mem mem.length str
  -- nothing keeps `t` behind `str`
  let t ← backward .fault lo isspace mem t
  let mem ← poke .fault lo mem t 0
  let mem ← moveDown lo mem str h
  .ok (mem, ← strlen .fault lo mem str)

theorem cutspaceMem_run {lo str size begins ends n : Nat} {mem cut mem' : List UInt8}
    (len : strlen LoadErr.fault lo mem str = .ok size)
    (h : forward LoadErr.fault lo isspace mem mem.length str = .ok begins)
    (t : backward LoadErr.fault lo isspace mem (str + size) = .ok ends)
    (ended : poke LoadErr.fault lo mem ends 0 = .ok cut)
    (moved : moveDown lo cut str begins = .ok mem')
    (result : strlen LoadErr.fault lo mem' str = .ok n) : cutspaceMem lo mem str = .ok (mem', n) :=
  bind_ok_iff.mpr ⟨_, len, bind_ok_iff.mpr ⟨_, h, bind_ok_iff.mpr ⟨_, t,
    bind_ok_iff.mpr ⟨_, ended, bind_ok_iff.mpr ⟨_, moved, bind_ok_iff.mpr ⟨_, result, rfl⟩⟩⟩⟩⟩⟩

/-! ### Lines with a character -/

theorem cutspace_clean {line : List UInt8} (clean : 0 ∉ line) :
    cutspace line = ((line.dropWhile isspace).reverse.dropWhile isspace).reverse := by
  have whole : line.takeWhile (· != 0) = line :=
    List.takeWhile_eq_self_iff.mpr fun c mem => bne_iff_ne.mpr fun zero => clean (zero ▸ mem)
  rw [cutspace, whole]

/-- Where the white space at the beginning of a list ends. -/
theorem dropWhile_first {p : UInt8 → Bool} {l : List UInt8} (some : ∃ c ∈ l, ¬ p c) :
    ∃ c rest, l.dropWhile p = c :: rest ∧ ¬ p c := by
  have first := List.head?_dropWhile_not p l
  cases left : l.dropWhile p with
  | nil =>
    obtain ⟨c, mem, other⟩ := some
    exact absurd (List.dropWhile_eq_nil_iff.mp left c mem) other
  | cons c rest =>
    rw [left] at first
    exact ⟨c, rest, rfl, Bool.eq_false_iff.mp first⟩

/-- The white space on both sides of a line that has something else. -/
theorem split_line {line : List UInt8} (clean : 0 ∉ line) (some : ∃ c ∈ line, ¬ isspace c) :
    ∃ before text z after, line = before ++ (text ++ [z]) ++ after ∧
      cutspace line = text ++ [z] ∧ (∀ c ∈ before, isspace c) ∧ (∀ c ∈ after, isspace c) ∧
      ¬ isspace z ∧ ∃ c rest, text ++ [z] = c :: rest ∧ ¬ isspace c := by
  have front := List.takeWhile_append_dropWhile (p := isspace) (l := line)
  have trimmed := cutspace_clean clean
  obtain ⟨c, rest, begins, first⟩ := dropWhile_first some
  obtain ⟨z, init, ends, last⟩ := @dropWhile_first isspace (line.dropWhile isspace).reverse
    ⟨c, by simp [begins], first⟩
  have back := List.takeWhile_append_dropWhile (p := isspace) (l := (c :: rest).reverse)
  rw [ends] at trimmed
  rw [begins] at front ends
  rw [ends] at back
  have whole : c :: rest =
      (init.reverse ++ [z]) ++ ((c :: rest).reverse.takeWhile isspace).reverse := by
    rw [← List.reverse_cons, ← List.reverse_append, back, List.reverse_reverse]
  refine ⟨line.takeWhile isspace, init.reverse, z, ((c :: rest).reverse.takeWhile isspace).reverse,
    ?_, ?_, fun c mem => List.mem_takeWhile_imp mem,
    fun c mem => List.mem_takeWhile_imp (List.mem_reverse.mp mem), last, ?_⟩
  · rw [List.append_assoc, ← whole, front]
  · rw [trimmed, List.reverse_cons]
  · cases text : init.reverse with
    | nil =>
      rw [text] at whole
      exact ⟨z, [], rfl, last⟩
    | cons d more =>
      rw [text] at whole
      obtain ⟨rfl, -⟩ := List.cons.inj whole
      exact ⟨_, _, rfl, first⟩

variable {lo : Nat} {front line rest : List UInt8}

theorem moveDown_text {before text : List UInt8} (low : lo ≤ front.length) (clean : 0 ∉ text)
    (some : text ≠ []) :
    ∃ rest', moveDown lo (front ++ before ++ text ++ 0 :: rest) front.length
      (front.length + before.length) = .ok (front ++ text ++ 0 :: rest') := by
  unfold moveDown
  split
  next moved =>
    have gap : before ≠ [] := by
      rintro rfl
      exact moved rfl
    have len := @strlen_append _ LoadErr.fault lo (front ++ before) rest text (by simp; omega) clean
    obtain ⟨rest', copied⟩ := @strcpy_down _ LoadErr.fault lo front rest text before
      (front ++ before ++ text ++ 0 :: rest).length low gap clean (by simp; omega)
    refine ⟨rest', ?_⟩
    rw [← List.length_append, len]
    rw [← copied, ← List.length_append]
    exact if_pos (List.length_pos_iff.mpr some)
  next here =>
    obtain rfl : before = [] := List.eq_nil_of_length_eq_zero (by omega)
    exact ⟨rest, by rw [List.append_nil]⟩

theorem cutspaceMem_text (low : lo ≤ front.length) (clean : 0 ∉ line)
    (some : ∃ c ∈ line, ¬ isspace c) :
    ∃ rest', cutspaceMem lo (front ++ line ++ 0 :: rest) front.length =
      .ok (front ++ cutspace line ++ 0 :: rest', (cutspace line).length) := by
  obtain ⟨before, text, z, after, rfl, trimmed, spaces, blanks, last, c, more, begins, first⟩ :=
    split_line clean some
  rw [trimmed]
  have len := @strlen_append _ LoadErr.fault lo front rest _ low clean
  -- `h` stops at the first character that is no white space, `t` behind the last one
  have h : forward LoadErr.fault lo isspace
      (front ++ (before ++ (text ++ [z]) ++ after) ++ 0 :: rest)
      (front ++ (before ++ (text ++ [z]) ++ after) ++ 0 :: rest).length front.length =
        .ok (front.length + before.length) := by
    rw [begins, show front ++ (before ++ c :: more ++ after) ++ 0 :: rest =
      front ++ before ++ c :: (more ++ after ++ 0 :: rest) by simp]
    exact forward_run low spaces first (by simp; omega)
  have t : backward LoadErr.fault lo isspace
      (front ++ (before ++ (text ++ [z]) ++ after) ++ 0 :: rest)
      (front.length + (before ++ (text ++ [z]) ++ after).length) =
        .ok (front.length + before.length + text.length + 1) := by
    have stops := @backward_run _ LoadErr.fault lo isspace (front ++ before ++ text) (0 :: rest)
      after z (by simp; omega) last blanks
    simp only [List.append_assoc, List.length_append, List.cons_append, List.nil_append,
      List.length_cons] at stops ⊢
    convert stops using 2 <;> omega
  -- the zero goes over the first byte behind the text, which may be the zero of the line itself
  obtain ⟨x, rest', behind⟩ := List.exists_cons_of_ne_nil (l := after ++ 0 :: rest) (by simp)
  have ended : poke LoadErr.fault lo (front ++ (before ++ (text ++ [z]) ++ after) ++ 0 :: rest)
      (front.length + before.length + text.length + 1) 0 =
        .ok (front ++ before ++ (text ++ [z]) ++ 0 :: rest') := by
    have written := @poke_append _ LoadErr.fault lo (front ++ before ++ (text ++ [z])) rest' x 0
      (by simp; omega)
    rw [← behind] at written
    simp only [List.append_assoc, List.length_append, List.length_singleton] at written ⊢
    convert written using 2
    omega
  have clean : 0 ∉ text ++ [z] := fun mem =>
    clean (List.mem_append_left _ (List.mem_append_right _ mem))
  obtain ⟨rest'', moved⟩ := @moveDown_text lo front rest' before _ low clean (by simp)
  have result := @strlen_append _ LoadErr.fault lo front rest'' _ low clean
  exact ⟨rest'', cutspaceMem_run len h t ended moved result⟩

/-! ### Blank lines -/

theorem isspace_zero : ¬ isspace 0 := by decide

theorem blank_of_none (none : ¬ ∃ c ∈ line, ¬ isspace c) : ∀ c ∈ line, isspace c :=
  fun c mem => Decidable.not_not.mp fun other => none ⟨c, mem, other⟩

theorem clean_of_blank (blank : ∀ c ∈ line, isspace c) : 0 ∉ line :=
  fun mem => isspace_zero (blank 0 mem)

theorem cutspace_blank (blank : ∀ c ∈ line, isspace c) : cutspace line = [] := by
  rw [cutspace_clean (clean_of_blank blank), List.dropWhile_eq_nil_iff.mpr blank]
  rfl

/-- The start of the buffer does not stop the loop. -/
theorem cutspaceMem_outside (blank : ∀ c ∈ line, isspace c) :
    cutspaceMem front.length (front ++ line ++ 0 :: rest) front.length = .error .fault := by
  rw [cutspaceMem, strlen_append (Nat.le_refl _) (clean_of_blank blank),
    forward_run (Nat.le_refl _) blank isspace_zero (by simp; omega)]
  change (backward LoadErr.fault front.length isspace (front ++ line ++ 0 :: rest)
    (front.length + line.length) >>= _) = _
  rw [backward_fault blank]
  rfl

/-- Nothing is copied when the pointer from the front is at the end of the string. -/
theorem moveDown_none {front : List UInt8} (low : lo ≤ front.length) (str : Nat) :
    moveDown lo (front ++ 0 :: rest) str front.length = .ok (front ++ 0 :: rest) := by
  unfold moveDown
  split
  · have len := @strlen_append _ LoadErr.fault lo front rest [] low (by simp)
    rw [List.append_nil] at len
    rw [len]
    rfl
  · rfl

/-- Behind `c` and white space `gap`, a blank line: the loop from the end goes on to `c`. -/
theorem blank_scans {gap : List UInt8} {c : UInt8} (low : lo ≤ front.length) (other : ¬ isspace c)
    (spaces : ∀ b ∈ gap, isspace b) (blank : ∀ b ∈ line, isspace b) :
    strlen LoadErr.fault lo (front ++ [c] ++ gap ++ line ++ 0 :: rest)
        (front ++ [c] ++ gap).length = .ok line.length ∧
      forward LoadErr.fault lo isspace (front ++ [c] ++ gap ++ line ++ 0 :: rest)
        (front ++ [c] ++ gap ++ line ++ 0 :: rest).length (front ++ [c] ++ gap).length =
          .ok ((front ++ [c] ++ gap).length + line.length) ∧
      backward LoadErr.fault lo isspace (front ++ [c] ++ gap ++ line ++ 0 :: rest)
        ((front ++ [c] ++ gap).length + line.length) = .ok (front ++ [c]).length := by
  have low' : lo ≤ (front ++ [c] ++ gap).length := by
    simp only [List.length_append]
    omega
  refine ⟨strlen_append low' (clean_of_blank blank),
    forward_run low' blank isspace_zero (by simp; omega), ?_⟩
  have stops := @backward_run _ LoadErr.fault lo isspace front (0 :: rest) (gap ++ line) c low other
    (List.forall_mem_append.mpr ⟨spaces, blank⟩)
  simp only [List.append_assoc, List.length_append, List.length_cons, List.length_nil,
    List.cons_append, List.nil_append] at stops ⊢
  convert stops using 2
  omega

/-- Behind another character a blank line is trimmed. -/
theorem cutspaceMem_blank {c : UInt8} (low : lo ≤ front.length) (other : ¬ isspace c)
    (blank : ∀ b ∈ line, isspace b) :
    ∃ rest', cutspaceMem lo (front ++ [c] ++ line ++ 0 :: rest) (front ++ [c]).length =
      .ok (front ++ [c] ++ 0 :: rest', 0) := by
  obtain ⟨len, h, t⟩ := @blank_scans lo front line rest [] c low other nofun blank
  simp only [List.append_nil] at len h t
  have low' : lo ≤ (front ++ [c]).length := by
    rw [List.length_append]
    omega
  obtain ⟨x, rest', behind⟩ := List.exists_cons_of_ne_nil (l := line ++ 0 :: rest) (by simp)
  have ended := @poke_append _ LoadErr.fault lo (front ++ [c]) rest' x 0 low'
  rw [← behind, ← List.append_assoc] at ended
  -- the pointer from the front is at the end of the line, behind the zero just stored
  have moved : moveDown lo (front ++ [c] ++ 0 :: rest') (front ++ [c]).length
      ((front ++ [c]).length + line.length) = .ok (front ++ [c] ++ 0 :: rest') := by
    cases line with
    | nil => exact moveDown_none low' _
    | cons d line =>
      obtain ⟨-, rfl⟩ := List.cons.inj behind
      have none := @moveDown_none lo rest (front ++ [c] ++ 0 :: line) (by simp; omega)
        (front ++ [c]).length
      simpa [Nat.add_assoc, Nat.add_comm 1] using none
  have result := @strlen_append _ LoadErr.fault lo (front ++ [c]) rest' [] low' (by simp)
  rw [List.append_nil] at result
  exact ⟨rest', cutspaceMem_run len h t ended moved result⟩

/-- Behind white space it is not: the zero is stored in front of the buffer, where that white
space begins, and the line stays as it is. -/
theorem cutspaceMem_kept {c s : UInt8} {more : List UInt8} (low : lo ≤ front.length)
    (other : ¬ isspace c) (spaces : ∀ b ∈ s :: more, isspace b) (blank : ∀ b ∈ line, isspace b) :
    cutspaceMem lo (front ++ [c] ++ s :: more ++ line ++ 0 :: rest)
        (front ++ [c] ++ s :: more).length =
      .ok (front ++ [c] ++ 0 :: more ++ line ++ 0 :: rest, line.length) := by
  obtain ⟨len, h, t⟩ := @blank_scans lo front line rest (s :: more) c low other spaces blank
  have ended := @poke_append _ LoadErr.fault lo (front ++ [c]) (more ++ line ++ 0 :: rest) s 0
    (by simp; omega)
  have moved := @moveDown_none lo rest (front ++ [c] ++ 0 :: more ++ line) (by simp; omega)
    (front ++ [c] ++ s :: more).length
  have result := @strlen_append _ LoadErr.fault lo (front ++ [c] ++ 0 :: more) rest line
    (by simp; omega) (clean_of_blank blank)
  simp only [← List.cons_append, ← List.append_assoc] at ended
  have start : (front ++ [c] ++ 0 :: more).length = (front ++ [c] ++ s :: more).length := by simp
  have ends : (front ++ [c] ++ 0 :: more ++ line).length =
      (front ++ [c] ++ s :: more).length + line.length := by rw [← start, List.length_append]
  rw [ends] at moved
  rw [start] at result
  exact cutspaceMem_run len h t ended moved result

/-- With something else in front of it, every line ends up as the loaders' `cutspace` has it. -/
theorem cutspaceMem_behind {c : UInt8} (low : lo ≤ front.length) (other : ¬ isspace c)
    (clean : 0 ∉ line) :
    ∃ rest', cutspaceMem lo (front ++ [c] ++ line ++ 0 :: rest) (front ++ [c]).length =
      .ok (front ++ [c] ++ cutspace line ++ 0 :: rest', (cutspace line).length) := by
  by_cases text : ∃ b ∈ line, ¬ isspace b
  · have low' : lo ≤ (front ++ [c]).length := by
      rw [List.length_append]
      omega
    exact cutspaceMem_text low' clean text
  · have blank := blank_of_none text
    rw [cutspace_blank blank, List.append_nil]
    exact cutspaceMem_blank low other blank

/-! ### The line buffer -/

/-- `cutspace` on the string `line` at the start of a buffer, which `front` lies in front of and
`rest` fills up: nothing outside is touched, and the line loses the white space on its sides. -/
def Trims (front line rest : List UInt8) : Prop :=
  ∃ rest', cutspaceMem front.length (front ++ line ++ 0 :: rest) front.length =
    .ok (front ++ cutspace line ++ 0 :: rest', (cutspace line).length)

theorem trims_iff (clean : 0 ∉ line) : Trims front line rest ↔ ∃ c ∈ line, ¬ isspace c := by
  constructor
  · rintro ⟨rest', trimmed⟩
    refine Decidable.byContradiction fun none => ?_
    rw [cutspaceMem_outside (blank_of_none none)] at trimmed
    cases trimmed
  · exact cutspaceMem_text (Nat.le_refl _) clean

/-- The line `" S9\n"`. -/
theorem trims_record : Trims [] [0x20, 0x53, 0x39, 0x0a] [] ↔
    ∃ c ∈ [0x20, 0x53, 0x39, 0x0a], ¬ isspace c :=
  trims_iff (by decide)

/-- An empty line of the file takes the loop out of the buffer. With a blank in front of it the
line feed stays, and the zero is stored over that blank. -/
theorem blank_line_outside : ¬ Trims [0x41] [0x0a] [] ∧
    cutspaceMem 0 [0x41, 0x20, 0x0a, 0] 2 = .ok ([0x41, 0, 0x0a, 0], 1) := by
  refine ⟨?_, by rfl⟩
  rintro ⟨rest', trimmed⟩
  have outside : cutspaceMem 1 [0x41, 0x0a, 0] 1 = .error .fault := by rfl
  cases outside.symm.trans trimmed

end Fota
