import TBoxMpu.Lib.CString
import TBoxMpu.Lib.Fallible
import TBoxMpu.Lib.Scanf

/-!
# Shell commands

`shell_cmd_exec` of `shell_cmd.c` copies the words of a command string into one buffer, one behind
the other, and calls the function that is registered under the first of them with the others.

## Main result

`shell_cmd_exec_iff`: it does so, and stays inside its buffers, if the string has a word or no
command is registered; without a word it compares the names with an argument that was never set.

## Proof strategy

Each word that is copied is followed by a blank in the string, or is the last one, so the zero
behind it takes the place of that blank.
-/

namespace Shell

open Checked CString Scanf

def shellMaxArgNum : Nat := 7
def shellMaxCmdNum : Nat := 164
def tmpSize : Nat := 512

/-- The buffer that is left, or an argument that is read before it is set. -/
inductive Fault
  | cmd
  | tmp
  | argv
  | res
  | unset
  deriving DecidableEq

abbrev Str := { s : List UInt8 // 0 ∉ s }

structure ShellCmd (Func : Type) where
  name : Str
  alis : Option Str
  func : Func

structure ShellTbl (Func : Type) where
  cmd : List (ShellCmd Func)
  room : cmd.length ≤ shellMaxCmdNum

variable {Func : Type}

def shellCmdRegisterEx (tbl : ShellTbl Func) (c : ShellCmd Func) : ShellTbl Func × Int :=
  if room : tbl.cmd.length < shellMaxCmdNum then
    (⟨tbl.cmd ++ [c], by rw [List.length_append]; exact room⟩, 0)
  else (tbl, -1)

/-- A command string, as the assertions of `shell_cmd_exec` have it. -/
structure Command where
  bytes : List UInt8
  clean : 0 ∉ bytes
  short : bytes.length < 512

/-! ### The result of a command -/

/-- What a command's function returns, and the texts that it gives to `shellprintf`. -/
structure Called where
  ret : Int
  printed : List (List UInt8)

/-- `shell_resbuf` points to place `place` of the buffer, with `shell_resbsz` bytes behind it. -/
structure ResBuf where
  buf : Nat → UInt8
  place : Nat
  size : Nat

/-- The part of `shell_cmd_print` that fills the buffer of `resl` bytes. -/
def shellCmdPrint (resl : Nat) (r : ResBuf) (s : List UInt8) : Except Fault ResBuf :=
  if 1 < r.size then do
    let n := min s.length (r.size - 1)
    let buf ← store .res resl r.buf r.place (s.take n ++ [0])
    .ok ⟨buf, r.place + n, r.size - n⟩
  else .ok r

/-- What is in the buffer after the call. -/
def shellResult (resl : Nat) (res : Nat → UInt8) (printed : List (List UInt8)) :
    Except Fault (Nat → UInt8) := do
  let r ← printed.foldlM (shellCmdPrint resl) ⟨res, 0, resl⟩
  if r.size = resl then store .res resl r.buf 0 [0] else .ok r.buf

/-! ### The words of a command -/

/-- The locals of `shell_cmd_exec`: `cmd` points to what is left of the string, `argp` and the
arguments to places of `tmp`. -/
structure Locals where
  tmp : Nat → UInt8
  argv : Nat → Option Nat
  argc : Nat
  argp : Nat
  cmd : List UInt8

def setArg (argv : Nat → Option Nat) (argc argp : Nat) : Except Fault (Nat → Option Nat) :=
  if argc < shellMaxArgNum then .ok (Function.update argv argc (some argp)) else .error .argv

/-- One round of the loop, for a string whose next character is not a blank. -/
def copyWord (l : Locals) (pos : List UInt8) : Except Fault Locals := do
  let cmd ← skipWhile .cmd (!isBlank ·) pos
  let n := pos.length - cmd.length
  let argv ← setArg l.argv l.argc l.argp
  let word ← strncpy .cmd n pos
  let tmp ← store .tmp tmpSize l.tmp l.argp word
  let tmp ← store .tmp tmpSize tmp (l.argp + n) [0]
  .ok ⟨tmp, argv, l.argc + 1, l.argp + n + 1, cmd⟩

/-- The loop with `n` rounds to go. -/
def splitArgs : Nat → Locals → Except Fault Locals
  | 0, l => .ok l
  | n + 1, l => do
    let pos ← skipWhile .cmd isBlank l.cmd
    let c ← deref .cmd pos
    if c ≠ 0 then do
      let l ← copyWord l pos
      splitArgs n l
    else .ok { l with cmd := pos }

/-- What `argv[k]` points to. -/
def argument (l : Locals) (k : Nat) : Except Fault (List UInt8) := do
  let arg ← fetch .argv l.argv shellMaxArgNum k
  match arg with
  | some place => .ok (stretch l.tmp place (tmpSize - place))
  | none => .error .unset

def ShellCmd.answers (c : ShellCmd Func) (arg : List UInt8) : Except Fault Bool := do
  let named ← strEq .tmp c.name arg
  if named then .ok true
  else
    match c.alis with
    | some alis => strEq .tmp alis arg
    | none => .ok false

def findCmd (l : Locals) : List (ShellCmd Func) → Except Fault (Option (ShellCmd Func))
  | [] => .ok none
  | c :: rest => do
    let arg ← argument l 0
    let found ← c.answers arg
    if found then .ok (some c) else findCmd l rest

structure Outcome (Func : Type) where
  ret : Int
  ran : Option (Func × List (List UInt8))
  res : Option (Nat → UInt8)

/-- `junk` is what `tmp` holds before the call. -/
def shellCmdExec (tbl : ShellTbl Func) (call : Func → List (List UInt8) → Called)
    (junk : Nat → UInt8) (res : Option (Nat → UInt8)) (resl : Int) (cmd : Command) :
    Except Fault (Outcome Func) := do
  let l ← splitArgs shellMaxArgNum ⟨junk, fun _ => none, 0, 0, cmd.bytes ++ [0]⟩
  let left ← skipWhile .cmd isBlank l.cmd
  let c ← deref .cmd left
  if c ≠ 0 then .ok ⟨-1, none, res⟩
  else do
    let pcmd ← findCmd l tbl.cmd
    match pcmd with
    | none => .ok ⟨-1, none, res⟩
    | some pcmd =>
      let args ← (List.range (l.argc - 1)).mapM fun k => do
        let arg ← argument l (k + 1)
        text .tmp arg
      let called := call pcmd.func args
      match res with
      | some buf =>
        if 0 < resl then do
          let buf ← shellResult resl.toNat buf called.printed
          .ok ⟨called.ret, some (pcmd.func, args), some buf⟩
        else .ok ⟨called.ret, some (pcmd.func, args), res⟩
      | none => .ok ⟨called.ret, some (pcmd.func, args), res⟩

/-! ### Words -/

/-- The words that blanks separate. -/
def words (s : List UInt8) : List (List UInt8) := (s.splitOnP isBlank).filter (· ≠ [])

example : words (chars " loglv  GB d ") = [chars "loglv", chars "GB", chars "d"] := by decide

variable {s w rest : List UInt8} {c : UInt8}

theorem words_blank (blank : isBlank c) : words (c :: s) = words s := by
  rw [words, List.splitOnP_cons_eq_if_modifyHead, if_pos blank]
  rfl

theorem words_dropWhile (s : List UInt8) : words (s.dropWhile isBlank) = words s := by
  induction s with
  | nil => rfl
  | cons c s ih =>
    rw [List.dropWhile_cons]
    by_cases blank : isBlank c
    · rw [if_pos blank, words_blank blank]
      exact ih
    · rw [if_neg blank]

theorem words_word (nonempty : w ≠ []) (word : ∀ c ∈ w, isBlank c = false)
    (stops : ∀ c ∈ rest.head?, isBlank c) : words (w ++ rest) = w :: words rest := by
  cases rest with
  | nil =>
    rw [List.append_nil, words, List.splitOnP_eq_singleton word]
    simp [nonempty, words]
  | cons c rest =>
    have blank : isBlank c := stops c rfl
    rw [words_blank blank, words, List.splitOnP_append_cons_of_forall_mem word c blank,
      List.filter_cons_of_pos (by simpa using nonempty), words]

/-- The first word, and what stands behind it. -/
theorem words_cons (left : s.dropWhile isBlank = c :: rest) :
    words s = (c :: rest).takeWhile (!isBlank ·) :: words ((c :: rest).dropWhile (!isBlank ·)) := by
  have first : isBlank c = false := by
    have := List.head?_dropWhile_not isBlank s
    rw [left] at this
    simpa using this
  rw [← words_dropWhile, left]
  conv_lhs => rw [← List.takeWhile_append_dropWhile (p := (!isBlank ·)) (l := c :: rest)]
  refine words_word (by simp [first]) (fun a mem => by simpa using List.mem_takeWhile_imp mem) ?_
  intro a mem
  have := List.head?_dropWhile_not (!isBlank ·) (c :: rest)
  rw [Option.mem_def.mp mem] at this
  simpa using this

/-! ### Splitting -/

/-- The words `done` stand in `tmp` below `argp`, and the arguments point to them. -/
structure Copied (done : List (List UInt8)) (l : Locals) : Prop where
  argc : l.argc = done.length
  argp : l.argp ≤ tmpSize
  clean : ∀ w ∈ done, 0 ∉ w
  args : ∀ k w, done[k]? = some w →
    ∃ place, l.argv k = some place ∧ Holds l.tmp place w ∧ place + w.length < l.argp

/-- What is left of the string, and that there is room for its words. -/
structure Left (s : List UInt8) (l : Locals) : Prop where
  cmd : l.cmd = s ++ [0]
  clean : 0 ∉ s
  room : s.dropWhile isBlank = [] ∨ l.argp + (s.dropWhile isBlank).length < tmpSize

variable {l : Locals} {done : List (List UInt8)}

theorem copyWord_ok (w rest : List UInt8) (copied : Copied done l)
    (many : done.length < shellMaxArgNum)
    (nonempty : w ≠ []) (clean : 0 ∉ w) (word : ∀ c ∈ w, isBlank c = false)
    (restClean : 0 ∉ rest) (stops : ∀ c ∈ rest.head?, isBlank c)
    (room : l.argp + (w ++ rest).length < tmpSize) :
    ∃ l', copyWord l (w ++ rest ++ [0]) = .ok l' ∧ Copied (done ++ [w]) l' ∧ Left rest l' := by
  have skipped : skipWhile Fault.cmd (!isBlank ·) (w ++ rest ++ [0]) = .ok (rest ++ [0]) := by
    rw [skipWhile_append (by simp [clean, restClean]),
      List.dropWhile_append_of_pos (by simpa using word)]
    cases rest with
    | nil => rfl
    | cons c rest => rw [List.dropWhile_cons_of_neg (by simp [stops c rfl])]
  have length : (w ++ rest ++ [0]).length - (rest ++ [0]).length = w.length := by
    simp only [List.length_append]
    omega
  have arg : setArg l.argv l.argc l.argp = .ok (Function.update l.argv l.argc (some l.argp)) :=
    if_pos (by rw [copied.argc]; exact many)
  rw [List.length_append] at room
  obtain ⟨mem₁, mem₂, first, last, holds, below⟩ :=
    store_string Fault.tmp l.tmp (show l.argp + w.length < tmpSize by omega)
  refine ⟨⟨mem₂, Function.update l.argv l.argc (some l.argp), l.argc + 1, l.argp + w.length + 1,
    rest ++ [0]⟩, ?_, ⟨?_, ?_, ?_, ?_⟩, ⟨rfl, restClean, ?_⟩⟩
  · simp only [copyWord, skipped, length, arg, bind, Except.bind]
    rw [List.append_assoc, strncpy_append clean]
    simp only [first, last]
  · rw [List.length_append, ← copied.argc]
    rfl
  · show l.argp + w.length + 1 ≤ tmpSize
    omega
  · intro v mem
    rcases List.mem_append.mp mem with old | new
    · exact copied.clean v old
    · rwa [List.mem_singleton.mp new]
  · intro k v found
    -- the new argument is the last one, those before it lie below in the buffer
    by_cases old : k < done.length
    · rw [List.getElem?_append_left old] at found
      obtain ⟨place, arg, held, inside⟩ := copied.args k v found
      have other : k ≠ l.argc := by
        rw [copied.argc]
        omega
      exact ⟨place, (Function.update_of_ne other _ _).trans arg,
        held.congr fun j low => below j (by omega), by dsimp only; omega⟩
    · obtain ⟨rfl, rfl⟩ : k = l.argc ∧ v = w := by
        rw [List.getElem?_append_right (by omega)] at found
        rw [copied.argc]
        cases gap : k - done.length with
        | zero =>
          rw [gap] at found
          exact ⟨by omega, (Option.some.inj found).symm⟩
        | succ n =>
          rw [gap] at found
          exact nomatch found
      exact ⟨l.argp, Function.update_self _ _ _, holds, Nat.lt_succ_self _⟩
  · -- the blank behind the word is not copied
    cases rest with
    | nil => exact .inl rfl
    | cons c rest =>
      have blank : isBlank c := stops c rfl
      have shorter := (List.dropWhile_suffix isBlank (l := rest)).length_le
      rw [List.length_cons] at room
      rw [List.dropWhile_cons_of_pos blank]
      refine .inr ?_
      show l.argp + w.length + 1 + _ < tmpSize
      omega

theorem splitArgs_ok {n : Nat} (copied : Copied done l) (left : Left s l)
    (rounds : done.length + n = shellMaxArgNum) :
    ∃ l' s', splitArgs n l = .ok l' ∧ Copied (done ++ (words s).take n) l' ∧ Left s' l' ∧
      words s' = (words s).drop n := by
  induction n generalizing done l s with
  | zero => exact ⟨l, s, rfl, by rwa [List.take_zero, List.append_nil], left, rfl⟩
  | succ n ih =>
    have skipped : skipWhile Fault.cmd isBlank l.cmd = .ok (s.dropWhile isBlank ++ [0]) := by
      rw [left.cmd, skipWhile_append left.clean]
    have cleanLeft : 0 ∉ s.dropWhile isBlank := fun mem =>
      left.clean ((List.dropWhile_suffix isBlank).mem mem)
    simp only [splitArgs, skipped, bind, Except.bind, deref_append]
    cases first : s.dropWhile isBlank with
    | nil =>
      -- no word is left: the loop ends before its bound
      have none : words s = [] := by
        rw [← words_dropWhile, first]
        rfl
      refine ⟨_, [], rfl, ?_, ⟨rfl, List.not_mem_nil, .inl rfl⟩, ?_⟩
      · rw [none, List.take_nil, List.append_nil]
        exact ⟨copied.argc, copied.argp, copied.clean, copied.args⟩
      · rw [none, List.drop_nil]
        rfl
    | cons c rest =>
      -- one word is copied, then the rest of the string by induction
      rw [first] at cleanLeft
      have nonzero : c ≠ 0 := fun zero => cleanLeft (zero ▸ List.mem_cons_self)
      have room := left.room.resolve_left (by rw [first]; exact List.cons_ne_nil _ _)
      have parts := List.takeWhile_append_dropWhile (p := (!isBlank ·)) (l := c :: rest)
      have blank : isBlank c = false := by
        have := List.head?_dropWhile_not isBlank s
        rw [first] at this
        simpa using this
      obtain ⟨l₁, copy, copied', left'⟩ := copyWord_ok ((c :: rest).takeWhile (!isBlank ·))
        ((c :: rest).dropWhile (!isBlank ·)) copied (by omega) (by simp [blank])
        (fun mem => cleanLeft ((List.takeWhile_prefix _).mem mem))
        (fun a mem => by simpa using List.mem_takeWhile_imp mem)
        (fun mem => cleanLeft ((List.dropWhile_suffix _).mem mem))
        (fun a mem => by
          have := List.head?_dropWhile_not (!isBlank ·) (c :: rest)
          rw [Option.mem_def.mp mem] at this
          simpa using this)
        (by rw [parts, ← first]; exact room)
      obtain ⟨l₂, s₂, run, copied₂, left₂, behind⟩ := ih copied' left' (by
        rw [List.length_append, List.length_singleton]
        omega)
      rw [parts] at copy
      rw [words_cons first, List.take_succ_cons, List.drop_succ_cons]
      rw [List.append_assoc] at copied₂
      refine ⟨l₂, s₂, ?_, copied₂, left₂, behind⟩
      simp only [List.head?_cons, Option.getD_some, ne_eq, nonzero, not_false_eq_true, if_true,
        copy]
      exact run

/-! ### Calling -/

theorem Copied.argument_ok (copied : Copied done l) (few : done.length ≤ shellMaxArgNum) {k : Nat}
    (found : done[k]? = some w) : ∃ rest, argument l k = .ok (w ++ 0 :: rest) := by
  obtain ⟨place, arg, holds, inside⟩ := copied.args k w found
  obtain ⟨rest, pointer⟩ := holds.pointer (Nat.lt_of_lt_of_le inside copied.argp)
  have slot : fetch Fault.argv l.argv shellMaxArgNum k = .ok (some place) := by
    have := List.getElem?_eq_some_iff.mp found
    rw [← arg]
    exact if_pos (Nat.lt_of_lt_of_le this.1 few)
  refine ⟨rest, ?_⟩
  simp only [argument, slot, bind, Except.bind, pointer]

def ShellCmd.named (c : ShellCmd Func) (word : List UInt8) : Bool :=
  c.name.val = word || c.alis.any (·.val = word)

theorem answers_ok (c : ShellCmd Func) (clean : 0 ∉ w) :
    c.answers (w ++ 0 :: rest) = .ok (c.named w) := by
  unfold ShellCmd.answers ShellCmd.named
  rw [strEq_append c.name.property clean]
  by_cases named : c.name.val = w
  · simp [named, bind, Except.bind]
  · cases c.alis with
    | none => simp [named, bind, Except.bind]
    | some alis => simp [named, bind, Except.bind, strEq_append alis.property clean]

theorem findCmd_ok (copied : Copied done l) (few : done.length ≤ shellMaxArgNum)
    (first : done.head? = some w) (cmds : List (ShellCmd Func)) :
    findCmd l cmds = .ok (cmds.find? (·.named w)) := by
  rw [List.head?_eq_getElem?] at first
  obtain ⟨rest, arg⟩ := copied.argument_ok few first
  have clean := copied.clean w (List.mem_of_getElem? first)
  induction cmds with
  | nil => rfl
  | cons c cmds ih =>
    simp only [findCmd, arg, bind, Except.bind, answers_ok c clean, List.find?_cons, ih]
    cases c.named w <;> rfl

/-- Without a word the first name is compared with an argument that was not set. -/
theorem findCmd_unset (unset : l.argv 0 = none) (cmds : List (ShellCmd Func)) :
    findCmd l cmds = if cmds = [] then .ok none else .error .unset := by
  cases cmds with
  | nil => rfl
  | cons c cmds =>
    have slot : fetch Fault.argv l.argv shellMaxArgNum 0 = .ok none := by
      rw [← unset]
      rfl
    simp only [findCmd, argument, slot, bind, Except.bind]
    rfl

theorem arguments_ok (copied : Copied done l) (few : done.length ≤ shellMaxArgNum) :
    ((List.range (l.argc - 1)).mapM fun k => do
      let arg ← argument l (k + 1)
      text .tmp arg) = .ok done.tail := by
  have tail : done.tail = (List.range (l.argc - 1)).map fun k => done[k + 1]?.getD [] := by
    apply List.ext_getElem?
    intro k
    rw [List.getElem?_tail, copied.argc]
    by_cases inside : k < done.length - 1
    · rw [List.getElem?_map, List.getElem?_range inside, Option.map_some,
        List.getElem?_eq_getElem (by omega), Option.getD_some]
    · rw [List.getElem?_eq_none (by omega), List.getElem?_eq_none]
      simpa using inside
  rw [tail]
  refine Fallible.mapM_ok fun k mem => ?_
  have inside : k + 1 < done.length := by
    rw [List.mem_range, copied.argc] at mem
    omega
  have found := List.getElem?_eq_getElem inside
  obtain ⟨rest, arg⟩ := copied.argument_ok few found
  simp only [arg, bind, Except.bind, found, Option.getD_some]
  exact text_append (copied.clean _ (List.getElem_mem inside))

/-- What the command prints stays inside the buffer of the caller. -/
theorem shellResult_ok {resl : Nat} (room : 0 < resl) (res : Nat → UInt8)
    (printed : List (List UInt8)) : ∃ buf, shellResult resl res printed = .ok buf := by
  have run : ∀ r : ResBuf, r.place + r.size = resl →
      ∃ r', printed.foldlM (shellCmdPrint resl) r = .ok r' := by
    induction printed with
    | nil => exact fun r _ => ⟨r, rfl⟩
    | cons s printed ih =>
      intro r whole
      have step : ∃ r', shellCmdPrint resl r s = .ok r' ∧ r'.place + r'.size = resl := by
        unfold shellCmdPrint
        by_cases more : 1 < r.size
        · have fits : r.place + (s.take (min s.length (r.size - 1)) ++ [0]).length ≤ resl := by
            rw [List.length_append, List.length_take, List.length_singleton]
            omega
          obtain ⟨buf, stored⟩ := store_ok Fault.res r.buf fits
          rw [if_pos more]
          simp only [stored, bind, Except.bind]
          refine ⟨_, rfl, ?_⟩
          dsimp only
          omega
        · exact ⟨r, if_neg more, whole⟩
      obtain ⟨r', stepped, whole'⟩ := step
      rw [List.foldlM_cons, stepped]
      exact ih r' whole'
  obtain ⟨r, done⟩ := run ⟨res, 0, resl⟩ (Nat.zero_add resl)
  simp only [shellResult, done, bind, Except.bind]
  split
  · exact store_ok Fault.res r.buf (by rw [List.length_singleton, Nat.zero_add]; exact room)
  · exact ⟨r.buf, rfl⟩

/-! ### A command string -/

/-- The command that the words of a string name. -/
def asked (tbl : ShellTbl Func) (ws : List (List UInt8)) : Option (ShellCmd Func) :=
  if ws.length ≤ shellMaxArgNum then ws.head?.bind fun name => tbl.cmd.find? (·.named name)
  else none

/-- No access leaves a buffer, and exactly the function asked for is called, with the words behind
the first. -/
def Served (tbl : ShellTbl Func) (call : Func → List (List UInt8) → Called) (ws : List (List UInt8))
    (done : Except Fault (Outcome Func)) : Prop :=
  ∃ o, done = .ok o ∧
    match asked tbl ws with
    | some c => o.ran = some (c.func, ws.tail) ∧ o.ret = (call c.func ws.tail).ret
    | none => o.ran = none ∧ o.ret = -1

variable {tbl : ShellTbl Func} {call : Func → List (List UInt8) → Called} {junk : Nat → UInt8}
  {res : Option (Nat → UInt8)} {resl : Int} {cmd : Command}

theorem Left.skipped (left : Left s l) :
    skipWhile Fault.cmd isBlank l.cmd = .ok (s.dropWhile isBlank ++ [0]) := by
  rw [left.cmd, skipWhile_append left.clean]

theorem words_eq_nil : words s = [] ↔ s.dropWhile isBlank = [] := by
  constructor
  · intro none
    cases left : s.dropWhile isBlank with
    | nil => rfl
    | cons c rest => exact nomatch (words_cons left).symm.trans none
  · intro none
    rw [← words_dropWhile, none]
    rfl

/-- A string without words. -/
theorem served_blank (blank : words cmd.bytes = []) :
    Served tbl call (words cmd.bytes) (shellCmdExec tbl call junk res resl cmd) ↔ tbl.cmd = [] := by
  have split : splitArgs shellMaxArgNum ⟨junk, fun _ => none, 0, 0, cmd.bytes ++ [0]⟩ =
      .ok ⟨junk, fun _ => none, 0, 0, [0]⟩ := by
    simp only [shellMaxArgNum, splitArgs, skipWhile_append cmd.clean, words_eq_nil.mp blank, bind,
      Except.bind]
    rfl
  have exec : shellCmdExec tbl call junk res resl cmd =
      if tbl.cmd = [] then .ok ⟨-1, none, res⟩ else .error .unset := by
    simp only [shellCmdExec, split, bind, Except.bind]
    rw [findCmd_unset rfl]
    by_cases empty : tbl.cmd = []
    · rw [if_pos empty, if_pos empty]
      rfl
    · rw [if_neg empty, if_neg empty]
      rfl
  rw [blank, exec]
  by_cases empty : tbl.cmd = []
  · rw [if_pos empty]
    exact ⟨fun _ => empty, fun _ => ⟨_, rfl, rfl, rfl⟩⟩
  · rw [if_neg empty]
    exact ⟨fun ⟨_, eq, _⟩ => (nomatch eq), fun eq => absurd eq empty⟩

theorem served_words (worded : words cmd.bytes ≠ []) :
    Served tbl call (words cmd.bytes) (shellCmdExec tbl call junk res resl cmd) := by
  have start : Copied [] ⟨junk, fun _ => none, 0, 0, cmd.bytes ++ [0]⟩ :=
    ⟨rfl, Nat.zero_le _, fun _ => nofun, fun _ _ => nofun⟩
  have whole : Left cmd.bytes ⟨junk, fun _ => none, 0, 0, cmd.bytes ++ [0]⟩ := by
    refine ⟨rfl, cmd.clean, .inr ?_⟩
    have := (List.dropWhile_suffix isBlank (l := cmd.bytes)).length_le
    have := cmd.short
    dsimp only [tmpSize]
    omega
  obtain ⟨l, s, split, copied, left, behind⟩ := splitArgs_ok start whole (Nat.zero_add _)
  rw [List.nil_append] at copied
  have few : ((words cmd.bytes).take shellMaxArgNum).length ≤ shellMaxArgNum :=
    List.length_take_le _ _
  unfold shellCmdExec
  simp only [split, bind, Except.bind, left.skipped, deref_append]
  by_cases many : shellMaxArgNum < (words cmd.bytes).length
  · -- a word is left behind the last argument
    have unasked : asked tbl (words cmd.bytes) = none := if_neg (by omega)
    cases more : s.dropWhile isBlank with
    | nil =>
      rw [words_eq_nil.mpr more] at behind
      exact absurd (List.drop_eq_nil_iff.mp behind.symm) (by omega)
    | cons c rest =>
      have nonzero : c ≠ 0 := by
        rintro rfl
        exact left.clean ((List.dropWhile_suffix isBlank).mem (more ▸ List.mem_cons_self))
      refine ⟨⟨-1, none, res⟩, ?_, by rw [unasked]; exact ⟨rfl, rfl⟩⟩
      rw [List.head?_cons, Option.getD_some, if_pos nonzero]
  · -- all words are arguments, and the first one is the command
    rw [List.take_of_length_le (by omega)] at copied
    rw [List.drop_of_length_le (by omega)] at behind
    obtain ⟨name, args, ws⟩ := List.exists_cons_of_ne_nil worded
    have first : (words cmd.bytes).head? = some name := by
      rw [ws]
      rfl
    have question : asked tbl (words cmd.bytes) = tbl.cmd.find? (·.named name) := by
      rw [asked, if_pos (by omega), first]
      rfl
    rw [words_eq_nil.mp behind, List.head?_nil, Option.getD_none, if_neg (by simp),
      findCmd_ok copied (by omega) first]
    unfold Served
    rw [question]
    cases tbl.cmd.find? (·.named name) with
    | none => exact ⟨_, rfl, rfl, rfl⟩
    | some c =>
      have passed := arguments_ok copied (by omega)
      simp only [bind, Except.bind] at passed ⊢
      rw [passed]
      cases res with
      | none => exact ⟨_, rfl, rfl, rfl⟩
      | some buf =>
        by_cases room : 0 < resl
        · obtain ⟨buf', result⟩ := shellResult_ok (show 0 < resl.toNat by omega) buf
            (call c.func (words cmd.bytes).tail).printed
          simp only [if_pos room, result]
          exact ⟨_, rfl, rfl, rfl⟩
        · simp only [if_neg room]
          exact ⟨_, rfl, rfl, rfl⟩

/-- A command string is served exactly if it has a word or there is no command to compare with. -/
theorem shell_cmd_exec_iff (tbl : ShellTbl Func) (call : Func → List (List UInt8) → Called)
    (junk : Nat → UInt8) (res : Option (Nat → UInt8)) (resl : Int) (cmd : Command) :
    Served tbl call (words cmd.bytes) (shellCmdExec tbl call junk res resl cmd) ↔
      words cmd.bytes ≠ [] ∨ tbl.cmd = [] := by
  by_cases blank : words cmd.bytes = []
  · rw [served_blank blank]
    exact ⟨.inr, fun h => h.resolve_left (not_not_intro blank)⟩
  · exact ⟨fun _ => .inl blank, fun _ => served_words blank⟩

/-- The table after `shell_cmd_init`. -/
def initTbl : ShellTbl Unit :=
  ⟨[⟨⟨chars "loglv", by decide⟩, some ⟨chars "setdbg", by decide⟩, ()⟩], by decide⟩

/-- The empty string, as a diagnosis tool can send it. -/
theorem shell_cmd_exec_empty : ¬ Served initTbl (fun _ _ => ⟨0, []⟩) (words [])
    (shellCmdExec initTbl (fun _ _ => ⟨0, []⟩) (fun _ => 0) none 0 ⟨[], nofun, by decide⟩) :=
  fun ⟨_, eq, _⟩ => nomatch eq

end Shell
