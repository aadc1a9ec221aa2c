import TBoxMpu.Lib.Bits
import TBoxMpu.Lib.CString
import TBoxMpu.Lib.RecordRing

/-!
# The log

`log.c`: every task stores its messages in one buffer under `log_mtx2`, and prints what waits there
if no other task wants to log by then.
-/

namespace Log

open Bits Checked CString

/-! ### Messages in the buffer -/

/-- `log_msg_t`: `text` is the string in `buff` and `saved` its first `size` bytes, which go to
the file. -/
structure LogMsg where
  colr : Nat
  text : List UInt8
  saved : List UInt8
  deriving DecidableEq

def LOG_BUF_SIZE : Nat := 1024
def logBufSize : Nat := 64 * 1024

/-- `offset(log_msg_t, buff)` -/
def buffOffset : Nat := 8

/-- What `log_put` and `log_get` are taken forward by. -/
def LogMsg.span (m : LogMsg) : Nat := m.saved.length + buffOffset + 1

/-- What is written: both numbers and the string with its end. -/
def LogMsg.bytes (m : LogMsg) : List UInt8 :=
  leBytes 4 m.saved.length ++ leBytes 4 m.colr ++ m.text ++ [0]

def logStore (mem : Nat → UInt8) (a : Nat) (m : LogMsg) : Nat → UInt8 := fun i =>
  if a ≤ i ∧ i < a + m.bytes.length then m.bytes.getD (i - a) 0 else mem i

def logLoad (mem : Nat → UInt8) (a : Nat) : LogMsg where
  colr := leNat (stretch mem (a + 4) 4)
  text := cString (stretch mem (a + buffOffset) LOG_BUF_SIZE)
  saved := stretch mem (a + buffOffset) (leNat (stretch mem a 4))

/-- A string that fits `buff`, under a colour that there is. -/
def LogMsg.Fits (m : LogMsg) : Prop :=
  m.saved = m.text ∧ m.text.length < LOG_BUF_SIZE ∧ 0 ∉ m.text ∧ m.colr < 5

/-! ### What is logged -/

def LOG_ERROR : Nat := 0
def LOG_COLOR_BLACK : Nat := 0
def LOG_COLOR_RED : Nat := 1

def crlf : List UInt8 := [0x0d, 0x0a]

/-- A string that is cut at the end of `buff`. -/
def cutMsg (colr : Nat) (text : List UInt8) : LogMsg :=
  ⟨colr, text.take (LOG_BUF_SIZE - 1), text.take (LOG_BUF_SIZE - 1)⟩

/-- `snprintf(msg->buff, LOG_BUF_SIZE, " %s>%s()", ..)` and the text behind it. -/
def msgText (name func body : List UInt8) : List UInt8 :=
  let head := 0x20 :: name ++ 0x3e :: func ++ [0x28, 0x29]
  if head.length < LOG_BUF_SIZE - 1 then head ++ body else head

/-- `log_msg`; `none` where the end of the line is written behind `buff`, the size left for it
having gone below zero. -/
def logMsg (lv : Nat) (name func body : List UInt8) : Option LogMsg :=
  let text := msgText name func body
  if LOG_BUF_SIZE < text.length then none
  else some (cutMsg (if lv = LOG_ERROR then LOG_COLOR_RED else LOG_COLOR_BLACK) (text ++ crlf))

/-- `log_raw`: of a string that was cut the size counts the end too. -/
def logRaw (color : Nat) (text : List UInt8) : LogMsg :=
  if LOG_BUF_SIZE ≤ text.length then
    ⟨color, text.take (LOG_BUF_SIZE - 1), text.take (LOG_BUF_SIZE - 1) ++ [0]⟩
  else ⟨color, text, text⟩

def hexDigit (n : Nat) : UInt8 := UInt8.ofNat (if n < 10 then 0x30 + n else 0x41 + (n - 10))

/-- `" %02X"` of every byte, and the end of the line. -/
def hexLine (bytes : List UInt8) : List UInt8 :=
  bytes.flatMap (fun b => [0x20, hexDigit (b.toNat / 16), hexDigit (b.toNat % 16)]) ++ crlf

/-- The loop of `log_push_data`, with `size` bytes written: what it writes, and the data left. -/
def pushLines : Nat → Nat → List UInt8 → List UInt8 × List UInt8
  | 0, _, data => ([], data)
  | n + 1, size, data =>
    let cnt := min 20 data.length
    if data = [] then ([], [])
    else if cnt * 3 + 2 ≥ LOG_BUF_SIZE - size then ([], data)
    else
      let line := hexLine (data.take cnt)
      let rest := pushLines n (size + line.length) (data.drop cnt)
      (line ++ rest.1, rest.2)

/-- `log_push_data` for one record after the other. -/
def pushData (color : Nat) : Nat → List UInt8 → List LogMsg
  | 0, _ => []
  | n + 1, data =>
    if data = [] then []
    else
      let (text, rest) := pushLines data.length 0 data
      ⟨color, text, text⟩ :: pushData color n rest

/-- `%.*s` with the precision `n - tlen`, which counts for nothing below zero. -/
def precise (n tlen : Nat) (text : List UInt8) : List UInt8 :=
  if tlen ≤ n then text.take (n - tlen) else text

def dumpHead (title cover : List UInt8) : List UInt8 :=
  let tlen := (title.length + 1) / 2
  0x20 :: precise 29 tlen cover ++ (title ++ List.replicate (2 * tlen - title.length) 0x20) ++
    precise 30 tlen cover ++ crlf

def dumpEnd : List UInt8 :=
  0x20 :: List.replicate 28 0x2d ++ [0x45, 0x4e, 0x44] ++ List.replicate 28 0x2d ++ crlf

/-- `log_dump` -/
def logDump (color : Nat) (title cover data : List UInt8) : List LogMsg :=
  cutMsg color (dumpHead title cover) :: pushData color data.length data ++ [cutMsg color dumpEnd]

/-! ### The tasks -/

/-- `log_cfg_table` -/
structure LogInfo where
  level : Nat
  name : List UInt8

inductive LogCall
  | msg (id lv : Nat) (func body : List UInt8)
  | raw (color : Nat) (text : List UInt8)
  | dump (id lvl color : Nat) (title cover data : List UInt8)

/-- What a call stores. The flag tells whether it prints: whether `log_mtx1` is free at its end.
Calls above the level of their task do nothing. -/
def LogCall.records (table : Nat → LogInfo) (free : Bool) :
    LogCall → Option (List (List LogMsg × Bool))
  | .msg id lv func body =>
    if (table id).level < lv then some []
    else (logMsg lv (table id).name func body).map fun m => [([m], free)]
  | .raw color text => some [([logRaw color text], free)]
  | .dump id lvl color title cover data =>
    if (table id).level < lvl ∨ data = [] then some []
    else some [(logDump color title cover data, free)]

/-! ### The buffer as a ring of records -/

theorem bytes_length (m : LogMsg) : m.bytes.length = m.text.length + 9 := by
  simp only [LogMsg.bytes, List.length_append, leBytes_length, List.length_singleton]
  omega

/-- The bytes of a message as they lie in the buffer. -/
theorem stretch_logStore (mem : Nat → UInt8) (a : Nat) (m : LogMsg) {i n : Nat}
    (inside : i + n ≤ m.bytes.length) :
    stretch (logStore mem a m) (a + i) n = (m.bytes.drop i).take n := by
  rw [← stretch_getD m.bytes 0 inside]
  refine stretch_congr fun k fits => ?_
  rw [logStore, if_pos (by omega), Nat.add_assoc, Nat.add_sub_cancel_left]

theorem logStore_apart {mem : Nat → UInt8} {a i : Nat} {m : LogMsg}
    (away : i < a ∨ a + m.bytes.length ≤ i) : logStore mem a m i = mem i := by
  rw [logStore, if_neg]
  omega

theorem logLoad_store (mem : Nat → UInt8) (a : Nat) {m : LogMsg} (fits : m.Fits) :
    logLoad (logStore mem a m) a = m := by
  obtain ⟨colr, text, saved⟩ := m
  obtain ⟨same, short, nonzero, colour⟩ := fits
  simp only at same short nonzero colour
  subst same
  unfold LOG_BUF_SIZE at short
  have length : (LogMsg.mk colr saved saved).bytes.length = saved.length + 9 := bytes_length _
  have front : ∀ (n : Nat) (rest : List UInt8), (leBytes 4 n ++ rest).take 4 = leBytes 4 n :=
    fun n rest => List.take_left' (leBytes_length 4 n)
  have size : leNat (stretch (logStore mem a ⟨colr, saved, saved⟩) a 4) = saved.length := by
    have bytes := stretch_logStore mem a ⟨colr, saved, saved⟩ (show 0 + 4 ≤ _ by omega)
    rw [Nat.add_zero, List.drop_zero, LogMsg.bytes, List.append_assoc, List.append_assoc,
      front] at bytes
    rw [bytes, leNat_leBytes (by show saved.length < 256 ^ 4; omega)]
  have colr' : leNat (stretch (logStore mem a ⟨colr, saved, saved⟩) (a + 4) 4) = colr := by
    have bytes := stretch_logStore mem a ⟨colr, saved, saved⟩ (show 4 + 4 ≤ _ by omega)
    rw [LogMsg.bytes, List.append_assoc, List.append_assoc,
      List.drop_left' (leBytes_length 4 _), front] at bytes
    rw [bytes, leNat_leBytes (by show colr < 256 ^ 4; omega)]
  have string : stretch (logStore mem a ⟨colr, saved, saved⟩) (a + 8) (saved.length + 1) =
      saved ++ [0] := by
    have bytes := stretch_logStore mem a ⟨colr, saved, saved⟩
      (show 8 + (saved.length + 1) ≤ _ by omega)
    rw [LogMsg.bytes, List.append_assoc, List.drop_left' (by simp)] at bytes
    rw [bytes, List.take_of_length_le (by simp)]
  rw [logLoad, size, colr', LOG_BUF_SIZE, buffOffset,
    show 1024 = saved.length + 1 + (1023 - saved.length) by omega, stretch_add, string,
    List.append_assoc, List.singleton_append, cString_of_end nonzero]
  rw [stretch_add] at string
  rw [List.append_inj_left' string (by simp)]

/-- A message stays as long as nothing is stored over it. -/
theorem logLoad_apart {mem mem' : Nat → UInt8} {b : Nat} {q : LogMsg} (fits : q.Fits)
    (loaded : logLoad mem b = q) (same : ∀ i < q.span, mem' (b + i) = mem (b + i)) :
    logLoad mem' b = q := by
  obtain ⟨colr, text, saved⟩ := q
  obtain ⟨whole, short, nonzero, colour⟩ := fits
  simp only at whole short nonzero colour
  subst whole
  simp only [LogMsg.span, buffOffset] at same
  unfold LOG_BUF_SIZE at short
  simp only [logLoad, LogMsg.mk.injEq, buffOffset, LOG_BUF_SIZE] at loaded ⊢
  obtain ⟨colr', string, bytes⟩ := loaded
  have size : leNat (stretch mem b 4) = saved.length := by
    rw [← stretch_length mem (b + 8) (leNat (stretch mem b 4)), bytes]
  have size' : stretch mem' b 4 = stretch mem b 4 :=
    stretch_congr fun i fits => same i (by omega)
  have colour' : stretch mem' (b + 4) 4 = stretch mem (b + 4) 4 :=
    stretch_congr fun i fits => by rw [Nat.add_assoc, same (4 + i) (by omega)]
  have text : stretch mem' (b + 8) (saved.length + 1) = stretch mem (b + 8) (saved.length + 1) :=
    stretch_congr fun i fits => by rw [Nat.add_assoc, same (8 + i) (by omega)]
  have ended : stretch mem (b + 8) (saved.length + 1) = saved ++ [0] := by
    obtain ⟨rest, split⟩ := exists_end string (by rw [stretch_length]; omega)
    have cut := congrArg (List.take (saved.length + 1)) split
    rw [show 1024 = saved.length + 1 + (1023 - saved.length) by omega, stretch_add,
      List.take_left' (stretch_length mem _ _)] at cut
    rw [cut, ← List.singleton_append, ← List.append_assoc, List.take_left' (by simp)]
  refine ⟨by rw [colour', colr'], ?_, ?_⟩
  · rw [show 1024 = saved.length + 1 + (1023 - saved.length) by omega, stretch_add, text, ended,
      List.append_assoc, List.singleton_append, cString_of_end nonzero]
  · rw [size', size]
    rw [ended] at text
    rw [stretch_add] at text
    exact List.append_inj_left' text (by simp)

/-- The buffer. -/
def logRing : RecordRing.Layout (Nat → UInt8) LogMsg where
  cap := logBufSize
  largest := LOG_BUF_SIZE + buffOffset
  span := LogMsg.span
  load := logLoad
  store := logStore
  Fits := LogMsg.Fits
  largest_le := by decide
  span_pos m := Nat.succ_pos _
  span_le m fits := by
    obtain ⟨same, short, -⟩ := fits
    rw [LogMsg.span, same]
    omega
  load_store mem a m fits := logLoad_store mem a fits
  load_apart := by
    intro mem a r b q stored fits loaded away
    refine logLoad_apart fits loaded fun i inside => logStore_apart ?_
    rw [bytes_length, ← stored.1]
    simp only [LogMsg.span, buffOffset] at away inside
    omega

/-! ### What every record is -/

theorem cutMsg_fits {colr : Nat} {text : List UInt8} (colour : colr < 5) (none : 0 ∉ text) :
    (cutMsg colr text).Fits := by
  refine ⟨rfl, ?_, fun zero => none (List.mem_of_mem_take zero), colour⟩
  show (text.take 1023).length < 1024
  rw [List.length_take]
  omega

/-- A character of a line is no end of a string. -/
theorem zero_notMem_hexLine (bytes : List UInt8) : 0 ∉ hexLine bytes := by
  have digit : ∀ n < 16, hexDigit n ≠ 0 := by decide
  intro zero
  rcases List.mem_append.mp zero with inside | behind
  · obtain ⟨b, -, mem⟩ := List.mem_flatMap.mp inside
    have small := b.toNat_lt
    simp only [List.mem_cons, List.not_mem_nil, or_false] at mem
    rcases mem with space | high | low
    · cases space
    · exact digit _ (by omega) high.symm
    · exact digit _ (by omega) low.symm
  · exact absurd behind (by decide)

theorem hexLine_length (bytes : List UInt8) : (hexLine bytes).length = 3 * bytes.length + 2 := by
  rw [hexLine, List.length_append, List.length_flatMap]
  simp [crlf]
  omega

theorem pushLines_fits (n : Nat) {size : Nat} (data : List UInt8) (room : size < LOG_BUF_SIZE) :
    size + (pushLines n size data).1.length < LOG_BUF_SIZE ∧ 0 ∉ (pushLines n size data).1 := by
  induction n generalizing size data with
  | zero => exact ⟨room, List.not_mem_nil⟩
  | succ n ih =>
    rw [pushLines]
    split
    · exact ⟨room, List.not_mem_nil⟩
    · split
      · exact ⟨room, List.not_mem_nil⟩
      · rename_i some fits
        have line := hexLine_length (data.take (min 20 data.length))
        rw [List.length_take_of_le (Nat.min_le_right ..)] at line
        have grown : size + (hexLine (data.take (min 20 data.length))).length < LOG_BUF_SIZE := by
          omega
        obtain ⟨inside, none⟩ := ih (data.drop (min 20 data.length)) grown
        refine ⟨?_, ?_⟩
        · rw [List.length_append]
          omega
        · rw [List.mem_append]
          rintro (line | later)
          · exact zero_notMem_hexLine _ line
          · exact none later

theorem pushData_fits {color : Nat} (colour : color < 5) (n : Nat) (data : List UInt8) :
    ∀ m ∈ pushData color n data, m.Fits := by
  induction n generalizing data with
  | zero => exact fun m mem => absurd mem List.not_mem_nil
  | succ n ih =>
    rw [pushData]
    split
    · exact fun m mem => absurd mem List.not_mem_nil
    · intro m mem
      obtain ⟨inside, none⟩ := pushLines_fits data.length data (show 0 < LOG_BUF_SIZE by decide)
      rcases List.mem_cons.mp mem with rfl | later
      · exact ⟨rfl, by rwa [Nat.zero_add] at inside, none, colour⟩
      · exact ih _ m later

/-! ### Dumps -/

/-- The lines of a dump, each of 20 bytes. -/
def hexLines (data : List UInt8) : List UInt8 :=
  (List.range ((data.length + 19) / 20)).flatMap fun k => hexLine ((data.drop (20 * k)).take 20)

theorem hexLines_step {data : List UInt8} (some : data ≠ []) :
    hexLines data = hexLine (data.take 20) ++ hexLines (data.drop 20) := by
  have positive := List.length_pos_of_ne_nil some
  have count : (data.length + 19) / 20 = ((data.drop 20).length + 19) / 20 + 1 := by
    rw [List.length_drop]
    omega
  rw [hexLines, count, List.range_succ_eq_map, List.flatMap_cons, List.flatMap_map]
  simp only [Nat.mul_zero, List.drop_zero, hexLines, List.drop_drop, Nat.mul_succ, Nat.add_comm]

/-- What was not written is what is left. -/
theorem pushLines_lines {n : Nat} (size : Nat) {data : List UInt8} (fuel : data.length ≤ n) :
    (pushLines n size data).1 ++ hexLines (pushLines n size data).2 = hexLines data := by
  induction n generalizing size data with
  | zero => rfl
  | succ n ih =>
    rw [pushLines]
    split
    · rename_i empty
      rw [empty]
      rfl
    · split
      · rfl
      · rename_i some fits
        have positive := List.length_pos_of_ne_nil some
        have cut : data.take (min 20 data.length) = data.take 20 ∧
            data.drop (min 20 data.length) = data.drop 20 := by
          by_cases long : 20 ≤ data.length
          · rw [Nat.min_eq_left long]
            exact ⟨rfl, rfl⟩
          · rw [Nat.min_eq_right (by omega), List.take_length, List.drop_length,
              List.take_of_length_le (by omega), List.drop_of_length_le (by omega)]
            exact ⟨rfl, rfl⟩
        simp only [cut.1, cut.2]
        rw [hexLines_step some, List.append_assoc, ih]
        rw [List.length_drop]
        omega

/-- One line at least is written into every record. -/
theorem pushLines_shorter {data : List UInt8} (some : data ≠ []) :
    (pushLines data.length 0 data).2.length < data.length := by
  have rest (n size : Nat) (data : List UInt8) :
      (pushLines n size data).2.length ≤ data.length := by
    induction n generalizing size data with
    | zero => exact Nat.le_refl _
    | succ n ih =>
      rw [pushLines]
      split
      · exact Nat.zero_le _
      · split
        · exact Nat.le_refl _
        · refine Nat.le_trans (ih _ _) ?_
          rw [List.length_drop]
          omega
  have positive := List.length_pos_of_ne_nil some
  obtain ⟨n, length⟩ := Nat.exists_eq_succ_of_ne_zero (Nat.pos_iff_ne_zero.mp positive)
  rw [length, pushLines, if_neg some,
    if_neg (by show ¬ min 20 data.length * 3 + 2 ≥ 1024 - 0; omega)]
  refine Nat.lt_of_le_of_lt (rest _ _ _) ?_
  rw [List.length_drop]
  omega

theorem pushData_lines (color : Nat) {n : Nat} {data : List UInt8} (fuel : data.length ≤ n) :
    (pushData color n data).flatMap LogMsg.text = hexLines data := by
  induction n generalizing data with
  | zero =>
    obtain rfl : data = [] := List.eq_nil_of_length_eq_zero (Nat.le_zero.mp fuel)
    rfl
  | succ n ih =>
    rw [pushData]
    split
    · rename_i empty
      rw [empty]
      rfl
    · rename_i some
      have shorter := pushLines_shorter some
      rw [← pushLines_lines 0 (Nat.le_refl data.length), List.flatMap_cons, ih (by omega)]

/-- What the callers hold to: strings without zero, colours that there are, and no line longer
than `buff`. -/
def LogCall.Ok (table : Nat → LogInfo) : LogCall → Prop
  | .msg id _ func body => (0 ∉ (table id).name ∧ 0 ∉ func ∧ 0 ∉ body) ∧
      (msgText (table id).name func body).length ≤ LOG_BUF_SIZE
  | .raw color text => (color < 5 ∧ 0 ∉ text) ∧ text.length < LOG_BUF_SIZE
  | .dump _ _ color title cover _ => color < 5 ∧ 0 ∉ title ∧ 0 ∉ cover

/-- The records of all calls, in the order in which the tasks get `log_mtx2`. -/
def logEvents (table : Nat → LogInfo) : List (LogCall × Bool) → Option (List (List LogMsg × Bool))
  | [] => some []
  | c :: calls => do
    let now ← c.1.records table c.2
    let later ← logEvents table calls
    some (now ++ later)

/-- All calls from the start on: what is printed. -/
def logRun (table : Nat → LogInfo) (mem : Nat → UInt8) (calls : List (LogCall × Bool)) :
    Option (RecordRing.State (Nat → UInt8) × List LogMsg) :=
  (logEvents table calls).bind (RecordRing.run logRing ⟨mem, 0, 0⟩)

theorem logMsg_fits {lv : Nat} {name func body : List UInt8}
    (strings : 0 ∉ name ∧ 0 ∉ func ∧ 0 ∉ body)
    (short : (msgText name func body).length ≤ LOG_BUF_SIZE) :
    ∃ m, logMsg lv name func body = some m ∧ m.Fits := by
  obtain ⟨name', func', body'⟩ := strings
  have text : 0 ∉ msgText name func body ++ crlf := by
    have head : 0 ∉ 0x20 :: name ++ 0x3e :: func ++ [0x28, 0x29] := by simp [name', func']
    have ends : (0 : UInt8) ∉ crlf := by decide
    rw [List.mem_append, msgText]
    split
    · rw [List.mem_append]
      exact fun zero => zero.elim (fun zero => zero.elim head body') ends
    · exact fun zero => zero.elim head ends
  rw [logMsg, if_neg (Nat.not_lt.mpr short)]
  exact ⟨_, rfl, cutMsg_fits (by split <;> decide) text⟩

theorem logDump_fits {color : Nat} {title cover : List UInt8} (colour : color < 5)
    (title' : 0 ∉ title) (cover' : 0 ∉ cover) (data : List UInt8) :
    ∀ m ∈ logDump color title cover data, m.Fits := by
  have precise' (n tlen : Nat) : 0 ∉ precise n tlen cover := by
    rw [precise]
    split
    · exact fun zero => cover' (List.mem_of_mem_take zero)
    · exact cover'
  intro m mem
  rw [logDump, List.mem_append, List.mem_cons, List.mem_singleton] at mem
  rcases mem with (rfl | inner) | rfl
  · refine cutMsg_fits colour ?_
    simp [dumpHead, precise', title', crlf]
  · exact pushData_fits colour _ _ m inner
  · exact cutMsg_fits colour (by decide)

/-- The records of a call that holds to that. -/
theorem records_fits {table : Nat → LogInfo} {call : LogCall} (ok : call.Ok table) (free : Bool) :
    ∃ events, call.records table free = some events ∧
      ∀ c ∈ events, ∀ m ∈ c.1, m.Fits := by
  have one {rs : List LogMsg} (fits : ∀ m ∈ rs, m.Fits) :
      ∀ c : List LogMsg × Bool, c ∈ [(rs, free)] → ∀ m ∈ c.1, m.Fits := by
    intro c mem
    rw [List.mem_singleton.mp mem]
    exact fits
  cases call with
  | msg id lv func body =>
    rw [LogCall.records]
    split
    · exact ⟨[], rfl, fun c mem => absurd mem List.not_mem_nil⟩
    · have stored : ∃ m, logMsg lv (table id).name func body = some m ∧ m.Fits :=
        logMsg_fits ok.1 ok.2
      obtain ⟨m, some, fits⟩ := stored
      refine ⟨_, by rw [some]; rfl, one fun r mem => ?_⟩
      rw [List.mem_singleton.mp mem]
      exact fits
  | raw color text =>
    obtain ⟨⟨colour, string⟩, short⟩ := ok
    refine ⟨_, rfl, one fun r mem => ?_⟩
    rw [List.mem_singleton.mp mem, logRaw, if_neg (Nat.not_le.mpr short)]
    exact ⟨rfl, short, string, colour⟩
  | dump id lvl color title cover data =>
    rw [LogCall.records]
    split
    · exact ⟨[], rfl, fun c mem => absurd mem List.not_mem_nil⟩
    · exact ⟨_, rfl, one (logDump_fits ok.1 ok.2.1 ok.2.2 data)⟩

theorem logEvents_fits {table : Nat → LogInfo} {calls : List (LogCall × Bool)}
    (ok : ∀ c ∈ calls, c.1.Ok table) : ∃ events, logEvents table calls = some events ∧
      ∀ c ∈ events, ∀ m ∈ c.1, m.Fits := by
  induction calls with
  | nil => exact ⟨[], rfl, fun c mem => absurd mem List.not_mem_nil⟩
  | cons c calls ih =>
    obtain ⟨now, here, fits⟩ := records_fits (ok c List.mem_cons_self) c.2
    obtain ⟨later, rest, fits'⟩ := ih fun c mem => ok c (List.mem_cons_of_mem _ mem)
    refine ⟨now ++ later, by simp [logEvents, here, rest], fun d mem => ?_⟩
    exact (List.mem_append.mp mem).elim (fits d) (fits' d)

def testTable : Nat → LogInfo := fun _ => ⟨3, [0x43, 0x41, 0x4e]⟩

/-- A message while another task waits, and a dump that prints both. -/
def testCalls : List (LogCall × Bool) :=
  [(.msg 12 0 [0x66] [0x61, 0x62], false),
    (.dump 12 2 0 [0x74] [0x2a, 0x2a] (List.replicate 25 0xab), true)]

theorem testCalls_ok : ∀ c ∈ testCalls, c.1.Ok testTable := by
  intro c mem
  simp only [testCalls, List.mem_cons, List.not_mem_nil, or_false] at mem
  rcases mem with rfl | rfl
  · exact ⟨by decide, by decide⟩
  · exact ⟨by decide, by decide, by decide⟩

end Log
