import Mathlib.Data.List.TakeWhile
import Mathlib.Data.UInt

/-!
# Formatted input

`sscanf`: the directives of a format run over a string from left to right. The scan stops where
the string ends or does not match, and keeps what was stored before.
-/

namespace Scanf

def isBlank (c : UInt8) : Bool := c = 32 || (9 ≤ c && c ≤ 13)

def isDigit (c : UInt8) : Bool := 48 ≤ c && c ≤ 57

/-- The bytes of an ASCII string. -/
def chars (s : String) : List UInt8 := s.toList.map fun c => .ofNat c.toNat

/-- `stored` tells `%d` from `%*d`. -/
inductive Directive
  | blanks
  | literal (c : UInt8)
  | decimal (stored : Bool)
  | run (p : UInt8 → Bool) (stored : Bool)
  | word (stored : Bool)

inductive Value
  | number (n : Int)
  | text (s : List UInt8)
  deriving DecidableEq

/-- The string ended, or did not match. -/
inductive Stop
  | ended
  | mismatch
  deriving DecidableEq

/-- What a directive stores, and what it leaves of the string. -/
abbrev Converted := Except Stop (Option Value × List UInt8)

def digitsValue (digits : List UInt8) : Nat :=
  digits.foldl (fun n c => 10 * n + (c.toNat - 48)) 0

/-- The value of the longest run, which has at least one character. -/
def convertRun (value : List UInt8 → Value) (p : UInt8 → Bool) (stored : Bool) :
    List UInt8 → Converted
  | [] => .error .ended
  | c :: s =>
    if p c then
      .ok (if stored then some (value ((c :: s).takeWhile p)) else none, (c :: s).dropWhile p)
    else .error .mismatch

/-- A sign without digits does not match, also where the string ends. -/
def convertDecimal (stored : Bool) : List UInt8 → Converted
  | [] => .error .ended
  | c :: s =>
    if c = 45 then
      (convertRun (fun digits => .number (-digitsValue digits)) isDigit stored s).mapError
        fun _ => .mismatch
    else if c = 43 then
      (convertRun (fun digits => .number (digitsValue digits)) isDigit stored s).mapError
        fun _ => .mismatch
    else convertRun (fun digits => .number (digitsValue digits)) isDigit stored (c :: s)

def Directive.convert : Directive → List UInt8 → Converted
  | .blanks, s => .ok (none, s.dropWhile isBlank)
  | .literal _, [] => .error .ended
  | .literal c, d :: s => if d = c then .ok (none, s) else .error .mismatch
  | .decimal stored, s => convertDecimal stored (s.dropWhile isBlank)
  | .run p stored, s => convertRun .text p stored s
  | .word stored, s => convertRun .text (!isBlank ·) stored (s.dropWhile isBlank)

def Directive.stores : Directive → Bool
  | .blanks | .literal _ => false
  | .decimal stored | .run _ stored | .word stored => stored

/-- The values stored, and why the scan stopped within the format. -/
def scan : List Directive → List UInt8 → List Value × Option Stop
  | [], _ => ([], none)
  | d :: format, s =>
    match d.convert s with
    | .error stop => ([], some stop)
    | .ok (value, rest) => (value.toList ++ (scan format rest).1, (scan format rest).2)

/-- What `sscanf` returns: -1 if the string ended before a value was stored. -/
def returned : List Value × Option Stop → Int
  | ([], some .ended) => -1
  | (values, _) => values.length

/-- A number as `%d` stores it in 32 bits. -/
def toUInt32 (n : Int) : UInt32 := .ofInt (max (-2 ^ 31) (min n (2 ^ 31 - 1)))

/-! ### One directive -/

variable {c : UInt8} {s rest : List UInt8} {p : UInt8 → Bool} {stored : Bool} {d : Directive}
  {format : List Directive}

theorem convertRun_append (value : List UInt8 → Value) (nonempty : s ≠ []) (all : ∀ c ∈ s, p c)
    (stop : p c = false) : convertRun value p stored (s ++ c :: rest) =
      .ok (if stored then some (value s) else none, c :: rest) := by
  have taken : (s ++ c :: rest).takeWhile p = s := by
    rw [List.takeWhile_append_of_pos all, List.takeWhile_cons_of_neg (by simp [stop]),
      List.append_nil]
  have left : (s ++ c :: rest).dropWhile p = c :: rest := by
    rw [List.dropWhile_append_of_pos all, List.dropWhile_cons_of_neg (by simp [stop])]
  cases s with
  | nil => exact absurd rfl nonempty
  | cons a s =>
    rw [List.cons_append] at taken left ⊢
    rw [convertRun, if_pos (all a List.mem_cons_self), taken, left]

theorem convertRun_stop (value : List UInt8 → Value) (stop : p c = false) :
    convertRun value p stored (c :: rest) = .error .mismatch := by
  rw [convertRun, stop]
  rfl

theorem convertRun_silent {value : List UInt8 → Value} {v : Option Value}
    (converted : convertRun value p false s = .ok (v, rest)) : v = none := by
  cases s with
  | nil => exact nomatch converted
  | cons c s =>
    rw [convertRun] at converted
    split at converted
    · cases converted
      rfl
    · exact nomatch converted

/-- A changed reason changes nothing that was converted. -/
theorem of_mapError_ok {x : Converted} {f : Stop → Stop} {v : Option Value}
    (converted : x.mapError f = .ok (v, rest)) : x = .ok (v, rest) := by
  cases x with
  | error stop => exact nomatch converted
  | ok y => exact converted

theorem convert_silent {v : Option Value} (silent : d.stores = false)
    (converted : d.convert s = .ok (v, rest)) : v = none := by
  cases d with
  | blanks =>
    cases converted
    rfl
  | literal c =>
    cases s with
    | nil => exact nomatch converted
    | cons a s =>
      rw [Directive.convert] at converted
      split at converted
      · cases converted
        rfl
      · exact nomatch converted
  | run p stored | word stored =>
    cases silent
    exact convertRun_silent converted
  | decimal stored =>
    cases silent
    rw [Directive.convert] at converted
    cases left : s.dropWhile isBlank with
    | nil => exact nomatch left ▸ converted
    | cons a s =>
      rw [left, convertDecimal] at converted
      split_ifs at converted
      · exact convertRun_silent (of_mapError_ok converted)
      · exact convertRun_silent (of_mapError_ok converted)
      · exact convertRun_silent converted

theorem isDigit_iff : isDigit c ↔ 48 ≤ c.toNat ∧ c.toNat ≤ 57 := by
  rw [isDigit, Bool.and_eq_true, decide_eq_true_iff, decide_eq_true_iff]
  rfl

theorem isDigit_ne {a : UInt8} (digit : isDigit c) (other : isDigit a = false) : c ≠ a := by
  rintro rfl
  exact absurd digit (by simp [other])

theorem isBlank_of_isDigit (digit : isDigit c) : isBlank c = false := by
  have low : ¬ c ≤ 13 := fun low => by
    have low : c.toNat ≤ 13 := low
    have := (isDigit_iff.mp digit).1
    omega
  simp [isBlank, low, isDigit_ne digit (a := 32) rfl]

theorem convertDecimal_append (nonempty : s ≠ []) (digits : ∀ c ∈ s, isDigit c)
    (stop : isDigit c = false) : (Directive.decimal stored).convert (s ++ c :: rest) =
      .ok (if stored then some (.number (digitsValue s)) else none, c :: rest) := by
  have run : convertRun (fun digits => .number (digitsValue digits)) isDigit stored
      (s ++ c :: rest) = _ := convertRun_append _ nonempty digits stop
  cases s with
  | nil => exact absurd rfl nonempty
  | cons a s =>
    have digit := digits a List.mem_cons_self
    have kept : (a :: (s ++ c :: rest)).dropWhile isBlank = a :: (s ++ c :: rest) :=
      List.dropWhile_cons_of_neg (by simp [isBlank_of_isDigit digit])
    rw [List.cons_append] at run ⊢
    rw [Directive.convert, kept, convertDecimal, if_neg (isDigit_ne digit rfl),
      if_neg (isDigit_ne digit rfl), run]

/-! ### A format -/

theorem scan_cons {value : Option Value} (converted : d.convert s = .ok (value, rest)) :
    scan (d :: format) s = (value.toList ++ (scan format rest).1, (scan format rest).2) := by
  rw [scan, converted]

theorem scan_silent (silent : ∀ d ∈ format, d.stores = false) : (scan format s).1 = [] := by
  induction format generalizing s with
  | nil => rfl
  | cons d format ih =>
    cases converted : d.convert s with
    | error stop => rw [scan, converted]
    | ok result =>
      obtain ⟨value, rest⟩ := result
      rw [scan_cons converted, convert_silent (silent d List.mem_cons_self) converted,
        ih fun d mem => silent d (List.mem_cons_of_mem _ mem)]
      rfl

theorem scan_literal (c : UInt8) : scan (.literal c :: format) (c :: s) = scan format s := by
  rw [scan, Directive.convert, if_pos rfl]
  rfl

theorem scan_text (text : List UInt8) :
    scan (text.map .literal ++ format) (text ++ s) = scan format s := by
  induction text with
  | nil => rfl
  | cons c text ih =>
    rw [List.map_cons, List.cons_append, List.cons_append, scan_literal]
    exact ih

theorem scan_blanks (all : ∀ c ∈ s, isBlank c) (stop : isBlank c = false) :
    scan (.blanks :: format) (s ++ c :: rest) = scan format (c :: rest) := by
  rw [scan, Directive.convert, List.dropWhile_append_of_pos all,
    List.dropWhile_cons_of_neg (by simp [stop])]
  rfl

theorem scan_skip (nonempty : s ≠ []) (all : ∀ c ∈ s, p c) (stop : p c = false) :
    scan (.run p false :: format) (s ++ c :: rest) = scan format (c :: rest) :=
  scan_cons (d := .run p false) (convertRun_append .text nonempty all stop)

theorem scan_run (nonempty : s ≠ []) (all : ∀ c ∈ s, p c) (stop : p c = false) :
    scan (.run p true :: format) (s ++ c :: rest) =
      (.text s :: (scan format (c :: rest)).1, (scan format (c :: rest)).2) :=
  scan_cons (d := .run p true) (convertRun_append .text nonempty all stop)

theorem scan_run_stop (stop : p c = false) :
    scan (.run p stored :: format) (c :: rest) = ([], some .mismatch) := by
  rw [scan, Directive.convert, convertRun_stop .text stop]

theorem scan_decimal (nonempty : s ≠ []) (digits : ∀ c ∈ s, isDigit c)
    (stop : isDigit c = false) : scan (.decimal true :: format) (s ++ c :: rest) =
      (.number (digitsValue s) :: (scan format (c :: rest)).1, (scan format (c :: rest)).2) :=
  scan_cons (convertDecimal_append nonempty digits stop)

end Scanf
