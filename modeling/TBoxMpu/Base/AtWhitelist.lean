import TBoxMpu.Base.At
import TBoxMpu.Lib.Scanf

/-!
# The call white list

`rsp_clcc_fn` of `at_parsing.c`: a call that the modem reports as incoming or waiting is hung up
if its number is not on the white list, a string in which each number is followed by a semicolon.

## Main result

`rsp_clcc_whitelist`: of the calls reported, exactly those from the numbers on the list are kept.

## Proof strategy

What lies between the start of the current number and the place of the scan has no semicolon.
-/

namespace At

open Scanf

def callNumSize : Nat := 32
def whitelistBufSize : Nat := 32

/-- The part of `at_call` that a report of a call sets. -/
structure AtCall where
  tempStatus : UInt32
  incomingNum : List UInt8
  deriving DecidableEq

/-- `disconnectcall`, with the command of `at_chup`. -/
def disconnectcall : AtOp := .queue ⟨.chup, chars "AT+CHUP\r\n"⟩ .high

/-- `+CLCC: %*[^,],%*[^,],%d,%d,%*[^,],\"%[^\"]\",%*s`. -/
def clccFormat : List Directive :=
  (chars "+CLCC:").map .literal ++
    [.blanks, .run (· ≠ 44) false, .literal 44, .run (· ≠ 44) false, .literal 44,
      .decimal true, .literal 44, .decimal true, .literal 44, .run (· ≠ 44) false, .literal 44,
      .literal 34, .run (· ≠ 34) true, .literal 34, .literal 44, .word false]

/-- A variable that `%d` stores to, if the scan gets there. -/
def storedNumber (junk : UInt32) : Option Value → UInt32
  | some (.number n) => toUInt32 n
  | _ => junk

/-- A string that `%[..]` stores, if the scan gets there. -/
def storedText : Option Value → List UInt8
  | some (.text s) => s
  | _ => []

/-- The number at the start of the string, read with `%[^;]`; nothing if the buffer is too small
for it. -/
def whitelistNumber (s : List UInt8) : Option (List UInt8) :=
  let scanned := scan [.run (· ≠ 59) true] s
  let number := if returned scanned = 1 then storedText scanned.1[0]? else []
  if number.length < whitelistBufSize then some number else none

/-- The loop at place `n`, with `todo` before it; `whitelist_flag` is set unless `num` is found. -/
def whitelistLoop (whitelist num : List UInt8) : List UInt8 → Nat → Nat → Option Bool
  | [], _, _ => some true
  | c :: todo, n, start =>
    if c = 59 then
      (whitelistNumber (whitelist.drop start)).bind fun number =>
        if number = num then some false else whitelistLoop whitelist num todo (n + 1) (n + 1)
    else whitelistLoop whitelist num todo (n + 1) start

/-- `junk` is what `status` and `type` hold before the scan. Nothing if a number leaves its
buffer. -/
def rspClccFn (whitelist : List UInt8) (junk : UInt32 × UInt32) (response : List UInt8)
    (call : AtCall) : Option (AtCall × List AtOp) :=
  let scanned := scan clccFormat response
  let status := storedNumber junk.1 scanned.1[0]?
  let type := storedNumber junk.2 scanned.1[1]?
  let incomingNum := storedText scanned.1[2]?
  if callNumSize ≤ incomingNum.length then none
  else if returned scanned = 0 ∨ type ≠ 0 then some (call, [])
  else if status = 4 ∨ status = 5 then
    (whitelistLoop whitelist incomingNum whitelist 0 0).map fun whitelistFlag =>
      if whitelistFlag then (⟨6, incomingNum⟩, [disconnectcall]) else (⟨status, incomingNum⟩, [])
  else some (⟨status, incomingNum⟩, [])

/-! ### The white list -/

/-- The numbers of a white list. -/
def listed (whitelist : List UInt8) : List (List UInt8) := (whitelist.splitOn 59).dropLast

/-- The default of the white list. -/
example : listed (chars "95190737;95190738;01080287000;") =
    [chars "95190737", chars "95190738", chars "01080287000"] := by decide

variable {whitelist num cur todo rest : List UInt8}

theorem listed_clean (clean : 59 ∉ cur) : listed cur = [] := by
  rw [listed, List.splitOn_eq_singleton clean]
  rfl

theorem listed_append (clean : 59 ∉ cur) : listed (cur ++ 59 :: rest) = cur :: listed rest := by
  rw [listed, List.splitOn_append_cons_self_of_not_mem clean,
    List.dropLast_cons_of_ne_nil (List.splitOn_ne_nil 59 rest)]
  rfl

theorem whitelistNumber_append (clean : 59 ∉ cur) (short : cur.length < whitelistBufSize) :
    whitelistNumber (cur ++ 59 :: rest) = some cur := by
  by_cases empty : cur = []
  · subst empty
    rfl
  · have all : ∀ c ∈ cur, decide (c ≠ 59) = true := fun c mem =>
      decide_eq_true fun same => clean (same ▸ mem)
    rw [whitelistNumber, scan_run empty all (by decide)]
    exact if_pos short

theorem whitelistLoop_eq (clean : 59 ∉ cur) {n start : Nat} (place : whitelist.drop n = todo)
    (current : whitelist.drop start = cur ++ todo)
    (short : ∀ number ∈ listed (cur ++ todo), number.length < whitelistBufSize) :
    whitelistLoop whitelist num todo n start =
      some (decide (num ∉ listed (cur ++ todo))) := by
  induction todo generalizing cur n start with
  | nil =>
    rw [List.append_nil, listed_clean clean]
    rfl
  | cons c todo ih =>
    have next : whitelist.drop (n + 1) = todo := by
      rw [← List.drop_drop, place, List.drop_one, List.tail_cons]
    rw [whitelistLoop]
    by_cases sep : c = 59
    · subst sep
      rw [listed_append clean] at short ⊢
      rw [if_pos rfl, current, whitelistNumber_append clean (short cur List.mem_cons_self),
        Option.bind_some]
      by_cases found : cur = num
      · rw [if_pos found]
        simp [found]
      · have tail : whitelistLoop whitelist num todo (n + 1) (n + 1) =
            some (decide (num ∉ listed todo)) :=
          ih (List.not_mem_nil (a := 59)) next next fun number mem =>
            short number (List.mem_cons_of_mem _ mem)
        rw [if_neg found, tail]
        simp [Ne.symm found]
    · rw [List.append_cons] at current short ⊢
      rw [if_neg sep]
      refine ih ?_ next current short
      simp [clean, Ne.symm sep]

/-! ### The report of a call -/

/-- A report of a voice call that comes in, or that waits while another one is on. What comes
behind its number is any text. -/
structure ClccReport where
  idx : List UInt8
  dir : List UInt8
  waiting : Bool
  mpty : List UInt8
  number : List UInt8
  rest : List UInt8
  numeric : ∀ field ∈ [idx, dir, mpty], field ≠ [] ∧ ∀ c ∈ field, isDigit c
  quoted : 34 ∉ number

namespace ClccReport

def stat (r : ClccReport) : List UInt8 := if r.waiting then [53] else [52]

def status (r : ClccReport) : UInt32 := if r.waiting then 5 else 4

/-- `+CLCC: <idx>,<dir>,<stat>,0,<mpty>,"<number>"` and the rest. -/
def bytes (r : ClccReport) : List UInt8 :=
  chars "+CLCC:" ++ (32 :: r.idx ++ 44 :: (r.dir ++ 44 :: (r.stat ++ 44 :: ([48] ++ 44 ::
    (r.mpty ++ 44 :: 34 :: (r.number ++ 34 :: r.rest))))))

/-- The call goes on as reported. -/
def kept (r : ClccReport) : AtCall × List AtOp := (⟨r.status, r.number⟩, [])

/-- No call is left, and the modem is told so. -/
def hungUp (r : ClccReport) : AtCall × List AtOp := (⟨6, r.number⟩, [disconnectcall])

end ClccReport

theorem field_clean {field : List UInt8} (numeric : ∀ c ∈ field, isDigit c) :
    ∀ c ∈ field, decide (c ≠ 44) = true :=
  fun c mem => decide_eq_true (isDigit_ne (numeric c mem) rfl)

theorem scan_report (r : ClccReport) :
    ∃ stop, scan clccFormat r.bytes = ([.number r.status.toNat, .number 0] ++
      if r.number = [] then [] else [.text r.number], stop) := by
  have idx := r.numeric r.idx (by simp)
  have dir := r.numeric r.dir (by simp)
  have mpty := r.numeric r.mpty (by simp)
  have stat : digitsValue r.stat = r.status.toNat ∧ r.stat ≠ [] ∧ ∀ c ∈ r.stat, isDigit c := by
    rw [ClccReport.stat, ClccReport.status]
    cases r.waiting
    · exact ⟨rfl, by decide, List.all_eq_true.mp rfl⟩
    · exact ⟨rfl, by decide, List.all_eq_true.mp rfl⟩
  have skip : ∀ {format rest}, scan (.blanks :: format) (32 :: r.idx ++ 44 :: rest) =
      scan format (r.idx ++ 44 :: rest) := by
    intro format rest
    obtain ⟨c, s, same⟩ := List.exists_cons_of_ne_nil idx.1
    have digit := idx.2 c (same ▸ List.mem_cons_self)
    rw [same]
    exact scan_blanks (s := [32]) (List.all_eq_true.mp rfl) (isBlank_of_isDigit digit)
  rw [ClccReport.bytes, clccFormat, scan_text, skip,
    scan_skip idx.1 (field_clean idx.2) (by decide), scan_literal,
    scan_skip dir.1 (field_clean dir.2) (by decide), scan_literal,
    scan_decimal stat.2.1 stat.2.2 (by decide), scan_literal,
    scan_decimal (by decide) (List.all_eq_true.mp rfl) (by decide), scan_literal,
    scan_skip mpty.1 (field_clean mpty.2) (by decide), scan_literal, scan_literal, stat.1]
  by_cases empty : r.number = []
  · rw [empty, List.nil_append, scan_run_stop (by decide)]
    exact ⟨_, rfl⟩
  · have all : ∀ c ∈ r.number, decide (c ≠ 34) = true := fun c mem =>
      decide_eq_true fun same => r.quoted (same ▸ mem)
    rw [scan_run empty all (by decide), scan_silent (by simp [Directive.stores]), if_neg empty]
    exact ⟨_, rfl⟩

theorem rspClccFn_report (r : ClccReport) (fits : r.number.length < callNumSize)
    (short : ∀ number ∈ listed whitelist, number.length < whitelistBufSize)
    (junk : UInt32 × UInt32) (call : AtCall) : rspClccFn whitelist junk r.bytes call =
      some (if r.number ∈ listed whitelist then r.kept else r.hungUp) := by
  obtain ⟨stop, scanned⟩ := scan_report r
  have text : storedText (scan clccFormat r.bytes).1[2]? = r.number := by
    rw [scanned]
    by_cases empty : r.number = []
    · rw [if_pos empty, empty]
      rfl
    · rw [if_neg empty]
      rfl
  have status : storedNumber junk.1 (scan clccFormat r.bytes).1[0]? = r.status := by
    rw [scanned, ClccReport.status]
    cases r.waiting <;> rfl
  have type : storedNumber junk.2 (scan clccFormat r.bytes).1[1]? = 0 := by
    rw [scanned]
    rfl
  have result : returned (scan clccFormat r.bytes) ≠ 0 := by
    rw [scanned]
    simp only [List.cons_append, returned, List.length_cons]
    omega
  have active : r.status = 4 ∨ r.status = 5 := by
    rw [ClccReport.status]
    cases r.waiting <;> decide
  have loop : whitelistLoop whitelist r.number whitelist 0 0 =
      some (decide (r.number ∉ listed whitelist)) :=
    whitelistLoop_eq (List.not_mem_nil (a := 59)) rfl rfl short
  rw [rspClccFn, text, status, type, if_neg (Nat.not_le.mpr fits), if_neg (by simp [result]),
    if_pos active, loop]
  by_cases known : r.number ∈ listed whitelist <;> simp [known, ClccReport.kept, ClccReport.hungUp]

/-- A call that comes in is kept exactly if its number is on the white list. -/
theorem rsp_clcc_whitelist (r : ClccReport) (fits : r.number.length < callNumSize)
    (short : ∀ number ∈ listed whitelist, number.length < whitelistBufSize)
    (junk : UInt32 × UInt32) (call : AtCall) :
    (rspClccFn whitelist junk r.bytes call = some r.kept ↔ r.number ∈ listed whitelist) ∧
      (rspClccFn whitelist junk r.bytes call = some r.hungUp ↔ r.number ∉ listed whitelist) := by
  have apart : r.kept ≠ r.hungUp := fun same => nomatch congrArg Prod.snd same
  rw [rspClccFn_report r fits short junk call]
  by_cases known : r.number ∈ listed whitelist
  · simp [known, apart]
  · simp [known, apart.symm]

/-- A call from the second number of the default list. -/
def reported : ClccReport where
  idx := chars "1"
  dir := chars "1"
  waiting := false
  mpty := chars "0"
  number := chars "95190738"
  rest := chars ",129\r\n"
  numeric := by simp [chars, isDigit]
  quoted := by decide

theorem rsp_clcc_whitelist_default :
    rspClccFn (chars "95190737;95190738;01080287000;") (7, 7) reported.bytes ⟨6, []⟩ =
      some reported.kept :=
  (rsp_clcc_whitelist reported (by decide) (by decide) (7, 7) ⟨6, []⟩).1.mpr (by decide)

/-- Without a semicolon the last number is not on the list. -/
theorem rsp_clcc_refuses_last :
    reported.number ∈ (chars "95190737;95190738").splitOn 59 ∧
      (∀ number ∈ (chars "95190737;95190738").splitOn 59, number.length < 32) ∧
      rspClccFn (chars "95190737;95190738") (7, 7) reported.bytes ⟨6, []⟩ =
        some reported.hungUp ∧ reported.hungUp ≠ reported.kept :=
  ⟨by decide, by decide, rfl, fun same => nomatch congrArg Prod.snd same⟩

end At
