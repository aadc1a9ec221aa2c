import Mathlib.Data.List.Basic
import Mathlib.Data.List.Flatten
import Mathlib.Data.UInt
import Mathlib.Logic.Function.Basic

/-!
# Receiving frames from the TSP server

`ap_recv_proc` of `ap_data.c` over the receive buffer of `ap_main`. The buffer and what lies
behind it in memory is a function of the index; `recv_len` tells how much of it was received.
-/

namespace Ap

/-- Memory from the first byte of `recv_buf` on. -/
abbrev Mem := Nat → UInt8

def startMark : List UInt8 := [0x5f, 0x8a, 0xbb, 0xcd]
def endMark : List UInt8 := [0xb2, 0x5e, 0x38, 0xa2]

def isStart (msg : Mem) (i : Nat) : Bool :=
  msg i == 0x5f && msg (i + 1) == 0x8a && msg (i + 2) == 0xbb && msg (i + 3) == 0xcd

def isEnd (msg : Mem) (i : Nat) : Bool :=
  msg i == 0xb2 && msg (i + 1) == 0x5e && msg (i + 2) == 0x38 && msg (i + 3) == 0xa2

/-- The scan of `ap_recv_proc` from index `i` on; every round takes `i` forward, so that `len`
rounds are enough. The results are `start_index` and `end_index`. -/
def apScan (msg : Mem) (len : Nat) : Nat → Nat → Option Nat → Option Nat × Option Nat
  | 0, _, start => (start, none)
  | rounds + 1, i, start =>
    if i < len then
      match start with
      | none =>
        if isStart msg i then apScan msg len rounds (i + 4) (some i)
        else apScan msg len rounds (i + 1) none
      | some s =>
        if isEnd msg i then (some s, some i) else apScan msg len rounds (i + 1) (some s)
    else (start, none)

/-- `for (j = from + 1; j < *len; j++) msg[j - from] = msg[j];` -/
def copyDown (msg : Mem) (start len : Nat) : Mem :=
  (List.range' (start + 1) (len - (start + 1))).foldl
    (fun msg j => Function.update msg (j - start) (msg j)) msg

/-- The bytes `msg[s .. s + n - 1]`. -/
def bytesAt (msg : Mem) (s n : Nat) : List UInt8 :=
  (List.range n).map fun k => msg (s + k)

/-- What `ap_msg_proc`, called for the message of the given start and length, leaves in memory. -/
abbrev Proc := Mem → Nat → Nat → Mem

/-- One behind the last byte of a message of `m` bytes that is decrypted: blocks of 16 bytes
from the byte 22 on, for the length `m - 26`. -/
def decryptEnd (m : Nat) : Nat :=
  22 + (m - 26 + 15) / 16 * 16

/-- `ap_msg_proc` changes the receive buffer only where it decrypts. -/
def LeavesRest (proc : Proc) : Prop :=
  ∀ msg s m i, i < s + 22 ∨ s + decryptEnd m ≤ i → proc msg s m i = msg i

structure Received where
  handed : Option (List UInt8)
  msg : Mem
  len : Nat

def apRecvProc (proc : Proc) (msg : Mem) (len : Nat) : Received :=
  match apScan msg len len 0 none with
  | (some s, some e) =>
    let m := e - s + 1
    ⟨some (bytesAt msg s m), copyDown (proc msg s m) e len, len - e - 1⟩
  | (some s, none) => ⟨none, copyDown msg s len, len - s - 1⟩
  | (none, _) => ⟨none, msg, 0⟩

/-- `recv` appended `chunk` at `recv_len`; behind it the memory holds `stale`. -/
def apAppend (msg : Mem) (len : Nat) (chunk : List UInt8) (stale : Mem) : Mem := fun i =>
  if i < len then msg i else (chunk[i - len]?).getD (stale i)

/-- The receive branch of `ap_main` for one chunk after the other: the messages handed to
`ap_msg_proc`. The number of the call tells which `proc` and which `stale` bytes it meets. -/
def apReceive (proc : Nat → Proc) (stale : Nat → Mem) :
    Nat → Mem → Nat → List (List UInt8) → List (List UInt8)
  | _, _, _, [] => []
  | n, msg, len, chunk :: chunks =>
    let r := apRecvProc (proc n) (apAppend msg len chunk (stale n)) (len + chunk.length)
    r.handed.toList ++ apReceive proc stale (n + 1) r.msg r.len chunks

/-! ### The scan -/

theorem bytesAt_length (msg : Mem) (s n : Nat) : (bytesAt msg s n).length = n := by
  simp [bytesAt]

/-- The first index of `[i, len)` that satisfies `p`. -/
def First (p : Nat → Bool) (i len k : Nat) : Prop :=
  i ≤ k ∧ k < len ∧ p k = true ∧ ∀ j, i ≤ j → j < k → p j = false

theorem First.unique {p : Nat → Bool} {i len k k' : Nat} (h : First p i len k)
    (h' : First p i len k') : k = k' := by
  obtain ⟨low, -, found, before⟩ := h
  obtain ⟨low', -, found', before'⟩ := h'
  rcases Nat.lt_trichotomy k k' with lt | eq | gt
  · rw [before' k low lt] at found
    cases found
  · exact eq
  · rw [before k' low' gt] at found'
    cases found'

theorem First.skip {p : Nat → Bool} {i len k : Nat} (h : First p (i + 1) len k)
    (here : p i = false) : First p i len k := by
  obtain ⟨low, high, found, before⟩ := h
  refine ⟨by omega, high, found, fun j hj lt => ?_⟩
  rcases Nat.eq_or_lt_of_le hj with rfl | above
  · exact here
  · exact before j above lt

theorem none_skip {p : Nat → Bool} {i len : Nat} (none : ∀ j, i + 1 ≤ j → j < len → p j = false)
    (here : p i = false) : ∀ j, i ≤ j → j < len → p j = false := by
  intro j low high
  rcases Nat.eq_or_lt_of_le low with rfl | above
  · exact here
  · exact none j above high

/-- With the start mark found the scan ends at the first end mark. -/
theorem apScan_end {msg : Mem} {len rounds i s : Nat} (enough : len ≤ i + rounds) :
    (∃ e, First (isEnd msg) i len e ∧
      apScan msg len rounds i (some s) = (some s, some e)) ∨
    ((∀ j, i ≤ j → j < len → isEnd msg j = false) ∧
      apScan msg len rounds i (some s) = (some s, none)) := by
  induction rounds generalizing i with
  | zero =>
    refine .inr ⟨fun j low high => ?_, rfl⟩
    omega
  | succ rounds ih =>
    by_cases inside : i < len
    · simp only [apScan, if_pos inside]
      by_cases found : isEnd msg i = true
      · exact .inl ⟨i, ⟨Nat.le_refl i, inside, found, fun j low high => by omega⟩, by rw [if_pos found]⟩
      · rw [if_neg found]
        rcases ih (show len ≤ i + 1 + rounds by omega) with ⟨e, first, eq⟩ | ⟨none, eq⟩
        · exact .inl ⟨e, first.skip (by simpa using found), eq⟩
        · exact .inr ⟨none_skip none (by simpa using found), eq⟩
    · exact .inr ⟨fun j low high => by omega, by simp [apScan, inside]⟩

/-- The scan finds the first start mark and the first end mark behind it. -/
theorem apScan_start {msg : Mem} {len rounds i : Nat} (enough : len ≤ i + rounds) :
    (∃ s, First (isStart msg) i len s ∧
      ((∃ e, First (isEnd msg) (s + 4) len e ∧
          apScan msg len rounds i none = (some s, some e)) ∨
        ((∀ j, s + 4 ≤ j → j < len → isEnd msg j = false) ∧
          apScan msg len rounds i none = (some s, none)))) ∨
    ((∀ j, i ≤ j → j < len → isStart msg j = false) ∧
      apScan msg len rounds i none = (none, none)) := by
  induction rounds generalizing i with
  | zero =>
    refine .inr ⟨fun j low high => ?_, rfl⟩
    omega
  | succ rounds ih =>
    by_cases inside : i < len
    · simp only [apScan, if_pos inside]
      by_cases found : isStart msg i = true
      · rw [if_pos found]
        refine .inl ⟨i, ⟨Nat.le_refl i, inside, found, fun j low high => by omega⟩, ?_⟩
        exact apScan_end (by omega)
      · rw [if_neg found]
        rcases ih (show len ≤ i + 1 + rounds by omega) with ⟨s, first, rest⟩ | ⟨none, eq⟩
        · exact .inl ⟨s, first.skip (by simpa using found), rest⟩
        · exact .inr ⟨none_skip none (by simpa using found), eq⟩
    · exact .inr ⟨fun j low high => by omega, by simp [apScan, inside]⟩

/-! ### Copying down -/

theorem copyDown_apply (msg : Mem) (start len k : Nat) :
    copyDown msg start len k = if 1 ≤ k ∧ k + start < len then msg (k + start) else msg k := by
  -- after `n` rounds the first `n` bytes are copied and those behind are as they were
  have rounds : ∀ n k, (List.range' (start + 1) n).foldl
      (fun msg j => Function.update msg (j - start) (msg j)) msg k =
      if 1 ≤ k ∧ k ≤ n then msg (k + start) else msg k := by
    intro n
    induction n with
    | zero =>
      intro k
      rw [List.range'_zero, List.foldl_nil, if_neg (by omega)]
    | succ n ih =>
      intro k
      rw [List.range'_concat, List.foldl_append, List.foldl_cons, List.foldl_nil, Nat.one_mul,
        Function.update_apply, show start + 1 + n - start = n + 1 by omega, ih, ih]
      by_cases last : k = n + 1
      · subst last
        rw [if_pos rfl, if_neg (by omega), if_pos (by omega)]
        congr 1
        omega
      · rw [if_neg last]
        by_cases inner : 1 ≤ k ∧ k ≤ n
        · rw [if_pos inner, if_pos (by omega)]
        · rw [if_neg inner, if_neg (by omega)]
  rw [copyDown, rounds]
  by_cases moved : 1 ≤ k ∧ k + start < len
  · rw [if_pos moved, if_pos (by omega)]
  · rw [if_neg moved, if_neg (by omega)]

end Ap
