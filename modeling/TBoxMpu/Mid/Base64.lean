import TBoxMpu.Lib.Digits
import Mathlib.Data.List.TakeWhile

/-!
# Base64

`base64.c`: bytes as letters of six bits each and back. A group of up to three bytes is a word of
24 bits whose empty places are filled up with `=`. What is decoded is what was encoded, without
the zero bytes in front that `encode64` leaves out.
-/

namespace Base64

open Digits

def map64 : List UInt8 := [
  255, 255, 255, 255, 255, 255, 255, 255, 255, 255, 255, 255, 255, 255, 255, 255,
  255, 255, 255, 255, 255, 255, 255, 255, 255, 255, 255, 255, 255, 255, 255, 255,
  255, 255, 255, 255, 255, 255, 255, 255, 255, 255, 255, 62, 255, 255, 255, 63,
  52, 53, 54, 55, 56, 57, 58, 59, 60, 61, 255, 255, 255, 255, 255, 255,
  255, 0, 1, 2, 3, 4, 5, 6, 7, 8, 9, 10, 11, 12, 13, 14,
  15, 16, 17, 18, 19, 20, 21, 22, 23, 24, 25, 255, 255, 255, 255, 255,
  255, 26, 27, 28, 29, 30, 31, 32, 33, 34, 35, 36, 37, 38, 39, 40,
  41, 42, 43, 44, 45, 46, 47, 48, 49, 50, 51, 255, 255, 255, 255, 255]

def alphabet64 : List UInt8 := [
  'A', 'B', 'C', 'D', 'E', 'F', 'G', 'H',
  'I', 'J', 'K', 'L', 'M', 'N', 'O', 'P',
  'Q', 'R', 'S', 'T', 'U', 'V', 'W', 'X',
  'Y', 'Z', 'a', 'b', 'c', 'd', 'e', 'f',
  'g', 'h', 'i', 'j', 'k', 'l', 'm', 'n',
  'o', 'p', 'q', 'r', 's', 't', 'u', 'v',
  'w', 'x', 'y', 'z', '0', '1', '2', '3',
  '4', '5', '6', '7', '8', '9', '+', '/'].map fun c => c.toNat.toUInt8

/-- `=` -/
def equals : UInt8 := 0x3d

/-! ### `encode64` -/

/-- The loop over the input bytes of a group. The counter stands for `j + 1`, which is what `++j`
leaves behind the loop. -/
def takeBytes : Nat → UInt32 → List UInt8 → Nat × UInt32 × List UInt8
  | j + 1, shiftbuf, c :: cp => takeBytes j (shiftbuf ||| c.toUInt32 <<< (j * 8).toUInt32) cp
  | j, shiftbuf, cp => (j, shiftbuf, cp)

/-- The loop over `i`, with the rounds left of it; `op` is what stands in `outbuf`. -/
def putLetters (outlen : Nat) (shiftbuf : UInt32) : Nat → Nat → List UInt8 → List UInt8
  | 0, _, op => op
  | todo + 1, shift, op =>
    if op.length < outlen then
      let letter := alphabet64.getD ((shiftbuf >>> shift.toUInt32) &&& 0x3f).toNat 0
      putLetters outlen shiftbuf todo (shift - 6) (op ++ [letter])
    else op

/-- `while (j-- > 0) *op++ = '='`, and the zero behind. These are written without a look at
`outlen`; `none` is a write behind a buffer of that length. -/
def pad (outlen : Nat) : Nat → List UInt8 → Option (List UInt8)
  | 0, op => if op.length < outlen then some op else none
  | j + 1, op => if op.length < outlen then pad outlen j (op ++ [equals]) else none

theorem takeBytes_length (j : Nat) (shiftbuf : UInt32) (cp : List UInt8) :
    (takeBytes j shiftbuf cp).2.2 = cp.drop j := by
  induction j generalizing shiftbuf cp with
  | zero => rfl
  | succ j ih =>
    cases cp with
    | nil => rfl
    | cons c cp => exact ih _ cp

/-- The second loop of `encode64`. -/
def encodeLoop (outlen : Nat) (inbuf op : List UInt8) : Option (List UInt8) :=
  if inbuf = [] then some op
  else
    let group := takeBytes 3 0 inbuf
    (pad outlen group.1 (putLetters outlen group.2.1 (4 - group.1) 18 op)).bind
      (encodeLoop outlen group.2.2)
termination_by inbuf.length
decreasing_by
  next more =>
    have pos := List.length_pos_iff.mpr more
    show (takeBytes 3 0 inbuf).2.2.length < _
    rw [takeBytes_length, List.length_drop]
    omega

/-- The string that stands in `outbuf` afterwards. -/
def encode64 (inbuf : List UInt8) (outlen : Nat) : Option (List UInt8) :=
  if 0 < outlen then encodeLoop outlen (inbuf.dropWhile (· = 0)) [] else none

/-! ### `decode64` -/

/-- The loop over `i`, with the rounds left of it; `none` is a bad letter. A pointer into the
string is the list of the characters from there on, the zero at its end may be left out. -/
def takeLetters : Nat → UInt32 → List UInt8 → Option (Nat × UInt32 × List UInt8)
  | todo + 1, shiftbuf, k :: cp =>
    if k = 0 ∨ k = equals then some (todo + 1, shiftbuf, k :: cp)
    else if map64.length ≤ k.toNat ∨ map64.getD k.toNat 255 = 255 then none
    else
      let c := (map64.getD k.toNat 255).toUInt32
      takeLetters todo (shiftbuf ||| c <<< (6 * todo).toUInt32) cp
  | todo, shiftbuf, cp => some (todo, shiftbuf, cp)

/-- The loop over `j`. -/
def octets (shiftbuf : UInt32) (i : Nat) : List UInt8 :=
  (List.range i).map fun j => (shiftbuf >>> (8 * (2 - j)).toUInt32 &&& 0xff).toUInt8

/-- `!(*cp && *cp != '=')` -/
def ends (cp : List UInt8) : Bool := cp.head?.all fun c => c = 0 ∨ c = equals

theorem takeLetters_length {todo todo' : Nat} {shiftbuf shiftbuf' : UInt32} {cp rest : List UInt8}
    (taken : takeLetters todo shiftbuf cp = some (todo', shiftbuf', rest)) :
    rest.length ≤ cp.length := by
  induction todo generalizing shiftbuf cp with
  | zero =>
    cases taken
    exact Nat.le_refl _
  | succ todo ih =>
    cases cp with
    | nil =>
      cases taken
      exact Nat.le_refl _
    | cons k cp =>
      rw [takeLetters] at taken
      split at taken
      · cases taken
        exact Nat.le_refl _
      · split at taken
        · cases taken
        · exact Nat.le_succ_of_le (ih taken)

theorem takeLetters_shorter {todo todo' : Nat} {shiftbuf shiftbuf' : UInt32}
    {cp rest : List UInt8} (goes : ends cp = false)
    (taken : takeLetters (todo + 1) shiftbuf cp = some (todo', shiftbuf', rest)) :
    rest.length < cp.length := by
  cases cp with
  | nil => cases goes
  | cons k cp =>
    have letter : ¬(k = 0 ∨ k = equals) := by simpa [ends] using goes
    rw [takeLetters, if_neg letter] at taken
    split at taken
    · cases taken
    · exact Nat.lt_succ_of_le (takeLetters_length taken)

/-- The loop of `decode64`: what it returns and the bytes in `outbuf`, as many as `*outlen`
says. -/
def decodeLoop (buflen : Nat) (op cp : List UInt8) : Int × List UInt8 :=
  if ends cp then (0, op)
  else
    match taken : takeLetters 4 0 cp with
    | none => (-1, op)
    | some (todo, shiftbuf, rest) =>
      -- the index of the last letter of the group is the number of its bytes
      let i := 4 - todo - 1
      if buflen < op.length + i then (-1, op)
      else decodeLoop buflen (op ++ octets shiftbuf i) rest
termination_by cp.length
decreasing_by
  next more _ => exact takeLetters_shorter (Bool.eq_false_iff.mpr more) taken

def decode64 (string : List UInt8) (buflen : Nat) : Int × List UInt8 :=
  decodeLoop buflen [] string

/-! ### A group -/

/-- The letter of a six-bit digit. -/
def letter (v : Nat) : UInt8 := alphabet64.getD v 0

/-- Each letter reads back as its digit, and none of them ends the text. -/
theorem letter_reads {v : Nat} (small : v < 64) :
    (letter v ≠ 0 ∧ letter v ≠ equals) ∧ (letter v).toNat < map64.length ∧
      map64.getD (letter v).toNat 255 = v.toUInt8 ∧ v.toUInt8 ≠ 255 := by
  have all : ∀ v : Fin 64, (letter v ≠ 0 ∧ letter v ≠ equals) ∧
      (letter v).toNat < map64.length ∧
      map64.getD (letter v).toNat 255 = v.val.toUInt8 ∧ v.val.toUInt8 ≠ 255 := by
    decide +kernel
  exact all ⟨v, small⟩

/-- A digit that is put into an empty place of the word. -/
theorem or_digit {u : UInt32} {c : UInt8} {k p : Nat} (digit : c.toNat < 2 ^ k)
    (word : p + k ≤ 24) (empty : u.toNat % 2 ^ (p + k) = 0) :
    (u ||| c.toUInt32 <<< p.toUInt32).toNat = u.toNat + c.toNat * 2 ^ p := by
  have place : p.toUInt32.toNat = p := by
    rw [Nat.toUInt32_eq, UInt32.toNat_ofNat']
    exact Nat.mod_eq_of_lt (by omega)
  have high : c.toNat * 2 ^ p < 2 ^ 32 := by
    have lt : c.toNat * 2 ^ p < 2 ^ k * 2 ^ p :=
      Nat.mul_lt_mul_of_pos_right digit (Nat.two_pow_pos p)
    rw [← Nat.pow_add] at lt
    exact Nat.lt_of_lt_of_le lt (Nat.pow_le_pow_right (by decide) (by omega))
  rw [UInt32.toNat_or, UInt32.toNat_shiftLeft, place, Nat.mod_eq_of_lt (by omega : p < 32),
    UInt8.toNat_toUInt32, Nat.shiftLeft_eq, Nat.mod_eq_of_lt high, or_place digit empty]

/-- What is left of the word is empty behind the new digit. -/
theorem empty_behind {u c k p : Nat} (empty : u % 2 ^ (p + k) = 0) :
    (u + c * 2 ^ p) % 2 ^ p = 0 := by
  rw [Nat.add_mul_mod_self_right]
  exact Nat.mod_eq_zero_of_dvd
    (Nat.dvd_trans (Nat.pow_dvd_pow 2 (Nat.le_add_right p k)) (Nat.dvd_of_mod_eq_zero empty))

theorem takeBytes_eq {j : Nat} {u : UInt32} (few : j ≤ 3) (empty : u.toNat % 2 ^ (8 * j) = 0)
    (cp : List UInt8) : ∃ w, takeBytes j u cp = (j - (cp.take j).length, w, cp.drop j) ∧
      w.toNat = u.toNat + join 8 j ((cp.take j).map UInt8.toNat) := by
  induction j generalizing u cp with
  | zero => exact ⟨u, rfl, rfl⟩
  | succ j ih =>
    cases cp with
    | nil => exact ⟨u, rfl, by simp⟩
    | cons c cp =>
      have placed := or_digit (p := 8 * j) c.toNat_lt (by omega) empty
      obtain ⟨w, taken, value⟩ := ih (by omega) (placed ▸ empty_behind empty) cp
      refine ⟨w, ?_, ?_⟩
      · rw [takeBytes, Nat.mul_comm j, taken]
        simp
      · rw [value, placed]
        simp [join, Nat.add_assoc]

/-- All letters of a group find room. -/
theorem putLetters_eq {outlen todo n : Nat} {w : UInt32} {op : List UInt8} (fits : todo ≤ n)
    (word : n ≤ 4) (room : op.length + todo ≤ outlen) :
    putLetters outlen w todo (6 * (n - 1)) op = op ++ (split 6 n todo w.toNat).map letter := by
  induction todo generalizing n op with
  | zero => cases n <;> simp [putLetters, split]
  | succ todo ih =>
    obtain ⟨n, rfl⟩ : ∃ m, n = m + 1 := ⟨n - 1, by omega⟩
    have place : (6 * n).toUInt32.toNat = 6 * n := by
      rw [Nat.toUInt32_eq, UInt32.toNat_ofNat']
      exact Nat.mod_eq_of_lt (by omega)
    have digit : ((w >>> (6 * n).toUInt32) &&& 0x3f).toNat = w.toNat / 2 ^ (6 * n) % 2 ^ 6 := by
      rw [UInt32.toNat_and, UInt32.toNat_shiftRight, place,
        Nat.mod_eq_of_lt (by omega : 6 * n < 32), Nat.shiftRight_eq_div_pow]
      exact Nat.and_two_pow_sub_one_eq_mod _ 6
    rw [putLetters, if_pos (by omega), Nat.add_sub_cancel, digit,
      show 6 * n - 6 = 6 * (n - 1) by omega,
      ih (Nat.le_of_succ_le_succ fits) (by omega) (by simp; omega), split]
    simp [letter]

/-- The padding and the zero behind it find room. -/
theorem pad_eq {outlen j : Nat} {op : List UInt8} (room : op.length + j < outlen) :
    pad outlen j op = some (op ++ List.replicate j equals) := by
  induction j generalizing op with
  | zero => rw [pad, if_pos (by omega), List.replicate_zero, List.append_nil]
  | succ j ih =>
    rw [pad, if_pos (by omega), ih (by simp; omega), List.replicate_succ, List.append_assoc]
    rfl

/-- The letters of digits make the word of these digits. -/
theorem takeLetters_eq {n : Nat} {u : UInt32} {ds : List Nat} {tail : List UInt8} (word : n ≤ 4)
    (empty : u.toNat % 2 ^ (6 * n) = 0) (small : ∀ d ∈ ds, d < 2 ^ 6) (fits : ds.length ≤ n)
    (last : ds.length = n ∨ ends tail) :
    ∃ w, takeLetters n u (ds.map letter ++ tail) = some (n - ds.length, w, tail) ∧
      w.toNat = u.toNat + join 6 n ds := by
  induction n generalizing u ds with
  | zero =>
    obtain rfl := List.eq_nil_of_length_eq_zero (Nat.le_zero.mp fits)
    exact ⟨u, rfl, rfl⟩
  | succ n ih =>
    cases ds with
    | nil =>
      refine ⟨u, ?_, by simp⟩
      rcases last with full | stop
      · cases full
      · cases tail with
        | nil => rfl
        | cons c tail =>
          have over_now : c = 0 ∨ c = equals := by simpa [ends] using stop
          simp [takeLetters, over_now]
    | cons d ds =>
      have six := small d List.mem_cons_self
      obtain ⟨more, short, reads, good⟩ := letter_reads six
      have value : d.toUInt8.toNat = d := by
        rw [Nat.toUInt8_eq, UInt8.toNat_ofNat']
        exact Nat.mod_eq_of_lt (by omega)
      have placed := or_digit (c := d.toUInt8) (k := 6) (p := 6 * n) (value.symm ▸ six) (by omega)
        empty
      obtain ⟨w, taken, sum⟩ := ih (by omega) (placed ▸ empty_behind empty)
        (fun x mem => small x (List.mem_cons_of_mem d mem)) (Nat.le_of_succ_le_succ fits)
        (last.imp_left Nat.succ.inj)
      refine ⟨w, ?_, ?_⟩
      · rw [List.map_cons, List.cons_append, takeLetters, if_neg (by simpa using more), reads,
          if_neg (by simp only [good, or_false]; omega), taken, List.length_cons,
          Nat.succ_sub_succ]
      · rw [sum, placed, value, join, Nat.add_assoc]

/-- The bytes of a group. -/
theorem octets_eq {w : UInt32} {i : Nat} (few : i ≤ 3) :
    octets w i = (split 8 3 i w.toNat).map Nat.toUInt8 := by
  have byte : ∀ p < 32, ((w >>> p.toUInt32) &&& 0xff).toUInt8 =
      (w.toNat / 2 ^ p % 2 ^ 8).toUInt8 := by
    intro p word
    have place : p.toUInt32.toNat = p := by
      rw [Nat.toUInt32_eq, UInt32.toNat_ofNat']
      exact Nat.mod_eq_of_lt (by omega)
    apply UInt8.toNat.inj
    rw [UInt32.toNat_toUInt8, UInt32.toNat_and, UInt32.toNat_shiftRight, place,
      Nat.mod_eq_of_lt word, Nat.shiftRight_eq_div_pow, Nat.toUInt8_eq, UInt8.toNat_ofNat']
    congr 1
    exact Nat.and_two_pow_sub_one_eq_mod _ 8
  rw [split_eq_map few, List.map_map, octets]
  exact List.map_congr_left fun j _ => byte (8 * (2 - j)) (by omega)

/-! ### The round trip -/

/-- What stands in `outbuf` for a group. -/
def groupText (bytes : List UInt8) (w : UInt32) : List UInt8 :=
  (split 6 4 (bytes.length + 1) w.toNat).map letter ++ List.replicate (3 - bytes.length) equals

variable {outlen buflen : Nat} {inbuf op out rest : List UInt8}

/-- One round of `encode64` writes the text of the next three bytes. -/
theorem encodeLoop_group (more : inbuf ≠ []) (room : op.length + 4 < outlen) :
    ∃ w, w.toNat = join 8 3 ((inbuf.take 3).map UInt8.toNat) ∧
      encodeLoop outlen inbuf op =
        encodeLoop outlen (inbuf.drop 3) (op ++ groupText (inbuf.take 3) w) := by
  obtain ⟨w, taken, value⟩ := takeBytes_eq (j := 3) (u := 0) (Nat.le_refl 3) rfl inbuf
  refine ⟨w, by simpa using value, ?_⟩
  have few : (inbuf.take 3).length ≤ 3 := List.length_take_le 3 inbuf
  have letters : 4 - (3 - (inbuf.take 3).length) = (inbuf.take 3).length + 1 := by omega
  have written : putLetters outlen w ((inbuf.take 3).length + 1) 18 op =
      op ++ (split 6 4 ((inbuf.take 3).length + 1) w.toNat).map letter :=
    putLetters_eq (by omega) (Nat.le_refl 4) (by omega)
  rw [encodeLoop, if_neg more, taken]
  simp only
  rw [letters, written, pad_eq (by simp; omega), Option.bind_some, List.append_assoc, groupText]

/-- One round of `decode64` reads the bytes of a group back. -/
theorem decodeLoop_group {bytes : List UInt8} {w : UInt32} (more : bytes ≠ [])
    (few : bytes.length ≤ 3) (value : w.toNat = join 8 3 (bytes.map UInt8.toNat))
    (room : out.length + bytes.length ≤ buflen) :
    decodeLoop buflen out (groupText bytes w ++ rest) = decodeLoop buflen (out ++ bytes)
      (List.replicate (3 - bytes.length) equals ++ rest) := by
  have lt : ∀ d ∈ bytes.map UInt8.toNat, d < 2 ^ 8 := by
    intro d mem
    obtain ⟨b, -, rfl⟩ := List.mem_map.mp mem
    exact b.toNat_lt
  have pos : 0 < bytes.length := List.length_pos_iff.mpr more
  -- the word has nothing behind the bytes, so the letters written say all of it
  have empty : w.toNat % 2 ^ (6 * (4 - (bytes.length + 1))) = 0 := by
    have behind := join_mod 8 3 (bytes.map UInt8.toNat)
    rw [← value, List.length_map] at behind
    exact Nat.mod_eq_zero_of_dvd (Nat.dvd_trans (Nat.pow_dvd_pow 2 (by omega))
      (Nat.dvd_of_mod_eq_zero behind))
  have whole : join 6 4 (split 6 4 (bytes.length + 1) w.toNat) = w.toNat :=
    join_split (value ▸ join_lt lt) (by omega) empty
  have letters : (split 6 4 (bytes.length + 1) w.toNat).length = bytes.length + 1 := by
    rw [length_split]
    omega
  have last : bytes.length + 1 = 4 ∨
      ends (List.replicate (3 - bytes.length) equals ++ rest) := by
    rcases Nat.lt_or_ge bytes.length 3 with short | full
    · obtain ⟨n, eq⟩ : ∃ n, 3 - bytes.length = n + 1 := ⟨2 - bytes.length, by omega⟩
      exact .inr (by rw [eq]; rfl)
    · exact .inl (by omega)
  obtain ⟨w', taken, same⟩ := takeLetters_eq (u := 0) (Nat.le_refl 4) rfl
    (fun d mem => split_lt mem) (by rw [letters]; omega) (by rw [letters]; exact last)
  rw [whole, UInt32.toNat_zero, Nat.zero_add] at same
  obtain rfl := UInt32.toNat.inj same
  have goes : ends (groupText bytes w' ++ rest) = false := by
    have head := letter_reads (Nat.mod_lt (w'.toNat / 2 ^ (6 * 3)) (Nat.two_pow_pos 6))
    simpa [groupText, split, ends] using head.1
  have back : octets w' bytes.length = bytes := by
    have digits := split_join (n := 3) lt (by rw [List.length_map]; exact few)
    rw [List.length_map, ← value] at digits
    rw [octets_eq few, digits, List.map_map]
    simp [Function.comp_def]
  rw [letters] at taken
  rw [decodeLoop, if_neg (by rw [goes]; exact Bool.false_ne_true), groupText, List.append_assoc,
    taken]
  simp only
  rw [show 4 - (4 - (bytes.length + 1)) - 1 = bytes.length by omega, if_neg (by omega), back]

/-- The text of a buffer: four letters for three bytes, which read back as these bytes. -/
theorem encodeLoop_decodes (inbuf op : List UInt8)
    (room : op.length + 4 * ((inbuf.length + 2) / 3) < outlen) :
    ∃ text, encodeLoop outlen inbuf op = some (op ++ text) ∧
      ∀ out : List UInt8, out.length + inbuf.length ≤ buflen → ∀ rest,
        decodeLoop buflen out (text ++ 0 :: rest) = (0, out ++ inbuf) := by
  induction size : inbuf.length using Nat.strongRecOn generalizing inbuf op with
  | ind n ih =>
    subst size
    by_cases done : inbuf = []
    · subst done
      refine ⟨[], ?_, ?_⟩
      · rw [encodeLoop, if_pos rfl, List.append_nil]
      · intro out _ rest
        rw [decodeLoop, List.append_nil]
        exact if_pos rfl
    · have pos : 0 < inbuf.length := List.length_pos_iff.mpr done
      have round : op.length + 4 < outlen := by omega
      obtain ⟨w, value, written⟩ := encodeLoop_group done round
      have length : (groupText (inbuf.take 3) w).length = 4 := by
        simp [groupText]
        omega
      obtain ⟨text, encoded, decoded⟩ := ih (inbuf.drop 3).length (by simp; omega) (inbuf.drop 3)
        (op ++ groupText (inbuf.take 3) w) (by simp [length]; omega) rfl
      refine ⟨groupText (inbuf.take 3) w ++ text, ?_, ?_⟩
      · rw [written, encoded, List.append_assoc]
      · intro out fits rest
        have taken : (inbuf.take 3).length = min 3 inbuf.length := List.length_take
        rw [List.append_assoc, decodeLoop_group (by simp [done]) (by omega) value (by omega)]
        rcases Nat.lt_or_ge inbuf.length 3 with short | long
        -- the padding ends the text
        · obtain ⟨n, some⟩ : ∃ n, 3 - (inbuf.take 3).length = n + 1 :=
            ⟨2 - (inbuf.take 3).length, by omega⟩
          rw [some, List.take_of_length_le (Nat.le_of_lt short), decodeLoop]
          exact if_pos rfl
        · rw [show 3 - (inbuf.take 3).length = 0 by omega]
          have later := decoded (out ++ inbuf.take 3) (by simp; omega) rest
          rwa [List.append_assoc, List.take_append_drop] at later

/-- For any bytes `x`, and buffers that hold the text of the bytes that are left of it with the
zero at its end and these bytes, whatever stands behind the text. -/
theorem decode64_encode64 (x : List UInt8)
    (text_room : 4 * (((x.dropWhile (· = 0)).length + 2) / 3) < outlen)
    (bytes_room : (x.dropWhile (· = 0)).length ≤ buflen) (behind : List UInt8) :
    ∃ text, encode64 x outlen = some text ∧
      decode64 (text ++ 0 :: behind) buflen = (0, x.dropWhile (· = 0)) := by
  have room : ([] : List UInt8).length + 4 * (((x.dropWhile (· = 0)).length + 2) / 3) < outlen := by
    simpa using text_room
  obtain ⟨text, encoded, decoded⟩ := encodeLoop_decodes (x.dropWhile (· = 0)) [] room
  refine ⟨text, ?_, ?_⟩
  · rw [encode64, if_pos (by omega), encoded]
    rfl
  · exact decoded [] (by simpa using bytes_room) behind

theorem decode64_encode64_of_two : ∃ text, encode64 [0, 0, 0x4d, 0x61] 9 = some text ∧
    decode64 (text ++ 0 :: [0xff]) 2 = (0, [0x4d, 0x61]) :=
  decode64_encode64 [0, 0, 0x4d, 0x61] (by decide) (by decide) [0xff]

end Base64
