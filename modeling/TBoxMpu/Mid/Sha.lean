import Mathlib.Data.UInt
import TBoxMpu.Lib.Absorb

/-!
# The digest

`sha.c`: `sha1_write` takes a message in pieces, `sha1_final` pads it and gives the digest.
-/

namespace Sha

/-- `SHA1_CONTEXT` without its buffer. -/
structure Chain where
  h0 : UInt32
  h1 : UInt32
  h2 : UInt32
  h3 : UInt32
  h4 : UInt32
  nblocks : UInt32
  deriving DecidableEq

/-- `buf` holds the first `count` bytes. -/
structure Sha1Context where
  chain : Chain
  buf : List UInt8

def sha1Init : Sha1Context :=
  ⟨⟨0x67452301, 0xefcdab89, 0x98badcfe, 0x10325476, 0xc3d2e1f0, 0⟩, []⟩

/-! ### Blocks -/

def rol (x n : UInt32) : UInt32 := x <<< n ||| x >>> (32 - n)

/-- A word of the block, its first byte the highest. -/
def word (data : List UInt8) (i : Nat) : UInt32 :=
  (data.getD (4 * i) 0).toUInt32 <<< 24 ||| (data.getD (4 * i + 1) 0).toUInt32 <<< 16 |||
    (data.getD (4 * i + 2) 0).toUInt32 <<< 8 ||| (data.getD (4 * i + 3) 0).toUInt32

structure Registers where
  a : UInt32
  b : UInt32
  c : UInt32
  d : UInt32
  e : UInt32

/-- The words `x[i & 0x0f]` and the registers under the names they have in round `i`. -/
structure Rounds where
  x : List UInt32
  r : Registers

/-- `M(i)`, from round 16 on. -/
def nextWord (x : List UInt32) (i : Nat) : UInt32 :=
  rol (x.getD (i % 16) 0 ^^^ x.getD ((i - 14) % 16) 0 ^^^ x.getD ((i - 8) % 16) 0 ^^^
    x.getD ((i - 3) % 16) 0) 1

/-- `F1`, `F2`, `F3`, `F4` and their constants. -/
def mix (i : Nat) (x y z : UInt32) : UInt32 :=
  if i < 20 then (z ^^^ (x &&& (y ^^^ z))) + 0x5A827999
  else if i < 40 then (x ^^^ y ^^^ z) + 0x6ED9EBA1
  else if i < 60 then (x &&& y ||| z &&& (x ||| y)) + 0x8F1BBCDC
  else (x ^^^ y ^^^ z) + 0xCA62C1D6

/-- `R`: the register `e` takes the sum and is the first of the next round. -/
def round (s : Rounds) (i : Nat) : Rounds :=
  let m := if i < 16 then s.x.getD i 0 else nextWord s.x i
  let e := s.r.e + rol s.r.a 5 + mix i s.r.b s.r.c s.r.d + m
  ⟨s.x.set (i % 16) m, ⟨e, s.r.a, rol s.r.b 30, s.r.c, s.r.d⟩⟩

def transform (hd : Chain) (data : List UInt8) : Chain :=
  let s := (List.range 80).foldl round
    ⟨(List.range 16).map (word data), ⟨hd.h0, hd.h1, hd.h2, hd.h3, hd.h4⟩⟩
  ⟨hd.h0 + s.r.a, hd.h1 + s.r.b, hd.h2 + s.r.c, hd.h3 + s.r.d, hd.h4 + s.r.e, hd.nblocks⟩

/-- `transform(hd, ..); hd->nblocks++;` -/
def takeBlock (hd : Chain) (data : List UInt8) : Chain :=
  { transform hd data with nblocks := hd.nblocks + 1 }

/-! ### Messages -/

/-- The flush of `sha1_write`. -/
def flush (hd : Sha1Context) : Sha1Context :=
  if hd.buf.length = 64 then ⟨takeBlock hd.chain hd.buf, []⟩ else hd

def sha1Write (hd : Sha1Context) (inbuf : List UInt8) : Sha1Context :=
  let hd := flush hd
  -- the bytes that fill the buffer
  let n := if hd.buf = [] then 0 else 64 - hd.buf.length
  let hd := if hd.buf = [] then hd else flush { hd with buf := hd.buf ++ inbuf.take n }
  let inbuf := inbuf.drop n
  if n ≠ 0 ∧ inbuf = [] then hd
  else
    let chain := Absorb.whole 64 takeBlock hd.chain inbuf
    let inbuf := Absorb.rest 64 inbuf
    ⟨chain, hd.buf ++ inbuf.take (64 - hd.buf.length)⟩

def bytesOf (w : UInt32) : List UInt8 :=
  [(w >>> 24).toUInt8, (w >>> 16).toUInt8, (w >>> 8).toUInt8, w.toUInt8]

def Chain.digest (hd : Chain) : List UInt8 :=
  bytesOf hd.h0 ++ bytesOf hd.h1 ++ bytesOf hd.h2 ++ bytesOf hd.h3 ++ bytesOf hd.h4

/-- The 64 bits that `sha1_final` appends. -/
def bitCount (nblocks count : UInt32) : List UInt8 :=
  let t := nblocks
  let lsb := t <<< 6
  let msb := t >>> 26
  let t := lsb
  let lsb := lsb + count
  let msb := if lsb < t then msb + 1 else msb
  let t := lsb
  let lsb := lsb <<< 3
  let msb := msb <<< 3 ||| t >>> 29
  bytesOf msb ++ bytesOf lsb

def sha1Final (hd : Sha1Context) : List UInt8 :=
  let hd := flush hd
  let size := bitCount hd.chain.nblocks (UInt32.ofNat hd.buf.length)
  let hd :=
    if hd.buf.length < 56 then
      { hd with buf := hd.buf ++ 0x80 :: List.replicate (56 - (hd.buf.length + 1)) 0 }
    else
      let hd := flush { hd with
        buf := hd.buf ++ 0x80 :: List.replicate (64 - (hd.buf.length + 1)) 0 }
      { hd with buf := List.replicate 56 0 }
  (transform hd.chain (hd.buf ++ size)).digest

/-! ### Writing -/

theorem flush_short {hd : Sha1Context} (short : hd.buf.length < 64) : flush hd = hd :=
  if_neg (Nat.ne_of_lt short)

/-- The buffer and the piece as one stream. -/
theorem sha1Write_eq {hd : Sha1Context} (short : hd.buf.length < 64) (inbuf : List UInt8) :
    sha1Write hd inbuf = ⟨Absorb.whole 64 takeBlock hd.chain (hd.buf ++ inbuf),
      Absorb.rest 64 (hd.buf ++ inbuf)⟩ := by
  obtain ⟨chain, buf⟩ := hd
  have left (bytes : List UInt8) : (Absorb.rest 64 bytes).length ≤ 64 := by
    rw [Absorb.rest_length]
    omega
  unfold sha1Write
  rw [flush_short short]
  dsimp only at short ⊢
  by_cases empty : buf = []
  · subst empty
    simp [List.take_of_length_le (left inbuf)]
  · simp only [if_neg empty]
    have some : 64 - buf.length ≠ 0 := by omega
    by_cases fills : 64 - buf.length ≤ inbuf.length
    · have block : (buf ++ inbuf.take (64 - buf.length)).length = 64 := by
        rw [List.length_append, List.length_take_of_le fills]
        omega
      have joined : buf ++ inbuf = buf ++ inbuf.take (64 - buf.length) ++
          inbuf.drop (64 - buf.length) := by
        rw [List.append_assoc, List.take_append_drop]
      rw [joined, Absorb.whole_append (n := 1) block (by decide),
        Absorb.whole_block block (by decide), Absorb.rest_append (n := 1) block (by decide), flush,
        if_pos block]
      split
      · rename_i last
        rw [last.2]
        rfl
      · simp [List.take_of_length_le (left _)]
    · rw [List.take_of_length_le (by omega), List.drop_of_length_le (by omega),
        if_pos ⟨some, rfl⟩]
      have waits : (buf ++ inbuf).length < 64 := by
        rw [List.length_append]
        omega
      rw [flush_short waits, Absorb.whole_short waits, Absorb.rest_short waits]

/-- After any pieces the context holds their stream. -/
theorem foldl_write (pieces : List (List UInt8)) {hd : Sha1Context} {stream : List UInt8}
    (held : Absorb.Holds 64 takeBlock sha1Init.chain hd.chain hd.buf stream) :
    Absorb.Holds 64 takeBlock sha1Init.chain (pieces.foldl sha1Write hd).chain
      (pieces.foldl sha1Write hd).buf (stream ++ pieces.flatten) := by
  induction pieces generalizing hd stream with
  | nil => simpa using held
  | cons piece pieces ih =>
    have short : hd.buf.length < 64 := by
      rw [held.2, Absorb.rest_length]
      exact Nat.mod_lt _ (by decide)
    rw [List.foldl_cons, List.flatten_cons, ← List.append_assoc, sha1Write_eq short]
    exact ih (held.append (by decide) piece)

/-! ### Padding -/

/-- The length in bits, the highest byte first. -/
def lengthBytes (n : Nat) : List UInt8 :=
  (List.range 8).map fun i => UInt8.ofNat (8 * n / 2 ^ (56 - 8 * i))

def padding (n : Nat) : List UInt8 :=
  0x80 :: (List.replicate ((119 - n % 64) % 64) 0 ++ lengthBytes n)

theorem whole_nblocks (chain : Chain) (bytes : List UInt8) :
    (Absorb.whole 64 takeBlock chain bytes).nblocks =
      chain.nblocks + UInt32.ofNat (bytes.length / 64) := by
  rw [Absorb.whole]
  induction bytes.length / 64 with
  | zero => exact (UInt32.add_zero _).symm
  | succ n ih =>
    rw [List.range_succ, List.foldl_append, List.foldl_cons, List.foldl_nil, takeBlock, ih,
      UInt32.add_assoc, ← UInt32.ofNat_one, ← UInt32.ofNat_add]

/-- The bytes of a word that is the low or the high half of a count of bits. -/
theorem bytesOf_half {w : UInt32} {n k : Nat} (half : w.toNat = n / 2 ^ k % 2 ^ 32) :
    bytesOf w = [UInt8.ofNat (n / 2 ^ (k + 24)), UInt8.ofNat (n / 2 ^ (k + 16)),
      UInt8.ofNat (n / 2 ^ (k + 8)), UInt8.ofNat (n / 2 ^ k)] := by
  have byte (s : UInt32) (m : Nat) (amount : s.toNat = m) (inside : m ≤ 24) :
      (w >>> s).toUInt8 = UInt8.ofNat (n / 2 ^ (k + m)) := by
    have cut : 2 ^ 32 = 2 ^ m * 2 ^ (32 - m) := by
      rw [← Nat.pow_add, Nat.add_sub_cancel' (by omega)]
    rw [← UInt8.toNat_inj, UInt32.toNat_toUInt8, UInt32.toNat_shiftRight, amount, half,
      Nat.mod_eq_of_lt (show m < 32 by omega), Nat.shiftRight_eq_div_pow, UInt8.toNat_ofNat',
      Nat.pow_add, ← Nat.div_div_eq_div_mul, cut, Nat.mod_mul_right_div_self,
      Nat.mod_mod_of_dvd _ (Nat.pow_dvd_pow 2 (by omega))]
  have last := byte 0 0 rfl (by decide)
  rw [UInt32.shiftRight_zero, Nat.add_zero] at last
  rw [bytesOf, byte 24 24 rfl (by decide), byte 16 16 rfl (by decide), byte 8 8 rfl (by decide),
    last]

/-- The count of bits fits, and no carry is lost. -/
theorem bitCount_eq {q c : Nat} (blocks : q < 2 ^ 32) (short : c < 64) :
    bitCount (UInt32.ofNat q) (UInt32.ofNat c) = lengthBytes (64 * q + c) := by
  have lsb : (UInt32.ofNat q <<< 6).toNat = 64 * q % 2 ^ 32 := by
    simp [UInt32.toNat_shiftLeft, Nat.shiftLeft_eq]
    omega
  have msb : (UInt32.ofNat q >>> 26).toNat = q / 2 ^ 26 := by
    simp [UInt32.toNat_shiftRight, Nat.shiftRight_eq_div_pow]
    omega
  have sum : (UInt32.ofNat q <<< 6 + UInt32.ofNat c).toNat = 64 * q % 2 ^ 32 + c := by
    rw [UInt32.toNat_add, lsb, UInt32.toNat_ofNat']
    omega
  have noCarry : ¬ UInt32.ofNat q <<< 6 + UInt32.ofNat c < UInt32.ofNat q <<< 6 := by
    rw [UInt32.lt_iff_toNat_lt, sum, lsb]
    omega
  simp only [bitCount, if_neg noCarry]
  generalize UInt32.ofNat q <<< 6 + UInt32.ofNat c = total at *
  generalize UInt32.ofNat q >>> 26 = high at *
  have low : (total <<< 3).toNat = 8 * (64 * q + c) / 2 ^ 0 % 2 ^ 32 := by
    simp [UInt32.toNat_shiftLeft, Nat.shiftLeft_eq, sum]
    omega
  have top : (high <<< 3 ||| total >>> 29).toNat = 8 * (64 * q + c) / 2 ^ 32 % 2 ^ 32 := by
    have carried : (total >>> 29).toNat = (64 * q % 2 ^ 32 + c) / 2 ^ 29 := by
      simp [UInt32.toNat_shiftRight, Nat.shiftRight_eq_div_pow, sum]
    have shifted : (high <<< 3).toNat = 2 ^ 3 * (q / 2 ^ 26) := by
      simp [UInt32.toNat_shiftLeft, Nat.shiftLeft_eq, msb]
      omega
    rw [UInt32.toNat_or, carried, shifted, ← Nat.two_pow_add_eq_or_of_lt (by omega)]
    omega
  rw [bytesOf_half top, bytesOf_half low]
  simp [lengthBytes, List.range_succ]

theorem lengthBytes_length (n : Nat) : (lengthBytes n).length = 8 := by
  rw [lengthBytes, List.length_map, List.length_range]

/-! ### Digests -/

/-- The digest of bytes that are written at once. -/
def sha1 (bytes : List UInt8) : List UInt8 := sha1Final (sha1Write sha1Init bytes)

theorem digest_length (chain : Chain) : chain.digest.length = 20 := rfl

theorem sha1_length (bytes : List UInt8) : (sha1 bytes).length = 20 := digest_length _

/-- The digest of a message: its blocks, padded. -/
def digestOf (message : List UInt8) : List UInt8 :=
  (Absorb.whole 64 takeBlock sha1Init.chain (message ++ padding message.length)).digest

theorem digest_takeBlock (chain : Chain) (block : List UInt8) :
    (takeBlock chain block).digest = (transform chain block).digest := rfl

theorem sha1Final_of_held {hd : Sha1Context} {message : List UInt8}
    (held : Absorb.Holds 64 takeBlock sha1Init.chain hd.chain hd.buf message)
    (fits : message.length < 2 ^ 38) : sha1Final hd = digestOf message := by
  obtain ⟨chain, buf⟩ := hd
  dsimp only at held
  have count : buf.length = message.length % 64 := by
    rw [held.2, Absorb.rest_length]
  have short : buf.length < 64 := by omega
  have blocks : chain.nblocks = UInt32.ofNat (message.length / 64) := by
    rw [held.1, whole_nblocks]
    exact UInt32.zero_add _
  have size : bitCount chain.nblocks (UInt32.ofNat buf.length) = lengthBytes message.length := by
    rw [blocks, bitCount_eq (by omega) short, count, Nat.div_add_mod]
  have padded := (held.append (by decide) (padding message.length)).1
  have zeros : (119 - message.length % 64) % 64 =
      if buf.length < 56 then 55 - buf.length else 119 - buf.length := by
    rw [count]
    split <;> omega
  rw [digestOf, ← padded, sha1Final, flush_short short]
  simp only [size, padding, zeros]
  by_cases room : buf.length < 56
  · have one : (buf ++ 0x80 :: (List.replicate (55 - buf.length) 0 ++
        lengthBytes message.length)).length = 64 := by
      simp only [List.length_append, List.length_cons, List.length_replicate, lengthBytes_length]
      omega
    rw [if_pos room, if_pos room, Absorb.whole_block one (by decide), digest_takeBlock,
      show 56 - (buf.length + 1) = 55 - buf.length by omega, List.append_assoc, List.cons_append]
  · have first : (buf ++ 0x80 :: List.replicate (63 - buf.length) 0).length = 64 := by
      simp only [List.length_append, List.length_cons, List.length_replicate]
      omega
    have second : (List.replicate 56 (0 : UInt8) ++ lengthBytes message.length).length = 64 := by
      rw [List.length_append, List.length_replicate, lengthBytes_length]
    have joined : buf ++ 0x80 :: (List.replicate (119 - buf.length) 0 ++
        lengthBytes message.length) = (buf ++ 0x80 :: List.replicate (63 - buf.length) 0) ++
          (List.replicate 56 (0 : UInt8) ++ lengthBytes message.length) := by
      rw [show 119 - buf.length = 63 - buf.length + 56 by omega, List.replicate_add]
      simp only [List.append_assoc, List.cons_append]
    rw [if_neg room, if_neg room, joined, Absorb.whole_append (n := 1) first (by decide),
      Absorb.whole_block first (by decide), Absorb.whole_block second (by decide),
      digest_takeBlock, show 64 - (buf.length + 1) = 63 - buf.length by omega, flush, if_pos first]

example : sha1Final (sha1Write sha1Init [0x61, 0x62, 0x63]) =
    [0xa9, 0x99, 0x3e, 0x36, 0x47, 0x06, 0x81, 0x6a, 0xba, 0x3e, 0x25, 0x71, 0x78, 0x50, 0xc2, 0x6c,
      0x9c, 0xd0, 0xd8, 0x9d] := by
  decide +kernel

end Sha
