import TBoxMpu.Uds.ReadDtc
import TBoxMpu.Uds.Proxy
import TBoxMpu.Lib.Digits

/-!
# Values of data identifiers

`uds_diag.c`, `uds_read_by_id.c` and `uds_write_by_id.c`: the value of an identifier in a
response and in a request. The table is a parameter, with the functions that its entries name;
these hand numbers over as they lie in memory, the lowest byte first.
-/

namespace Uds

open Digits

inductive DiagDataType
  | uint | ushort | uchar | string | double | time | invalid
  deriving DecidableEq

/-- An entry of `diag_did_table`, over the states `σ` that its functions work on. -/
structure DidAttr (σ : Type) where
  id : UInt16
  type : DiagDataType
  len : Nat
  /-- What `get` returns, and the bytes that it writes, for a room. -/
  get : σ → Nat → Int × List UInt8
  /-- `none` stands for `NULL`. -/
  set : Option (List UInt8 → σ → Int × σ)

def udsInvalidPara : Int := 0x0C000001

/-! ### Numbers in memory -/

/-- The number `v` in `len` bytes of memory. -/
def hostBytes (len v : Nat) : List UInt8 := ((split 8 len len v).map Nat.toUInt8).reverse

/-- The number `v` in `len` bytes, the highest first. -/
def bigEndian (len v : Nat) : List UInt8 := (split 8 len len v).map Nat.toUInt8

def ofBigEndian (bytes : List UInt8) : Nat := join 8 bytes.length (bytes.map UInt8.toNat)

/-- The two blocks that both functions have for numbers. The bytes go down where they were meant
to go up, and nothing is left of those before the last. -/
def shuffle (type : DiagDataType) (value : List UInt8) : List UInt8 :=
  let at_ (i : Nat) : UInt32 := (value.getD i 0).toUInt32
  match type with
  | .ushort =>
    let temp := ((at_ 0 >>> 8) + at_ 1).toUInt16
    hostBytes 2 temp.toNat ++ value.drop 2
  | .uint =>
    let temp := (at_ 0 >>> 24) + (at_ 1 >>> 16) + (at_ 2 >>> 8) + at_ 3
    hostBytes 4 temp.toNat ++ value.drop 4
  | _ => value

/-! ### The services -/

variable {σ : Type}

/-- `value` is the buffer, with `*len` bytes; the result is what is in it and `*len`, or what the
function returns. -/
def udsDiagGetDidValue (table : List (DidAttr σ)) (did : UInt16) (value : List UInt8) (s : σ) :
    Except Int (List UInt8 × Nat) :=
  match table.find? (·.id = did) with
  | none => .error udsInvalidPara
  | some attr =>
    if value.length < attr.len then .error udsInvalidPara
    else
      let got := attr.get s value.length
      if got.1 ≠ 0 then .error got.1
      else .ok (shuffle attr.type (got.2 ++ value.drop got.2.length), attr.len)

/-- What the function returns; `none` is a call through `NULL`. -/
def udsDiagSetDidValue (table : List (DidAttr σ)) (did : UInt16) (value : List UInt8) (s : σ) :
    Option (UInt8 × σ) :=
  match table.find? (·.id = did) with
  | none => some (nrcRequestOutOfRange, s)
  | some attr =>
    if value.length ≠ attr.len then some (nrcIncorrectMessageLength, s)
    else
      attr.set.map fun set =>
        let done := set (shuffle attr.type value) s
        (if done.1 ≠ 0 then nrcIncorrectMessageLength else 0, done.2)

inductive DidReply
  | positive (data : List UInt8)
  | negative (sid nrc : UInt8)
  deriving DecidableEq

/-- `(p_u8PDU_Data[1] << 8) + p_u8PDU_Data[2]` -/
def didOf (pdu : List UInt8) : UInt16 := (pdu.getD 1 0).toUInt16 <<< 8 + (pdu.getD 2 0).toUInt16

/-- `UDS_SRV_ReadDataByID`; `old` is what the static `Ar_u8RePDU_DATA` has from its fourth byte
on. Only requests of one identifier pass the check of the length. -/
def readDataById (table : List (DidAttr σ)) (old pdu : List UInt8) (s : σ) : DidReply :=
  let sid := pdu.getD 0 0
  if pdu.length ≠ 3 ∨ pdu.length % 2 = 0 then .negative sid nrcIncorrectMessageLength
  else
    let did := didOf pdu
    match udsDiagGetDidValue table did old s with
    | .error _ => .negative sid nrcRequestOutOfRange
    | .ok (data, len) =>
      .positive ([sid + 0x40, (did >>> 8).toUInt8, did.toUInt8] ++ data.take len)

/-- `UDS_SRV_WriteDataByID`: the responses and the state. -/
def writeDataById (table : List (DidAttr σ)) (pdu : List UInt8) (s : σ) :
    Option (List DidReply × σ) :=
  let sid := pdu.getD 0 0
  if pdu.length < 3 then some ([.negative sid nrcIncorrectMessageLength], s)
  else
    (udsDiagSetDidValue table (didOf pdu) (pdu.drop 3) s).map fun done =>
      let reply :=
        if done.1 ≠ 0 then .negative sid done.1
        else .positive [sid + 0x40, pdu.getD 1 0, pdu.getD 2 0]
      ([.negative sid nrcResponsePending, reply], done.2)

/-! ### The shuffle -/

/-- An identifier of two or four bytes. -/
def DidAttr.IsNumber (attr : DidAttr σ) : Prop :=
  attr.type = .ushort ∧ attr.len = 2 ∨ attr.type = .uint ∧ attr.len = 4

@[simp] theorem length_hostBytes (len v : Nat) : (hostBytes len v).length = len := by
  simp [hostBytes]

@[simp] theorem length_bigEndian (len v : Nat) : (bigEndian len v).length = len := by
  simp [bigEndian]

theorem ofBigEndian_bigEndian {len v : Nat} (small : v < 2 ^ (8 * len)) :
    ofBigEndian (bigEndian len v) = v := by
  have digits : (split 8 len len v).map (UInt8.toNat ∘ Nat.toUInt8) = split 8 len len v := by
    rw [List.map_congr_left (g := id), List.map_id]
    intro d mem
    exact UInt8.toNat_ofNat_of_lt' (split_lt mem)
  rw [ofBigEndian, length_bigEndian, bigEndian, List.map_map, digits]
  exact join_split small (Nat.le_refl len) (by rw [Nat.sub_self, Nat.mul_zero]; exact Nat.mod_one v)

theorem toUInt8_mod (v : Nat) : (v % 2 ^ 8).toUInt8 = v.toUInt8 := by
  apply UInt8.toNat.inj
  rw [Nat.toUInt8_eq, UInt8.toNat_ofNat', Nat.toUInt8_eq, UInt8.toNat_ofNat', Nat.mod_mod]

/-- The lowest byte comes last. -/
theorem bigEndian_last (n v : Nat) : (bigEndian (n + 1) v).getLast? = some v.toUInt8 := by
  rw [bigEndian, split_eq_map (Nat.le_refl _), List.range_succ, List.map_append, List.map_append,
    List.map_singleton, List.map_singleton, List.getLast?_concat, toUInt8_mod]
  simp

/-- In memory it is the highest one. -/
theorem hostBytes_last (n v : Nat) :
    (hostBytes (n + 1) v).getLast? = some (v / 2 ^ (8 * n)).toUInt8 := by
  rw [hostBytes, List.getLast?_reverse, split, List.map_cons, toUInt8_mod]
  rfl

theorem hostBytes_zero (len : Nat) : hostBytes len 0 = bigEndian len 0 := by
  have zeros : split 8 len len 0 = List.replicate len 0 := by
    rw [split_eq_map (Nat.le_refl len), List.eq_replicate_iff]
    simp
  rw [hostBytes, bigEndian, zeros, List.map_replicate, List.reverse_replicate]

theorem shiftRight_byte (b : UInt8) {k : UInt32} (high : 8 ≤ k.toNat) (word : k.toNat < 32) :
    b.toUInt32 >>> k = 0 := by
  apply UInt32.toNat.inj
  rw [UInt32.toNat_shiftRight, Nat.mod_eq_of_lt word, Nat.shiftRight_eq_div_pow]
  exact Nat.div_eq_of_lt (Nat.lt_of_lt_of_le b.toNat_lt (Nat.pow_le_pow_right (by decide) high))

/-- Only the last byte of a number is left, in the first place. -/
theorem shuffle_number {attr : DidAttr σ} (number : attr.IsNumber) {bytes : List UInt8}
    (length : bytes.length = attr.len) (rest : List UInt8) :
    shuffle attr.type (bytes ++ rest) =
      hostBytes attr.len (bytes.getLast?.getD 0).toNat ++ rest := by
  rcases number with ⟨type, len⟩ | ⟨type, len⟩
  · rw [len] at length ⊢
    obtain ⟨a, b, rfl⟩ := List.length_eq_two.mp length
    simp [shuffle, type, shiftRight_byte]
  · rw [len] at length ⊢
    obtain ⟨a, b, c, d, rfl⟩ : ∃ a b c d, bytes = [a, b, c, d] := by
      match bytes, length with
      | [a, b, c, d], _ => exact ⟨a, b, c, d, rfl⟩
    simp [shuffle, type, shiftRight_byte]

/-! ### Reading and writing a number -/

/-- The functions of an entry keep a number: `get` reads it, `set` writes it and no other
identifier's. -/
structure NumberCell (table : List (DidAttr σ)) (attr : DidAttr σ) (value : σ → Nat) : Prop where
  small : ∀ s, value s < 2 ^ (8 * attr.len)
  get : ∀ s room, attr.len ≤ room → attr.get s room = (0, hostBytes attr.len (value s))
  set : ∀ f ∈ attr.set, ∀ s v, v < 2 ^ (8 * attr.len) →
    (f (hostBytes attr.len v) s).1 = 0 ∧ value (f (hostBytes attr.len v) s).2 = v
  frame : ∀ f ∈ attr.set, ∀ s bytes, ∀ other ∈ table, other.id ≠ attr.id →
    ∀ room, other.get (f bytes s).2 room = other.get s room

/-- The number is read with its highest byte first, and the same bytes written put it back and
leave the other identifiers as they were. -/
def Inverts (table : List (DidAttr σ)) (attr : DidAttr σ) (value : σ → Nat) (old : List UInt8)
    (hi lo : UInt8) (s : σ) : Prop :=
  ∃ bytes, readDataById table old [0x22, hi, lo] s = .positive ([0x62, hi, lo] ++ bytes) ∧
    bytes = bigEndian attr.len (value s) ∧ ofBigEndian bytes = value s ∧
    ∃ s', writeDataById table ([0x2E, hi, lo] ++ bytes) s =
        some ([.negative 0x2E nrcResponsePending, .positive [0x6E, hi, lo]], s') ∧
      value s' = value s ∧
      ∀ other ∈ table, other.id ≠ attr.id → ∀ room, other.get s' room = other.get s room

variable {table : List (DidAttr σ)} {attr : DidAttr σ} {value : σ → Nat} {old : List UInt8}
  {hi lo : UInt8}

theorem didOf_bytes (sid hi lo : UInt8) (rest : List UInt8) :
    (didOf (sid :: hi :: lo :: rest) >>> 8).toUInt8 = hi ∧
      (didOf (sid :: hi :: lo :: rest)).toUInt8 = lo := by
  have high := hi.toNat_lt
  have low := lo.toNat_lt
  have number : (didOf (sid :: hi :: lo :: rest)).toNat = hi.toNat * 256 + lo.toNat := by
    show (hi.toUInt16 <<< 8 + lo.toUInt16).toNat = _
    rw [UInt16.toNat_add, UInt16.toNat_shiftLeft, UInt8.toNat_toUInt16, UInt8.toNat_toUInt16,
      Nat.shiftLeft_eq, show (8 : UInt16).toNat % 16 = 8 from rfl]
    omega
  constructor
  · apply UInt8.toNat.inj
    rw [UInt16.toNat_toUInt8, UInt16.toNat_shiftRight, number, Nat.shiftRight_eq_div_pow,
      show (8 : UInt16).toNat % 16 = 8 from rfl]
    omega
  · apply UInt8.toNat.inj
    rw [UInt16.toNat_toUInt8, number]
    omega

theorem hostBytes_last_getD {attr : DidAttr σ} (number : attr.IsNumber) (v : Nat) :
    ((hostBytes attr.len v).getLast?.getD 0).toNat = v / 2 ^ (8 * (attr.len - 1)) % 2 ^ 8 := by
  have some : attr.len = attr.len - 1 + 1 := by
    rcases number with ⟨-, len⟩ | ⟨-, len⟩ <;> omega
  rw [some, hostBytes_last, Option.getD_some, Nat.toUInt8_eq, UInt8.toNat_ofNat',
    Nat.add_sub_cancel]

/-- The bytes read are the highest byte of the number, and zeros. -/
theorem readDataById_number (number : attr.IsNumber) (cell : NumberCell table attr value)
    (first : table.find? (·.id = didOf [0x22, hi, lo]) = some attr) (room : attr.len ≤ old.length)
    (s : σ) : readDataById table old [0x22, hi, lo] s = .positive ([0x62, hi, lo] ++
      hostBytes attr.len (value s / 2 ^ (8 * (attr.len - 1)) % 2 ^ 8)) := by
  have got : udsDiagGetDidValue table (didOf [0x22, hi, lo]) old s =
      .ok (hostBytes attr.len (value s / 2 ^ (8 * (attr.len - 1)) % 2 ^ 8) ++
        old.drop attr.len, attr.len) := by
    rw [udsDiagGetDidValue, first]
    simp only
    rw [if_neg (Nat.not_lt.mpr room), cell.get s _ room, if_neg (by simp),
      shuffle_number number (length_hostBytes _ _), hostBytes_last_getD number, length_hostBytes]
  rw [readDataById]
  simp only
  rw [if_neg (by simp), got]
  simp only
  rw [List.take_left' (length_hostBytes _ _), (didOf_bytes 0x22 hi lo []).1,
    (didOf_bytes 0x22 hi lo []).2]
  rfl

/-- The number written is the lowest byte. -/
theorem writeDataById_number (number : attr.IsNumber) (cell : NumberCell table attr value)
    (first : table.find? (·.id = didOf [0x22, hi, lo]) = some attr) {bytes : List UInt8}
    (length : bytes.length = attr.len) {f : List UInt8 → σ → Int × σ} (settable : f ∈ attr.set)
    (s : σ) : ∃ s', writeDataById table ([0x2E, hi, lo] ++ bytes) s =
        some ([.negative 0x2E nrcResponsePending, .positive [0x6E, hi, lo]], s') ∧
      value s' = (bytes.getLast?.getD 0).toNat ∧
      ∀ other ∈ table, other.id ≠ attr.id → ∀ room, other.get s' room = other.get s room := by
  have small : (bytes.getLast?.getD 0).toNat < 2 ^ (8 * attr.len) := by
    refine Nat.lt_of_lt_of_le (UInt8.toNat_lt _) (Nat.pow_le_pow_right (by decide) ?_)
    rcases number with ⟨-, len⟩ | ⟨-, len⟩ <;> omega
  obtain ⟨done, stored⟩ := cell.set f settable s _ small
  have shuffled := shuffle_number number length []
  rw [List.append_nil, List.append_nil] at shuffled
  refine ⟨(f (shuffle attr.type bytes) s).2, ?_, ?_, ?_⟩
  · have same : didOf ([0x2E, hi, lo] ++ bytes) = didOf [0x22, hi, lo] := rfl
    rw [Option.mem_def] at settable
    have wrote : udsDiagSetDidValue table (didOf [0x22, hi, lo]) bytes s =
        some (0, (f (shuffle attr.type bytes) s).2) := by
      rw [udsDiagSetDidValue, first]
      simp only
      rw [if_neg (not_not.mpr length), settable, Option.map_some, shuffled, done]
      rfl
    rw [writeDataById]
    simp only
    rw [if_neg (by simp), same, show ([0x2E, hi, lo] ++ bytes).drop 3 = bytes from rfl, wrote]
    rfl
  · rw [shuffled, stored]
  · exact cell.frame f settable s _

theorem writeDataById_null (first : table.find? (·.id = didOf [0x22, hi, lo]) = some attr)
    {bytes : List UInt8} (length : bytes.length = attr.len) (null : attr.set = none) (s : σ) :
    writeDataById table ([0x2E, hi, lo] ++ bytes) s = none := by
  have same : didOf ([0x2E, hi, lo] ++ bytes) = didOf [0x22, hi, lo] := rfl
  have fault : udsDiagSetDidValue table (didOf [0x22, hi, lo]) bytes s = none := by
    rw [udsDiagSetDidValue, first]
    simp only
    rw [if_neg (not_not.mpr length), null]
    rfl
  rw [writeDataById]
  simp only
  rw [if_neg (by simp), same, show ([0x2E, hi, lo] ++ bytes).drop 3 = bytes from rfl, fault]
  rfl

/-- For any table and any number of two or four bytes in it. -/
theorem inverts_iff (number : attr.IsNumber) (cell : NumberCell table attr value)
    (first : table.find? (·.id = didOf [0x22, hi, lo]) = some attr) (room : attr.len ≤ old.length)
    (s : σ) : Inverts table attr value old hi lo s ↔ value s = 0 ∧ attr.set.isSome := by
  obtain ⟨n, len⟩ : ∃ n, attr.len = n + 1 + 1 := by
    rcases number with ⟨-, len⟩ | ⟨-, len⟩
    · exact ⟨0, len⟩
    · exact ⟨2, len⟩
  have read := readDataById_number number cell first room s
  constructor
  · rintro ⟨bytes, response, bytes_eq, -, s', written, stored, -⟩
    have length : bytes.length = attr.len := bytes_eq ▸ length_bigEndian _ _
    cases set : attr.set with
    | none =>
      rw [writeDataById_null first length set] at written
      cases written
    | some f =>
      refine ⟨?_, rfl⟩
      -- what is stored again is the lowest byte, so nothing is above it
      obtain ⟨t, wrote, lowest, -⟩ := writeDataById_number number cell first length set s
      rw [written] at wrote
      cases wrote
      have low : value s < 2 ^ 8 := by
        rw [← stored, lowest]
        exact UInt8.toNat_lt _
      have top : value s / 2 ^ (8 * (attr.len - 1)) = 0 :=
        Nat.div_eq_of_lt (Nat.lt_of_lt_of_le low (Nat.pow_le_pow_right (by decide) (by omega)))
      rw [read, top, Nat.zero_mod, hostBytes_zero] at response
      have zeros : bigEndian attr.len 0 = bytes :=
        List.append_cancel_left (DidReply.positive.inj response)
      rw [← ofBigEndian_bigEndian (cell.small s), ← bytes_eq, ← zeros]
      exact ofBigEndian_bigEndian (Nat.two_pow_pos _)
  · rintro ⟨zero, settable⟩
    obtain ⟨f, set⟩ := Option.isSome_iff_exists.mp settable
    obtain ⟨s', written, stored, others⟩ := writeDataById_number number cell first
      (length_bigEndian attr.len (value s)) set s
    refine ⟨bigEndian attr.len (value s), ?_, rfl, ofBigEndian_bigEndian (cell.small s), s',
      written, ?_, others⟩
    · rw [read, zero, Nat.zero_div, Nat.zero_mod, hostBytes_zero]
    · rw [stored, zero, len, bigEndian_last]
      rfl

/-! ### A table of one number -/

/-- An identifier of the header `uds_did_def.h`, with its variable. -/
def distance : DidAttr UInt16 where
  id := 0xA003
  type := .ushort
  len := 2
  get s _ := (0, hostBytes 2 s.toNat)
  set := some fun bytes _ => (0, (ofBigEndian bytes.reverse).toUInt16)

theorem distance_cell : NumberCell [distance] distance UInt16.toNat where
  small s := s.toNat_lt
  get _ _ _ := rfl
  set := by
    intro f mem s v small
    cases mem
    refine ⟨rfl, ?_⟩
    show (ofBigEndian (hostBytes 2 v).reverse).toUInt16.toNat = v
    have back : (hostBytes 2 v).reverse = bigEndian 2 v := List.reverse_reverse _
    have two : v < 2 ^ (8 * 2) := small
    rw [back, ofBigEndian_bigEndian two]
    exact UInt16.toNat_ofNat_of_lt' small
  frame f _ s bytes other mem apart := by
    rw [List.mem_singleton] at mem
    exact absurd (congrArg DidAttr.id mem) apart

theorem distance_room : distance.len ≤ (List.replicate 1997 (0 : UInt8)).length := by
  rw [List.length_replicate]
  decide

theorem inverts_iff_distance : Inverts [distance] distance UInt16.toNat (List.replicate 1997 0)
    0xA0 0x03 0x1234 ↔ (0x1234 : UInt16).toNat = 0 ∧ distance.set.isSome :=
  inverts_iff (.inl ⟨rfl, rfl⟩) distance_cell rfl distance_room 0x1234

/-- The value 0x1234 is read as 0x1200. -/
theorem distance_not_inverted : readDataById [distance] (List.replicate 1997 0) [0x22, 0xA0, 0x03]
      0x1234 = .positive [0x62, 0xA0, 0x03, 0x12, 0x00] ∧
    ¬Inverts [distance] distance UInt16.toNat (List.replicate 1997 0) 0xA0 0x03 0x1234 := by
  have read : readDataById [distance] (List.replicate 1997 0) [0x22, 0xA0, 0x03] 0x1234 =
      .positive [0x62, 0xA0, 0x03, 0x12, 0x00] :=
    readDataById_number (.inl ⟨rfl, rfl⟩) distance_cell rfl distance_room 0x1234
  refine ⟨read, ?_⟩
  rintro ⟨bytes, response, rfl, -⟩
  rw [read] at response
  exact absurd response (by decide)

end Uds
