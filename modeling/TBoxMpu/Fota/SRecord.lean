import TBoxMpu.Fota.HexText
import TBoxMpu.Fota.Sections
import TBoxMpu.Lib.Fallible

/-!
# S-record files

A file of S-records is loaded as it should be unless a record overruns the buffer:
`s19Meaning_iff`. Records that fit are loaded and only those are (`ok_of_fits`,
`loaded_of_ok`); the loop leaves the buffer at a record whose byte count is too small by a
whole number of words (`fault_iff`).
-/

namespace Fota

open Segments Fallible

variable {buff : UInt32} {wsize : Nat} {junk : Nat → UInt8} {img : FotaImg}

/-! ### Records -/

/-- An S1, S2 or S3 record: the length of its address, its bytes from the byte count on,
and what follows them in the line. -/
structure SRecord where
  addrLen : Nat
  bytes : List UInt8
  rest : List UInt8
  width : addrLen ≤ 4
  deriving DecidableEq

theorem addrLen_le {digit : UInt8} (digits : 0x31 ≤ digit ∧ digit ≤ 0x33) :
    digit.toNat - 0x2f ≤ 4 := by
  have le : digit.toNat ≤ 0x33 := UInt8.le_iff_toNat_le.mp digits.2
  omega

def sRecord? (lineBuf : List UInt8) : Option SRecord :=
  match cutspace lineBuf with
  | 0x53 :: digit :: hex =>
    if digits : 0x31 ≤ digit ∧ digit ≤ 0x33 then
      some ⟨digit.toNat - 0x2f, (hexBytes hex).1, (hexBytes hex).2, addrLen_le digits⟩
    else none
  | _ => none

namespace SRecord

variable {r : SRecord}

def count (r : SRecord) : Nat := (r.bytes.headD 0).toNat

/-- All the bytes it counts are there, and the checksum is right. -/
structure Complete (r : SRecord) : Prop where
  ends : Ends r.rest
  length : r.bytes.length = r.count + 1
  checksum : r.bytes.getLastD 0 = ~~~ r.bytes.dropLast.sum

/-- The byte count does not even cover address and checksum. -/
def TooSmall (r : SRecord) : Prop := r.count < r.addrLen + 1

/-- The address bytes, taken from `junk` where the record has none. -/
def address (junk : Nat → UInt8) (r : SRecord) : List UInt8 :=
  (List.range r.addrLen).map fun i => r.bytes.getD (i + 1) (junk (i + 1))

def base (r : SRecord) : UInt32 := bigEndian ((r.bytes.drop 1).take r.addrLen)

def data (r : SRecord) : List UInt8 := (r.bytes.drop (r.addrLen + 1)).dropLast

instance (r : SRecord) : Decidable r.Complete :=
  decidable_of_iff (Ends r.rest ∧ r.bytes.length = r.count + 1 ∧
    r.bytes.getLastD 0 = ~~~ r.bytes.dropLast.sum)
    ⟨fun h => ⟨h.1, h.2.1, h.2.2⟩, fun h => ⟨h.ends, h.length, h.checksum⟩⟩

instance (r : SRecord) : Decidable r.TooSmall := inferInstanceAs (Decidable (_ < _))

theorem length_data (complete : r.Complete) : r.data.length = r.count - (r.addrLen + 1) := by
  rw [data, List.length_dropLast, List.length_drop, complete.length]
  omega

theorem base_eq (complete : r.Complete) (enough : ¬ r.TooSmall) (junk : Nat → UInt8) :
    bigEndian (r.address junk) = r.base := by
  have length := complete.length
  have long : r.addrLen + 1 < r.bytes.length := by
    unfold TooSmall at enough
    omega
  have same : r.address junk = (r.bytes.drop 1).take r.addrLen := by
    apply List.ext_getElem
    · simp only [address, List.length_map, List.length_range, List.length_take, List.length_drop]
      omega
    · intro i inside _
      have small : i < r.addrLen := by simpa [address] using inside
      simp only [address, List.getElem_map, List.getElem_range, List.getElem_take,
        List.getElem_drop]
      rw [List.getD_eq_getElem _ _ (by omega)]
      congr 1
      omega
  rw [same, base]

/-- A byte count of zero would need the checksum FF, but the count is the last byte. -/
theorem count_pos (complete : r.Complete) : 0 < r.count := by
  refine Nat.pos_of_ne_zero fun zero => ?_
  have length := complete.length
  have checksum := complete.checksum
  obtain ⟨byte, single⟩ := List.length_eq_one_iff.mp (length.trans (by rw [zero]))
  rw [count, single] at zero
  rw [single] at checksum
  have value : byte = 0 := UInt8.toNat_inj.mp zero
  subst value
  exact absurd checksum (by decide)

/-- Where the code looks for them, the address bytes are folded to the base. -/
theorem s19Base_eq (r : SRecord) {type : UInt32} (width : type.toNat + 1 = r.addrLen) :
    s19Base (fun i => r.bytes.getD i (junk i)) type = bigEndian (r.address junk) := by
  rw [s19Base, bigEndian, address, List.foldl_map, width]

end SRecord

/-- The type field tells the S-records 1 to 3. -/
theorem s19_type (digit : UInt8) (type : UInt32)
    (h : type = (0x53 : UInt8).toUInt32 * 0x100 + digit.toUInt32 - 0x5330) :
    ((type < 1 ∨ type > 3) ↔ ¬ (0x31 ≤ digit ∧ digit ≤ 0x33)) ∧
      (0x31 ≤ digit ∧ digit ≤ 0x33 → type.toNat + 1 = digit.toNat - 0x2f) := by
  have small := digit.toNat_lt
  have value : type.toNat = (2 ^ 32 - 0x5330 + (0x5300 + digit.toNat)) % 2 ^ 32 := by
    rw [h, UInt32.toNat_sub, UInt32.toNat_add, UInt8.toNat_toUInt32]
    have product : ((0x53 : UInt8).toUInt32 * 0x100).toNat = 0x5300 := by decide
    have sum : 0x5300 + digit.toNat < 2 ^ 32 := by omega
    rw [product, Nat.mod_eq_of_lt sum]
    rfl
  simp only [UInt32.lt_iff_toNat_lt, UInt8.le_iff_toNat_le, gt_iff_lt, UInt32.reduceToNat,
    UInt8.reduceToNat]
  omega

/-- The mask test rejects what is no whole number of words. -/
theorem mask_words (small : wsize < 32) (dlen : UInt32) :
    dlen &&& ((1 <<< UInt32.ofNat wsize) - 1) ≠ 0 ↔ ¬ 2 ^ wsize ∣ dlen.toNat := by
  have power : 2 ^ wsize < 2 ^ 32 := Nat.pow_lt_pow_right (by decide) small
  have pos : 0 < 2 ^ wsize := Nat.two_pow_pos wsize
  have shift : (1 <<< UInt32.ofNat wsize : UInt32).toNat = 2 ^ wsize := by
    have amount : wsize % 2 ^ 32 % 32 = wsize := by omega
    rw [UInt32.toNat_shiftLeft, UInt32.toNat_ofNat', amount]
    change 1 <<< wsize % 2 ^ 32 = 2 ^ wsize
    rw [Nat.one_shiftLeft, Nat.mod_eq_of_lt power]
  have mask : ((1 <<< UInt32.ofNat wsize : UInt32) - 1).toNat = 2 ^ wsize - 1 := by
    have one : (1 : UInt32).toNat = 1 := rfl
    rw [UInt32.toNat_sub, shift, one]
    omega
  have zero : (0 : UInt32).toNat = 0 := rfl
  rw [Ne, ← UInt32.toNat_inj, UInt32.toNat_and, mask, Nat.and_two_pow_sub_one_eq_mod, zero,
    Nat.dvd_iff_mod_eq_zero]

theorem checksumS19_eq (bin : List UInt8) :
    checksumS19 bin = 0 ↔ bin.getLastD 0 = ~~~ bin.dropLast.sum := by
  rw [checksumS19, ← UInt8.toNat_inj]
  omega

/-! ### One line of an S-record file -/

theorem sRecord?_some {lineBuf : List UInt8} {r : SRecord} (h : sRecord? lineBuf = some r) :
    ∃ digit hex, cutspace lineBuf = 0x53 :: digit :: hex ∧ (0x31 ≤ digit ∧ digit ≤ 0x33) ∧
      r.addrLen = digit.toNat - 0x2f ∧ (r.bytes, r.rest) = hexBytes hex := by
  unfold sRecord? at h
  split at h
  next digit hex line =>
    split at h
    next digits =>
      obtain rfl := Option.some.inj h
      exact ⟨digit, hex, line, digits, rfl, rfl⟩
    · cases h
  · cases h

/-- A line that holds no S-record of type 1 to 3 is passed over. -/
theorem fotaLoadS19Line_none {lineBuf : List UInt8} (h : sRecord? lineBuf = none) :
    fotaLoadS19Line buff wsize junk img lineBuf = .ok img := by
  unfold fotaLoadS19Line
  dsimp only
  split
  · rfl
  next nonempty =>
    apply if_pos
    unfold sRecord? at h
    by_cases first : (cutspace lineBuf).getD 0 0 = 0x53
    · right
      match line : cutspace lineBuf with
      | [] => exact absurd line nonempty
      | [c] =>
        rw [line] at first
        obtain rfl : c = 0x53 := first
        decide
      | c :: digit :: hex =>
        rw [line] at first h
        obtain rfl : c = 0x53 := first
        refine (s19_type _ _ rfl).1.mpr fun digits => ?_
        have digits : 0x31 ≤ digit ∧ digit ≤ 0x33 := digits
        simp only [digits, and_self, dite_true, reduceCtorEq] at h
    · exact .inl first

/-- What is left of the byte count for data, in the code's arithmetic. -/
def SRecord.dlen (r : SRecord) : UInt32 := UInt32.ofNat (r.count + 1) - 2 - UInt32.ofNat r.addrLen

/-- The format check on the result of `hex2bin` as an unsigned number. -/
theorem s19_format (junk : Nat → UInt8) {bytes : List UInt8} (rest : List UInt8)
    (short : bytes.length ≤ 256) {dlen : UInt32}
    (h : dlen = (Int32.ofInt (if Ends rest then (bytes.length : Int) else -1)).toUInt32) :
    ((dlen ≤ 0 ∨ dlen ≠ (bytes.getD 0 (junk 0)).toUInt32 + 1) ↔
      ¬ (Ends rest ∧ bytes.length = (bytes.headD 0).toNat + 1)) ∧
    (Ends rest → dlen = UInt32.ofNat bytes.length) := by
  have zero : (0 : UInt32).toNat = 0 := rfl
  by_cases ends : Ends rest
  · have plain : dlen = UInt32.ofNat bytes.length := by
      rw [h, if_pos ends]
      rfl
    have value : dlen.toNat = bytes.length := by
      rw [plain, UInt32.toNat_ofNat', Nat.mod_eq_of_lt (by omega)]
    refine ⟨?_, fun _ => plain⟩
    cases bytes with
    | nil =>
      have none : dlen ≤ 0 := by rw [UInt32.le_iff_toNat_le, value]; exact Nat.le_refl 0
      simp [none]
    | cons count tail =>
      have small := count.toNat_lt
      have next : (count.toUInt32 + 1).toNat = count.toNat + 1 := by
        have one : (1 : UInt32).toNat = 1 := rfl
        rw [UInt32.toNat_add, UInt8.toNat_toUInt32, one]
        omega
      rw [List.getD_cons_zero, List.headD_cons, UInt32.le_iff_toNat_le, Ne, ← UInt32.toNat_inj,
        value, next, zero]
      simp only [List.length_cons, ends, true_and]
      omega
  · -- minus one is too large for any byte count
    refine ⟨⟨fun _ both => ends both.1, fun _ => .inr fun same => ?_⟩, fun both => absurd both ends⟩
    rw [h, if_neg ends] at same
    have values := congrArg UInt32.toNat same
    have all : (Int32.ofInt (-1)).toUInt32.toNat = 2 ^ 32 - 1 := by decide
    have one : (1 : UInt32).toNat = 1 := rfl
    have small := (bytes.getD 0 (junk 0)).toNat_lt
    rw [all, UInt32.toNat_add, UInt8.toNat_toUInt32, one] at values
    omega

/-- A record must be complete and hold whole words, as far as the wrapped length tells. -/
theorem fotaLoadS19Line_some {lineBuf : List UInt8} {r : SRecord} (h : sRecord? lineBuf = some r)
    (short : lineBuf.length ≤ 514) (small : wsize < 32) :
    fotaLoadS19Line buff wsize junk img lineBuf =
      if ¬ r.Complete ∨ ¬ 2 ^ wsize ∣ r.dlen.toNat then .error .fail
      else fotaStore buff wsize (bigEndian (r.address junk)) r.dlen (r.bytes.drop (r.addrLen + 1))
        img := by
  obtain ⟨digit, hex, line, digits, addrLen, decoded⟩ := sRecord?_some h
  have length : (cutspace lineBuf).length ≤ 514 := (length_cutspace lineBuf).trans short
  have pairs := length_hexBytes hex
  rw [line, List.length_cons, List.length_cons] at length
  have bytes : (hexBytes hex).1 = r.bytes := by rw [← decoded]
  have rest : (hexBytes hex).2 = r.rest := by rw [← decoded]
  have pair : hex2bin hex = (if Ends r.rest then (r.bytes.length : Int) else -1, r.bytes) := by
    rw [hex2bin_eq, bytes, rest]
  obtain ⟨range, width⟩ := s19_type digit _ rfl
  have width := width digits
  rw [← addrLen] at width
  unfold fotaLoadS19Line
  simp only [line, List.getD_cons_zero, List.getD_cons_succ, List.drop_succ_cons, List.drop_zero,
    reduceCtorEq, if_false, pair]
  generalize (0x53 : UInt8).toUInt32 * 0x100 + digit.toUInt32 - 0x5330 = type at range width ⊢
  have counted : r.bytes.length ≤ 256 := by
    rw [← bytes]
    omega
  obtain ⟨format, plain⟩ := s19_format junk r.rest counted rfl
  generalize (Int32.ofInt (if Ends r.rest then (r.bytes.length : Int) else -1)).toUInt32 = dlen
    at format plain ⊢
  rw [if_neg (not_or.mpr ⟨fun wrong => wrong rfl, fun wrong => range.mp wrong digits⟩)]
  -- the checks of the loader are those of a complete record
  by_cases complete : r.Complete
  · have real : dlen = UInt32.ofNat (r.count + 1) := by
      rw [plain complete.ends, complete.length]
    have type_next : type + 1 = UInt32.ofNat r.addrLen := by
      rw [← width, UInt32.ofNat_add, UInt32.ofNat_toNat]
      rfl
    have skip : r.bytes.drop (type.toNat + 2) = r.bytes.drop (r.addrLen + 1) := by
      rw [← width]
    have left : UInt32.ofNat (r.count + 1) - 2 - UInt32.ofNat r.addrLen = r.dlen := rfl
    rw [if_neg fun wrong => format.mp wrong ⟨complete.ends, complete.length⟩,
      if_neg (not_not.mpr ((checksumS19_eq _).mpr complete.checksum)), real, type_next, left, skip,
      r.s19Base_eq width]
    simp only [mask_words small, complete, not_true, false_or]
  · rw [if_pos (Or.inl complete)]
    -- a record that is not: its form, or its checksum
    by_cases form : Ends r.rest ∧ r.bytes.length = (r.bytes.headD 0).toNat + 1
    · rw [if_neg fun wrong => format.mp wrong form]
      apply if_pos
      intro checksum
      exact complete ⟨form.1, form.2, (checksumS19_eq _).mp checksum⟩
    · exact if_pos (format.mpr form)

/-- A record that is too small has a length that wrapped around. -/
theorem SRecord.dlen_wrapped {r : SRecord} (complete : r.Complete) (small : r.TooSmall) :
    0 < r.addrLen + 1 - r.count ∧ r.addrLen + 1 - r.count ≤ 4 ∧
      r.dlen.toNat = 2 ^ 32 - (r.addrLen + 1 - r.count) := by
  have width := r.width
  have pos := SRecord.count_pos complete
  unfold SRecord.TooSmall at small
  have two : (2 : UInt32).toNat = 2 := rfl
  refine ⟨by omega, by omega, ?_⟩
  rw [SRecord.dlen, UInt32.toNat_sub, UInt32.toNat_sub, UInt32.toNat_ofNat', UInt32.toNat_ofNat',
    two]
  omega

theorem SRecord.dlen_data {r : SRecord} (complete : r.Complete) (enough : ¬ r.TooSmall) :
    r.dlen.toNat = r.data.length ∧ r.data.length ≤ 255 := by
  have width := r.width
  have length := SRecord.length_data complete
  have count : r.count ≤ 255 := Nat.le_of_lt_succ (r.bytes.headD 0).toNat_lt
  unfold SRecord.TooSmall at enough
  have two : (2 : UInt32).toNat = 2 := rfl
  constructor
  · rw [SRecord.dlen, UInt32.toNat_sub, UInt32.toNat_sub, UInt32.toNat_ofNat',
      UInt32.toNat_ofNat', two]
    omega
  · omega

/-- The copy takes the data and leaves the checksum. -/
theorem SRecord.take_data {r : SRecord} (complete : r.Complete) (enough : ¬ r.TooSmall) :
    (r.bytes.drop (r.addrLen + 1)).take r.dlen.toNat = r.data := by
  have size := (SRecord.dlen_data complete enough).1
  rw [size, SRecord.length_data complete, SRecord.data, List.dropLast_eq_take, List.length_drop,
    complete.length]
  congr 1
  omega

/-! ### S-record files -/

def SRecord.segment (r : SRecord) : Segment UInt32 UInt8 := ⟨r.base, r.data⟩

/-- The bytes of the record with their addresses. -/
def SRecord.cells (wsize : Nat) (r : SRecord) : List (Nat × UInt8) :=
  r.segment.cells (wordAddr wsize)

/-- The segments that records make up. -/
def s19Layout (wsize : Nat) (records : List SRecord) : List (Segment UInt32 UInt8) :=
  records.foldl (fun segments r => place (wordNext wsize) r.segment segments)
    FotaImg.empty.segments

/-- Records that are complete and fit in an image. -/
structure S19Fits (wsize : Nat) (records : List SRecord) : Prop where
  good : ∀ r ∈ records, r.Complete ∧ ¬ r.TooSmall ∧ 2 ^ wsize ∣ r.data.length
  size : (records.flatMap SRecord.data).length ≤ imageSize
  sects : (s19Layout wsize records).length ≤ imageMaxSect

/-- Behind `records`, a complete record comes whose byte count is too small by a whole number
of words, and the last section left is not used up before it. -/
structure Overruns (wsize : Nat) (junk : Nat → UInt8) (records : List SRecord) (r : SRecord) :
    Prop where
  complete : r.Complete
  small : r.TooSmall
  words : 2 ^ wsize ∣ r.addrLen + 1 - r.count
  sects : (place (wordNext wsize) ⟨bigEndian (r.address junk), []⟩
    (s19Layout wsize records)).length ≤ imageMaxSect

variable {records : List SRecord} {r : SRecord}

theorem s19Layout_append (wsize : Nat) (records : List SRecord) (r : SRecord) :
    s19Layout wsize (records ++ [r]) =
      place (wordNext wsize) r.segment (s19Layout wsize records) := by
  rw [s19Layout, List.foldl_append]
  rfl

theorem s19Fits_append : S19Fits wsize (records ++ [r]) ↔ S19Fits wsize records ∧
    (r.Complete ∧ ¬ r.TooSmall ∧ 2 ^ wsize ∣ r.data.length) ∧
    (records.flatMap SRecord.data).length + r.data.length ≤ imageSize ∧
    (place (wordNext wsize) r.segment (s19Layout wsize records)).length ≤ imageMaxSect := by
  have grows := length_place (wordNext wsize) r.segment (s19Layout wsize records)
  have size : ((records ++ [r]).flatMap SRecord.data).length =
      (records.flatMap SRecord.data).length + r.data.length := by simp
  constructor
  · rintro ⟨good, fits, sects⟩
    rw [size] at fits
    rw [s19Layout_append] at sects
    refine ⟨⟨fun x mem => good x (List.mem_append_left _ mem), by omega, by omega⟩,
      good r (by simp), fits, sects⟩
  · rintro ⟨⟨good, -, -⟩, last, fits, sects⟩
    refine ⟨fun x mem => ?_, size ▸ fits, s19Layout_append wsize records r ▸ sects⟩
    rcases List.mem_append.mp mem with mem | mem
    · exact good x mem
    · exact List.mem_singleton.mp mem ▸ last

/-- What a round of the loop does with a record. -/
def storeSRecord (buff : UInt32) (wsize : Nat) (junk : Nat → UInt8) (img : FotaImg) (r : SRecord) :
    Except LoadErr FotaImg :=
  if ¬ r.Complete ∨ ¬ 2 ^ wsize ∣ r.dlen.toNat then .error .fail
  else fotaStore buff wsize (bigEndian (r.address junk)) r.dlen (r.bytes.drop (r.addrLen + 1)) img

/-- The loop over the lines is a loop over their records. -/
theorem foldlM_records (small : wsize < 32) {lines : List (List UInt8)}
    (short : ∀ line ∈ lines, line.length ≤ 514) (img : FotaImg) :
    lines.foldlM (fotaLoadS19Line buff wsize junk) img =
      (lines.filterMap sRecord?).foldlM (storeSRecord buff wsize junk) img := by
  induction lines generalizing img with
  | nil => rfl
  | cons line rest ih =>
    have ih := ih fun line mem => short line (List.mem_cons_of_mem _ mem)
    rw [List.foldlM_cons]
    cases found : sRecord? line with
    | none =>
      rw [fotaLoadS19Line_none found, List.filterMap_cons_none found]
      exact ih img
    | some r =>
      rw [fotaLoadS19Line_some found (short line (by simp)) small,
        List.filterMap_cons_some found, List.foldlM_cons]
      exact bind_congr ih

/-- The image holds what the records say. -/
structure Loaded (wsize : Nat) (records : List SRecord) (img : FotaImg) : Prop where
  ok : ImgOk wsize img
  fits : S19Fits wsize records
  buff : img.buff = records.flatMap SRecord.data
  segments : img.segments = s19Layout wsize records
  cells : img.cells wsize = records.flatMap (SRecord.cells wsize)

theorem loaded_empty (wsize : Nat) : Loaded wsize [] .empty :=
  ⟨imgOk_empty wsize, ⟨nofun, by decide, (by decide : 1 ≤ imageMaxSect)⟩, rfl, rfl, rfl⟩

/-- A record that is too small leaves the buffer, if nothing else stops it. -/
theorem Loaded.store_small (loaded : Loaded wsize records img) (home : ImgAddr buff)
    (small : wsize < 32) (complete : r.Complete) (tooSmall : r.TooSmall) :
    (Overruns wsize junk records r ∧ storeSRecord buff wsize junk img r = .error .fault) ∨
    (¬ Overruns wsize junk records r ∧ storeSRecord buff wsize junk img r = .error .fail) := by
  obtain ⟨pos, le, wrapped⟩ := SRecord.dlen_wrapped complete tooSmall
  -- the word size divides 2 ^ 32, so the wrapped length is as good as the shortfall
  have words : 2 ^ wsize ∣ r.dlen.toNat ↔ 2 ^ wsize ∣ r.addrLen + 1 - r.count := by
    rw [wrapped]
    exact Nat.dvd_sub_iff_right (by omega) (Nat.pow_dvd_pow 2 small.le)
  unfold storeSRecord
  by_cases whole : 2 ^ wsize ∣ r.dlen.toNat
  · rw [if_neg (by simp [complete, whole]), loaded.ok.store_wrapped home small _ pos le wrapped [],
      FotaImg.placed, loaded.segments]
    split
    next sects => exact .inl ⟨⟨complete, tooSmall, words.mp whole, sects⟩, rfl⟩
    next sects => exact .inr ⟨fun overruns => sects overruns.sects, rfl⟩
  · rw [if_pos (.inr whole)]
    exact .inr ⟨fun overruns => whole (words.mpr overruns.words), rfl⟩

/-- Any other record is stored exactly if the records then fit. -/
theorem Loaded.store (loaded : Loaded wsize records img) (home : ImgAddr buff)
    (small : wsize < 32) (junk : Nat → UInt8) (enough : r.Complete → ¬ r.TooSmall) :
    (S19Fits wsize (records ++ [r]) ∧ ∃ img', storeSRecord buff wsize junk img r = .ok img' ∧
      Loaded wsize (records ++ [r]) img') ∨
    (¬ S19Fits wsize (records ++ [r]) ∧ storeSRecord buff wsize junk img r = .error .fail) := by
  unfold storeSRecord
  by_cases complete : r.Complete
  · have enough := enough complete
    obtain ⟨size, short⟩ := SRecord.dlen_data complete enough
    rw [size, SRecord.base_eq complete enough]
    by_cases whole : 2 ^ wsize ∣ r.data.length
    · rw [if_neg (by simp [complete, whole])]
      rcases loaded.ok.store home small r.base size short (SRecord.take_data complete enough) whole
        with ⟨full, fail⟩ | ⟨fits, sects, img', stored, ok, buff, segments⟩
      · right
        refine ⟨fun fits => full ?_, fail⟩
        obtain ⟨-, -, fits, sects⟩ := s19Fits_append.mp fits
        rw [loaded.buff, FotaImg.placed, loaded.segments]
        exact ⟨fits, sects⟩
      · left
        have cells := loaded.ok.cells_placed ok segments
        rw [loaded.buff] at fits buff
        rw [FotaImg.placed, loaded.segments] at sects segments
        have more : S19Fits wsize (records ++ [r]) :=
          s19Fits_append.mpr ⟨loaded.fits, ⟨complete, enough, whole⟩, fits, sects⟩
        refine ⟨more, img', stored, ok, more, ?_, ?_, ?_⟩
        · simpa using buff
        · rw [segments, s19Layout_append]
          rfl
        · rw [cells, loaded.cells, List.flatMap_append]
          simp [SRecord.cells, SRecord.segment]
    · rw [if_pos (.inr whole)]
      exact .inr ⟨fun fits => whole (s19Fits_append.mp fits).2.1.2.2, rfl⟩
  · rw [if_pos (.inl complete)]
    exact .inr ⟨fun fits => complete (s19Fits_append.mp fits).2.1.1, rfl⟩

/-- One more record is stored, fails, or leaves the buffer. -/
theorem Loaded.store_cases (loaded : Loaded wsize records img) (home : ImgAddr buff)
    (small : wsize < 32) (junk : Nat → UInt8) (r : SRecord) :
    (∃ img', storeSRecord buff wsize junk img r = .ok img' ∧
      Loaded wsize (records ++ [r]) img') ∨
    (¬ S19Fits wsize (records ++ [r]) ∧
      (storeSRecord buff wsize junk img r = .error .fail ∨
        Overruns wsize junk records r ∧ storeSRecord buff wsize junk img r = .error .fault)) := by
  by_cases bad : r.Complete ∧ r.TooSmall
  · right
    refine ⟨fun fits => (s19Fits_append.mp fits).2.1.2.1 bad.2, ?_⟩
    rcases loaded.store_small home small bad.1 bad.2 with fault | fail
    · exact .inr fault
    · exact .inl fail.2
  · rcases loaded.store home small junk fun complete tooSmall => bad ⟨complete, tooSmall⟩
      with stored | fail
    · exact .inl stored.2
    · exact .inr ⟨fail.1, .inl fail.2⟩

/-- The loop over the records. -/
def loadSRecords (buff : UInt32) (wsize : Nat) (junk : Nat → UInt8) (records : List SRecord) :
    Except LoadErr FotaImg :=
  records.foldlM (storeSRecord buff wsize junk) .empty

theorem loaded_of_ok (home : ImgAddr buff) (small : wsize < 32)
    (h : loadSRecords buff wsize junk records = .ok img) : Loaded wsize records img := by
  refine foldlM_invariant (Loaded wsize) (loaded_empty wsize) ?_ h
  intro records img r img' loaded stored
  rcases loaded.store_cases home small junk r with ⟨next, ok, loaded⟩ | ⟨-, fail | ⟨-, fault⟩⟩
  · obtain rfl := Except.ok.inj (ok.symm.trans stored)
    exact loaded
  · exact nomatch fail.symm.trans stored
  · exact nomatch fault.symm.trans stored

/-- Records that fit are loaded. -/
theorem ok_of_fits (home : ImgAddr buff) (small : wsize < 32) (junk : Nat → UInt8)
    (fits : S19Fits wsize records) : ∃ img, loadSRecords buff wsize junk records = .ok img := by
  induction records using List.reverseRecOn with
  | nil => exact ⟨.empty, rfl⟩
  | append_singleton records r ih =>
    obtain ⟨img, run⟩ := ih (s19Fits_append.mp fits).1
    rcases (loaded_of_ok home small run).store_cases home small junk r with
      ⟨next, stored, -⟩ | ⟨full, -⟩
    · refine ⟨next, ?_⟩
      rw [loadSRecords, foldlM_append_ok [r] run, foldlM_singleton]
      exact stored
    · exact absurd fits full

/-- The loop leaves the buffer exactly at a record that overruns it. -/
theorem fault_iff (home : ImgAddr buff) (small : wsize < 32) :
    loadSRecords buff wsize junk records = .error .fault ↔ ∃ pre r post,
      records = pre ++ r :: post ∧ S19Fits wsize pre ∧ Overruns wsize junk pre r := by
  rw [loadSRecords, foldlM_error_iff]
  constructor
  · rintro ⟨pre, r, post, img, split, run, fault⟩
    have loaded := loaded_of_ok home small run
    refine ⟨pre, r, post, split, loaded.fits, ?_⟩
    rcases loaded.store_cases home small junk r with ⟨next, ok, -⟩ | ⟨-, fail | ⟨overruns, -⟩⟩
    · exact nomatch ok.symm.trans fault
    · exact nomatch fail.symm.trans fault
    · exact overruns
  · rintro ⟨pre, r, post, split, fits, overruns⟩
    obtain ⟨img, run⟩ := ok_of_fits home small junk fits
    refine ⟨pre, r, post, img, split, run, ?_⟩
    rcases (loaded_of_ok home small run).store_small home small overruns.complete overruns.small
      with ⟨-, fault⟩ | ⟨other, -⟩
    · exact fault
    · exact absurd overruns other

/-- The S-records in what can be read of a file. -/
def s19Records (bytes : List UInt8) : List SRecord := (fgets 514 [] 514 bytes).filterMap sRecord?

theorem fotaLoadS19_eq (small : wsize < 32) (bytes : List UInt8) (eof : Bool) :
    fotaLoadS19 buff wsize junk (some (bytes, eof)) =
      (loadSRecords buff wsize junk (s19Records bytes)).bind fun img =>
        if eof then .ok img else .error .fail := by
  rw [fotaLoadS19, loadSRecords, s19Records, ← foldlM_records small]
  · rfl
  · exact fun line mem => length_fgets (by decide) (by decide) mem

/-- What a load of an S-record file must do: a loaded image denotes the bytes of the records at
their addresses, and a record whose byte count is too small makes the load fail. -/
def S19Meaning (buff : UInt32) (wsize : Nat) (bytes : List UInt8) (eof : Bool) : Prop :=
  ∀ junk,
    (∀ img, fotaLoadS19 buff wsize junk (some (bytes, eof)) = .ok img →
      img.cells wsize = (s19Records bytes).flatMap (SRecord.cells wsize)) ∧
    ((∃ r ∈ s19Records bytes, r.TooSmall) →
      fotaLoadS19 buff wsize junk (some (bytes, eof)) = .error .fail)

/-- No record that overruns the buffer comes behind records that fit. -/
def NoOverrun (wsize : Nat) (bytes : List UInt8) : Prop :=
  ∀ junk pre r post, s19Records bytes = pre ++ r :: post → S19Fits wsize pre →
    ¬ Overruns wsize junk pre r

theorem s19Meaning_iff (home : ImgAddr buff) (small : wsize < 32) (bytes : List UInt8)
    (eof : Bool) : S19Meaning buff wsize bytes eof ↔ NoOverrun wsize bytes := by
  constructor
  · intro meaning junk pre r post split fits overruns
    have fault := (fault_iff home small).mpr ⟨pre, r, post, split, fits, overruns⟩
    have fail := (meaning junk).2 ⟨r, by rw [split]; simp, overruns.small⟩
    rw [fotaLoadS19_eq small, fault] at fail
    exact nomatch fail
  · intro none junk
    rw [fotaLoadS19_eq small]
    cases run : loadSRecords buff wsize junk (s19Records bytes) with
    | ok img =>
      have loaded := loaded_of_ok home small run
      constructor
      · intro img' same
        change (if eof then Except.ok img else Except.error LoadErr.fail) = Except.ok img' at same
        split at same
        · obtain rfl := Except.ok.inj same
          exact loaded.cells
        · cases same
      · rintro ⟨r, mem, tooSmall⟩
        exact absurd tooSmall (loaded.fits.good r mem).2.1
    | error err =>
      refine ⟨nofun, fun _ => ?_⟩
      cases err with
      | fail => rfl
      | fault =>
        obtain ⟨pre, r, post, split, fits, overruns⟩ := (fault_iff home small).mp run
        exact absurd overruns (none junk pre r post split fits)

/-- It is enough that no byte count is too small. -/
theorem noOverrun_of_enough {bytes : List UInt8} (enough : ∀ r ∈ s19Records bytes, ¬ r.TooSmall) :
    NoOverrun wsize bytes := by
  intro junk pre r post split fits overruns
  exact enough r (by rw [split]; simp) overruns.small

end Fota
