import TBoxMpu.Fota.SRecord

/-!
# What a loaded image means

## Main result

`image_meaning_iff`: both loaders leave an image that denotes the bytes of the file's data
records at their addresses, and refuse records that are too short, exactly if no S-record
has a byte count that is too small by a whole number of words.

## Proof strategy

A step lemma for each format says what a line that went through was. The loop over S-records
has the invariant `Loaded`, the one over Intel HEX lines `HexLoaded`.
-/

namespace Fota

open Segments Fallible

variable {buff : UInt32} {wsize : Nat} {junk : Nat → UInt8} {img : FotaImg}

/-! ### Intel HEX records -/

/-- The bytes of a line behind its colon, from the byte count to the record type at least. -/
structure HexRecord where
  bytes : List UInt8
  long : 4 ≤ bytes.length

def hexRecord? (lineBuf : List UInt8) : Option HexRecord :=
  match cutspace lineBuf with
  | 0x3a :: hex => if long : 4 ≤ (hexBytes hex).1.length then some ⟨_, long⟩ else none
  | _ => none

namespace HexRecord

def count (r : HexRecord) : UInt8 := r.bytes.getD 0 0
def offset (r : HexRecord) : UInt32 := bigEndian ((r.bytes.drop 1).take 2)
def type (r : HexRecord) : UInt8 := r.bytes.getD 3 0
def data (r : HexRecord) : List UInt8 := (r.bytes.drop 4).take r.count.toNat

/-- The record types of the format, with two bytes in the records of extended addresses. -/
def Intel (r : HexRecord) : Prop := r.type ≤ 5 ∧ (r.type = 2 ∨ r.type = 4 → r.count = 2)

instance (r : HexRecord) : Decidable r.Intel := inferInstanceAs (Decidable (_ ∧ _))

/-- The address that the next records count from, and the bytes with their addresses so far. -/
def step (st : UInt32 × List (Nat × UInt8)) (r : HexRecord) : UInt32 × List (Nat × UInt8) :=
  if r.type = 0 then
    (st.1, st.2 ++ Segment.cells (wordAddr 0) ⟨st.1 + r.offset, r.data⟩)
  else if r.type = 2 then (bigEndian r.data * 16, st.2)
  else if r.type = 4 then (bigEndian r.data * 0x10000, st.2)
  else st

end HexRecord

def hexRecords (bytes : List UInt8) : List HexRecord := (fgets 522 [] 522 bytes).filterMap hexRecord?

/-- The bytes of the data records with their addresses. -/
def hexCells (records : List HexRecord) : List (Nat × UInt8) :=
  (records.foldl HexRecord.step (0, [])).2

/-- The one digit that the code reads is the record type. -/
theorem hex_type {hex : List UInt8} (long : 4 ≤ (hexBytes hex).1.length)
    (intel : (hexBytes hex).1.getD 3 0 ≤ 5) :
    ((hex.getD 7 0).toNat : Int) - 0x30 = ((hexBytes hex).1.getD 3 0).toNat := by
  obtain ⟨h, l, hi, lo, value⟩ := hexBytes_digits (Nat.lt_of_succ_le long)
  have hi := hexDigit?_lt hi
  obtain ⟨small, digit⟩ := hexDigit?_lt lo
  rw [value] at intel ⊢
  have intel : (h * 16 + l).toNat ≤ 5 := UInt8.le_iff_toNat_le.mp intel
  have sixteen : (16 : UInt8).toNat = 16 := rfl
  rw [UInt8.toNat_add, UInt8.toNat_mul, sixteen] at intel ⊢
  have digit : (hex.getD 7 0).toNat = 0x30 + l.toNat := digit (by omega)
  omega

/-! ### One line of an Intel HEX file -/

private theorem word (hi lo : UInt8) :
    bigEndian [hi, lo] = hi.toUInt32 * 0x100 + lo.toUInt32 := by
  simp [bigEndian]

theorem HexRecord.offset_eq (r : HexRecord) (junk : Nat → UInt8) :
    (r.bytes.getD 1 (junk 1)).toUInt32 * 0x100 + (r.bytes.getD 2 (junk 2)).toUInt32 = r.offset := by
  obtain ⟨bytes, long⟩ := r
  match bytes, long with
  | _ :: hi :: lo :: _ :: _, _ => exact (word hi lo).symm

private theorem seven {bytes : List UInt8} (length : bytes.length = 7) (junk : Nat → UInt8) :
    (bytes.getD 4 (junk 4)).toUInt32 * 0x100 + (bytes.getD 5 (junk 5)).toUInt32 =
      bigEndian ((bytes.drop 4).take 2) := by
  match bytes, length with
  | [_, _, _, _, hi, lo, _], _ => exact (word hi lo).symm

theorem HexRecord.word_eq {r : HexRecord} (length : r.bytes.length = r.count.toNat + 5)
    (two : r.count = 2) (junk : Nat → UInt8) :
    (r.bytes.getD 4 (junk 4)).toUInt32 * 0x100 + (r.bytes.getD 5 (junk 5)).toUInt32 =
      bigEndian r.data := by
  rw [two] at length
  rw [HexRecord.data, two]
  exact seven length junk

/-- An extended address counts paragraphs (type 2) or 64 KB (type 4). -/
theorem shift_segment (value : UInt32) :
    value <<< (1 <<< UInt32.ofNat (2 : Int).toNat) = value * 16 ∧
      value <<< (1 <<< UInt32.ofNat (4 : Int).toNat) = value * 0x10000 := by
  have four : (1 <<< UInt32.ofNat (2 : Int).toNat : UInt32) = 4 := by decide
  have sixteen : (1 <<< UInt32.ofNat (4 : Int).toNat : UInt32) = 16 := by decide
  rw [four, sixteen]
  constructor
  · apply UInt32.toNat_inj.mp
    rw [UInt32.toNat_shiftLeft, UInt32.toNat_mul, Nat.shiftLeft_eq]
    rfl
  · apply UInt32.toNat_inj.mp
    rw [UInt32.toNat_shiftLeft, UInt32.toNat_mul, Nat.shiftLeft_eq]
    rfl

/-- A record that passes the format check has all the bytes it counts. -/
theorem hex_format {bytes rest : List UInt8} {dlen : Int}
    (h : dlen = if Ends rest then (bytes.length : Int) else -1)
    (format : ¬ (dlen ≤ 0 ∨ dlen ≠ (bytes.getD 0 (junk 0)).toNat + 5)) :
    bytes.length = (bytes.getD 0 0).toNat + 5 := by
  rw [not_or, not_not] at format
  obtain ⟨pos, same⟩ := format
  split at h
  · cases bytes with
    | nil => simp [h] at pos
    | cons count tail =>
      simp only [List.getD_cons_zero] at same ⊢
      omega
  · omega

theorem HexRecord.count_eq (r : HexRecord) (junk : Nat → UInt8) :
    r.bytes.getD 0 (junk 0) = r.count := by
  obtain ⟨bytes, long⟩ := r
  match bytes, long with
  | _ :: _, _ => rfl

/-- What is done with a record after the checksum. -/
def useHexRecord (buff : UInt32) (junk : Nat → UInt8) (seg : UInt32) (img : FotaImg)
    (r : HexRecord) : Except LoadErr (UInt32 × FotaImg) :=
  if (r.type.toNat : Int) ≠ 0 then
    .ok (((r.bytes.getD 4 (junk 4)).toUInt32 * 0x100 + (r.bytes.getD 5 (junk 5)).toUInt32) <<<
      (1 <<< UInt32.ofNat (r.type.toNat : Int).toNat), img)
  else
    (fotaStore buff 0 (seg + ((r.bytes.getD 1 (junk 1)).toUInt32 * 0x100 +
      (r.bytes.getD 2 (junk 2)).toUInt32)) (r.bytes.getD 0 (junk 0)).toUInt32 (r.bytes.drop 4)
      img).map fun img => (seg, img)

theorem useHexRecord_ok {seg : UInt32} {r : HexRecord} {st' : UInt32 × FotaImg}
    (intel : r.Intel) (length : r.bytes.length = r.count.toNat + 5)
    (used : r.type = 0 ∨ r.type = 2 ∨ r.type = 4)
    (h : useHexRecord buff junk seg img r = .ok st') :
    (r.type = 0 ∧ ∃ img', fotaStore buff 0 (seg + r.offset) r.count.toUInt32
      (r.bytes.drop 4) img = .ok img' ∧ st' = (seg, img')) ∨
    (r.type = 2 ∧ st' = (bigEndian r.data * 16, img)) ∨
    (r.type = 4 ∧ st' = (bigEndian r.data * 0x10000, img)) := by
  unfold useHexRecord at h
  rw [r.count_eq, r.offset_eq] at h
  rcases used with zero | two | four
  · left
    rw [zero, if_neg (by decide)] at h
    cases stored : fotaStore buff 0 (seg + r.offset) r.count.toUInt32 (r.bytes.drop 4) img with
    | error err => exact nomatch (congrArg (Except.map _) stored).symm.trans h
    | ok img' =>
      rw [stored] at h
      exact ⟨zero, img', rfl, (Except.ok.inj h).symm⟩
  · right; left
    rw [HexRecord.word_eq length (intel.2 (.inl two)), two, if_pos (by decide)] at h
    refine ⟨two, (Except.ok.inj h).symm.trans ?_⟩
    exact congrArg (·, img) (shift_segment _).1
  · right; right
    rw [HexRecord.word_eq length (intel.2 (.inr four)), four, if_pos (by decide)] at h
    refine ⟨four, (Except.ok.inj h).symm.trans ?_⟩
    exact congrArg (·, img) (shift_segment _).2

theorem hexRecord?_cons {lineBuf hex : List UInt8} {c : UInt8}
    (line : cutspace lineBuf = c :: hex) : hexRecord? lineBuf =
      if c = 0x3a then if long : 4 ≤ (hexBytes hex).1.length then some ⟨_, long⟩ else none
      else none := by
  unfold hexRecord?
  rw [line]
  split
  next other same =>
    obtain ⟨rfl, rfl⟩ := List.cons.inj same
    rfl
  next other =>
    exact (if_neg fun colon => other hex (by rw [colon])).symm

/-- What a line that went through must have been: no record that counts, or all of one. -/
theorem fotaLoadHexLine_ok {seg : UInt32} {st' : UInt32 × FotaImg} {lineBuf : List UInt8}
    {stale : UInt8} (intel : ∀ r, hexRecord? lineBuf = some r → r.Intel)
    (h : fotaLoadHexLine buff junk (seg, img) (lineBuf, stale) = .ok st') :
    (hexRecord? lineBuf = none ∧ st' = (seg, img)) ∨
    ∃ r, hexRecord? lineBuf = some r ∧
      ((¬ (r.type = 0 ∨ r.type = 2 ∨ r.type = 4) ∧ st' = (seg, img)) ∨
      ((r.type = 0 ∨ r.type = 2 ∨ r.type = 4) ∧ r.bytes.length = r.count.toNat + 5 ∧
        useHexRecord buff junk seg img r = .ok st')) := by
  unfold fotaLoadHexLine at h
  simp only at h
  split at h
  next empty =>
    rw [hexRecord?, empty]
    exact .inl ⟨rfl, (Except.ok.inj h).symm⟩
  next nonempty =>
    obtain ⟨c, hex, line⟩ := List.exists_cons_of_ne_nil nonempty
    have record := hexRecord?_cons line
    simp only [line, List.getD_cons_zero, List.getD_cons_succ, List.drop_succ_cons, List.drop_zero,
      List.length_cons, hex2bin_eq] at h
    by_cases colon : c = 0x3a
    · rw [if_pos colon] at record
      by_cases long : 4 ≤ (hexBytes hex).1.length
      · right
        rw [dif_pos long] at record
        refine ⟨_, record, ?_⟩
        have intel := intel _ record
        have pairs := length_hexBytes hex
        have whole : ¬ hex.length + 1 < 8 := by omega
        have digit := hex_type long intel.1
        generalize eq : (⟨(hexBytes hex).1, long⟩ : HexRecord) = r at intel ⊢
        have bytes : (hexBytes hex).1 = r.bytes := by rw [← eq]
        have type : (r.bytes.getD 3 0).toNat = r.type.toNat := rfl
        rw [bytes, type] at digit
        simp only [whole, if_false, digit, bytes] at h
        generalize counted : (if Ends (hexBytes hex).2 then (r.bytes.length : Int) else -1) = dlen
          at h
        split at h
        next skipped =>
          -- the loader passes over the other types
          left
          refine ⟨?_, (Except.ok.inj h).symm⟩
          rintro (zero | two | four)
          · simp [zero, colon] at skipped
          · simp [two, colon] at skipped
          · simp [four, colon] at skipped
        next used =>
          -- the checks of the byte count and of the format went through
          right
          split at h
          · cases h
          next format =>
            split at h
            · cases h
            · refine ⟨?_, hex_format counted.symm format, h⟩
              simp only [← UInt8.toNat_inj]
              change r.type.toNat = 0 ∨ r.type.toNat = 2 ∨ r.type.toNat = 4
              omega
      · -- too few bytes for any byte count
        left
        rw [dif_neg long] at record
        refine ⟨record, ?_⟩
        generalize (if hex.length + 1 < 8 then stale else hex.getD 7 0) = type at h
        generalize counted : (if Ends (hexBytes hex).2 then ((hexBytes hex).1.length : Int) else -1) =
          dlen at h
        split at h
        · exact (Except.ok.inj h).symm
        split at h
        · cases h
        next format =>
          have length := hex_format counted.symm format
          omega
    · left
      rw [if_neg colon] at record
      rw [if_pos (.inl colon)] at h
      exact ⟨record, (Except.ok.inj h).symm⟩

/-! ### Intel HEX files -/

/-- A file all of whose records are as the format has them. -/
def IntelHex (bytes : List UInt8) : Prop := ∀ r ∈ hexRecords bytes, r.Intel

/-- What a load of an Intel HEX file must do. -/
def HexMeaning (buff : UInt32) (bytes : List UInt8) (eof : Bool) : Prop :=
  ∀ junk stale img, fotaLoadHex buff junk stale (some (bytes, eof)) = .ok img →
    img.cells 0 = hexCells (hexRecords bytes)

/-- The records that went through so far, and what they left. -/
structure HexLoaded (records : List HexRecord) (st : UInt32 × FotaImg) : Prop where
  ok : ImgOk 0 st.2
  meaning : (st.1, st.2.cells 0) = records.foldl HexRecord.step (0, [])

theorem HexLoaded.record {records : List HexRecord} {seg : UInt32} {r : HexRecord}
    {st' : UInt32 × FotaImg} (loaded : HexLoaded records (seg, img)) (home : ImgAddr buff)
    (intel : r.Intel) (used : r.type = 0 ∨ r.type = 2 ∨ r.type = 4)
    (length : r.bytes.length = r.count.toNat + 5)
    (h : useHexRecord buff junk seg img r = .ok st') : HexLoaded (records ++ [r]) st' := by
  obtain ⟨ok, meaning⟩ := loaded
  have step : (records ++ [r]).foldl HexRecord.step (0, []) =
      HexRecord.step (seg, img.cells 0) r := by
    rw [List.foldl_append, ← meaning]
    rfl
  rcases useHexRecord_ok intel length used h with
    ⟨zero, img', stored, rfl⟩ | ⟨two, rfl⟩ | ⟨four, rfl⟩
  · have short := r.count.toNat_lt
    have size : r.count.toUInt32.toNat = r.data.length := by
      rw [HexRecord.data, List.length_take, List.length_drop, length, UInt8.toNat_toUInt32]
      omega
    have counted : r.data.length ≤ 255 := by
      rw [← size, UInt8.toNat_toUInt32]
      omega
    rcases ok.store home (by decide) (seg + r.offset) size counted rfl (one_dvd _) with
      ⟨-, fail⟩ | ⟨-, -, next, same, next_ok, -, segments⟩
    · exact nomatch fail.symm.trans stored
    · obtain rfl := Except.ok.inj (same.symm.trans stored)
      refine ⟨next_ok, ?_⟩
      rw [step, HexRecord.step, if_pos zero, ok.cells_placed next_ok segments]
  · refine ⟨ok, ?_⟩
    rw [step, HexRecord.step, if_neg (by rw [two]; decide), if_pos two]
  · refine ⟨ok, ?_⟩
    rw [step, HexRecord.step, if_neg (by rw [four]; decide), if_neg (by rw [four]; decide),
      if_pos four]

theorem HexLoaded.line {records : List HexRecord} {st st' : UInt32 × FotaImg}
    {lineBuf : List UInt8} {stale : UInt8} (loaded : HexLoaded records st) (home : ImgAddr buff)
    (intel : ∀ r, hexRecord? lineBuf = some r → r.Intel)
    (h : fotaLoadHexLine buff junk st (lineBuf, stale) = .ok st') :
    HexLoaded (records ++ [lineBuf].filterMap hexRecord?) st' := by
  obtain ⟨seg, img⟩ := st
  rcases fotaLoadHexLine_ok intel h with ⟨none, rfl⟩ | ⟨r, some, ⟨other, rfl⟩ | ⟨used, length, use⟩⟩
  · simpa [none] using loaded
  · simp only [not_or] at other
    rw [List.filterMap_cons_some some]
    refine ⟨loaded.ok, ?_⟩
    rw [List.filterMap_nil, List.foldl_append, ← loaded.meaning, List.foldl_cons, List.foldl_nil,
      HexRecord.step, if_neg other.1, if_neg other.2.1, if_neg other.2.2]
  · rw [List.filterMap_cons_some some]
    exact loaded.record home (intel r some) used length use

/-- The invariant of the loop is about the records in the lines read so far. -/
theorem hexMeaning_of_intel (home : ImgAddr buff) {bytes : List UInt8} (intel : IntelHex bytes)
    (eof : Bool) : HexMeaning buff bytes eof := by
  intro junk stale img h
  unfold fotaLoadHex at h
  simp only at h
  generalize paired : (fgets 522 [] 522 bytes).zipIdx.map _ = lines at h
  have strings : lines.map Prod.fst = fgets 522 [] 522 bytes := by
    rw [← paired, List.map_map]
    exact List.zipIdx_map_fst 0 _
  cases run : lines.foldlM (fotaLoadHexLine buff junk) (0, FotaImg.empty) with
  | error err => cases (congrArg (· >>= _) run).symm.trans h
  | ok st =>
    rw [run] at h
    have same : st.2 = img := by
      change (if eof then Except.ok st.2 else Except.error LoadErr.fail) = Except.ok img at h
      split at h
      · exact Except.ok.inj h
      · cases h
    have invariant := foldlM_invariant
      (fun lines st => (∀ r ∈ (lines.map Prod.fst).filterMap hexRecord?, r.Intel) →
        HexLoaded ((lines.map Prod.fst).filterMap hexRecord?) st)
      (fun _ => ⟨imgOk_empty 0, rfl⟩)
      (fun lines st line st' before step intel => by
        rw [List.map_append, List.filterMap_append] at intel ⊢
        have line_intel : ∀ r, hexRecord? line.1 = some r → r.Intel := fun r some =>
          intel r (List.mem_append_right _ (by simp [some]))
        exact (before fun r mem => intel r (List.mem_append_left _ mem)).line home line_intel step)
      run
    rw [strings] at invariant
    have meaning := (invariant intel).meaning
    rw [← same]
    exact congrArg Prod.snd meaning

/-! ### Both loaders -/

theorem image_meaning_iff (home : ImgAddr buff) (small : wsize < 32)
    (s19 hex : List UInt8 × Bool) (intel : IntelHex hex.1) :
    (S19Meaning buff wsize s19.1 s19.2 ∧ HexMeaning buff hex.1 hex.2) ↔ NoOverrun wsize s19.1 := by
  rw [s19Meaning_iff home small]
  exact and_iff_left (hexMeaning_of_intel home intel hex.2)

/-- `S1051000AABB85` and `S30700001001CCDD3E`: four bytes from the word address 1000 on. -/
def wordsS19 : List UInt8 :=
  [0x53, 0x31, 0x30, 0x35, 0x31, 0x30, 0x30, 0x30, 0x41, 0x41, 0x42, 0x42, 0x38, 0x35, 0x0a,
   0x53, 0x33, 0x30, 0x37, 0x30, 0x30, 0x30, 0x30, 0x31, 0x30, 0x30, 0x31, 0x43, 0x43, 0x44,
   0x44, 0x33, 0x45, 0x0a]

/-- `:020000040800F2` and `:010010005A95`: a byte at 8000010. -/
def linearHex : List UInt8 :=
  [0x3a, 0x30, 0x32, 0x30, 0x30, 0x30, 0x30, 0x30, 0x34, 0x30, 0x38, 0x30, 0x30, 0x46, 0x32,
   0x0a, 0x3a, 0x30, 0x31, 0x30, 0x30, 0x31, 0x30, 0x30, 0x30, 0x35, 0x41, 0x39, 0x35, 0x0a]

theorem image_meaning_words :
    S19Meaning 0x1000 1 wordsS19 true ∧ HexMeaning 0x1000 linearHex true := by
  have home : ImgAddr 0x1000 := ⟨by decide, by decide⟩
  have intel : IntelHex linearHex := by unfold IntelHex; decide
  exact (image_meaning_iff home (by decide) (wordsS19, true) (linearHex, true) intel).mpr
    (noOverrun_of_enough (by decide))

/-- `S10200FD`: the byte count two of an S1 record with one byte and the checksum. -/
def shortS19 : List UInt8 :=
  [0x53, 0x31, 0x30, 0x32, 0x30, 0x30, 0x46, 0x44, 0x0a]

/-- The length of its data wraps around, passes the size check, and the copy overruns the buffer. -/
theorem short_count_overruns : ¬ S19Meaning 0x1000 0 shortS19 true := by
  intro meaning
  have small : ∃ r ∈ s19Records shortS19, r.TooSmall := by decide
  have fail := (meaning fun _ => 0).2 small
  have fault : fotaLoadS19 0x1000 0 (fun _ => 0) (some (shortS19, true)) = .error .fault := by
    decide
  exact nomatch fault.symm.trans fail

end Fota
