import TBoxMpu.Fota.ImageMeaning
import TBoxMpu.Fota.LoadBin

/-!
# The size of an image before it is loaded

`fota_calc_s19`, `fota_calc_hex` and `fota_calc_bin` of `fota_img.c` read a file a second time
to tell how long its image is. `calcSize_iff` says for which of the files that can be loaded
they tell the length of the sections.
-/

namespace Fota

open Segments Fallible

variable {buff : UInt32} {wsize : Nat} {junk : Nat → UInt8} {img : FotaImg}

/-! ### The counting passes -/

def hex2byt (hex : List UInt8) : Nat :=
  if ¬ isxdigit (hex.getD 0 0) ∨ ¬ isxdigit (hex.getD 1 0) then 0
  else (hexval (hex.getD 0 0)).toNat * 16 + (hexval (hex.getD 1 0)).toNat

/-- One round of the loop of `fota_calc_s19`. -/
def fotaCalcS19Line (size : Int) (lineBuf : List UInt8) : Int :=
  let line := cutspace lineBuf
  if line = [] then size
  else if line.getD 0 0 ≠ 0x53 ∨ line.getD 1 0 < 0x31 ∨ line.getD 1 0 > 0x33 then size
  -- without address and checksum
  else if (hex2byt (line.drop 2) : Int) - ((line.getD 1 0).toNat - 0x30 + 1) - 1 ≤ 0 then size
  else size + (hex2byt (line.drop 2) - ((line.getD 1 0).toNat - 0x30 + 1) - 1)

/-- `fota_calc_s19`, with a file as `fotaLoadS19` has it. -/
def fotaCalcS19 (file : Option (List UInt8 × Bool)) : Int :=
  match file with
  | none => -1
  | some (bytes, eof) =>
    let size := (fgets 514 [] 514 bytes).foldl fotaCalcS19Line 0
    if eof then size else -1

/-- What `line_buf[8]` is after `fgets` has stored `str` and `cutspace` has trimmed it; `old`
is what it was before. -/
def typeByte (old : UInt8) (str : List UInt8) : UInt8 :=
  let read := (str ++ [0]).getD 8 old
  let text := str.takeWhile (· != 0)
  -- the zero byte behind the last character that is no space
  let cut := if (text.reverse.dropWhile isspace).length = 8 then 0 else read
  let line := cutspace str
  if isspace (text.headD 0) ∧ line ≠ [] then (line ++ [0]).getD 8 cut else cut

/-- The lines, each with what `line_buf[8]` is then. -/
def typeBytes (old : UInt8) : List (List UInt8) → List (List UInt8 × UInt8)
  | [] => []
  | str :: rest => (str, typeByte old str) :: typeBytes (typeByte old str) rest

/-- One round of the loop of `fota_calc_hex`. -/
def fotaCalcHexLine (size : Int) (lineBuf : List UInt8 × UInt8) : Int :=
  let (lineBuf, stale) := lineBuf
  let line := cutspace lineBuf
  if line = [] then size
  else if line.getD 0 0 ≠ 0x3a ∨ (if line.length < 8 then stale else line.getD 8 0) ≠ 0x30 then size
  else if hex2byt (line.drop 1) ≤ 0 then size
  else size + hex2byt (line.drop 1)

/-- `fota_calc_hex`; `old` is what `line_buf[8]` is before anything is read. -/
def fotaCalcHex (old : UInt8) (file : Option (List UInt8 × Bool)) : Int :=
  match file with
  | none => -1
  | some (bytes, eof) =>
    let size := (typeBytes old (fgets 522 [] 522 bytes)).foldl fotaCalcHexLine 0
    if eof then size else -1

inductive Whence
  | seekSet | seekEnd
  deriving DecidableEq

/-- Where a stream stands after `fseek`. -/
def fseek (bytes : List UInt8) (off : Nat) : Whence → Nat
  | .seekSet => off
  | .seekEnd => bytes.length + off

/-- `fota_calc_bin` -/
def fotaCalcBin (file : Option (List UInt8 × Bool)) : Int :=
  match file with
  | none => -1
  | some (bytes, _) => fseek bytes 0 .seekSet

/-! ### Both passes over one file -/

/-- The length of the sections. -/
def FotaImg.size (img : FotaImg) : Nat := (img.sects.map (·.size.toNat)).sum

def BinImg.size (img : BinImg) : Nat := (img.sects.map (·.size.toNat)).sum

/-- The formats that `fota_load.c` knows, with the `img_attr` of each; a shift by 32 or more is
undefined. -/
inductive ImgFormat
  | s19 (wsize : Nat) (small : wsize < 32)
  | hex
  | bin (base : UInt32)

/-- What `fotaLoadHex` finds in `line_buf[8]` at each line. -/
def lineTypes (old : UInt8) (file : Option (List UInt8 × Bool)) (i : Nat) : UInt8 :=
  let lines := file.elim [] fun read => fgets 522 [] 522 read.1
  ((typeBytes old lines).map Prod.snd).getD i 0

/-- The length of the sections that a load of the file leaves. -/
def ImgFormat.loadSize (buff : UInt32) (junk : Nat → UInt8) (old : UInt8)
    (file : Option (List UInt8 × Bool)) : ImgFormat → Except LoadErr Nat
  | .s19 wsize _ => (fotaLoadS19 buff wsize junk file).map FotaImg.size
  | .hex => (fotaLoadHex buff junk (lineTypes old file) file).map FotaImg.size
  | .bin base => (fotaLoadBin base file).map BinImg.size

def ImgFormat.calcSize (old : UInt8) (file : Option (List UInt8 × Bool)) : ImgFormat → Int
  | .s19 _ _ => fotaCalcS19 file
  | .hex => fotaCalcHex old file
  | .bin _ => fotaCalcBin file

/-- Lines that do not reach `line_buf[8]`, before the first one that does. -/
def unread (lines : List (List UInt8)) : List (List UInt8) := lines.takeWhile (·.length < 8)

/-- A colon with a byte count other than zero. -/
def Begun (str : List UInt8) : Prop :=
  (cutspace str).getD 0 0 = 0x3a ∧ hex2byt ((cutspace str).drop 1) ≠ 0

instance (str : List UInt8) : Decidable (Begun str) := inferInstanceAs (Decidable (_ ∧ _))

/-- An S-record file has any form; an Intel HEX file does not begin with lines of at most seven
characters one of which has a colon and a byte count; a binary file is empty. -/
def ImgFormat.Plain (bytes : List UInt8) : ImgFormat → Prop
  | .s19 _ _ => True
  | .hex => ∀ str ∈ unread (fgets 522 [] 522 bytes), ¬ Begun str
  | .bin _ => bytes = []

/-! ### The length of the sections -/

theorem ImgOk.size_eq (ok : ImgOk wsize img) : img.size = (img.cells wsize).length := by
  have sects : ∀ sect ∈ img.sects, (img.bytes sect).length = sect.size.toNat := by
    intro sect mem
    exact ok.length_bytes ((List.takeWhile_sublist _).subset mem)
  rw [FotaImg.size, FotaImg.cells, Segments.cells, List.length_flatMap, List.map_map]
  congr 1
  refine List.map_congr_left fun sect mem => ?_
  rw [← sects sect mem]
  simp [Segment.cells]

/-- A record makes the image longer by its bytes. -/
theorem ImgOk.size_placed (ok : ImgOk wsize img) {img' : FotaImg} (ok' : ImgOk wsize img')
    {base : UInt32} {data : List UInt8} (segments : img'.segments = img.placed wsize base data) :
    img'.size = img.size + data.length := by
  rw [ok'.size_eq, ok.size_eq, ok.cells_placed ok' segments, List.length_append]
  simp [Segment.cells]

theorem hex2byt_eq (hex : List UInt8) : hex2byt hex = ((hexBytes hex).1.headD 0).toNat := by
  rw [← hex2binLoop_eq, hex2byt]
  match hex with
  | [] => rfl
  | [c] =>
    have single : ¬ isxdigit (0 : UInt8) = true := by decide
    rw [if_pos (.inr single)]
    rfl
  | hi :: lo :: hex =>
    simp only [List.getD_cons_zero, List.getD_cons_succ, hex2binLoop]
    by_cases digits : isxdigit hi = true ∧ isxdigit lo = true
    · obtain ⟨h, high⟩ := (isxdigit_iff hi).mp digits.1
      obtain ⟨l, low⟩ := (isxdigit_iff lo).mp digits.2
      have small := (hexDigit?_lt high).1
      have small' := (hexDigit?_lt low).1
      have sixteen : (16 : UInt8).toNat = 16 := rfl
      rw [if_neg (by simp [digits]), if_pos (by simp [digits]), List.headD_cons, hexval_eq high,
        hexval_eq low, UInt8.toNat_add, UInt8.toNat_mul, sixteen]
      omega
    · rw [if_pos (not_and_or.mp digits), if_neg (by simpa using digits)]
      rfl

/-! ### S-record files -/

/-- The pass counts what the byte count leaves for data. -/
theorem fotaCalcS19Line_eq (size : Int) (lineBuf : List UInt8) :
    fotaCalcS19Line size lineBuf =
      size + ((sRecord? lineBuf).elim 0 fun r => r.count - (r.addrLen + 1) : Nat) := by
  unfold fotaCalcS19Line
  dsimp only
  cases found : sRecord? lineBuf with
  | none =>
    rw [Option.elim_none, Int.natCast_zero, Int.add_zero]
    split
    · rfl
    next nonempty =>
      apply if_pos
      unfold sRecord? at found
      by_contra passed
      simp only [not_or, not_not, UInt8.not_lt, gt_iff_lt] at passed
      obtain ⟨first, low, high⟩ := passed
      cases line : cutspace lineBuf with
      | nil => exact nonempty line
      | cons c text =>
        rw [line] at first found low high
        cases text with
        | nil =>
          have none : ¬ (0x31 : UInt8) ≤ 0 := by decide
          exact none low
        | cons digit hex =>
          obtain rfl : c = 0x53 := first
          have digits : 0x31 ≤ digit ∧ digit ≤ 0x33 := ⟨low, high⟩
          simp only [digits, and_self, dite_true, reduceCtorEq] at found
  | some r =>
    obtain ⟨digit, hex, line, digits, addrLen, decoded⟩ := sRecord?_some found
    have count : hex2byt hex = r.count := by
      rw [hex2byt_eq, SRecord.count, ← decoded]
    have low : 0x31 ≤ digit.toNat := UInt8.le_iff_toNat_le.mp digits.1
    rw [line, if_neg (List.cons_ne_nil _ _)]
    simp only [List.getD_cons_zero, List.getD_cons_succ, List.drop_succ_cons, List.drop_zero, count,
      Option.elim_some, addrLen]
    rw [if_neg (by simp [digits, UInt8.not_lt])]
    split <;> omega

theorem foldl_calcS19 (lines : List (List UInt8)) (size : Int) :
    lines.foldl fotaCalcS19Line size =
      size + (((lines.filterMap sRecord?).map fun r => r.count - (r.addrLen + 1)).sum : Nat) := by
  induction lines generalizing size with
  | nil => simp
  | cons line rest ih =>
    rw [List.foldl_cons, ih, fotaCalcS19Line_eq]
    cases found : sRecord? line with
    | none => rw [List.filterMap_cons_none found, Option.elim_none, Int.natCast_zero, Int.add_zero]
    | some r =>
      rw [List.filterMap_cons_some found, List.map_cons, List.sum_cons, Option.elim_some]
      omega

/-- Every record that went through is as long as its byte count says. -/
theorem calcS19_of_ok (home : ImgAddr buff) (small : wsize < 32)
    {file : Option (List UInt8 × Bool)} (loaded : fotaLoadS19 buff wsize junk file = .ok img) :
    fotaCalcS19 file = img.size := by
  match file with
  | none => cases loaded
  | some (bytes, eof) =>
    rw [fotaLoadS19_eq small] at loaded
    cases run : loadSRecords buff wsize junk (s19Records bytes) with
    | error err =>
      rw [run] at loaded
      cases loaded
    | ok last =>
      rw [run] at loaded
      change (if eof then Except.ok last else Except.error LoadErr.fail) = Except.ok img at loaded
      split at loaded
      next ended =>
        obtain rfl := Except.ok.inj loaded
        have records := loaded_of_ok home small run
        have lengths : ∀ r ∈ s19Records bytes, r.count - (r.addrLen + 1) = r.data.length :=
          fun r mem => (SRecord.length_data (records.fits.good r mem).1).symm
        rw [fotaCalcS19, if_pos ended, foldl_calcS19, ← s19Records, List.map_congr_left lengths,
          records.ok.size_eq, records.cells, List.length_flatMap]
        simp [SRecord.cells, SRecord.segment, Segment.cells]
      · cases loaded

/-! ### Binary files -/

theorem size_loaded (base : UInt32) {bytes : List UInt8} (fits : bytes.length ≤ imageSize) :
    ((BinImg.empty base).append bytes).size = bytes.length := by
  have start : (BinImg.empty base).buff.length + bytes.length = bytes.length := Nat.zero_add _
  have size := size_append (counted_empty base) (start.trans_le fits)
  rw [start] at size
  unfold BinImg.size BinImg.sects BinImg.append
  dsimp only
  split
  · simpa using size
  next zero =>
    rw [not_not.mp zero] at size
    exact size

theorem fotaLoadBin_eq (base : UInt32) (bytes : List UInt8) (eof : Bool) :
    fotaLoadBin base (some (bytes, eof)) =
      if imageSize < bytes.length then .error .fault
      else if eof then .ok ((BinImg.empty base).append bytes) else .error .fail := by
  have start : (BinImg.empty base).buff.length + bytes.length = bytes.length := Nat.zero_add _
  unfold fotaLoadBin
  dsimp only
  rw [loadBinLoop_eq eof bytes (counted_empty base), start]

/-- The stream is set to its beginning, so whatever its length, zero is counted. -/
theorem calcBin_of_ok {base : UInt32} {file : Option (List UInt8 × Bool)} {bin : BinImg}
    (loaded : fotaLoadBin base file = .ok bin) :
    ∃ bytes, file = some (bytes, true) ∧ bin.size = bytes.length ∧ fotaCalcBin file = 0 := by
  match file with
  | none => cases loaded
  | some (bytes, eof) =>
    rw [fotaLoadBin_eq] at loaded
    split at loaded
    · cases loaded
    next fits =>
      cases eof with
      | false => cases loaded
      | true =>
        obtain rfl := Except.ok.inj ((if_pos rfl).symm.trans loaded)
        exact ⟨bytes, rfl, size_loaded base (Nat.le_of_not_lt fits), rfl⟩

theorem loadSize_bin (base : UInt32) (old : UInt8) {bytes : List UInt8}
    (fits : bytes.length ≤ imageSize) :
    (ImgFormat.bin base).loadSize buff junk old (some (bytes, true)) = .ok bytes.length := by
  rw [ImgFormat.loadSize, fotaLoadBin_eq, if_neg (Nat.not_lt.mpr fits), if_pos rfl]
  exact congrArg Except.ok (size_loaded base fits)

/-! ### Intel HEX lines -/

/-- The character that both passes take for the record type. -/
def recordType (lineBuf : List UInt8 × UInt8) : UInt8 :=
  if (cutspace lineBuf.1).length < 8 then lineBuf.2 else (cutspace lineBuf.1).getD 8 0

/-- What the counting pass adds for a line. -/
def hexCount (lineBuf : List UInt8 × UInt8) : Nat :=
  if (cutspace lineBuf.1).getD 0 0 = 0x3a ∧ recordType lineBuf = 0x30 then
    hex2byt ((cutspace lineBuf.1).drop 1)
  else 0

theorem fotaCalcHexLine_eq (size : Int) (lineBuf : List UInt8 × UInt8) :
    fotaCalcHexLine size lineBuf = size + hexCount lineBuf := by
  have unfolded : fotaCalcHexLine size lineBuf =
      if cutspace lineBuf.1 = [] then size
      else if (cutspace lineBuf.1).getD 0 0 ≠ 0x3a ∨ recordType lineBuf ≠ 0x30 then size
      else if hex2byt ((cutspace lineBuf.1).drop 1) ≤ 0 then size
      else size + hex2byt ((cutspace lineBuf.1).drop 1) := rfl
  rw [unfolded, hexCount]
  by_cases record : (cutspace lineBuf.1).getD 0 0 = 0x3a ∧ recordType lineBuf = 0x30
  · have nonempty : cutspace lineBuf.1 ≠ [] := by
      intro none
      rw [none] at record
      exact absurd record.1 (by decide)
    rw [if_neg nonempty, if_neg (not_or.mpr ⟨not_not.mpr record.1, not_not.mpr record.2⟩),
      if_pos record]
    split <;> omega
  · rw [if_neg record, if_pos (not_and_or.mp record), ite_self, Int.natCast_zero, Int.add_zero]

theorem foldl_calcHex (lines : List (List UInt8 × UInt8)) (size : Int) :
    lines.foldl fotaCalcHexLine size = size + ((lines.map hexCount).sum : Nat) := by
  induction lines generalizing size with
  | nil => simp
  | cons line rest ih =>
    rw [List.foldl_cons, ih, fotaCalcHexLine_eq, List.map_cons, List.sum_cons]
    omega

/-- A data record of its real length makes the image longer by its byte count. -/
theorem ImgOk.size_data (ok : ImgOk 0 img) (home : ImgAddr buff) {seg base : UInt32}
    {bytes : List UInt8} {st' : UInt32 × FotaImg}
    (length : bytes.length = (bytes.getD 0 0).toNat + 5)
    (h : (fotaStore buff 0 base (bytes.getD 0 0).toUInt32 (bytes.drop 4) img).map
      (fun img => (seg, img)) = .ok st') :
    ImgOk 0 st'.2 ∧ st'.2.size = img.size + (bytes.getD 0 0).toNat := by
  have short := (bytes.getD 0 0).toNat_lt
  have whole : ((bytes.drop 4).take (bytes.getD 0 0).toNat).length = (bytes.getD 0 0).toNat := by
    rw [List.length_take, List.length_drop]
    omega
  have size : (bytes.getD 0 0).toUInt32.toNat =
      ((bytes.drop 4).take (bytes.getD 0 0).toNat).length := by
    rw [whole, UInt8.toNat_toUInt32]
  rcases ok.store home (by decide) base size (by omega) (by rw [UInt8.toNat_toUInt32])
    (one_dvd _) with ⟨-, fail⟩ | ⟨-, -, img', stored, ok', -, segments⟩
  · rw [fail] at h
    cases h
  · rw [stored] at h
    obtain rfl := Except.ok.inj h
    exact ⟨ok', (ok.size_placed ok' segments).trans (by rw [whole])⟩

/-- A line that went through adds what is counted for it, and one that begins a record and
leaves the record type to the bytes behind it is no data record by them. -/
theorem fotaLoadHexLine_counted (home : ImgAddr buff) {seg : UInt32} (ok : ImgOk 0 img)
    {lineBuf : List UInt8 × UInt8} {st' : UInt32 × FotaImg}
    (h : fotaLoadHexLine buff junk (seg, img) lineBuf = .ok st') :
    ImgOk 0 st'.2 ∧ st'.2.size = img.size + hexCount lineBuf ∧
      ((cutspace lineBuf.1).getD 0 0 = 0x3a → (cutspace lineBuf.1).length < 8 →
        lineBuf.2 ≠ 0x30) := by
  obtain ⟨lineBuf, stale⟩ := lineBuf
  have short_type (short : (cutspace lineBuf).length < 8) : recordType (lineBuf, stale) = stale :=
    if_pos short
  have zero : (0x30 : UInt8).toNat = 0x30 := rfl
  unfold fotaLoadHexLine at h
  unfold hexCount
  dsimp only at h ⊢
  generalize eq : (if (cutspace lineBuf).length < 8 then stale else (cutspace lineBuf).getD 8 0) =
    type at h
  rw [show recordType (lineBuf, stale) = type from eq] at short_type ⊢
  split at h
  next empty =>
    obtain rfl := Except.ok.inj h
    rw [empty]
    exact ⟨ok, rfl, nofun⟩
  next nonempty =>
    split at h
    next skipped =>
      -- another type, or no record at all
      have other : ¬ ((cutspace lineBuf).getD 0 0 = 0x3a ∧ type = 0x30) := by
        rintro ⟨colon, data⟩
        rw [data, zero] at skipped
        exact skipped.elim (fun other => other colon) fun other => other.2.2 rfl
      obtain rfl := Except.ok.inj h
      rw [if_neg other]
      exact ⟨ok, rfl, fun colon short data => other ⟨colon, (short_type short).trans data⟩⟩
    next used =>
      have colon : (cutspace lineBuf).getD 0 0 = 0x3a := by
        by_contra none
        exact used (.inl none)
      rw [hex2bin_eq] at h
      dsimp only at h
      generalize text : (cutspace lineBuf).drop 1 = hex at h ⊢
      have pairs := length_hexBytes hex
      rw [hex2byt_eq]
      generalize (hexBytes hex).1 = bytes at h pairs ⊢
      generalize counted : (if Ends (hexBytes hex).2 then (bytes.length : Int) else -1) = dlen at h
      split at h
      · cases h
      next format =>
        have length := hex_format counted.symm format
        have longer : hex.length ≤ (cutspace lineBuf).length := by
          rw [← text, List.length_drop]
          omega
        have first : bytes.headD 0 = bytes.getD 0 0 := by cases bytes <;> rfl
        split at h
        · cases h
        next checksum =>
          refine and_assoc.mp ⟨?_, fun _ short => by omega⟩
          split at h
          next segment =>
            have other : ¬ type = 0x30 := by
              intro data
              rw [data, zero] at segment
              exact segment rfl
            obtain rfl := Except.ok.inj h
            rw [if_neg fun both => other both.2]
            exact ⟨ok, rfl⟩
          next data =>
            have type : type = 0x30 := UInt8.toNat_inj.mp (by omega)
            have count : bytes.getD 0 (junk 0) = bytes.getD 0 0 := by
              cases bytes with
              | nil => exact nomatch length
              | cons count tail => rfl
            rw [if_pos ⟨colon, type⟩, first]
            rw [count] at h
            exact ok.size_data home length h

/-! ### Intel HEX files -/

/-- Over the lines that went through, the counting pass with the same bytes behind short lines
comes to the length of the sections. -/
theorem loadHex_counted (home : ImgAddr buff) {lines : List (List UInt8 × UInt8)}
    {st : UInt32 × FotaImg} (run : lines.foldlM (fotaLoadHexLine buff junk) (0, .empty) = .ok st) :
    ImgOk 0 st.2 ∧ st.2.size = (lines.map hexCount).sum ∧
      ∀ line ∈ lines, (cutspace line.1).getD 0 0 = 0x3a → (cutspace line.1).length < 8 →
        line.2 ≠ 0x30 := by
  refine foldlM_invariant
    (fun lines st => ImgOk 0 st.2 ∧ st.2.size = (lines.map hexCount).sum ∧
      ∀ line ∈ lines, (cutspace line.1).getD 0 0 = 0x3a → (cutspace line.1).length < 8 →
        line.2 ≠ 0x30)
    ⟨imgOk_empty 0, rfl, nofun⟩ ?_ run
  rintro lines ⟨seg, img⟩ line st' ⟨ok, size, begun⟩ step
  obtain ⟨ok', grown, last⟩ := fotaLoadHexLine_counted home ok step
  refine ⟨ok', ?_, ?_⟩
  · rw [grown, size]
    simp
  · intro other mem
    rcases List.mem_append.mp mem with before | here
    · exact begun other before
    · obtain rfl := List.mem_singleton.mp here
      exact last

theorem typeByte_short {str : List UInt8} (short : str.length < 8) (old : UInt8) :
    typeByte old str = old := by
  have text := (List.takeWhile_sublist (l := str) (· != 0)).length_le
  have back := (List.dropWhile_sublist (l := (str.takeWhile (· != 0)).reverse) isspace).length_le
  have line := length_cutspace str
  rw [List.length_reverse] at back
  have before : ¬ ((str.takeWhile (· != 0)).reverse.dropWhile isspace).length = 8 := by omega
  unfold typeByte
  dsimp only
  rw [if_neg before, List.getD_eq_default (str ++ [0]) _ (by simp; omega),
    List.getD_eq_default (cutspace str ++ [0]) _ (by simp; omega), ite_self]

/-- A line of eight characters or more leaves nothing of what was there. -/
theorem typeByte_long {str : List UInt8} (long : ¬ str.length < 8) (old old' : UInt8) :
    typeByte old str = typeByte old' str := by
  have read : (str ++ [0]).getD 8 old = (str ++ [0]).getD 8 old' := by
    rw [List.getD_eq_getElem _ _ (by simp; omega), List.getD_eq_getElem _ _ (by simp; omega)]
  unfold typeByte
  rw [read]

theorem unread_short {str : List UInt8} (short : str.length < 8) (lines : List (List UInt8)) :
    unread (str :: lines) = str :: unread lines :=
  List.takeWhile_cons_of_pos (by simpa using short)

theorem unread_long {str : List UInt8} (long : ¬ str.length < 8) (lines : List (List UInt8)) :
    unread (str :: lines) = [] :=
  List.takeWhile_cons_of_neg (by simpa using long)

theorem mem_typeBytes {lines : List (List UInt8)} {str : List UInt8} (mem : str ∈ unread lines)
    (old : UInt8) : (str, old) ∈ typeBytes old lines := by
  induction lines with
  | nil => cases mem
  | cons first rest ih =>
    rw [typeBytes]
    by_cases short : first.length < 8
    · rw [unread_short short] at mem
      rw [typeByte_short short]
      rcases List.mem_cons.mp mem with rfl | later
      · exact List.mem_cons_self
      · exact List.mem_cons_of_mem _ (ih later)
    · rw [unread_long short] at mem
      cases mem

theorem hexCount_short {str : List UInt8} (short : str.length < 8) (old : UInt8) :
    hexCount (str, old) =
      if (cutspace str).getD 0 0 = 0x3a ∧ old = 0x30 then hex2byt ((cutspace str).drop 1)
      else 0 := by
  have trimmed := (length_cutspace str).trans_lt short
  rw [hexCount, show recordType (str, old) = old from if_pos trimmed]

/-- Without the lines in question, what stood in the buffer does not matter. -/
theorem sum_typeBytes {lines : List (List UInt8)} (plain : ∀ str ∈ unread lines, ¬ Begun str)
    (old old' : UInt8) :
    ((typeBytes old lines).map hexCount).sum = ((typeBytes old' lines).map hexCount).sum := by
  induction lines with
  | nil => rfl
  | cons first rest ih =>
    rw [typeBytes, typeBytes, List.map_cons, List.map_cons, List.sum_cons, List.sum_cons]
    by_cases short : first.length < 8
    · rw [unread_short short] at plain
      have none (old : UInt8) : hexCount (first, old) = 0 := by
        rw [hexCount_short short]
        split
        next data =>
          by_contra some
          exact plain first List.mem_cons_self ⟨data.1, some⟩
        · rfl
      rw [typeByte_short short, typeByte_short short, none, none,
        ih fun str mem => plain str (List.mem_cons_of_mem _ mem)]
    · rw [typeByte_long short old old']

/-- With one of them, the digit zero in the buffer makes the pass count too much. -/
theorem sum_typeBytes_lt {lines : List (List UInt8)} {old : UInt8} (other : old ≠ 0x30) :
    ((typeBytes old lines).map hexCount).sum ≤ ((typeBytes 0x30 lines).map hexCount).sum ∧
      ((∃ str ∈ unread lines, Begun str) →
        ((typeBytes old lines).map hexCount).sum < ((typeBytes 0x30 lines).map hexCount).sum) := by
  induction lines with
  | nil => exact ⟨Nat.le_refl _, nofun⟩
  | cons first rest ih =>
    rw [typeBytes, typeBytes, List.map_cons, List.map_cons, List.sum_cons, List.sum_cons]
    by_cases short : first.length < 8
    · rw [typeByte_short short, typeByte_short short, hexCount_short short, hexCount_short short,
        if_neg fun both => other both.2, unread_short short]
      refine ⟨by omega, ?_⟩
      rintro ⟨str, mem, begun⟩
      rcases List.mem_cons.mp mem with rfl | later
      · rw [if_pos ⟨begun.1, rfl⟩]
        have count := begun.2
        omega
      · have later := ih.2 ⟨str, later, begun⟩
        omega
    · rw [typeByte_long short old 0x30, unread_long short]
      exact ⟨Nat.le_refl _, fun none => nomatch none⟩

/-- The lines with what `fotaLoadHex` finds behind them. -/
theorem zipIdx_lineTypes (old : UInt8) (bytes : List UInt8) (eof : Bool) :
    ((fgets 522 [] 522 bytes).zipIdx.map fun (line, i) =>
      (line, lineTypes old (some (bytes, eof)) i)) = typeBytes old (fgets 522 [] 522 bytes) := by
  have each (lines : List (List UInt8)) : lines.zipIdx.map (fun (line, i) =>
      (line, ((typeBytes old lines).map Prod.snd).getD i 0)) = typeBytes old lines := by
    induction lines generalizing old with
    | nil => rfl
    | cons line rest ih =>
      rw [List.zipIdx_cons', List.map_cons, List.map_map, typeBytes]
      congr 1
      exact ih (typeByte old line)
  exact each _

theorem calcHex_iff (home : ImgAddr buff) {old : UInt8} {file : Option (List UInt8 × Bool)}
    (loaded : fotaLoadHex buff junk (lineTypes old file) file = .ok img) :
    ∃ bytes, file = some (bytes, true) ∧
      ((∀ old', fotaCalcHex old' file = img.size) ↔
        ∀ str ∈ unread (fgets 522 [] 522 bytes), ¬ Begun str) := by
  match file with
  | none => cases loaded
  | some (bytes, eof) =>
    unfold fotaLoadHex at loaded
    simp only [zipIdx_lineTypes] at loaded
    cases run : (typeBytes old (fgets 522 [] 522 bytes)).foldlM (fotaLoadHexLine buff junk)
      (0, FotaImg.empty) with
    | error err => exact nomatch (congrArg (· >>= _) run).symm.trans loaded
    | ok st =>
      rw [run] at loaded
      change (if eof then Except.ok st.2 else Except.error LoadErr.fail) = Except.ok img at loaded
      split at loaded
      next ended =>
        obtain rfl := Except.ok.inj loaded
        subst ended
        obtain ⟨-, size, begun⟩ := loadHex_counted home run
        have passes (old' : UInt8) : fotaCalcHex old' (some (bytes, true)) =
            (((typeBytes old' (fgets 522 [] 522 bytes)).map hexCount).sum : Nat) := by
          rw [fotaCalcHex, if_pos rfl, foldl_calcHex, Int.zero_add]
        refine ⟨bytes, rfl, ?_⟩
        simp only [passes, size]
        constructor
        · -- with the digit zero, a line in question is counted that cannot have been loaded
          intro equal str mem count
          have trimmed : (cutspace str).length < 8 :=
            (length_cutspace str).trans_lt (by simpa using List.mem_takeWhile_imp mem)
          have other : old ≠ 0x30 := begun (str, old) (mem_typeBytes mem old) count.1 trimmed
          have more := (sum_typeBytes_lt other).2 ⟨str, mem, count⟩
          have same := equal 0x30
          omega
        · intro plain old'
          rw [sum_typeBytes plain old' old]
      · cases loaded

/-! ### All formats -/

/-- For a file that can be loaded, the estimate is the length of its sections, whatever the
stack held before, exactly if the file is plain. -/
theorem calcSize_iff (home : ImgAddr buff) {old : UInt8} {file : Option (List UInt8 × Bool)}
    {fmt : ImgFormat} {size : Nat} (loaded : fmt.loadSize buff junk old file = .ok size) :
    (∀ old', fmt.calcSize old' file = size) ↔ ∀ read, file = some read → fmt.Plain read.1 := by
  cases fmt with
  | s19 wsize small =>
    obtain ⟨img, ok, rfl⟩ := map_ok loaded
    exact iff_of_true (fun _ => calcS19_of_ok home small ok) fun _ _ => trivial
  | hex =>
    obtain ⟨img, ok, rfl⟩ := map_ok loaded
    obtain ⟨bytes, rfl, iff⟩ := calcHex_iff home ok
    refine iff.trans ⟨?_, fun plain => plain _ rfl⟩
    rintro plain _ ⟨⟩
    exact plain
  | bin base =>
    obtain ⟨bin, ok, rfl⟩ := map_ok loaded
    obtain ⟨bytes, rfl, length, zero⟩ := calcBin_of_ok ok
    rw [length]
    constructor
    · rintro equal _ ⟨⟩
      have none : (0 : Int) = bytes.length := zero.symm.trans (equal 0)
      have length : bytes.length = 0 := by omega
      exact List.eq_nil_of_length_eq_zero length
    · intro plain old'
      have none : bytes = [] := plain _ rfl
      rw [none] at zero ⊢
      exact zero

/-- The two files of the loaders' example, and an empty binary file. -/
theorem calcSize_words :
    ((ImgFormat.s19 1 (by decide)).loadSize 0x1000 (fun _ => 0) 0 (some (wordsS19, true)) = .ok 4 ∧
      ∀ old', (ImgFormat.s19 1 (by decide)).calcSize old' (some (wordsS19, true)) = 4) ∧
    (ImgFormat.hex.loadSize 0x1000 (fun _ => 0) 0 (some (linearHex, true)) = .ok 1 ∧
      ∀ old', ImgFormat.hex.calcSize old' (some (linearHex, true)) = 1) ∧
    ∀ old', (ImgFormat.bin 0).calcSize old' (some ([], true)) = 0 := by
  have home : ImgAddr 0x1000 := ⟨by decide, by decide⟩
  have s19 : (ImgFormat.s19 1 (by decide)).loadSize 0x1000 (fun _ => 0) 0 (some (wordsS19, true)) =
      .ok 4 := by decide
  have hex : ImgFormat.hex.loadSize 0x1000 (fun _ => 0) 0 (some (linearHex, true)) = .ok 1 := by
    decide
  have bin : (ImgFormat.bin 0).loadSize 0x1000 (fun _ => 0) 0 (some ([], true)) = .ok 0 :=
    loadSize_bin 0 0 (by decide)
  have plain : ImgFormat.hex.Plain linearHex := by
    change ∀ str ∈ unread (fgets 522 [] 522 linearHex), ¬ Begun str
    decide
  exact ⟨⟨s19, (calcSize_iff home s19).mpr fun _ _ => trivial⟩,
    ⟨hex, (calcSize_iff home hex).mpr fun _ same => Option.some.inj same ▸ plain⟩,
    (calcSize_iff home bin).mpr fun _ same => (Option.some.inj same ▸ rfl)⟩

/-- A binary file of one byte is estimated as nothing. -/
theorem calcSize_one_byte : ¬ ∀ (fmt : ImgFormat) (buff : UInt32) (junk : Nat → UInt8) (old : UInt8)
    (file : Option (List UInt8 × Bool)) (size : Nat), ImgAddr buff →
    fmt.loadSize buff junk old file = .ok size → fmt.calcSize old file = size := by
  intro estimates
  have one : (ImgFormat.bin 0).loadSize 0x1000 (fun _ => 0) 0 (some ([0x55], true)) = .ok 1 :=
    loadSize_bin 0 0 (by decide)
  exact absurd (estimates _ _ _ _ _ _ ⟨by decide, by decide⟩ one) (by decide)

end Fota
