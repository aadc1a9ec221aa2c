import TBoxMpu.Fota.Sections

/-!
# Loading binary files

`fota_load_bin`. The pointer of the one section is never set, where `fota_load_s19` and
`fota_load_hex` set it with the first bytes of a section, and a block is stored before its size
is looked at. A load is as it should be only where nothing is loaded (`load_bin_iff`).
-/

namespace Fota

open Segments

/-! ### The loader -/

/-- `img_sect_t` with its pointer as it is, `none` for `NULL`. -/
structure BinSect where
  base : UInt32
  size : UInt32
  data : Option Nat
  deriving DecidableEq

/-- `fota_img_t` while a binary file is loaded: the first section (the others are zero), and the
bytes of `buff` before `mpos`. -/
structure BinImg where
  sect : BinSect
  buff : List UInt8
  deriving DecidableEq

/-- After the `memset`, with the load address. -/
def BinImg.empty (base : UInt32) : BinImg := ⟨⟨base, 0, none⟩, []⟩

/-- The loop of `fota_load_bin`: `rest` is what can still be read, and then the end of the file
is reached if `eof`, and else an error. -/
def fotaLoadBinLoop (eof : Bool) (rest : List UInt8) (img : BinImg) : Except LoadErr BinImg :=
  let block := rest.take 1024
  let len := UInt32.ofNat block.length
  -- `fread` has stored the block when its size is looked at
  if imageSize < img.buff.length + block.length then .error .fault
  else if rest.length < 1024 ∧ ¬ eof then .error .fail
  else if img.sect.size + len > UInt32.ofNat imageSize then .error .fail
  else
    let img := { img with
      sect := { img.sect with size := img.sect.size + len }
      buff := img.buff ++ block }
    if rest.length < 1024 then .ok img else fotaLoadBinLoop eof (rest.drop 1024) img
termination_by rest.length

/-- `fota_load_bin` -/
def fotaLoadBin (base : UInt32) (file : Option (List UInt8 × Bool)) : Except LoadErr BinImg :=
  match file with
  | none => .error .fail
  | some (bytes, eof) => fotaLoadBinLoop eof bytes (.empty base)

/-! ### What is wanted -/

/-- `FOR_EACH_IMGSECT`. -/
def BinImg.sects (img : BinImg) : List BinSect :=
  if img.sect.size ≠ 0 then [img.sect] else []

/-- The bytes that a section addresses, with their places: `none` where its pointer does not
point into the buffer. -/
def BinImg.sectCells (img : BinImg) (sect : BinSect) : Option (List (Nat × UInt8)) :=
  sect.data.map fun pos =>
    Segment.cells (wordAddr 0) ⟨sect.base, (img.buff.drop pos).take sect.size.toNat⟩

def BinImg.cells (img : BinImg) : Option (List (Nat × UInt8)) :=
  (img.sects.mapM img.sectCells).map List.flatten

/-- Nothing is written outside the buffer, and an image that is loaded has the bytes of the file
in order from the load address on. -/
def LoadsBin (base : UInt32) (file : Option (List UInt8 × Bool)) : Prop :=
  match fotaLoadBin base file with
  | .error err => err = .fail
  | .ok img => ∃ bytes eof, file = some (bytes, eof) ∧
    img.cells = some (Segment.cells (wordAddr 0) ⟨base, bytes⟩)

/-! ### What the loop does -/

/-- The bytes in the buffer are counted. -/
structure BinImg.Counted (img : BinImg) : Prop where
  size : img.sect.size.toNat = img.buff.length
  inside : img.buff.length ≤ imageSize

theorem counted_empty (base : UInt32) : (BinImg.empty base).Counted :=
  ⟨rfl, Nat.zero_le _⟩

def BinImg.append (img : BinImg) (bytes : List UInt8) : BinImg :=
  { sect := { img.sect with size := img.sect.size + UInt32.ofNat bytes.length }
    buff := img.buff ++ bytes }

theorem append_append (img : BinImg) (block rest : List UInt8) :
    (img.append block).append rest = img.append (block ++ rest) := by
  unfold BinImg.append
  simp only [List.append_assoc, List.length_append, UInt32.ofNat_add, UInt32.add_assoc]

theorem size_append {img : BinImg} (counted : img.Counted) {block : List UInt8}
    (fits : img.buff.length + block.length ≤ imageSize) :
    (img.sect.size + UInt32.ofNat block.length).toNat = img.buff.length + block.length := by
  unfold imageSize at fits
  rw [UInt32.toNat_add, UInt32.toNat_ofNat', counted.size, Nat.mod_eq_of_lt (by omega),
    Nat.mod_eq_of_lt (by omega)]

theorem counted_append {img : BinImg} (counted : img.Counted) {block : List UInt8}
    (fits : img.buff.length + block.length ≤ imageSize) : (img.append block).Counted := by
  have length : (img.append block).buff.length = img.buff.length + block.length :=
    List.length_append
  exact ⟨(size_append counted fits).trans length.symm, length ▸ fits⟩

/-- The check of the size never fails: what it would refuse is outside the buffer already. -/
theorem size_check {img : BinImg} (counted : img.Counted) {block : List UInt8}
    (fits : img.buff.length + block.length ≤ imageSize) :
    ¬ img.sect.size + UInt32.ofNat block.length > UInt32.ofNat imageSize := by
  intro large
  have large := UInt32.lt_iff_toNat_lt.mp large
  rw [size_append counted fits] at large
  have whole : (UInt32.ofNat imageSize).toNat = imageSize := rfl
  omega

/-- What is left of the file decides: it is stored outside the buffer, or it cannot be read to
the end, or it is all in the buffer. -/
theorem loadBinLoop_eq (eof : Bool) (rest : List UInt8) {img : BinImg} (counted : img.Counted) :
    fotaLoadBinLoop eof rest img =
      if imageSize < img.buff.length + rest.length then .error .fault
      else if eof then .ok (img.append rest) else .error .fail := by
  induction length : rest.length using Nat.strongRecOn generalizing rest img with
  | ind n ih =>
    subst length
    unfold fotaLoadBinLoop
    -- the last block, or a whole one with more to come
    by_cases last : rest.length < 1024
    · have block : rest.take 1024 = rest := List.take_of_length_le (by omega)
      rw [block]
      by_cases beyond : imageSize < img.buff.length + rest.length
      · rw [if_pos beyond, if_pos beyond]
      · rw [if_neg beyond, if_neg beyond]
        cases eof with
        | false => rw [if_pos ⟨last, Bool.false_ne_true⟩]; rfl
        | true =>
          rw [if_neg fun error => error.2 rfl, if_neg (size_check counted (by omega)),
            if_pos last]
          rfl
    · -- a whole block: the check of the size passes, and the rest decides
      have block : (rest.take 1024).length = 1024 := List.length_take_of_le (by omega)
      have later : (rest.drop 1024).length = rest.length - 1024 := List.length_drop ..
      by_cases beyond : imageSize < img.buff.length + (rest.take 1024).length
      · rw [if_pos beyond, if_pos (by omega)]
      · have fits := Nat.le_of_not_lt beyond
        have next := ih (rest.drop 1024).length (by omega) (rest.drop 1024)
          (counted_append counted fits) rfl
        have total : (img.append (rest.take 1024)).buff.length + (rest.drop 1024).length =
            img.buff.length + rest.length := by
          unfold BinImg.append
          rw [List.length_append]
          omega
        rw [if_neg beyond, if_neg fun error => last error.1, if_neg (size_check counted fits),
          if_neg last]
        refine next.trans ?_
        rw [total, append_append, List.take_append_drop]

/-! ### The image -/

/-- The one section has no pointer, so what is loaded is addressed only if it is nothing. -/
theorem cells_append (base : UInt32) {bytes : List UInt8} (fits : bytes.length ≤ imageSize) :
    ((BinImg.empty base).append bytes).cells = if bytes = [] then some [] else none := by
  have size : ((BinImg.empty base).sect.size + UInt32.ofNat bytes.length).toNat =
      0 + bytes.length := size_append (counted_empty base) ((Nat.zero_add _).symm ▸ fits)
  unfold BinImg.cells BinImg.sects BinImg.append
  by_cases none : bytes = []
  · rw [if_pos none, none]
    rfl
  · have used : (BinImg.empty base).sect.size + UInt32.ofNat bytes.length ≠ 0 := by
      intro zero
      rw [zero, Nat.zero_add] at size
      exact none (List.eq_nil_of_length_eq_zero size.symm)
    rw [if_neg none, if_pos used]
    rfl

/-- A load is as it should be exactly if the file cannot be opened, or what can be read of it
fits and is nothing or not all. -/
theorem load_bin_iff (base : UInt32) (file : Option (List UInt8 × Bool)) :
    LoadsBin base file ↔ ∀ bytes eof, file = some (bytes, eof) →
      bytes.length ≤ imageSize ∧ (eof = true → bytes = []) := by
  unfold LoadsBin fotaLoadBin
  cases file with
  | none => exact iff_of_true rfl (by rintro _ _ ⟨⟩)
  | some read =>
    obtain ⟨bytes, eof⟩ := read
    have start : (BinImg.empty base).buff.length + bytes.length = bytes.length := Nat.zero_add _
    have only : (∀ bytes' eof', some (bytes, eof) = some (bytes', eof') →
        bytes'.length ≤ imageSize ∧ (eof' = true → bytes' = [])) ↔
        bytes.length ≤ imageSize ∧ (eof = true → bytes = []) := by
      constructor
      · intro all
        exact all bytes eof rfl
      · rintro fine _ _ ⟨⟩
        exact fine
    rw [only]
    dsimp only
    rw [loadBinLoop_eq eof bytes (counted_empty base), start]
    by_cases beyond : imageSize < bytes.length
    · rw [if_pos beyond]
      exact iff_of_false (by rintro ⟨⟩) fun fine => absurd fine.1 (by omega)
    · have fits := Nat.le_of_not_lt beyond
      rw [if_neg beyond]
      cases eof with
      | false => exact iff_of_true rfl ⟨fits, by rintro ⟨⟩⟩
      | true =>
        rw [if_pos rfl]
        dsimp only
        rw [cells_append base fits]
        constructor
        · rintro ⟨bytes', eof', _, addressed⟩
          refine ⟨fits, fun _ => ?_⟩
          by_cases none : bytes = []
          · exact none
          · rw [if_neg none] at addressed
            cases addressed
        · rintro ⟨_, none⟩
          refine ⟨bytes, true, rfl, ?_⟩
          rw [if_pos (none rfl), none rfl]
          rfl

/-- A byte is loaded and not addressed; a byte too many is stored behind the buffer. -/
theorem bin_not_loaded :
    ¬ LoadsBin 0x8000 (some ([0x55], true)) ∧
      fotaLoadBin 0x8000 (some (List.replicate (imageSize + 1) 0x55, true)) = .error .fault := by
  constructor
  · unfold LoadsBin fotaLoadBin
    dsimp only
    rw [loadBinLoop_eq true _ (counted_empty 0x8000), if_neg (by decide), if_pos rfl]
    rintro ⟨bytes, eof, _, addressed⟩
    rw [cells_append 0x8000 (by decide), if_neg (by decide)] at addressed
    cases addressed
  · unfold fotaLoadBin
    dsimp only
    rw [loadBinLoop_eq true _ (counted_empty 0x8000), List.length_replicate]
    exact if_pos (by decide)

end Fota
