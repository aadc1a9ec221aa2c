import Mathlib.Data.UInt

/-!
# Loading image files

`fota_load_s19` and `fota_load_hex` of `fota_img.c` for the 32-bit target. A file is the
list of its bytes. What the code reads without having written it (the rest of `data` and
of `line_buf` behind a short line) is a parameter; an access outside `img->buff` is
`fault`.
-/

namespace Fota

/-! ### Characters and lines -/

def isspace (c : UInt8) : Bool := c == 0x20 || (0x09 ≤ c && c ≤ 0x0d)
def isdigit (c : UInt8) : Bool := 0x30 ≤ c && c ≤ 0x39
def isxdigit (c : UInt8) : Bool := isdigit c || (0x41 ≤ c && c ≤ 0x46) || (0x61 ≤ c && c ≤ 0x66)
def toupper (c : UInt8) : UInt8 := if 0x61 ≤ c && c ≤ 0x7a then c - 0x20 else c

/-- The strings that calls of `fgets` with a buffer of `room + 1` bytes return: a line, or
as much of it as fits. `line` was read so far, `left` bytes still fit. -/
def fgets (room : Nat) : List UInt8 → Nat → List UInt8 → List (List UInt8)
  | line, _, [] => if line = [] then [] else [line]
  | line, left, c :: rest =>
    if c = 0x0a ∨ left ≤ 1 then (line ++ [c]) :: fgets room [] room rest
    else fgets room (line ++ [c]) (left - 1) rest

/-- `cutspace` on the string in the buffer, which a zero byte ends. A blank line is trimmed here
as it is behind a byte that is no white space. -/
def cutspace (str : List UInt8) : List UInt8 :=
  (((str.takeWhile (· != 0)).dropWhile isspace).reverse.dropWhile isspace).reverse

def hexval (c : UInt8) : UInt8 := if isdigit c then c - 0x30 else toupper c - 0x41 + 10

/-- The loop of `hex2bin`: the bytes and where it stopped. -/
def hex2binLoop : List UInt8 → List UInt8 × List UInt8
  | hi :: lo :: hex =>
    if isxdigit hi && isxdigit lo then
      let (bin, rest) := hex2binLoop hex
      ((hexval hi * 16 + hexval lo) :: bin, rest)
    else ([], hi :: lo :: hex)
  | hex => ([], hex)

/-- The result and the bytes written. -/
def hex2bin (hex : List UInt8) : Int × List UInt8 :=
  let (bin, rest) := hex2binLoop hex
  if rest.headD 0 ≠ 0 ∧ rest.headD 0 ≠ 0x20 then (-1, bin) else (bin.length, bin)

def checksumS19 (data : List UInt8) : Int :=
  (data.getLastD 0).toNat - (~~~ data.dropLast.sum).toNat

def checksumHex (data : List UInt8) : Int :=
  (data.getLastD 0).toNat - (~~~ data.dropLast.sum + 1).toNat

/-! ### The image -/

def imageMaxSect : Nat := 128

/-- `sizeof(img->buff)`. -/
def imageSize : Nat := 1024 * 1024

/-- `img_sect_t`; `data` is an offset in `img->buff`. -/
structure ImgSect where
  base : UInt32
  size : UInt32
  data : Nat
  deriving DecidableEq

/-- `fota_img_t` while it is loaded: the sections before the one in use, this one (those
after it are zero), and the bytes of `buff` before `mpos`. -/
structure FotaImg where
  done : List ImgSect
  sect : ImgSect
  buff : List UInt8
  deriving DecidableEq

/-- After the `memset`. -/
def FotaImg.empty : FotaImg := ⟨[], ⟨0, 0, 0⟩, []⟩

/-- `FOR_EACH_IMGSECT`. -/
def FotaImg.sects (img : FotaImg) : List ImgSect :=
  (img.done ++ [img.sect]).takeWhile (·.size != 0)

def FotaImg.bytes (img : FotaImg) (sect : ImgSect) : List UInt8 :=
  (img.buff.drop sect.data).take sect.size.toNat

inductive LoadErr
  | fail | fault
  deriving DecidableEq, Repr

/-- The section for `dlen` bytes at `base`; `none` when there are too many. -/
def fotaSection (wsize : Nat) (base dlen : UInt32) (img : FotaImg) : Option FotaImg :=
  let img? :=
    if img.sect.size ≠ 0 then
      -- the data go on where the section ends
      if img.sect.base + (img.sect.size >>> UInt32.ofNat wsize) = base then
        some { img with sect := { img.sect with size := img.sect.size + dlen } }
      else if img.done.length + 1 < imageMaxSect then
        some { img with done := img.done ++ [img.sect], sect := ⟨0, 0, 0⟩ }
      else none
    else some img
  img?.map fun img =>
    if img.sect.size = 0 then { img with sect := ⟨base, dlen, img.buff.length⟩ } else img

/-- From the size check on: the section and the copy of `dlen` bytes at `dpos`. `buff` is
the address of `img->buff`. -/
def fotaStore (buff : UInt32) (wsize : Nat) (base dlen : UInt32) (dpos : List UInt8)
    (img : FotaImg) : Except LoadErr FotaImg :=
  -- addresses: the sums wrap at 32 bits
  let mpos := buff + UInt32.ofNat img.buff.length
  if mpos + dlen > buff + UInt32.ofNat imageSize then .error .fail
  else
    match fotaSection wsize base dlen img with
    | none => .error .fail
    | some img =>
      -- what the check has let through may still be outside
      if img.buff.length + dlen.toNat ≤ imageSize then
        .ok { img with buff := img.buff ++ dpos.take dlen.toNat }
      else .error .fault

/-! ### The loaders -/

/-- `base` after the loop over the address bytes, the first of them at index 1. -/
def s19Base (data : Nat → UInt8) (type : UInt32) : UInt32 :=
  (List.range (type.toNat + 1)).foldl (fun base i => base * 256 + (data (i + 1)).toUInt32) 0

/-- One round of the loop of `fota_load_s19`; `junk` is what `data` holds beyond the bytes
written. -/
def fotaLoadS19Line (buff : UInt32) (wsize : Nat) (junk : Nat → UInt8) (img : FotaImg)
    (lineBuf : List UInt8) : Except LoadErr FotaImg :=
  let line := cutspace lineBuf
  if line = [] then .ok img
  else
    -- two characters as one number, so `S1` to `S3` are 1 to 3
    let type := (line.getD 0 0).toUInt32 * 0x100 + (line.getD 1 0).toUInt32 - 0x5330
    if line.getD 0 0 ≠ 0x53 ∨ type < 1 ∨ type > 3 then .ok img
    else
      let (cnt, bin) := hex2bin (line.drop 2)
      let data := fun i => bin.getD i (junk i)
      let dlen := (Int32.ofInt cnt).toUInt32
      if dlen ≤ 0 ∨ dlen ≠ (data 0).toUInt32 + 1 then .error .fail
      else if checksumS19 bin ≠ 0 then .error .fail
      else
        let base := s19Base data type
        -- without count, address and checksum
        let dlen := dlen - 2 - (type + 1)
        if dlen &&& ((1 <<< UInt32.ofNat wsize) - 1) ≠ 0 then .error .fail
        else fotaStore buff wsize base dlen (bin.drop (type.toNat + 2)) img

/-- `file` is what can be read of the file and whether its end was reached, `none` if it
cannot be opened. -/
def fotaLoadS19 (buff : UInt32) (wsize : Nat) (junk : Nat → UInt8)
    (file : Option (List UInt8 × Bool)) : Except LoadErr FotaImg :=
  match file with
  | none => .error .fail
  | some (bytes, eof) => do
    let img ← (fgets 514 [] 514 bytes).foldlM (fotaLoadS19Line buff wsize junk) .empty
    if eof then .ok img else .error .fail

/-- One round of the loop of `fota_load_hex` with `seg` and the image; `stale` is what
`line_buf` holds behind a line that is too short to have a record type. -/
def fotaLoadHexLine (buff : UInt32) (junk : Nat → UInt8) (st : UInt32 × FotaImg)
    (lineBuf : List UInt8 × UInt8) : Except LoadErr (UInt32 × FotaImg) :=
  let (seg, img) := st
  let (lineBuf, stale) := lineBuf
  let line := cutspace lineBuf
  if line = [] then .ok (seg, img)
  else
    -- the record's type is its ninth character
    let type : Int := (if line.length < 8 then stale else line.getD 8 0).toNat - 0x30
    if line.getD 0 0 ≠ 0x3a ∨ (type ≠ 2 ∧ type ≠ 4 ∧ type ≠ 0) then .ok (seg, img)
    else
      let (dlen, bin) := hex2bin (line.drop 1)
      let data := fun i => bin.getD i (junk i)
      if dlen ≤ 0 ∨ dlen ≠ (data 0).toNat + 5 then .error .fail
      else if checksumHex bin ≠ 0 then .error .fail
      -- a segment or an upper address for the records that follow
      else if type ≠ 0 then
        .ok (((data 4).toUInt32 * 0x100 + (data 5).toUInt32) <<<
          (1 <<< UInt32.ofNat type.toNat), img)
      else
        let off := (data 1).toUInt32 * 0x100 + (data 2).toUInt32
        (fotaStore buff 0 (seg + off) (data 0).toUInt32 (bin.drop 4) img).map fun img => (seg, img)

/-- `stale` gives the byte for each line. -/
def fotaLoadHex (buff : UInt32) (junk stale : Nat → UInt8) (file : Option (List UInt8 × Bool)) :
    Except LoadErr FotaImg :=
  match file with
  | none => .error .fail
  | some (bytes, eof) => do
    let lines := (fgets 522 [] 522 bytes).zipIdx.map fun (line, i) => (line, stale i)
    let (_, img) ← lines.foldlM (fotaLoadHexLine buff junk) (0, .empty)
    if eof then .ok img else .error .fail

end Fota
