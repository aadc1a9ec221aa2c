import Mathlib.Data.List.Basic
import Mathlib.Data.UInt

/-!
# SCOM messages

`msg_parse.c`, and the loops that fill its decoders (`scom_main` and the TCP clients of
`assist.c`). A buffer is the list of its bytes in use. `NULL` as input of `msg_encode` is
the empty list.
-/

namespace Msg

def dccpPkgMarker : UInt8 := 0x7E
def dccpPkgEsc : UInt8 := 0x7D
def dccpPkgMarkerSize : Nat := 1
def dccpPkgCsSize : Nat := 1

inductive MsgSeg
  | firstSeg | middleSeg | lastSeg
  deriving DecidableEq

def msgChecksum (buf : List UInt8) (cs : UInt8) : UInt8 :=
  if buf.length = 0 then 0 else buf.foldl (· ^^^ ·) cs

/-! ### Encoding -/

/-- The loop of `msg_convert` with `j` bytes written: whether it took all of the input, and
the bytes it writes. -/
def msgConvertLoop (dstLen : Int) (marker esc : UInt8) : Nat → List UInt8 → Bool × List UInt8
  | _, [] => (true, [])
  | j, c :: src =>
    if j < dstLen then
      -- such a byte becomes two, or none if only one fits
      if c = marker ∨ c = esc then
        if j + 1 < dstLen then
          let (done, dst) := msgConvertLoop dstLen marker esc (j + 2) src
          (done, esc :: (if c = marker then 0x02 else 0x01) :: dst)
        else (false, [])
      else
        let (done, dst) := msgConvertLoop dstLen marker esc (j + 1) src
        (done, c :: dst)
    else (false, [])

/-- The result and the bytes written. -/
def msgConvert (src : List UInt8) (dstLen : Int) (marker esc : UInt8) : Int × List UInt8 :=
  let (done, dst) := msgConvertLoop dstLen marker esc 0 src
  (if done then dst.length else -1, dst)

/-- The result, the bytes written from `omsg` on and `*base_cs`. -/
structure Encoded where
  ret : Int
  omsg : List UInt8
  baseCs : UInt8

def msgEncode (imsg : List UInt8) (olen : UInt32) (flag : MsgSeg) (baseCs : UInt8) : Encoded :=
  -- the checksum runs over all segments of a message
  let (baseCs, start) :=
    if flag = .firstSeg then ((0 : UInt8), [dccpPkgMarker]) else (baseCs, [])
  let data :=
    if 0 < imsg.length then
      msgConvert imsg (olen - UInt32.ofNat start.length).toInt32.toInt dccpPkgMarker dccpPkgEsc
    else (0, [])
  if data.1 = -1 then ⟨-1, start ++ data.2, baseCs⟩
  else
    let baseCs := if 0 < imsg.length then msgChecksum imsg baseCs else baseCs
    let out := start ++ data.2
    if flag = .lastSeg then
      -- unsigned: the end marker's place is taken off even when there is none left
      let room := olen - UInt32.ofNat out.length - UInt32.ofNat dccpPkgMarkerSize
      let cs := msgConvert [baseCs] room.toInt32.toInt dccpPkgMarker dccpPkgEsc
      if cs.1 = -1 then ⟨-1, out ++ cs.2, baseCs⟩
      else
        let out := out ++ cs.2 ++ [dccpPkgMarker]
        ⟨out.length, out, baseCs⟩
    else ⟨out.length, out, baseCs⟩

/-! ### Checking a frame -/

/-- `none` is -1. Behind an escape byte at the end lies the end marker, which is no escaped
byte. -/
def msgReverse (marker esc : UInt8) : List UInt8 → Option (List UInt8)
  | [] => some []
  | c :: rest =>
    if c ≠ esc then (msgReverse marker esc rest).map (c :: ·)
    else
      match rest with
      | [] => none
      | e :: rest =>
        if e = 0x01 then (msgReverse marker esc rest).map (esc :: ·)
        else if e = 0x02 then (msgReverse marker esc rest).map (marker :: ·)
        else none

/-- The bytes before the checksum when it is right. -/
def msgCheck (buf : List UInt8) : Option (List UInt8) :=
  if buf.length ≤ 0 then none
  else
    match msgReverse dccpPkgMarker dccpPkgEsc buf with
    | none => none
    | some buf =>
      if buf.length < dccpPkgCsSize then none
      else if msgChecksum buf.dropLast 0 ≠ buf.getLastD 0 then none
      else some buf.dropLast

def msgFindDccp (rxbuf : List UInt8) : Option Nat := rxbuf.findIdx? (· == dccpPkgMarker)

/-! ### Decoding -/

/-- The loop of `msg_decode` on the bytes before `*w_pos`: the messages passed on, `*r_pos`
and `start_pos`. Each round takes at least one byte. -/
def msgDecodeLoop (msg : List UInt8) :
    Nat → Nat → Option Nat → List (List UInt8) × Nat × Option Nat
  | 0, rPos, startPos => ([], rPos, startPos)
  | rounds + 1, rPos, startPos =>
    if rPos < msg.length then
      match msgFindDccp (msg.drop rPos), startPos with
      -- no marker in the rest, which is kept
      | none, startPos => msgDecodeLoop msg rounds msg.length startPos
      -- the marker opens a frame
      | some ret, none => msgDecodeLoop msg rounds (rPos + ret + 1) (some (rPos + ret))
      | some ret, some start =>
        let endPos := rPos + ret
        let len := endPos - start - 1
        match msgCheck ((msg.drop (start + 1)).take len) with
        | some payload =>
          let (out, st) := msgDecodeLoop msg rounds (endPos + 1) none
          (payload :: out, st)
        -- not a frame: the end marker may open the next one
        | none => msgDecodeLoop msg rounds (endPos + 1) (some endPos)
    else ([], rPos, startPos)

/-- The bytes before `*w_pos`, `*r_pos` and the static `start_pos`, where `none` is -1. -/
structure MsgRead where
  msg : List UInt8
  rPos : Nat
  startPos : Option Nat
  deriving DecidableEq

/-- `sizeof(msg) - 16` for the pointer `msg` of the 32-bit target. -/
def msgDecodeLimit : Nat := 2 ^ 32 + 4 - 16

def msgDecode (rd : MsgRead) : List (List UInt8) × MsgRead :=
  let (out, rPos, startPos) :=
    msgDecodeLoop rd.msg (rd.msg.length - rd.rPos) rd.rPos rd.startPos
  match startPos with
  | none => (out, ⟨[], 0, none⟩)
  | some start =>
    -- the size of a pointer, not of the buffer
    if rPos - start ≥ msgDecodeLimit ∨ rPos ≤ start then (out, ⟨[], 0, none⟩)
    else
      let msg := rd.msg.drop start
      (out, ⟨msg, msg.length, some 0⟩)

/-- The loop of `msg_decodex` on the bytes in use. -/
def msgDecodexLoop (data : List UInt8) :
    Nat → Nat → Option Nat → List (List UInt8) × Nat × Option Nat
  | 0, rPos, startPos => ([], rPos, startPos)
  | rounds + 1, rPos, startPos =>
    if rPos < data.length then
      match msgFindDccp (data.drop rPos), startPos with
      | none, startPos => msgDecodexLoop data rounds data.length startPos
      | some ret, none => msgDecodexLoop data rounds (rPos + ret + 1) (some (rPos + ret))
      | some ret, some start =>
        let endPos := rPos + ret
        let rPos := endPos + 1
        let len : Int := endPos - start - dccpPkgCsSize
        let checked :=
          if len ≤ 0 then none
          else msgCheck ((data.drop (start + dccpPkgMarkerSize)).take len.toNat)
        match checked with
        | none => msgDecodexLoop data rounds rPos (some endPos)
        | some payload =>
          let (out, st) := msgDecodexLoop data rounds rPos none
          (payload :: out, st)
    else ([], rPos, startPos)

/-- The messages passed on, and the bytes in use after it. -/
def msgDecodex (size : Nat) (data : List UInt8) : List (List UInt8) × List UInt8 :=
  let (out, rPos, startPos) := msgDecodexLoop data data.length 0 none
  match startPos with
  | none => (out, [])
  | some start =>
    -- a frame that would not fit any more is given up
    if (rPos : Int) - start ≥ (size : Int) - 16 then (out, [])
    else (out, data.drop start)

/-! ### Receiving -/

/-- `scom_main` when `chunk` comes in, at most as much as it asks for. -/
def scomReceive (size : Nat) (rd : MsgRead) (chunk : List UInt8) :
    Option (List (List UInt8) × MsgRead) :=
  -- a full buffer without a frame is thrown away
  let rd : MsgRead := if rd.msg.length ≥ size then { rd with msg := [], rPos := 0 } else rd
  if size - rd.msg.length < chunk.length then none
  else if 0 < chunk.length then some (msgDecode { rd with msg := rd.msg ++ chunk })
  else some ([], rd)

/-- `assist.c` when `chunk` comes in for a client, at most as much as it asks for. -/
def assistReceive (size : Nat) (data chunk : List UInt8) :
    Option (List (List UInt8) × List UInt8) :=
  let data := if data.length ≥ size then [] else data
  if size - data.length < chunk.length then none
  else if 0 < chunk.length then some (msgDecodex size (data ++ chunk))
  else none

/-- What a receive loop passes on for a list of chunks. -/
def receiveAll {S : Type} (receive : S → List UInt8 → Option (List (List UInt8) × S)) :
    S → List (List UInt8) → Option (List (List UInt8))
  | _, [] => some []
  | st, chunk :: chunks => do
    let (out, st) ← receive st chunk
    let more ← receiveAll receive st chunks
    some (out ++ more)

end Msg
