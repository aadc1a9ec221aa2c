import TBoxMpu.Lib.Fallible
import TBoxMpu.Lib.Machines

/-!
# Multi-packet messages of J1939

`J1939_msg_decode` and the parser of DM1 behind it. A transfer is announced by a TP.CM
frame and sent in TP.DT frames of seven bytes. The receiver keeps one transfer for each
source address: it takes neither the port nor the announced parameter group into account.

A packet is always copied inside the buffer of its source address. `J1939_add_dm_data` reads
as many trouble codes as the announced size has room for, whatever was received: a run keeps
beside the buffers which bytes arrived with the packets of the transfer, and no other byte is
read exactly if the packets cover the whole trouble codes of the size (`dm_bounds_iff`). The
codes are put into an array of 256 besides, which a size from 1030 on overruns.
-/

open Machines

namespace Uds

/-! ### The receiver -/

/-- A frame with an extended identifier, as `J1939_can_callback` passes it on. -/
structure J1939Frame where
  canid : UInt32
  port : UInt8
  data : Vector UInt8 8
  dlc : UInt8

def J1939Frame.sa (f : J1939Frame) : UInt8 := f.canid.toUInt8

def J1939Frame.pgn (f : J1939Frame) : UInt32 := (f.canid >>> 8) &&& 0x3ffff

def pgnDm1 : UInt32 := 0xFECA

def pgnTpCm : UInt32 := 0xECFF

def pgnTpDt : UInt32 := 0xEBFF

/-- `DTC_MF_T` -/
structure DtcMf where
  totalSize : UInt16
  no : UInt8
  totalNo : UInt8
  buff : List UInt8

/-- `dtc_buff` -/
abbrev DtcBuff := UInt8 → DtcMf

/-- `sizeof(dtc_buff[sa].buff)` -/
def dtcBuffSize : Nat := 256 * 7

def DtcBuff.initial : DtcBuff := fun _ => ⟨0, 0, 0, List.replicate dtcBuffSize 0⟩

/-- A call of `J1939_add_dm_data`. -/
structure DmCall where
  port : UInt8
  sa : UInt8
  data : List UInt8
  deriving DecidableEq, Repr

def DtcBuff.put (s : DtcBuff) (sa : UInt8) (t : DtcMf) : DtcBuff :=
  fun x => if x = sa then t else s x

def copyTo (buff : List UInt8) (pos : Nat) (bytes : List UInt8) : List UInt8 :=
  buff.take pos ++ bytes ++ buff.drop (pos + bytes.length)

/-- The transfer is given up, or done. -/
def DtcMf.clear (t : DtcMf) : DtcMf := { t with no := 0, totalNo := 0, totalSize := 0 }

/-- TP.CM, of whatever kind and for whatever parameter group. -/
def j1939Announce (s : DtcBuff) (f : J1939Frame) : DtcBuff :=
  s.put f.sa { s f.sa with
    totalSize := f.data[2].toUInt16 <<< 8 ||| f.data[1].toUInt16
    totalNo := f.data[3]
    no := 0 }

/-- The bytes of a packet are stored. -/
def DtcMf.store (t : DtcMf) (f : J1939Frame) : DtcMf :=
  { t with
    no := f.data[0]
    buff := copyTo t.buff (7 * (f.data[0].toNat - 1)) (f.data.toList.drop 1) }

/-- TP.DT -/
def j1939Packet (s : DtcBuff) (f : J1939Frame) : DtcBuff × Option DmCall :=
  let t := s f.sa
  -- out of order: the whole transfer is given up
  if f.data[0] > t.totalNo ∨ f.data[0].toNat ≠ t.no.toNat + 1 then (s.put f.sa t.clear, none)
  else if f.data[0] = t.totalNo then
    let t := t.store f
    -- the port is that of the last packet, the group is not looked at
    (s.put f.sa t.clear, some ⟨f.port, f.sa, t.buff.take t.totalSize.toNat⟩)
  else (s.put f.sa (t.store f), none)

/-- `J1939_msg_decode`, without the answer to a request for DM2. -/
def j1939MsgDecode (s : DtcBuff) (f : J1939Frame) : DtcBuff × Option DmCall :=
  if f.pgn = pgnDm1 then (s, some ⟨f.port, f.sa, f.data.toList.take f.dlc.toNat⟩)
  else if f.pgn = pgnTpCm then (j1939Announce s f, none)
  else if f.pgn = pgnTpDt then j1939Packet s f
  else (s, none)

/-- What frames leave behind. -/
def DtcBuff.after (frames : List J1939Frame) : DtcBuff :=
  frames.foldl (fun s f => (j1939MsgDecode s f).1) .initial

/-! ### Transfers -/

/-- What a sender broadcasts: a message of a parameter group, from 9 to 1785 bytes. -/
structure BamTransfer where
  port : UInt8
  sa : UInt8
  pgn : UInt32
  data : List UInt8
  long : 9 ≤ data.length
  short : data.length ≤ 1785

variable {T : BamTransfer}

def BamTransfer.count (T : BamTransfer) : Nat := (T.data.length + 6) / 7

/-- The frame announces the transfer: BAM, the size, the number of packets and the group. -/
structure BamTransfer.Announce (T : BamTransfer) (f : J1939Frame) : Prop where
  port : f.port = T.port
  sa : f.sa = T.sa
  pgn : f.pgn = pgnTpCm
  bam : f.data[0] = 0x20
  size : f.data[1].toNat + 256 * f.data[2].toNat = T.data.length
  packets : f.data[3].toNat = T.count
  group : f.data[5].toUInt32 ||| f.data[6].toUInt32 <<< 8 ||| f.data[7].toUInt32 <<< 16 = T.pgn

/-- The frame is packet `k`, counted from zero; what follows the data in the last one is any
padding. -/
structure BamTransfer.Packet (T : BamTransfer) (k : Nat) (f : J1939Frame) : Prop where
  port : f.port = T.port
  sa : f.sa = T.sa
  pgn : f.pgn = pgnTpDt
  no : f.data[0].toNat = k + 1
  data : (f.data.toList.drop 1).take (T.data.length - 7 * k) = (T.data.drop (7 * k)).take 7

/-- The frames are the packets from `k` on. -/
def BamTransfer.PacketsFrom (T : BamTransfer) (k : Nat) (frames : List J1939Frame) : Prop :=
  k + frames.length = T.count ∧ ∀ i f, frames[i]? = some f → T.Packet (k + i) f

/-- Frames of a transfer, marked, among others. -/
abbrev Stream := List (Bool × J1939Frame)

def ownFrames (stream : Stream) : List J1939Frame :=
  (stream.filter (·.1)).map (·.2)

/-- The frame is one of a multi-packet message of the source address. -/
def TouchesSession (sa : UInt8) (f : J1939Frame) : Prop :=
  f.sa = sa ∧ (f.pgn = pgnTpCm ∨ f.pgn = pgnTpDt)

/-- No other multi-packet message has frames of this source address. -/
def Undisturbed (sa : UInt8) (stream : Stream) : Prop :=
  ∀ f, (false, f) ∈ stream → ¬ TouchesSession sa f

/-- The calls of the parser that are made at the marked frames. -/
def ownCalls (s : DtcBuff) : Stream → List DmCall
  | [] => []
  | (own, f) :: rest =>
    let (s, call) := j1939MsgDecode s f
    (if own then call.toList else []) ++ ownCalls s rest

/-- The data is parsed once and as it was sent if it is that of DM1, and else not at all. -/
def BamTransfer.Right (T : BamTransfer) (calls : List DmCall) : Prop :=
  calls = if T.pgn = pgnDm1 then [⟨T.port, T.sa, T.data⟩] else []

/-! ### Reassembly -/

/-- The first `k` packets are stored. -/
structure Stored (T : BamTransfer) (k : Nat) (t : DtcMf) : Prop where
  size : t.totalSize.toNat = T.data.length
  total : t.totalNo.toNat = T.count
  no : t.no.toNat = k
  length : t.buff.length = dtcBuffSize
  data : t.buff.take (min (7 * k) T.data.length) = T.data.take (7 * k)

theorem BamTransfer.count_le (T : BamTransfer) : T.count ≤ 255 := by
  have short := T.short
  unfold count
  omega

theorem BamTransfer.count_pos (T : BamTransfer) : 2 ≤ T.count := by
  have long := T.long
  unfold count
  omega

theorem put_same (s : DtcBuff) (sa : UInt8) (t : DtcMf) : s.put sa t sa = t :=
  if_pos rfl

/-- Another frame leaves the session as it was. -/
theorem msgDecode_other {sa : UInt8} {f : J1939Frame} (other : ¬ TouchesSession sa f)
    (s : DtcBuff) : (j1939MsgDecode s f).1 sa = s sa := by
  have put : ∀ t, f.pgn = pgnTpCm ∨ f.pgn = pgnTpDt → s.put f.sa t sa = s sa := by
    intro t multi
    exact if_neg fun same => other ⟨same.symm, multi⟩
  unfold j1939MsgDecode
  split
  · rfl
  · split
    next cm => exact put _ (.inl cm)
    next =>
      split
      next dt =>
        unfold j1939Packet
        dsimp only
        split
        · exact put _ (.inr dt)
        · split
          · exact put _ (.inr dt)
          · exact put _ (.inr dt)
      next => rfl

theorem length_copyTo {buff bytes : List UInt8} {pos : Nat}
    (inside : pos + bytes.length ≤ buff.length) :
    (copyTo buff pos bytes).length = buff.length := by
  unfold copyTo
  rw [List.length_append, List.length_append, List.length_take, List.length_drop]
  omega

/-- Every buffer keeps its size. -/
theorem msgDecode_length {s : DtcBuff} (start : ∀ sa, (s sa).buff.length = dtcBuffSize)
    (f : J1939Frame) (sa : UInt8) : ((j1939MsgDecode s f).1 sa).buff.length = dtcBuffSize := by
  have put : ∀ t : DtcMf, t.buff.length = dtcBuffSize → (s.put f.sa t sa).buff.length = dtcBuffSize := by
    intro t length
    unfold DtcBuff.put
    split
    · exact length
    · exact start sa
  have copied : ((s f.sa).store f).buff.length = dtcBuffSize := by
    have small := f.data[0].toNat_lt
    refine (length_copyTo ?_).trans (start f.sa)
    rw [start f.sa, List.length_drop, Vector.length_toList, dtcBuffSize]
    omega
  unfold j1939MsgDecode
  split
  · exact start sa
  · split
    · exact put _ (start f.sa)
    · split
      · unfold j1939Packet
        dsimp only
        split
        · exact put _ (start f.sa)
        · split
          · exact put _ copied
          · exact put _ copied
      · exact start sa

theorem after_length (frames : List J1939Frame) (sa : UInt8) :
    (DtcBuff.after frames sa).buff.length = dtcBuffSize := by
  unfold DtcBuff.after
  have start : ∀ sa, (DtcBuff.initial sa).buff.length = dtcBuffSize := fun _ => List.length_replicate
  generalize DtcBuff.initial = s at start
  induction frames generalizing s with
  | nil => exact start sa
  | cons f rest ih => exact ih _ fun sa => msgDecode_length start f sa

theorem toNat_short (low high : UInt8) :
    (high.toUInt16 <<< 8 ||| low.toUInt16).toNat = low.toNat + 256 * high.toNat := by
  have small := low.toNat_lt
  have small' := high.toNat_lt
  have shifted : (high.toUInt16 <<< 8).toNat = high.toNat <<< 8 := by
    rw [UInt16.toNat_shiftLeft, UInt8.toNat_toUInt16]
    simp [Nat.shiftLeft_eq]
    omega
  rw [UInt16.toNat_or, shifted, UInt8.toNat_toUInt16, ← Nat.shiftLeft_add_eq_or_of_lt small,
    Nat.shiftLeft_eq]
  omega

/-- After its announcement, no packet of the transfer is stored. -/
theorem announce_stored {f : J1939Frame} (announce : T.Announce f) {s : DtcBuff}
    (length : (s T.sa).buff.length = dtcBuffSize) :
    Stored T 0 ((j1939MsgDecode s f).1 T.sa) ∧ (j1939MsgDecode s f).2 = none := by
  unfold j1939MsgDecode
  rw [if_neg (by rw [announce.pgn]; decide), if_pos announce.pgn]
  refine ⟨?_, rfl⟩
  unfold j1939Announce DtcBuff.put
  dsimp only
  rw [if_pos announce.sa.symm, announce.sa]
  refine ⟨?_, announce.packets, rfl, length, ?_⟩
  · rw [toNat_short]
    exact announce.size
  · rw [Nat.mul_zero, Nat.zero_min, List.take_zero, List.take_zero]

theorem take_copyTo {buff bytes : List UInt8} {pos m : Nat} (inside : pos ≤ buff.length)
    (le : m ≤ bytes.length) :
    (copyTo buff pos bytes).take (pos + m) = buff.take pos ++ bytes.take m := by
  have front : (buff.take pos).length = pos := List.length_take_of_le inside
  unfold copyTo
  rw [List.append_assoc, List.take_append, front, Nat.add_sub_cancel_left,
    List.take_append_of_le_length le, List.take_of_length_le (by omega)]

/-- One more packet is stored. -/
theorem Stored.store {k : Nat} {t : DtcMf} {f : J1939Frame} (stored : Stored T k t)
    (open_ : k < T.count) (packet : T.Packet k f) : Stored T (k + 1) (t.store f) := by
  have seven : (f.data.toList.drop 1).length = 7 := by
    rw [List.length_drop, Vector.length_toList]
  have pos : 7 * k < T.data.length := by
    unfold BamTransfer.count at open_
    omega
  have short := T.short
  have place : 7 * (f.data[0].toNat - 1) = 7 * k := by rw [packet.no, Nat.add_sub_cancel]
  have inside : 7 * k ≤ t.buff.length := by
    rw [stored.length, dtcBuffSize]
    omega
  refine ⟨stored.size, stored.total, packet.no, ?_, ?_⟩
  · refine (length_copyTo ?_).trans stored.length
    rw [place, seven, stored.length, dtcBuffSize]
    omega
  · have before := stored.data
    rw [Nat.min_eq_left (Nat.le_of_lt pos)] at before
    -- the bytes of the packet that are data, and not padding
    have split : min (7 * (k + 1)) T.data.length = 7 * k + min 7 (T.data.length - 7 * k) := by omega
    have bytes : (f.data.toList.drop 1).take (min 7 (T.data.length - 7 * k)) =
        (T.data.drop (7 * k)).take 7 := by
      rw [← packet.data, ← List.take_take, List.take_of_length_le]
      rw [List.length_take]
      omega
    unfold DtcMf.store
    dsimp only
    rw [place, split, take_copyTo inside (by rw [seven]; exact Nat.min_le_left ..), before, bytes,
      Nat.mul_add, Nat.mul_one, List.take_add]

/-- A packet that is not the last one is stored, and the last one completes the transfer. -/
theorem packet_decoded {k : Nat} {s : DtcBuff} {f : J1939Frame} (stored : Stored T k (s T.sa))
    (open_ : k < T.count) (packet : T.Packet k f) :
    (k + 1 < T.count ∧ Stored T (k + 1) ((j1939MsgDecode s f).1 T.sa) ∧
      (j1939MsgDecode s f).2 = none) ∨
    (k + 1 = T.count ∧ (j1939MsgDecode s f).2 = some ⟨T.port, T.sa, T.data⟩) := by
  have next := stored.store open_ packet
  have count := T.count_le
  have no := packet.no
  have expected : ¬ (f.data[0] > (s T.sa).totalNo ∨ f.data[0].toNat ≠ (s T.sa).no.toNat + 1) := by
    rintro (beyond | wrong)
    · have beyond := UInt8.lt_iff_toNat_lt.mp beyond
      rw [stored.total, no] at beyond
      omega
    · exact wrong (by rw [no, stored.no])
  unfold j1939MsgDecode
  rw [if_neg (by rw [packet.pgn]; decide), if_neg (by rw [packet.pgn]; decide), if_pos packet.pgn]
  unfold j1939Packet
  dsimp only
  rw [packet.sa, if_neg expected]
  split
  next last =>
    right
    have last := congrArg UInt8.toNat last
    rw [stored.total, no] at last
    refine ⟨last, ?_⟩
    have whole := next.data
    have size := next.size
    have end_ : T.data.length ≤ 7 * (k + 1) := by
      unfold BamTransfer.count at last
      omega
    rw [Nat.min_eq_right end_, List.take_of_length_le end_] at whole
    rw [size, whole, packet.port]
  next more =>
    left
    have more : k + 1 ≠ T.count := by
      intro last
      exact more (UInt8.toNat_inj.mp (by rw [stored.total, no, last]))
    refine ⟨by omega, ?_, rfl⟩
    dsimp only
    rw [put_same]
    exact next

theorem ownCalls_others {s : DtcBuff} {stream : Stream} (none : ownFrames stream = []) :
    ownCalls s stream = [] := by
  induction stream generalizing s with
  | nil => rfl
  | cons head rest ih =>
    obtain ⟨own, f⟩ := head
    cases own with
    | true => cases none
    | false => exact ih none

/-- An undisturbed transfer is parsed at its last packet. -/
theorem ownCalls_packets {k : Nat} {s : DtcBuff} {stream : Stream}
    (stored : Stored T k (s T.sa)) (open_ : k < T.count) (undisturbed : Undisturbed T.sa stream)
    (packets : T.PacketsFrom k (ownFrames stream)) :
    ownCalls s stream = [⟨T.port, T.sa, T.data⟩] := by
  induction stream generalizing k s with
  | nil =>
    have length := packets.1
    simp only [ownFrames, List.filter_nil, List.map_nil, List.length_nil] at length
    omega
  | cons head rest ih =>
    obtain ⟨own, f⟩ := head
    have later : Undisturbed T.sa rest := fun g mem => undisturbed g (List.mem_cons_of_mem _ mem)
    cases own with
    | false =>
      have same := msgDecode_other (undisturbed f (List.mem_cons_self ..)) s
      exact ih (same ▸ stored) open_ later packets
    | true =>
      obtain ⟨length, each⟩ := packets
      have others : T.PacketsFrom (k + 1) (ownFrames rest) := by
        constructor
        · simp only [ownFrames, List.filter_cons, List.map_cons, List.length_cons, if_true] at length
          rw [← length, ownFrames, Nat.add_assoc, Nat.add_comm 1]
        · intro i g found
          rw [Nat.add_assoc, Nat.add_comm 1]
          exact each (i + 1) g found
      unfold ownCalls
      dsimp only
      rcases packet_decoded stored open_ (each 0 f rfl) with ⟨more, stored', none⟩ | ⟨last, call⟩
      · rw [none]
        exact ih stored' more later others
      · have done : ownFrames rest = [] := by
          have left := others.1
          exact List.eq_nil_of_length_eq_zero (by omega)
        rw [call, ownCalls_others done]
        rfl

/-- Whatever came before, a transfer whose source address sends no other multi-packet message
meanwhile is handled right exactly if it announces DM1. -/
theorem reassembled_iff (T : BamTransfer) (before : List J1939Frame) {announcement : J1939Frame}
    (announce : T.Announce announcement) {stream : Stream} (packets : T.PacketsFrom 0 (ownFrames stream))
    (undisturbed : Undisturbed T.sa stream) :
    T.Right (ownCalls (.after before) ((true, announcement) :: stream)) ↔ T.pgn = pgnDm1 := by
  have count := T.count_pos
  obtain ⟨stored, none⟩ := announce_stored announce (after_length before T.sa)
  have calls : ownCalls (.after before) ((true, announcement) :: stream) =
      [⟨T.port, T.sa, T.data⟩] := by
    unfold ownCalls
    dsimp only
    rw [none]
    exact ownCalls_packets stored (by omega) undisturbed packets
  rw [BamTransfer.Right, calls]
  split
  next dm1 => exact ⟨fun _ => dm1, fun _ => rfl⟩
  next other => exact ⟨nofun, fun dm1 => absurd dm1 other⟩

/-! ### Three transfers -/

/-- Nine bytes of DM1: the lamps, one trouble code, three bytes more. -/
def sampleDm1 : BamTransfer := ⟨1, 0x00, pgnDm1, [4, 0, 11, 22, 3, 1, 0xFF, 0xFF, 0xFF], by decide, by decide⟩

/-- The same bytes from another port, and for another parameter group. -/
def otherPort : BamTransfer := { sampleDm1 with port := 2 }

def otherGroup : BamTransfer := { sampleDm1 with pgn := 0xFEE3 }

def announcementOf (T : BamTransfer) : J1939Frame where
  canid := 0x1CECFF00 ||| T.sa.toUInt32
  port := T.port
  data := #v[0x20, UInt8.ofNat T.data.length, UInt8.ofNat (T.data.length / 256), UInt8.ofNat T.count,
    0xFF, T.pgn.toUInt8, (T.pgn >>> 8).toUInt8, (T.pgn >>> 16).toUInt8]
  dlc := 8

def packetOf (T : BamTransfer) (k : Nat) : J1939Frame where
  canid := 0x1CEBFF00 ||| T.sa.toUInt32
  port := T.port
  data :=
    let byte (i : Nat) := T.data.getD (7 * k + i) 0xFF
    #v[UInt8.ofNat (k + 1), byte 0, byte 1, byte 2, byte 3, byte 4, byte 5, byte 6]
  dlc := 8

theorem packets_of_two {T : BamTransfer} (two : T.count = 2) (first : T.Packet 0 (packetOf T 0))
    (second : T.Packet 1 (packetOf T 1)) : T.PacketsFrom 0 [packetOf T 0, packetOf T 1] := by
  refine ⟨by rw [two]; rfl, ?_⟩
  intro i f found
  match i with
  | 0 => cases found; exact first
  | 1 => cases found; exact second
  | i + 2 => cases found

/-- The packets, with one of another source address in between. -/
def sampleStream : Stream :=
  [(true, packetOf sampleDm1 0), (false, packetOf { sampleDm1 with sa := 3 } 0),
    (true, packetOf sampleDm1 1)]

theorem dm1_parsed_once :
    sampleDm1.Right (ownCalls (.after []) ((true, announcementOf sampleDm1) :: sampleStream)) := by
  have announce : sampleDm1.Announce (announcementOf sampleDm1) := by
    constructor <;> decide
  have packets : sampleDm1.PacketsFrom 0 (ownFrames sampleStream) :=
    packets_of_two (by decide) (by constructor <;> decide) (by constructor <;> decide)
  have undisturbed : Undisturbed sampleDm1.sa sampleStream := by
    intro f mem touches
    have mem : f = packetOf { sampleDm1 with sa := 3 } 0 := by simpa [sampleStream] using mem
    rw [mem] at touches
    exact absurd touches.1 (by decide)
  exact (reassembled_iff sampleDm1 [] announce packets undisturbed).mpr rfl

/-- A transfer is lost when one with the same source address comes from another port, and a
transfer of another parameter group is parsed as DM1. -/
theorem ports_and_groups_mixed :
    ¬ sampleDm1.Right (ownCalls (.after []) [(true, announcementOf sampleDm1),
        (true, packetOf sampleDm1 0), (false, announcementOf otherPort),
        (true, packetOf sampleDm1 1), (false, packetOf otherPort 0),
        (false, packetOf otherPort 1)]) ∧
      ¬ otherGroup.Right (ownCalls (.after []) [(true, announcementOf otherGroup),
        (true, packetOf otherGroup 0), (true, packetOf otherGroup 1)]) := by
  unfold BamTransfer.Right
  constructor
  · decide +kernel
  · decide +kernel

/-! ### The parser -/

/-- `DTC_T` -/
structure Dtc where
  spn : UInt32
  fmi : UInt8
  cm : UInt8
  oc : UInt8
  sa : UInt8
  port : UInt8
  deriving DecidableEq, Repr

/-- What `data` points to, as far as it was received. -/
abbrev Received := Nat → Option UInt8

/-- The four bytes of a trouble code, with the SPN of version 4. -/
def j1939Dtc (b₀ b₁ b₂ b₃ port sa : UInt8) : Dtc where
  spn := b₀.toUInt32 + b₁.toUInt32 * 256 + (b₂ >>> (5 : UInt8)).toUInt32 * 256 * 256
  fmi := b₂ &&& ((0xFF : UInt8) >>> 3)
  cm := b₃ >>> 7
  oc := b₃ &&& ((0xFF : UInt8) >>> 1)
  sa := sa
  port := port

/-- A round of the loop in `J1939_add_dm_data`. -/
def dtcAt (buff : Received) (port sa : UInt8) (j : Nat) : Option Dtc := do
  let b₀ ← buff j
  let b₁ ← buff (j + 1)
  let b₂ ← buff (j + 2)
  let b₃ ← buff (j + 3)
  some (j1939Dtc b₀ b₁ b₂ b₃ port sa)

/-- The rounds of the loop, `i * 4 + 4 <= length`. -/
def codeCount (len : Nat) : Nat := (len - 2) / 4

/-- `J1939_add_dm_data`, the trouble codes that it passes on: `none` where a byte is read that
was not received. -/
def j1939AddDmData (data : Received) (len : Nat) (port sa : UInt8) : Option (List Dtc) :=
  if len ≤ 2 then some []
  else (List.range (codeCount len)).mapM fun i => dtcAt (fun k => data (2 + k)) port sa (i * 4)

/-- The entries of `temp_dtc`. -/
def tempDtcNum : Nat := 256

/-- The end of the last whole trouble code in a message of this size. -/
def codesEnd (size : Nat) : Nat :=
  if size < 6 then 0 else 2 + 4 * codeCount size

theorem dtcAt_isSome {buff : Received} {port sa : UInt8} {j : Nat} :
    (dtcAt buff port sa j).isSome ↔ ∀ k < 4, (buff (j + k)).isSome := by
  unfold dtcAt
  constructor
  · intro read k small
    cases h₀ : buff j with
    | none => rw [h₀] at read; cases read
    | some b₀ =>
      cases h₁ : buff (j + 1) with
      | none => rw [h₀, h₁] at read; cases read
      | some b₁ =>
        cases h₂ : buff (j + 2) with
        | none => rw [h₀, h₁, h₂] at read; cases read
        | some b₂ =>
          cases h₃ : buff (j + 3) with
          | none => rw [h₀, h₁, h₂, h₃] at read; cases read
          | some b₃ =>
            obtain rfl | rfl | rfl | rfl : k = 0 ∨ k = 1 ∨ k = 2 ∨ k = 3 := by omega
            · simp [h₀]
            · simp [h₁]
            · simp [h₂]
            · simp [h₃]
  · intro all
    obtain ⟨b₀, h₀⟩ := Option.isSome_iff_exists.mp (all 0 (by decide))
    obtain ⟨b₁, h₁⟩ := Option.isSome_iff_exists.mp (all 1 (by decide))
    obtain ⟨b₂, h₂⟩ := Option.isSome_iff_exists.mp (all 2 (by decide))
    obtain ⟨b₃, h₃⟩ := Option.isSome_iff_exists.mp (all 3 (by decide))
    rw [Nat.add_zero] at h₀
    simp [h₀, h₁, h₂, h₃]

/-- The parser reads the bytes from the third on, up to the end of the last whole code. -/
theorem addDmData_isSome {data : Received} {len : Nat} {port sa : UInt8} :
    (j1939AddDmData data len port sa).isSome ↔
      ∀ p, 2 ≤ p → p < codesEnd len → (data p).isSome := by
  unfold j1939AddDmData codesEnd
  split
  next short =>
    rw [if_pos (by omega)]
    exact iff_of_true rfl fun p _ none => absurd none (Nat.not_lt_zero p)
  next long =>
    rw [Fallible.mapM_isSome]
    constructor
    · intro rounds p two inside
      have enough : ¬ len < 6 := by
        intro short
        rw [if_pos short] at inside
        omega
      rw [if_neg enough] at inside
      -- the round that reads the byte, and its place in the code
      have read := dtcAt_isSome.mp (rounds ((p - 2) / 4) (List.mem_range.mpr (by omega)))
        ((p - 2) % 4) (Nat.mod_lt _ (by decide))
      have place : 2 + ((p - 2) / 4 * 4 + (p - 2) % 4) = p := by omega
      rwa [place] at read
    · intro all i mem
      have round := List.mem_range.mp mem
      refine dtcAt_isSome.mpr fun k small => all _ (by omega) ?_
      rw [if_neg (by unfold codeCount at round; omega)]
      omega

/-! ### Runs -/

/-- The buffers, and what the packets of each transfer brought since it was announced. -/
structure DmRun where
  buff : DtcBuff
  got : UInt8 → List (List UInt8)

def DmRun.initial : DmRun :=
  ⟨.initial, fun _ => []⟩

/-- The bytes of the frame that were received. -/
def J1939Frame.bytes (f : J1939Frame) : List UInt8 :=
  f.data.toList.take f.dlc.toNat

/-- The packet is the next one of the transfer. -/
def DtcMf.Takes (t : DtcMf) (f : J1939Frame) : Prop :=
  ¬ (f.data[0] > t.totalNo ∨ f.data[0].toNat ≠ t.no.toNat + 1)

instance (t : DtcMf) (f : J1939Frame) : Decidable (t.Takes f) :=
  inferInstanceAs (Decidable (¬ _))

/-- What the transfer brought, with the packet. -/
def DmRun.gotWith (r : DmRun) (f : J1939Frame) : List (List UInt8) :=
  r.got f.sa ++ [f.bytes.drop 1]

/-- What the transfer of the frame's source address brought, after the frame. -/
def DmRun.gotAfter (r : DmRun) (f : J1939Frame) : List (List UInt8) :=
  if f.pgn = pgnTpCm then []
  else if f.pgn = pgnTpDt then
    if (r.buff f.sa).Takes f ∧ f.data[0] ≠ (r.buff f.sa).totalNo then r.gotWith f else []
  else r.got f.sa

def DmRun.step (r : DmRun) (f : J1939Frame) : Unit × DmRun :=
  ((), {
    buff := (j1939MsgDecode r.buff f).1
    got := fun sa => if sa = f.sa then r.gotAfter f else r.got sa })

/-- A byte of the buffer that came with one of the packets. -/
def receivedOf (packets : List (List UInt8)) : Received :=
  fun p => packets[p / 7]?.bind fun bytes => bytes[p % 7]?

/-- Where the frame's bytes are copied to in its buffer, and where they end. -/
def j1939Stores (s : DtcBuff) (f : J1939Frame) : Option (Nat × Nat) :=
  if f.pgn = pgnTpDt ∧ (s f.sa).Takes f then
    some (7 * (f.data[0].toNat - 1), 7 * (f.data[0].toNat - 1) + 7)
  else none

/-- What the parser is called with at the frame. -/
def DmRun.parses (r : DmRun) (f : J1939Frame) : Option (Received × Nat) :=
  if f.pgn = pgnDm1 then some (fun p => f.bytes[p]?, f.dlc.toNat)
  else if f.pgn = pgnTpDt ∧ (r.buff f.sa).Takes f ∧ f.data[0] = (r.buff f.sa).totalNo then
    some (receivedOf (r.gotWith f), (r.buff f.sa).totalSize.toNat)
  else none

/-- The frame is stored inside the buffer, and only what was received is parsed. -/
def DmRun.Bounded (r : DmRun) (f : J1939Frame) : Prop :=
  (∀ start stop, j1939Stores r.buff f = some (start, stop) → stop ≤ dtcBuffSize) ∧
  ∀ data len, r.parses f = some (data, len) → (j1939AddDmData data len f.port f.sa).isSome

/-- The trouble codes have room in `temp_dtc`, else the parser overruns it. -/
def DmRun.Roomy (r : DmRun) (f : J1939Frame) : Prop :=
  ∀ data len, r.parses f = some (data, len) → codeCount len ≤ tempDtcNum

/-- Packets of these lengths have all bytes up to `stop`. -/
def Cover (stop : Nat) (lengths : List Nat) : Prop :=
  ∀ k, 7 * k < stop → ∃ n, lengths[k]? = some n ∧ min 7 (stop - 7 * k) ≤ n

/-- A DM1 message of one frame has fewer than ten bytes; the packets of a transfer that is
complete with the frame cover the whole trouble codes of its size. -/
def DmRun.Fits (r : DmRun) (f : J1939Frame) : Prop :=
  (f.pgn = pgnDm1 → f.dlc.toNat < 10) ∧
  (f.pgn = pgnTpDt → (r.buff f.sa).Takes f → f.data[0] = (r.buff f.sa).totalNo →
    Cover (codesEnd (r.buff f.sa).totalSize.toNat) ((r.gotWith f).map List.length))

/-- A transfer that is complete with the frame has fewer than 1030 bytes. -/
def DmRun.Small (r : DmRun) (f : J1939Frame) : Prop :=
  f.pgn = pgnTpDt → (r.buff f.sa).Takes f → f.data[0] = (r.buff f.sa).totalNo →
    (r.buff f.sa).totalSize.toNat < 1030

/-- The byte of each packet that is read last decides. -/
theorem receivedOf_isSome_iff {packets : List (List UInt8)} {size : Nat} :
    (∀ p, 2 ≤ p → p < codesEnd size → (receivedOf packets p).isSome) ↔
      Cover (codesEnd size) (packets.map List.length) := by
  have whole : codesEnd size = 0 ∨ 6 ≤ codesEnd size := by
    unfold codesEnd codeCount
    split
    · exact .inl rfl
    · right; omega
  unfold receivedOf Cover
  generalize codesEnd size = stop at whole
  constructor
  · intro all k inside
    -- the last byte that is read of packet `k`
    have read := all (7 * k + (min 7 (stop - 7 * k) - 1)) (by omega) (by omega)
    rw [show (7 * k + (min 7 (stop - 7 * k) - 1)) / 7 = k by omega,
      show (7 * k + (min 7 (stop - 7 * k) - 1)) % 7 = min 7 (stop - 7 * k) - 1 by omega] at read
    rw [List.getElem?_map]
    cases packet : packets[k]? with
    | none => rw [packet] at read; cases read
    | some bytes =>
      rw [packet, Option.bind_some, isSome_getElem?] at read
      exact ⟨bytes.length, rfl, by omega⟩
  · intro cover p _ inside
    obtain ⟨n, length, enough⟩ := cover (p / 7) (by omega)
    rw [List.getElem?_map] at length
    cases packet : packets[p / 7]? with
    | none => rw [packet] at length; cases length
    | some bytes =>
      rw [packet] at length
      cases length
      rw [Option.bind_some, isSome_getElem?]
      omega

/-! ### What was received is in the buffer -/

/-- The packets of the transfer are those counted, and their bytes are in the buffer. -/
structure DmRun.Tied (r : DmRun) (sa : UInt8) : Prop where
  length : (r.buff sa).buff.length = dtcBuffSize
  no : (r.got sa).length = (r.buff sa).no.toNat
  bytes : ∀ p b, receivedOf (r.got sa) p = some b → (r.buff sa).buff[p]? = some b

theorem tied_initial (sa : UInt8) : DmRun.initial.Tied sa :=
  ⟨List.length_replicate, rfl, fun _ _ read => nomatch read⟩

theorem receivedOf_append {packets : List (List UInt8)} {last : List UInt8} {p : Nat} {b : UInt8}
    (read : receivedOf (packets ++ [last]) p = some b) :
    p < 7 * packets.length ∧ receivedOf packets p = some b ∨
      ∃ i < 7, p = 7 * packets.length + i ∧ last[i]? = some b := by
  unfold receivedOf at read ⊢
  rcases Nat.lt_trichotomy (p / 7) packets.length with before | same | beyond
  · rw [List.getElem?_append_left before] at read
    exact .inl ⟨by omega, read⟩
  · rw [List.getElem?_append_right (by omega), same, Nat.sub_self] at read
    exact .inr ⟨p % 7, Nat.mod_lt _ (by decide), by omega, read⟩
  · rw [List.getElem?_eq_none (by rw [List.length_append, List.length_singleton]; omega)] at read
    cases read

/-- The bytes of a packet that is taken lie behind those of the packets before. -/
theorem stored_bytes {r : DmRun} {f : J1939Frame} (tied : r.Tied f.sa)
    (takes : (r.buff f.sa).Takes f) {p : Nat} {b : UInt8}
    (read : receivedOf (r.gotWith f) p = some b) :
    ((r.buff f.sa).store f).buff[p]? = some b := by
  obtain ⟨_, next⟩ := not_or.mp takes
  have next := Decidable.not_not.mp next
  have small := f.data[0].toNat_lt
  have place : 7 * (f.data[0].toNat - 1) = 7 * (r.got f.sa).length := by rw [tied.no, next]; rfl
  have front : ((r.buff f.sa).buff.take (7 * (r.got f.sa).length)).length =
      7 * (r.got f.sa).length := by
    rw [List.length_take_of_le]
    rw [tied.length, tied.no, dtcBuffSize]
    omega
  unfold DtcMf.store copyTo
  rw [place, List.append_assoc]
  -- a byte of the packets before, or of this one
  rcases receivedOf_append read with ⟨inside, before⟩ | ⟨i, small, rfl, own⟩
  · rw [List.getElem?_append_left (by omega), List.getElem?_take_of_lt inside]
    exact tied.bytes p b before
  · have sent : (f.data.toList.drop 1)[i]? = some b := by
      unfold J1939Frame.bytes at own
      rw [List.getElem?_drop, List.getElem?_take] at own
      split at own
      · rwa [List.getElem?_drop]
      · cases own
    have among : i < (f.data.toList.drop 1).length := (List.getElem?_eq_some_iff.mp sent).1
    rw [List.getElem?_append_right (by omega), front, Nat.add_sub_cancel_left,
      List.getElem?_append_left among]
    exact sent

/-- Where nothing is counted any more, nothing is kept of what the transfer brought. -/
theorem tied_cleared {r : DmRun} {f : J1939Frame}
    (length : ((r.step f).2.buff f.sa).buff.length = dtcBuffSize)
    (none : ((r.step f).2.buff f.sa).no = 0) (got : r.gotAfter f = []) :
    (r.step f).2.Tied f.sa := by
  have got : (r.step f).2.got f.sa = [] := (if_pos rfl).trans got
  refine ⟨length, ?_, ?_⟩
  · rw [got, none]
    rfl
  · rw [got]
    exact fun _ _ read => nomatch read

theorem tied_announce {r : DmRun} {f : J1939Frame} (tied : ∀ sa, r.Tied sa)
    (cm : f.pgn = pgnTpCm) : (r.step f).2.Tied f.sa := by
  have session : (r.step f).2.buff f.sa = j1939Announce r.buff f f.sa := by
    unfold DmRun.step j1939MsgDecode
    rw [if_neg (by rw [cm]; decide), if_pos cm]
  refine tied_cleared (msgDecode_length (fun sa => (tied sa).length) f f.sa) ?_ (if_pos cm)
  rw [session, j1939Announce, put_same]

/-- A packet that is not the last one is counted, else the session is cleared. -/
theorem tied_packet {r : DmRun} {f : J1939Frame} (tied : ∀ sa, r.Tied sa)
    (dt : f.pgn = pgnTpDt) : (r.step f).2.Tied f.sa := by
  have other : f.pgn ≠ pgnTpCm := by rw [dt]; decide
  have length := msgDecode_length (fun sa => (tied sa).length) f f.sa
  have session : (r.step f).2.buff f.sa = (j1939Packet r.buff f).1 f.sa := by
    unfold DmRun.step j1939MsgDecode
    rw [if_neg (by rw [dt]; decide), if_neg other, if_pos dt]
  have got : r.gotAfter f = if (r.buff f.sa).Takes f ∧ f.data[0] ≠ (r.buff f.sa).totalNo then
      r.gotWith f else [] := by
    unfold DmRun.gotAfter
    rw [if_neg other, if_pos dt]
  unfold j1939Packet at session
  dsimp only at session
  split at session
  next wrong =>
    -- out of turn: the transfer is given up
    have session := session.trans (put_same ..)
    refine tied_cleared length ?_ (got.trans (if_neg fun taken => taken.1 wrong))
    rw [session, DtcMf.clear]
  next takes =>
    split at session
    next last =>
      -- the last packet: the message was parsed, and the session is free
      have session := session.trans (put_same ..)
      refine tied_cleared length ?_ (got.trans (if_neg fun more => more.2 last))
      rw [session, DtcMf.clear]
    next more =>
      have brought : (r.step f).2.got f.sa = r.gotWith f :=
        (if_pos rfl).trans (got.trans (if_pos ⟨takes, more⟩))
      have no := Decidable.not_not.mp (not_or.mp takes).2
      have session := session.trans (put_same ..)
      refine ⟨length, ?_, ?_⟩
      · rw [brought, session, DmRun.gotWith, List.length_append, (tied f.sa).no]
        exact no.symm
      · rw [brought, session]
        exact fun p b => stored_bytes (tied f.sa) takes

/-- The session of the frame's source address keeps what the transfer brought. -/
theorem tied_own {r : DmRun} (tied : ∀ sa, r.Tied sa) (f : J1939Frame) :
    (r.step f).2.Tied f.sa := by
  by_cases cm : f.pgn = pgnTpCm
  · exact tied_announce tied cm
  by_cases dt : f.pgn = pgnTpDt
  · exact tied_packet tied dt
  -- a frame of another kind does not touch the session
  have session : (r.step f).2.buff f.sa = r.buff f.sa :=
    msgDecode_other (fun touches => touches.2.elim cm dt) r.buff
  have got : (r.step f).2.got f.sa = r.got f.sa := by
    unfold DmRun.step DmRun.gotAfter
    dsimp only
    rw [if_pos rfl, if_neg cm, if_neg dt]
  refine ⟨msgDecode_length (fun sa => (tied sa).length) f f.sa, ?_, ?_⟩
  · rw [session, got]
    exact (tied f.sa).no
  · rw [session, got]
    exact (tied f.sa).bytes

theorem tied_step {r : DmRun} (tied : ∀ sa, r.Tied sa) (f : J1939Frame) (sa : UInt8) :
    (r.step f).2.Tied sa := by
  by_cases own : sa = f.sa
  · rw [own]
    exact tied_own tied f
  · have session : (r.step f).2.buff sa = r.buff sa :=
      msgDecode_other (fun touches => own touches.1.symm) r.buff
    have got : (r.step f).2.got sa = r.got sa := if_neg own
    refine ⟨?_, ?_, ?_⟩
    · rw [session]
      exact (tied sa).length
    · rw [session, got]
      exact (tied sa).no
    · rw [session, got]
      exact (tied sa).bytes

theorem after_tied (frames : List J1939Frame) (sa : UInt8) :
    (after DmRun.step .initial frames).Tied sa := by
  unfold after
  have start := tied_initial
  generalize DmRun.initial = r at start
  induction frames generalizing r with
  | nil => exact start sa
  | cons f rest ih => exact ih _ (tied_step start f)

/-- The same call of the parser, if any, with the received bytes among those passed on. -/
def SameCall (f : J1939Frame) : Option (Received × Nat) → Option DmCall → Prop
  | some (data, len), some call =>
    call.port = f.port ∧ call.sa = f.sa ∧ ∀ p b, p < len → data p = some b → call.data[p]? = some b
  | none, none => True
  | _, _ => False

/-- `parses` is the call that `J1939_msg_decode` makes. -/
theorem parses_call (frames : List J1939Frame) (f : J1939Frame) :
    let r := after DmRun.step .initial frames
    SameCall f (r.parses f) (j1939MsgDecode r.buff f).2 := by
  intro r
  have tied : r.Tied f.sa := after_tied frames f.sa
  unfold DmRun.parses j1939MsgDecode
  by_cases dm1 : f.pgn = pgnDm1
  · rw [if_pos dm1, if_pos dm1]
    exact ⟨rfl, rfl, fun _ _ _ => id⟩
  rw [if_neg dm1, if_neg dm1]
  by_cases cm : f.pgn = pgnTpCm
  · rw [if_pos cm, if_neg fun dt => absurd (cm.symm.trans dt.1) (by decide)]
    trivial
  rw [if_neg cm]
  by_cases dt : f.pgn = pgnTpDt
  · rw [if_pos dt]
    unfold j1939Packet
    dsimp only
    by_cases takes : (r.buff f.sa).Takes f
    · rw [if_neg (c := _ ∨ _) takes]
      by_cases last : f.data[0] = (r.buff f.sa).totalNo
      · rw [if_pos ⟨dt, takes, last⟩, if_pos last]
        refine ⟨rfl, rfl, fun p b inside read => ?_⟩
        exact (List.getElem?_take_of_lt inside).trans (stored_bytes tied takes read)
      · rw [if_neg fun taken => last taken.2.2, if_neg last]
        trivial
    · rw [if_neg fun taken => takes taken.2.1, if_pos (Decidable.not_not.mp takes)]
      trivial
  · rw [if_neg dt, if_neg fun taken => dt taken.1]
    trivial

/-! ### The bounds -/

/-- The last packet that can be stored ends at byte 1785. -/
theorem stores_inside {s : DtcBuff} {f : J1939Frame} {start stop : Nat}
    (stores : j1939Stores s f = some (start, stop)) : stop ≤ dtcBuffSize := by
  unfold j1939Stores at stores
  split at stores
  next taken =>
    cases stores
    have small := f.data[0].toNat_lt
    unfold dtcBuffSize
    omega
  next => cases stores

theorem dm1_isSome_iff (f : J1939Frame) :
    (j1939AddDmData (fun p => f.bytes[p]?) f.dlc.toNat f.port f.sa).isSome ↔
      f.dlc.toNat < 10 := by
  have length : f.bytes.length = min f.dlc.toNat 8 := by
    unfold J1939Frame.bytes
    rw [List.length_take, Vector.length_toList]
  rw [addDmData_isSome]
  simp only [isSome_getElem?, length]
  unfold codesEnd codeCount
  constructor
  · intro read
    -- the ninth byte would be read, which no frame has
    refine Nat.lt_of_not_le fun long => ?_
    have beyond := read 8 (by omega) (by rw [if_neg (by omega)]; omega)
    omega
  · intro short p _ inside
    split at inside <;> omega

/-- A property of the calls of the parser is one of single frames and one of complete
transfers. -/
theorem parses_iff (r : DmRun) (f : J1939Frame) {P : Received → Nat → Prop} :
    (∀ data len, r.parses f = some (data, len) → P data len) ↔
      (f.pgn = pgnDm1 → P (fun p => f.bytes[p]?) f.dlc.toNat) ∧
      (f.pgn = pgnTpDt → (r.buff f.sa).Takes f → f.data[0] = (r.buff f.sa).totalNo →
        P (receivedOf (r.gotWith f)) (r.buff f.sa).totalSize.toNat) := by
  unfold DmRun.parses
  by_cases dm1 : f.pgn = pgnDm1
  · have other : f.pgn ≠ pgnTpDt := by rw [dm1]; decide
    rw [if_pos dm1]
    constructor
    · intro call
      exact ⟨fun _ => call _ _ rfl, fun dt => absurd dt other⟩
    · rintro ⟨single, _⟩ data len ⟨⟩
      exact single dm1
  · rw [if_neg dm1]
    by_cases last : f.pgn = pgnTpDt ∧ (r.buff f.sa).Takes f ∧ f.data[0] = (r.buff f.sa).totalNo
    · rw [if_pos last]
      constructor
      · intro call
        exact ⟨fun single => absurd single dm1, fun _ _ _ => call _ _ rfl⟩
      · rintro ⟨_, transfer⟩ data len ⟨⟩
        exact transfer last.1 last.2.1 last.2.2
    · rw [if_neg last]
      exact iff_of_true nofun ⟨fun single => absurd single dm1,
        fun dt takes all => absurd ⟨dt, takes, all⟩ last⟩

/-- Of each frame it is known beforehand whether only received bytes are parsed. -/
theorem bounded_iff (r : DmRun) (f : J1939Frame) : r.Bounded f ↔ r.Fits f := by
  have stored : r.Bounded f ↔ ∀ data len, r.parses f = some (data, len) →
      (j1939AddDmData data len f.port f.sa).isSome :=
    and_iff_right fun _ _ => stores_inside
  rw [stored, parses_iff]
  refine and_congr (imp_congr_right fun _ => dm1_isSome_iff f) ?_
  refine imp_congr_right fun _ => imp_congr_right fun _ => imp_congr_right fun _ => ?_
  rw [addDmData_isSome, receivedOf_isSome_iff]

theorem roomy_iff (r : DmRun) (f : J1939Frame) : r.Roomy f ↔ r.Small f := by
  have room : ∀ size, codeCount size ≤ tempDtcNum ↔ size < 1030 := by
    intro size
    unfold codeCount tempDtcNum
    omega
  have single : f.dlc.toNat < 1030 := Nat.lt_trans f.dlc.toNat_lt (by decide)
  unfold DmRun.Roomy DmRun.Small
  rw [parses_iff]
  simp only [room]
  exact and_iff_right fun _ => single

/-- In every run, from any number of sources: only received bytes are parsed exactly if every
frame fits, and the trouble codes have room besides if every transfer is small. -/
theorem dm_bounds_iff (frames : List J1939Frame) :
    (Along DmRun.step DmRun.Bounded .initial frames ↔
      Along DmRun.step DmRun.Fits .initial frames) ∧
    (Along DmRun.step (fun r f => r.Bounded f ∧ r.Roomy f) .initial frames ↔
      Along DmRun.step (fun r f => r.Fits f ∧ r.Small f) .initial frames) :=
  ⟨along_congr bounded_iff .initial frames,
    along_congr (fun r f => and_congr (bounded_iff r f) (roomy_iff r f)) .initial frames⟩

/-- A hundred bytes are announced in one packet, which has seven of them. -/
def shortTransfer : List J1939Frame :=
  [{ canid := 0x1CECFF00, port := 1, data := #v[0x20, 100, 0, 1, 0xFF, 0xCA, 0xFE, 0], dlc := 8 },
    { canid := 0x1CEBFF00, port := 1, data := #v[1, 4, 0, 11, 22, 3, 1, 0xFF], dlc := 8 }]

/-- The parser reads 24 trouble codes where one was received. -/
theorem parsed_beyond_received : ¬ Along DmRun.step DmRun.Bounded .initial shortTransfer := by
  rintro ⟨_, ⟨_, received⟩, _⟩
  have parsed := received _ _ rfl
  exact absurd parsed (by decide +kernel)

end Uds
