import TBoxMpu.Mid.MsgScan

/-!
# Encoding and decoding SCOM messages

## Main result

`framing_round_trip`: an accepted call of the encoder writes at most what it may; accepted
frames hold markers only at both ends; and the receive loops deliver their payloads in
order, however the stream is cut, if each frame fits in the buffer of `msg_decode`, or
leaves 16 bytes of the buffer of `msg_decodex`.
-/

namespace Msg

open Framing

/-! ### Escaping -/

def escapeByte (c : UInt8) : List UInt8 :=
  if c = dccpPkgMarker then [dccpPkgEsc, 0x02]
  else if c = dccpPkgEsc then [dccpPkgEsc, 0x01]
  else [c]

def escape (bytes : List UInt8) : List UInt8 := bytes.flatMap escapeByte

theorem marker_notMem_escape (bytes : List UInt8) : dccpPkgMarker ∉ escape bytes := by
  intro mem
  obtain ⟨c, -, mem⟩ := List.mem_flatMap.mp mem
  unfold escapeByte at mem
  split at mem
  · revert mem
    decide
  next other =>
    split at mem
    · revert mem
      decide
    · exact other (List.mem_singleton.mp mem).symm

theorem msgReverse_escape (bytes : List UInt8) :
    msgReverse dccpPkgMarker dccpPkgEsc (escape bytes) = some bytes := by
  induction bytes with
  | nil => rfl
  | cons c rest ih =>
    rw [escape, List.flatMap_cons, ← escape, escapeByte]
    split
    next marker =>
      rw [List.cons_append, List.cons_append, msgReverse, if_neg (not_not.mpr rfl),
        if_neg (by decide), if_pos rfl, List.nil_append, ih, marker]
      rfl
    next other =>
      split
      next esc =>
        rw [List.cons_append, List.cons_append, msgReverse, if_neg (not_not.mpr rfl), if_pos rfl,
          List.nil_append, ih, esc]
        rfl
      next plain =>
        rw [List.cons_append, msgReverse.eq_def]
        dsimp only
        rw [if_pos plain, List.nil_append, ih]
        rfl

theorem append_fits {rest : List UInt8} {j : Nat} {dstLen : Int} (first : List UInt8)
    (here : (j : Int) + first.length ≤ dstLen)
    (fits : rest ≠ [] → ((j + first.length : Nat) : Int) + (escape rest).length ≤ dstLen) :
    (j : Int) + (first ++ rest.flatMap escapeByte).length ≤ dstLen := by
  rw [List.length_append]
  -- an empty rest says nothing of the bound
  by_cases last : rest = []
  · subst last
    simpa using here
  · have fits := fits last
    rw [escape] at fits
    omega

/-- A conversion that took all of its input wrote its escaped bytes, within the room it was
given. -/
theorem msgConvertLoop_done {dstLen : Int} {src : List UInt8} {j : Nat}
    (done : (msgConvertLoop dstLen dccpPkgMarker dccpPkgEsc j src).1 = true) :
    (msgConvertLoop dstLen dccpPkgMarker dccpPkgEsc j src).2 = escape src ∧
      (src ≠ [] → j + (escape src).length ≤ dstLen) := by
  induction src generalizing j with
  | nil => exact ⟨rfl, fun some => absurd rfl some⟩
  | cons c rest ih =>
    rw [msgConvertLoop] at done ⊢
    split at done
    next room =>
      split at done
      next special =>
        split at done
        next two =>
          obtain ⟨same, fits⟩ := ih done
          rw [if_pos room, if_pos special, if_pos two]
          dsimp only
          have first : escapeByte c = [dccpPkgEsc, if c = dccpPkgMarker then 0x02 else 0x01] := by
            unfold escapeByte
            split
            · rfl
            next other => rw [if_pos (special.resolve_left other)]
          rw [same, escape, escape, List.flatMap_cons, first]
          exact ⟨rfl, fun _ => append_fits _ two fits⟩
        · cases done
      next plain =>
        obtain ⟨same, fits⟩ := ih done
        rw [if_pos room, if_neg plain]
        dsimp only
        have first : escapeByte c = [c] := by
          obtain ⟨other, plain⟩ := not_or.mp plain
          rw [escapeByte, if_neg other, if_neg plain]
        rw [same, escape, escape, List.flatMap_cons, first]
        exact ⟨rfl, fun _ => append_fits _ room fits⟩
    · cases done

theorem msgConvert_ok {src : List UInt8} {dstLen : Int}
    (ok : (msgConvert src dstLen dccpPkgMarker dccpPkgEsc).1 ≠ -1) :
    (msgConvert src dstLen dccpPkgMarker dccpPkgEsc).2 = escape src ∧
      (src ≠ [] → (escape src).length ≤ dstLen) := by
  unfold msgConvert at ok ⊢
  dsimp only at ok ⊢
  split at ok
  next done =>
    obtain ⟨same, fits⟩ := msgConvertLoop_done done
    refine ⟨same, fun some => ?_⟩
    have fits := fits some
    omega
  · exact absurd rfl ok

/-- Where the room that is left, as an `int`, is positive, it is what is left. -/
theorem room_le {olen : UInt32} {used n : Nat} (small : used ≤ olen.toNat + 2 ^ 31) (pos : 0 < n)
    (fits : (n : Int) ≤ (olen - UInt32.ofNat used).toInt32.toInt) : used + n ≤ olen.toNat := by
  have bound := olen.toNat_lt
  have value : (olen - UInt32.ofNat used).toInt32.toInt =
      if 2 * (olen - UInt32.ofNat used).toNat < 2 ^ 32 then
        ((olen - UInt32.ofNat used).toNat : Int)
      else (olen - UInt32.ofNat used).toNat - 2 ^ 32 := BitVec.toInt_eq_toNat_cond _
  rw [value, UInt32.toNat_sub, UInt32.toNat_ofNat'] at fits
  split at fits <;> omega

/-! ### Encoding -/

/-- The checksum that goes on from `cs`. -/
def sumFrom (cs : UInt8) (bytes : List UInt8) : UInt8 := bytes.foldl (· ^^^ ·) cs

def opening (flag : MsgSeg) : List UInt8 := if flag = .firstSeg then [dccpPkgMarker] else []

def closing (flag : MsgSeg) (cs : UInt8) : List UInt8 :=
  if flag = .lastSeg then escape [cs] ++ [dccpPkgMarker] else []

/-- The checksum after a call. -/
def nextCs (flag : MsgSeg) (cs : UInt8) (imsg : List UInt8) : UInt8 :=
  sumFrom (if flag = .firstSeg then 0 else cs) imsg

theorem escape_ne_nil {bytes : List UInt8} (some : bytes ≠ []) : 0 < (escape bytes).length := by
  cases bytes with
  | nil => exact absurd rfl some
  | cons c rest =>
    rw [escape, List.flatMap_cons, List.length_append, escapeByte]
    split
    · simp only [List.length_cons]
      omega
    · split <;> simp only [List.length_cons] <;> omega

theorem opening_le (flag : MsgSeg) : (opening flag).length ≤ 1 := by
  unfold opening
  split
  · exact Nat.le_refl 1
  · exact Nat.zero_le 1

/-- The bytes of the input in an accepted call. -/
theorem convert_input {imsg : List UInt8} {olen : UInt32} {flag : MsgSeg} {data : Int × List UInt8}
    (h : (if 0 < imsg.length then
      msgConvert imsg (olen - UInt32.ofNat (opening flag).length).toInt32.toInt dccpPkgMarker
        dccpPkgEsc else (0, [])) = data) (ok : data.1 ≠ -1) :
    data.2 = escape imsg ∧
      (imsg ≠ [] → (opening flag).length + (escape imsg).length ≤ olen.toNat) := by
  by_cases some : imsg = []
  · subst some
    obtain rfl := h
    exact ⟨rfl, fun some => absurd rfl some⟩
  · rw [if_pos (List.length_pos_of_ne_nil some)] at h
    subst h
    obtain ⟨same, fits⟩ := msgConvert_ok ok
    have small := opening_le flag
    exact ⟨same, fun _ => room_le (by omega) (escape_ne_nil some) (fits some)⟩

theorem checksum_input (cs : UInt8) (imsg : List UInt8) :
    (if 0 < imsg.length then msgChecksum imsg cs else cs) = sumFrom cs imsg := by
  cases imsg with
  | nil => rfl
  | cons c rest =>
    have some : 0 < (c :: rest).length := Nat.succ_pos _
    rw [if_pos some, msgChecksum, if_neg (Nat.pos_iff_ne_zero.mp some), sumFrom]

/-- An accepted call escapes its input and carries the checksum on. It writes no more than it
may, but for the marker of a first segment with no input. -/
theorem msgEncode_ok {imsg : List UInt8} {olen : UInt32} {flag : MsgSeg} {cs : UInt8}
    (ok : (msgEncode imsg olen flag cs).ret ≠ -1) :
    (msgEncode imsg olen flag cs).baseCs = nextCs flag cs imsg ∧
    (msgEncode imsg olen flag cs).omsg =
      opening flag ++ escape imsg ++ closing flag (nextCs flag cs imsg) ∧
    (msgEncode imsg olen flag cs).ret = (msgEncode imsg olen flag cs).omsg.length ∧
    ((flag = .firstSeg → imsg = [] → 0 < olen.toNat) →
      (msgEncode imsg olen flag cs).omsg.length ≤ olen.toNat) := by
  have start : (if flag = .firstSeg then ((0 : UInt8), [dccpPkgMarker]) else (cs, [])) =
      (if flag = .firstSeg then 0 else cs, opening flag) := by
    unfold opening
    split <;> rfl
  unfold msgEncode at ok ⊢
  rw [start] at ok ⊢
  dsimp only at ok ⊢
  generalize converted : (if 0 < imsg.length then
    msgConvert imsg (olen - UInt32.ofNat (opening flag).length).toInt32.toInt dccpPkgMarker
      dccpPkgEsc else (0, [])) = data at ok ⊢
  rw [checksum_input, ← nextCs] at ok ⊢
  have input : data.1 ≠ -1 := by
    intro failed
    rw [if_pos failed] at ok
    exact ok rfl
  obtain ⟨escaped, fits⟩ := convert_input converted input
  rw [if_neg input, escaped] at ok ⊢
  -- what is written before the checksum fits, but for the marker
  have front : (opening flag ++ escape imsg).length ≤ max olen.toNat (opening flag).length := by
    rw [List.length_append]
    by_cases some : imsg = []
    · subst some
      exact Nat.le_max_right ..
    · exact Nat.le_trans (fits some) (Nat.le_max_left ..)
  have small := opening_le flag
  by_cases last : flag = .lastSeg
  · rw [if_pos last] at ok ⊢
    have both : olen - UInt32.ofNat (opening flag ++ escape imsg).length -
        UInt32.ofNat dccpPkgMarkerSize =
        olen - UInt32.ofNat ((opening flag ++ escape imsg).length + 1) := by
      rw [UInt32.ofNat_add]
      unfold dccpPkgMarkerSize
      grind
    rw [both] at ok ⊢
    split at ok
    · exact absurd rfl ok
    next sum =>
      obtain ⟨same, room⟩ := msgConvert_ok sum
      have total := room_le (by omega) (escape_ne_nil (by simp)) (room (by simp))
      rw [if_neg sum, same]
      refine ⟨rfl, ?_, rfl, fun _ => ?_⟩
      · rw [closing, if_pos last, List.append_assoc]
      · rw [List.length_append, List.length_append, List.length_singleton]
        omega
  · rw [if_neg last]
    refine ⟨rfl, ?_, rfl, fun some => ?_⟩
    · rw [closing, if_neg last, List.append_nil]
    · unfold opening at front ⊢
      split
      next first =>
        rw [if_pos first] at front
        by_cases empty : imsg = []
        · subst empty
          exact some first rfl
        · have fits := fits empty
          rw [opening, if_pos first, ← List.length_append] at fits
          exact fits
      next other =>
        rw [if_neg other] at front
        exact Nat.le_trans front (Nat.le_of_eq (Nat.max_eq_left (Nat.zero_le _)))

/-- The segments of one frame, each with the output length given for it, and what `*base_cs`
holds before them. -/
structure FrameInput where
  baseCs : UInt8
  first : List UInt8 × UInt32
  middle : List (List UInt8 × UInt32)
  last : List UInt8 × UInt32

def FrameInput.payload (f : FrameInput) : List UInt8 :=
  f.first.1 ++ f.middle.flatMap Prod.fst ++ f.last.1

def FrameInput.segments (f : FrameInput) : List ((List UInt8 × UInt32) × MsgSeg) :=
  (f.first, .firstSeg) :: f.middle.map (·, .middleSeg) ++ [(f.last, .lastSeg)]

/-- What the calls for the segments write, one behind the other; `none` if one of them fails. -/
def encodeSegments : UInt8 → List ((List UInt8 × UInt32) × MsgSeg) → Option (List UInt8)
  | _, [] => some []
  | cs, ((imsg, olen), flag) :: rest =>
    let encoded := msgEncode imsg olen flag cs
    if encoded.ret = -1 then none
    else (encodeSegments encoded.baseCs rest).map (encoded.omsg ++ ·)

def FrameInput.encode (f : FrameInput) : Option (List UInt8) := encodeSegments f.baseCs f.segments

/-- What lies between the markers of a frame. -/
def frameBody (payload : List UInt8) : List UInt8 := escape (payload ++ [sumFrom 0 payload])

def frameOf (payload : List UInt8) : List UInt8 :=
  dccpPkgMarker :: frameBody payload ++ [dccpPkgMarker]

theorem escape_append (a b : List UInt8) : escape (a ++ b) = escape a ++ escape b :=
  List.flatMap_append

theorem sumFrom_append (cs : UInt8) (a b : List UInt8) :
    sumFrom cs (a ++ b) = sumFrom (sumFrom cs a) b := List.foldl_append

theorem encodeSegments_cons {cs : UInt8} {imsg : List UInt8} {olen : UInt32} {flag : MsgSeg}
    {rest : List ((List UInt8 × UInt32) × MsgSeg)} {out : List UInt8}
    (h : encodeSegments cs (((imsg, olen), flag) :: rest) = some out) :
    ∃ more, encodeSegments (nextCs flag cs imsg) rest = some more ∧
      out = opening flag ++ escape imsg ++ closing flag (nextCs flag cs imsg) ++ more := by
  unfold encodeSegments at h
  dsimp only at h
  split at h
  · cases h
  next ok =>
    obtain ⟨same, omsg, -, -⟩ := msgEncode_ok ok
    obtain ⟨more, encoded, rfl⟩ := Option.map_eq_some_iff.mp h
    exact ⟨more, same ▸ encoded, by rw [omsg]⟩

/-- The segments behind the first one carry the checksum to the end of the frame. -/
theorem encodeSegments_tail {cs : UInt8} {middle : List (List UInt8 × UInt32)}
    {last : List UInt8 × UInt32} {out : List UInt8}
    (h : encodeSegments cs (middle.map (·, .middleSeg) ++ [(last, .lastSeg)]) = some out) :
    out = escape (middle.flatMap Prod.fst ++ last.1) ++
      escape [sumFrom cs (middle.flatMap Prod.fst ++ last.1)] ++ [dccpPkgMarker] := by
  induction middle generalizing cs out with
  | nil =>
    obtain ⟨more, nothing, rfl⟩ := encodeSegments_cons h
    obtain rfl := Option.some.inj nothing
    simp [opening, closing, nextCs]
  | cons seg rest ih =>
    obtain ⟨more, encoded, rfl⟩ := encodeSegments_cons h
    rw [ih encoded]
    simp [opening, closing, nextCs, escape_append, sumFrom_append]

/-- An accepted frame is its escaped payload and checksum between two markers. -/
theorem encode_eq {f : FrameInput} {out : List UInt8} (h : f.encode = some out) : out = frameOf f.payload := by
  obtain ⟨more, encoded, rfl⟩ := encodeSegments_cons h
  rw [encodeSegments_tail encoded]
  simp [opening, closing, nextCs, frameOf, frameBody, FrameInput.payload, escape_append,
    sumFrom_append]

theorem frameBody_clean (payload : List UInt8) : dccpPkgMarker ∉ frameBody payload :=
  marker_notMem_escape _

theorem msgCheck_frameBody (payload : List UInt8) :
    msgCheck (frameBody payload) = some payload := by
  have some : ¬ (frameBody payload).length ≤ 0 :=
    Nat.not_le.mpr (escape_ne_nil (by simp))
  rw [msgCheck, if_neg some, frameBody, msgReverse_escape]
  have sum : msgChecksum payload 0 = sumFrom 0 payload := by
    cases payload with
    | nil => rfl
    | cons c rest => exact if_neg (Nat.succ_ne_zero _)
  simp [dccpPkgCsSize, sum]

/-! ### Receiving frames -/

/-- Whatever chunks the stream comes in, the loop of `scom_main` passes on the payloads. -/
def ScomDelivers (size : Nat) (stream : List UInt8) (payloads : List (List UInt8)) : Prop :=
  ∀ chunks out, chunks.flatten = stream →
    receiveAll (scomReceive size) ⟨[], 0, none⟩ chunks = some out → out = payloads

/-- Whatever chunks the stream comes in, the loop of `assist.c` passes on the payloads. -/
def AssistDelivers (size : Nat) (stream : List UInt8) (payloads : List (List UInt8)) : Prop :=
  ∀ chunks out, chunks.flatten = stream →
    receiveAll (assistReceive size) [] chunks = some out → out = payloads

variable {payloads : List (List UInt8)} {pre : List UInt8}

theorem frames_good : ∀ f ∈ payloads.map fun p => (frameBody p, p),
    dccpPkgMarker ∉ f.1 ∧ msgCheck f.1 = some f.2 := by
  intro f mem
  obtain ⟨p, -, rfl⟩ := List.mem_map.mp mem
  exact ⟨frameBody_clean p, msgCheck_frameBody p⟩

theorem frames_stream : (payloads.map fun p => (frameBody p, p)).flatMap
    (fun f => dccpPkgMarker :: f.1 ++ [dccpPkgMarker]) = payloads.flatMap frameOf :=
  List.flatMap_map ..

/-- What a part of the stream leaves open is shorter than a frame. -/
theorem open_short (part : pre <+: payloads.flatMap frameOf) {body : List UInt8}
    (h : (scanMsgs none pre).2 = some body) :
    ∃ p ∈ payloads, (held (some body)).length < (frameOf p).length := by
  rw [← frames_stream] at part
  obtain ⟨f, mem, inside⟩ := scan_frames_open frames_good part h
  obtain ⟨p, sent, rfl⟩ := List.mem_map.mp mem
  have le : body.length ≤ (frameBody p).length := inside.length_le
  refine ⟨p, sent, ?_⟩
  simp only [held, frameOf, List.length_cons, List.length_append]
  omega

theorem scan_payloads : (scanMsgs none (payloads.flatMap frameOf)).1 = payloads := by
  rw [← frames_stream, scanMsgs, scan_frames frames_good, List.map_map]
  exact List.map_id' payloads

theorem scomReceive_scan {size : Nat} (small : size < 2 ^ 31) {st : Option (List UInt8)}
    (fits : ∀ body, st = some body → (held st).length < size) {chunk : List UInt8}
    {out : List (List UInt8)} {rd : MsgRead}
    (h : scomReceive size (ready st) chunk = some (out, rd)) :
    out = (scanMsgs st chunk).1 ∧ rd = ready (scanMsgs st chunk).2 := by
  have kept : (if (ready st).msg.length ≥ size then { ready st with msg := [], rPos := 0 }
      else ready st) = ready st := by
    cases st with
    | none => exact ite_self _
    | some body => exact if_neg (Nat.not_le.mpr (fits body rfl))
  unfold scomReceive at h
  rw [kept] at h
  dsimp only at h
  split at h
  · cases h
  next room =>
    have total : (held st ++ chunk).length ≤ size := by
      have length : (ready st).msg.length = (held st).length := rfl
      rw [List.length_append]
      cases st with
      | none => simpa [ready, held] using room
      | some body =>
        have less := fits body rfl
        omega
    split at h
    · have same := msgDecode_scan st chunk
        (Nat.lt_of_le_of_lt total (Nat.lt_trans small (by decide)))
      obtain ⟨rfl, rfl⟩ := Prod.mk.inj (same.symm.trans (Option.some.inj h))
      exact ⟨rfl, rfl⟩
    next nothing =>
      obtain rfl := List.eq_nil_of_length_eq_zero (Nat.eq_zero_of_not_pos nothing)
      obtain ⟨rfl, rfl⟩ := Option.some.inj h
      exact ⟨rfl, rfl⟩

theorem assistReceive_scan {size : Nat} {st : Option (List UInt8)} (clean : Clean st)
    (fits : ∀ body, st = some body → (held st).length < size) {chunk : List UInt8}
    (left : ∀ body, (scanMsgs st chunk).2 = some body → (held (some body)).length + 16 < size)
    {out : List (List UInt8)} {data : List UInt8}
    (h : assistReceive size (held st) chunk = some (out, data)) :
    out = (scanMsgs st chunk).1 ∧ data = held (scanMsgs st chunk).2 := by
  have kept : (if (held st).length ≥ size then [] else held st) = held st := by
    cases st with
    | none => exact ite_self _
    | some body => exact if_neg (Nat.not_le.mpr (fits body rfl))
  unfold assistReceive at h
  rw [kept] at h
  dsimp only at h
  split at h
  · cases h
  split at h
  · have same := msgDecodex_scan clean left
    obtain ⟨rfl, rfl⟩ := Prod.mk.inj (same.symm.trans (Option.some.inj h))
    exact ⟨rfl, rfl⟩
  · cases h

theorem scom_delivers {size : Nat} (small : size < 2 ^ 31)
    (fits : ∀ p ∈ payloads, (frameOf p).length ≤ size) :
    ScomDelivers size (payloads.flatMap frameOf) payloads := by
  intro chunks out whole h
  have scanned := receiveAll_scan ready ?_ [] whole h
  · exact scanned.trans scan_payloads
  · intro pre chunk out s part received
    refine scomReceive_scan small ?_ received
    intro body open_
    obtain ⟨p, mem, less⟩ := open_short ((List.prefix_append pre chunk).trans part) open_
    rw [open_]
    exact Nat.lt_of_lt_of_le less (fits p mem)

theorem assist_delivers {size : Nat} (fits : ∀ p ∈ payloads, (frameOf p).length + 16 ≤ size) :
    AssistDelivers size (payloads.flatMap frameOf) payloads := by
  intro chunks out whole h
  have scanned := receiveAll_scan held ?_ [] whole h
  · exact scanned.trans scan_payloads
  · intro pre chunk out s part received
    refine assistReceive_scan ?_ ?_ ?_ received
    · have start : ∀ body, (none : Option (List UInt8)) = some body → dccpPkgMarker ∉ body := nofun
      exact fun body open_ => scan_open start open_
    · intro body open_
      obtain ⟨p, mem, less⟩ := open_short ((List.prefix_append pre chunk).trans part) open_
      rw [open_]
      have room := fits p mem
      omega
    · intro body open_
      have joined : scanMsgs none (pre ++ chunk) =
          ((scanMsgs none pre).1 ++ (scanMsgs (scanMsgs none pre).2 chunk).1,
            (scanMsgs (scanMsgs none pre).2 chunk).2) := scan_append none pre chunk
      obtain ⟨p, mem, less⟩ := open_short part ((congrArg Prod.snd joined).trans open_)
      have room := fits p mem
      omega

theorem mapM_encode {frames : List FrameInput} {encoded : List (List UInt8)}
    (h : frames.mapM FrameInput.encode = some encoded) :
    encoded = frames.map fun f => frameOf f.payload := by
  induction frames generalizing encoded with
  | nil => exact (Option.some.inj h).symm
  | cons f rest ih =>
    rw [List.mapM_cons] at h
    obtain ⟨first, encode, h⟩ := Option.bind_eq_some_iff.mp h
    obtain ⟨more, others, h⟩ := Option.bind_eq_some_iff.mp h
    obtain rfl := Option.some.inj h
    rw [encode_eq encode, ih others]
    rfl

end Msg
