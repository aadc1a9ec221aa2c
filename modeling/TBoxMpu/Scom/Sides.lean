import TBoxMpu.Scom.Transfer

/-!
# The two sides of a bulk transfer

What the server answers a request with (`Serving.answer`), and what a started client does
with the frame it expects (`Receiving.accept`) and on a read (`Receiving.getData`).
-/

namespace Scom

variable {blob : List UInt8}

/-! ### The frames of a blob -/

def frameCount (blob : List UInt8) : Nat := (blob.length + 241) / 242

def chunk (blob : List UInt8) (fno : Nat) : List UInt8 := (blob.drop (fno * 242)).take 242

def frameType (blob : List UInt8) (fno : Nat) : ScomTlFrameType :=
  if fno = 0 then
    if frameCount blob = 1 then .singleFrame else .startFrame
  else if fno + 1 = frameCount blob then .lastFrame
  else .middleFrame

def frame (blob : List UInt8) (fno : Nat) : ScomTlMsg :=
  .dataOkRes (frameType blob fno) fno (chunk blob fno)

/-- The frames from `fno` on that a request for `left` frames is answered with. -/
def framesFrom (blob : List UInt8) : Nat → Nat → List ScomTlMsg
  | _, 0 => []
  | fno, left + 1 =>
    if fno < frameCount blob then frame blob fno :: framesFrom blob (fno + 1) left else []

theorem frameCount_pos (size : 0 < blob.length) : 0 < frameCount blob := by
  unfold frameCount
  omega

theorem length_chunk (fno : Nat) (inside : fno < frameCount blob) :
    0 < (chunk blob fno).length ∧ (chunk blob fno).length ≤ 242 := by
  unfold frameCount at inside
  rw [chunk, List.length_take, List.length_drop]
  omega

theorem take_chunk (blob : List UInt8) (fno : Nat) :
    blob.take (fno * 242) ++ chunk blob fno = blob.take ((fno + 1) * 242) := by
  rw [chunk, Nat.add_mul, List.take_add, Nat.one_mul]

theorem take_all : blob.take (frameCount blob * 242) = blob := by
  apply List.take_of_length_le
  unfold frameCount
  omega

/-- Only the last of several frames has the last type. -/
theorem frameType_last {fno : Nat} :
    frameType blob fno = .lastFrame ↔ 0 < fno ∧ fno + 1 = frameCount blob := by
  unfold frameType
  split
  next zero => split <;> simp [zero]
  next later =>
    split
    next last => simp [last, Nat.pos_of_ne_zero later]
    next more => simp [more]

theorem mem_framesFrom {fno left : Nat} {msg : ScomTlMsg} :
    msg ∈ framesFrom blob fno left ↔
      ∃ k, msg = frame blob k ∧ fno ≤ k ∧ k < fno + left ∧ k < frameCount blob := by
  induction left generalizing fno with
  | zero =>
    simp only [framesFrom, List.not_mem_nil, false_iff]
    rintro ⟨k, -, ge, lt, -⟩
    omega
  | succ left ih =>
    rw [framesFrom]
    split
    next inside =>
      rw [List.mem_cons, ih]
      constructor
      · rintro (rfl | ⟨k, rfl, ge, lt, count⟩)
        · exact ⟨fno, rfl, by omega, by omega, inside⟩
        · exact ⟨k, rfl, by omega, by omega, count⟩
      · rintro ⟨k, rfl, ge, lt, count⟩
        rcases Nat.eq_or_lt_of_le ge with rfl | gt
        · exact .inl rfl
        · exact .inr ⟨k, rfl, by omega, by omega, count⟩
    next beyond =>
      simp only [List.not_mem_nil, false_iff]
      rintro ⟨k, -, ge, lt, count⟩
      omega

theorem length_framesFrom (blob : List UInt8) (fno left : Nat) :
    (framesFrom blob fno left).length ≤ left := by
  induction left generalizing fno with
  | zero => exact Nat.le_refl 0
  | succ left ih =>
    rw [framesFrom]
    split
    · exact Nat.succ_le_succ (ih (fno + 1))
    · exact Nat.zero_le _

/-! ### The server -/

/-- The server holds the whole blob, to be read from the beginning of the ring. -/
structure Serving (blob : List UInt8) (tl : ScomTl) : Prop where
  status : tl.status = .serverStarted
  wf : tl.txRb.Wf
  start : tl.txRb.outPos = 0
  contents : tl.txRb.contents = blob

theorem serving_startServer {tl : ScomTl} (prepared : Prepared tl)
    (idle : tl.status ≠ .serverStarted) (size : blob.length ≤ 512 * 1024) :
    (scomTlStartServer tl blob).1 = 0 ∧ Serving blob (scomTlStartServer tl blob).2 := by
  obtain ⟨wf, same, empty⟩ := prepared.tx.cleaned
  have unused := wf.unused
  rw [← wf.length_contents, empty, same, prepared.txSize] at unused
  -- an emptied ring has room for all of its size
  have room : ¬ (rbUnusedLen (rbClean tl.txRb)).toNat < blob.length := by
    rw [unused]
    exact Nat.not_lt.mpr size
  have len : (UInt32.ofNat blob.length).toNat = blob.length := by
    rw [UInt32.toNat_ofNat', Nat.mod_eq_of_lt (by omega)]
  have enough : (UInt32.ofNat blob.length).toNat ≤ blob.length := len.le
  obtain ⟨stored, -, -, contents⟩ := wf.stored enough
  rw [scomTlStartServer, if_neg idle]
  dsimp only
  rw [if_neg room]
  refine ⟨rfl, rfl, stored, rfl, contents.trans ?_⟩
  rw [empty, same, prepared.txSize, len, List.nil_append, List.length_nil, Nat.sub_zero,
    Nat.min_eq_left size, List.take_length]

variable {tl : ScomTl}

theorem Serving.sendFrames (serving : Serving blob tl) (size : 0 < blob.length)
    (bound : blob.length ≤ 512 * 1024) (fno left : Nat) :
    scomTlSendFrames tl.txRb (frameCount blob - 1) fno left = framesFrom blob fno left := by
  have count := frameCount_pos size
  induction left generalizing fno with
  | zero => rfl
  | succ left ih =>
    rw [scomTlSendFrames, framesFrom]
    by_cases inside : fno < frameCount blob
    · have offset : (UInt32.ofNat (fno * scomTlFrameLen)).toNat = fno * 242 := by
        have small : fno * 242 < 2 ^ 32 := by
          unfold frameCount at inside
          omega
        rw [UInt32.toNat_ofNat']
        exact Nat.mod_eq_of_lt small
      have within : (UInt32.ofNat (fno * scomTlFrameLen)).toNat < tl.txRb.contents.length := by
        rw [offset, serving.contents]
        unfold frameCount at inside
        omega
      -- the ring is read from its beginning, so a place is an offset
      have data := serving.wf.peeked serving.start (UInt32.ofNat scomTlFrameLen) within
      rw [offset, serving.contents] at data
      have data : rbGet tl.txRb (UInt32.ofNat (fno * scomTlFrameLen)) (UInt32.ofNat scomTlFrameLen) =
        chunk blob fno := data
      have nonempty := (length_chunk fno inside).1
      rw [if_pos (by omega), if_pos inside, data]
      dsimp only
      rw [if_neg (by omega), ih, frame, frameType]
      have one : frameCount blob - 1 = 0 ↔ frameCount blob = 1 := by omega
      have last : frameCount blob - 1 = fno ↔ fno + 1 = frameCount blob := by omega
      simp only [one, last]
    · rw [if_neg (by omega), if_neg inside]

/-- What the server answers a request with. -/
theorem Serving.answer (serving : Serving blob tl) (size : 0 < blob.length)
    (bound : blob.length ≤ 512 * 1024) (fno fcnt : Nat) :
    scomTlProcDataReq tl fno fcnt =
      if fno < frameCount blob then framesFrom blob fno fcnt
      else [.dataNgRes .invalidFno (frameCount blob - 1)] := by
  have count := frameCount_pos size
  have holds : ¬ rbEmpty tl.txRb = true := by
    rw [serving.wf.rbEmpty_iff, serving.contents]
    exact List.ne_nil_of_length_pos size
  have used : (rbUsedLen tl.txRb).toNat = blob.length := by
    rw [← serving.wf.length_contents, serving.contents]
  -- the count of frames fits sixteen bits
  have max : (if blob.length % scomTlFrameLen ≠ 0 then blob.length / scomTlFrameLen % 2 ^ 16
      else (blob.length / scomTlFrameLen - 1) % 2 ^ 16) = frameCount blob - 1 := by
    unfold frameCount scomTlFrameLen
    split <;> omega
  unfold scomTlProcDataReq
  dsimp only
  rw [if_neg (by simp [serving.status]), if_neg holds, used, max,
    serving.sendFrames size bound]
  by_cases inside : fno < frameCount blob
  · rw [if_neg (by omega), if_pos inside]
  · rw [if_pos (by omega), if_neg inside]

/-! ### The client -/

/-- The bytes that still fit in the client's ring. -/
def room (tl : ScomTl) : Nat := 2048 - tl.rxRb.contents.length

/-- A started client that expects frame `next`: what it returned and what it holds are the
frames before. -/
structure Receiving (blob : List UInt8) (next : Nat) (returned : List UInt8) (tl : ScomTl) :
    Prop where
  status : tl.status = .clientStarted
  wf : tl.rxRb.Wf
  size : tl.rxRb.size.toNat = 2048
  fno : tl.rxDataCtl.rxFno + 1 = next
  le : next ≤ frameCount blob
  last : tl.rxDataCtl.rxFtype = .lastFrame ↔ 1 < frameCount blob ∧ next = frameCount blob
  data : returned ++ tl.rxRb.contents = blob.take (next * 242)

variable {next : Nat} {returned : List UInt8}

theorem Receiving.unused (rc : Receiving blob next returned tl) :
    (rbUnusedLen tl.rxRb).toNat = room tl := by
  rw [rc.wf.unused, ← rc.wf.length_contents, rc.size, room]

theorem Receiving.length_le (rc : Receiving blob next returned tl) :
    tl.rxRb.contents.length ≤ 2048 := by
  rw [rc.wf.length_contents, ← rc.size]
  exact rc.wf.used

/-- A request changes only what it records about itself. -/
theorem sendDataReq_same (tl : ScomTl) :
    (scomTlSendDataReq tl).1.status = tl.status ∧ (scomTlSendDataReq tl).1.rxRb = tl.rxRb ∧
    (scomTlSendDataReq tl).1.rxDataCtl.rxFno = tl.rxDataCtl.rxFno ∧
    (scomTlSendDataReq tl).1.rxDataCtl.rxFtype = tl.rxDataCtl.rxFtype := by
  unfold scomTlSendDataReq
  split
  · exact ⟨rfl, rfl, rfl, rfl⟩
  · split
    · exact ⟨rfl, rfl, rfl, rfl⟩
    · exact ⟨rfl, rfl, rfl, rfl⟩

theorem Receiving.requested (rc : Receiving blob next returned tl) :
    Receiving blob next returned (scomTlSendDataReq tl).1 ∧
      room (scomTlSendDataReq tl).1 = room tl := by
  obtain ⟨status, ring, fno, ftype⟩ := sendDataReq_same tl
  refine ⟨⟨status.trans rc.status, ?_, ?_, ?_, rc.le, ?_, ?_⟩, ?_⟩
  · exact ring ▸ rc.wf
  · rw [ring]; exact rc.size
  · rw [fno]; exact rc.fno
  · rw [ftype]; exact rc.last
  · rw [ring]; exact rc.data
  · rw [room, ring, room]

/-- A request asks for the next frames, as many as fit, if one fits. -/
theorem Receiving.request (rc : Receiving blob next returned tl) (bound : blob.length ≤ 512 * 1024)
    (more : tl.rxDataCtl.rxFtype ≠ .lastFrame) :
    (room tl < 242 ∧ (scomTlSendDataReq tl).2 = []) ∨
    ∃ fcnt, 0 < fcnt ∧ fcnt ≤ 5 ∧ fcnt * 242 ≤ room tl ∧
      (scomTlSendDataReq tl).2 = [.dataReq next fcnt] := by
  have le := rc.le
  have unused := rc.unused
  have small : room tl ≤ 2048 := Nat.sub_le ..
  unfold scomTlSendDataReq
  rw [if_neg more, unused, scomTlFrameLen]
  by_cases fits : 242 ≤ room tl
  · right
    have fno : (tl.rxDataCtl.rxFno + 1).toNat % 2 ^ 16 = next := by
      rw [rc.fno]
      unfold frameCount at le
      omega
    rw [if_pos fits, fno]
    refine ⟨_, ?_, ?_, ?_, rfl⟩
    · split <;> omega
    · split <;> omega
    · split <;> omega
  · exact .inl ⟨Nat.lt_of_not_le fits, by rw [if_neg fits]⟩

/-- The client once the frame it expects is stored. -/
def storeFrame (blob : List UInt8) (next : Nat) (tl : ScomTl) : ScomTl :=
  { tl with
    rxDataCtl := { tl.rxDataCtl with
      used := true, rxFno := next, rxFlen := (chunk blob next).length
      rxFtype := frameType blob next
      rxLen := (tl.rxDataCtl.rxLen + (chunk blob next).length) % 2 ^ 32 }
    rxRb := (rbIn tl.rxRb (chunk blob next) (UInt32.ofNat (chunk blob next).length)).2 }

theorem Receiving.stored (rc : Receiving blob next returned tl) (inside : next < frameCount blob)
    (fits : 242 ≤ room tl) :
    Receiving blob (next + 1) returned (storeFrame blob next tl) ∧
      (storeFrame blob next tl).rxRb.contents = tl.rxRb.contents ++ chunk blob next := by
  obtain ⟨pos, short⟩ := length_chunk next inside
  have len : (UInt32.ofNat (chunk blob next).length).toNat = (chunk blob next).length := by
    rw [UInt32.toNat_ofNat', Nat.mod_eq_of_lt (by omega)]
  obtain ⟨wf, size, -, contents⟩ := rc.wf.stored len.le
  have all : min (chunk blob next).length (tl.rxRb.size.toNat - tl.rxRb.contents.length) =
      (chunk blob next).length := by
    unfold room at fits
    rw [rc.size]
    omega
  rw [len, all, List.take_length] at contents
  refine ⟨⟨rc.status, wf, ?_, rfl, inside, ?_, ?_⟩, contents⟩
  · exact (congrArg UInt32.toNat size).trans rc.size
  · change frameType blob next = .lastFrame ↔ _
    rw [frameType_last]
    omega
  · calc returned ++ (storeFrame blob next tl).rxRb.contents
        = returned ++ (tl.rxRb.contents ++ chunk blob next) := by rw [← contents]; rfl
      _ = blob.take (next * 242) ++ chunk blob next := by rw [← List.append_assoc, rc.data]
      _ = blob.take ((next + 1) * 242) := take_chunk blob next

/-- The frame that is expected is stored whole. -/
theorem Receiving.accept (rc : Receiving blob next returned tl) (bound : blob.length ≤ 512 * 1024)
    (inside : next < frameCount blob) (fits : 242 ≤ room tl) {answer : ScomTl × List ScomTlMsg}
    (h : scomTlProcDataOkRes tl (frameType blob next) next (chunk blob next) = answer) :
    Receiving blob (next + 1) returned answer.1 ∧ answer.1.rxRb.contents ≠ [] ∧
      room tl ≤ room answer.1 + 242 ∧
      (answer.2 = [] ∨ ∃ fcnt ≤ 5, fcnt * 242 ≤ room answer.1 ∧
        answer.2 = [.dataReq (next + 1) fcnt]) := by
  obtain ⟨rc', contents⟩ := rc.stored inside fits
  obtain ⟨pos, short⟩ := length_chunk next inside
  have nonempty : (storeFrame blob next tl).rxRb.contents ≠ [] := by
    rw [contents]
    exact List.append_ne_nil_of_right_ne_nil _ (List.ne_nil_of_length_pos pos)
  have left : room tl ≤ room (storeFrame blob next tl) + 242 := by
    rw [room, room, contents, List.length_append]
    omega
  have unfolded : scomTlProcDataOkRes tl (frameType blob next) next (chunk blob next) =
      if frameType blob next = .lastFrame then (storeFrame blob next tl, [])
      else if next = tl.rxDataCtl.reqFno + tl.rxDataCtl.reqFcnt then
        scomTlSendDataReq (storeFrame blob next tl)
      else (storeFrame blob next tl, []) := by
    unfold scomTlProcDataOkRes
    rw [if_neg (not_not.mpr rc.fno.symm)]
    rfl
  rw [unfolded] at h
  split at h
  · subst h
    exact ⟨rc', nonempty, left, .inl rfl⟩
  next more =>
    split at h
    · subst h
      obtain ⟨requested, same⟩ := rc'.requested
      have ring := (sendDataReq_same (storeFrame blob next tl)).2.1
      rw [ring, same]
      refine ⟨requested, nonempty, left, ?_⟩
      rcases rc'.request bound more with ⟨-, none⟩ | ⟨fcnt, -, five, window, sent⟩
      · exact .inl none
      · exact .inr ⟨fcnt, five, window, sent⟩
    · subst h
      exact ⟨rc', nonempty, left, .inl rfl⟩

/-- Any other frame is dropped. -/
theorem procDataOkRes_other {fno : Nat} (other : (fno : Int) ≠ tl.rxDataCtl.rxFno + 1)
    (ftype : ScomTlFrameType) (data : List UInt8) :
    scomTlProcDataOkRes tl ftype fno data = (tl, []) := if_pos other

/-- The client after bytes were read, but not the last ones. -/
def readBytes (tl : ScomTl) (len : UInt32) : ScomTl := { tl with rxRb := (rbOut tl.rxRb len).2 }

/-- A read finds nothing, takes nothing, takes some bytes, or takes the last ones and stops the
client. -/
theorem Receiving.getData (rc : Receiving blob next returned tl) (len : UInt32) :
    (tl.rxRb.contents = [] ∧ scomTlGetData tl len =
      (⟨0, [], tl.rxDataCtl.rxFtype = .lastFrame⟩, tl, [])) ∨
    (tl.rxRb.contents ≠ [] ∧ len = 0 ∧ scomTlGetData tl len = (⟨0, [], false⟩, tl, [])) ∨
    (∃ bytes ≠ [], bytes = tl.rxRb.contents.take len.toNat ∧
      Receiving blob next (returned ++ bytes) (readBytes tl len) ∧
      room (readBytes tl len) = room tl + bytes.length ∧
      ((tl.rxDataCtl.rxFtype ≠ .lastFrame ∧ scomTlGetData tl len =
          (⟨bytes.length, bytes, false⟩, scomTlSendDataReq (readBytes tl len))) ∨
        (tl.rxDataCtl.rxFtype = .lastFrame ∧ (readBytes tl len).rxRb.contents ≠ [] ∧
          scomTlGetData tl len = (⟨bytes.length, bytes, false⟩, readBytes tl len, [])) ∨
        (tl.rxDataCtl.rxFtype = .lastFrame ∧ (readBytes tl len).rxRb.contents = [] ∧
          scomTlGetData tl len =
            (⟨bytes.length, bytes, true⟩, scomTlStopClient (readBytes tl len), [])))) := by
  obtain ⟨wf, size, bytes_eq, contents⟩ := rc.wf.taken len
  have started : ¬ tl.status ≠ .clientStarted := not_not.mpr rc.status
  -- nothing received, or nothing asked for, or some bytes
  by_cases empty : tl.rxRb.contents = []
  · left
    refine ⟨empty, ?_⟩
    rw [scomTlGetData, if_neg started, if_pos (rc.wf.rbEmpty_iff.mpr empty)]
  right
  have holds : ¬ rbEmpty tl.rxRb = true := rc.wf.rbEmpty_iff.not.mpr empty
  by_cases nothing : (rbOut tl.rxRb len).1 = []
  · left
    have same := rc.wf.taken_none empty nothing
    have zero : len = 0 := by
      rw [bytes_eq, List.take_eq_nil_iff] at nothing
      exact UInt32.toNat_inj.mp (nothing.resolve_right empty)
    refine ⟨empty, zero, ?_⟩
    rw [scomTlGetData, if_neg started, if_neg holds]
    simp only [nothing, List.length_nil, le_refl, if_true, same]
  right
  have some : ¬ (rbOut tl.rxRb len).1.length ≤ 0 := by
    simpa using nothing
  refine ⟨_, nothing, bytes_eq, ⟨rc.status, wf, ?_, rc.fno, rc.le, rc.last, ?_⟩, ?_, ?_⟩
  · exact (congrArg UInt32.toNat size).trans rc.size
  · change returned ++ (rbOut tl.rxRb len).1 ++ (rbOut tl.rxRb len).2.contents = _
    rw [bytes_eq, contents, List.append_assoc, List.take_append_drop, rc.data]
  · have bound := rc.length_le
    change 2048 - (rbOut tl.rxRb len).2.contents.length = _
    rw [room, bytes_eq, contents, List.length_drop, List.length_take]
    omega
  · -- a request for the next frame goes out unless this was the last
    have gotten : scomTlGetData tl len =
        let sent := if tl.rxDataCtl.rxFtype ≠ .lastFrame then scomTlSendDataReq (readBytes tl len)
          else (readBytes tl len, [])
        if sent.1.rxDataCtl.rxFtype = .lastFrame ∧ rbEmpty sent.1.rxRb then
          (⟨(rbOut tl.rxRb len).1.length, (rbOut tl.rxRb len).1, true⟩, scomTlStopClient sent.1,
            sent.2)
        else (⟨(rbOut tl.rxRb len).1.length, (rbOut tl.rxRb len).1, false⟩, sent) := by
      rw [scomTlGetData, if_neg started, if_neg holds]
      dsimp only
      rw [if_neg some]
      rfl
    rw [gotten]
    dsimp only
    by_cases last : tl.rxDataCtl.rxFtype = .lastFrame
    · right
      rw [if_neg (not_not.mpr last)]
      by_cases rest : (readBytes tl len).rxRb.contents = []
      · exact .inr ⟨last, rest, if_pos ⟨last, wf.rbEmpty_iff.mpr rest⟩⟩
      · exact .inl ⟨last, rest, if_neg fun both => rest (wf.rbEmpty_iff.mp both.2)⟩
    · left
      rw [if_pos last]
      obtain ⟨-, -, -, ftype⟩ := sendDataReq_same (readBytes tl len)
      exact ⟨last, if_neg fun both => last (ftype.symm.trans both.1)⟩

end Scom
