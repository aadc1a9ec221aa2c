import TBoxMpu.Autopilot.Receive
import TBoxMpu.Lib.Checked
import TBoxMpu.Lib.Runs

/-!
# Messages from the TSP server

`ap_msg_proc` of `ap_data.c` and the receive branch of `ap_main`, with a fault where they leave
the message, the URL buffer or the receive buffer, or take a length below zero.

## Main result

`ap_receive_safe`: in every run whose receptions meet `RecvOk`, `recv_len` stays in the buffer,
and a reception is free of faults exactly if it meets `RecvOk`.
-/

namespace Ap

open Checked

inductive ApFault
  | recvLen
  | below
  | outside
  | urlBuf
  deriving DecidableEq

/-- `InvCipher` with the expanded key: the key and the 16 bytes of the block to a byte of it. -/
abbrev InvCipher := List UInt8 → List UInt8 → Nat → UInt8

def invBlock (inv : InvCipher) (key : List UInt8) (msg : Mem) (i : Nat) : Mem := fun k =>
  if i ≤ k ∧ k < i + 16 then inv key (bytesAt msg i 16) (k - i) else msg k

/-- `InvCipherString(&msg[22], len - 22 - 4, tsp_tukey)` for the message of `m` bytes at `s`. -/
def apDecrypt (inv : InvCipher) (key : List UInt8) : Proc := fun msg s m =>
  (List.range ((m - 26 + 15) / 16)).foldl
    (fun msg k => invBlock inv key msg (s + 22 + 16 * k)) msg

inductive ApAction
  | fotaRequest (mode : UInt8) (url md5 : List UInt8)
  | answer (sid fid : UInt8) (eid : Nat)
  | infoAcked
  | newKey (key : List UInt8)
  | keyChecked
  deriving DecidableEq

/-- One digit of `str_to_hex`; for another character the last digit stays. -/
def hexDigit (c : UInt8) (h : Nat) : Nat :=
  if 0x30 ≤ c ∧ c ≤ 0x39 then c.toNat - 0x30
  else if 0x41 ≤ c ∧ c ≤ 0x5a then c.toNat - 0x41 + 10
  else if 0x61 ≤ c ∧ c ≤ 0x7a then c.toNat - 0x61 + 10
  else h

def strToHex : Nat → Nat → List UInt8 → List UInt8
  | h1, h2, a :: b :: src =>
    let h1 := hexDigit a h1
    let h2 := hexDigit b h2
    UInt8.ofNat (h1 * 16 + h2) :: strToHex h1 h2 src
  | _, _, _ => []

/-- `msg[54] * 65536 + msg[55] * 256 + msg[56]`. -/
def lengthField (msg : Nat → UInt8) : Nat :=
  (msg 54).toNat * 65536 + (msg 55).toNat * 256 + (msg 56).toNat

/-- The update request, `0x16 == sid && 0x01 == fid`, for the decrypted message of `m` bytes. -/
def apUpdateRequest (msg : Nat → UInt8) (m : Nat) : Except ApFault (List ApAction) := do
  let _ ← fetchAll .outside msg m 54 3
  let bodyLen ← minus .below (lengthField msg) 40
  let rest ← minus .below bodyLen 32
  if 256 ≤ rest then
    -- url is too long
    .ok []
  else do
    let md5 ← fetchAll .outside msg m 77 32
    let mode ← fetch .outside msg m (77 + 32)
    let size ← minus .below rest 1
    let buf ← fetchString .outside msg m (77 + 32 + 1) size
    need .urlBuf (size < 256)
    .ok [.fotaRequest mode (cString buf) (strToHex 0 0 md5)]

/-- `ap_msg_proc` for the message of `m` bytes at `s`: the key from then on and what is done. -/
def apMsgProc (inv : InvCipher) (key : List UInt8) (mem : Mem) (s m : Nat) :
    Except ApFault (List UInt8 × List ApAction) := do
  let _ ← minus .below m 26
  need .outside (decryptEnd m ≤ m)
  let msg : Nat → UInt8 := fun i => apDecrypt inv key mem s m (s + i)
  let eidHigh ← fetch .outside msg m 44
  let eidLow ← fetch .outside msg m 45
  let sid ← fetch .outside msg m 46
  let fid ← fetch .outside msg m 47
  let eid := eidHigh.toNat * 256 + eidLow.toNat
  if m ≤ 77 + 24 then .ok (key, [])
  else if sid = 0x16 ∧ fid = 0x01 then do
    let actions ← apUpdateRequest msg m
    .ok (key, actions ++ [.answer 0x66 0x01 eid])
  else if sid = 0x16 ∧ fid = 0x02 then .ok (key, [.infoAcked])
  else if sid = 0x23 ∧ fid = 0x02 then do
    let key ← fetchAll .outside msg m 77 16
    .ok (key, [.newKey key, .answer 0x73 0x02 eid])
  else if sid = 0x23 ∧ fid = 0x03 then .ok (key, [.keyChecked])
  else .ok (key, [])

/-- The message that `ap_recv_proc` finds in the first `len` bytes, handed to `ap_msg_proc`. -/
def apHandle (inv : InvCipher) (key : List UInt8) (msg : Mem) (len : Nat) :
    Except ApFault (List UInt8 × List ApAction) :=
  match apScan msg len len 0 none with
  | (some s, some e) => apMsgProc inv key msg s (e - s + 1)
  | _ => .ok (key, [])

def recvBufSize : Nat := 2 * 1024

structure ApState where
  recvBuf : Mem
  recvLen : Nat
  tukey : List UInt8
  connectSt : Bool

/-- The static buffer and length of `ap_main` and the key that the configuration holds. -/
def ApStart (st : ApState) : Prop :=
  st.recvLen = 0 ∧ st.connectSt = false

def EINTR : Nat := 4
def EAGAIN : Nat := 11

inductive ApEvent
  | connect
  | disconnect
  | recvData (bytes : List UInt8)
  | recvClosed
  | recvError (errno : Nat)

/-- `recv` gives at least one byte and no more than asked for. -/
def ApEvent.Valid (st : ApState) : ApEvent → Prop
  | .recvData bytes => 1 ≤ bytes.length ∧ st.recvLen + bytes.length ≤ recvBufSize
  | _ => True

instance (st : ApState) (ev : ApEvent) : Decidable (ev.Valid st) := by
  cases ev <;> unfold ApEvent.Valid <;> infer_instance

/-- `recv_len += ret; ap_recv_proc(&apinfo, recv_buf, &recv_len);` -/
def apReceived (inv : InvCipher) (st : ApState) (msg : Mem) (ret : Nat) :
    Except ApFault (ApState × List ApAction) := do
  let len := (st.recvLen + ret) % 2 ^ 32
  need .recvLen (len ≤ recvBufSize)
  let (key, actions) ← apHandle inv st.tukey msg len
  let kept := apRecvProc (apDecrypt inv st.tukey) msg len
  .ok (⟨kept.msg, kept.len, key, st.connectSt⟩, actions)

/-- One event of `ap_main`; `beyond` is what lies behind the receive buffer. -/
def apStep (inv : InvCipher) (st : ApState) (beyond : Mem) :
    ApEvent → Except ApFault (ApState × List ApAction)
  | .connect => .ok ({ st with connectSt := true }, [])
  | .disconnect => .ok ({ st with connectSt := false }, [])
  | .recvData bytes =>
    if st.connectSt then
      apReceived inv st (apAppend st.recvBuf st.recvLen bytes fun i =>
        if i < recvBufSize then st.recvBuf i else beyond i) bytes.length
    else .ok (st, [])
  | .recvClosed => .ok ({ st with connectSt := false }, [])
  | .recvError errno =>
    if st.connectSt then
      if errno = EINTR ∨ errno = EAGAIN then .ok ({ st with connectSt := false }, [])
      else
        -- the result -1 is added to the unsigned length
        apReceived inv st (fun i => if i < recvBufSize then st.recvBuf i else beyond i)
          (2 ^ 32 - 1)
    else .ok (st, [])

/-! ### Decryption -/

theorem invBlock_outside {inv : InvCipher} {key : List UInt8} {msg : Mem} {i k : Nat}
    (outside : k < i ∨ i + 16 ≤ k) : invBlock inv key msg i k = msg k := by
  rw [invBlock, if_neg]
  omega

theorem apDecrypt_leavesRest (inv : InvCipher) (key : List UInt8) :
    LeavesRest (apDecrypt inv key) := by
  intro msg s m i outside
  -- the blocks decrypted so far end at `s + 22 + 16 * n`
  have blocks : ∀ n, i < s + 22 ∨ s + 22 + 16 * n ≤ i →
      (List.range n).foldl (fun msg k => invBlock inv key msg (s + 22 + 16 * k)) msg i =
        msg i := by
    intro n
    induction n with
    | zero => exact fun _ => rfl
    | succ n ih =>
      intro outside
      rw [List.range_succ, List.foldl_append, List.foldl_cons, List.foldl_nil,
        invBlock_outside (by omega)]
      exact ih (by omega)
  exact blocks _ (by rw [decryptEnd] at outside; omega)

/-! ### When a message is handled without a fault -/

/-- The update request for the decrypted message `msg` of `m` bytes: the length field is that of
a request with a URL, and the URL, if it is not too long, lies inside or ends inside. -/
def UpdateOk (msg : Nat → UInt8) (m : Nat) : Prop :=
  73 ≤ lengthField msg ∧ (lengthField msg < 328 → 110 ≤ m ∧
    (lengthField msg + 37 ≤ m ∨ ∃ k, 110 ≤ k ∧ k < m ∧ k < lengthField msg + 37 ∧ msg k = 0))

/-- The message of `m` bytes at `s`: it has its four identifiers, the last block decrypted ends
inside, and an update request meets `UpdateOk`. -/
def MsgOk (inv : InvCipher) (key : List UInt8) (mem : Mem) (s m : Nat) : Prop :=
  let msg : Nat → UInt8 := fun i => apDecrypt inv key mem s m (s + i)
  48 ≤ m ∧ decryptEnd m ≤ m ∧ (101 < m → msg 46 = 0x16 → msg 47 = 0x01 → UpdateOk msg m)

theorem apUpdateRequest_safe {msg : Nat → UInt8} {m : Nat} (long : 101 < m) :
    Safe (apUpdateRequest msg m) ↔ UpdateOk msg m := by
  unfold apUpdateRequest UpdateOk
  simp only [safe_fetchAll_bind, safe_minus_bind, safe_ite, safe_ok, implies_true, true_and,
    safe_fetch_bind]
  by_cases tooLong : 256 ≤ lengthField msg - 40 - 32
  · simp only [tooLong, not_true, false_implies, and_true]
    omega
  · have short : lengthField msg - 40 - 32 - 1 < 256 := by omega
    simp only [tooLong, not_false_eq_true, true_implies]
    have bounded : ∀ buf : List UInt8, Safe (do
        need ApFault.urlBuf (lengthField msg - 40 - 32 - 1 < 256)
        .ok [ApAction.fotaRequest (msg (77 + 32)) (cString buf)
          (strToHex 0 0 (stretch msg 77 32))]) :=
      fun buf => safe_need_bind.mpr ⟨short, safe_ok _⟩
    rw [safe_bind_of bounded]
    constructor
    · rintro ⟨-, low, low', md5, mode, size, safe⟩
      refine ⟨by omega, fun _ => ⟨by omega, ?_⟩⟩
      rcases (safe_fetchString (by omega)).mp safe with fits | ⟨k, low, inside, high, ends⟩
      · exact .inl (by omega)
      · exact .inr ⟨k, low, inside, by omega, ends⟩
    · rintro ⟨low, inside⟩
      obtain ⟨mode, url⟩ := inside (by omega)
      have whole : Safe (fetchString ApFault.outside msg m (77 + 32 + 1)
          (lengthField msg - 40 - 32 - 1)) := by
        refine (safe_fetchString mode).mpr ?_
        rcases url with fits | ⟨k, low, inside, high, ends⟩
        · exact .inl (by omega)
        · exact .inr ⟨k, low, inside, by omega, ends⟩
      clear url
      exact ⟨by omega, by omega, by omega, by omega, by omega, by omega, whole⟩

theorem apMsgProc_safe {inv : InvCipher} {key : List UInt8} {mem : Mem} {s m : Nat} :
    Safe (apMsgProc inv key mem s m) ↔ MsgOk inv key mem s m := by
  unfold apMsgProc MsgOk
  simp only [safe_fetchAll_bind, safe_minus_bind, safe_need_bind, safe_ite, safe_ok,
    implies_true, true_and, safe_fetch_bind, and_true]
  rw [safe_bind_of fun actions => safe_ok _]
  constructor
  · rintro ⟨-, blocks, -, -, -, fid, request⟩
    refine ⟨by omega, blocks, fun long sid fid => ?_⟩
    exact (apUpdateRequest_safe long).mp ((request (by omega)).1 ⟨sid, fid⟩)
  · rintro ⟨low, blocks, request⟩
    refine ⟨by omega, blocks, by omega, by omega, by omega, by omega, fun long => ⟨?_, ?_⟩⟩
    · rintro ⟨sid, fid⟩
      have long : 101 < m := by omega
      exact (apUpdateRequest_safe long).mpr (request long sid fid)
    · intros
      omega

/-! ### Receptions -/

/-- The message found in the first `len` bytes, if there is one, is handled without a fault. -/
def FoundOk (inv : InvCipher) (key : List UInt8) (msg : Mem) (len : Nat) : Prop :=
  ∀ s e, First (isStart msg) 0 len s → First (isEnd msg) (s + 4) len e →
    MsgOk inv key msg s (e - s + 1)

theorem apHandle_safe {inv : InvCipher} {key : List UInt8} {msg : Mem} {len : Nat} :
    Safe (apHandle inv key msg len) ↔ FoundOk inv key msg len := by
  unfold apHandle
  rcases apScan_start (show len ≤ 0 + len by omega) with
    ⟨s, start, ⟨e, last, eq⟩ | ⟨none, eq⟩⟩ | ⟨none, eq⟩
  · rw [eq]
    refine apMsgProc_safe.trans ⟨fun ok s' e' start' last' => ?_, fun ok => ok s e start last⟩
    obtain rfl := start.unique start'
    obtain rfl := last.unique last'
    exact ok
  · rw [eq]
    refine ⟨fun _ s' e start' last => ?_, fun _ => safe_ok _⟩
    obtain rfl := start.unique start'
    exact absurd last.2.2.1 (by simp [none e last.1 last.2.1])
  · rw [eq]
    refine ⟨fun _ s e start _ => ?_, fun _ => safe_ok _⟩
    exact absurd start.2.2.1 (by simp [none s start.1 start.2.1])

theorem apRecvProc_len_le (proc : Proc) (msg : Mem) (len : Nat) :
    (apRecvProc proc msg len).len ≤ len := by
  unfold apRecvProc
  split <;> simp only <;> omega

/-- What a reception must meet: the message found, if there is one, and for an error that does
not close the connection that a byte is there that the result -1 can take off. -/
def RecvOk (inv : InvCipher) (st : ApState) (beyond : Mem) : ApEvent → Prop
  | .recvData bytes => st.connectSt → FoundOk inv st.tukey
      (apAppend st.recvBuf st.recvLen bytes fun i =>
        if i < recvBufSize then st.recvBuf i else beyond i) (st.recvLen + bytes.length)
  | .recvError errno => st.connectSt → errno ≠ EINTR → errno ≠ EAGAIN → 0 < st.recvLen ∧
      FoundOk inv st.tukey (fun i => if i < recvBufSize then st.recvBuf i else beyond i)
        (st.recvLen - 1)
  | _ => True

theorem apReceived_safe {inv : InvCipher} {st : ApState} {msg : Mem} {ret : Nat} :
    Safe (apReceived inv st msg ret) ↔ (st.recvLen + ret) % 2 ^ 32 ≤ recvBufSize ∧
      FoundOk inv st.tukey msg ((st.recvLen + ret) % 2 ^ 32) := by
  unfold apReceived
  rw [safe_need_bind, safe_bind_of fun _ => safe_ok _, apHandle_safe]

theorem apReceived_len {inv : InvCipher} {st st' : ApState} {msg : Mem} {ret : Nat}
    {actions : List ApAction} (received : apReceived inv st msg ret = .ok (st', actions)) :
    st'.recvLen ≤ recvBufSize := by
  have fits := (apReceived_safe.mp ⟨_, received⟩).1
  simp only [apReceived, need, if_pos fits] at received
  cases handled : apHandle inv st.tukey msg ((st.recvLen + ret) % 2 ^ 32) with
  | error fault =>
    rw [handled] at received
    exact nomatch received
  | ok done =>
    rw [handled] at received
    cases received
    exact Nat.le_trans (apRecvProc_len_le _ _ _) fits

/-- One step: a reception is free of faults exactly if it meets `RecvOk`. -/
theorem apStep_safe {inv : InvCipher} {st : ApState} {beyond : Mem} {ev : ApEvent}
    (fits : st.recvLen ≤ recvBufSize) (valid : ev.Valid st) :
    Safe (apStep inv st beyond ev) ↔ RecvOk inv st beyond ev := by
  cases ev with
  | connect => exact iff_of_true (safe_ok _) trivial
  | disconnect => exact iff_of_true (safe_ok _) trivial
  | recvClosed => exact iff_of_true (safe_ok _) trivial
  | recvData bytes =>
    unfold apStep RecvOk
    have exact_len : (st.recvLen + bytes.length) % 2 ^ 32 = st.recvLen + bytes.length :=
      Nat.mod_eq_of_lt (Nat.lt_of_le_of_lt valid.2 (by decide))
    rw [safe_ite, apReceived_safe, exact_len]
    simp only [safe_ok, implies_true, and_true]
    exact ⟨fun safe on => (safe on).2, fun found on => ⟨valid.2, found on⟩⟩
  | recvError errno =>
    unfold apStep RecvOk
    rw [safe_ite, safe_ite, apReceived_safe]
    simp only [safe_ok, implies_true, and_true, true_and, not_or]
    -- from 0 the length goes to `2 ^ 32 - 1`
    have below : (st.recvLen + (2 ^ 32 - 1)) % 2 ^ 32 ≤ recvBufSize ↔ 0 < st.recvLen := by
      unfold recvBufSize at *
      omega
    have taken : 0 < st.recvLen → (st.recvLen + (2 ^ 32 - 1)) % 2 ^ 32 = st.recvLen - 1 := by
      unfold recvBufSize at *
      omega
    rw [below]
    refine ⟨fun safe on intr again => ?_, fun safe on other => ?_⟩
    · obtain ⟨some, found⟩ := safe on ⟨intr, again⟩
      exact ⟨some, taken some ▸ found⟩
    · obtain ⟨some, found⟩ := safe on other.1 other.2
      exact ⟨some, (taken some).symm ▸ found⟩

theorem apStep_len {inv : InvCipher} {st st' : ApState} {beyond : Mem} {ev : ApEvent}
    {actions : List ApAction} (fits : st.recvLen ≤ recvBufSize)
    (step : apStep inv st beyond ev = .ok (st', actions)) : st'.recvLen ≤ recvBufSize := by
  cases ev with
  | connect => cases step; exact fits
  | disconnect => cases step; exact fits
  | recvClosed => cases step; exact fits
  | recvData bytes =>
    simp only [apStep] at step
    split_ifs at step
    · exact apReceived_len step
    · cases step
      exact fits
  | recvError errno =>
    simp only [apStep] at step
    split_ifs at step
    · cases step
      exact fits
    · exact apReceived_len step
    · cases step
      exact fits

/-- The steps of `ap_main`, with what lies behind the buffer at the time. -/
def ApRuns (inv : InvCipher) (st : ApState) (a : ApEvent × Mem) (st' : ApState) : Prop :=
  a.1.Valid st ∧ ∃ actions, apStep inv st a.2 a.1 = .ok (st', actions)

/-- **Receive safety.** -/
theorem ap_receive_safe {inv : InvCipher} {st : ApState}
    (reach : Runs.Reach ApStart
      (Runs.Guarded (fun st a => RecvOk inv st a.2 a.1) (ApRuns inv)) st) :
    st.recvLen ≤ recvBufSize ∧ ∀ ev beyond, ApEvent.Valid st ev →
      (Safe (apStep inv st beyond ev) ↔ RecvOk inv st beyond ev) := by
  have fits : st.recvLen ≤ recvBufSize := by
    refine @Runs.Reach.invariant _ _ _ _ (fun st : ApState => st.recvLen ≤ recvBufSize) ?_ ?_ _
      reach
    · rintro st ⟨empty, -⟩
      exact empty ▸ Nat.zero_le recvBufSize
    · rintro st ⟨ev, beyond⟩ st' fits ⟨-, -, actions, step⟩
      exact apStep_len fits step
  exact ⟨fits, fun ev beyond valid => apStep_safe fits valid⟩

/-- A block cipher that leaves the block as it is. -/
def plainBlocks : InvCipher := fun _ block i => (block[i]?).getD 0

def apConnected : ApState := ⟨fun _ => 0, 0, [], true⟩

theorem apConnected_step : ApRuns plainBlocks ⟨fun _ => 0, 0, [], false⟩
    (.connect, fun _ => 0) apConnected :=
  ⟨trivial, [], rfl⟩

/-- A frame of one block more than the identifiers take. -/
def plainFrame : List UInt8 := startMark ++ List.replicate 50 0 ++ endMark

theorem plainFrame_found : FoundOk plainBlocks [] (apAppend apConnected.recvBuf
    apConnected.recvLen plainFrame fun i => if i < recvBufSize then apConnected.recvBuf i else 0)
    (apConnected.recvLen + plainFrame.length) := by
  intro s e start last
  obtain rfl : s = 0 := start.unique ⟨Nat.le_refl 0, by decide, by decide, by omega⟩
  have before : ∀ j < 54, isEnd (apAppend apConnected.recvBuf apConnected.recvLen plainFrame
      fun i => if i < recvBufSize then apConnected.recvBuf i else 0) j = false := by decide
  obtain rfl : e = 54 := last.unique ⟨by decide, by decide, by decide, fun j _ => before j⟩
  exact ⟨by decide, by decide, fun long => absurd long (by decide)⟩

theorem ap_receive_safe_frame : apConnected.recvLen ≤ recvBufSize ∧
    Safe (apStep plainBlocks apConnected (fun _ => 0) (.recvData plainFrame)) := by
  have safe := @ap_receive_safe plainBlocks apConnected
    (.next (.connect, fun _ => 0) (.start ⟨rfl, rfl⟩) ⟨trivial, apConnected_step⟩)
  exact ⟨safe.1, (safe.2 _ _ (by decide)).mpr fun _ => plainFrame_found⟩

/-- A reset connection takes the length of the empty buffer below zero. -/
theorem ap_receive_unsafe : ¬ ∀ (inv : InvCipher) (st : ApState),
    Runs.Reach ApStart (ApRuns inv) st → st.recvLen ≤ recvBufSize ∧
      ∀ ev beyond, ApEvent.Valid st ev → Safe (apStep inv st beyond ev) := by
  intro claim
  have reach : Runs.Reach ApStart (ApRuns plainBlocks) apConnected :=
    .next _ (.start ⟨rfl, rfl⟩) apConnected_step
  have reset := (claim _ _ reach).2 (.recvError 104) (fun _ => 0) trivial
  have valid : ApEvent.Valid apConnected (.recvError 104) := trivial
  have taken := (apStep_safe (Nat.zero_le recvBufSize) valid).mp reset
  exact absurd (taken rfl (by decide) (by decide)).1 (by decide)

end Ap
