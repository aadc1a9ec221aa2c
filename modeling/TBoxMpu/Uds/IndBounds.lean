import TBoxMpu.Fota.UdsMatch
import TBoxMpu.Lib.Checked
import TBoxMpu.Uds.Indication

/-!
# What an indication makes the client read and store

The client's side of `MSG_ID_UDS_IND` in `uds_proxy` with the two callbacks that responses
can go to, `fota_uds_callback` and `UDS_Client_GetResponse`. Every byte of the message that is
looked at is checked against the bytes received, and every store against the buffer. The
checks fail exactly for payloads of no, one or two bytes that are read on, and for responses
that are longer than the buffer they go to (`indication_safe_iff`).
-/

namespace Uds

open Checked Fota

/-- Something behind the message was read, or something behind a response buffer written. -/
inductive IndFault
  | read | store
  deriving DecidableEq, Repr

/-! ### The callbacks -/

/-- `UDS_CLIENT_DATA_LIST_T`, without the bytes of the request. -/
structure UdsClientDataList where
  requestSid : UInt8
  requestDlc : Nat
  responseValid : Bool
  responseId : UInt32
  responseSid : UInt8
  responseDlc : Nat
  responseData : List UInt8
  deriving DecidableEq, Repr

/-- The arguments of `g_phCallBackHandle`: what the pointer points to. -/
structure AppCall where
  errorCode : UInt8
  dataLen : UInt16
  data : List UInt8
  deriving DecidableEq, Repr

def udsClientDataSize : Nat := 512 + 10

/-- `UDS_Client_GetResponse`; `data` and `n` are what it is called with. A negative response is
looked at only if it has the three bytes. -/
def udsClientGetResponse (uds : UdsT) (g : UdsClientDataList) (canId : UInt32)
    (data : Nat → UInt8) (n : Nat) : Except IndFault (UdsClientDataList × AppCall) :=
  if canId = uds.canIdRes then do
    let first ← fetch .read data n 0
    if n = 3 ∧ first = sidNegativeResponse ∧ g.requestSid = data 1 then
      .ok (g, ⟨data 2, 0, []⟩)
    else if g.requestSid.toNat + posRespondSidMask.toNat = first.toNat then do
      need .store (n ≤ udsClientDataSize)
      let bytes ← fetchAll .read data n 0 n
      let responseData := bytes ++ List.replicate (udsClientDataSize - n) 0
      let g := { g with
        responseId := canId, responseSid := first, responseDlc := n, responseData
        responseValid := true }
      if first = 0x34 + posRespondSidMask then
        -- a block size above 0x200 is replaced
        let g := { g with
          responseData := if responseData.getD 2 0 > 2 then
            responseData.take 1 ++ [0x20, 0x02, 0x00] ++ responseData.drop 4 else responseData }
        .ok (g, ⟨0, UInt16.ofNat (n - 1), g.responseData.drop 1⟩)
      else if g.requestDlc < n then
        .ok (g, ⟨0, UInt16.ofNat (n - g.requestDlc), g.responseData.drop g.requestDlc⟩)
      else .ok (g, ⟨0, 0, []⟩)
    else .ok (g, ⟨1, 0, []⟩)
  else .ok (g, ⟨2, 0, []⟩)

/-- `FotaUds.keep`, of the response without its first `skip` bytes. -/
def fotaUdsKeep (s : FotaUds) (data : Nat → UInt8) (n skip : Nat) : Except IndFault FotaUds := do
  let size ← minus .store n skip
  need .store (size ≤ 512)
  let bytes ← fetchAll .read data n skip size
  .ok { s with size, data := bytes ++ s.data.drop size, code := 0 }

/-- `sid` in `fota_uds_callback` -/
def callbackSidAt (data : Nat → UInt8) (n : Nat) : Except IndFault Int := do
  let first ← fetch .read data n 0
  if first = sidNegativeResponse then do
    let second ← fetch .read data n 1
    .ok second.toNat
  else .ok (first.toNat - 0x40)

/-- `fota_uds_callback` for an indication. -/
def fotaUdsInd (s : FotaUds) (canId : UInt32) (data : Nat → UInt8) (n : Nat) :
    Except IndFault FotaUds := do
  let sid ← callbackSidAt data n
  if s.state = .waitServ ∧ s.srvId = sid then do
    let first ← fetch .read data n 0
    if first = sidNegativeResponse then do
      let nrc ← fetch .read data n 2
      .ok ({ s with code := nrc.toNat, size := 0 }.moveTo .opened)
    else if s.reqId ≠ s.client.canIdFun ∧ s.client.canIdRes = canId then
      if s.subFun ≠ 0 then do
        let sub ← fetch .read data n 1
        if s.subFun.toInt = sub.toNat then do
          let s ← fotaUdsKeep s data n 2
          .ok (s.moveTo .opened)
        else .ok s
      else do
        let s ← fotaUdsKeep s data n 1
        .ok (s.moveTo .opened)
    else .ok s
  else .ok s

/-! ### The proxy -/

/-- `uds_client_cb` -/
inductive UdsCb
  | none
  | fota (s : FotaUds)
  | app (g : UdsClientDataList)

def UdsCb.call (uds : UdsT) (cb : UdsCb) (canId : UInt32) (data : Nat → UInt8) (n : Nat) :
    Except IndFault UdsCb :=
  match cb with
  | .none => .ok .none
  | .fota s => do
    let s ← fotaUdsInd { s with client := uds } canId data n
    .ok (.fota s)
  | .app g => do
    let (g, _) ← udsClientGetResponse uds g canId data n
    .ok (.app g)

/-- `srv_id` in `uds_proxy` -/
def srvIdAt (data : Nat → UInt8) (n : Nat) : Except IndFault UInt8 := do
  let first ← fetch .read data n 0
  if first = sidNegativeResponse then fetch .read data n 1
  else .ok (first - posRespondSidMask)

/-- The response says that another one is to come. -/
def pendingAt (data : Nat → UInt8) (n : Nat) : Except IndFault Bool := do
  let first ← fetch .read data n 0
  if first = sidNegativeResponse then do
    let nrc ← fetch .read data n 2
    .ok (decide (nrc = nrcResponsePending))
  else .ok false

/-- `MSG_ID_UDS_IND` in `uds_proxy`, as far as the client goes. -/
def udsProxyInd (uds : UdsT) (cb : UdsCb) (buf : Nat → UInt8) (len : Nat) :
    Except IndFault (UdsT × UdsCb) :=
  if len - 1 < 6 then .ok (uds, cb)
  else do
    let low ← fetch .read buf len 5
    let high ← fetch .read buf len 6
    if len - 1 - 6 ≠ low.toNat + high.toNat * 0xFF then .ok (uds, cb)
    else do
      let id ← fetchAll .read buf len 1 4
      let canId := canIdAt (0 :: id)
      let data := fun i => buf (7 + i)
      let n := len - 1 - 6
      if canId = udsCanIdFun ∨ canId = udsCanIdPhy then .ok (uds, cb)
      else do
        let srvId ← srvIdAt data n
        if srvId = uds.sid ∧ srvId ≠ sidTestPresent then do
          let pending ← pendingAt data n
          let uds := (uds.setTimer .p2Client false).setTimer .p2ExtClient pending
          let cb ← cb.call uds canId data n
          .ok (uds, cb)
        else .ok (uds, cb)

/-! ### What the checks leave as it was -/

theorem fetch_ok {data : Nat → UInt8} {n i : Nat} {b : UInt8} {e : IndFault}
    (done : fetch e data n i = .ok b) : b = data i := by
  unfold fetch at done
  split at done
  · exact (Except.ok.inj done).symm
  · exact nomatch done

/-- A read in front of the rest of a computation. -/
theorem fetch_bind {α : Type} {data : Nat → UInt8} {n i : Nat} {r : α}
    {rest : UInt8 → Except IndFault α} {e : IndFault}
    (done : (fetch e data n i >>= rest) = .ok r) : rest (data i) = .ok r := by
  obtain ⟨b, read, done⟩ := bind_ok_iff.mp done
  rwa [fetch_ok read] at done

theorem callbackSidAt_ok {data : List UInt8} {n : Nat} {sid : Int}
    (done : callbackSidAt (fun i => data.getD i 0) n = .ok sid) : sid = callbackSid data := by
  replace done := fetch_bind done
  unfold callbackSid
  split at done
  next neg =>
    replace done := fetch_bind done
    rw [if_pos neg, Except.ok.inj done]
  next other => rw [if_neg other, Except.ok.inj done]

theorem fotaUdsKeep_ok {s s' : FotaUds} {data : List UInt8} {n skip : Nat}
    (inside : n ≤ data.length) (done : fotaUdsKeep s (fun i => data.getD i 0) n skip = .ok s') :
    s' = s.keep data n skip := by
  obtain ⟨size, behind, done⟩ := bind_ok_iff.mp done
  obtain ⟨⟨⟩, -, done⟩ := bind_ok_iff.mp done
  obtain ⟨bytes, read, done⟩ := bind_ok_iff.mp done
  unfold minus at behind
  unfold fetchAll at read
  split at behind
  next le =>
    obtain rfl := Except.ok.inj behind
    rw [if_pos (by omega), stretch_getD _ _ (by omega)] at read
    obtain rfl := Except.ok.inj read
    have length : ((n - skip : Nat) : Int) = n - skip := Int.ofNat_sub le
    rw [FotaUds.keep, ← length, Except.ok.inj done]
  next => exact nomatch behind

/-- If no check fails, the callback does what it does without them. -/
theorem fotaUdsInd_ok {s s' : FotaUds} {canId : UInt32} {data : List UInt8} {n : Nat}
    (inside : n ≤ data.length) (done : fotaUdsInd s canId (fun i => data.getD i 0) n = .ok s') :
    s' = fotaUdsCallback s (.ind canId data n) := by
  obtain ⟨sid, same, done⟩ := bind_ok_iff.mp done
  rw [callbackSidAt_ok same] at done
  simp only [fotaUdsCallback]
  split at done
  next service =>
    rw [if_pos service]
    replace done := fetch_bind done
    split at done
    next neg =>
      replace done := fetch_bind done
      rw [if_pos neg, Except.ok.inj done]
    next other =>
      rw [if_neg other]
      split at done
      next physical =>
        rw [if_pos physical]
        split at done
        next asked =>
          replace done := fetch_bind done
          split at done
          next back =>
            obtain ⟨kept, keep, done⟩ := bind_ok_iff.mp done
            rw [if_pos ⟨asked, back⟩, ← Except.ok.inj done, fotaUdsKeep_ok inside keep]
          next wrong =>
            rw [if_neg fun both => wrong both.2, if_neg asked, Except.ok.inj done]
        next none =>
          obtain ⟨kept, keep, done⟩ := bind_ok_iff.mp done
          rw [if_neg fun both => none both.1, if_pos (not_not.mp none), ← Except.ok.inj done,
            fotaUdsKeep_ok inside keep]
      next functional => rw [if_neg functional, Except.ok.inj done]
  next other => rw [if_neg other, Except.ok.inj done]

theorem srvIdAt_ok {data : List UInt8} {n : Nat} {srvId : UInt8}
    (done : srvIdAt (fun i => data.getD i 0) n = .ok srvId) : srvId = respondedSid data := by
  replace done := fetch_bind done
  unfold respondedSid
  split at done
  next neg => rw [if_pos neg, fetch_ok done]
  next other => rw [if_neg other, Except.ok.inj done]

theorem pendingAt_ok {data : List UInt8} {n : Nat} {pending : Bool}
    (done : pendingAt (fun i => data.getD i 0) n = .ok pending) : pending =
      decide (data.getD 0 0 = sidNegativeResponse ∧ data.getD 2 0 = nrcResponsePending) := by
  replace done := fetch_bind done
  split at done
  next neg =>
    replace done := fetch_bind done
    rw [← Except.ok.inj done]
    simp only [neg, true_and]
  next other =>
    rw [← Except.ok.inj done]
    simp only [other, false_and, decide_false]

/-- If no check fails, the proxy and the callback do what they do without them. -/
theorem udsProxyInd_ok {s : FotaUds} {buf : List UInt8} {len : Nat} {uds : UdsT} {cb : UdsCb}
    (inside : len ≤ buf.length) (id : buf.getD 0 0 = 0xF4) (some_bytes : 1 ≤ len)
    (callback : s.callback = true)
    (done : udsProxyInd s.client (.fota s) (fun i => buf.getD i 0) len = .ok (uds, cb)) :
    uds = (udsProxy s.client buf len).1 ∧ cb = .fota
      ({ s with client := (udsProxy s.client buf len).1 }.callClient
        (udsProxy s.client buf len).2) := by
  have data : (fun i => buf.getD (7 + i) 0) = fun i => (buf.drop 7).getD i 0 := by
    funext i
    rw [List.getD_eq_getElem?_getD, List.getD_eq_getElem?_getD, List.getElem?_drop]
  -- in the other cases nothing is called
  have same {cb' : UdsCb} (done : (.ok (s.client, .fota s) : Except IndFault (UdsT × UdsCb)) =
      .ok (uds, cb')) :
      uds = s.client ∧ cb' = .fota ({ s with client := s.client }.callClient none) := by
    obtain ⟨rfl, rfl⟩ := Prod.ext_iff.mp (Except.ok.inj done)
    exact ⟨rfl, rfl⟩
  rw [udsProxy_ind_eq some_bytes id]
  unfold udsProxyInd at done
  split at done
  next short =>
    rw [if_pos (.inl short)]
    exact same done
  next header =>
  replace done := fetch_bind (fetch_bind done)
  split at done
  next other =>
    rw [if_pos (.inr other)]
    exact same done
  next length =>
  obtain ⟨bytes, read, done⟩ := bind_ok_iff.mp done
  have canId : canIdAt (0 :: bytes) = canIdAt buf := by
    unfold fetchAll at read
    rw [if_pos (by omega)] at read
    rw [← Except.ok.inj read]
    rfl
  rw [if_neg fun either => either.elim header length]
  dsimp only at done
  rw [canId, data] at done
  split at done
  next server =>
    rw [if_pos server]
    exact same done
  next client =>
  rw [if_neg client]
  obtain ⟨srvId, service, done⟩ := bind_ok_iff.mp done
  rw [srvIdAt_ok service] at done
  unfold udsIndication
  split at done
  next asked =>
    obtain ⟨pending, last, done⟩ := bind_ok_iff.mp done
    obtain ⟨called, call, done⟩ := bind_ok_iff.mp done
    obtain ⟨s', ind, wrapped⟩ := bind_ok_iff.mp call
    obtain ⟨rfl, rfl⟩ := Prod.ext_iff.mp (Except.ok.inj done)
    rw [if_pos asked, ← Except.ok.inj wrapped,
      fotaUdsInd_ok (by rw [List.length_drop]; omega) ind, pendingAt_ok last]
    dsimp only [FotaUds.callClient]
    rw [if_pos callback]
    exact ⟨rfl, rfl⟩
  next unasked =>
    rw [if_neg unasked]
    exact same done

/-! ### Where nothing is read or stored outside -/

/-- The service that a response is taken to answer. -/
def indSid (data : Nat → UInt8) : UInt8 :=
  if data 0 = sidNegativeResponse then data 1 else data 0 - posRespondSidMask

/-- The response has the byte with the sub-function, if one was asked for, and what is kept
of it fits into the buffer. -/
def UdsCb.Room (uds : UdsT) (cb : UdsCb) (canId : UInt32) (data : Nat → UInt8) (n : Nat) : Prop :=
  match cb with
  | .none => True
  | .fota s =>
    data 0 ≠ sidNegativeResponse → s.state = .waitServ → s.srvId = (data 0).toNat - 0x40 →
      s.reqId ≠ uds.canIdFun → uds.canIdRes = canId →
      (s.subFun = 0 → n ≤ 512 + 1) ∧
      (s.subFun ≠ 0 → 2 ≤ n ∧ (s.subFun.toInt = (data 1).toNat → n ≤ 512 + 2))
  | .app g =>
    canId = uds.canIdRes → g.requestSid.toNat + posRespondSidMask.toNat = (data 0).toNat →
      n ≤ udsClientDataSize

/-- The payload has the bytes that are read of it: one, of a negative response two, and three
if it is the answer to the last request. -/
def PayloadFits (uds : UdsT) (cb : UdsCb) (canId : UInt32) (data : Nat → UInt8) (n : Nat) : Prop :=
  1 ≤ n ∧ (data 0 = sidNegativeResponse → 2 ≤ n) ∧
    (indSid data = uds.sid ∧ indSid data ≠ sidTestPresent →
      (data 0 = sidNegativeResponse → 3 ≤ n) ∧ cb.Room uds canId data n)

/-- The proxy takes the message for the client. -/
def ForClient (buf : Nat → UInt8) (len : Nat) : Prop :=
  7 ≤ len ∧ len - 7 = (buf 5).toNat + (buf 6).toNat * 0xFF ∧
    canIdAt (0 :: stretch buf 1 4) ≠ udsCanIdFun ∧ canIdAt (0 :: stretch buf 1 4) ≠ udsCanIdPhy

theorem fotaUdsKeep_safe (s : FotaUds) (data : Nat → UInt8) (n skip : Nat) :
    Safe (fotaUdsKeep s data n skip) ↔ skip ≤ n ∧ n ≤ 512 + skip := by
  unfold fotaUdsKeep
  rw [safe_minus_bind, safe_need_bind, safe_fetchAll_bind]
  simp only [safe_ok, and_true]
  omega

theorem callbackSidAt_eq {data : Nat → UInt8} {n : Nat} (first : 1 ≤ n)
    (negative : data 0 = sidNegativeResponse → 2 ≤ n) :
    callbackSidAt data n = .ok (if data 0 = sidNegativeResponse then (data 1).toNat
      else (data 0).toNat - 0x40) := by
  have zero : fetch IndFault.read data n 0 = .ok (data 0) := if_pos first
  rw [callbackSidAt, zero]
  change (if data 0 = sidNegativeResponse then _ else _) = _
  split
  next neg =>
    have one : fetch IndFault.read data n 1 = .ok (data 1) := if_pos (negative neg)
    rw [one]
    rfl
  next => rfl

theorem fotaUdsInd_safe (s : FotaUds) (canId : UInt32) {data : Nat → UInt8} {n : Nat}
    (first : 1 ≤ n) (negative : data 0 = sidNegativeResponse → 3 ≤ n) :
    Safe (fotaUdsInd s canId data n) ↔ (UdsCb.fota s).Room s.client canId data n := by
  unfold fotaUdsInd UdsCb.Room
  rw [callbackSidAt_eq first fun neg => Nat.le_of_succ_le (negative neg), safe_ok_bind]
  by_cases neg : data 0 = sidNegativeResponse
  · have three := negative neg
    simp only [if_pos neg, safe_fetch_bind, safe_ite, safe_ok]
    exact iff_of_true ⟨fun _ => ⟨by omega, by omega, trivial⟩, fun _ => trivial⟩
      fun positive => absurd neg positive
  · simp only [if_neg neg, safe_fetch_bind, safe_ite, safe_ok, implies_true, and_true,
      safe_bind_of, fotaUdsKeep_safe]
    constructor
    · intro safe _ waiting service functional same
      obtain ⟨-, kept⟩ := safe ⟨waiting, service⟩
      obtain ⟨sub, whole⟩ := kept ⟨functional, same⟩
      exact ⟨fun none => (whole (not_not_intro none)).2,
        fun asked => ⟨(sub asked).1, fun back => ((sub asked).2 back).2⟩⟩
    · rintro room ⟨waiting, service⟩
      refine ⟨first, fun physical => ?_⟩
      obtain ⟨whole, sub⟩ := room neg waiting service physical.1 physical.2
      exact ⟨fun asked => ⟨(sub asked).1, fun back => ⟨(sub asked).1, (sub asked).2 back⟩⟩,
        fun none => ⟨first, whole (not_not.mp none)⟩⟩

theorem getResponse_safe (uds : UdsT) (g : UdsClientDataList) (canId : UInt32)
    {data : Nat → UInt8} {n : Nat} (first : 1 ≤ n) :
    Safe (udsClientGetResponse uds g canId data n) ↔ (UdsCb.app g).Room uds canId data n := by
  unfold udsClientGetResponse UdsCb.Room
  simp only [safe_ite, safe_fetch_bind, safe_need_bind, safe_fetchAll_bind, safe_ok, implies_true,
    and_true, true_and, Nat.zero_add, le_refl]
  have size : udsClientDataSize = 522 := rfl
  constructor
  · intro safe same service
    by_cases negative : n = 3 ∧ data 0 = sidNegativeResponse ∧ g.requestSid = data 1
    · omega
    · exact (safe same).2 negative service
  · exact fun room same => ⟨first, fun _ => room same⟩

theorem srvIdAt_safe_bind {α : Type} {data : Nat → UInt8} {n : Nat}
    {f : UInt8 → Except IndFault α} : Safe (srvIdAt data n >>= f) ↔
      1 ≤ n ∧ (data 0 = sidNegativeResponse → 2 ≤ n) ∧ Safe (f (indSid data)) := by
  unfold srvIdAt indSid
  rw [bind_assoc, safe_fetch_bind]
  by_cases neg : data 0 = sidNegativeResponse
  · rw [if_pos neg, if_pos neg, safe_fetch_bind]
    simp only [neg, true_implies]
    rfl
  · rw [if_neg neg, if_neg neg, safe_ok_bind]
    simp only [neg, false_implies, true_and]
    rfl

theorem pendingAt_safe_bind {α : Type} {data : Nat → UInt8} {n : Nat} (first : 1 ≤ n)
    {f : Bool → Except IndFault α} {P : Prop}
    (follows : (data 0 = sidNegativeResponse → 3 ≤ n) → ∀ pending, Safe (f pending) ↔ P) :
    Safe (pendingAt data n >>= f) ↔ (data 0 = sidNegativeResponse → 3 ≤ n) ∧ P := by
  have some_bytes : 0 < n := first
  unfold pendingAt
  rw [bind_assoc, safe_fetch_bind, and_iff_right some_bytes]
  by_cases neg : data 0 = sidNegativeResponse
  · rw [if_pos neg, bind_assoc, safe_fetch_bind, imp_iff_right neg]
    exact and_congr_right fun three => follows (fun _ => three) _
  · have none : data 0 = sidNegativeResponse → 3 ≤ n := fun negative => absurd negative neg
    rw [if_neg neg, and_iff_right none]
    exact follows none false

theorem room_setTimer (uds : UdsT) (cb : UdsCb) (name : UdsTimer) (on : Bool) (canId : UInt32)
    (data : Nat → UInt8) (n : Nat) :
    cb.Room (uds.setTimer name on) canId data n ↔ cb.Room uds canId data n := by
  cases cb with
  | none => exact Iff.rfl
  | fota s => exact Iff.rfl
  | app g => exact Iff.rfl

theorem call_safe (uds : UdsT) (cb : UdsCb) (canId : UInt32) {data : Nat → UInt8} {n : Nat}
    (first : 1 ≤ n) (negative : data 0 = sidNegativeResponse → 3 ≤ n) :
    Safe (cb.call uds canId data n) ↔ cb.Room uds canId data n := by
  cases cb with
  | none => exact iff_of_true ⟨_, rfl⟩ trivial
  | fota s =>
    unfold UdsCb.call
    dsimp only
    rw [safe_bind_of fun s => safe_ok (UdsCb.fota s), fotaUdsInd_safe _ canId first negative]
    rfl
  | app g =>
    unfold UdsCb.call
    dsimp only
    rw [safe_bind_of fun (r : UdsClientDataList × AppCall) => safe_ok (UdsCb.app r.1),
      getResponse_safe uds g canId first]

/-- Nothing behind the message is read and nothing behind the response buffers written,
exactly if the payload of each message for the client has the bytes that are read of it and
no more than the buffer of the callback. -/
theorem indication_safe_iff (uds : UdsT) (cb : UdsCb) (buf : Nat → UInt8) (len : Nat) :
    Safe (udsProxyInd uds cb buf len) ↔ (ForClient buf len →
      PayloadFits uds cb (canIdAt (0 :: stretch buf 1 4)) (fun i => buf (7 + i)) (len - 7)) := by
  unfold udsProxyInd
  by_cases header : len - 1 < 6
  · rw [if_pos header]
    refine iff_of_true ⟨_, rfl⟩ fun client => ?_
    have := client.1
    omega
  rw [if_neg header, safe_fetch_bind, safe_fetch_bind, and_iff_right (by omega),
    and_iff_right (by omega)]
  by_cases other : len - 1 - 6 ≠ (buf 5).toNat + (buf 6).toNat * 0xFF
  · rw [if_pos other]
    refine iff_of_true ⟨_, rfl⟩ fun client => ?_
    have := client.2.1
    omega
  rw [if_neg other, safe_fetchAll_bind, and_iff_right (by omega)]
  by_cases server : canIdAt (0 :: stretch buf 1 4) = udsCanIdFun ∨
      canIdAt (0 :: stretch buf 1 4) = udsCanIdPhy
  · dsimp only
    rw [if_pos server]
    refine iff_of_true ⟨_, rfl⟩ fun client => ?_
    exact (server.elim client.2.2.1 client.2.2.2).elim
  have client : ForClient buf len := by
    refine ⟨by omega, by omega, fun same => server (.inl same), fun same => server (.inr same)⟩
  have length : len - 1 - 6 = len - 7 := by omega
  dsimp only
  rw [if_neg server, length, srvIdAt_safe_bind, imp_iff_right client, PayloadFits]
  refine and_congr_right fun first => and_congr_right fun _ => ?_
  rw [safe_ite]
  simp only [safe_ok, implies_true, and_true]
  refine imp_congr_right fun _ => pendingAt_safe_bind first fun negative pending => ?_
  rw [safe_bind_of fun cb => safe_ok (_, cb), call_safe _ _ _ first negative, room_setTimer,
    room_setTimer]

/-- The fault, if there is one. -/
def faultOf {α : Type} : Except IndFault α → Option IndFault
  | .ok _ => none
  | .error fault => some fault

/-- A client of `fota_uds_callback` that waits for the answer to 0x22. -/
def waitingClient : FotaUds :=
  { FotaUds.initial with
    state := .waitServ, srvId := 0x22, reqId := 0x702
    client := { UdsT.initial with
      sid := 0x22, canIdPhy := 0x702, canIdFun := 0x7DF, canIdRes := 0x70A } }

def waitingApp : UdsClientDataList :=
  ⟨0x22, 3, false, 0, 0, 0, List.replicate 522 0⟩

/-- The memory in which the answer of the ECU was received. -/
def answer (declared : UInt16) (payload : List UInt8) : Nat → UInt8 :=
  fun i => (indFrame 0x0A 7 0 0 declared payload).getD i 0

/-- A response of one byte is read on behind its end, and one of 600 bytes runs over both
response buffers: 602 are declared, which `uds_proxy` takes for 600. -/
theorem indication_out_of_bounds :
    faultOf (udsProxyInd waitingClient.client (.fota waitingClient) (answer 1 [0x7F]) 8) =
      some .read ∧
    faultOf (udsProxyInd waitingClient.client (.fota waitingClient)
      (answer 602 (0x62 :: List.replicate 599 0)) 607) = some .store ∧
    faultOf (udsProxyInd waitingClient.client (.app waitingApp)
      (answer 602 (0x62 :: List.replicate 599 0)) 607) = some .store ∧
    ¬ ∀ uds cb buf len, Safe (udsProxyInd uds cb buf len) := by
  have short : faultOf (udsProxyInd waitingClient.client (.fota waitingClient)
      (answer 1 [0x7F]) 8) = some .read := by decide
  refine ⟨short, by decide, by decide, fun safe => ?_⟩
  obtain ⟨done, ok⟩ := safe waitingClient.client (.fota waitingClient) (answer 1 [0x7F]) 8
  rw [ok] at short
  exact nomatch short

end Uds
