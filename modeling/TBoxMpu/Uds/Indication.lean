import TBoxMpu.Uds.Proxy

/-!
# The length of an indication

`MSG_ID_UDS_IND` in `uds_proxy`, for the server and the client. The length has two bytes, and
the second counts 255 where the MCU means 256. So an indication of 256 bytes or more is
refused, and some that have lost bytes are not (`indication_length_iff`).
-/

namespace Uds

/-- What becomes of an indication: the server or the client gets the payload. -/
inductive UdsInd
  | refused
  | server (canId : UInt32) (payload : List UInt8)
  | client (canId : UInt32) (payload : List UInt8)
  | unasked
  deriving DecidableEq, Repr

/-- A response to the service of the last request. -/
def UdsT.Asked (uds : UdsT) (data : List UInt8) : Prop :=
  respondedSid data = uds.sid ∧ respondedSid data ≠ sidTestPresent

instance (uds : UdsT) (data : List UInt8) : Decidable (uds.Asked data) :=
  inferInstanceAs (Decidable (_ ∧ _))

/-- `MSG_ID_UDS_IND` in `uds_proxy`; `data` is the receive buffer behind the header. -/
def udsInd (uds : UdsT) (buf : List UInt8) (len : Nat) : UdsInd :=
  let data := buf.drop 7
  if len - 1 < 6 ∨ len - 1 - 6 ≠ (buf.getD 5 0).toNat + (buf.getD 6 0).toNat * 0xFF then .refused
  else if canIdAt buf = udsCanIdFun ∨ canIdAt buf = udsCanIdPhy then
    .server (canIdAt buf) (data.take (len - 1 - 6))
  else if uds.Asked data then .client (canIdAt buf) (data.take (len - 1 - 6))
  else .unasked

theorem udsProxy_ind_eq {uds : UdsT} {buf : List UInt8} {len : Nat} (some_bytes : 1 ≤ len)
    (id : buf.getD 0 0 = 0xF4) : udsProxy uds buf len =
      if len - 1 < 6 ∨ len - 1 - 6 ≠ (buf.getD 5 0).toNat + (buf.getD 6 0).toNat * 0xFF then
        (uds, none)
      else if canIdAt buf = udsCanIdFun ∨ canIdAt buf = udsCanIdPhy then (uds, none)
      else udsIndication uds (canIdAt buf) (buf.drop 7) (len - 1 - 6) := by
  unfold udsProxy
  rw [if_neg (Nat.not_lt.mpr some_bytes), id]
  rfl

/-- The callback of the client is called for what the client gets. -/
theorem udsProxy_eq_udsInd {uds : UdsT} {buf : List UInt8} {len : Nat} (some_bytes : 1 ≤ len)
    (id : buf.getD 0 0 = 0xF4) :
    (∃ canId, (udsProxy uds buf len).2 = some (.ind canId (buf.drop 7) (len - 1 - 6)) ∧
      udsInd uds buf len = .client canId ((buf.drop 7).take (len - 1 - 6))) ∨
    (udsProxy uds buf len).2 = none ∧
      ∀ canId payload, udsInd uds buf len ≠ .client canId payload := by
  rw [udsProxy_ind_eq some_bytes id]
  unfold udsInd
  dsimp only
  split
  · exact .inr ⟨rfl, nofun⟩
  split
  · exact .inr ⟨rfl, nofun⟩
  unfold udsIndication
  by_cases asked : respondedSid (buf.drop 7) = uds.sid ∧ respondedSid (buf.drop 7) ≠ sidTestPresent
  · rw [if_pos asked, if_pos (c := uds.Asked (buf.drop 7)) asked]
    exact .inl ⟨_, rfl, rfl⟩
  · rw [if_neg asked, if_neg (c := uds.Asked (buf.drop 7)) asked]
    exact .inr ⟨rfl, nofun⟩

/-! ### Frames -/

/-- The length as the MCU sends it, the lower byte first. -/
def indFrame (a b c d : UInt8) (declared : UInt16) (payload : List UInt8) : List UInt8 :=
  [0xF4, a, b, c, d, declared.toUInt8, (declared >>> 8).toUInt8] ++ payload

/-- The consumer gets this payload: the server, or the client if it asked. -/
def Delivered (uds : UdsT) (buf : List UInt8) (len : Nat) (payload : List UInt8) : Prop :=
  udsInd uds buf len =
    if canIdAt buf = udsCanIdFun ∨ canIdAt buf = udsCanIdPhy then .server (canIdAt buf) payload
    else if uds.Asked (buf.drop 7) then .client (canIdAt buf) payload
    else .unasked

variable {uds : UdsT} {a b c d : UInt8} {declared : UInt16} {payload stale : List UInt8}

theorem declared_bytes (declared : UInt16) :
    declared.toUInt8.toNat + (declared >>> 8).toUInt8.toNat * 0xFF =
      declared.toNat - declared.toNat / 256 := by
  have small := declared.toNat_lt
  simp [UInt16.toNat_shiftRight, Nat.shiftRight_eq_div_pow]
  omega

/-- The proxy takes a frame exactly if it is as long as the two bytes say with 255 for the
second. -/
theorem udsInd_frame (uds : UdsT) (a b c d : UInt8) (declared : UInt16)
    (payload stale : List UInt8) :
    (payload.length = declared.toNat - declared.toNat / 256 →
      Delivered uds (indFrame a b c d declared payload ++ stale) (payload.length + 7) payload) ∧
    (payload.length ≠ declared.toNat - declared.toNat / 256 →
      udsInd uds (indFrame a b c d declared payload ++ stale) (payload.length + 7) = .refused) := by
  have sum := declared_bytes declared
  have data : (indFrame a b c d declared payload ++ stale).drop 7 = payload ++ stale := rfl
  have low : (indFrame a b c d declared payload ++ stale).getD 5 0 = declared.toUInt8 := rfl
  have high : (indFrame a b c d declared payload ++ stale).getD 6 0 =
      (declared >>> 8).toUInt8 := rfl
  have length : payload.length + 7 - 1 - 6 = payload.length := rfl
  unfold Delivered udsInd
  dsimp only
  rw [low, high, sum, length, data, List.take_left]
  refine ⟨fun same => if_neg ?_, fun other => if_pos (.inr other)⟩
  omega

theorem not_delivered_refused
    (refused : udsInd uds (indFrame a b c d declared payload ++ stale) (payload.length + 7) =
      .refused) :
    ¬ Delivered uds (indFrame a b c d declared payload ++ stale) (payload.length + 7) payload := by
  unfold Delivered
  rw [refused]
  split
  · exact nofun
  split
  · exact nofun
  · exact nofun

/-- A whole frame reaches the consumer and one that has lost bytes is refused, exactly if the
declared length is below 256, or the frame is neither whole nor shorter by the upper byte of
the length. -/
theorem indication_length_iff (uds : UdsT) (a b c d : UInt8) (declared : UInt16)
    (payload stale : List UInt8) :
    ((payload.length = declared.toNat ∧ 1 ≤ payload.length ∧ payload.length ≤ 4095 →
        Delivered uds (indFrame a b c d declared payload ++ stale) (payload.length + 7) payload) ∧
      (payload.length < declared.toNat →
        udsInd uds (indFrame a b c d declared payload ++ stale) (payload.length + 7) = .refused)) ↔
    declared.toNat < 256 ∨ ¬ (payload.length = declared.toNat ∧ payload.length ≤ 4095) ∧
      payload.length ≠ declared.toNat - declared.toNat / 256 := by
  obtain ⟨taken, refused⟩ := udsInd_frame uds a b c d declared payload stale
  by_cases fits : payload.length = declared.toNat - declared.toNat / 256
  · have delivered := taken fits
    have never : ¬ _ := fun refused => not_delivered_refused refused delivered
    rw [and_iff_right fun _ => delivered, imp_iff_not never]
    omega
  · have none := refused fits
    have never := not_delivered_refused none
    rw [and_iff_left fun _ => none, imp_iff_not never]
    omega

/-- The test present of the tester, in two bytes. -/
example : udsInd .initial (indFrame 0xDF 7 0 0 2 [0x3E, 0x80]) 9 = .server 0x7DF [0x3E, 0x80] := by
  decide

/-- An indication of 256 bytes is refused, and one that declares 256 bytes and has 255 is not. -/
theorem second_byte_counts_255 :
    udsInd .initial (indFrame 0x82 7 0 0 256 (List.replicate 256 0)) 263 = .refused ∧
    udsInd .initial (indFrame 0x82 7 0 0 256 (List.replicate 255 0)) 262 =
      .server 0x782 (List.replicate 255 0) ∧
    ¬ ∀ uds a b c d (declared : UInt16) (payload stale : List UInt8),
      payload.length = declared.toNat ∧ 1 ≤ payload.length ∧ payload.length ≤ 4095 →
      Delivered uds (indFrame a b c d declared payload ++ stale) (payload.length + 7) payload := by
  refine ⟨by decide +kernel, by decide +kernel, fun delivered => ?_⟩
  have long := delivered .initial 0x82 7 0 0 256 (List.replicate 256 0) [] (by decide +kernel)
  exact absurd long (not_delivered_refused (by decide +kernel))

end Uds
