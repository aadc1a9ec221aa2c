import Mathlib.Data.List.GetD
import TBoxMpu.Autopilot.Framing
import TBoxMpu.Autopilot.Message
import TBoxMpu.Mid.Aes
import TBoxMpu.Mid.Sha

/-!
# Packets of the TSP connection

The packets that `ap_do_report_*` build: the head in clear, then the dispatcher, two digests, the
body and the padding, ciphered with the key in force. `ap_recv_proc` and `ap_msg_proc` read from
such a packet what was put into it.
-/

namespace Ap

open Aes Checked Sha

/-! ### Packing -/

/-- What every packet tells of the device. -/
structure ApDevice where
  imei : List UInt8
  vin : List UInt8
  imei_length : imei.length = 15
  vin_length : vin.length = 17

/-- `tm_get_abstime` -/
structure RtcTime where
  year : UInt16
  mon : UInt8
  mday : UInt8
  hour : UInt8
  min : UInt8
  sec : UInt8

def RtcTime.pack (t : RtcTime) : UInt32 :=
  (t.year.toUInt32 - 2014) <<< 26 ||| t.mon.toUInt32 <<< 22 ||| t.mday.toUInt32 <<< 17 |||
    t.hour.toUInt32 <<< 12 ||| t.min.toUInt32 <<< 6 ||| t.sec.toUInt32

/-- What a packet is sent with: its identifiers, the number of the event, the time and the
counter, and the length that is put into it. -/
structure ApHead where
  sid : UInt8
  fid : UInt8
  eid : UInt16
  len : UInt8
  time : RtcTime
  count : UInt8

def apPackHead (d : ApDevice) : List UInt8 := [0x01, 0x01, 0x35] ++ d.imei

def apPackDispatcher (d : ApDevice) (h : ApHead) : List UInt8 :=
  let time := h.time.pack
  -- 20 bytes for the 17 of the number
  0x02 :: 0x01 :: (d.vin ++ [(0 : UInt8), 0, 0, (h.eid >>> 8).toUInt8, h.eid.toUInt8, h.sid,
    h.fid, (time >>> 24).toUInt8, (time >>> 16).toUInt8, (time >>> 8).toUInt8, time.toUInt8,
    h.count, 0, 0, 0, 20 + h.len + 20])

def apOutLen (pos : Nat) : Nat := pos - 22 + 16 - (pos - 22) % 16

/-- `add_pkcs_padding` behind the `pos` bytes packed. -/
def apPadding (pos : Nat) : List UInt8 :=
  List.replicate (22 + apOutLen pos - pos) (UInt8.ofNat (22 + apOutLen pos - pos))

/-- The packet up to its end mark, before it is ciphered. -/
def apPlain (d : ApDevice) (h : ApHead) (body : List UInt8) : List UInt8 :=
  let data := startMark ++ apPackHead d ++ apPackDispatcher d h
  let data := data ++ sha1 (data.drop 4) ++ body
  let data := data ++ sha1 (data.drop 4)
  data ++ apPadding data.length

/-- The 16 bytes at `tsp_tukey`. -/
def apKey (key : List UInt8) : AesState := .load fun i => key.getD i 0

/-- `CipherString(&data[22], out_len, tsp_tukey)` -/
def apSealed (key plain : List UInt8) : List UInt8 :=
  bytesAt (cipherString (fun i => plain.getD i 0) 22 (plain.length - 22) (apKey key)) 0
    plain.length

def apReport (d : ApDevice) (key : List UInt8) (h : ApHead) (body : List UInt8) : List UInt8 :=
  apSealed key (apPlain d h body) ++ endMark

/-- `InvCipher` of the receiving side. -/
def aesInv : InvCipher := fun key block i =>
  onBlock (invCipher (keyExpansion (apKey key))) (fun i => block.getD i 0) i

section Layout

/-! ### Where things are -/

variable (d : ApDevice) (h : ApHead) (body : List UInt8)

theorem apPackHead_length : (apPackHead d).length = 18 := by
  simp [apPackHead, d.imei_length]

theorem apPackDispatcher_length : (apPackDispatcher d h).length = 35 := by
  simp [apPackDispatcher, d.vin_length]

/-- The blocks that are ciphered. -/
def apBlocks : Nat := (body.length + 75) / 16 + 1

theorem apPlain_length : (apPlain d h body).length = 22 + 16 * apBlocks body := by
  have data : (startMark ++ apPackHead d ++ apPackDispatcher d h).length = 57 := by
    simp [startMark, apPackHead_length, apPackDispatcher_length]
  simp only [apPlain, List.length_append, data, sha1_length, apPadding, List.length_replicate,
    apOutLen, apBlocks]
  omega

theorem getD_behind {front : List UInt8} {n : Nat} (length : front.length = n)
    (back : List UInt8) (k : Nat) : (front ++ back).getD (n + k) 0 = back.getD k 0 := by
  rw [← length, List.getD_append_right _ _ _ _ (Nat.le_add_right ..), Nat.add_sub_cancel_left]

/-- In front of the identifiers. -/
def apFront : List UInt8 := startMark ++ apPackHead d ++ (0x02 :: 0x01 :: (d.vin ++ [0, 0, 0]))

theorem apFront_length : (apFront d).length = 44 := by
  simp [apFront, startMark, apPackHead_length, d.vin_length]

/-- The identifiers and the length. -/
theorem apPlain_head : (apPlain d h body).getD 44 0 = (h.eid >>> 8).toUInt8 ∧
    (apPlain d h body).getD 45 0 = h.eid.toUInt8 ∧ (apPlain d h body).getD 46 0 = h.sid ∧
    (apPlain d h body).getD 47 0 = h.fid ∧ (apPlain d h body).getD 54 0 = 0 ∧
    (apPlain d h body).getD 55 0 = 0 ∧ (apPlain d h body).getD 56 0 = 20 + h.len + 20 := by
  obtain ⟨back, split⟩ : ∃ back, apPlain d h body = apFront d ++ ((h.eid >>> 8).toUInt8 ::
      h.eid.toUInt8 :: h.sid :: h.fid :: (h.time.pack >>> 24).toUInt8 ::
      (h.time.pack >>> 16).toUInt8 :: (h.time.pack >>> 8).toUInt8 :: h.time.pack.toUInt8 ::
      h.count :: 0 :: 0 :: 0 :: (20 + h.len + 20) :: back) := by
    simp only [apPlain, apPackDispatcher, apFront, List.append_assoc, List.cons_append,
      List.nil_append, List.append_cancel_left_eq, List.cons.injEq, true_and]
    exact ⟨_, rfl⟩
  have place := getD_behind (apFront_length d)
  rw [split]
  exact ⟨place _ 0, place _ 1, place _ 2, place _ 3, place _ 10, place _ 11, place _ 12⟩

theorem apPlain_body {i : Nat} (inside : i < body.length) :
    (apPlain d h body).getD (77 + i) 0 = body.getD i 0 := by
  let data := startMark ++ apPackHead d ++ apPackDispatcher d h
  have length : (data ++ sha1 (data.drop 4)).length = 77 := by
    simp [data, startMark, apPackHead_length, apPackDispatcher_length, sha1_length]
  obtain ⟨back, split⟩ : ∃ back, apPlain d h body =
      data ++ sha1 (data.drop 4) ++ (body ++ back) := by
    simp only [apPlain, data, List.append_assoc, List.append_cancel_left_eq]
    exact ⟨_, rfl⟩
  rw [split, getD_behind length, List.getD_append _ _ _ _ inside]

/-! ### Back from memory -/

/-- The message at `s` of `m` bytes, decrypted. -/
theorem apDecrypt_eq (key : List UInt8) (mem : Mem) (s m : Nat) :
    apDecrypt aesInv key mem s m = invCipherString mem (s + 22) (m - 26) (apKey key) := by
  have block : invBlock aesInv key =
      Blocks.patch 16 (onBlock (invCipher (keyExpansion (apKey key)))) := by
    funext msg i k
    rw [invBlock, Blocks.patch]
    split
    · rename_i inside
      refine onBlock_reads _ _ _ (fun j fits => ?_) _ (by omega)
      rw [List.getD_eq_getElem?_getD, bytesAt_getElem? fits]
      rfl
    · rfl
  rw [apDecrypt, block]
  rfl

theorem getD_bytesAt {msg : Mem} {s n k : Nat} (inside : k < n) :
    (bytesAt msg s n).getD k 0 = msg (s + k) := by
  rw [List.getD_eq_getElem?_getD, bytesAt_getElem? inside]
  rfl

theorem apSealed_length (key plain : List UInt8) : (apSealed key plain).length = plain.length :=
  bytesAt_length _ _ _

theorem apSealed_getD (key plain : List UInt8) {k : Nat} (inside : k < plain.length) :
    (apSealed key plain).getD k 0 =
      cipherString (fun i => plain.getD i 0) 22 (plain.length - 22) (apKey key) k := by
  rw [apSealed, getD_bytesAt inside, Nat.zero_add]

/-- A memory that shows the packet up to its end mark shows the plain one after decryption. -/
theorem decrypted {key : List UInt8} {mem : Mem} {s : Nat}
    (shown : ∀ k < (apPlain d h body).length,
      mem (s + k) = (apSealed key (apPlain d h body)).getD k 0) {i : Nat}
    (inside : i < (apPlain d h body).length) :
    apDecrypt aesInv key mem s ((apPlain d h body).length + 1) (s + i) =
      (apPlain d h body).getD i 0 := by
  have length := apPlain_length d h body
  generalize apPlain d h body = plain at shown inside length ⊢
  -- both sides count the same blocks
  have blocks : blockCount (plain.length - 22) = apBlocks body := by
    rw [blockCount]
    omega
  have blocks' : blockCount (plain.length + 1 - 26) = apBlocks body := by
    rw [blockCount]
    omega
  rw [apDecrypt_eq, invCipherString, blocks']
  by_cases head : i < 22
  · rw [Blocks.run_outside (by omega), shown i inside, apSealed_getD key plain inside,
      cipherString, Blocks.run_outside (by omega)]
  · obtain ⟨k, rfl⟩ := Nat.exists_eq_add_of_le (Nat.le_of_not_lt head)
    have moved : ∀ k < 16 * apBlocks body, mem (s + 22 + k) =
        Blocks.run 16 (onBlock (cipher (keyExpansion (apKey key)))) (apBlocks body)
          (fun i => plain.getD i 0) 22 (22 + k) := by
      intro k fits
      rw [Nat.add_assoc, shown _ (by omega), apSealed_getD key plain (by omega), cipherString,
        blocks]
    rw [← Nat.add_assoc]
    exact Blocks.run_undo_moved (onBlock_reads _) (onBlock_reads _) (onBlock_undo (apKey key))
      moved (by omega)

/-- A packet is a frame. -/
theorem apReport_frame (key : List UInt8) : ∃ rest, apReport d key h body = apFrame rest ∧
    apSealed key (apPlain d h body) = startMark ++ rest := by
  have length := apPlain_length d h body
  have opens : (apSealed key (apPlain d h body)).take 4 = startMark := by
    refine List.ext_getElem (by simp [apSealed_length, startMark]; omega) fun i inside inside' => ?_
    have small : i < 4 := inside'
    have clear : (apSealed key (apPlain d h body)).getD i 0 = (apPlain d h body).getD i 0 := by
      rw [apSealed_getD key _ (by omega), cipherString, Blocks.run_outside (by omega)]
    have front : (apPlain d h body).getD i 0 = startMark.getD i 0 := by
      simp only [apPlain, List.append_assoc]
      rw [List.getD_append _ _ _ _ inside']
    rw [List.getElem_take]
    rw [front, List.getD_eq_getElem _ _ (by rw [apSealed_length]; omega),
      List.getD_eq_getElem _ _ inside'] at clear
    exact clear
  refine ⟨(apSealed key (apPlain d h body)).drop 4, ?_, ?_⟩
  · rw [apReport, apFrame, ← opens, List.take_append_drop]
  · rw [← opens, List.take_append_drop]

/-- The message that is handed on is the one that `ap_msg_proc` gets. -/
theorem handled {inv : InvCipher} {key : List UInt8} {proc : Proc} {msg : Mem} {len : Nat}
    {handed : List UInt8} (found : (apRecvProc proc msg len).handed = some handed) :
    ∃ s, bytesAt msg s handed.length = handed ∧
      apHandle inv key msg len = apMsgProc inv key msg s handed.length := by
  unfold apRecvProc at found
  unfold apHandle
  split at found
  · rename_i s e scanned
    cases found
    rw [scanned, bytesAt_length]
    exact ⟨s, rfl, rfl⟩
  · cases found
  · cases found

end Layout

/-! ### Requests -/

/-- The digits of `str_to_hex`, the letters in lower case. -/
def hexChar (n : Nat) : UInt8 := UInt8.ofNat (if n < 10 then 0x30 + n else 0x61 + (n - 10))

def hexText (bytes : List UInt8) : List UInt8 :=
  bytes.flatMap fun b => [hexChar (b.toNat / 16), hexChar (b.toNat % 16)]

theorem hexDigit_hexChar {n : Nat} (digit : n < 16) (last : Nat) :
    hexDigit (hexChar n) last = n := by
  have all : ∀ n < 16, (0x30 ≤ hexChar n ∧ hexChar n ≤ 0x39 ∧ (hexChar n).toNat - 0x30 = n) ∨
      (¬ hexChar n ≤ 0x39 ∧ 0x61 ≤ hexChar n ∧ hexChar n ≤ 0x7a ∧ ¬ hexChar n ≤ 0x5a ∧
        (hexChar n).toNat - 0x61 + 10 = n) := by
    decide
  unfold hexDigit
  rcases all n digit with ⟨low, high, value⟩ | ⟨above, low, high, upper, value⟩
  · rw [if_pos ⟨low, high⟩, value]
  · rw [if_neg fun decimal => above decimal.2, if_neg fun capital => upper capital.2,
      if_pos ⟨low, high⟩, value]

theorem strToHex_hexText (bytes : List UInt8) (h1 h2 : Nat) :
    strToHex h1 h2 (hexText bytes) = bytes := by
  induction bytes generalizing h1 h2 with
  | nil => rfl
  | cons b bytes ih =>
    have small := b.toNat_lt
    have whole : b.toNat / 16 * 16 + b.toNat % 16 = b.toNat := by omega
    simp only [hexText, List.flatMap_cons, List.cons_append, List.nil_append, strToHex,
      hexDigit_hexChar (show b.toNat / 16 < 16 by omega),
      hexDigit_hexChar (show b.toNat % 16 < 16 by omega), whole, UInt8.ofNat_toNat]
    exact congrArg (b :: ·) (ih _ _)

theorem hexText_length (bytes : List UInt8) : (hexText bytes).length = 2 * bytes.length := by
  induction bytes with
  | nil => rfl
  | cons b bytes ih =>
    have behind : hexText (b :: bytes) =
        hexChar (b.toNat / 16) :: hexChar (b.toNat % 16) :: hexText bytes := rfl
    rw [behind, List.length_cons, List.length_cons, List.length_cons, ih]
    omega

/-- What the server sends: an update, the acknowledgement of the report of the ECUs, a new key, or
that the key is known. -/
inductive TspRequest
  | update (md5 : List UInt8) (mode : UInt8) (url : List UInt8)
  | infoAck (body : List UInt8)
  | newKey (key : List UInt8)
  | keyChecked (body : List UInt8)

def TspRequest.body : TspRequest → List UInt8
  | .update md5 mode url => hexText md5 ++ mode :: url
  | .infoAck body => body
  | .newKey key => key
  | .keyChecked body => body

def TspRequest.sid : TspRequest → UInt8
  | .update .. => 0x16
  | .infoAck _ => 0x16
  | .newKey _ => 0x23
  | .keyChecked _ => 0x23

def TspRequest.fid : TspRequest → UInt8
  | .update .. => 0x01
  | .infoAck _ => 0x02
  | .newKey _ => 0x02
  | .keyChecked _ => 0x03

/-- The sizes of digests and keys; the length of an update fits the one byte it is put into, and
every packet fits the receive buffer. -/
def TspRequest.Valid : TspRequest → Prop
  | .update md5 _ url => md5.length = 16 ∧ url.length ≤ 182 ∧ ∀ b ∈ url, b ≠ 0
  | .infoAck body => body.length ≤ 1940
  | .newKey key => key.length = 16
  | .keyChecked body => body.length ≤ 1940

theorem TspRequest.Valid.body_length {request : TspRequest} (valid : request.Valid) :
    request.body.length ≤ 1940 := by
  cases request with
  | update md5 mode url =>
    obtain ⟨digest, short, -⟩ := valid
    simp only [TspRequest.body, List.length_append, List.length_cons, hexText_length, digest]
    omega
  | infoAck body => exact valid
  | newKey key => exact Nat.le_trans (Nat.le_of_eq valid) (by omega)
  | keyChecked body => exact valid

/-- What the device does about it. -/
def TspRequest.done (eid : UInt16) : TspRequest → List ApAction
  | .update md5 mode url => [.fotaRequest mode url md5, .answer 0x66 0x01 eid.toNat]
  | .infoAck _ => [.infoAcked]
  | .newKey key => [.newKey key, .answer 0x73 0x02 eid.toNat]
  | .keyChecked _ => [.keyChecked]

def TspRequest.keyAfter (key : List UInt8) : TspRequest → List UInt8
  | .newKey key => key
  | _ => key

/-- A request with its number, the time and the counter. -/
structure TspMessage where
  request : TspRequest
  eid : UInt16
  time : RtcTime
  count : UInt8

def TspMessage.head (p : TspMessage) : ApHead :=
  ⟨p.request.sid, p.request.fid, p.eid, UInt8.ofNat p.request.body.length, p.time, p.count⟩

def TspMessage.packet (d : ApDevice) (key : List UInt8) (p : TspMessage) : List UInt8 :=
  apReport d key p.head p.request.body

/-! ### What is read from a packet -/

theorem lengthField_packed {msg : Nat → UInt8} {n : Nat} (fits : n ≤ 215) (high : msg 54 = 0)
    (mid : msg 55 = 0) (low : msg 56 = 20 + UInt8.ofNat n + 20) : lengthField msg = n + 40 := by
  rw [lengthField, high, mid, low, UInt8.toNat_add, UInt8.toNat_add, UInt8.toNat_ofNat']
  show 0 * 65536 + 0 * 256 + _ = _
  rw [show (20 : UInt8).toNat = 20 from rfl]
  omega

theorem stretch_body {msg : Nat → UInt8} {body : List UInt8} {i n : Nat}
    (shown : ∀ k < body.length, msg (77 + k) = body.getD k 0) (inside : i + n ≤ body.length) :
    stretch msg (77 + i) n = (body.drop i).take n := by
  rw [← stretch_getD body 0 inside, stretch, stretch]
  refine List.map_congr_left fun k mem => ?_
  rw [Nat.add_assoc, shown _ (by have := List.mem_range.mp mem; omega)]

theorem apUpdateRequest_body {msg : Nat → UInt8} {md5 url : List UInt8} {mode : UInt8} {m : Nat}
    (valid : (TspRequest.update md5 mode url).Valid)
    (field : lengthField msg = (TspRequest.update md5 mode url).body.length + 40)
    (shown : ∀ k < (TspRequest.update md5 mode url).body.length,
      msg (77 + k) = (TspRequest.update md5 mode url).body.getD k 0)
    (inside : 77 + (TspRequest.update md5 mode url).body.length ≤ m) :
    apUpdateRequest msg m = .ok [.fotaRequest mode url md5] := by
  obtain ⟨digest, short, nonzero⟩ := valid
  have size : (TspRequest.update md5 mode url).body.length = 33 + url.length := by
    simp only [TspRequest.body, List.length_append, List.length_cons, hexText_length, digest]
    omega
  have text : (hexText md5).length = 32 := by rw [hexText_length, digest]
  have digits := stretch_body shown (show 0 + 32 ≤ _ by omega)
  rw [List.drop_zero, TspRequest.body, List.take_left' text] at digits
  have kind : msg (77 + 32) = mode := by
    rw [shown 32 (by omega), TspRequest.body, ← Nat.add_zero 32, getD_behind text]
    rfl
  have tail : ∀ k < url.length, msg (77 + 32 + 1 + k) = url.getD k 0 := by
    intro k fits
    rw [Nat.add_assoc, Nat.add_assoc, shown _ (by omega), TspRequest.body, getD_behind text,
      Nat.add_comm 1 k]
    rfl
  have copied : fetchString ApFault.outside msg m (77 + 32 + 1) url.length = .ok url :=
    fetchString_whole tail (by omega) fun zero => nonzero 0 zero rfl
  have string : cString url = url := List.takeWhile_eq_self_iff.mpr fun b mem => by
    simpa using nonzero b mem
  have length : minus ApFault.below (lengthField msg) 40 = .ok (url.length + 1 + 32) := by
    rw [field, size, minus, if_pos (by omega)]
    congr 1
    omega
  have rest : minus ApFault.below (url.length + 1 + 32) 32 = .ok (url.length + 1) :=
    if_pos (by omega)
  have last : minus ApFault.below (url.length + 1) 1 = .ok url.length := if_pos (by omega)
  have header : fetchAll ApFault.outside msg m 54 3 = .ok (stretch msg 54 3) := if_pos (by omega)
  have digest : fetchAll ApFault.outside msg m 77 32 = .ok (hexText md5) := by
    rw [fetchAll, if_pos (by omega), digits]
  have fetched : fetch ApFault.outside msg m (77 + 32) = .ok mode := by
    rw [fetch, if_pos (by omega), kind]
  have room : need ApFault.urlBuf (url.length < 256) = .ok () := if_pos (by omega)
  simp only [apUpdateRequest, bind, Except.bind, header, length, rest, digest, fetched, last,
    copied, room, if_neg (show ¬ 256 ≤ url.length + 1 by omega), string, strToHex_hexText]

theorem eid_packed (eid : UInt16) :
    (eid >>> 8).toUInt8.toNat * 256 + eid.toUInt8.toNat = eid.toNat := by
  have small := eid.toNat_lt
  have high : (eid >>> 8).toUInt8.toNat = eid.toNat / 256 % 256 := by
    simp [UInt16.toNat_shiftRight, Nat.shiftRight_eq_div_pow]
  have low : eid.toUInt8.toNat = eid.toNat % 256 := by simp
  omega

/-- A decrypted message that shows a packet is done as the request asks. -/
theorem apMsgProc_shows {p : TspMessage} (valid : p.request.Valid) {inv : InvCipher}
    {key : List UInt8} {mem : Mem} {s m : Nat} {msg : Nat → UInt8}
    (plain : (fun i => apDecrypt inv key mem s m (s + i)) = msg)
    (whole : 77 + p.request.body.length < m) (long : 101 < m) (blocks : decryptEnd m ≤ m)
    (eidHigh : msg 44 = (p.eid >>> 8).toUInt8) (eidLow : msg 45 = p.eid.toUInt8)
    (sid : msg 46 = p.request.sid) (fid : msg 47 = p.request.fid)
    (high : msg 54 = 0) (mid : msg 55 = 0)
    (low : msg 56 = 20 + UInt8.ofNat p.request.body.length + 20)
    (body : ∀ k < p.request.body.length, msg (77 + k) = p.request.body.getD k 0) :
    apMsgProc inv key mem s m = .ok (p.request.keyAfter key, p.request.done p.eid) := by
  have cut : minus ApFault.below m 26 = .ok (m - 26) := if_pos (by omega)
  have fits : need ApFault.outside (decryptEnd m ≤ m) = .ok () := if_pos blocks
  have inside (i : Nat) (h : i < m) : fetch ApFault.outside msg m i = .ok (msg i) := if_pos h
  simp only [apMsgProc, bind, Except.bind, cut, fits, plain, inside 44 (by omega),
    inside 45 (by omega), inside 46 (by omega), inside 47 (by omega), eidHigh, eidLow, sid, fid,
    eid_packed, if_neg (show ¬ m ≤ 77 + 24 by omega)]
  cases request : p.request with
  | update md5 mode url =>
    rw [request] at valid whole low body
    have small : (TspRequest.update md5 mode url).body.length ≤ 215 := by
      obtain ⟨digest, short, -⟩ := valid
      simp only [TspRequest.body, List.length_append, List.length_cons, hexText_length, digest]
      omega
    have update := apUpdateRequest_body valid (lengthField_packed small high mid low) body
      (Nat.le_of_lt whole)
    simp [TspRequest.sid, TspRequest.fid, update, TspRequest.keyAfter, TspRequest.done]
  | infoAck body => rfl
  | newKey new =>
    rw [request] at valid whole body
    have size : new.length = 16 := valid
    have room : 77 + 16 < m := size ▸ whole
    have shown : ∀ k < new.length, msg (77 + k) = new.getD k 0 := body
    have copied : fetchAll ApFault.outside msg m 77 16 = .ok new := by
      have bytes := stretch_body shown (show 0 + 16 ≤ new.length by omega)
      rw [fetchAll, if_pos (by omega), bytes, List.drop_zero, List.take_of_length_le (by omega)]
    simp [TspRequest.sid, TspRequest.fid, copied, TspRequest.keyAfter, TspRequest.done]
  | keyChecked body => rfl

/-- A packet in memory up to the first byte of its end mark is done as the request asks. -/
theorem apMsgProc_packet (d : ApDevice) {p : TspMessage} (valid : p.request.Valid)
    {key : List UInt8} {mem : Mem} {s : Nat}
    (shown : ∀ k < (apPlain d p.head p.request.body).length,
      mem (s + k) = (apSealed key (apPlain d p.head p.request.body)).getD k 0) :
    apMsgProc aesInv key mem s ((apPlain d p.head p.request.body).length + 1) =
      .ok (p.request.keyAfter key, p.request.done p.eid) := by
  have size := apPlain_length d p.head p.request.body
  have blocks : 5 ≤ apBlocks p.request.body ∧
      p.request.body.length + 75 < 16 * apBlocks p.request.body := by
    unfold apBlocks
    omega
  have plain := fun i inside => @decrypted d p.head p.request.body key mem s shown i inside
  obtain ⟨eidHigh, eidLow, sid, fid, high, mid, low⟩ := apPlain_head d p.head p.request.body
  refine apMsgProc_shows valid rfl (by omega) (by omega) (by rw [decryptEnd]; omega)
    ((plain 44 (by omega)).trans eidHigh) ((plain 45 (by omega)).trans eidLow)
    ((plain 46 (by omega)).trans sid) ((plain 47 (by omega)).trans fid)
    ((plain 54 (by omega)).trans high) ((plain 55 (by omega)).trans mid)
    ((plain 56 (by omega)).trans low) fun k inside => ?_
  exact (plain (77 + k) (by omega)).trans (apPlain_body d p.head p.request.body inside)

/-! ### Packets one after the other -/

/-- Receive events of `ap_main` from a state on, with what lies behind the buffer at each. -/
def apRun (inv : InvCipher) : ApState → List (ApEvent × Mem) →
    Except ApFault (ApState × List ApAction)
  | st, [] => .ok (st, [])
  | st, (event, beyond) :: events => do
    let (st, now) ← apStep inv st beyond event
    let (st, later) ← apRun inv st events
    .ok (st, now ++ later)

/-- What the server sends, each packet with the key in force. -/
def tspPackets (d : ApDevice) : List UInt8 → List TspMessage → List (List UInt8)
  | _, [] => []
  | key, p :: ps => p.packet d key :: tspPackets d (p.request.keyAfter key) ps

/-- The key after all messages. -/
def keyAfterAll (key : List UInt8) (ps : List TspMessage) : List UInt8 :=
  ps.foldl (fun key p => p.request.keyAfter key) key

/-- The device is connected, and of what it received at most three bytes are kept. -/
def Listening (key : List UInt8) (st : ApState) : Prop :=
  st.connectSt = true ∧ st.tukey = key ∧ (st.recvLen = 0 ∨ st.recvLen = 3)

/-- One packet in a chunk of its own. -/
theorem packet_step (d : ApDevice) {p : TspMessage} (valid : p.request.Valid) {key : List UInt8}
    (clean : ∀ body, apFrame body = p.packet d key → Clean body) {st : ApState}
    (listening : Listening key st) (beyond : Mem) :
    ∃ st', apStep aesInv st beyond (.recvData (p.packet d key)) =
      .ok (st', p.request.done p.eid) ∧ Listening (p.request.keyAfter key) st' := by
  obtain ⟨connected, rfl, kept⟩ := listening
  obtain ⟨rest, frame, opened⟩ := apReport_frame d p.head p.request.body st.tukey
  have packet : p.packet d st.tukey = apFrame rest := frame
  rw [packet] at clean ⊢
  generalize stale : (fun i => if i < recvBufSize then st.recvBuf i else beyond i) = mem
  obtain ⟨found, three⟩ := whole_frame (apDecrypt aesInv st.tukey) st.recvBuf mem kept
    (clean rest rfl)
  -- what is handed on is the packet up to its end mark and one byte of that
  have cut : apCut rest = apSealed st.tukey (apPlain d p.head p.request.body) ++ [0xb2] := by
    rw [apCut, opened]
  have size := apPlain_length d p.head p.request.body
  have count : (apFrame rest).length = 22 + 16 * apBlocks p.request.body + 4 := by
    have total := congrArg List.length opened
    rw [apSealed_length, List.length_append, size, show startMark.length = 4 from rfl] at total
    rw [apFrame_length]
    omega
  generalize heard : apAppend st.recvBuf st.recvLen (apFrame rest) mem = msg at found three
  have message : ∃ s, bytesAt msg s (apCut rest).length = apCut rest ∧
      apHandle aesInv st.tukey msg (st.recvLen + (apFrame rest).length) =
        apMsgProc aesInv st.tukey msg s (apCut rest).length := handled found
  obtain ⟨s, shown, handed⟩ := message
  rw [cut, List.length_append, apSealed_length] at handed shown
  have seen : ∀ k < (apPlain d p.head p.request.body).length, msg (s + k) =
      (apSealed st.tukey (apPlain d p.head p.request.body)).getD k 0 := by
    intro k inside
    have place : (bytesAt msg s _).getD k 0 = _ := congrArg (fun bytes => bytes.getD k 0) shown
    rw [getD_bytesAt (Nat.lt_add_right _ inside),
      List.getD_append _ _ _ _ (by rw [apSealed_length]; exact inside)] at place
    exact place
  have done := apMsgProc_packet d valid seen
  have body := valid.body_length
  let received := apRecvProc (apDecrypt aesInv st.tukey) msg (st.recvLen + (apFrame rest).length)
  have fits : st.recvLen + (apFrame rest).length ≤ recvBufSize := by
    unfold apBlocks at count
    unfold recvBufSize
    omega
  have exact_len : (st.recvLen + (apFrame rest).length) % 2 ^ 32 =
      st.recvLen + (apFrame rest).length := by
    unfold recvBufSize at fits
    omega
  have room : need ApFault.recvLen (st.recvLen + (apFrame rest).length ≤ recvBufSize) = .ok () :=
    if_pos fits
  refine ⟨⟨received.msg, received.len, p.request.keyAfter st.tukey, st.connectSt⟩, ?_, connected,
    rfl, .inr three⟩
  simp only [apStep, if_pos connected, apReceived, exact_len, bind, Except.bind, room, stale,
    heard, handed.trans done]
  rfl

/-- What is between the marks of a packet. -/
def packetBody (packet : List UInt8) : List UInt8 := (packet.drop 4).take (packet.length - 8)

theorem packetBody_apFrame (body : List UInt8) : packetBody (apFrame body) = body := by
  rw [packetBody, apFrame_length, apFrame, List.append_assoc, List.drop_left' (by rfl),
    Nat.add_sub_cancel, List.take_left' rfl]

def testDevice : ApDevice := ⟨List.replicate 15 0x30, List.replicate 17 0x41, rfl, rfl⟩

/-- A new key, and a message under it. -/
def testMessages : List TspMessage :=
  [⟨.newKey (List.replicate 16 0x5a), 7, ⟨2020, 5, 17, 12, 30, 0⟩, 1⟩,
    ⟨.keyChecked [], 8, ⟨2020, 5, 17, 12, 30, 1⟩, 2⟩]

theorem testPackets_clean :
    ∀ packet ∈ tspPackets testDevice [] testMessages, Clean (packetBody packet) := by
  simp only [testMessages, tspPackets, List.forall_mem_cons]
  -- one after the other, as each is a cipher to evaluate
  refine ⟨?_, ?_, List.forall_mem_nil _⟩
  · unfold Clean
    decide +kernel
  · unfold Clean
    decide +kernel

end Ap
