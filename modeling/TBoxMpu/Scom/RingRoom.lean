import TBoxMpu.Scom.Delivery

/-!
# Room in the receive ring

The client of a bulk transfer with a peer of which only this is known: it answers requests
that were made, with frames of 242 bytes at most. Its replies can be late, doubled or in any
order, and any number of transfers can follow each other.

## Main result

`room_kept`: as long as each reply that is taken belongs to the running transfer, the ring
has room for it and no frame is stored twice. `scom_tl_proc_data_ok_res` does not look whether
the client is started: a reply that comes after the end is taken once more.

## Proof strategy

A request is made with the room for its frames. `Going` keeps this room for all requests of
the running transfer together: a stored frame takes 242 bytes of it and is no longer to come.
-/

namespace Scom

open Runs

/-! ### The client and its peer -/

/-- The transfers are counted. `made` holds what the client sent in each of them, `stored` the
numbers of the frames that were put into the ring; no function reads them. -/
structure Requester where
  client : ScomTl
  transfer : Nat
  made : List (Nat × ScomTlMsg)
  stored : List (Nat × Nat)

/-- A reply belongs to the transfer whose request it answers. The message does not say which
that is. -/
inductive ClientAct
  | startClient
  | getData (len : UInt32)
  | reply (transfer : Nat) (ftype : ScomTlFrameType) (fno : Nat) (data : List UInt8)

/-- The frame is the next one, so that `scom_tl_proc_data_ok_res` stores it. -/
def Taken (tl : ScomTl) (fno : Nat) : Prop := (fno : Int) = tl.rxDataCtl.rxFno + 1

instance (tl : ScomTl) (fno : Nat) : Decidable (Taken tl fno) :=
  inferInstanceAs (Decidable (_ = _))

def clientStep (s : Requester) : ClientAct → Requester
  | .startClient =>
    let (ret, client, sent) := scomTlStartClient s.client
    let transfer := if ret = 0 then s.transfer + 1 else s.transfer
    { s with client, transfer, made := s.made ++ sent.map (transfer, ·) }
  | .getData len =>
    let (_, client, sent) := scomTlGetData s.client len
    { s with client, made := s.made ++ sent.map (s.transfer, ·) }
  | .reply transfer ftype fno data =>
    let (client, sent) := scomTlProcDataOkRes s.client ftype fno data
    { s with
      client
      made := s.made ++ sent.map (s.transfer, ·)
      stored := if Taken s.client fno then (transfer, fno) :: s.stored else s.stored }

/-- The frames that are asked for; their numbers wrap around at 2^16. -/
def Covers (fno : Nat) : ScomTlMsg → Prop
  | .dataReq first fcnt => ∃ i < fcnt, fno = (first + i) % 2 ^ 16
  | _ => False

instance (fno : Nat) : (msg : ScomTlMsg) → Decidable (Covers fno msg)
  | .dataReq first fcnt => inferInstanceAs (Decidable (∃ i < fcnt, fno = (first + i) % 2 ^ 16))
  | .dataOkRes _ _ _ => inferInstanceAs (Decidable False)
  | .dataNgRes _ _ => inferInstanceAs (Decidable False)

/-- The peer answers only requests that were made, with at most `SCOM_TL_FRAME_LEN` bytes. -/
def Answered (s : Requester) : ClientAct → Prop
  | .reply transfer _ fno data =>
    (∃ req ∈ s.made, req.1 = transfer ∧ Covers fno req.2) ∧ data.length ≤ scomTlFrameLen
  | _ => True

/-- A reply that is taken comes while the client is started, and answers a request of the
transfer that was started last. -/
def Timely (s : Requester) : ClientAct → Prop
  | .reply transfer _ fno _ =>
    Taken s.client fno → s.client.status = .clientStarted ∧ transfer = s.transfer
  | _ => True

instance (s : Requester) : (a : ClientAct) → Decidable (Answered s a)
  | .startClient => inferInstanceAs (Decidable True)
  | .getData _ => inferInstanceAs (Decidable True)
  | .reply _ _ _ _ => inferInstanceAs (Decidable (_ ∧ _))

/-- Before the first transfer. -/
structure Fresh (s : Requester) : Prop where
  client : Prepared s.client
  idle : s.client.status ≠ .clientStarted
  made : s.made = []
  stored : s.stored = []

def ClientStep (s : Requester) (a : ClientAct) (t : Requester) : Prop := clientStep s a = t

/-- A reply is stored whole if it is taken, and dropped if its frame was stored before. -/
structure Kept (s : Requester) (transfer : Nat) (ftype : ScomTlFrameType) (fno : Nat)
    (data : List UInt8) : Prop where
  whole : Taken s.client fno →
    (rbIn s.client.rxRb data (UInt32.ofNat data.length)).1.toNat = data.length ∧
    (scomTlProcDataOkRes s.client ftype fno data).1.rxRb.contents =
      s.client.rxRb.contents ++ data
  once : (transfer, fno) ∈ s.stored →
    scomTlProcDataOkRes s.client ftype fno data = (s.client, [])

variable {tl : ScomTl} {next : Nat} {s t : Requester}

/-! ### What the client does -/

/-- The client expects frame `next`. -/
structure Ready (next : Nat) (tl : ScomTl) : Prop where
  wf : tl.rxRb.Wf
  size : tl.rxRb.size.toNat = 2048
  fno : tl.rxDataCtl.rxFno + 1 = next

theorem Ready.taken_iff (ready : Ready next tl) (fno : Nat) : Taken tl fno ↔ fno = next := by
  unfold Taken
  rw [ready.fno]
  exact Int.natCast_inj

theorem Ready.requested (ready : Ready next tl) :
    Ready next (scomTlSendDataReq tl).1 ∧ room (scomTlSendDataReq tl).1 = room tl := by
  obtain ⟨-, ring, fno, -⟩ := sendDataReq_same tl
  refine ⟨⟨ring ▸ ready.wf, ?_, ?_⟩, ?_⟩
  · rw [ring]; exact ready.size
  · rw [fno]; exact ready.fno
  · rw [room, ring, room]

/-- A request is made with the room for its frames. Its number can have wrapped around, but
then it asks for frames that came before. -/
theorem Ready.asks (ready : Ready next tl) :
    ∀ msg ∈ (scomTlSendDataReq tl).2, Asks next (room tl) msg := by
  have unused : (rbUnusedLen tl.rxRb).toNat = room tl := by
    rw [ready.wf.unused, ← ready.wf.length_contents, ready.size, room]
  have wraps : next % 2 ^ 16 ≤ next := Nat.mod_le next _
  unfold scomTlSendDataReq
  rw [unused, ready.fno, Int.toNat_natCast, scomTlFrameLen]
  split
  · exact fun _ mem => absurd mem List.not_mem_nil
  · split
    · intro msg mem
      rw [List.mem_singleton.mp mem]
      refine ⟨_, _, rfl, ?_, ?_⟩
      · split <;> omega
      · split <;> omega
    · exact fun _ mem => absurd mem List.not_mem_nil

/-- The client once a frame that is taken was put into the ring. -/
def takeFrame (tl : ScomTl) (ftype : ScomTlFrameType) (fno : Nat) (data : List UInt8) : ScomTl :=
  { tl with
    rxDataCtl := { tl.rxDataCtl with
      used := true, rxFno := fno, rxFlen := data.length, rxFtype := ftype
      rxLen := (tl.rxDataCtl.rxLen + data.length) % 2 ^ 32 }
    rxRb := (rbIn tl.rxRb data (UInt32.ofNat data.length)).2 }

theorem procDataOkRes_taken {fno : Nat} (taken : Taken tl fno) (ftype : ScomTlFrameType)
    (data : List UInt8) :
    scomTlProcDataOkRes tl ftype fno data = (takeFrame tl ftype fno data, []) ∨
    scomTlProcDataOkRes tl ftype fno data =
      scomTlSendDataReq (takeFrame tl ftype fno data) := by
  have expected : ¬ (fno : Int) ≠ tl.rxDataCtl.rxFno + 1 := not_not.mpr taken
  unfold scomTlProcDataOkRes
  rw [if_neg expected]
  dsimp only
  split
  · exact .inl rfl
  · split
    · exact .inr rfl
    · exact .inl rfl

/-- Where there is room for a whole frame, any frame is stored whole. -/
theorem Ready.takes (ready : Ready next tl) {data : List UInt8} (short : data.length ≤ 242)
    (fits : 242 ≤ room tl) (ftype : ScomTlFrameType) :
    Ready (next + 1) (takeFrame tl ftype next data) ∧
    (rbIn tl.rxRb data (UInt32.ofNat data.length)).1.toNat = data.length ∧
    (takeFrame tl ftype next data).rxRb.contents = tl.rxRb.contents ++ data ∧
    room tl ≤ room (takeFrame tl ftype next data) + 242 := by
  have len : (UInt32.ofNat data.length).toNat = data.length := by
    rw [UInt32.toNat_ofNat', Nat.mod_eq_of_lt (by omega)]
  obtain ⟨wf, size, count, contents⟩ := ready.wf.stored len.le
  have all : min data.length (tl.rxRb.size.toNat - tl.rxRb.contents.length) = data.length := by
    unfold room at fits
    rw [ready.size]
    omega
  rw [len, all] at count contents
  rw [List.take_length] at contents
  refine ⟨⟨wf, ?_, rfl⟩, count, contents, ?_⟩
  · exact (congrArg UInt32.toNat size).trans ready.size
  · change room tl ≤ 2048 - (rbIn tl.rxRb data (UInt32.ofNat data.length)).2.contents.length + 242
    rw [contents, List.length_append, room]
    omega

/-- A frame that is stored leaves room for the others, and so does what is asked for next. -/
theorem Ready.replied (ready : Ready next tl) {data : List UInt8} (short : data.length ≤ 242)
    (fits : 242 ≤ room tl) (ftype : ScomTlFrameType) {answer : ScomTl × List ScomTlMsg}
    (h : scomTlProcDataOkRes tl ftype next data = answer) :
    Ready (next + 1) answer.1 ∧ answer.1.status = tl.status ∧
    answer.1.rxRb.contents = tl.rxRb.contents ++ data ∧ room tl ≤ room answer.1 + 242 ∧
    ∀ msg ∈ answer.2, Asks (next + 1) (room answer.1) msg := by
  obtain ⟨took, -, contents, left⟩ := ready.takes short fits ftype
  rcases procDataOkRes_taken ((ready.taken_iff next).mpr rfl) ftype data with stored | requested
  · rw [stored] at h
    subst h
    exact ⟨took, rfl, contents, left, fun _ mem => absurd mem List.not_mem_nil⟩
  · rw [requested] at h
    subst h
    obtain ⟨ready', same⟩ := took.requested
    obtain ⟨status, ring, -⟩ := sendDataReq_same (takeFrame tl ftype next data)
    rw [same, ring]
    exact ⟨ready', status, contents, left, took.asks⟩

theorem Ready.read (ready : Ready next tl) (len : UInt32) :
    Ready next (readBytes tl len) ∧ room tl ≤ room (readBytes tl len) := by
  obtain ⟨wf, size, -, contents⟩ := ready.wf.taken len
  refine ⟨⟨wf, ?_, ready.fno⟩, ?_⟩
  · exact (congrArg UInt32.toNat size).trans ready.size
  · change _ ≤ 2048 - (rbOut tl.rxRb len).2.contents.length
    rw [room, contents, List.length_drop]
    omega

/-- A read changes nothing, takes bytes, asks for more, or stops the client. -/
theorem getData_cases (tl : ScomTl) (len : UInt32) :
    (scomTlGetData tl len).2 = (tl, []) ∨
    (scomTlGetData tl len).2 = (readBytes tl len, []) ∨
    (scomTlGetData tl len).2 = scomTlSendDataReq (readBytes tl len) ∨
    (tl.rxDataCtl.rxFtype = .lastFrame ∧
      (scomTlGetData tl len).2 = (scomTlStopClient (readBytes tl len), [])) := by
  unfold scomTlGetData
  split
  · exact .inl rfl
  · split
    · exact .inl rfl
    · dsimp only
      split
      · exact .inr (.inl rfl)
      · by_cases last : tl.rxDataCtl.rxFtype = .lastFrame
        · rw [if_neg (not_not.mpr last)]
          dsimp only
          split
          · exact .inr (.inr (.inr ⟨last, rfl⟩))
          · exact .inr (.inl rfl)
        · -- a request does not change the type of the last frame
          have ftype : (scomTlSendDataReq (readBytes tl len)).1.rxDataCtl.rxFtype ≠ .lastFrame := by
            rw [(sendDataReq_same _).2.2.2]
            exact last
          rw [if_pos last, if_neg fun both => ftype both.1]
          exact .inr (.inr (.inl rfl))

/-! ### The room for what is still to come -/

/-- The transfer is going on: its frames before `next` are stored, and there is room for
those of its requests that are still to come. -/
structure Going (next : Nat) (s : Requester) : Prop where
  ready : Ready next s.client
  asks : ∀ msg, (s.transfer, msg) ∈ s.made → Asks next (room s.client) msg
  stored : ∀ fno, (s.transfer, fno) ∈ s.stored ↔ fno < next
  last : s.client.rxDataCtl.rxFtype = .lastFrame → 0 < next

/-- A client that is not started has forgotten what it received. -/
structure Orderly (s : Requester) : Prop where
  wf : s.client.rxRb.Wf
  size : s.client.rxRb.size.toNat = 2048
  made : ∀ req ∈ s.made, req.1 ≤ s.transfer
  stored : ∀ frame ∈ s.stored, frame.1 ≤ s.transfer
  going : s.client.status = .clientStarted → ∃ next, Going next s
  ended : s.client.status ≠ .clientStarted → ∀ msg, (s.transfer, msg) ∈ s.made →
    s.client.rxDataCtl.rxFno = -1 ∧ (s.transfer, 0) ∈ s.stored

/-- A started client has its transfer going on. -/
theorem Going.orderly (next : Nat) (going : Going next s)
    (started : s.client.status = .clientStarted) (made : ∀ req ∈ s.made, req.1 ≤ s.transfer)
    (stored : ∀ frame ∈ s.stored, frame.1 ≤ s.transfer) : Orderly s where
  wf := going.ready.wf
  size := going.ready.size
  made
  stored
  going _ := ⟨next, going⟩
  ended idle := absurd started idle

theorem mem_made_append {made : List (Nat × ScomTlMsg)} {sent : List ScomTlMsg} {n : Nat}
    {req : Nat × ScomTlMsg} (mem : req ∈ made ++ sent.map (n, ·)) :
    req ∈ made ∨ (req.1 = n ∧ req.2 ∈ sent) := by
  rcases List.mem_append.mp mem with old | new
  · exact .inl old
  · obtain ⟨msg, sent, rfl⟩ := List.mem_map.mp new
    exact .inr ⟨rfl, sent⟩

theorem made_append_le {made : List (Nat × ScomTlMsg)} {sent : List ScomTlMsg} {n : Nat}
    (le : ∀ req ∈ made, req.1 ≤ n) : ∀ req ∈ made ++ sent.map (n, ·), req.1 ≤ n := by
  intro req mem
  rcases mem_made_append mem with old | ⟨same, -⟩
  · exact le req old
  · exact same.le

/-- What is asked for later has room as well. -/
theorem asks_append {made : List (Nat × ScomTlMsg)} {sent : List ScomTlMsg} {n room : Nat}
    (old : ∀ msg, (n, msg) ∈ made → Asks next room msg)
    (new : ∀ msg ∈ sent, Asks next room msg) :
    ∀ msg, (n, msg) ∈ made ++ sent.map (n, ·) → Asks next room msg := by
  intro msg mem
  rcases mem_made_append mem with mem | ⟨-, mem⟩
  · exact old msg mem
  · exact new msg mem

/-- The running transfer has room for a frame that answers one of its requests. -/
theorem Going.fits (going : Going next s) {ftype : ScomTlFrameType} {data : List UInt8}
    (answered : Answered s (.reply s.transfer ftype next data)) :
    242 ≤ room s.client ∧ data.length ≤ 242 := by
  obtain ⟨⟨⟨n, msg⟩, mem, rfl, covers⟩, short⟩ := answered
  refine ⟨?_, short⟩
  obtain ⟨first, fcnt, rfl, -, fits⟩ := going.asks msg mem
  obtain ⟨i, less, number⟩ := covers
  have wraps : (first + i) % 2 ^ 16 ≤ first + i := Nat.mod_le _ _
  have one : 1 ≤ first + fcnt - next := by omega
  calc 242 = 1 * 242 := rfl
    _ ≤ (first + fcnt - next) * 242 := Nat.mul_le_mul_right 242 one
    _ ≤ room s.client := fits

theorem clientStep_reply (s : Requester) (transfer : Nat) (ftype : ScomTlFrameType) (fno : Nat)
    (data : List UInt8) : clientStep s (.reply transfer ftype fno data) =
      { s with
        client := (scomTlProcDataOkRes s.client ftype fno data).1
        made := s.made ++ (scomTlProcDataOkRes s.client ftype fno data).2.map (s.transfer, ·)
        stored := if Taken s.client fno then (transfer, fno) :: s.stored else s.stored } := rfl

theorem clientStep_getData (s : Requester) (len : UInt32) : clientStep s (.getData len) =
    { s with
      client := (scomTlGetData s.client len).2.1
      made := s.made ++ (scomTlGetData s.client len).2.2.map (s.transfer, ·) } := rfl

theorem Orderly.reply (inv : Orderly s) {transfer fno : Nat} {ftype : ScomTlFrameType}
    {data : List UInt8} (answered : Answered s (.reply transfer ftype fno data))
    (timely : Timely s (.reply transfer ftype fno data)) :
    Orderly (clientStep s (.reply transfer ftype fno data)) := by
  by_cases taken : Taken s.client fno
  · obtain ⟨started, rfl⟩ := timely taken
    obtain ⟨next, going⟩ := inv.going started
    obtain rfl := (going.ready.taken_iff fno).mp taken
    obtain ⟨fits, short⟩ := going.fits answered
    obtain ⟨ready, status, -, left, asks⟩ := going.ready.replied short fits ftype rfl
    rw [clientStep_reply, if_pos taken]
    refine Going.orderly (fno + 1) ⟨ready, ?_, ?_, fun _ => Nat.succ_pos fno⟩
      (status.trans started) (made_append_le inv.made) ?_
    · exact asks_append (fun msg mem => (going.asks msg mem).stored left) asks
    · intro k
      rw [List.mem_cons, going.stored, Prod.mk.injEq, and_iff_right rfl]
      omega
    · intro frame mem
      rcases List.mem_cons.mp mem with rfl | mem
      · exact Nat.le_refl s.transfer
      · exact inv.stored frame mem
  · -- a frame that is dropped changes nothing
    have same : clientStep s (.reply transfer ftype fno data) = s := by
      rw [clientStep_reply, procDataOkRes_other taken, if_neg taken, List.map_nil, List.append_nil]
    rw [same]
    exact inv

/-- A started client after a read that did not stop it. -/
theorem Going.read (going : Going next s) (inv : Orderly s)
    (started : s.client.status = .clientStarted) {client : ScomTl} {sent : List ScomTlMsg}
    (ready : Ready next client) (status : client.status = s.client.status)
    (ftype : client.rxDataCtl.rxFtype = s.client.rxDataCtl.rxFtype)
    (left : room s.client ≤ room client) (asks : ∀ msg ∈ sent, Asks next (room client) msg) :
    Orderly { s with client, made := s.made ++ sent.map (s.transfer, ·) } := by
  refine Going.orderly next ⟨ready, ?_, going.stored, ?_⟩
    (status.trans started) (made_append_le inv.made) inv.stored
  · exact asks_append (fun msg mem => (going.asks msg mem).mono left) asks
  · exact fun last => going.last (ftype.symm.trans last)

theorem Orderly.getData (inv : Orderly s) (len : UInt32) :
    Orderly (clientStep s (.getData len)) := by
  have unchanged : (scomTlGetData s.client len).2 = (s.client, []) →
      Orderly (clientStep s (.getData len)) := by
    intro got
    rw [clientStep_getData, got, List.map_nil, List.append_nil]
    exact inv
  by_cases started : s.client.status = .clientStarted
  · obtain ⟨next, going⟩ := inv.going started
    obtain ⟨ready, left⟩ := going.ready.read len
    rcases getData_cases s.client len with got | got | got | ⟨last, got⟩
    · exact unchanged got
    · rw [clientStep_getData, got]
      exact going.read inv started ready rfl rfl left fun _ mem => absurd mem List.not_mem_nil
    · obtain ⟨requested, same⟩ := ready.requested
      obtain ⟨status, -, -, ftype⟩ := sendDataReq_same (readBytes s.client len)
      rw [clientStep_getData, got]
      exact going.read inv started requested status ftype (same ▸ left) (same ▸ ready.asks)
    · -- the last byte was read, so the first frame came
      obtain ⟨wf, size, -⟩ := ready.wf.cleaned
      rw [clientStep_getData, got]
      refine ⟨wf, ?_, made_append_le inv.made, inv.stored, nofun, ?_⟩
      · exact (congrArg UInt32.toNat size).trans ready.size
      · exact fun _ _ _ => ⟨rfl, (going.stored 0).mpr (going.last last)⟩
  · apply unchanged
    unfold scomTlGetData
    rw [if_pos started]

theorem Orderly.startClient (inv : Orderly s) : Orderly (clientStep s .startClient) := by
  by_cases started : s.client.status = .clientStarted
  · have same : clientStep s .startClient = s := by
      unfold clientStep scomTlStartClient
      rw [if_pos started]
      simp
    rw [same]
    exact inv
  · obtain ⟨wf, size, -⟩ := inv.wf.cleaned
    have ready : Ready 0 { s.client with rxRb := rbClean s.client.rxRb, rxDataCtl := .cleared } :=
      ⟨wf, (congrArg UInt32.toNat size).trans inv.size, rfl⟩
    obtain ⟨requested, same⟩ := ready.requested
    obtain ⟨-, -, -, ftype⟩ := sendDataReq_same
      { s.client with rxRb := rbClean s.client.rxRb, rxDataCtl := .cleared }
    have asks := same ▸ ready.asks
    unfold clientStep scomTlStartClient
    rw [if_neg started]
    dsimp only
    rw [if_pos rfl]
    -- nothing was asked for or stored under the new number
    have made : ∀ req ∈ s.made, req.1 ≤ s.transfer + 1 :=
      fun req mem => (inv.made req mem).trans (Nat.le_succ _)
    refine Going.orderly 0 ⟨⟨requested.wf, requested.size, requested.fno⟩, ?_, ?_, ?_⟩
      rfl (made_append_le made) fun frame mem => (inv.stored frame mem).trans (Nat.le_succ _)
    · refine asks_append (fun msg mem => ?_) asks
      exact absurd (inv.made _ mem) (Nat.not_succ_le_self _)
    · intro fno
      refine iff_of_false (fun mem => ?_) (Nat.not_lt_zero fno)
      exact absurd (inv.stored _ mem) (Nat.not_succ_le_self _)
    · intro last
      rw [ftype] at last
      cases last

theorem Fresh.orderly (fresh : Fresh s) : Orderly s where
  wf := fresh.client.rx
  size := fresh.client.rxSize
  made := by rw [fresh.made]; exact fun _ mem => absurd mem List.not_mem_nil
  stored := by rw [fresh.stored]; exact fun _ mem => absurd mem List.not_mem_nil
  going started := absurd started fresh.idle
  ended _ msg mem := by rw [fresh.made] at mem; exact absurd mem List.not_mem_nil

/-! ### Main results -/

theorem orderly_run (reached : Reach Fresh
    (Guarded (fun s a => Answered s a ∧ Timely s a) ClientStep) s) : Orderly s := by
  refine Reach.invariant (fun _ fresh => fresh.orderly) ?_ reached
  rintro s a t inv ⟨⟨answered, timely⟩, rfl⟩
  cases a with
  | startClient => exact inv.startClient
  | getData len => exact inv.getData len
  | reply transfer ftype fno data => exact inv.reply answered timely

/-- In a run whose replies were timely, the next one is kept if it is timely too; and only
then, if it answers a request of the last transfer. -/
theorem room_kept {transfer fno : Nat} {ftype : ScomTlFrameType} {data : List UInt8}
    (reached : Reach Fresh (Guarded (fun s a => Answered s a ∧ Timely s a) ClientStep) s)
    (answered : Answered s (.reply transfer ftype fno data)) :
    (Timely s (.reply transfer ftype fno data) → Kept s transfer ftype fno data) ∧
    (transfer = s.transfer → Kept s transfer ftype fno data →
      Timely s (.reply transfer ftype fno data)) := by
  have inv := orderly_run reached
  constructor
  · intro timely
    constructor
    · intro taken
      obtain ⟨started, rfl⟩ := timely taken
      obtain ⟨next, going⟩ := inv.going started
      obtain rfl := (going.ready.taken_iff fno).mp taken
      obtain ⟨fits, short⟩ := going.fits answered
      obtain ⟨-, whole, -⟩ := going.ready.takes short fits ftype
      obtain ⟨-, -, contents, -⟩ := going.ready.replied short fits ftype rfl
      exact ⟨whole, contents⟩
    · intro stored
      apply procDataOkRes_other
      intro taken
      obtain ⟨started, rfl⟩ := timely taken
      obtain ⟨next, going⟩ := inv.going started
      have same := (going.ready.taken_iff fno).mp taken
      have before := (going.stored fno).mp stored
      omega
  · rintro rfl kept taken
    refine ⟨?_, rfl⟩
    by_contra stopped
    obtain ⟨⟨⟨n, msg⟩, mem, rfl, -⟩, -⟩ := answered
    obtain ⟨reset, first⟩ := inv.ended stopped msg mem
    -- the client was stopped, so the frame it takes is the first one once more
    have zero : fno = 0 := by
      unfold Taken at taken
      rw [reset] at taken
      omega
    subst zero
    have fno : (scomTlProcDataOkRes s.client ftype 0 data).1.rxDataCtl.rxFno = 0 := by
      rcases procDataOkRes_taken taken ftype data with stored | requested
      · rw [stored]
        rfl
      · rw [requested, (sendDataReq_same _).2.2.1]
        rfl
    rw [kept.once first, reset] at fno
    cases fno

def freshRequester : Requester := ⟨freshSide, 0, [], []⟩

theorem fresh_freshRequester : Fresh freshRequester := ⟨prepared_fresh, nofun, rfl, rfl⟩

def fullFrame : List UInt8 := List.replicate 242 0x55

/-- After the first frame, it comes again, and then the second one. -/
theorem room_kept_second :
    Kept (clientStep (clientStep freshRequester .startClient) (.reply 1 .startFrame 0 fullFrame))
      1 .startFrame 0 fullFrame ∧
    Kept (clientStep (clientStep freshRequester .startClient) (.reply 1 .startFrame 0 fullFrame))
      1 .middleFrame 1 fullFrame := by
  have start : Reach Fresh (Guarded (fun s a => Answered s a ∧ Timely s a) ClientStep)
      (clientStep freshRequester .startClient) :=
    .next .startClient (.start fresh_freshRequester) ⟨⟨trivial, trivial⟩, rfl⟩
  have first : Answered (clientStep freshRequester .startClient)
      (.reply 1 .startFrame 0 fullFrame) := by decide +kernel
  have reached := Reach.next _ start ⟨⟨first, fun _ => ⟨rfl, rfl⟩⟩, rfl⟩
  constructor
  · exact (room_kept reached (by decide +kernel)).1 fun _ => ⟨rfl, rfl⟩
  · exact (room_kept reached (by decide +kernel)).1 fun _ => ⟨rfl, rfl⟩

/-- Nine frames and their reads, and the first eight frames once more. -/
def doubledReplies : List ClientAct :=
  let middle := fun fno => ClientAct.reply 1 .middleFrame fno fullFrame
  [.startClient, .reply 1 .startFrame 0 fullFrame, middle 1, middle 2, middle 3, middle 4,
    .getData 2048, middle 5, middle 6, middle 7, .reply 1 .lastFrame 8 fullFrame, .getData 2048,
    .reply 1 .startFrame 0 fullFrame, middle 1, middle 2, middle 3, middle 4, middle 5, middle 6,
    middle 7]

/-- The replies of a transfer come a second time after its end: they are stored again, and of
the ninth frame only 112 bytes fit. -/
theorem late_replies_overflow : ∃ s, Reach Fresh (Guarded Answered ClientStep) s ∧
    Answered s (.reply 1 .lastFrame 8 fullFrame) ∧ Taken s.client 8 ∧ (1, 8) ∈ s.stored ∧
    (rbIn s.client.rxRb fullFrame (UInt32.ofNat fullFrame.length)).1.toNat = 112 ∧
    ¬ Kept s 1 .lastFrame 8 fullFrame := by
  have facts : ((doubledReplies.foldlM
      (fun s a => if Answered s a then some (clientStep s a) else none) freshRequester).map
      fun s => decide (Answered s (.reply 1 .lastFrame 8 fullFrame) ∧ Taken s.client 8 ∧
        (1, 8) ∈ s.stored ∧
        (rbIn s.client.rxRb fullFrame (UInt32.ofNat fullFrame.length)).1.toNat = 112)) =
      some true := by decide +kernel
  obtain ⟨s, run, holds⟩ := Option.map_eq_some_iff.mp facts
  obtain ⟨answered, taken, stored, cut⟩ := of_decide_eq_true holds
  refine ⟨s, ?_, answered, taken, stored, cut, ?_⟩
  · refine Reach.along (.start fresh_freshRequester) doubledReplies (fun a _ s t step => ?_) run
    obtain ⟨ok, next⟩ := Option.ite_none_right_eq_some.mp step
    exact ⟨ok, Option.some.inj next⟩
  · intro kept
    have whole := (kept.whole taken).1
    rw [cut, fullFrame, List.length_replicate] at whole
    omega

end Scom
